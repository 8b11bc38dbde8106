/-
  THE WORKER'S CONFIGURATION, and what `spool.NewWorker` accepts of it.

  A `Worker` is a configuration together with the proof that it was accepted, so that the loop
  never meets a timeout, an interval or a retry count that is not positive.
-/
import SmtpCloudRelay.Errors
import SmtpCloudRelay.Go.Time
import SmtpCloudRelay.Lib.Checks

namespace SmtpCloudRelay.Spool

open Go Lib

/-- `spool.WorkerConfig`; durations are in nanoseconds. -/
structure WorkerConfig where
  submitTimeout : Int
  finalizeTimeout : Int
  pollInterval : Int
  retryAttempts : Int
  retryBaseDelay : Int
  submittedTimeout : Int
  providerName : GoString
  deriving DecidableEq

/-- `spool.DefaultFinalizeTimeout`. -/
def defaultFinalizeTimeout : Int := 5 * second

/-- `spool.DefaultSubmittedTimeout`. -/
def defaultSubmittedTimeout : Int := 24 * 3600 * second

/-- What the worker relies on. -/
structure WorkerConfig.Valid (cfg : WorkerConfig) : Prop where
  submitTimeout : 0 < cfg.submitTimeout
  finalizeTimeout : 0 < cfg.finalizeTimeout
  pollInterval : 0 < cfg.pollInterval
  retryAttempts : 1 ≤ cfg.retryAttempts
  retryBaseDelay : 0 < cfg.retryBaseDelay
  submittedTimeout : 0 < cfg.submittedTimeout

/-- The checks of `NewWorker`. -/
def WorkerConfig.check (cfg : WorkerConfig) : Except GoError Unit := do
  failIf (cfg.submitTimeout ≤ 0) (.errorf "spool worker submit timeout must be > 0")
  failIf (cfg.finalizeTimeout ≤ 0) (.errorf "spool worker finalize timeout must be > 0")
  failIf (cfg.pollInterval ≤ 0) (.errorf "spool worker poll interval must be > 0")
  failIf (cfg.retryAttempts < 1) (.errorf "spool worker retry attempts must be >= 1")
  failIf (cfg.retryBaseDelay ≤ 0) (.errorf "spool worker retry base delay must be > 0")
  failIf (cfg.submittedTimeout ≤ 0) (.errorf "spool worker submitted timeout must be > 0")

/-- **The checks accept exactly the valid configurations.** -/
theorem WorkerConfig.check_ok {cfg : WorkerConfig} : cfg.check = .ok () ↔ cfg.Valid := by
  unfold WorkerConfig.check
  rw [failIf_bind_eq_ok, failIf_bind_eq_ok, failIf_bind_eq_ok, failIf_bind_eq_ok,
    failIf_bind_eq_ok, failIf_eq_ok]
  constructor
  · rintro ⟨h1, h2, h3, h4, h5, h6⟩
    exact ⟨by omega, by omega, by omega, by omega, by omega, by omega⟩
  · rintro ⟨h1, h2, h3, h4, h5, h6⟩
    exact ⟨by omega, by omega, by omega, by omega, by omega, by omega⟩

/-- `spool.Worker`, as far as it is its configuration. -/
structure Worker where
  cfg : WorkerConfig
  valid : cfg.Valid

/-- `spool.NewWorker`, with a store and a provider. -/
def newWorker (cfg : WorkerConfig) : Except GoError Worker :=
  match h : cfg.check with
  | .error e => .error e
  | .ok () => .ok ⟨cfg, WorkerConfig.check_ok.mp h⟩

theorem newWorker_ok {cfg : WorkerConfig} : (∃ w, newWorker cfg = .ok w) ↔ cfg.Valid := by
  rw [← WorkerConfig.check_ok]
  unfold newWorker
  split
  · rename_i e h
    rw [h]
    constructor
    · rintro ⟨w, hw⟩
      nomatch hw
    · intro hw
      nomatch hw
  · rename_i h
    exact ⟨fun _ => h, fun _ => ⟨_, rfl⟩⟩

/-- A worker with three retries. -/
def sampleWorker : Worker where
  cfg := ⟨second, second, second, 3, second, 3600 * second, []⟩
  valid := by constructor <;> decide

end SmtpCloudRelay.Spool
