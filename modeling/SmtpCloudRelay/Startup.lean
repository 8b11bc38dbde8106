/-
  STARTUP: from a validated configuration to a worker.

  `main` validates the configuration, builds the provider, and derives the worker's configuration
  from both; `NewWorker` then checks it once more, by rules of its own.  Two things can go wrong
  between the three:

  * the NOOP mode, which validation admits, comes without a send timeout, and the worker refuses
    a timeout that is not positive;
  * a number of milliseconds is turned into a duration by a 64-bit multiplication, which wraps for
    numbers above `maxMillis` that validation admits.

  `starts_iff` says that nothing else can: a validated configuration whose provider can be built
  starts, with the intervals it names, exactly when neither of the two applies.
-/
import SmtpCloudRelay.Providers.Factory
import SmtpCloudRelay.Spool.WorkerConfig

namespace SmtpCloudRelay

open Go Lib Spool

/-- The worker configuration that `main` derives. -/
def workerConfig (c : Config) (rt : Providers.Runtime) : WorkerConfig where
  submitTimeout := rt.sendTimeout
  finalizeTimeout := defaultFinalizeTimeout
  pollInterval := durationOfMillis c.spoolPollIntervalMS
  retryAttempts := c.deliveryRetryAttempts
  retryBaseDelay := durationOfMillis c.deliveryRetryBaseDelayMS
  submittedTimeout := defaultSubmittedTimeout
  providerName := c.deliveryMode

/-- The process starts as configured: the worker is accepted, and its two intervals are the
    configured numbers of milliseconds. -/
structure Starts (c : Config) (rt : Providers.Runtime) : Prop where
  accepted : ∃ w, newWorker (workerConfig c rt) = .ok w
  pollInterval : (workerConfig c rt).pollInterval = c.spoolPollIntervalMS * millisecond
  retryBaseDelay : (workerConfig c rt).retryBaseDelay = c.deliveryRetryBaseDelayMS * millisecond

section Chain

variable [Unicode] {lib : ProviderLib}

/-- A built runtime has a send timeout unless the mode is noop. -/
theorem sendTimeout_pos_iff {c : Config} {rt : Providers.Runtime}
    (hmode : c.deliveryMode ∈ Config.modes) (hbuild : Providers.build lib c = .ok rt) :
    0 < rt.sendTimeout ↔ c.deliveryMode = lit "acs" ∨ c.deliveryMode = lit "ses" := by
  have hpos : 0 < Providers.sendTimeoutOf c := Providers.runtimeSendTimeout_pos ..
  rcases List.mem_cons.mp hmode with hm | hmode
  · rw [Providers.build_budget (Or.inl hm) hbuild]
    exact ⟨fun _ => Or.inl hm, fun _ => hpos⟩
  · rcases List.mem_cons.mp hmode with hm | hmode
    · rw [Providers.build_noop hm hbuild, hm]
      decide
    · have hm := List.mem_singleton.mp hmode
      rw [Providers.build_budget (Or.inr hm) hbuild]
      exact ⟨fun _ => Or.inr hm, fun _ => hpos⟩

/-- **When a validated configuration starts.** -/
theorem starts_iff (parsePrefix : GoString → Except GoError Prefix) (lib : ProviderLib) (c : Config)
    (rt : Providers.Runtime) (hvalid : Config.validate parsePrefix c = .ok ())
    (hbuild : Providers.build lib c = .ok rt) :
    Starts c rt ↔
      (c.deliveryMode = lit "acs" ∨ c.deliveryMode = lit "ses") ∧
      c.spoolPollIntervalMS ≤ maxMillis ∧ c.deliveryRetryBaseDelayMS ≤ maxMillis := by
  have hv := Config.valid_of_validate hvalid
  have hpoll := durationOfMillis_eq hv.pollInterval
  have hbase := durationOfMillis_eq hv.retryBaseDelay
  constructor
  · rintro ⟨haccepted, hp, hb⟩
    have hworker := newWorker_ok.mp haccepted
    exact ⟨(sendTimeout_pos_iff hv.mode hbuild).mp hworker.submitTimeout, hpoll.mp hp, hbase.mp hb⟩
  · rintro ⟨hmode, hp, hb⟩
    refine ⟨newWorker_ok.mpr ?_, hpoll.mpr hp, hbase.mpr hb⟩
    exact {
      submitTimeout := (sendTimeout_pos_iff hv.mode hbuild).mpr hmode
      finalizeTimeout := (by decide : 0 < defaultFinalizeTimeout)
      pollInterval := durationOfMillis_pos hv.pollInterval hp
      retryAttempts := hv.retryAttempts.1
      retryBaseDelay := durationOfMillis_pos hv.retryBaseDelay hb
      submittedTimeout := (by decide : 0 < defaultSubmittedTimeout) }

end Chain

/-- A library for which every URL is an endpoint with TLS and everything decodes. -/
def easyLib : ProviderLib where
  urlParse s := .ok ⟨lit "https", lit "acs.test", s⟩
  decodeBase64 s := .ok s
  parseAddress s := .ok s
  readFile _ := .ok []
  hasCerts _ := true
  loadAWSConfig _ := .ok ()
  decodeOperation _ := .ok []
  httpDateDelay _ := none

/-- The small configuration in the noop mode. -/
def noopConfig : Config := { Config.small with deliveryMode := lit "noop" }

/-- The small configuration with a poll interval of 2^63 - 1 milliseconds. -/
def longPollConfig : Config := { Config.small with spoolPollIntervalMS := 9223372036854775807 }

/-- The noop mode is validated and built, and the worker refuses it; and with the largest integer
    as poll interval the configuration is validated and built, and the interval wraps to minus one
    millisecond. -/
theorem validated_configs_that_do_not_start :
    letI := Unicode.ascii
    (Config.validate Config.tenNet noopConfig = .ok () ∧
      Providers.build easyLib noopConfig = .ok ⟨.noop, 0⟩ ∧
      (workerConfig noopConfig ⟨.noop, 0⟩).check =
        .error (.errorf "spool worker submit timeout must be > 0") ∧
      ¬ Starts noopConfig ⟨.noop, 0⟩) ∧
    (Config.validate Config.tenNet longPollConfig = .ok () ∧
      ∃ rt, Providers.build easyLib longPollConfig = .ok rt ∧
        (workerConfig longPollConfig rt).pollInterval = -millisecond ∧
        ¬ Starts longPollConfig rt) := by
  let _ := Unicode.ascii
  refine ⟨⟨rfl, rfl, rfl, fun h => ?_⟩, rfl, _, rfl, by decide, fun h => ?_⟩
  · exact absurd (newWorker_ok.mp h.accepted).submitTimeout (by decide)
  · exact absurd (newWorker_ok.mp h.accepted).pollInterval (by decide)

/-- The small configuration starts. -/
theorem small_config_starts :
    letI := Unicode.ascii
    ∃ rt, Providers.build easyLib Config.small = .ok rt ∧ Starts Config.small rt := by
  let _ := Unicode.ascii
  refine ⟨_, rfl, (starts_iff Config.tenNet easyLib Config.small _ rfl rfl).mpr ⟨Or.inl rfl, ?_, ?_⟩⟩
  · decide
  · decide

end SmtpCloudRelay
