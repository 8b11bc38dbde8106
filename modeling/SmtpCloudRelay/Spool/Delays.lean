/-
  DELAYS IN 64 BITS: the two numbers from which the worker computes when a record is due again.

  A duration is a signed 64-bit number of nanoseconds, and a product that does not fit WRAPS.  The
  worker multiplies twice without a test:

  * `submitRetryDelay` is the base delay times a power of two.  The power is bounded, the product is not.
  * `parseRetryAfter` turns the provider's number of seconds into nanoseconds.

  In both places a number that is too large becomes a negative or a small one, where one would expect the
  largest duration.  Both products are EVEN and the largest duration is ODD, so a product that wraps is
  never right by accident (`wrap64_eq_min`): each of the two results is an equivalence.
-/
import SmtpCloudRelay.Spool.Backoff
import Mathlib.Algebra.Order.GroupWithZero.Basic

namespace SmtpCloudRelay.Spool

open Go Lib Acs

/-! ## An even product -/

/-- A positive number that fits does not wrap. -/
theorem wrap64_of_le {n : Int} (h : 0 ≤ n) (hmax : n ≤ maxDuration) : wrap64 n = n :=
  wrap64_of_range (le_trans (by decide) h) hmax

/-- **An even number saturates exactly if it fits**: a number that wraps stays even. -/
theorem wrap64_eq_min {n : Int} (h : 0 ≤ n) (heven : 2 ∣ n) :
    wrap64 n = min maxDuration n ↔ n ≤ maxDuration := by
  constructor
  · intro heq
    by_contra hbig
    have hmin : min maxDuration n = maxDuration := by omega
    rw [hmin] at heq
    unfold wrap64 maxDuration at heq
    rw [Int.bmod_def] at heq
    split at heq <;> omega
  · intro hmax
    rw [wrap64_of_le h hmax]
    omega

/-! ## The worker's own delay -/

variable {w : Worker}

/-- A record with this many attempts is retried. -/
def Worker.Retries (w : Worker) (a : Int) : Prop := 0 ≤ a ∧ a < w.cfg.retryAttempts

theorem Worker.retries_iff (w : Worker) {rec : Record} (h : 0 ≤ rec.attempt) :
    w.Retries rec.attempt ↔ w.submitRetryAllowed rec = true := by
  unfold Worker.Retries Worker.submitRetryAllowed
  simp [h]

/-- **The delay saturates.** -/
structure DelaysSaturate [Unicode] (w : Worker) : Prop where
  value : ∀ a, w.Retries a → w.submitRetryDelay a = min maxDuration (w.backoff a)
  positive : ∀ a, w.Retries a → 0 < w.submitRetryDelay a
  monotone : ∀ a b, w.Retries a → w.Retries b → a ≤ b → w.submitRetryDelay a ≤ w.submitRetryDelay b
  /-- The time that is given to `MarkRetry`. -/
  next : ∀ now rec answer action due lastErr, 0 ≤ rec.attempt →
    w.queuedOutcome now rec answer = ⟨action, .retry rec due lastErr⟩ → now + w.cfg.retryBaseDelay ≤ due

theorem backoff_pos (w : Worker) (a : Int) : 0 < w.backoff a :=
  Int.mul_pos w.valid.retryBaseDelay (Int.pow_pos (by decide))

theorem backoff_mono (w : Worker) {a b : Int} (h : a ≤ b) : w.backoff a ≤ w.backoff b := by
  have hexp : (min a 30).toNat ≤ (min b 30).toNat := by omega
  have hpow : (2 : Int) ^ (min a 30).toNat ≤ 2 ^ (min b 30).toNat :=
    pow_le_pow_right₀ (by decide) hexp
  exact Int.mul_le_mul_of_nonneg_left hpow w.valid.retryBaseDelay.le

theorem base_le_backoff (w : Worker) (a : Int) : w.cfg.retryBaseDelay ≤ w.backoff a := by
  have hpow : (1 : Int) ≤ 2 ^ (min a 30).toNat := Int.pow_pos (by decide)
  have hmul := Int.mul_le_mul_of_nonneg_left hpow w.valid.retryBaseDelay.le
  rw [Int.mul_one] at hmul
  exact hmul

/-- The delay is the saturated one exactly if the product fits. -/
theorem submitRetryDelay_saturates {a : Int} (ha : 0 ≤ a) (hbase : w.cfg.retryBaseDelay ≤ maxDuration) :
    w.submitRetryDelay a = min maxDuration (w.backoff a) ↔ w.backoff a ≤ maxDuration := by
  have hpos := backoff_pos w a
  have hdelay : w.submitRetryDelay a = wrap64 (w.backoff a) := by
    have hexp : (min 30 (max 0 a)).toNat = (min a 30).toNat := by omega
    unfold Worker.submitRetryDelay Worker.backoff
    rw [hexp]
  rw [hdelay]
  rcases Nat.eq_zero_or_pos (min a 30).toNat with hzero | hexp
  · -- the first delay is the base delay itself
    have hfits : w.backoff a ≤ maxDuration := by
      unfold Worker.backoff
      rw [hzero, Int.pow_zero, Int.mul_one]
      exact hbase
    rw [wrap64_of_le hpos.le hfits]
    omega
  · refine wrap64_eq_min hpos.le ?_
    obtain ⟨k, hk⟩ : ∃ k, (min a 30).toNat = k + 1 := ⟨_, (Nat.succ_pred_eq_of_pos hexp).symm⟩
    unfold Worker.backoff
    rw [hk, Int.pow_succ]
    exact Dvd.intro_left _ (Int.mul_assoc _ _ _)

/-- Which outcome of a submission is a retry, and when it is due. -/
theorem queuedOutcome_retry [Unicode] {now due : Int} {rec : Record}
    {answer : Except GoError SubmissionResult}
    {action : String} {lastErr : Option LastError}
    (h : w.queuedOutcome now rec answer = ⟨action, .retry rec due lastErr⟩) :
    w.submitRetryAllowed rec = true ∧ due = now + w.submitRetryDelay rec.attempt := by
  have hcase : ∀ (e : LastError) (retry dead : String),
      w.retryOrDeadLetter now rec e retry dead = ⟨action, .retry rec due lastErr⟩ →
      w.submitRetryAllowed rec = true ∧ due = now + w.submitRetryDelay rec.attempt := by
    intro e retry dead heq
    unfold Worker.retryOrDeadLetter at heq
    split at heq
    · rename_i hallowed
      obtain ⟨-, hallowed⟩ := Bool.and_eq_true_iff.mp hallowed
      cases heq
      exact ⟨hallowed, rfl⟩
    · nomatch heq
  cases answer with
  | error err => exact hcase _ _ _ h
  | ok result =>
    unfold Worker.queuedOutcome at h
    dsimp only at h
    split at h
    · nomatch h
    · split at h <;> nomatch h
    · exact hcase _ _ _ h
    · exact hcase _ _ _ h
    · nomatch h

/-- **The worker's retry delay saturates exactly if its largest delay fits in 64 bits.** -/
theorem delays_saturate_iff [Unicode] (w : Worker) (hbase : w.cfg.retryBaseDelay ≤ maxDuration) :
    DelaysSaturate w ↔
      w.cfg.retryBaseDelay * 2 ^ (min (w.cfg.retryAttempts - 1) 30).toNat ≤ maxDuration := by
  have hattempts := w.valid.retryAttempts
  constructor
  · intro h
    have hlast : w.Retries (w.cfg.retryAttempts - 1) := ⟨by omega, by omega⟩
    exact (submitRetryDelay_saturates hlast.1 hbase).mp (h.value _ hlast)
  · intro hfits
    -- no attempt has a longer delay than the last
    have hall : ∀ a, w.Retries a → w.backoff a ≤ maxDuration := fun a ha =>
      (backoff_mono w (by have := ha.2; omega)).trans hfits
    have hvalue : ∀ a, w.Retries a → w.submitRetryDelay a = w.backoff a := fun a ha =>
      submitRetryDelay_eq (hall a ha)
    refine ⟨fun a ha => (submitRetryDelay_saturates ha.1 hbase).mpr (hall a ha), fun a ha => ?_,
      fun a b ha hb hab => ?_, fun now rec answer action due lastErr hrec heq => ?_⟩
    · rw [hvalue a ha]
      exact backoff_pos w a
    · rw [hvalue a ha, hvalue b hb]
      exact backoff_mono w hab
    · obtain ⟨hallowed, rfl⟩ := queuedOutcome_retry heq
      rw [hvalue _ ((w.retries_iff hrec).mpr hallowed)]
      have := base_le_backoff w rec.attempt
      omega

/-- The worker with three retries, one second apart. -/
theorem delays_saturate_sample :
    letI := Unicode.ascii
    sampleWorker.cfg.retryBaseDelay ≤ maxDuration ∧ DelaysSaturate sampleWorker := by
  let _ := Unicode.ascii
  exact ⟨by decide, (delays_saturate_iff sampleWorker (by decide)).mpr (by decide)⟩

/-- A worker that begins with one hour, and retries thirty times. -/
def hourlyWorker : Worker where
  cfg := ⟨second, second, second, 30, 3600 * second, 24 * 3600 * second, []⟩
  valid := by constructor <;> decide

/-- **Its twenty-third retry is due before it failed**: the delay has become negative. -/
theorem hourlyWorker_goes_back :
    letI := Unicode.ascii
    hourlyWorker.Retries 22 ∧ hourlyWorker.submitRetryDelay 22 < 0 ∧ ¬ DelaysSaturate hourlyWorker := by
  let _ := Unicode.ascii
  have hretries : hourlyWorker.Retries 22 := ⟨by decide, by decide⟩
  have hneg : hourlyWorker.submitRetryDelay 22 < 0 := by decide
  refine ⟨hretries, hneg, fun h => ?_⟩
  have hpos := h.positive 22 hretries
  omega

/-! ## The provider's delay -/

section RetryAfter

variable {lib : ProviderLib} {raw : GoString}

/-- The header is a number of seconds. -/
def AsksSeconds (raw : GoString) (n : Nat) : Prop := atoi (trimSpace raw) = some (n : Int)

/-- **The header is read monotonically**, for the headers of `S`. -/
structure ReadsRetryAfter [Unicode] (lib : ProviderLib) (w : Worker) (S : GoString → Prop) : Prop where
  nonneg : ∀ raw, S raw → 0 ≤ parseRetryAfter lib raw
  value : ∀ raw n, S raw → AsksSeconds raw n → parseRetryAfter lib raw = min maxDuration (n * second)
  /-- After a submission that is still running. -/
  submitted : ∀ raw raw' m n, S raw → S raw' → AsksSeconds raw m → AsksSeconds raw' n → 1 ≤ m → m ≤ n →
    ∀ now rec action action' due due' (r r' : SubmissionResult),
      r.retryAfter = parseRetryAfter lib raw → r'.retryAfter = parseRetryAfter lib raw' →
      w.queuedOutcome now rec (.ok r) = ⟨action, .submitted rec r due⟩ →
      w.queuedOutcome now rec (.ok r') = ⟨action', .submitted rec r' due'⟩ → due ≤ due'
  /-- After a poll that says so. -/
  polled : ∀ raw raw' m n, S raw → S raw' → AsksSeconds raw m → AsksSeconds raw' n → 1 ≤ m → m ≤ n →
    ∀ now rec rec1 rec2 action action' due due' (r r' : SubmissionStatus),
      r.retryAfter = parseRetryAfter lib raw → r'.retryAfter = parseRetryAfter lib raw' →
      w.submittedOutcome now rec (.ok r) = ⟨action, .retry rec1 due none⟩ →
      w.submittedOutcome now rec (.ok r') = ⟨action', .retry rec2 due' none⟩ → due ≤ due'

theorem queuedOutcome_submitted [Unicode] {now due : Int} {rec : Record} {r : SubmissionResult}
    {action : String}
    (h : w.queuedOutcome now rec (.ok r) = ⟨action, .submitted rec r due⟩) :
    due = w.nextPoll now r.retryAfter := by
  unfold Worker.queuedOutcome at h
  dsimp only at h
  unfold Worker.retryOrDeadLetter at h
  split at h
  · nomatch h
  · split at h
    · nomatch h
    · cases h
      rfl
  · split at h <;> nomatch h
  · split at h <;> nomatch h
  · nomatch h

theorem submittedOutcome_retry [Unicode] {now due : Int} {rec rec1 : Record} {r : SubmissionStatus}
    {action : String} {lastErr : Option LastError}
    (h : w.submittedOutcome now rec (.ok r) = ⟨action, .retry rec1 due lastErr⟩) :
    due = w.nextPoll now r.retryAfter := by
  unfold Worker.submittedOutcome at h
  dsimp only at h
  split at h
  · cases h
    rfl
  all_goals nomatch h

/-- What a number of seconds becomes. -/
theorem parseRetryAfter_seconds {n : Nat} (h : AsksSeconds raw n) :
    parseRetryAfter lib raw = wrap64 (n * second) := by
  have hne : trimSpace raw ≠ [] := by
    intro hnil
    unfold AsksSeconds at h
    rw [hnil] at h
    nomatch h
  have h : atoi (trimSpace raw) = some (.ofNat n) := h
  unfold parseRetryAfter
  dsimp only
  rw [if_neg hne, h]

/-- A header that is no number of seconds is never negative: it is a date in the future, or nothing. -/
theorem parseRetryAfter_other (h : ∀ n, ¬ AsksSeconds raw n) : 0 ≤ parseRetryAfter lib raw := by
  unfold parseRetryAfter
  dsimp only
  split
  · exact le_refl 0
  · split
    · rename_i n hn
      exact absurd hn (h n)
    · split
      · exact le_refl 0
      · split <;> omega

theorem nextPoll_mono {now a b : Int} (ha : 0 < a) (hab : a ≤ b) : w.nextPoll now a ≤ w.nextPoll now b := by
  unfold Worker.nextPoll
  rw [if_pos ha, if_pos (by omega)]
  omega

/-- **Headers are read monotonically exactly if every number of seconds fits in a duration.** -/
theorem reads_retryAfter_iff [Unicode] (lib : ProviderLib) (w : Worker) (S : GoString → Prop) :
    ReadsRetryAfter lib w S ↔ ∀ raw n, S raw → AsksSeconds raw n → n * second ≤ maxDuration := by
  have hsecond : 0 < second := by decide
  have hnonneg : ∀ n : Nat, 0 ≤ (n : Int) * second := fun n =>
    Int.mul_nonneg (Int.natCast_nonneg n) hsecond.le
  constructor
  · intro h raw n hS hn
    have hvalue := h.value raw n hS hn
    rw [parseRetryAfter_seconds hn] at hvalue
    have heven : (2 : Int) ∣ n * second := Dvd.dvd.mul_left (by decide) _
    exact (wrap64_eq_min (hnonneg n) heven).mp hvalue
  · intro hfits
    have hread : ∀ raw n, S raw → AsksSeconds raw n → parseRetryAfter lib raw = n * second :=
      fun raw n hS hn =>
        (parseRetryAfter_seconds hn).trans (wrap64_of_le (hnonneg n) (hfits raw n hS hn))
    -- a positive number of seconds is a positive delay, and a larger one a larger delay
    have hlater : ∀ raw raw' m n, S raw → S raw' → AsksSeconds raw m → AsksSeconds raw' n →
        1 ≤ m → m ≤ n → ∀ now, w.nextPoll now (parseRetryAfter lib raw) ≤
          w.nextPoll now (parseRetryAfter lib raw') := by
      intro raw raw' m n hS hS' hm hn hone hmn now
      rw [hread raw m hS hm, hread raw' n hS' hn]
      refine nextPoll_mono (Int.mul_pos (by omega) hsecond) ?_
      exact Int.mul_le_mul_of_nonneg_right (by omega) hsecond.le
    constructor
    · intro raw hS
      by_cases hsec : ∃ n, AsksSeconds raw n
      · obtain ⟨n, hn⟩ := hsec
        rw [hread raw n hS hn]
        exact hnonneg n
      · exact parseRetryAfter_other fun n hn => hsec ⟨n, hn⟩
    · intro raw n hS hn
      rw [hread raw n hS hn, min_eq_right (hfits raw n hS hn)]
    · intro raw raw' m n hS hS' hm hn hone hmn now rec action action' due due' r r' hr hr' hq hq'
      rw [queuedOutcome_submitted hq, queuedOutcome_submitted hq', hr, hr']
      exact hlater raw raw' m n hS hS' hm hn hone hmn now
    · intro raw raw' m n hS hS' hm hn hone hmn now rec rec1 rec2 action action' due due' r r' hr hr' hq hq'
      rw [submittedOutcome_retry hq, submittedOutcome_retry hq', hr, hr']
      exact hlater raw raw' m n hS hS' hm hn hone hmn now

/-- A library that reads no date. -/
def undatedLib : ProviderLib where
  urlParse s := .ok ⟨lit "https", s, s⟩
  decodeBase64 s := .ok s
  parseAddress s := .ok s
  readFile _ := .ok []
  hasCerts _ := false
  loadAWSConfig _ := .ok ()
  decodeOperation _ := .ok []
  httpDateDelay _ := none

/-- **A delay of three centuries is negative, and one of six is shorter than a second.**  The first is
    then taken for no delay, and the second brings the poll forward. -/
theorem retryAfter_wraps :
    letI := Unicode.ascii
    AsksSeconds (lit "9223372037") 9223372037 ∧
    parseRetryAfter undatedLib (lit "9223372037") < 0 ∧
    parseRetryAfter undatedLib (lit "18446744074") = 290448384 ∧
    sampleWorker.nextPoll 0 (parseRetryAfter undatedLib (lit "18446744074")) <
      sampleWorker.nextPoll 0 (parseRetryAfter undatedLib (lit "3600")) ∧
    ¬ ReadsRetryAfter undatedLib sampleWorker fun _ => True := by
  let _ := Unicode.ascii
  have hneg : parseRetryAfter undatedLib (lit "9223372037") < 0 := by decide
  refine ⟨by unfold AsksSeconds; decide, hneg, by decide, by decide, fun h => ?_⟩
  have hpos := h.nonneg (lit "9223372037") trivial
  omega

end RetryAfter

end SmtpCloudRelay.Spool
