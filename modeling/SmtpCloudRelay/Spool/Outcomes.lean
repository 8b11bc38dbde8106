/-
  WHAT THE WORKER STORES, branch by branch.

  The branches of `processQueuedOnce` and `processSubmittedOnce` end in one of four records: requeued,
  dead-lettered, submitted, succeeded.  `queued_stores` and `submitted_stores` say for every answer of
  the provider which of them it is, and what the record then says about the provider; the rest of
  the development knows the branches by these two statements only.
-/
import SmtpCloudRelay.Spool.Duty

namespace SmtpCloudRelay.Spool

open Go Lib

/-! ## Answers of Submit -/

/-- The provider has accepted the message: it is delivered, or an operation is running that can be
    asked for. -/
def Accepted : Except GoError SubmissionResult → Prop
  | .ok r => r.state = .succeeded ∨ (r.state = .running ∧ r.operationID ≠ [])
  | .error _ => False

/-- A record that says nothing about the provider. -/
structure Record.Blank (rec : Record) : Prop where
  operationID : rec.operationID = []
  operationLocation : rec.operationLocation = []
  providerMessageID : rec.providerMessageID = []
  firstSubmittedAt : rec.firstSubmittedAt = zeroTime

section

variable [Unicode]

/-- The attempt has failed, and the worker takes the failure for a temporary one. -/
def FailedTemporarily : Except GoError SubmissionResult → Prop
  | .error e => (lastErrorFromProviderError e 0).temporary = true
  | .ok r => (r.state = .failed ∨ r.state = .canceled) ∧
      ∃ f, r.failure = some f ∧ f.temporary = true

variable {answer : Except GoError SubmissionResult} {now : Int} {m : Metadata} {msg : Message}

theorem FailedTemporarily.not_accepted (h : FailedTemporarily answer) : ¬ Accepted answer := by
  cases answer with
  | error e => exact fun ha => ha
  | ok r =>
    rintro (ha | ha)
    · rcases h.1 with hs | hs <;> rw [ha] at hs <;> nomatch hs
    · rcases h.1 with hs | hs <;> rw [ha.1] at hs <;> nomatch hs

theorem lastErrorFromProviderError_temporary (e : GoError) (now : Int) :
    (lastErrorFromProviderError e now).temporary = (lastErrorFromProviderError e 0).temporary := by
  unfold lastErrorFromProviderError
  cases e.asDeliveryError <;> rfl

omit [Unicode] in
theorem lastErrorFromSubmissionFailure_temporary {failure : Option SubmissionFailure}
    {fallback : GoString} : (lastErrorFromSubmissionFailure failure now fallback).temporary = true ↔
      ∃ f, failure = some f ∧ f.temporary = true := by
  cases failure with
  | none =>
    constructor
    · intro h
      nomatch h
    · rintro ⟨f, h, -⟩
      nomatch h
  | some f =>
    constructor
    · exact fun h => ⟨f, rfl, h⟩
    · rintro ⟨_, ⟨⟩, h⟩
      exact h

/-! ## What the methods store -/

variable {rec rec' : Record}

/-- The record of a claimed message after an attempt: same id, one more attempt. -/
structure Attempted (m : Metadata) (rec' : Record) : Prop where
  id : rec'.id = m.id
  attempt : rec'.attempt = wrap64 (m.attempt + 1)

/-- The four ends of an attempt. -/
inductive SubmitEnd (w : Worker) (now : Int) (m : Metadata)
    (answer : Except GoError SubmissionResult) (rec' : Record) : Prop where
  | retry (state : rec'.state = .queued) (failed : FailedTemporarily answer)
      (allowed : m.attempt < w.cfg.retryAttempts) (blank : rec'.Blank)
      (next : rec'.nextAttemptAt = now + w.submitRetryDelay m.attempt)
  | dead (state : rec'.state = .deadLetter) (refused : ¬ Accepted answer)
      (exhausted : FailedTemporarily answer → w.cfg.retryAttempts ≤ m.attempt) (blank : rec'.Blank)
  | succeeded (state : rec'.state = .succeeded) (result : SubmissionResult)
      (answered : answer = .ok result) (delivered : result.state = .succeeded)
      (operationID : rec'.operationID = m.operationID)
  | submitted (state : rec'.state = .submitted) (result : SubmissionResult)
      (answered : answer = .ok result) (running : result.state = .running)
      (usable : result.operationID ≠ []) (operationID : rec'.operationID = trimSpace result.operationID)
      (first : rec'.firstSubmittedAt =
        if m.firstSubmittedAt = zeroTime then rec'.updatedAt else m.firstSubmittedAt)
      (next : rec'.nextAttemptAt = w.nextPoll now result.retryAfter)

/-- Only an accepted message is stored as submitted or succeeded. -/
theorem SubmitEnd.accepted {w : Worker} (h : SubmitEnd w now m answer rec')
    (hs : rec'.state = .submitted ∨ rec'.state = .succeeded) : Accepted answer := by
  cases h with
  | retry state | dead state => rcases hs with hs | hs <;> nomatch state.symm.trans hs
  | succeeded _ result answered delivered =>
    rw [answered]
    exact Or.inl delivered
  | submitted _ result answered running usable =>
    rw [answered]
    exact Or.inr ⟨running, usable⟩

theorem retry_stores {next : Int} {lastErr : Option LastError} (hm : m.state = .working)
    (h : (Mark.retry (m.loaded msg) next lastErr).Stores rec') :
    Attempted m rec' ∧ rec'.state = .queued ∧ rec'.Blank ∧ rec'.nextAttemptAt = next := by
  obtain ⟨t1, t2, h⟩ := h
  have hs : (m.loaded msg).state = .working := hm
  unfold Record.retried at h
  rw [hs] at h
  cases h
  exact ⟨⟨rfl, rfl⟩, rfl, ⟨rfl, rfl, rfl, rfl⟩, rfl⟩

theorem dead_stores {lastErr : Option LastError} (hm : m.state = .working)
    (h : (Mark.deadLetter (m.loaded msg) lastErr).Stores rec') :
    Attempted m rec' ∧ rec'.state = .deadLetter ∧ rec'.Blank := by
  obtain ⟨t1, t2, h⟩ := h
  have hs : (m.loaded msg).state = .working := hm
  unfold Record.deadLettered at h
  rw [hs] at h
  cases h
  exact ⟨⟨rfl, rfl⟩, rfl, ⟨rfl, rfl, rfl, rfl⟩⟩

theorem succeeded_stores {pmid : GoString} (hm : m.state = .working)
    (h : (Mark.succeeded { m.loaded msg with providerMessageID := pmid }).Stores rec') :
    Attempted m rec' ∧ rec'.state = .succeeded ∧ rec'.operationID = m.operationID := by
  obtain ⟨t, h⟩ := h
  unfold Record.succeeded at h
  rw [show ({ m.loaded msg with providerMessageID := pmid } : Record).state = .working from hm] at h
  cases h
  exact ⟨⟨rfl, rfl⟩, rfl, rfl⟩

variable {w : Worker}

theorem retryOrDeadLetter_stores {lastErr : LastError} {retry dead : String}
    (hm : m.state = .working) (hfail : ¬ Accepted answer)
    (htemp : lastErr.temporary = true ↔ FailedTemporarily answer)
    (h : (w.retryOrDeadLetter now (m.loaded msg) lastErr retry dead).mark.Stores rec') :
    Attempted m rec' ∧ SubmitEnd w now m answer rec' := by
  unfold Worker.retryOrDeadLetter at h
  by_cases hc : (lastErr.temporary && w.submitRetryAllowed (m.loaded msg)) = true
  · rw [if_pos hc] at h
    obtain ⟨hatt, hstate, hblank, hnext⟩ := retry_stores hm h
    rw [Bool.and_eq_true] at hc
    have hallowed : m.attempt < w.cfg.retryAttempts := of_decide_eq_true hc.2
    exact ⟨hatt, .retry hstate (htemp.mp hc.1) hallowed hblank hnext⟩
  · rw [if_neg hc] at h
    obtain ⟨hatt, hstate, hblank⟩ := dead_stores hm h
    refine ⟨hatt, .dead hstate hfail (fun htmp => ?_) hblank⟩
    by_contra hlt
    refine hc ?_
    rw [Bool.and_eq_true]
    exact ⟨htemp.mpr htmp, decide_eq_true (not_le.mp hlt)⟩

/-- **What an attempt stores**, for every answer of Submit. -/
theorem queued_stores (hm : m.state = .working)
    (h : (w.queuedOutcome now (m.loaded msg) answer).mark.Stores rec') :
    Attempted m rec' ∧ SubmitEnd w now m answer rec' := by
  cases answer with
  | error e =>
    refine retryOrDeadLetter_stores hm (fun ha => ha) ?_ h
    rw [lastErrorFromProviderError_temporary]
    exact Iff.rfl
  | ok result =>
    -- a failure that the provider reports as the state of the submission
    have hfailed : (result.state = .failed ∨ result.state = .canceled) →
        (w.retryOrDeadLetter now (m.loaded msg) (lastErrorFromSubmissionFailure result.failure now
          (submissionFailureMessage result.state)) "retry queued record after terminal submit state"
          "dead-letter queued record after terminal submit state").mark.Stores rec' →
        Attempted m rec' ∧ SubmitEnd w now m (.ok result) rec' := by
      intro hs h
      have hno : ¬ Accepted (.ok result) := by
        rintro (ha | ha)
        · rcases hs with hs | hs <;> rw [ha] at hs <;> nomatch hs
        · rcases hs with hs | hs <;> rw [ha.1] at hs <;> nomatch hs
      refine retryOrDeadLetter_stores hm hno ?_ h
      rw [lastErrorFromSubmissionFailure_temporary]
      exact ⟨fun hf => ⟨hs, hf⟩, fun hf => hf.2⟩
    unfold Worker.queuedOutcome at h
    dsimp only at h
    cases hstate : result.state with
    | succeeded =>
      rw [hstate] at h
      obtain ⟨hatt, hs, hop⟩ := succeeded_stores hm h
      exact ⟨hatt, .succeeded hs result rfl hstate hop⟩
    | running =>
      rw [hstate] at h
      dsimp only at h
      by_cases hop : result.operationID = []
      · rw [if_pos hop] at h
        obtain ⟨hatt, hs, hblank⟩ := dead_stores hm h
        refine ⟨hatt, .dead hs ?_ ?_ hblank⟩
        · rintro (ha | ha)
          · rw [hstate] at ha
            nomatch ha
          · exact ha.2 hop
        · rintro ⟨hf | hf, -⟩ <;> rw [hstate] at hf <;> nomatch hf
      · rw [if_neg hop] at h
        obtain ⟨-, t, rfl⟩ := h
        exact ⟨⟨rfl, rfl⟩, .submitted rfl result rfl hstate hop rfl rfl rfl⟩
    | failed =>
      rw [hstate] at h hfailed
      exact hfailed (Or.inl rfl) h
    | canceled =>
      rw [hstate] at h hfailed
      exact hfailed (Or.inr rfl) h
    | other text =>
      rw [hstate] at h
      obtain ⟨hatt, hs, hblank⟩ := dead_stores hm h
      refine ⟨hatt, .dead hs ?_ ?_ hblank⟩
      · rintro (ha | ha)
        · rw [hstate] at ha
          nomatch ha
        · rw [hstate] at ha
          nomatch ha.1
      · rintro ⟨hf | hf, -⟩ <;> rw [hstate] at hf <;> nomatch hf

/-! ## What a poll stores -/

/-- The record of a submitted message after a poll: what was known of its operation is kept. -/
structure Polled (m : Metadata) (rec' : Record) : Prop where
  id : rec'.id = m.id
  state : rec'.state = .submitted ∨ rec'.state = .succeeded ∨ rec'.state = .deadLetter
  attempt : rec'.attempt = m.attempt
  operationID : rec'.operationID = m.operationID
  firstSubmittedAt : rec'.firstSubmittedAt = m.firstSubmittedAt

/-- A record that differs from `m` in what a poll may tell only. -/
def SameOperation (m : Metadata) (rec : Record) : Prop :=
  rec.id = m.id ∧ rec.state = .submitted ∧ rec.attempt = m.attempt ∧
    rec.operationID = m.operationID ∧ rec.firstSubmittedAt = m.firstSubmittedAt

theorem mark_stores_polled {mark : Mark} (h : mark.Stores rec') (hm : SameOperation m mark.record)
    (hno : ∀ rec result next, mark ≠ .submitted rec result next) : Polled m rec' := by
  obtain ⟨hid, hs, hatt, hop, hfirst⟩ := hm
  cases mark with
  | submitted rec result next => exact absurd rfl (hno rec result next)
  | retry rec next lastErr =>
    obtain ⟨t1, t2, h⟩ := h
    unfold Record.retried at h
    rw [show rec.state = .submitted from hs] at h
    cases h
    exact ⟨hid, Or.inl rfl, hatt, hop, hfirst⟩
  | succeeded rec =>
    obtain ⟨t, h⟩ := h
    unfold Record.succeeded at h
    rw [show rec.state = .submitted from hs] at h
    cases h
    exact ⟨hid, Or.inr (Or.inl rfl), hatt, hop, hfirst⟩
  | deadLetter rec lastErr =>
    obtain ⟨t1, t2, h⟩ := h
    unfold Record.deadLettered at h
    rw [show rec.state = .submitted from hs] at h
    cases h
    exact ⟨hid, Or.inr (Or.inr rfl), hatt, hop, hfirst⟩

omit [Unicode] in
theorem sameOperation_toRecord (hm : m.state = .submitted) :
    SameOperation m m.toRecord := ⟨rfl, hm, rfl, rfl, rfl⟩

omit [Unicode] in
theorem sameOperation_withMessageID (hm : m.state = .submitted) (status : SubmissionStatus) :
    SameOperation m (Worker.withMessageID m.toRecord status) := by
  unfold Worker.withMessageID
  split <;> exact ⟨rfl, hm, rfl, rfl, rfl⟩

/-- **What a poll stores**, for every answer of Poll. -/
theorem submitted_stores {answer : Except GoError SubmissionStatus} (hm : m.state = .submitted)
    (h : (w.submittedOutcome now m.toRecord answer).mark.Stores rec') : Polled m rec' := by
  cases answer with
  | error e =>
    unfold Worker.submittedOutcome at h
    dsimp only at h
    split at h
    · exact mark_stores_polled h (sameOperation_toRecord hm) (fun _ _ _ hx => nomatch hx)
    · exact mark_stores_polled h (sameOperation_toRecord hm) (fun _ _ _ hx => nomatch hx)
  | ok status =>
    have hsame := sameOperation_withMessageID hm status
    unfold Worker.submittedOutcome at h
    dsimp only at h
    split at h <;> exact mark_stores_polled h hsame (fun _ _ _ hx => nomatch hx)

theorem timeout_stores (hm : m.state = .submitted)
    (h : (w.timeoutOutcome now m.toRecord).mark.Stores rec') : Polled m rec' :=
  mark_stores_polled h (sameOperation_toRecord hm) (fun _ _ _ hx => nomatch hx)

end

end SmtpCloudRelay.Spool
