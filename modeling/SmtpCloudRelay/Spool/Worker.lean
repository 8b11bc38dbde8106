/-
  THE WORKER: the single-threaded loop that submits queued records and polls submitted ones.

  A round of the loop takes one due submitted record and one due queued record.  What the worker
  does with the provider's answer is decided by a pure function of the answer, `queuedOutcome` and
  `submittedOutcome`: each branch of the source is one `Finalization`, that is, a call of a `Mark*`
  method with the text that an error of it is wrapped with.

  Metrics and log lines are left out: no decision reads them.
-/
import SmtpCloudRelay.Spool.Store
import SmtpCloudRelay.Spool.WorkerConfig

namespace SmtpCloudRelay.Spool

open Go Lib

variable [Unicode]

/-! ## Last errors -/

/-- `lastErrorFromProviderError`. -/
def lastErrorFromProviderError (err : GoError) (now : Int) : LastError :=
  match err.asDeliveryError with
  | some (p, info, e) => ⟨e.error, p.providerName, info.retryable, now⟩
  | none => ⟨err.error, spoolProviderName, err.is .deadlineExceeded || err.is .canceled, now⟩

/-- `submissionFailureMessage`. -/
def submissionFailureMessage : SubmissionState → GoString
  | .canceled => lit "provider canceled submitted operation"
  | _ => lit "provider failed submitted operation"

/-- `lastErrorFromSubmissionFailure`. -/
def lastErrorFromSubmissionFailure (failure : Option SubmissionFailure) (now : Int)
    (fallback : GoString) : LastError :=
  match failure with
  | none => ⟨fallback, spoolProviderName, false, now⟩
  | some f =>
    ⟨if f.message = [] then fallback else f.message, spoolProviderName, f.temporary, now⟩

/-- A last error of the spool's own. -/
def spoolFailure (message : GoString) (now : Int) : LastError :=
  ⟨message, spoolProviderName, false, now⟩

/-! ## What the worker decides -/

/-- A call of a `Mark*` method, with the action that its error names. -/
structure Finalization where
  action : String
  mark : Mark

/-- `Worker.finalizeRecord`. -/
def finalizeRecord (recordID : GoString) (f : Finalization) : Task Unit := do
  let _ ← f.mark.run.mapError
    (.wrap (lit f.action ++ lit " for record " ++ quote recordID ++ lit ": "))
  pure ()

namespace Worker

variable (w : Worker)

/-- `Worker.submitRetryAllowed`. -/
def submitRetryAllowed (rec : Record) : Bool := rec.attempt < w.cfg.retryAttempts

/-- `Worker.submitRetryDelay`: the shift is clamped to 0..30, the product wraps. -/
def submitRetryDelay (currentAttempt : Int) : Int :=
  wrap64 (w.cfg.retryBaseDelay * 2 ^ (min 30 (max 0 currentAttempt)).toNat)

/-- `now.Add(w.cfg.PollInterval)`, or the provider's `RetryAfter` when that is positive. -/
def nextPoll (now retryAfter : Int) : Int :=
  if 0 < retryAfter then now + retryAfter else now + w.cfg.pollInterval

/-- The two branches after a failed submission: retry, or give up. -/
def retryOrDeadLetter (now : Int) (rec : Record) (lastErr : LastError) (retry dead : String) :
    Finalization :=
  if lastErr.temporary && w.submitRetryAllowed rec then
    ⟨retry, .retry rec (now + w.submitRetryDelay rec.attempt) (some lastErr)⟩
  else ⟨dead, .deadLetter rec (some lastErr)⟩

/-- The branches of `processQueuedOnce` after the call of Submit. -/
def queuedOutcome (now : Int) (rec : Record) : Except GoError SubmissionResult → Finalization
  | .error err =>
    w.retryOrDeadLetter now rec (lastErrorFromProviderError err now)
      "retry queued record" "dead-letter queued record after submit error"
  | .ok result =>
    match result.state with
    | .succeeded =>
      ⟨"mark queued record succeeded",
        .succeeded { rec with providerMessageID := result.providerMessageID }⟩
    | .running =>
      if result.operationID = [] then
        ⟨"dead-letter queued record without operation id", .deadLetter rec
          (some (spoolFailure (lit "provider submit accepted without operation id") now))⟩
      else ⟨"mark queued record submitted",
        .submitted rec result (w.nextPoll now result.retryAfter)⟩
    | .failed | .canceled =>
      w.retryOrDeadLetter now rec
        (lastErrorFromSubmissionFailure result.failure now (submissionFailureMessage result.state))
        "retry queued record after terminal submit state"
        "dead-letter queued record after terminal submit state"
    | .other text =>
      ⟨"dead-letter queued record after unsupported submit state", .deadLetter rec
        (some (spoolFailure (lit "provider returned unsupported submission state " ++ quote text)
          now))⟩

/-- A submitted record has been waiting for too long. -/
def timedOut (now : Int) (rec : Record) : Bool :=
  rec.firstSubmittedAt ≠ zeroTime && rec.firstSubmittedAt + w.cfg.submittedTimeout ≤ now

/-- The branch of `processSubmittedOnce` for such a record. -/
def timeoutOutcome (now : Int) (rec : Record) : Finalization :=
  ⟨"dead-letter submitted record after timeout", .deadLetter rec
    (some (spoolFailure (lit "submitted operation exceeded " ++
      durationText w.cfg.submittedTimeout ++ lit " timeout") now))⟩

/-- `if status.ProviderMessageID != "" { rec.ProviderMessageID = … }`. -/
def withMessageID (rec : Record) (status : SubmissionStatus) : Record :=
  if status.providerMessageID = [] then rec
  else { rec with providerMessageID := status.providerMessageID }

/-- The branches of `processSubmittedOnce` after the call of Poll. -/
def submittedOutcome (now : Int) (rec : Record) : Except GoError SubmissionStatus → Finalization
  | .error err =>
    let lastErr := lastErrorFromProviderError err now
    if lastErr.temporary then
      ⟨"reschedule submitted record after poll error",
        .retry rec (now + w.cfg.pollInterval) (some lastErr)⟩
    else ⟨"dead-letter submitted record after poll error", .deadLetter rec (some lastErr)⟩
  | .ok status =>
    let rec' := withMessageID rec status
    match status.state with
    | .running =>
      ⟨"reschedule submitted record after running poll status",
        .retry rec' (w.nextPoll now status.retryAfter) none⟩
    | .succeeded => ⟨"mark submitted record succeeded", .succeeded rec'⟩
    | .failed | .canceled =>
      ⟨"dead-letter submitted record after terminal poll state", .deadLetter rec'
        (some (lastErrorFromSubmissionFailure status.failure now
          (submissionFailureMessage status.state)))⟩
    | .other text =>
      ⟨"dead-letter submitted record after unsupported poll state", .deadLetter rec'
        (some (spoolFailure (lit "provider returned unsupported poll state " ++ quote text) now))⟩

/-! ## The loop -/

variable (s : SpoolStore)

/-- `provider.Submit`, with its outcome. -/
def submit (rec : Record) : Task (Except GoError SubmissionResult) :=
  .step (.submit rec.message rec.id) fun r => .ret (.ok r)

/-- `provider.Poll`, with its outcome. -/
def poll (rec : Record) : Task (Except GoError SubmissionStatus) :=
  .step (.poll rec.id rec.operationID) fun r => .ret (.ok r)

/-- `Worker.processQueuedOnce` after a record was claimed. -/
def processQueued (now : Int) (rec : Record) : Task Bool := do
  let answer ← submit rec
  finalizeRecord rec.id (w.queuedOutcome now rec answer)
  pure true

/-- `Worker.processQueuedOnce`. -/
def processQueuedOnce (now : Int) : Task Bool := do
  let claimed ← s.claimReady now
  match claimed with
  | none => pure false
  | some rec => w.processQueued now rec

/-- `Worker.processSubmittedOnce` after a record was found. -/
def processSubmitted (now : Int) (rec : Record) : Task Bool :=
  if w.timedOut now rec then do
    finalizeRecord rec.id (w.timeoutOutcome now rec)
    pure true
  else do
    let answer ← poll rec
    finalizeRecord rec.id (w.submittedOutcome now rec answer)
    pure true

/-- `Worker.processSubmittedOnce`. -/
def processSubmittedOnce (now : Int) : Task Bool := do
  let found ← SpoolStore.nextSubmittedReady now
  match found with
  | none => pure false
  | some rec => w.processSubmitted now rec

/-- `Worker.sleep`. -/
def sleep (d : Int) : Task Unit := .step (.sleep d) fun e => .ret (failIfEnded e)

/-- One round of the loop of `Worker.Start`. -/
def once : Task Unit := do
  checkContext
  let now ← readClock
  let submittedWorked ← w.processSubmittedOnce now
  let queuedWorked ← w.processQueuedOnce s now
  if submittedWorked || queuedWorked then pure () else sleep w.cfg.pollInterval

/-- An error ends the loop, and a cancelled context ends it without an error. -/
def afterRound : Except GoError Unit → Task (Unit ⊕ Unit)
  | .ok _ => pure (.inl ())
  | .error e => if e.is .canceled then pure (.inr ()) else .fail e

/-- `Worker.Start`. -/
def start : Task Unit :=
  Act.forever (fun _ => do
    let ended ← (w.once s).attempt
    afterRound ended) ()

end Worker

end SmtpCloudRelay.Spool
