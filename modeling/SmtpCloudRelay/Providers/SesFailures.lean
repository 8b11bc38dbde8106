/-
  WHICH SES FAILURES ARE RETRIED.

  The AWS SDK hands every failure of a call out as a chain.  An API error (it carries a code) and a
  transport failure alike are wrapped in a `*smithyhttp.ResponseError`, whose status is 0 when no
  HTTP response was received.  Three kinds of failure pass on their own and SHOULD be retried:

  * no response at all, unless the context was cancelled;
  * a status of 429, or of 500 and above;
  * an API error with a code for throttling, a timeout or a fault of the service.

  `classifySendError` asks for the response error FIRST and decides by its status alone.  So of the
  three kinds only the second is retried whenever the SDK is the source: a status of 0 is not a
  retryable status, and the code of an API error is never looked at behind a response error.
  `retryable_failures_retried` says exactly for which chains the decision is right.

  What follows for the worker is part of the statement: a temporary failure is retried as long as
  the record has attempts left, any other one is dead-lettered.
-/
import SmtpCloudRelay.Providers.Ses
import SmtpCloudRelay.Spool.Worker

namespace SmtpCloudRelay.Ses

open Go Lib Spool

variable [Unicode] {err : GoError}

/-! ## What a chain describes -/

/-- The codes of the API errors in the chain, from the outside in. -/
def apiCodes (err : GoError) : List GoString := err.chain.filterMap api?

/-- Some link of the chain is the end of a context. -/
def Cancelled (err : GoError) : Prop := err.is .canceled = true ∨ err.is .deadlineExceeded = true

instance (err : GoError) : Decidable (Cancelled err) :=
  inferInstanceAs (Decidable (err.is .canceled = true ∨ err.is .deadlineExceeded = true))

/-- A transport failure: the response error says that there was no response, and the context was
    not cancelled. -/
def NoResponse (err : GoError) : Prop := err.as response? = some 0 ∧ ¬ Cancelled err

/-- An API error of the chain has a code that passes on its own. -/
def RetryableCode (err : GoError) : Prop := ∃ code ∈ apiCodes err, isRetryableAPIError code = true

/-- The HTTP status passes on its own. -/
def RetryableStatus (err : GoError) : Prop :=
  ∃ status, err.as response? = some status ∧ (status = 429 ∨ 500 ≤ status)

/-- The failures that should be retried. -/
def ShouldRetry (err : GoError) : Prop := NoResponse err ∨ RetryableStatus err ∨ RetryableCode err

/-- The chain is built as the SDK builds its errors: an API error comes with a response error. -/
def FromSDK (err : GoError) : Prop := apiCodes err ≠ [] → (err.as response?).isSome

/-! ## What is done about it -/

/-- `DeliveryError.Temporary` of an error. -/
def isTemporary (e : GoError) : Bool :=
  match e.asDeliveryError with
  | some (_, info, _) => info.retryable
  | none => false

/-- The failure is classified as temporary, and a worker that gets it as the answer of `Submit`
    schedules a retry of any record with attempts left. -/
def Retried (err : GoError) : Prop :=
  isTemporary (classifySendError err) = true ∧
    ∀ (w : Worker) (now : Int) (rec : Record), w.submitRetryAllowed rec = true →
      ∃ lastErr, w.queuedOutcome now rec (.error (classifySendError err)) =
        ⟨"retry queued record",
          .retry rec (now + w.submitRetryDelay rec.attempt) (some lastErr)⟩

/-- A provider error decides by its own flag, whatever it wraps. -/
theorem queuedOutcome_sendOf (w : Worker) (now : Int) (rec : Record) (p : SendProvider)
    (info : SendInfo) (e : GoError) :
    w.queuedOutcome now rec (.error (.sendOf p info e)) =
      w.retryOrDeadLetter now rec
        ⟨(GoError.sendOf p info e).error, p.providerName, info.retryable, now⟩
        "retry queued record" "dead-letter queued record after submit error" := rfl

/-- A temporary failure is retried. -/
theorem retried_of_temporary {info : SendInfo}
    (h : classifySendError err = .sendOf .ses info err) (ht : info.retryable = true) :
    Retried err := by
  unfold Retried
  rw [h]
  constructor
  · exact ht
  · intro w now rec hallowed
    rw [queuedOutcome_sendOf]
    refine ⟨⟨(GoError.sendOf .ses info err).error, SendProvider.ses.providerName, info.retryable,
      now⟩, ?_⟩
    unfold Worker.retryOrDeadLetter
    rw [if_pos]
    rw [hallowed, ht]
    rfl

/-- **Behind a response error the status alone decides.** -/
theorem retried_iff_status {status : Int} (h : err.as response? = some status) :
    Retried err ↔ isRetryableStatus status = true := by
  have hclassify : classifySendError err =
      .sendOf .ses ⟨[], 1, 1, status, isRetryableStatus status⟩ err := by
    unfold classifySendError
    rw [h]
    dsimp only
    split
    · next hs => rw [hs]; rfl
    · next hs => rw [Bool.eq_false_iff.mpr hs]; rfl
  constructor
  · intro hretried
    have htemporary := hretried.1
    rw [hclassify] at htemporary
    exact htemporary
  · exact retried_of_temporary hclassify

/-! ## Where the decision is right -/

/-- **SES failures that should be retried are retried** exactly when the response error, if there is
    one, has a retryable status or the failure is of neither of the other two kinds: it is not a
    missing response and no API error in it has a retryable code. -/
theorem retryable_failures_retried (hsdk : FromSDK err) :
    (ShouldRetry err → Retried err) ↔
      ∀ status, err.as response? = some status →
        (status = 429 ∨ 500 ≤ status) ∨ (¬ NoResponse err ∧ ¬ RetryableCode err) := by
  have hstatus : ∀ status : Int, isRetryableStatus status = true ↔ status = 429 ∨ 500 ≤ status := by
    intro status
    simp [isRetryableStatus]
  cases hresp : err.as response? with
  | none =>
    -- nothing here is to be retried: the SDK has wrapped whatever could be
    have hnone : apiCodes err = [] := by
      by_contra hcodes
      have hsome := hsdk hcodes
      rw [hresp] at hsome
      exact nomatch hsome
    constructor
    · intro _ status hs
      nomatch hs
    · rintro - (⟨hzero, -⟩ | ⟨status, hs, -⟩ | ⟨code, hcode, -⟩)
      · nomatch hresp.symm.trans hzero
      · nomatch hresp.symm.trans hs
      · rw [hnone] at hcode
        nomatch hcode
  | some status =>
    rw [retried_iff_status hresp, hstatus]
    constructor
    · intro h status' hs'
      cases hs'
      by_cases hst : status = 429 ∨ 500 ≤ status
      · exact Or.inl hst
      · refine Or.inr ⟨fun hno => ?_, fun hcode => ?_⟩
        · exact hst (h (Or.inl hno))
        · exact hst (h (Or.inr (Or.inr hcode)))
    · intro h hshould
      rcases h status rfl with hst | ⟨hno, hcode⟩
      · exact hst
      · rcases hshould with hn | ⟨status', hs', hst⟩ | hc
        · exact absurd hn hno
        · cases hresp.symm.trans hs'
          exact hst
        · exact absurd hc hcode

/-- An answer of SES with a status and an API error inside. -/
def apiFailure (status : Int) (code : String) : GoError :=
  .foreignOf (.response status) (lit "https response error") (.foreign (.api (lit code)) (lit code))

/-- A connection that could not be made. -/
def dialFailure : GoError :=
  .foreignOf (.response 0) (lit "https response error StatusCode: 0, request send failed")
    (.foreign .plain (lit "dial tcp: i/o timeout"))

omit [Unicode] in
/-- A throttled call with status 429 is retried. -/
theorem retryable_failures_retried_throttled :
    letI := Unicode.ascii
    ShouldRetry (apiFailure 429 "TooManyRequestsException") ∧
      Retried (apiFailure 429 "TooManyRequestsException") := by
  let _ := Unicode.ascii
  have hstatus : (apiFailure 429 "TooManyRequestsException").as response? = some 429 := rfl
  have hshould : ShouldRetry (apiFailure 429 "TooManyRequestsException") :=
    Or.inr (Or.inl ⟨429, hstatus, Or.inl rfl⟩)
  refine ⟨hshould, (retryable_failures_retried fun _ => rfl).mpr (fun status hs => ?_) hshould⟩
  cases hstatus.symm.trans hs
  exact Or.inl (Or.inl rfl)

omit [Unicode] in
/-- **A failed connection, and a throttled call with status 400,** should be retried and are
    classified as permanent. -/
theorem retryable_failures_dropped :
    letI := Unicode.ascii
    FromSDK dialFailure ∧ ShouldRetry dialFailure ∧
      isTemporary (classifySendError dialFailure) = false ∧
    FromSDK (apiFailure 400 "ThrottlingException") ∧
      ShouldRetry (apiFailure 400 "ThrottlingException") ∧
      isTemporary (classifySendError (apiFailure 400 "ThrottlingException")) = false := by
  let _ := Unicode.ascii
  refine ⟨fun _ => rfl, Or.inl ⟨rfl, by decide⟩, rfl, fun _ => rfl, Or.inr (Or.inr ?_), rfl⟩
  exact ⟨lit "ThrottlingException", by decide, by decide⟩

end SmtpCloudRelay.Ses
