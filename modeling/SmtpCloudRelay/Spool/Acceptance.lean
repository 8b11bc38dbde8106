/-
  ACCEPTANCE BY ACS: what becomes of a record whose submission the service answers with 202.

  A call of Submit makes one HTTP attempt after the other, each with the same request.  When an
  attempt is answered with status 202 the service has taken the message on, but the result is built
  only after the BODY of the response has been read and decoded.  A body that cannot be read, or is
  neither blank nor a JSON operation within its first 8 KiB, turns the acceptance into a permanent
  failure, and the worker dead-letters a record whose message is on its way.

  `acceptance_recorded_iff` says so exactly: the record is marked submitted if and only if the body
  of that one response is `Readable`, and is dead-lettered otherwise.
-/
import SmtpCloudRelay.Spool.Shutdown

namespace SmtpCloudRelay

open Go Lib Prog Acs

namespace Acs

variable (lib : ProviderLib) (p : Provider) (env : Env) (req : Request)

/-- Attempt number `k` is made: every attempt before it has failed temporarily, and the pause after
    each of them has ended by its timer. -/
structure Made (k : Nat) : Prop where
  reached : 1 ≤ k ∧ k ≤ p.retryAttempts
  earlier : ∀ j, 1 ≤ j → j < k → FailsTemporarily lib p env req j ∧ env.pause j = .timer

/-- The body of the response can be read, and what fits into 8 KiB of it is blank or decodes. -/
def Readable (resp : Response) : Prop :=
  resp.readErr = none ∧
    (trimSpace (resp.content.take maxResponseBodyBytes) = [] ∨
      ∃ id, lib.decodeOperation (trimSpace (resp.content.take maxResponseBodyBytes)) = .ok id)

variable {lib p env req}

variable {resp : Response} {k : Nat}

/-- Decoding succeeds on a readable body, and only there. -/
theorem decodeOperationResponse_ok :
    (∃ id, decodeOperationResponse lib resp.body = .ok id) ↔ Readable lib resp := by
  unfold Readable Response.body decodeOperationResponse
  cases resp.readErr with
  | some err =>
    constructor
    · rintro ⟨id, h⟩
      nomatch h
    · rintro ⟨h, -⟩
      nomatch h
  | none =>
    show (∃ id, (if trimSpace (resp.content.take maxResponseBodyBytes) = [] then Except.ok []
      else lib.decodeOperation (trimSpace (resp.content.take maxResponseBodyBytes))) =
        Except.ok id) ↔ _
    by_cases hblank : trimSpace (resp.content.take maxResponseBodyBytes) = []
    · rw [if_pos hblank]
      exact ⟨fun _ => ⟨rfl, .inl hblank⟩, fun _ => ⟨[], rfl⟩⟩
    · rw [if_neg hblank]
      constructor
      · exact fun h => ⟨rfl, .inr h⟩
      · rintro ⟨-, h | h⟩
        · exact absurd h hblank
        · exact h

/-- **One attempt that is answered with 202** succeeds when the body is readable, and is a final
    failure otherwise. -/
theorem submitOnce_accepted (hresp : env.exchange k req = .answered resp)
    (h202 : resp.statusCode = 202) :
    (Readable lib resp → ∃ result, submitOnce lib p env req k = .ok result) ∧
    (¬ Readable lib resp →
      ∃ e, submitOnce lib p env req k = .error e ∧ e.info.retryable = false) := by
  have hstatus : ¬ resp.statusCode ≠ 202 := fun hne => hne h202
  unfold submitOnce
  rw [hresp, ← decodeOperationResponse_ok]
  dsimp only
  rw [if_neg hstatus]
  cases hdecode : decodeOperationResponse lib resp.body with
  | error err =>
    refine ⟨?_, fun _ => ⟨_, rfl, rfl⟩⟩
    rintro ⟨id, h⟩
    nomatch h
  | ok id => exact ⟨fun _ => ⟨_, rfl⟩, fun hno => absurd ⟨id, rfl⟩ hno⟩

/-- The loop goes on to every attempt that is made. -/
theorem submitLoop_reaches {attempt left : Nat} (i : Nat) (hi : i ≤ left)
    (h : ∀ j, attempt ≤ j → j < attempt + i → FailsTemporarily lib p env req j ∧ env.pause j = .timer) :
    submitLoop lib p env req attempt left = submitLoop lib p env req (attempt + i) (left - i) := by
  -- on the number of attempts that have failed
  induction i generalizing attempt left with
  | zero => rfl
  | succ i ih =>
    obtain ⟨left, rfl⟩ : ∃ n, left = n + 1 := ⟨left - 1, by omega⟩
    obtain ⟨⟨e, he, htemp⟩, hpause⟩ := h attempt (Nat.le_refl _) (by omega)
    have hnext : submitLoop lib p env req attempt (left + 1) =
        submitLoop lib p env req (attempt + 1) left := by
      conv_lhs => unfold submitLoop
      rw [he]
      dsimp only
      rw [if_pos htemp, hpause]
    rw [hnext, ih (by omega) fun j h1 h2 => h j (by omega) (by omega)]
    congr 1 <;> omega

/-- The loop ends with the attempt that is answered with 202. -/
theorem submitLoop_accepted {left : Nat} (hresp : env.exchange k req = .answered resp)
    (h202 : resp.statusCode = 202) :
    (Readable lib resp → ∃ result, submitLoop lib p env req k left = .ok result) ∧
    (¬ Readable lib resp →
      ∃ e, submitLoop lib p env req k left = .error e ∧ e.info.retryable = false) := by
  have honce : (Readable lib resp → ∃ result, submitOnce lib p env req k = .ok result) ∧
      (¬ Readable lib resp →
        ∃ e, submitOnce lib p env req k = .error e ∧ e.info.retryable = false) :=
    submitOnce_accepted hresp h202
  obtain ⟨hok, hno⟩ := honce
  cases left with
  | zero => exact ⟨hok, hno⟩
  | succ left =>
    unfold submitLoop
    constructor
    · intro hread
      obtain ⟨result, hresult⟩ := hok hread
      rw [hresult]
      exact ⟨result, rfl⟩
    · intro hread
      obtain ⟨e, he, hfinal⟩ := hno hread
      rw [he]
      dsimp only
      rw [hfinal]
      exact ⟨e, rfl, hfinal⟩

/-- **A call of Submit with an attempt that is answered with 202** reports a running operation when
    the body is readable, and a final failure otherwise. -/
theorem submit_accepted {msg : Message} {id requestID : GoString} {body : SendRequest}
    (hid : env.requestID = .ok requestID) (hbody : buildSendRequest lib p.sender msg = .ok body)
    (hmade : Made lib p env ⟨requestID, trimSpace id, body⟩ k)
    (hresp : env.exchange k ⟨requestID, trimSpace id, body⟩ = .answered resp)
    (h202 : resp.statusCode = 202) :
    (Readable lib resp → ∃ result, submit lib p env msg id = .ok result ∧
      result.state = .running ∧ result.operationID = trimSpace id) ∧
    (¬ Readable lib resp → ∃ e : SendError, submit lib p env msg id = .error e.toGoError ∧
      e.info.retryable = false) := by
  obtain ⟨hpos, hle⟩ := hmade.reached
  have hloop : submitLoop lib p env ⟨requestID, trimSpace id, body⟩ 1 (p.retryAttempts - 1) =
      submitLoop lib p env ⟨requestID, trimSpace id, body⟩ k (p.retryAttempts - k) := by
    refine (submitLoop_reaches (k - 1) (by omega) fun j h1 h2 => ?_).trans ?_
    · exact hmade.earlier j h1 (by omega)
    · congr 1 <;> omega
  have hend : (Readable lib resp → ∃ result, submitLoop lib p env ⟨requestID, trimSpace id, body⟩ k
        (p.retryAttempts - k) = .ok result) ∧
      (¬ Readable lib resp → ∃ e, submitLoop lib p env ⟨requestID, trimSpace id, body⟩ k
        (p.retryAttempts - k) = .error e ∧ e.info.retryable = false) :=
    submitLoop_accepted hresp h202
  obtain ⟨hok, hno⟩ := hend
  unfold submit
  rw [hbody, hid]
  dsimp only
  rw [hloop]
  constructor
  · intro hread
    obtain ⟨result, hresult⟩ := hok hread
    rw [hresult]
    exact ⟨_, rfl, rfl, rfl⟩
  · intro hread
    obtain ⟨e, he, hfinal⟩ := hno hread
    rw [he]
    exact ⟨e, rfl, hfinal⟩

/-! ## One request for all attempts -/

/-- Two surroundings that answer the request alike. -/
structure Agree (env env' : Env) (req : Request) : Prop where
  exchange : ∀ j, env'.exchange j req = env.exchange j req
  pause : ∀ j, env'.pause j = env.pause j

theorem submitLoop_agree {env' : Env} (h : Agree env env' req) (attempt left : Nat) :
    submitLoop lib p env' req attempt left = submitLoop lib p env req attempt left := by
  have honce : ∀ j, submitOnce lib p env' req j = submitOnce lib p env req j := by
    intro j
    unfold submitOnce
    rw [h.exchange j]
  induction left generalizing attempt with
  | zero => exact honce attempt
  | succ left ih =>
    unfold submitLoop
    rw [honce, h.pause, ih]

/-- **Every attempt carries the same request**: what the service would answer to any other one makes
    no difference to the call. -/
theorem submit_agree {env' : Env} {msg : Message} {id requestID : GoString} {body : SendRequest}
    (hid : env.requestID = .ok requestID) (hid' : env'.requestID = .ok requestID)
    (hbody : buildSendRequest lib p.sender msg = .ok body)
    (h : Agree env env' ⟨requestID, trimSpace id, body⟩) :
    submit lib p env' msg id = submit lib p env msg id := by
  unfold submit
  rw [hbody, hid, hid']
  dsimp only
  rw [submitLoop_agree h]

end Acs

/-! ## The worker -/

namespace Spool

variable {w : Worker} {W W' : World} {tr : Trace}

/-- **A running operation with an id** makes the record submitted. -/
theorem processQueued_running [Unicode] {s : SpoolStore} {now : Int} {rec : Record} {W0 : World}
    {tr0 : Trace} {result : SubmissionResult}
    (hclaim : Runs exec (s.claimReady now) W0 tr0 (.ok (some rec)) W)
    (hrun : Runs exec (w.processQueued now rec) W tr (.ok true) W')
    (hanswer : W'.calls = .submit rec.id (.ok result) :: W.calls)
    (hstate : result.state = .running) (hop : result.operationID ≠ []) :
    EndsIn W' rec.id .submitted := by
  obtain ⟨m, rec', -, -, hstores, -, hends⟩ := processQueued_ends hclaim hrun hanswer
  rw [hends]
  unfold Worker.queuedOutcome at hstores
  dsimp only at hstores
  rw [hstate] at hstores
  dsimp only at hstores
  rw [if_neg hop] at hstores
  obtain ⟨-, t, rfl⟩ := hstores
  rfl

/-- **A final failure** makes it a dead letter, whatever its number of attempts. -/
theorem processQueued_refused [Unicode] {s : SpoolStore} {now : Int} {rec : Record} {W0 : World}
    {tr0 : Trace} {e : SendError} (hclaim : Runs exec (s.claimReady now) W0 tr0 (.ok (some rec)) W)
    (hrun : Runs exec (w.processQueued now rec) W tr (.ok true) W')
    (hanswer : W'.calls = .submit rec.id (.error e.toGoError) :: W.calls)
    (hfinal : e.info.retryable = false) : EndsIn W' rec.id .deadLetter := by
  have hperm : ¬ FailedTemporarily (.error e.toGoError) := by
    rw [failedTemporarily_acs, hfinal]
    exact Bool.false_ne_true
  obtain ⟨m, rec', -, -, -, hend, hends⟩ := processQueued_ends hclaim hrun hanswer
  rw [hends]
  cases hend with
  | retry state failed allowed blank next => exact absurd failed hperm
  | dead state refused exhausted blank => exact state
  | succeeded state result answered | submitted state result answered => nomatch answered

theorem EndsIn.unique {id : GoString} {st st' : State} (h : EndsIn W id st) (h' : EndsIn W id st') :
    st = st' := by
  obtain ⟨row, hrow, rfl⟩ := h
  obtain ⟨row', hrow', rfl⟩ := h'
  cases hrow.symm.trans hrow'
  rfl

/-- **An acceptance by ACS is recorded exactly when its body is readable.**  In a call of Submit for
    a record, every attempt carries the same request.  When some attempt is answered with status
    202, Submit reports a running operation under the record's id if and only if the body of that
    response can be read and is blank or decodes; and a worker that has claimed the record and whose
    store works marks it submitted if and only if that is so, and dead-letters it otherwise. -/
theorem acceptance_recorded_iff [Unicode] {lib : ProviderLib} {p : Provider} {env : Env}
    {msg : Message} {id requestID : GoString} {body : SendRequest} (hcanon : Canonical id)
    (hid : env.requestID = .ok requestID) (hbody : buildSendRequest lib p.sender msg = .ok body) :
    (∀ env' : Env, env'.requestID = .ok requestID → Agree env env' ⟨requestID, id, body⟩ →
      submit lib p env' msg id = submit lib p env msg id) ∧
    ∀ (k : Nat) (resp : Response), Acs.Made lib p env ⟨requestID, id, body⟩ k →
      env.exchange k ⟨requestID, id, body⟩ = .answered resp → resp.statusCode = 202 →
      ((∃ result, submit lib p env msg id = .ok result ∧ result.state = .running ∧
          result.operationID = id) ↔ Acs.Readable lib resp) ∧
      ∀ (w : Worker) (s : SpoolStore) (now : Int) (rec : Record) (W0 W W' : World)
        (tr0 tr : Trace), rec.id = id →
        Runs exec (s.claimReady now) W0 tr0 (.ok (some rec)) W →
        Runs exec (w.processQueued now rec) W tr (.ok true) W' →
        W'.calls = .submit rec.id (submit lib p env msg id) :: W.calls →
        (EndsIn W' id .submitted ↔ Acs.Readable lib resp) ∧
        (EndsIn W' id .deadLetter ↔ ¬ Acs.Readable lib resp) := by
  constructor
  · intro env' hid' hagree
    rw [← hcanon.trimmed] at hagree
    exact submit_agree hid hid' hbody hagree
  intro k resp hmade hresp h202
  rw [← hcanon.trimmed] at hmade hresp
  obtain ⟨hok, hno⟩ := submit_accepted hid hbody hmade hresp h202
  rw [hcanon.trimmed] at hok
  refine ⟨⟨?_, hok⟩, ?_⟩
  · rintro ⟨result, hresult, -, -⟩
    by_contra hread
    obtain ⟨e, he, -⟩ := hno hread
    nomatch hresult.symm.trans he
  intro w s now rec W0 W W' tr0 tr hrec hclaim hrun hcalls
  subst hrec
  have hyes : Acs.Readable lib resp → EndsIn W' rec.id .submitted := by
    intro hread
    obtain ⟨result, hresult, hstate, hop⟩ := hok hread
    rw [hresult] at hcalls
    refine processQueued_running hclaim hrun hcalls hstate ?_
    intro hnil
    have hlen := hcanon.length
    rw [← hop, hnil] at hlen
    nomatch hlen
  have hdead : ¬ Acs.Readable lib resp → EndsIn W' rec.id .deadLetter := by
    intro hread
    obtain ⟨e, he, hfinal⟩ := hno hread
    rw [he] at hcalls
    exact processQueued_refused hclaim hrun hcalls hfinal
  refine ⟨⟨fun h => ?_, hyes⟩, ⟨fun h hread => ?_, hdead⟩⟩
  · by_contra hread
    nomatch h.unique (hdead hread)
  · nomatch h.unique (hyes hread)

/-! ## Small cases -/

/-- The id that the record of a morning has drawn. -/
def drawnID : GoString := newUUIDv4 (Vector.replicate 16 0)

/-- The attempts before number `k` are refused, and then the service answers. -/
def acceptedAt (k : Nat) (resp : Response) : Env where
  requestID := .ok (lit "r-1")
  exchange j _ := if j < k then .failed (.errorf "connection refused") else .answered resp
  pause _ := .timer

/-- A response with status 202 and this body. -/
def accepted (content : GoString) (readErr : Option GoError) : Response where
  statusCode := 202
  content := content
  readErr := readErr
  operationLocation := []
  retryAfter := []

/-- A decoder that takes objects only. -/
def objectsOnly : ProviderLib :=
  { sampleLib with
    decodeOperation := fun s =>
      if s.head? = some 0x7B then .ok [] else .error (.errorf "invalid character") }

theorem made_acceptedAt (k : Nat) (hk : 1 ≤ k ∧ k ≤ 2) (resp : Response) (req : Request) :
    Acs.Made objectsOnly sampleAcs (acceptedAt k resp) req k where
  reached := hk
  earlier j _ hj := by
    have hfailed : (acceptedAt k resp).exchange j req = .failed (.errorf "connection refused") :=
      if_pos hj
    exact ⟨failsTemporarily_of_failed hfailed, rfl⟩

/-- **Accepted in the second attempt with an object as the body**, the record is submitted. -/
theorem acceptance_recorded_second_attempt :
    letI := Unicode.ascii
    ∃ rec W W', Submitted (submit objectsOnly sampleAcs
        (acceptedAt 2 (accepted [0x7B, 0x7D] none)) sampleMessage drawnID) rec W W' ∧
      EndsIn W' drawnID .submitted := by
  let _ := Unicode.ascii
  obtain ⟨rec, W, W', ⟨⟨W0, tr0, hclaim⟩, ⟨tr, hrun⟩, hcalls, hatt, hmsg⟩, hT⟩ : ∃ rec W W',
      Submitted (submit objectsOnly sampleAcs (acceptedAt 2 (accepted [0x7B, 0x7D] none))
        sampleMessage drawnID) rec W W' ∧ decide (rec.id = drawnID) = true :=
    sampleClaim_submitted (T := fun x => x.1.id = drawnID) (by decide +kernel)
  have hid : rec.id = drawnID := of_decide_eq_true hT
  refine ⟨rec, W, W', ⟨⟨W0, tr0, hclaim⟩, ⟨tr, hrun⟩, hcalls, hatt, hmsg⟩, ?_⟩
  have hcanon : Canonical drawnID := ⟨by decide +kernel, by decide +kernel, by decide +kernel⟩
  have hbody : buildSendRequest objectsOnly sampleAcs.sender sampleMessage = .ok _ := rfl
  have hreq : (acceptedAt 2 (accepted [0x7B, 0x7D] none)).requestID = .ok (lit "r-1") := rfl
  obtain ⟨-, hall⟩ := acceptance_recorded_iff hcanon hreq hbody
  obtain ⟨-, hworker⟩ := hall 2 (accepted [0x7B, 0x7D] none)
    (made_acceptedAt 2 (by decide) _ _) rfl rfl
  exact (hworker sampleWorker sampleStore _ rec W0 W W' tr0 tr hid hclaim hrun hcalls).1.mpr
    ⟨rfl, .inr ⟨[], rfl⟩⟩

/-- The service accepts the sample message with the response `resp` to the first request, and the
    record is dead-lettered. -/
def DeadLettersAccepted [Unicode] (resp : Response) : Prop :=
  resp.statusCode = 202 ∧ (∀ req, Acs.Made objectsOnly sampleAcs (acceptedAt 1 resp) req 1) ∧
  ∃ rec W W', Submitted (submit objectsOnly sampleAcs (acceptedAt 1 resp) sampleMessage
    drawnID) rec W W' ∧ rec.id = drawnID ∧ EndsIn W' drawnID .deadLetter

/-- **Accepted with a body that breaks off, or with a plain text as the body**, the record is
    dead-lettered at its first attempt. -/
theorem acceptance_dead_letters :
    letI := Unicode.ascii
    DeadLettersAccepted (accepted [] (some (.errorf "unexpected EOF"))) ∧
    DeadLettersAccepted (accepted (lit "Accepted") none) := by
  let _ := Unicode.ascii
  have hended : ∀ answer, (sampleClaim answer).any (fun x =>
      x.2.2.calls = .submit x.1.id answer :: x.2.1.calls && x.1.attempt < 3 &&
      x.1.message = sampleMessage &&
      (x.1.id = drawnID && (x.2.2.rows.find drawnID).any (·.state = .deadLetter))) = true →
      ∃ rec W W', Submitted answer rec W W' ∧ rec.id = drawnID ∧ EndsIn W' drawnID .deadLetter := by
    intro answer h
    obtain ⟨rec, W, W', hsub, hT⟩ := sampleClaim_submitted h
    obtain ⟨hid, hrow⟩ := (Bool.and_eq_true _ _).mp hT
    obtain ⟨row, hrow, hs⟩ := (Option.any_eq_true _ _).mp hrow
    exact ⟨rec, W, W', hsub, of_decide_eq_true hid, row, hrow, of_decide_eq_true hs⟩
  refine ⟨⟨rfl, made_acceptedAt 1 (by decide) _, hended _ ?_⟩,
    ⟨rfl, made_acceptedAt 1 (by decide) _, hended _ ?_⟩⟩
  · decide +kernel
  · decide +kernel

end Spool

end SmtpCloudRelay
