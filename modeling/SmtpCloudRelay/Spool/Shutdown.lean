/-
  SHUTDOWN DURING A SUBMISSION: what becomes of a record whose Submit is interrupted by the context.

  The context may end at any moment of a call of Submit: in an HTTP attempt, or in the pause between
  two attempts.  The layers classify that on their own.  The worker takes a raw context error for a
  temporary failure; a transport error of ACS is temporary as well; but the pause of ACS that is
  ended by the context, and every error of SES whose text names the context, are PERMANENT, and a
  permanent failure dead-letters the record.

  So the record is queued again exactly when no pause of ACS ends by the context
  (`submitLoop_interrupted`), and when the error of SES carries a status or a code that counts as
  temporary before its text is looked at (`Ses.ReportsTemporary`).
-/
import SmtpCloudRelay.Providers.Ses
import SmtpCloudRelay.Spool.Codec
import SmtpCloudRelay.Spool.Operation

namespace SmtpCloudRelay

open Go Lib Prog Acs

variable [Unicode]

/-- The text of the error names a context that is done. -/
def NamesContext (err : GoError) : Prop :=
  lit "context canceled" <:+: err.error ∨ lit "context deadline exceeded" <:+: err.error

/-! ## ACS -/

namespace Acs

variable (lib : ProviderLib) (p : Provider) (env : Env) (req : Request)

omit [Unicode] in
/-- The attempt fails, and may be repeated. -/
def FailsTemporarily (j : Nat) : Prop :=
  ∃ e, submitOnce lib p env req j = .error e ∧ e.info.retryable = true

/-- The context ends in attempt number `k`, or in the pause after it: so far every attempt has
    failed temporarily and every pause has ended by its timer, and from now on every HTTP exchange
    fails with an error that names the context. -/
structure Interrupted (k : Nat) : Prop where
  reached : 1 ≤ k ∧ k ≤ p.retryAttempts
  earlier : ∀ j, 1 ≤ j → j < k → FailsTemporarily lib p env req j ∧ env.pause j = .timer
  moment : (∃ err, env.exchange k req = .failed err ∧ NamesContext err) ∨
    (k < p.retryAttempts ∧ FailsTemporarily lib p env req k)
  later : ∀ j, k < j → ∃ err, env.exchange j req = .failed err ∧ NamesContext err

variable {lib p env req}

omit [Unicode] in
/-- A transport error is temporary. -/
theorem failsTemporarily_of_failed {j : Nat} {err : GoError} (h : env.exchange j req = .failed err) :
    FailsTemporarily lib p env req j := by
  refine ⟨temporarySendError req.clientRequestID j p.retryAttempts 0 err, ?_, rfl⟩
  unfold submitOnce
  rw [h]

theorem Interrupted.fails {k : Nat} (h : Interrupted lib p env req k) (j : Nat) (hj : 1 ≤ j) :
    FailsTemporarily lib p env req j := by
  rcases Nat.lt_trichotomy j k with hlt | rfl | hgt
  · exact (h.earlier j hj hlt).1
  · rcases h.moment with ⟨err, herr, -⟩ | ⟨-, hfails⟩
    · exact failsTemporarily_of_failed herr
    · exact hfails
  · obtain ⟨err, herr, -⟩ := h.later j hgt
    exact failsTemporarily_of_failed herr

omit [Unicode] in
/-- **A loop in which every attempt fails temporarily** ends temporarily exactly when every pause
    ends by its timer. -/
theorem submitLoop_interrupted {attempt left : Nat}
    (h : ∀ j, attempt ≤ j → FailsTemporarily lib p env req j) :
    ∃ e, submitLoop lib p env req attempt left = .error e ∧
      (e.info.retryable = true ↔
        ∀ j, attempt ≤ j → j < attempt + left → env.pause j = .timer) := by
  -- on the number of attempts that are left
  revert attempt
  induction left with
  | zero =>
    intro attempt h
    obtain ⟨e, he, htemp⟩ := h attempt (Nat.le_refl _)
    refine ⟨e, he, ⟨fun _ j h1 h2 => ?_, fun _ => htemp⟩⟩
    omega
  | succ left ih =>
    intro attempt h
    obtain ⟨e, he, htemp⟩ := h attempt (Nat.le_refl _)
    unfold submitLoop
    rw [he]
    dsimp only
    rw [if_pos htemp]
    cases hpause : env.pause attempt with
    | done ctxErr =>
      refine ⟨_, rfl, ⟨nofun, fun hall => ?_⟩⟩
      rw [hall attempt (Nat.le_refl _) (by omega)] at hpause
      nomatch hpause
    | timer =>
      have hnext : ∀ j, attempt + 1 ≤ j → FailsTemporarily lib p env req j :=
        fun j hj => h j (by omega)
      obtain ⟨e', he', hiff⟩ := ih hnext
      refine ⟨e', he', hiff.trans ⟨fun hall j h1 h2 => ?_, fun hall j h1 h2 => ?_⟩⟩
      · rcases Nat.eq_or_lt_of_le h1 with rfl | hlt
        · exact hpause
        · exact hall j hlt (by omega)
      · exact hall j (by omega) (by omega)

/-- **A call of Submit that is interrupted** fails; temporarily exactly when, from the moment of the
    interruption on, no pause is ended by the context. -/
theorem submit_interrupted {msg : Message} {id requestID : GoString} {body : SendRequest} {k : Nat}
    (hid : env.requestID = .ok requestID) (hbody : buildSendRequest lib p.sender msg = .ok body)
    (h : Interrupted lib p env ⟨requestID, trimSpace id, body⟩ k) :
    ∃ e : SendError, submit lib p env msg id = .error e.toGoError ∧
      (e.info.retryable = true ↔ ∀ j, k ≤ j → j < p.retryAttempts → env.pause j = .timer) := by
  obtain ⟨e, he, hiff⟩ : ∃ e, submitLoop lib p env ⟨requestID, trimSpace id, body⟩ 1
      (p.retryAttempts - 1) = .error e ∧ (e.info.retryable = true ↔
        ∀ j, 1 ≤ j → j < 1 + (p.retryAttempts - 1) → env.pause j = .timer) :=
    submitLoop_interrupted h.fails
  refine ⟨e, ?_, hiff.trans ⟨fun hall j h1 h2 => ?_, fun hall j h1 h2 => ?_⟩⟩
  · unfold submit
    rw [hbody, hid]
    dsimp only
    rw [he]
  · have := h.reached
    exact hall j (by omega) (by omega)
  · rcases Nat.lt_or_ge j k with hlt | hge
    · exact (h.earlier j h1 hlt).2
    · exact hall j hge (by omega)

end Acs

/-! ## SES -/

namespace Ses

/-- The error counts as temporary by its HTTP status or, without one, by its API code. -/
def ReportsTemporary (err : GoError) : Prop :=
  match err.as response? with
  | some status => isRetryableStatus status = true
  | none =>
    match err.as api? with
    | some code => isRetryableAPIError code = true
    | none => False

theorem errorsIsContextCanceled_of_names {err : GoError} (h : NamesContext err) :
    errorsIsContextCanceled err = true := by
  unfold errorsIsContextCanceled contains
  rw [Bool.or_eq_true, decide_eq_true_iff, decide_eq_true_iff]
  rcases h with h | h
  · exact Or.inl (infix_toLower (by decide +kernel) h)
  · exact Or.inr (infix_toLower (by decide +kernel) h)

/-- **An error that names the context** is classified by its status or its code only. -/
theorem classifySendError_names {err : GoError} (h : NamesContext err) :
    ∃ info, classifySendError err = .sendOf .ses info err ∧
      (info.retryable = true ↔ ReportsTemporary err) := by
  unfold classifySendError ReportsTemporary
  cases err.as response? with
  | some status =>
    dsimp only
    cases hs : isRetryableStatus status with
    | true | false => exact ⟨_, rfl, Iff.rfl⟩
  | none =>
    dsimp only
    cases err.as api? with
    | some code =>
      dsimp only
      cases hc : isRetryableAPIError code with
      | true | false => exact ⟨_, rfl, Iff.rfl⟩
    | none =>
      dsimp only
      rw [if_pos (errorsIsContextCanceled_of_names h)]
      exact ⟨_, rfl, ⟨nofun, fun hx => hx.elim⟩⟩

end Ses

/-! ## The worker -/

namespace Spool

variable {w : Worker} {W W' : World} {tr : Trace}

/-- A record that was stored. -/
def Stored (W W' : World) (rec : Record) : Prop :=
  ∃ row row', W.rows.find rec.id = some row ∧ row'.toColumns = rec.columns ∧
    W'.rows = W.rows.replace row' ∧ W'.calls = W.calls

variable {rec : Record} {now : Int} {s : SpoolStore} {answer : Except GoError SubmissionResult}

omit [Unicode] in
theorem Stored.find (h : Stored W W' rec) :
    ∃ row', W'.rows.find rec.id = some row' ∧ row'.toColumns = rec.columns := by
  obtain ⟨row, row', hrow, hcols, hrows, -⟩ := h
  have hid : row.id = rec.id := find_id hrow
  have hid' : row'.id = row.id := by
    rw [hcols, hid]
    rfl
  refine ⟨row', ?_, hcols⟩
  rw [hrows, ← hid]
  exact find_replace_self (hid.symm ▸ hrow) hid'

theorem storeUpdated_stored {st : State} {updated : Except GoError Record}
    (h : Runs exec (storeUpdated st updated) W tr (.ok rec) W') :
    updated = .ok rec ∧ Canonical rec.id ∧ Stored W W' rec := by
  rcases h.lift_bind_inv with ⟨rec', hupd, h⟩ | ⟨_, -, hx, -⟩
  · rcases h.act_bind_inv with ⟨_, tr1, tr2, W1, rfl, hupdate, hret⟩ | ⟨_, hx, -⟩
    · obtain ⟨hrec, -, rfl⟩ := hret.ret_inv
      cases hrec
      obtain ⟨hid, -, hcalls, row, row', hrow, -, hcols, hrows⟩ := updateRecord_applied hupdate
      exact ⟨hupd, hid, row, row', hrow, hcols, hrows, hcalls⟩
    · nomatch hx
  · nomatch hx

/-- Reading the clock first changes nothing. -/
theorem readClock_stored {f : Int → Task Record}
    (h : Runs exec (readClock >>= f : Task Record) W tr (.ok rec) W') :
    ∃ t tr1 W1, W1.rows = W.rows ∧ W1.calls = W.calls ∧ Runs exec (f t) W1 tr1 (.ok rec) W' := by
  obtain ⟨c, t, W1, tr1, -, hE, hf⟩ := h.step_inv
  refine ⟨t, tr1, W1, ?_, ?_, hf⟩
  · exact exec_rows hE rfl
  · exact exec_calls hE rfl

omit [Unicode] in
theorem Stored.from {W1 : World} (h : Stored W1 W' rec) (hrows : W1.rows = W.rows)
    (hcalls : W1.calls = W.calls) : Stored W W' rec := by
  obtain ⟨row, row', hrow, hcols, hrows', hcalls'⟩ := h
  rw [hrows] at hrow hrows'
  exact ⟨row, row', hrow, hcols, hrows', hcalls'.trans hcalls⟩

/-- **A `Mark*` method that succeeds has stored its record.** -/
theorem mark_stored {m : Mark} (h : Runs exec m.run W tr (.ok rec) W') :
    m.Stores rec ∧ Canonical rec.id ∧ Stored W W' rec := by
  cases m with
  | submitted rec0 result next =>
    rcases h.lift_bind_inv with ⟨_, hstate, h⟩ | ⟨_, -, hx, -⟩
    · obtain ⟨t, tr1, W1, hrows, hcalls, h1⟩ := readClock_stored h
      obtain ⟨hrec, hid, hstored⟩ := storeUpdated_stored h1
      exact ⟨⟨not_not.mp (failIf_eq_ok.mp hstate), t, (Except.ok.inj hrec).symm⟩, hid,
        hstored.from hrows hcalls⟩
    · nomatch hx
  | retry rec0 next lastErr =>
    obtain ⟨t1, tr1, W1, hrows1, hcalls1, h1⟩ := readClock_stored h
    obtain ⟨t2, tr2, W2, hrows2, hcalls2, h2⟩ := readClock_stored h1
    obtain ⟨hrec, hid, hstored⟩ := storeUpdated_stored h2
    exact ⟨⟨t1, t2, hrec⟩, hid, hstored.from (hrows2.trans hrows1) (hcalls2.trans hcalls1)⟩
  | succeeded rec0 =>
    obtain ⟨t, tr1, W1, hrows, hcalls, h1⟩ := readClock_stored h
    obtain ⟨hrec, hid, hstored⟩ := storeUpdated_stored h1
    exact ⟨⟨t, hrec⟩, hid, hstored.from hrows hcalls⟩
  | deadLetter rec0 lastErr =>
    obtain ⟨t1, tr1, W1, hrows1, hcalls1, h1⟩ := readClock_stored h
    obtain ⟨t2, tr2, W2, hrows2, hcalls2, h2⟩ := readClock_stored h1
    obtain ⟨hrec, hid, hstored⟩ := storeUpdated_stored h2
    exact ⟨⟨t1, t2, hrec⟩, hid, hstored.from (hrows2.trans hrows1) (hcalls2.trans hcalls1)⟩

theorem finalizeRecord_stored {id : GoString} {f : Finalization}
    (h : Runs exec (finalizeRecord id f >>= fun _ => pure true : Task Bool) W tr (.ok true) W') :
    ∃ rec', f.mark.Stores rec' ∧ Canonical rec'.id ∧ Stored W W' rec' := by
  rcases h.act_bind_inv with ⟨_, tr2, tr3, W2, -, hfin, hret⟩ | ⟨_, hx, -⟩
  · obtain ⟨-, -, rfl⟩ := hret.ret_inv
    rcases hfin.act_bind_inv with ⟨_, tr4, tr5, W3, -, hmap, hret⟩ | ⟨_, hx, -⟩
    · obtain ⟨-, -, rfl⟩ := hret.ret_inv
      -- an error of the method would be an error of the whole
      obtain ⟨out, tr6, tr7, W4, -, hmark, hlift⟩ := hmap.bind_inv
      cases out with
      | error e =>
        obtain ⟨hx, -, -⟩ := Runs.ret_inv hlift
        nomatch hx
      | ok rec' =>
        obtain ⟨-, -, rfl⟩ := Runs.ret_inv hlift
        exact ⟨rec', mark_stored hmark⟩
    · nomatch hx
  · nomatch hx

/-- **What `processQueuedOnce` has done with a claimed record**: it has called Submit once, and has
    stored what the branch for the answer stores. -/
theorem processQueued_stored (h : Runs exec (w.processQueued now rec) W tr (.ok true) W') :
    ∃ answer rec' row', W'.calls = .submit rec.id answer :: W.calls ∧
      (w.queuedOutcome now rec answer).mark.Stores rec' ∧ Canonical rec'.id ∧
      W'.rows.find rec'.id = some row' ∧ row'.toColumns = rec'.columns := by
  obtain ⟨c, answer, W1, tr1, -, hE, h⟩ := h.step_inv
  have hrest : Runs exec (finalizeRecord rec.id (w.queuedOutcome now rec answer) >>=
      fun _ => pure true : Task Bool) W1 tr1 (.ok true) W' := h
  obtain ⟨hrows, hcalls⟩ := exec_submit hE
  obtain ⟨rec', hstores, hid, hstored⟩ := finalizeRecord_stored hrest
  obtain ⟨row', hrow', hcols⟩ := hstored.find
  obtain ⟨-, -, -, -, -, hcalls'⟩ := hstored
  exact ⟨answer, rec', row', hcalls'.trans hcalls, hstores, hid, hrow', hcols⟩

theorem claimReady_claimed (h : Runs exec (s.claimReady now) W tr (.ok (some rec)) W')
    (w : Worker) : ∃ (m : Metadata) (msg : Message), m.state = .working ∧ rec = m.loaded msg := by
  obtain ⟨⟨κ, hclaimed, -⟩, -⟩ := Runs.safe (L := workerProto w) (R := fun _ _ => True)
    (fun _ _ _ _ _ _ _ _ hE => ⟨_, ⟨exec_truthful hE, rfl⟩, trivial⟩) h
    (claimReady_safe now) trivial
  exact hclaimed rec rfl

/-- The row of the record is in state `st`. -/
def EndsIn (W : World) (id : GoString) (st : State) : Prop :=
  ∃ row, W.rows.find id = some row ∧ row.state = st

/-- **How an attempt ends**: the row of the record is in the state of what the branch for the
    answer has stored. -/
theorem processQueued_ends {W0 : World} {tr0 : Trace}
    (hclaim : Runs exec (s.claimReady now) W0 tr0 (.ok (some rec)) W)
    (hrun : Runs exec (w.processQueued now rec) W tr (.ok true) W')
    (hanswer : W'.calls = .submit rec.id answer :: W.calls) :
    ∃ (m : Metadata) (rec' : Record), m.attempt = rec.attempt ∧ Canonical rec.id ∧
      (w.queuedOutcome now rec answer).mark.Stores rec' ∧ SubmitEnd w now m answer rec' ∧
      ∀ st, EndsIn W' rec.id st ↔ rec'.state = st := by
  obtain ⟨m, msg, hm, rfl⟩ := claimReady_claimed hclaim w
  obtain ⟨answer', rec', row', hcalls, hstores, hcanon, hrow', hcols⟩ := processQueued_stored hrun
  cases hanswer.symm.trans hcalls
  obtain ⟨hatt, hend⟩ := queued_stores hm hstores
  have hstate : row'.state = rec'.state := by
    rw [hcols]
    rfl
  rw [hatt.id] at hrow' hcanon
  refine ⟨m, rec', rfl, hcanon, hstores, hend, fun st => ⟨?_, ?_⟩⟩
  · rintro ⟨r, hr, hs⟩
    cases hrow'.symm.trans hr
    exact hstate.symm.trans hs
  · exact fun hs => ⟨row', hrow', hstate.trans hs⟩

/-- **A failed attempt that may be repeated** is repeated exactly when the failure is temporary;
    otherwise the record is dead-lettered. -/
theorem processQueued_failed {W0 : World} {tr0 : Trace}
    (hclaim : Runs exec (s.claimReady now) W0 tr0 (.ok (some rec)) W)
    (hrun : Runs exec (w.processQueued now rec) W tr (.ok true) W')
    (hanswer : W'.calls = .submit rec.id answer :: W.calls)
    (hattempt : rec.attempt < w.cfg.retryAttempts) (hno : ¬ Accepted answer) :
    (EndsIn W' rec.id .queued ↔ FailedTemporarily answer) ∧
    (EndsIn W' rec.id .deadLetter ↔ ¬ FailedTemporarily answer) := by
  obtain ⟨m, rec', hatt, -, -, hend, hends⟩ := processQueued_ends hclaim hrun hanswer
  rw [hends, hends]
  have haccepted := hend.accepted
  cases hend with
  | retry state failed allowed blank next =>
    rw [state]
    exact ⟨⟨fun _ => failed, fun _ => rfl⟩, ⟨nofun, fun hx => absurd failed hx⟩⟩
  | dead state refused exhausted blank =>
    have hperm : ¬ FailedTemporarily answer := by
      intro htemp
      have hle := exhausted htemp
      rw [hatt] at hle
      exact absurd hle (not_le.mpr hattempt)
    rw [state]
    exact ⟨⟨nofun, fun hx => absurd hx hperm⟩, ⟨fun _ => hperm, fun _ => rfl⟩⟩
  | succeeded state => exact absurd (haccepted (Or.inr state)) hno
  | submitted state => exact absurd (haccepted (Or.inl state)) hno

/-- The worker asks the error of a provider itself. -/
theorem failedTemporarily_acs (e : SendError) :
    FailedTemporarily (.error e.toGoError) ↔ e.info.retryable = true := by
  obtain ⟨info, err⟩ := e
  cases err with
  | none | some err => exact Iff.rfl

theorem failedTemporarily_ses (info : SendInfo) (err : GoError) :
    FailedTemporarily (.error (.sendOf .ses info err)) ↔ info.retryable = true := Iff.rfl

/-- **Shutdown and dead letters.**  For a claimed record with an attempt left, whose Submit is
    interrupted before the provider has accepted the message, and a store that works: with ACS the
    record is queued again exactly when no pause between two attempts is ended by the context, and
    with SES exactly when the error carries a status or a code that counts as temporary.  In every
    other case it is dead-lettered. -/
theorem shutdown_requeues_iff {s : SpoolStore} {now : Int} {rec : Record} {W0 : World}
    {tr0 : Trace} {answer : Except GoError SubmissionResult}
    (hclaim : Runs exec (s.claimReady now) W0 tr0 (.ok (some rec)) W)
    (hrun : Runs exec (w.processQueued now rec) W tr (.ok true) W')
    (hanswer : W'.calls = .submit rec.id answer :: W.calls)
    (hattempt : rec.attempt < w.cfg.retryAttempts) :
    (∀ (lib : ProviderLib) (p : Provider) (env : Env) (requestID : GoString)
        (body : SendRequest) (k : Nat), answer = submit lib p env rec.message rec.id →
      env.requestID = .ok requestID → buildSendRequest lib p.sender rec.message = .ok body →
      Interrupted lib p env ⟨requestID, trimSpace rec.id, body⟩ k →
      (EndsIn W' rec.id .queued ↔ ∀ j, k ≤ j → j < p.retryAttempts → env.pause j = .timer) ∧
      (EndsIn W' rec.id .deadLetter ↔ ¬ ∀ j, k ≤ j → j < p.retryAttempts → env.pause j = .timer)) ∧
    (∀ (lib : ProviderLib) (p : Ses.Provider)
        (sendEmail : Ses.SendEmailInput → Except GoError GoString) (input : Ses.SendEmailInput)
        (err : GoError), answer = Ses.submit lib p sendEmail rec.message rec.id →
      Ses.buildInput lib p rec.message = .ok input → sendEmail input = .error err →
      NamesContext err →
      (EndsIn W' rec.id .queued ↔ Ses.ReportsTemporary err) ∧
      (EndsIn W' rec.id .deadLetter ↔ ¬ Ses.ReportsTemporary err)) := by
  have hended : ∀ err, answer = .error err →
      (EndsIn W' rec.id .queued ↔ FailedTemporarily (.error err)) ∧
      (EndsIn W' rec.id .deadLetter ↔ ¬ FailedTemporarily (.error err)) := by
    rintro err rfl
    exact processQueued_failed hclaim hrun hanswer hattempt fun ha => ha
  refine ⟨?_, ?_⟩
  · intro lib p env requestID body k hsubmit hid hbody hstop
    obtain ⟨e, he, hiff⟩ := submit_interrupted hid hbody hstop
    rw [← hiff, ← failedTemporarily_acs]
    exact hended _ (hsubmit.trans he)
  · intro lib p sendEmail input err hsubmit hinput hsend hnames
    obtain ⟨info, hinfo, hiff⟩ := Ses.classifySendError_names hnames
    rw [← hiff, ← failedTemporarily_ses info err, ← hinfo]
    refine hended _ (hsubmit.trans ?_)
    unfold Ses.submit
    rw [hinput]
    dsimp only
    rw [hsend]

/-! ## Small cases -/

/-- After a morning the record is claimed, and its Submit answers `answer`: the record, and the
    worlds around the submission. -/
def sampleClaim (answer : Except GoError SubmissionResult) : Option (Record × World × World) := do
  let morning ← sampleMorning
  let claimed ← run exec (calm answer (.error .canceled)) 100 (sampleStore.claimReady (2 * second))
    morning.2
  match claimed.1 with
  | .ok (some rec) => do
    let worked ← run exec (calm answer (.error .canceled)) 100
      (sampleWorker.processQueued (2 * second) rec) claimed.2.2
    if worked.1 = .ok true then some (rec, claimed.2.2, worked.2.2) else none
  | _ => none

/-- The record of a morning is claimed and submitted, with this answer. -/
def Submitted (answer : Except GoError SubmissionResult) (rec : Record) (W W' : World) : Prop :=
  (∃ W0 tr0, Runs exec (sampleStore.claimReady (2 * second)) W0 tr0 (.ok (some rec)) W) ∧
  (∃ tr, Runs exec (sampleWorker.processQueued (2 * second) rec) W tr (.ok true) W') ∧
  W'.calls = .submit rec.id answer :: W.calls ∧ rec.attempt < sampleWorker.cfg.retryAttempts ∧
  rec.message = sampleMessage

theorem sampleClaim_submitted {T : Record × World × World → Bool}
    (h : (sampleClaim answer).any (fun x =>
      x.2.2.calls = .submit x.1.id answer :: x.2.1.calls && x.1.attempt < 3 &&
      x.1.message = sampleMessage && T x) = true) :
    ∃ rec W W', Submitted answer rec W W' ∧ T (rec, W, W') = true := by
  obtain ⟨⟨rec, W, W'⟩, hclaim, hT⟩ := (Option.any_eq_true _ _).mp h
  simp only [Bool.and_eq_true, decide_eq_true_eq] at hT
  obtain ⟨⟨⟨hcalls, hatt⟩, hmsg⟩, hT⟩ := hT
  refine ⟨rec, W, W', ⟨?_, ?_, hcalls, hatt, hmsg⟩, hT⟩
  all_goals
    unfold sampleClaim at hclaim
    obtain ⟨⟨rec0, W0⟩, h0, hclaim⟩ := Option.bind_eq_some_iff.mp hclaim
    obtain ⟨⟨out1, tr1, W1⟩, h1, hclaim⟩ := Option.bind_eq_some_iff.mp hclaim
    rcases out1 with e | _ | rec1
    · nomatch hclaim
    · nomatch hclaim
    obtain ⟨⟨out2, tr2, W2⟩, h2, hclaim⟩ := Option.bind_eq_some_iff.mp hclaim
    split at hclaim
    · rename_i hout
      cases hclaim
      first
        | exact ⟨_, _, runs_of_run h1⟩
        | exact ⟨tr2, hout ▸ runs_of_run h2⟩
    · nomatch hclaim

/-- A library that accepts everything. -/
def sampleLib : ProviderLib where
  urlParse s := .ok ⟨lit "https", lit "acs.example.com", s⟩
  decodeBase64 := .ok
  parseAddress := .ok
  readFile _ := .ok []
  hasCerts _ := true
  loadAWSConfig _ := .ok ()
  decodeOperation := .ok
  httpDateDelay _ := none

/-- An ACS provider with two attempts. -/
def sampleAcs : Provider where
  endpoint := ⟨lit "https", lit "acs.example.com", lit "https://acs.example.com"⟩
  accessKey := []
  sender := lit "a@example.com"
  retryAttempts := 2
  retryBaseDelay := second
  attempts_pos := by decide

/-- The context is cancelled around attempt number `k`: the attempts before it are refused, and the
    pauses before it end by their timers. -/
def cancelledFrom (k : Nat) : Env where
  requestID := .ok (lit "r-1")
  exchange j _ := .failed (if j < k then .errorf "connection refused" else .canceled)
  pause j := if j + 1 < k then .timer else .done .canceled

theorem namesContext_canceled : NamesContext .canceled := .inl ⟨[], [], rfl⟩

/-- The ACS submission of the sample message is cancelled in its second and last attempt; the
    pause before it has ended. -/
theorem interrupted_lastAttempt (req : Request) :
    Interrupted sampleLib sampleAcs
      { cancelledFrom 2 with pause := fun _ => .timer } req 2 where
  reached := by decide
  earlier j h1 h2 := ⟨failsTemporarily_of_failed rfl, rfl⟩
  moment := .inl ⟨_, rfl, namesContext_canceled⟩
  later j hj := by
    refine ⟨.canceled, ?_, namesContext_canceled⟩
    show Exchange.failed (if j < 2 then _ else _) = _
    rw [if_neg (by omega)]

/-- It is cancelled in the pause after its first attempt. -/
theorem interrupted_pause (req : Request) :
    Interrupted sampleLib sampleAcs (cancelledFrom 2) req 1 where
  reached := by decide
  earlier j h1 h2 := by omega
  moment := .inr ⟨by decide, failsTemporarily_of_failed rfl⟩
  later j hj := by
    refine ⟨.canceled, ?_, namesContext_canceled⟩
    show Exchange.failed (if j < 2 then _ else _) = _
    rw [if_neg (by omega)]

omit [Unicode] in
/-- **Cancelled in the last attempt**, the record is queued again. -/
theorem shutdown_requeues_last_attempt :
    letI := Unicode.ascii
    ∃ rec W W', Submitted (submit sampleLib sampleAcs
        { cancelledFrom 2 with pause := fun _ => .timer } sampleMessage []) rec W W' ∧
      EndsIn W' rec.id .queued := by
  let _ := Unicode.ascii
  obtain ⟨rec, W, W', hsub, -⟩ : ∃ rec W W', Submitted (submit sampleLib sampleAcs
      { cancelledFrom 2 with pause := fun _ => .timer } sampleMessage []) rec W W' ∧ true = true :=
    sampleClaim_submitted (T := fun _ => true) (by decide +kernel)
  obtain ⟨⟨W0, tr0, hclaim⟩, ⟨tr, hrun⟩, hcalls, hatt, hmsg⟩ := hsub
  refine ⟨rec, W, W', ⟨⟨W0, tr0, hclaim⟩, ⟨tr, hrun⟩, hcalls, hatt, hmsg⟩, ?_⟩
  obtain ⟨hacs, -⟩ := shutdown_requeues_iff hclaim hrun hcalls hatt
  refine (hacs sampleLib sampleAcs _ _ _ 2 ?_ rfl (by rw [hmsg]; rfl)
    (interrupted_lastAttempt _)).1.mpr ?_
  · rw [hmsg]
    rfl
  · intro j _ _
    rfl

omit [Unicode] in
/-- **Cancelled in a pause of ACS, or in the call of SES**, the record is dead-lettered at its first
    attempt. -/
theorem shutdown_dead_letters :
    letI := Unicode.ascii
    (∀ req, Interrupted sampleLib sampleAcs (cancelledFrom 2) req 1) ∧
    (∃ rec W W', Submitted (submit sampleLib sampleAcs (cancelledFrom 2) sampleMessage [])
        rec W W' ∧ EndsIn W' rec.id .deadLetter) ∧
    (∃ rec W W', Submitted (Ses.submit sampleLib ⟨lit "a@example.com", []⟩
        (fun _ => .error .canceled) sampleMessage []) rec W W' ∧ EndsIn W' rec.id .deadLetter) := by
  let _ := Unicode.ascii
  have hended : ∀ answer, (sampleClaim answer).any (fun x =>
      x.2.2.calls = .submit x.1.id answer :: x.2.1.calls && x.1.attempt < 3 &&
      x.1.message = sampleMessage && (x.2.2.rows.find x.1.id).any (·.state = .deadLetter)) = true →
      ∃ rec W W', Submitted answer rec W W' ∧ EndsIn W' rec.id .deadLetter := by
    intro answer h
    obtain ⟨rec, W, W', hsub, hT⟩ := sampleClaim_submitted h
    obtain ⟨row, hrow, hs⟩ := (Option.any_eq_true _ _).mp hT
    exact ⟨rec, W, W', hsub, row, hrow, of_decide_eq_true hs⟩
  exact ⟨interrupted_pause, hended _ (by decide +kernel), hended _ (by decide +kernel)⟩

end Spool

end SmtpCloudRelay
