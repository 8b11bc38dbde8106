/-
  SUBMISSION ACCOUNTING: every attempt that a record counts is a call of Submit, and the other way
  round, along every run of the worker's loop among any number of sessions.

  The LEDGER says so as long as the loop goes on.  When a transaction fails, the loop ends, and
  nothing is said about the rows any more; what was said about the calls stays true, because no
  further call is made.
-/
import SmtpCloudRelay.Spool.Ledger

namespace SmtpCloudRelay.Spool

open Go Lib Prog List

/-- Once the provider has accepted a message, Submit was not called for it any more; the newest
    call stands first. -/
def AcceptedOnce (cs : List ProviderCall) : Prop :=
  ∀ newer older id answer, cs = newer ++ .submit id answer :: older → Accepted answer →
    submits newer id = 0

/-- The invariant of the worker's runs. -/
structure Accounts (w : Worker) (rows0 : Records) (κ : Duty) (t : Records)
    (cs : List ProviderCall) : Prop where
  bound : ∀ id, rows0.find id = none → (submits cs id : Int) ≤ w.cfg.retryAttempts + 1
  once : AcceptedOnce cs
  sees : κ.Sees t
  ledger : κ ≠ .stopped → Ledger w rows0 κ t cs

section

variable {w : Worker} {rows0 t : Records} {κ κ' : Duty} {cs : List ProviderCall}

/-! ## Steps -/

/-- A call that is not a Submit, or is one for another record, leaves what was accepted in peace. -/
theorem AcceptedOnce.cons {call : ProviderCall} (h : AcceptedOnce cs)
    (hcall : ∀ id, WasAccepted cs id → call.isSubmit id = false) : AcceptedOnce (call :: cs) := by
  intro newer older id answer hcs ha
  cases newer with
  | nil => rfl
  | cons c newer =>
    obtain ⟨rfl, rfl⟩ := List.cons.inj hcs
    have hzero : submits newer id = 0 := h newer older id answer rfl ha
    have hin : Answered (newer ++ .submit id answer :: older) id answer :=
      mem_append_right _ (mem_cons_self ..)
    have hno : call.isSubmit id = false := hcall id ⟨answer, hin, ha⟩
    unfold submits at hzero ⊢
    rw [countP_cons_of_neg (by rw [hno]; simp)]
    exact hzero

/-- **The worker keeps the accounts**, whatever the provider answers. -/
theorem Accounts.worker [Unicode] {t' : Records} {cs' : List ProviderCall}
    (A : Accounts w rows0 κ t cs) (h : WorkerStep w κ t cs κ' t' cs') :
    Accounts w rows0 κ' t' cs' := by
  have hsees : κ'.Sees t' := A.sees.worker h
  cases h with
  | quiet => exact A
  | stop => exact ⟨A.bound, A.once, hsees, fun h => absurd rfl h⟩
  | @claim _ _ row row' stamp _ hrow hs hcols hκ =>
    refine ⟨A.bound, A.once, hsees, fun hgo => ?_⟩
    rcases hκ with rfl | rfl
    · exact (A.ledger (by simp)).claim hrow hs hcols
    · exact absurd rfl hgo
  | find hrow hs => exact ⟨A.bound, A.once, hsees, fun _ => (A.ledger (by simp)).find _⟩
  | @submit _ _ m answer =>
    have L : Ledger w rows0 (.claimed m) t cs := A.ledger (by simp)
    have hm : m.Sees .working t := A.sees
    obtain ⟨-, row, hrow, -⟩ := hm
    have acc := L.rows m.id row hrow
    have hworking : row.state = .working := acc.working.mpr rfl
    refine ⟨fun id hnew => ?_, A.once.cons fun id ha => ?_, hsees, fun _ => L.submit A.sees answer⟩
    · by_cases hid : m.id = id
      · -- the row has counted every call so far, and was allowed one more
        subst hid
        have hle : row.attempt ≤ w.cfg.retryAttempts := acc.allowed hnew (Or.inr hworking)
        have hatt : row.attempt + 0 = startAttempt rows0 m.id + submits cs m.id := acc.attempt
        have hzero : startAttempt rows0 m.id = 0 := by
          unfold startAttempt
          rw [hnew]
        rw [submits_submit_self]
        omega
      · rw [submits_submit_other hid]
        exact A.bound id hnew
    · refine decide_eq_false fun hid => ?_
      subst hid
      obtain ⟨_, _, hx⟩ := (acc.settled ha).2 hworking
      nomatch hx
  | @poll _ _ m answer =>
    refine ⟨fun id hnew => ?_, A.once.cons fun _ _ => rfl, hsees,
      fun _ => (A.ledger (by simp)).poll answer⟩
    rw [submits_poll]
    exact A.bound id hnew
  | @update _ _ _ _ m rec row row' hw hrow hs hcols hκ =>
    refine ⟨A.bound, A.once, hsees, fun hgo => ?_⟩
    have hnot : κ ≠ .stopped := by
      rintro rfl
      nomatch hw
    rcases hκ with rfl | rfl
    · exact (A.ledger hnot).update A.sees hw hrow hs hcols
    · exact absurd rfl hgo

/-- **A session keeps the accounts.** -/
theorem Accounts.client {t' : Records} (A : Accounts w rows0 κ t cs) (h : ClientStep t t') :
    Accounts w rows0 κ t' cs := by
  have hsees : κ.Sees t' := A.sees.client h
  cases h with
  | quiet => exact A
  | insert hfree hcols =>
    refine ⟨A.bound, A.once, hsees, fun hgo => (A.ledger hgo).insert A.sees hfree ?_ ?_⟩
    · rw [hcols]
      rfl
    · rw [hcols]
      rfl

/-! ## Runs -/

/-- At the start there is nothing to account for. -/
theorem accounts_start (h : ∀ id row, rows0.find id = some row → row.state ≠ .working) :
    Accounts w rows0 .idle rows0 [] := by
  have hnever : ∀ id, ¬ WasAccepted [] id := fun id ⟨_, ha, _⟩ => nomatch ha
  refine ⟨fun id _ => ?_, fun newer older id answer hx => ?_, trivial,
    fun _ => ⟨fun id row hrow => ?_, ?_, trivial⟩⟩
  · have := w.valid.retryAttempts
    show ((0 : Nat) : Int) ≤ _
    omega
  · rcases append_eq_nil_iff.mp hx.symm with ⟨-, hx⟩
    nomatch hx
  · refine ⟨?_, ⟨fun hs => absurd hs (h id row hrow), nofun⟩, ?_, ?_,
      fun ha => absurd ha (hnever id)⟩
    · show row.attempt + 0 = startAttempt rows0 id + ((0 : Nat) : Int)
      unfold startAttempt
      rw [hrow]
      rfl
    · intro hnew
      rw [hrow] at hnew
      nomatch hnew
    · intro hnew
      rw [hrow] at hnew
      nomatch hnew
  · exact fun id hnone => ⟨hnone, rfl⟩

section Runs

variable [Unicode] {s : SpoolStore} {σ0 σ σ' : Sys}

/-- The accounts are kept in every state that a serving process gets to. -/
theorem accounts_run (hstart : σ0.process = .serving (w.start s) []) (hcalls : σ0.world.calls = [])
    (hworking : ∀ id row, σ0.world.rows.find id = some row → row.state ≠ .working)
    (hrun : Relation.ReflTransGen (Serves s) σ0 σ) :
    ∃ κ, OnDuty w κ σ.process ∧ Accounts w σ0.world.rows κ σ.world.rows σ.world.calls := by
  induction hrun with
  | refl =>
    refine ⟨.idle, ?_, ?_⟩
    · rw [hstart]
      exact onDuty_start
    · rw [hcalls]
      exact accounts_start hworking
  | tail hrun hstep ih =>
    obtain ⟨κ, hduty, A⟩ := ih
    obtain ⟨κ', hduty', hworker | ⟨rfl, hclient, hsame⟩⟩ := hduty.step hstep
    · exact ⟨κ', hduty', A.worker hworker⟩
    · refine ⟨κ', hduty', ?_⟩
      rw [hsame]
      exact A.client hclient

/-- The worker stands at the head of its loop. -/
def AtHead (w : Worker) (s : SpoolStore) (σ : Sys) : Prop :=
  ∃ clients, σ.process = .serving (w.start s) clients

theorem OnDuty.idle_of_head (h : OnDuty w κ σ.process) (hhead : AtHead w s σ) : κ = .idle := by
  obtain ⟨clients, hp⟩ := hhead
  rw [hp] at h
  obtain ⟨hwk, -⟩ := h
  exact duty_at_head hwk

/-- A new record for which every attempt was made, and none was accepted, is dead-lettered. -/
theorem RowAccount.exhausted {id : GoString} {row : Row}
    (acc : RowAccount w rows0 .idle cs id row) (hnew : rows0.find id = none)
    (hall : (submits cs id : Int) = w.cfg.retryAttempts + 1)
    (hfailed : ∀ answer, Answered cs id answer → FailedTemporarily answer) :
    row.state = .deadLetter := by
  have hatt : row.attempt + 0 = startAttempt rows0 id + submits cs id := acc.attempt
  have hzero : startAttempt rows0 id = 0 := by
    unfold startAttempt
    rw [hnew]
  have hnever : ¬ WasAccepted cs id := fun ⟨answer, hcall, ha⟩ =>
    (hfailed answer hcall).not_accepted ha
  have hqueued : row.state ≠ .queued := by
    intro hs
    have := acc.allowed hnew (Or.inl hs)
    omega
  have hworking : row.state ≠ .working := fun hs => nomatch acc.working.mp hs
  have hsubmitted : row.state ≠ .submitted := fun hs => hnever (acc.delivered hnew (Or.inl hs))
  have hsucceeded : row.state ≠ .succeeded := fun hs => hnever (acc.delivered hnew (Or.inr hs))
  have hvalid : isValidState row.state = true := row.check.state
  cases hs : row.state with
  | deadLetter => rfl
  | queued => exact absurd hs hqueued
  | working => exact absurd hs hworking
  | submitted => exact absurd hs hsubmitted
  | succeeded => exact absurd hs hsucceeded
  | other text =>
    rw [hs] at hvalid
    nomatch hvalid

/-- A step that calls Poll is the worker's, for a submitted record. -/
theorem ServingStep.poll_submitted {W W' : World} {id op : GoString}
    {answer : Except GoError SubmissionStatus} (A : Accounts w rows0 κ W.rows W.calls)
    (h : ServingStep w κ W κ' W') (hcalls : W'.calls = .poll id op answer :: W.calls) :
    ∃ row, W.rows.find id = some row ∧ row.state = .submitted := by
  have hno : W'.calls ≠ W.calls := by
    intro hx
    rw [hx] at hcalls
    exact cons_ne_self _ _ hcalls.symm
  rcases h with h | ⟨-, -, hsame⟩
  · generalize W'.rows = t' at h
    generalize hcs' : W'.calls = cs' at h hno hcalls
    cases h with
    | submit answer => nomatch hcalls
    | poll answer =>
      cases hcalls
      obtain ⟨hm, row, hrow, hdesc⟩ := A.sees
      exact ⟨row, hrow, hdesc.state.symm.trans hm⟩
    | quiet | stop | claim _ _ _ _ | find _ _ | update _ _ _ _ _ => exact absurd rfl hno
  · exact absurd hsame hno

/-- **Submission accounting.**  In every run of the worker's loop that starts without working rows:
    at every head of the loop no row is working, every record counts the attempts it started with
    and one for every call of Submit, and a record enqueued during the run for which all attempts
    were made and failed temporarily is dead-lettered.  At most `RetryAttempts + 1` calls of Submit
    are made for a record enqueued during the run, none after the provider has accepted its message,
    and Poll is called only for a record that is submitted. -/
theorem submission_accounting (hstart : σ0.process = .serving (w.start s) [])
    (hcalls : σ0.world.calls = [])
    (hworking : ∀ id row, σ0.world.rows.find id = some row → row.state ≠ .working)
    (hrun : Relation.ReflTransGen (Serves s) σ0 σ) :
    (AtHead w s σ → ∀ id row, σ.world.rows.find id = some row →
      row.state ≠ .working ∧
      row.attempt = startAttempt σ0.world.rows id + submits σ.world.calls id ∧
      (σ0.world.rows.find id = none →
        (submits σ.world.calls id : Int) = w.cfg.retryAttempts + 1 →
        (∀ answer, Answered σ.world.calls id answer → FailedTemporarily answer) →
        row.state = .deadLetter)) ∧
    (∀ id, σ0.world.rows.find id = none →
      (submits σ.world.calls id : Int) ≤ w.cfg.retryAttempts + 1) ∧
    AcceptedOnce σ.world.calls ∧
    (∀ σ' id op answer, Serves s σ σ' →
      σ'.world.calls = .poll id op answer :: σ.world.calls →
      ∃ row, σ.world.rows.find id = some row ∧ row.state = .submitted) := by
  obtain ⟨κ, hduty, A⟩ := accounts_run hstart hcalls hworking hrun
  refine ⟨fun hhead id row hrow => ?_, A.bound, A.once, fun σ' id op answer hstep hpoll => ?_⟩
  · cases hduty.idle_of_head hhead
    have acc := (A.ledger (by simp)).rows id row hrow
    refine ⟨(fun hs => nomatch acc.working.mp hs), ?_, acc.exhausted⟩
    have hatt : row.attempt + 0 = startAttempt σ0.world.rows id + submits σ.world.calls id :=
      acc.attempt
    omega
  · obtain ⟨κ', -, hserving⟩ := hduty.step hstep
    exact hserving.poll_submitted A hpoll

end Runs

end

/-- A relay boots, a message is enqueued, and the worker makes two rounds: Submit answers Running at
    second 2, and Poll says at second 9 that the operation has succeeded. -/
def samplePolled [Unicode] (T : World → World → Bool) : Bool :=
  let ch (now : Int) : Op → Choice := calmAt now
    (.ok { state := .running, operationID := lit "op-1", operationLocation := [],
           providerMessageID := [], retryAfter := 0, failure := none })
    (.ok ⟨lit "op-1", 0, .succeeded, lit "msg-1", none⟩)
  (run exec (ch (2 * second)) 100 (boot sampleStore) (sampleWorld ⟨[], nodup_nil⟩)).any fun x =>
    (run exec (ch (2 * second)) 100 (sampleStore.enqueue sampleMessage) x.2.2).any fun y =>
      (run exec (ch (2 * second)) 100 (sampleWorker.once sampleStore) y.2.2).any fun z =>
        (run exec (ch (9 * second)) 100 (sampleWorker.once sampleStore) z.2.2).any fun u =>
          y.1.toBool && decide (z.1 = .ok () ∧ u.1 = .ok ()) && T x.2.2 u.2.2

/-- A record that is enqueued, submitted and polled: at the head after that it has succeeded, with one
    attempt for its one Submit. -/
theorem submission_accounting_polled :
    letI := Unicode.ascii
    ∃ W0 σ id row, Relation.ReflTransGen (Serves sampleStore)
        ⟨W0, .serving (sampleWorker.start sampleStore) [], []⟩ σ ∧
      AtHead sampleWorker sampleStore σ ∧ W0.rows.find id = none ∧ σ.world.calls.length = 2 ∧
      submits σ.world.calls id = 1 ∧ σ.world.rows.find id = some row ∧ row.state = .succeeded ∧
      row.attempt = 1 := by
  let _ := Unicode.ascii
  have h : samplePolled (fun W0 W => decide (W0.rows.rows = [] ∧ W0.calls = [] ∧ W.calls.length = 2) &&
      W.rows.rows.any fun row => decide (row.state = .succeeded ∧ submits W.calls row.id = 1)) = true := by
    decide +kernel
  unfold samplePolled at h
  simp only [Option.any_eq_true, Bool.and_eq_true, decide_eq_true_eq, any_eq_true] at h
  obtain ⟨x, -, ⟨out, tr, W1⟩, henqueue, ⟨out1, tr1, W2⟩, hfirst, ⟨out2, tr2, W⟩, hsecond,
    ⟨hok, rfl, rfl⟩, ⟨hempty, huncalled, hcalls⟩, row, hmem, hs, hone⟩ := h
  cases out with
  | error e => cases hok
  | ok rec =>
    have hnone : ∀ id, x.2.2.rows.find id = none := by
      intro id
      unfold Table.find
      rw [hempty]
      rfl
    have hrun : Relation.ReflTransGen (Serves sampleStore)
        ⟨x.2.2, .serving (sampleWorker.start sampleStore) [], []⟩
        ⟨W, .serving (sampleWorker.start sampleStore) [], [(rec.id, sampleMessage)]⟩ :=
      ((serves_enqueue (runs_of_run henqueue)).trans
        (serves_of_moves (moves_of_round (runs_of_run hfirst)))).trans
        (serves_of_moves (moves_of_round (runs_of_run hsecond)))
    have hfind : W.rows.find row.id = some row := Table.mem_iff.mp hmem
    obtain ⟨hhead, -⟩ := submission_accounting rfl huncalled
      (fun id row hrow => by nomatch (hnone id).symm.trans hrow) hrun
    obtain ⟨-, hatt, -⟩ := hhead ⟨[], rfl⟩ row.id row hfind
    refine ⟨x.2.2, _, row.id, row, hrun, ⟨[], rfl⟩, hnone _, hcalls, hone, hfind, hs, ?_⟩
    rw [hatt, hone]
    unfold startAttempt
    rw [hnone]
    rfl

end SmtpCloudRelay.Spool
