/-
  THE WORKER'S DUTIES: what the worker is in the middle of, at any point of its loop.

  The loop is a long program, but what it may do next depends on little: on the record it holds and
  on the provider's last answer.  That is its DUTY.  The protocol `workerProto` says, for each duty,
  which steps are allowed (`Duty.Allows`) and which duty an answer leads to (`Duty.after`):

      idle ──claim──▸ claimed m ──submit──▸ submitted m answer ──update──▸ idle
      idle ──next submitted──▸ found m ──poll──▸ polled m answer ──update──▸ idle

  A claimed record may also be put back or dead-lettered by an update, a found one may be
  dead-lettered without a poll, and a transaction that fails ends everything (`stopped`).  An update
  is not just any update: it stores what the `Mark*` method of the chosen branch computes.

  What the loop computes depends on the clock too: a SHIFT is a duty with the reading at the head of
  the round and the last reading for a record, and `start_shift` proves once that the loop keeps to
  the protocol of shifts.  Forgetting the clock gives `start_safe`.  Everything that is said later
  about all runs of the worker is an invariant over duties or shifts, and never looks at the loop
  again.
-/
import SmtpCloudRelay.Spool.Footprint
import SmtpCloudRelay.Spool.Worker

namespace SmtpCloudRelay.Spool

open Go Lib Act

/-! ## Duties -/

/-- What the worker is in the middle of. -/
inductive Duty where
  | idle
  | claimed (m : Metadata)
  | submitted (m : Metadata) (answer : Except GoError SubmissionResult)
  | found (m : Metadata)
  | polled (m : Metadata) (answer : Except GoError SubmissionStatus)
  | stopped

/-- The record that the worker loaded. -/
def Metadata.loaded (m : Metadata) (msg : Message) : Record := { m.toRecord with message := msg }

/-- The duty after Submit was answered. -/
def Duty.submitAnswered : Duty → Except GoError SubmissionResult → Duty
  | .claimed m, answer => .submitted m answer
  | κ, _ => κ

/-- The duty after Poll was answered. -/
def Duty.pollAnswered : Duty → Except GoError SubmissionStatus → Duty
  | .found m, answer => .polled m answer
  | κ, _ => κ

/-- The duty after a step was answered. -/
def Duty.after (κ : Duty) : (o : Op) → o.Res → Duty
  | .tx (.claim _), .ok (some m) => .claimed m
  | .tx (.nextSubmitted _), .ok (some m) => .found m
  | .tx (.update _ _), .ok _ => .idle
  | .tx _, .error _ => .stopped
  | .submit _ _, answer => κ.submitAnswered answer
  | .poll _ _, answer => κ.pollAnswered answer
  | _, _ => κ

section Protocol

variable [Unicode]

/-- The record that a `Mark*` call is about. -/
def Mark.record : Mark → Record
  | .submitted rec _ _ => rec
  | .retry rec _ _ => rec
  | .succeeded rec => rec
  | .deadLetter rec _ => rec

/-- The records that a `Mark*` call may store, depending on the clock. -/
def Mark.Stores : Mark → Record → Prop
  | .submitted rec result next, rec' =>
    rec.state = .working ∧ ∃ t, rec' = rec.submitted result next t
  | .retry rec next lastErr, rec' => ∃ t1 t2, rec.retried next lastErr t1 t2 = .ok rec'
  | .succeeded rec, rec' => ∃ t, rec.succeeded t = .ok rec'
  | .deadLetter rec lastErr, rec' => ∃ t1 t2, rec.deadLettered lastErr t1 t2 = .ok rec'

/-- The records that `ClaimReady` may store for a claimed record whose payload cannot be loaded. -/
def Metadata.Unloadable (m : Metadata) (rec : Record) : Prop :=
  (∃ t, rec = m.unclaimed t) ∨ ∃ cause t, rec = m.corrupted cause t

/-- The steps that a duty allows beside updates. -/
def Duty.Tries : Duty → Op → Prop
  | .idle, o => o = .now ∨ o = .ctxErr ∨ (∃ d, o = .sleep d) ∨ (∃ t, o = .tx (.claim t)) ∨
      ∃ t, o = .tx (.nextSubmitted t)
  | .claimed m, o => o = .now ∨ Confined NoRegion o ∨ ∃ msg, o = .submit msg m.id
  | .submitted _ _, o => o = .now
  | .found m, o => o = .now ∨ o = .poll m.id m.operationID
  | .polled _ _, o => o = .now
  | .stopped, _ => False

/-- The records that a duty may store, and the metadata it holds. -/
def Duty.Writes (w : Worker) : Duty → Metadata → Record → Prop
  | .claimed m', m, rec => m' = m ∧ m.Unloadable rec
  | .submitted m' answer, m, rec => m' = m ∧
      ∃ now msg, (w.queuedOutcome now (m.loaded msg) answer).mark.Stores rec
  | .found m', m, rec => m' = m ∧ ∃ now, (w.timeoutOutcome now m.toRecord).mark.Stores rec
  | .polled m' answer, m, rec => m' = m ∧
      ∃ now, (w.submittedOutcome now m.toRecord answer).mark.Stores rec
  | _, _, _ => False

/-- The steps that a duty allows. -/
def Duty.Allows (w : Worker) (κ : Duty) (o : Op) : Prop :=
  κ.Tries o ∨ ∃ m rec, κ.Writes w m rec ∧ o = .tx (.update m.state rec)

/-- The worker's protocol. -/
def workerProto (w : Worker) : Proto spoolSig Duty where
  ok := Duty.Allows w
  next κ o r κ' := Truthful o r ∧ κ' = κ.after o r

/-! ## Duties with the clock -/

/-- A duty, with the clock: the reading at the head of the round, which everything in the round is
    computed from, and the last reading that was made for a record. -/
structure Shift where
  duty : Duty
  head : Int
  stamp : Int

/-- A reading of the clock: with empty hands, it is the one at the head of a round. -/
def Shift.reads : Shift → Int → Shift
  | ⟨.idle, _, stamp⟩, t => ⟨.idle, t, stamp⟩
  | ⟨duty, head, _⟩, t => ⟨duty, head, t⟩

/-- The shift after a step was answered. -/
def Shift.after (κ : Shift) : (o : Op) → o.Res → Shift
  | .now, (t : Int) => κ.reads t
  | o, r => { κ with duty := κ.duty.after o r }

/-- The record that a `Mark*` call stores when its last reading of the clock is `t`. -/
def Mark.StoresAt : Mark → Int → Record → Prop
  | .submitted rec result next, t, rec' => rec.state = .working ∧ rec' = rec.submitted result next t
  | .retry rec next lastErr, t, rec' => ∃ t1, rec.retried next lastErr t1 t = .ok rec'
  | .succeeded rec, t, rec' => rec.succeeded t = .ok rec'
  | .deadLetter rec lastErr, t, rec' => ∃ t1, rec.deadLettered lastErr t1 t = .ok rec'

/-- The steps that a shift allows beside updates: it claims and looks for submitted records at the
    reading of its head, and polls a record that is not timed out there. -/
def Shift.Tries (w : Worker) (κ : Shift) (o : Op) : Prop :=
  match κ.duty with
  | .idle => o = .now ∨ o = .ctxErr ∨ (∃ d, o = .sleep d) ∨ o = .tx (.claim κ.head) ∨
      o = .tx (.nextSubmitted κ.head)
  | .found m => o = .now ∨ (w.timedOut κ.head m.toRecord = false ∧ o = .poll m.id m.operationID)
  | duty => duty.Tries o

/-- The records that a shift may store, and the metadata it holds. -/
def Shift.Writes (w : Worker) (κ : Shift) (m : Metadata) (rec : Record) : Prop :=
  match κ.duty with
  | .claimed m' => m' = m ∧ m.Unloadable rec
  | .submitted m' answer => m' = m ∧
      ∃ msg, (w.queuedOutcome κ.head (m.loaded msg) answer).mark.StoresAt κ.stamp rec
  | .found m' => m' = m ∧ w.timedOut κ.head m.toRecord = true ∧
      (w.timeoutOutcome κ.head m.toRecord).mark.StoresAt κ.stamp rec
  | .polled m' answer => m' = m ∧
      (w.submittedOutcome κ.head m.toRecord answer).mark.StoresAt κ.stamp rec
  | _ => False

/-- The steps that a shift allows. -/
def Shift.Allows (w : Worker) (κ : Shift) (o : Op) : Prop :=
  κ.Tries w o ∨ ∃ m rec, κ.Writes w m rec ∧ o = .tx (.update m.state rec)

/-- The worker's protocol, with the clock. -/
def shiftProto (w : Worker) : Proto spoolSig Shift where
  ok := Shift.Allows w
  next κ o r κ' := Truthful o r ∧ κ' = κ.after o r

/-! ## The record that a branch is about -/

variable {w : Worker}

theorem queuedOutcome_state (now : Int) (rec : Record) (answer : Except GoError SubmissionResult) :
    (w.queuedOutcome now rec answer).mark.record.state = rec.state := by
  unfold Worker.queuedOutcome
  split
  · unfold Worker.retryOrDeadLetter
    split <;> rfl
  · split
    · rfl
    · split <;> rfl
    · unfold Worker.retryOrDeadLetter
      split <;> rfl
    · unfold Worker.retryOrDeadLetter
      split <;> rfl
    · rfl

omit [Unicode] in
theorem withMessageID_state (rec : Record) (status : SubmissionStatus) :
    (Worker.withMessageID rec status).state = rec.state := by
  unfold Worker.withMessageID
  split <;> rfl

theorem submittedOutcome_state (now : Int) (rec : Record)
    (answer : Except GoError SubmissionStatus) :
    (w.submittedOutcome now rec answer).mark.record.state = rec.state := by
  unfold Worker.submittedOutcome
  split
  · dsimp only
    split <;> rfl
  · dsimp only
    split <;> exact withMessageID_state _ _

/-! ## Steps of the worker -/

/-- Afterwards nothing is held, unless the program has failed; the head of the round is the same. -/
def Done {α : Type} (now : Int) (r : Except GoError α) (κ : Shift) : Prop :=
  ∀ a, r = .ok a → κ.duty = .idle ∧ κ.head = now

variable {α : Type} {κ : Shift} {Q : Except GoError α → Shift → Prop} {head stamp : Int}
  {id : GoString} {s : SpoolStore}

omit [Unicode] in
theorem done_error {now : Int} {e : GoError} :
    Done now (.error e : Except GoError α) κ := fun _ ha => nomatch ha

theorem readClock_bind_safe {f : Int → Task α} {duty : Duty} (hidle : duty ≠ .idle)
    (hstop : duty ≠ .stopped) (hf : ∀ t, (f t).Safe (shiftProto w) Q ⟨duty, head, t⟩) :
    (readClock >>= f : Task α).Safe (shiftProto w) Q ⟨duty, head, stamp⟩ := by
  have hnow : (Shift.mk duty head stamp).Allows w .now := by
    refine Or.inl ?_
    cases duty with
    | idle => exact absurd rfl hidle
    | stopped => exact absurd rfl hstop
    | submitted m answer | polled m answer => exact rfl
    | _ => exact Or.inl rfl
  refine ⟨hnow, ?_⟩
  rintro t κ' ⟨-, rfl⟩
  have hreads : (Shift.mk duty head stamp).reads t = ⟨duty, head, t⟩ := by
    cases duty with
    | idle => exact absurd rfl hidle
    | _ => rfl
  show Safe _ _ (f t) ((Shift.mk duty head stamp).reads t)
  rw [hreads]
  exact hf t

theorem readHead_bind_safe {f : Int → Task α}
    (hf : ∀ t, (f t).Safe (shiftProto w) Q ⟨.idle, t, stamp⟩) :
    (readClock >>= f : Task α).Safe (shiftProto w) Q ⟨.idle, head, stamp⟩ := by
  refine ⟨Or.inl (Or.inl rfl), ?_⟩
  rintro t κ' ⟨-, rfl⟩
  exact hf t

/-- Storing a record: afterwards nothing is held. -/
theorem updateRecord_safe {st : State} {rec : Record} {duty : Duty}
    (h : (Shift.mk duty head stamp).Allows w (.tx (.update st rec))) :
    (updateRecord st rec).Safe (shiftProto w) (Done head) ⟨duty, head, stamp⟩ := by
  refine Safe.lift_bind (fun _ _ => ?_) fun _ _ => done_error
  refine Safe.lift_bind (fun _ _ => ?_) fun _ _ => done_error
  refine ⟨h, ?_⟩
  rintro r κ' ⟨-, rfl⟩
  cases r with
  | ok a => exact fun _ _ => ⟨rfl, rfl⟩
  | error e => exact done_error

theorem storeUpdated_safe {st : State} {updated : Except GoError Record} {duty : Duty}
    (h : ∀ rec, updated = .ok rec → (Shift.mk duty head stamp).Allows w (.tx (.update st rec))) :
    (storeUpdated st updated).Safe (shiftProto w) (Done head) ⟨duty, head, stamp⟩ := by
  refine Safe.lift_bind (fun rec hrec => ?_) fun _ _ => done_error
  refine Safe.bind (updateRecord_safe (h rec hrec)) (fun a κ' hκ' => ?_) fun _ _ _ => done_error
  exact fun _ _ => hκ' a rfl

/-- A `Mark*` call: its last reading is the one that the record is stored with. -/
theorem mark_safe {m : Mark} {duty : Duty} (hidle : duty ≠ .idle) (hstop : duty ≠ .stopped)
    (h : ∀ t rec, m.StoresAt t rec →
      (Shift.mk duty head t).Allows w (.tx (.update m.record.state rec))) :
    m.run.Safe (shiftProto w) (Done head) ⟨duty, head, stamp⟩ := by
  cases m with
  | submitted rec result next =>
    refine Safe.lift_bind (fun _ hstate => ?_) fun _ _ => done_error
    have hworking : rec.state = .working := not_not.mp (failIf_eq_ok.mp hstate)
    refine readClock_bind_safe hidle hstop fun t => storeUpdated_safe ?_
    rintro rec' ⟨⟩
    exact h t _ ⟨hworking, rfl⟩
  | retry rec next lastErr =>
    refine readClock_bind_safe hidle hstop fun t1 => readClock_bind_safe hidle hstop fun t2 => ?_
    exact storeUpdated_safe fun rec' hrec' => h t2 rec' ⟨t1, hrec'⟩
  | succeeded rec =>
    refine readClock_bind_safe hidle hstop fun t => ?_
    exact storeUpdated_safe fun rec' hrec' => h t rec' hrec'
  | deadLetter rec lastErr =>
    refine readClock_bind_safe hidle hstop fun t1 => readClock_bind_safe hidle hstop fun t2 => ?_
    exact storeUpdated_safe fun rec' hrec' => h t2 rec' ⟨t1, hrec'⟩

theorem finalizeRecord_safe {f : Finalization} {duty : Duty} (hidle : duty ≠ .idle)
    (hstop : duty ≠ .stopped) (h : ∀ t rec, f.mark.StoresAt t rec →
      (Shift.mk duty head t).Allows w (.tx (.update f.mark.record.state rec))) :
    (finalizeRecord id f).Safe (shiftProto w) (Done head) ⟨duty, head, stamp⟩ := by
  refine Safe.bind (P := Done head) ?_ (fun a κ' hκ' => ?_) fun _ _ _ => done_error
  · refine Safe.mapError (mark_safe hidle hstop h) (fun a κ' hκ' => hκ') ?_
    exact fun _ _ _ => done_error
  · exact fun _ _ => hκ' a rfl

/-- Settle the record and report that there was work. -/
theorem finalizeRecord_then {f : Finalization} {duty : Duty} (hidle : duty ≠ .idle)
    (hstop : duty ≠ .stopped) (h : ∀ t rec, f.mark.StoresAt t rec →
      (Shift.mk duty head t).Allows w (.tx (.update f.mark.record.state rec))) :
    (finalizeRecord id f >>= fun _ => pure true : Task Bool).Safe (shiftProto w) (Done head)
      ⟨duty, head, stamp⟩ := by
  refine Safe.bind (finalizeRecord_safe hidle hstop h) (fun a κ' hκ' => ?_)
    fun _ _ _ => done_error
  exact fun _ _ => hκ' a rfl

theorem checkContext_safe : checkContext.Safe (shiftProto w) (Done head) ⟨.idle, head, stamp⟩ := by
  refine ⟨Or.inl (Or.inr (Or.inl rfl)), ?_⟩
  rintro r κ' ⟨-, rfl⟩
  exact fun _ _ => ⟨rfl, rfl⟩

/-! ## Claiming -/

/-- What a claim leaves: nothing, or the record it answers. -/
def Claimed (now : Int) : Except GoError (Option Record) → Shift → Prop
  | .ok none, κ => κ.duty = .idle ∧ κ.head = now
  | .ok (some rec), κ => κ.head = now ∧
      ∃ m msg, m.state = .working ∧ rec = m.loaded msg ∧ κ.duty = .claimed m
  | .error _, _ => True

theorem load_safe {s : PayloadStore} {m : Metadata} :
    (s.load id).Safe (shiftProto w) (fun _ κ => κ = ⟨.claimed m, head, stamp⟩)
      ⟨.claimed m, head, stamp⟩ := by
  refine (PayloadStore.load_confined id).safe (fun o ho => ⟨Or.inl (Or.inr (Or.inl ho)), ?_⟩)
    fun _ => rfl
  rintro r κ' ⟨-, rfl⟩
  cases o with
  | tx t | submit msg id | poll id op | now => nomatch ho
  | _ => rfl

theorem claimRound_safe : (s.claimRound head).Safe (shiftProto w)
      (AfterRound (fun _ κ => κ.duty = .idle ∧ κ.head = head) (Claimed head))
      ⟨.idle, head, stamp⟩ := by
  refine ⟨Or.inl (Or.inr (Or.inr (Or.inr (Or.inl rfl)))), ?_⟩
  rintro r κ' ⟨htrue, rfl⟩
  rcases r with e | _ | m
  · trivial
  · exact ⟨rfl, rfl⟩
  have hm : m.state = .working := htrue
  show Safe _ _ ((s.payloads.load m.id).attempt >>= SpoolStore.settleClaim m)
    (Shift.mk (.claimed m) head stamp)
  refine Safe.bind (P := fun _ κ => κ = ⟨.claimed m, head, stamp⟩) ?_ ?_ fun _ _ _ => trivial
  · exact Safe.attempt load_safe fun _ _ h => h
  rintro loaded _ rfl
  cases loaded with
  | ok msg => exact ⟨rfl, m, msg, hm, rfl, rfl⟩
  | error e =>
    rw [SpoolStore.settleClaim]
    unfold onLoadError
    split
    · rename_i c _
      refine Safe.bind (P := Done head) ?_ (fun a κ' hκ' => hκ' a rfl) fun _ _ _ => trivial
      refine readClock_bind_safe (by simp) (by simp) fun t => storeUpdated_safe ?_
      rintro rec ⟨⟩
      exact Or.inr ⟨m, _, ⟨rfl, Or.inr ⟨c, t, rfl⟩⟩, rfl⟩
    · refine Safe.bind (P := Done head) ?_ (fun _ _ _ => trivial) fun _ _ _ => trivial
      refine readClock_bind_safe (by simp) (by simp) fun t => ?_
      refine Safe.mapError (updateRecord_safe ?_) (fun _ _ h => h) fun _ _ _ => done_error
      exact Or.inr ⟨m, _, ⟨rfl, Or.inl ⟨t, rfl⟩⟩, rfl⟩

theorem claimReady_shift :
    (s.claimReady head).Safe (shiftProto w) (Claimed head) ⟨.idle, head, stamp⟩ := by
  refine Safe.bind checkContext_safe ?_ fun _ _ _ => trivial
  rintro u κ hκ
  refine Safe.forever (fun _ κ => κ.duty = .idle ∧ κ.head = head) (hκ u rfl) ?_
  rintro _ ⟨duty, head', stamp'⟩ ⟨rfl, rfl⟩
  exact claimRound_safe

/-! ## The loop -/

theorem settleSubmitted_safe (m : Metadata) (msg : Message)
    (answer : Except GoError SubmissionResult) :
    (finalizeRecord m.id (w.queuedOutcome head (m.loaded msg) answer) >>=
      fun _ => pure true : Task Bool).Safe (shiftProto w) (Done head)
        ⟨.submitted m answer, head, stamp⟩ := by
  refine finalizeRecord_then (by simp) (by simp) fun t rec' hrec' => ?_
  rw [queuedOutcome_state]
  exact Or.inr ⟨m, rec', ⟨rfl, msg, hrec'⟩, rfl⟩

theorem settlePolled_safe (m : Metadata) (answer : Except GoError SubmissionStatus) :
    (finalizeRecord m.id (w.submittedOutcome head m.toRecord answer) >>=
      fun _ => pure true : Task Bool).Safe (shiftProto w) (Done head)
        ⟨.polled m answer, head, stamp⟩ := by
  refine finalizeRecord_then (by simp) (by simp) fun t rec' hrec' => ?_
  rw [submittedOutcome_state]
  exact Or.inr ⟨m, rec', ⟨rfl, hrec'⟩, rfl⟩

theorem processQueuedOnce_safe :
    (w.processQueuedOnce s head).Safe (shiftProto w) (Done head) ⟨.idle, head, stamp⟩ := by
  refine Safe.bind claimReady_shift ?_ fun _ _ _ => done_error
  rintro claimed ⟨duty, head', stamp'⟩ hκ
  cases claimed with
  | none => exact fun _ _ => hκ
  | some rec =>
    obtain ⟨rfl, m, msg, hm, rfl, rfl⟩ := hκ
    refine ⟨Or.inl (Or.inr (Or.inr ⟨msg, rfl⟩)), ?_⟩
    rintro answer κ' ⟨-, rfl⟩
    exact settleSubmitted_safe m msg answer

theorem processSubmitted_safe (m : Metadata) :
    (w.processSubmitted head m.toRecord).Safe (shiftProto w) (Done head)
      ⟨.found m, head, stamp⟩ := by
  unfold Worker.processSubmitted
  split
  · rename_i hout
    refine finalizeRecord_then (by simp) (by simp) fun t rec' hrec' => ?_
    exact Or.inr ⟨m, rec', ⟨rfl, hout, hrec'⟩, rfl⟩
  · rename_i hin
    refine ⟨Or.inl (Or.inr ⟨Bool.eq_false_iff.mpr hin, rfl⟩), ?_⟩
    rintro answer κ' ⟨-, rfl⟩
    exact settlePolled_safe m answer

theorem processSubmittedOnce_safe :
    (w.processSubmittedOnce head).Safe (shiftProto w) (Done head) ⟨.idle, head, stamp⟩ := by
  refine ⟨Or.inl (Or.inr (Or.inr (Or.inr (Or.inr rfl)))), ?_⟩
  rintro r κ' ⟨-, rfl⟩
  rcases r with e | _ | m
  · exact done_error
  · exact fun _ _ => ⟨rfl, rfl⟩
  · exact processSubmitted_safe m

/-- One round: it reads the clock first, and afterwards its hands are empty. -/
theorem once_safe : (w.once s).Safe (shiftProto w) (fun r κ => ∀ u, r = .ok u → κ.duty = .idle)
      ⟨.idle, head, stamp⟩ := by
  refine Safe.bind checkContext_safe ?_ fun _ _ _ _ hx => nomatch hx
  rintro u ⟨duty, head', stamp'⟩ hκ
  obtain ⟨rfl, -⟩ := hκ u rfl
  refine readHead_bind_safe fun now => ?_
  refine Safe.bind processSubmittedOnce_safe ?_ fun _ _ _ _ hx => nomatch hx
  rintro submittedWorked ⟨duty, head1, stamp1⟩ hκ
  obtain ⟨rfl, rfl⟩ := hκ _ rfl
  refine Safe.bind processQueuedOnce_safe ?_ fun _ _ _ _ hx => nomatch hx
  rintro queuedWorked ⟨duty, head2, stamp2⟩ hκ
  obtain ⟨rfl, rfl⟩ := hκ _ rfl
  show Safe _ _ (if submittedWorked || queuedWorked then _ else _) _
  split
  · exact fun _ _ => rfl
  · refine ⟨Or.inl (Or.inr (Or.inr (Or.inl ⟨_, rfl⟩))), ?_⟩
    rintro r κ' ⟨-, rfl⟩
    exact fun _ _ => rfl

/-- **The worker's loop keeps to its protocol**, starting with empty hands. -/
theorem start_shift : (w.start s).Safe (shiftProto w) (fun _ _ => True) ⟨.idle, head, stamp⟩ := by
  refine Safe.forever (fun _ κ => κ.duty = .idle) rfl ?_
  rintro _ ⟨duty, head', stamp'⟩ rfl
  refine Safe.bind
    (P := fun r κ => ∀ x, r = .ok x → ∀ u, x = .ok u → κ.duty = .idle) ?_ ?_ fun _ _ _ => trivial
  · refine Safe.attempt once_safe ?_
    rintro x κ hx _ ⟨⟩
    exact hx
  intro x κ hx
  have hdone := hx x rfl
  cases x with
  | ok u => exact hdone u rfl
  | error e =>
    show Safe _ _ (if e.is .canceled then _ else _) _
    split <;> trivial

/-! ## Without the clock -/

omit [Unicode] in
theorem after_duty (κ : Shift) (o : Op) (r : o.Res) : (κ.after o r).duty = κ.duty.after o r := by
  cases o with
  | now =>
    obtain ⟨duty, head, stamp⟩ := κ
    cases duty <;> rfl
  | _ => rfl

theorem Mark.StoresAt.stores {m : Mark} {t : Int} {rec : Record} (h : m.StoresAt t rec) :
    m.Stores rec := by
  cases m with
  | submitted rec0 result next => exact ⟨h.1, t, h.2⟩
  | retry rec0 next lastErr => exact h.elim fun t1 h => ⟨t1, t, h⟩
  | succeeded rec0 => exact ⟨t, h⟩
  | deadLetter rec0 lastErr => exact h.elim fun t1 h => ⟨t1, t, h⟩

theorem Shift.Allows.duty {o : Op} (h : κ.Allows w o) : κ.duty.Allows w o := by
  obtain ⟨duty, head, stamp⟩ := κ
  rcases h with h | ⟨m, rec, h, rfl⟩
  · refine Or.inl ?_
    cases duty with
    | idle =>
      rcases h with h | h | h | h | h
      · exact Or.inl h
      · exact Or.inr (Or.inl h)
      · exact Or.inr (Or.inr (Or.inl h))
      · exact Or.inr (Or.inr (Or.inr (Or.inl ⟨head, h⟩)))
      · exact Or.inr (Or.inr (Or.inr (Or.inr ⟨head, h⟩)))
    | found m => exact h.imp (fun h => h) fun h => h.2
    | _ => exact h
  · refine Or.inr ⟨m, rec, ?_, rfl⟩
    cases duty with
    | claimed m' => exact h
    | submitted m' answer =>
      obtain ⟨hm, msg, hs⟩ := h
      exact ⟨hm, head, msg, hs.stores⟩
    | found m' => exact ⟨h.1, head, h.2.2.stores⟩
    | polled m' answer => exact ⟨h.1, head, h.2.stores⟩
    | _ => nomatch h

/-- A program that keeps to the protocol with the clock keeps to the one without. -/
theorem safe_of_shift {p : Task α} {Q' : Except GoError α → Duty → Prop}
    (hQ : ∀ a κ, Q a κ → Q' a κ.duty) (h : p.Safe (shiftProto w) Q κ) :
    p.Safe (workerProto w) Q' κ.duty := by
  refine Prog.Safe.project Shift.duty (fun κ o (h : κ.Allows w o) => h.duty) ?_ hQ h
  rintro κ o r _ - ⟨htrue, rfl⟩
  exact ⟨_, ⟨htrue, rfl⟩, after_duty κ o r⟩

theorem claimReady_safe (now : Int) :
    (s.claimReady now).Safe (workerProto w) (fun r _ => ∀ rec, r = .ok (some rec) →
      ∃ m msg, m.state = .working ∧ rec = Metadata.loaded m msg) .idle := by
  have hshift : (s.claimReady now).Safe (shiftProto w) (Claimed now) ⟨.idle, now, 0⟩ :=
    claimReady_shift
  refine safe_of_shift ?_ hshift
  rintro _ κ hκ rec rfl
  obtain ⟨-, m, msg, hm, hrec, -⟩ := hκ
  exact ⟨m, msg, hm, hrec⟩

/-- The loop, without the clock. -/
theorem start_safe : (w.start s).Safe (workerProto w) (fun _ _ => True) .idle := by
  have hshift : (w.start s).Safe (shiftProto w) (fun _ _ => True) ⟨.idle, 0, 0⟩ := start_shift
  exact safe_of_shift (fun _ _ _ => trivial) hshift

/-- At the head of the loop the worker's hands are empty. -/
theorem duty_at_head {Q : Except GoError Unit → Duty → Prop} {κ : Duty}
    (h : (w.start s).Safe (workerProto w) Q κ) : κ = .idle := by
  -- the first step of a round looks at the context, and only `idle` allows that
  have hfirst : κ.Allows w .ctxErr := h.unroll.1
  rcases hfirst with hfirst | ⟨_, _, -, hx⟩
  · cases κ with
    | idle => rfl
    | stopped => nomatch hfirst
    | claimed m => rcases hfirst with h | h | ⟨_, h⟩ <;> nomatch h
    | submitted m answer => nomatch hfirst
    | found m => rcases hfirst with h | h <;> nomatch h
    | polled m answer => nomatch hfirst
  · nomatch hx

end Protocol

end SmtpCloudRelay.Spool
