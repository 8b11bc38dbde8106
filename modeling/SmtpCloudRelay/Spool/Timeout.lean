/-
  THE TIMEOUT OF SUBMITTED RECORDS, and who decides when it is looked at.

  A submitted record is dead-lettered once `SubmittedTimeout` has passed, but only when the worker
  looks at it, and it looks at it when the record is due.  The next due time is either `PollInterval`
  after the reading of the round, or what the provider has asked for with RetryAfter, WITHOUT ANY
  LIMIT.  So a record may be parked beyond its timeout, exactly when a Running answer asks for that:
  a write is PUNCTUAL when what is asked for does not reach beyond the next poll interval, or not
  beyond the timeout.

  * `writes_submitted`: what a record that is stored as submitted is due at.
  * `bounded_iff`: the row is bounded exactly when the write was punctual.
  A round looks at ONE due record, the foremost of them (`Foremost`), and may last as long as a call
  of the provider: that a record is timed out within a poll interval also takes a round that asks in
  time while no other record precedes it (`Attended`).

  * `timeout_bounds`: in a run whose writes are punctual, every submitted row is bounded in every
    state; past its bound a call offers it exactly when it is foremost, and the round then ends it;
    and a record that is attended is offered in time.
-/
import SmtpCloudRelay.Spool.Claim
import SmtpCloudRelay.Spool.Shift
import SmtpCloudRelay.Spool.Shutdown
import Mathlib.Order.MinMax

namespace SmtpCloudRelay.Spool

open Go Lib Prog List

/-! ## The reading that a record was last submitted or polled with -/

/-- A call of the provider for a record is made with the reading at the head of the round. -/
def Shift.note (κ : Shift) (used : GoString → Option Int) : Op → GoString → Option Int
  | .submit _ id => Function.update used id (some κ.head)
  | .poll id _ => Function.update used id (some κ.head)
  | _ => used

/-- The shift of a worker, with the readings it has used for each record. -/
def usage {C W : Type} (tr : List (Event spoolSig C W)) : Shift × (GoString → Option Int) :=
  tr.foldl (fun x ev => (x.1.after ev.op ev.res, x.1.note x.2 ev.op)) (⟨.idle, 0, 0⟩, fun _ => none)

/-- The clock value that was used for the last Submit or Poll of a record. -/
def clockUsed {C W : Type} (tr : List (Event spoolSig C W)) : GoString → Option Int := (usage tr).2

theorem usage_fst {C W : Type} (tr : List (Event spoolSig C W)) : (usage tr).1 = shiftOf tr := by
  unfold usage shiftOf
  generalize (⟨.idle, 0, 0⟩ : Shift) = κ
  generalize (fun _ => none : GoString → Option Int) = used
  induction tr generalizing κ used with
  | nil => rfl
  | cons ev tr ih => exact ih _ _

theorem clockUsed_concat {C W : Type} (tr : List (Event spoolSig C W)) (ev : Event spoolSig C W) :
    clockUsed (tr ++ [ev]) = (shiftOf tr).note (clockUsed tr) ev.op := by
  rw [← usage_fst]
  unfold clockUsed usage
  rw [foldl_append]
  rfl

/-! ## Bounds -/

/-- A submitted record is due at the latest when its timeout has passed, or one poll interval after
    the reading `used` of its last Submit or Poll. -/
def Bounded (w : Worker) (used : Int) (m : Metadata) : Prop :=
  m.nextAttemptAt ≤
    max (m.firstSubmittedAt + w.cfg.submittedTimeout) (used + w.cfg.pollInterval)

/-- The RetryAfter that the provider's last answer asks for. -/
def Shift.asked (κ : Shift) : Int :=
  match κ.duty with
  | .submitted _ (.ok result) => result.retryAfter
  | .polled _ (.ok status) => status.retryAfter
  | _ => 0

/-- The time of the first submission, as a write of this shift stores it. -/
def Shift.first (κ : Shift) : Int :=
  match κ.duty with
  | .submitted m _ => if m.firstSubmittedAt = zeroTime then κ.stamp else m.firstSubmittedAt
  | .polled m _ => m.firstSubmittedAt
  | _ => zeroTime

/-- What the provider asks for ends, in milliseconds, within the poll interval, or before the timeout
    of the record. -/
def Punctual (w : Worker) (κ : Shift) : Prop :=
  0 < κ.asked →
    truncateMillis (κ.head + κ.asked) ≤ κ.head + w.cfg.pollInterval ∨
    truncateMillis (κ.head + κ.asked) ≤ truncateMillis κ.first + w.cfg.submittedTimeout

instance (w : Worker) (used : Int) (m : Metadata) : Decidable (Bounded w used m) :=
  inferInstanceAs (Decidable (_ ≤ _))

instance (w : Worker) (κ : Shift) : Decidable (Punctual w κ) :=
  inferInstanceAs (Decidable (_ → _ ∨ _))

theorem truncateMillis_le (t : Int) : truncateMillis t ≤ t := by
  unfold truncateMillis millisecond
  omega

/-- A row that holds the columns of a record, read back. -/
theorem metadata_of_columns {row : Row} {rec : Record} (h : row.toColumns = rec.columns) :
    row.metadata.nextAttemptAt = truncateMillis rec.nextAttemptAt ∧
    row.metadata.firstSubmittedAt = truncateMillis rec.firstSubmittedAt := by
  have hcheck := row.check
  rw [h] at hcheck
  have hread := toRecord_metadata_columns hcheck
  rw [← h] at hread
  exact ⟨congrArg (fun r => r.nextAttemptAt) hread, congrArg (fun r => r.firstSubmittedAt) hread⟩

section Runs

variable [Unicode] {w : Worker}

/-! ## What is stored as submitted -/

/-- The shift has an answer for the record `m`. -/
def Shift.Answered (κ : Shift) (m : Metadata) : Prop :=
  (∃ answer, κ.duty = .submitted m answer) ∨ ∃ answer, κ.duty = .polled m answer

variable {m : Metadata} {head : Int} {rec : Record} {κ : Shift} {t : Records} {row : Row}
  {tr : Trace} {c0 : GoString → Int} {W W' : World}

theorem Mark.StoresAt.ends {mark : Mark} {stamp : Int} (h : mark.StoresAt stamp rec) :
    rec.updatedAt = stamp ∧ match mark with
      | .submitted _ _ _ => rec.state = .submitted
      | .retry _ next _ => rec.nextAttemptAt = next
      | .succeeded _ => rec.state = .succeeded
      | .deadLetter _ _ => rec.state = .deadLetter := by
  cases mark with
  | submitted rec0 result next =>
    obtain ⟨-, rfl⟩ := h
    exact ⟨rfl, rfl⟩
  | retry rec0 next lastErr =>
    obtain ⟨t1, h⟩ := h
    unfold Record.retried at h
    split at h <;> cases h <;> exact ⟨rfl, rfl⟩
  | succeeded rec0 =>
    have h : rec0.succeeded stamp = .ok rec := h
    unfold Record.succeeded at h
    split at h <;> cases h <;> exact ⟨rfl, rfl⟩
  | deadLetter rec0 lastErr =>
    obtain ⟨t1, h⟩ := h
    unfold Record.deadLettered at h
    split at h <;> cases h <;> exact ⟨rfl, rfl⟩

theorem writes_submitted_submit {answer : Except GoError SubmissionResult} {stamp : Int}
    {msg : Message} (hm : m.state = .working)
    (hw : (w.queuedOutcome head (m.loaded msg) answer).mark.StoresAt stamp rec)
    (hs : rec.state = .submitted) : rec.id = m.id ∧
    rec.nextAttemptAt = w.nextPoll head (Shift.asked ⟨.submitted m answer, head, stamp⟩) ∧
    rec.firstSubmittedAt = Shift.first ⟨.submitted m answer, head, stamp⟩ := by
  obtain ⟨hatt, hend⟩ := queued_stores hm hw.stores
  cases hend with
  | retry state | dead state | succeeded state => nomatch state.symm.trans hs
  | submitted state result answered running usable operationID first next =>
    subst answered
    rw [hw.ends.1] at first
    exact ⟨hatt.id, next, first⟩

theorem writes_submitted_poll {answer : Except GoError SubmissionStatus} {stamp : Int}
    (hm : m.state = .submitted)
    (hw : (w.submittedOutcome head m.toRecord answer).mark.StoresAt stamp rec)
    (hs : rec.state = .submitted) : rec.id = m.id ∧
    rec.nextAttemptAt = w.nextPoll head (Shift.asked ⟨.polled m answer, head, stamp⟩) ∧
    rec.firstSubmittedAt = Shift.first ⟨.polled m answer, head, stamp⟩ := by
  have hpolled := submitted_stores hm hw.stores
  refine ⟨hpolled.id, ?_, hpolled.firstSubmittedAt⟩
  unfold Worker.submittedOutcome at hw
  cases answer with
  | error e =>
    dsimp only at hw
    split at hw
    · exact hw.ends.2
    · nomatch hs.symm.trans hw.ends.2
  | ok status =>
    dsimp only at hw
    cases hr : status.state with
    | running =>
      rw [hr] at hw
      exact hw.ends.2
    | succeeded | failed | canceled | other text =>
      rw [hr] at hw
      nomatch hs.symm.trans hw.ends.2

/-- **A record that is stored as submitted** is due when the provider has asked for, or after one
    poll interval. -/
theorem writes_submitted (hholds : κ.Holds t) (hw : κ.Writes w m rec)
    (hs : rec.state = .submitted) :
    κ.Answered m ∧ rec.id = m.id ∧ rec.nextAttemptAt = w.nextPoll κ.head κ.asked ∧
      rec.firstSubmittedAt = κ.first := by
  obtain ⟨duty, head, stamp⟩ := κ
  unfold Shift.Holds at hholds
  cases duty with
  | idle | stopped => nomatch hw
  | claimed m' =>
    obtain ⟨rfl, ⟨t', rfl⟩ | ⟨cause, t', rfl⟩⟩ := hw
    · nomatch hs
    · rw [corrupted_state] at hs
      nomatch hs
  | submitted m' answer =>
    obtain ⟨rfl, msg, hw⟩ := hw
    obtain ⟨row, -, hrow⟩ := hholds
    exact ⟨Or.inl ⟨answer, rfl⟩, writes_submitted_submit hrow.working hw hs⟩
  | found m' =>
    obtain ⟨rfl, -, hw⟩ := hw
    nomatch hs.symm.trans hw.ends.2
  | polled m' answer =>
    obtain ⟨rfl, hw⟩ := hw
    obtain ⟨row, -, rfl, hstate, -⟩ := hholds
    exact ⟨Or.inr ⟨answer, rfl⟩, writes_submitted_poll hstate hw hs⟩

/-- **The row is bounded exactly when the write was punctual.** -/
theorem bounded_iff (hholds : κ.Holds t) (hw : κ.Writes w m rec) (hs : rec.state = .submitted)
    (hcols : row.toColumns = rec.columns) : Bounded w κ.head row.metadata ↔ Punctual w κ := by
  obtain ⟨-, -, hnext, hfirst⟩ := writes_submitted hholds hw hs
  obtain ⟨hrownext, hrowfirst⟩ := metadata_of_columns hcols
  unfold Bounded Punctual
  rw [hrownext, hrowfirst, hnext, hfirst, le_max_iff, or_comm]
  unfold Worker.nextPoll
  by_cases hasked : 0 < κ.asked
  · rw [if_pos hasked]
    exact ⟨fun h _ => h, fun h => h hasked⟩
  · rw [if_neg hasked]
    exact ⟨fun _ h => absurd h hasked, fun _ => Or.inl (truncateMillis_le _)⟩

/-! ## Runs -/

/-- The record that an event stores as submitted. -/
def storedSubmitted (ev : SpoolEvent) : Option Record :=
  match ev.op with
  | .tx (.update _ rec) => if rec.state = .submitted then some rec else none
  | _ => none

omit [Unicode] in
theorem storedSubmitted_eq {ev : SpoolEvent} (h : storedSubmitted ev = some rec) :
    rec.state = .submitted ∧ ∃ st, ev.op = .tx (.update st rec) := by
  unfold storedSubmitted at h
  split at h
  · rename_i st rec' hop
    split at h
    · rename_i hs
      obtain rfl := Option.some.inj h
      exact ⟨hs, st, hop⟩
    · nomatch h
  · nomatch h

/-- Every write that stores a record as submitted was punctual. -/
def AllPunctual (w : Worker) (tr : Trace) : Prop :=
  ∀ i rec, tr[i]?.bind storedSubmitted = some rec → Punctual w (shiftOf (tr.take i))

instance (w : Worker) (tr : Trace) : Decidable (AllPunctual w tr) :=
  decidable_of_iff (∀ i < tr.length, (tr[i]?.bind storedSubmitted).isSome = true →
      Punctual w (shiftOf (tr.take i))) <| by
    refine ⟨fun h i rec hi => ?_, fun h i _ hsome => ?_⟩
    · obtain ⟨ev, hev, -⟩ := Option.bind_eq_some_iff.mp hi
      exact h i (List.getElem?_eq_some_iff.mp hev).1 (by rw [hi]; rfl)
    · obtain ⟨rec, hrec⟩ := Option.isSome_iff_exists.mp hsome
      exact h i rec hrec

omit [Unicode] in
theorem AllPunctual.concat {ev : SpoolEvent} (h : AllPunctual w (tr ++ [ev])) :
    AllPunctual w tr ∧ ∀ rec, storedSubmitted ev = some rec → Punctual w (shiftOf tr) := by
  constructor
  · intro i rec hi
    obtain ⟨ev', hev', -⟩ := Option.bind_eq_some_iff.mp hi
    have hlt : i < tr.length := (List.getElem?_eq_some_iff.mp hev').1
    have hpunctual := h i rec (by rw [getElem?_append_left hlt]; exact hi)
    rwa [take_append_of_le_length (Nat.le_of_lt hlt)] at hpunctual
  · intro rec hstores
    have hpunctual := h tr.length rec (by simpa using hstores)
    rwa [take_append_of_le_length (Nat.le_refl _), take_length] at hpunctual

/-- Every submitted row is bounded, by the readings `used`. -/
def AllBounded (w : Worker) (used : GoString → Int) (t : Records) : Prop :=
  ∀ id row, t.find id = some row → row.state = .submitted → Bounded w (used id) row.metadata

/-- The readings that were used, from `c0` on. -/
def usedSince (c0 : GoString → Int) (tr : Trace) (id : GoString) : Int :=
  (clockUsed tr id).getD (c0 id)

/-- What is kept along a run: the reading that an answer was obtained with is the head of the round,
    and, as long as the writes were punctual, the submitted rows are bounded. -/
structure Kept (w : Worker) (c0 : GoString → Int) (κ : Shift) (tr : Trace) (W : World) : Prop where
  shift : κ = shiftOf tr
  holds : κ.Holds W.rows
  used : ∀ m, κ.Answered m → clockUsed tr m.id = some κ.head
  bounded : AllPunctual w tr → AllBounded w (usedSince c0 tr) W.rows

omit [Unicode] in
/-- A record that is due at a reading is bounded by it. -/
theorem bounded_of_due (h : row.nextAttemptAtMS ≤ timeToMillis head) :
    Bounded w head row.metadata := by
  have hpos := row.check.next
  have hms : timeToMillis head = unixMilli head := by
    unfold timeToMillis at h ⊢
    split
    · rename_i hzero
      rw [if_pos hzero] at h
      omega
    · rfl
  rw [hms] at h
  have hpoll := w.valid.pollInterval
  have hnext : row.metadata.nextAttemptAt ≤ head := by
    show row.nextAttemptAtMS * millisecond ≤ head
    unfold unixMilli millisecond at *
    omega
  unfold Bounded
  exact le_max_of_le_right (by omega)

omit [Unicode] in
theorem AllBounded.replace {used : GoString → Int} {row' : Row} (h : AllBounded w used t)
    (hrow' : row'.state = .submitted → Bounded w (used row'.id) row'.metadata) :
    AllBounded w used (t.replace row') := by
  intro id row hrow hs
  rcases find_replace_cases hrow with ⟨rfl, rfl⟩ | ⟨hne, hrow⟩
  · exact hrow' hs
  · exact h id row hrow hs

omit [Unicode] in
/-- A call of the provider for the record `id`, with reading `head`. -/
theorem AllBounded.call {used : GoString → Option Int} {id : GoString}
    (h : AllBounded w (fun id => (used id).getD (c0 id)) t)
    (hrow : ∀ row, t.find id = some row → row.state = .submitted → Bounded w head row.metadata) :
    AllBounded w (fun i => (Function.update used id (some head) i).getD (c0 i)) t := by
  intro id' row hrow' hs
  dsimp only
  by_cases heq : id' = id
  · subst heq
    rw [Function.update_self]
    exact hrow row hrow' hs
  · rw [Function.update_of_ne heq]
    exact h id' row hrow' hs

omit [Unicode] in
theorem not_answered_of_free (h : κ.duty = .idle ∨ κ.duty = .stopped) (m : Metadata) :
    ¬ κ.Answered m := by
  rintro (⟨_, hd⟩ | ⟨_, hd⟩) <;> rcases h with h | h <;> rw [h] at hd <;> nomatch hd

/-- **Where an answer comes from**: the shift had it before, or the step was the call. -/
theorem ShiftStep.answered {o : Op} {κ' : Shift} {t' : Records} (h : ShiftStep w κ t o κ' t')
    (hm : κ'.Answered m) :
    (κ.Answered m ∧ κ'.head = κ.head ∧ ∀ used, κ.note used o = used) ∨
    κ'.head = κ.head ∧ ((κ.duty = .claimed m ∧ ∃ msg, o = .submit msg m.id) ∨
      κ.duty = .found m ∧ o = .poll m.id m.operationID) := by
  cases h with
  | quiet hcall hduty hhead =>
    have hanswered : κ.Answered m := by
      unfold Shift.Answered at hm ⊢
      rwa [hduty] at hm
    refine Or.inl ⟨hanswered, hhead fun hidle => not_answered_of_free (.inl hidle) m hanswered, ?_⟩
    cases o with
    | submit msg id | poll id op => nomatch hcall
    | _ => exact fun _ => rfl
  | stop hduty => exact absurd hm (not_answered_of_free (.inr hduty) m)
  | claim _ _ _ _ _ hκ' =>
    rcases hκ' with rfl | hκ'
    · rcases hm with ⟨_, hd⟩ | ⟨_, hd⟩ <;> nomatch hd
    · exact absurd hm (not_answered_of_free (.inr hκ') m)
  | find => rcases hm with ⟨_, hd⟩ | ⟨_, hd⟩ <;> nomatch hd
  | @submit m' msg hclaimed answer =>
    rcases hm with ⟨_, hd⟩ | ⟨_, hd⟩
    · obtain ⟨rfl, -⟩ := Duty.submitted.inj hd
      exact Or.inr ⟨rfl, Or.inl ⟨hclaimed, msg, rfl⟩⟩
    · nomatch hd
  | @poll m' hfound hin answer =>
    rcases hm with ⟨_, hd⟩ | ⟨_, hd⟩
    · nomatch hd
    · obtain ⟨rfl, -⟩ := Duty.polled.inj hd
      exact Or.inr ⟨rfl, Or.inr ⟨hfound, rfl⟩⟩
  | update _ _ _ _ hκ' => exact absurd hm (not_answered_of_free hκ' m)

/-- **One step of the worker** keeps it. -/
theorem Kept.step {o : Op} {c : Choice} {r : o.Res} (h : Kept w c0 κ tr W) (hok : κ.Allows w o)
    (hE : exec o c W = some (r, W')) : Kept w c0 (κ.after o r) (tr ++ [⟨o, c, r, W, W'⟩]) W' := by
  have hstep := shift_step hok hE
  have hshift : κ.after o r = shiftOf (tr ++ [⟨o, c, r, W, W'⟩]) := by
    rw [shiftOf_concat, ← h.shift]
  have hused : clockUsed (tr ++ [⟨o, c, r, W, W'⟩]) = κ.note (clockUsed tr) o := by
    rw [clockUsed_concat, ← h.shift]
  refine ⟨hshift, h.holds.step hstep, ?_, ?_⟩
  · -- the reading of an answer
    intro m hm
    rw [hused]
    rcases hstep.answered hm with ⟨hanswered, hhead, hnote⟩ | ⟨hhead, ⟨-, msg, rfl⟩ | ⟨-, rfl⟩⟩
    · rw [hnote, hhead]
      exact h.used m hanswered
    · exact (Function.update_self ..).trans (congrArg some hhead.symm)
    · exact (Function.update_self ..).trans (congrArg some hhead.symm)
  · intro hpunctual
    obtain ⟨hbefore, hlast⟩ := hpunctual.concat
    rw [← h.shift] at hlast
    have hbounded := h.bounded hbefore
    have hholds := h.holds
    unfold usedSince
    rw [hused]
    generalize κ.after o r = κ' at hstep
    generalize W'.rows = t' at hstep
    cases hstep with
    | quiet hcall hduty hhead =>
      cases o with
      | submit msg id | poll id op => nomatch hcall
      | _ => exact hbounded
    | stop hduty => exact hbounded
    | claim hidle hrow hs hdue hcols hκ' =>
      refine AllBounded.replace hbounded fun hs' => ?_
      rw [hcols] at hs'
      nomatch hs'
    | find hidle hrow hs hdue => exact hbounded
    | @submit m msg hclaimed answer =>
      refine AllBounded.call hbounded fun row hrow hs => ?_
      -- the row of a claimed record is working
      unfold Shift.Holds at hholds
      rw [hclaimed] at hholds
      obtain ⟨row', hrow', hm⟩ := hholds
      obtain rfl := Option.some.inj (hrow.symm.trans hrow')
      rw [hm.state] at hs
      nomatch hs
    | @poll m hfound hin answer =>
      refine AllBounded.call hbounded fun row hrow hs => ?_
      -- the row was due at the head of the round
      unfold Shift.Holds at hholds
      rw [hfound] at hholds
      obtain ⟨row', hrow', -, -, hdue⟩ := hholds
      obtain rfl := Option.some.inj (hrow.symm.trans hrow')
      exact bounded_of_due hdue
    | @update m rec row row' _ hw hrow hs hcols hκ' =>
      refine AllBounded.replace hbounded fun hs' => ?_
      have hstate : rec.state = .submitted := by
        rw [hcols] at hs'
        exact hs'
      obtain ⟨hanswered, hid, -, -⟩ := writes_submitted hholds hw hstate
      have hrowid : row'.id = m.id := by
        rw [hcols]
        exact hid
      rw [hrowid, show κ.note (clockUsed tr) (.tx (.update m.state rec)) = clockUsed tr from rfl,
        h.used m hanswered]
      exact (bounded_iff hholds hw hstate hcols).mpr (hlast rec (if_pos hstate))

/-- **One step of a session** keeps it. -/
theorem Kept.session (h : Kept w c0 κ tr W) (hstep : SessionStep W W') : Kept w c0 κ tr W' := by
  refine ⟨h.shift, h.holds.session hstep, h.used, fun hpunctual id row hrow hs => ?_⟩
  rcases hstep.queued hrow with hrow | hqueued
  · exact h.bounded hpunctual id row hrow hs
  · rw [hqueued] at hs
    nomatch hs

theorem kept_run {s : SpoolStore} {W0 : World} {p : Task Unit} (h0 : AllBounded w c0 W0.rows)
    (hrun : Among exec SessionStep (w.start s) W0 tr p W) :
    ∃ κ, p.Safe (shiftProto w) (fun _ _ => True) κ ∧ Kept w c0 κ tr W := by
  refine Among.safe (L := shiftProto w) start_shift (R := Kept w c0) (κ := ⟨.idle, 0, 0⟩) ?_ ?_ ?_ hrun
  · refine ⟨rfl, trivial, ?_, fun _ => h0⟩
    rintro m (⟨_, hd⟩ | ⟨_, hd⟩) <;> nomatch hd
  · exact fun κ tr W W' h hstep => h.session hstep
  · exact fun κ tr o c r W W' h hok hE => ⟨_, ⟨exec_truthful hE, rfl⟩, h.step hok hE⟩

/-! ## Once the bound has passed -/

omit [Unicode] in
/-- A bounded row is due once its bound has passed. -/
theorem due_of_bounded {used now : Int} (h : Bounded w used row.metadata)
    (hfirst : row.metadata.firstSubmittedAt + w.cfg.submittedTimeout ≤ now)
    (hused : used + w.cfg.pollInterval ≤ now) : row.nextAttemptAtMS ≤ timeToMillis now := by
  have hpos := row.check.next
  have hnext : row.nextAttemptAtMS * millisecond ≤ now := le_trans h (max_le hfirst hused)
  have hnow : now ≠ zeroTime := by
    unfold zeroTime
    unfold millisecond at hnext
    omega
  unfold timeToMillis
  rw [if_neg hnow]
  unfold unixMilli millisecond at *
  omega

/-- A record that is timed out is dead-lettered without another call. -/
theorem processSubmitted_timedOut {now : Int} (hout : w.timedOut now rec = true)
    (hstate : rec.state = .submitted)
    (h : Runs exec (w.processSubmitted now rec) W tr (.ok true) W') :
    W'.calls = W.calls ∧ EndsIn W' rec.id .deadLetter := by
  unfold Worker.processSubmitted at h
  rw [if_pos hout] at h
  obtain ⟨rec', ⟨t1, t2, hrec'⟩, -, hstored⟩ := finalizeRecord_stored h
  unfold Record.deadLettered at hrec'
  rw [hstate] at hrec'
  cases hrec'
  obtain ⟨row', hrow', hcols⟩ := hstored.find
  obtain ⟨-, -, -, -, -, hcalls⟩ := hstored
  refine ⟨hcalls, row', hrow', ?_⟩
  rw [hcols]
  rfl

omit [Unicode] in
theorem timedOut_of_elapsed {now : Int} (hsome : row.firstSubmittedAtMS ≠ none)
    (helapsed : row.metadata.firstSubmittedAt + w.cfg.submittedTimeout ≤ now) :
    w.timedOut now row.metadata.toRecord = true := by
  obtain ⟨ms, hms⟩ := Option.ne_none_iff_exists'.mp hsome
  have hfirst : row.metadata.toRecord.firstSubmittedAt = ofMillis ms := by
    show (row.firstSubmittedAtMS.map ofMillis).getD zeroTime = _
    rw [hms]
    rfl
  have hpos := row.check.first
  rw [hms] at hpos
  have hms0 : 0 < ms := of_decide_eq_true hpos
  unfold Worker.timedOut
  refine Bool.and_eq_true_iff.mpr ⟨decide_eq_true ?_, decide_eq_true helapsed⟩
  rw [hfirst]
  unfold ofMillis millisecond zeroTime
  omega

/-- **What NextSubmittedReady offers**: the foremost of the rows that are due. -/
theorem offered_iff {now : Int} {c : Choice} {r : Except GoError (Option Metadata)}
    (hE : exec (.tx (.nextSubmitted now)) c W = some (r, W')) (hrow : W.rows.find row.id = some row)
    (hs : row.state = .submitted) (hdue : row.nextAttemptAtMS ≤ timeToMillis now) :
    r = .ok (some row.metadata) ↔
      (∃ m?, r = .ok m?) ∧ Foremost W.rows .submitted (timeToMillis now) row := by
  rw [← selectReady_iff hrow hs hdue]
  have hfailed : ∀ e, r = .error e → (r = .ok (some row.metadata) ↔ (∃ m?, r = .ok m?) ∧
      selectReady W.rows .submitted (timeToMillis now) = some row) := by
    rintro e rfl
    constructor
    · intro h
      cases h
    · rintro ⟨⟨_, h⟩, -⟩
      cases h
  obtain ⟨-, ⟨clock, m?, hbody, rfl | ⟨e, he⟩⟩ | ⟨-, e, he⟩⟩ := exec_tx_cases hE
  · obtain ⟨-, ⟨rfl, hsel⟩ | ⟨row', rfl, hsel, hrow', -, -⟩⟩ := nextSubmittedBody_ok hbody
    · rw [hsel]
      constructor
      · intro h
        cases h
      · rintro ⟨-, h⟩
        cases h
    · rw [hsel]
      constructor
      · intro h
        have hid : row'.id = row.id := congrArg Metadata.id (Option.some.inj (Except.ok.inj h))
        rw [hid, hrow] at hrow'
        exact ⟨⟨_, rfl⟩, hrow'.symm⟩
      · rintro ⟨-, h⟩
        cases h
        rfl
  · exact hfailed e he
  · exact hfailed e he

/-- The round in which a timed-out record is offered dead-letters it without another call. -/
theorem processSubmittedOnce_timedOut {now : Int} {worked : Bool}
    (hrow : W.rows.find row.id = some row) (hs : row.state = .submitted)
    (hdue : row.nextAttemptAtMS ≤ timeToMillis now)
    (hfirst : Foremost W.rows .submitted (timeToMillis now) row)
    (hout : w.timedOut now row.metadata.toRecord = true)
    (h : Runs exec (w.processSubmittedOnce now) W tr (.ok worked) W') :
    W'.calls = W.calls ∧ EndsIn W' row.id .deadLetter := by
  obtain ⟨found, tr1, tr2, W2, -, hnext, h⟩ := h.act_bind_ok
  obtain ⟨m?, tr3, tr4, W1, -, htx, hret⟩ := hnext.act_bind_ok
  obtain ⟨hfound, -, rfl⟩ := hret.ret_inv
  obtain ⟨c, r, W3, tr5, -, hE, hret⟩ := htx.step_inv
  obtain ⟨hr, -, rfl⟩ := hret.ret_inv
  have hm := (offered_iff hE hrow hs hdue).mpr ⟨⟨m?, hr.symm⟩, hfirst⟩
  cases hr.trans hm
  cases hfound
  have h : Runs exec (w.processSubmitted now row.metadata.toRecord) W2 tr2 (.ok worked) W' := h
  have hworked : worked = true := by
    unfold Worker.processSubmitted at h
    rw [if_pos hout] at h
    obtain ⟨_, _, _, _, -, -, hret⟩ := h.act_bind_ok
    exact Except.ok.inj hret.ret_inv.1
  subst hworked
  obtain ⟨hcalls, hends⟩ := processSubmitted_timedOut hout hs h
  exact ⟨hcalls.trans (exec_tx_cases hE).1, hends⟩

/-- The clock value and the answer of a NextSubmittedReady call. -/
def asksReady (ev : SpoolEvent) : Option (Int × Except GoError (Option Metadata)) :=
  match ev with
  | ⟨.tx (.nextSubmitted now), _, r, _, _⟩ => some (now, r)
  | _ => none

/-- The `i`-th step is a NextSubmittedReady call with the clock value `now`.  At that time `row` is
    submitted, and its timeout has elapsed, for not more than one poll interval. -/
structure AskedInTime (w : Worker) (tr : Trace) (i : Nat) (now : Int)
    (r : Except GoError (Option Metadata)) (t : Records) (row : Row) : Prop where
  call : (tr[i]?.bind fun ev => (asksReady ev).map fun x => (x, ev.pre.rows)) = some ((now, r), t)
  there : t.find row.id = some row
  submitted : row.state = .submitted
  elapsed : row.metadata.firstSubmittedAt + w.cfg.submittedTimeout ≤ now
  soon : now ≤ row.metadata.firstSubmittedAt + w.cfg.submittedTimeout + w.cfg.pollInterval

/-- The record is offered by NextSubmittedReady within one poll interval after its timeout. -/
def OfferedInTime (w : Worker) (tr : Trace) (id : GoString) : Prop :=
  ∃ i now t row, AskedInTime w tr i now (.ok (some row.metadata)) t row ∧ row.id = id

/-- Within one poll interval after the timeout of the record, and one poll interval after it was last
    submitted or polled, a NextSubmittedReady call answers for which no other row comes first. -/
def Attended (w : Worker) (c0 : GoString → Int) (tr : Trace) (id : GoString) : Prop :=
  ∃ i now m? t row, AskedInTime w tr i now (.ok m?) t row ∧ row.id = id ∧
    usedSince c0 (tr.take i) id + w.cfg.pollInterval ≤ now ∧
    Foremost t .submitted (timeToMillis now) row

omit [Unicode] in
theorem AllPunctual.take (h : AllPunctual w tr) (n : Nat) : AllPunctual w (tr.take n) := by
  intro i rec hi
  obtain ⟨ev, hev, -⟩ := Option.bind_eq_some_iff.mp hi
  have hlt : i < n := (Nat.lt_min.mp (length_take ▸ (List.getElem?_eq_some_iff.mp hev).1)).1
  rw [getElem?_take_of_lt hlt] at hi
  rw [take_take, Nat.min_eq_left (Nat.le_of_lt hlt)]
  exact h i rec hi

/-- **The timeout bounds every submitted record exactly as far as the provider and the other records
    let it.**  In every state of a run of the worker, among any Enqueue calls, that starts with bounded
    rows:

    * what a write has stored as submitted is bounded exactly when the write was punctual;
    * if all writes so far were punctual, then every submitted row is bounded, by the clock value
      that was used for its last Submit or Poll.  Once its bound has passed, a NextSubmittedReady call
      offers it exactly when the call answers and no other row that is due comes first, and the round
      that is offered it dead-letters it without another call;
    * if all writes were punctual, then a record that is attended to is offered within one poll
      interval after its timeout. -/
theorem timeout_bounds {s : SpoolStore} {c0 : GoString → Int} {W0 W : World}
    {tr : Trace} {p : Task Unit} (h0 : AllBounded w c0 W0.rows)
    (hrun : Among exec SessionStep (w.start s) W0 tr p W) :
    (∀ i rec (row : Row), tr[i]?.bind storedSubmitted = some rec → row.toColumns = rec.columns →
      (Bounded w (usedSince c0 (tr.take i) rec.id) row.metadata ↔
        Punctual w (shiftOf (tr.take i)))) ∧
    (AllPunctual w tr → ∀ id row, W.rows.find id = some row → row.state = .submitted →
      Bounded w (usedSince c0 tr id) row.metadata ∧
      ∀ now, row.metadata.firstSubmittedAt + w.cfg.submittedTimeout ≤ now →
        usedSince c0 tr id + w.cfg.pollInterval ≤ now →
        (∀ c r W', exec (.tx (.nextSubmitted now)) c W = some (r, W') →
          (r = .ok (some row.metadata) ↔
            (∃ m?, r = .ok m?) ∧ Foremost W.rows .submitted (timeToMillis now) row)) ∧
        (row.firstSubmittedAtMS ≠ none → Foremost W.rows .submitted (timeToMillis now) row →
          ∀ tr' worked W', Runs exec (w.processSubmittedOnce now) W tr' (.ok worked) W' →
          W'.calls = W.calls ∧ EndsIn W' id .deadLetter)) ∧
    (AllPunctual w tr → ∀ id, Attended w c0 tr id → OfferedInTime w tr id) := by
  refine ⟨?_, ?_, ?_⟩
  · intro i rec row hi hcols
    obtain ⟨ev, hev, hstored⟩ := Option.bind_eq_some_iff.mp hi
    obtain ⟨hstate, st, hop⟩ := storedSubmitted_eq hstored
    obtain ⟨p1, W1, p2, W2, hbefore, hmove, -⟩ := hrun.split hev
    obtain ⟨κ, hsafe, hkept⟩ := kept_run h0 hbefore
    rcases Safe.move hsafe hmove with ⟨hx, -⟩ | ⟨o, c, r, hev, hE, hok, -⟩
    · nomatch hx
    · obtain rfl := Option.some.inj hev
      obtain rfl : o = .tx (.update st rec) := hop
      have hok : κ.Allows w (.tx (.update st rec)) := hok
      obtain ⟨m, hw⟩ := hok.writes
      obtain ⟨hanswered, hid, -, -⟩ := writes_submitted hkept.holds hw hstate
      unfold usedSince
      rw [hid, hkept.used m hanswered, ← hkept.shift]
      exact bounded_iff hkept.holds hw hstate hcols
  · intro hpunctual id row hrow hs
    obtain ⟨κ, -, hkept⟩ := kept_run h0 hrun
    have hbounded := hkept.bounded hpunctual id row hrow hs
    obtain rfl : row.id = id := find_id hrow
    refine ⟨hbounded, fun now hfirst hused => ?_⟩
    have hdue := due_of_bounded hbounded hfirst hused
    refine ⟨fun c r W' hE => offered_iff hE hrow hs hdue, fun hsome hforemost tr' worked W' hround => ?_⟩
    exact processSubmittedOnce_timedOut hrow hs hdue hforemost (timedOut_of_elapsed hsome hfirst) hround
  · rintro hpunctual id ⟨i, now, m?, t, row, hcall, rfl, hused, hforemost⟩
    obtain ⟨ev, hev, hasks⟩ := Option.bind_eq_some_iff.mp hcall.call
    obtain ⟨p1, W1, p2, W2, hbefore, hmove, -⟩ := hrun.split hev
    obtain ⟨κ, hsafe, hkept⟩ := kept_run h0 hbefore
    rcases Safe.move hsafe hmove with ⟨hx, -⟩ | ⟨o, c, r, hx, hE, -, -⟩
    · nomatch hx
    obtain rfl := Option.some.inj hx
    obtain ⟨⟨now', r'⟩, hasked, heq⟩ := Option.map_eq_some_iff.mp hasks
    cases heq
    have hbounded := hkept.bounded (hpunctual.take i) row.id row hcall.there hcall.submitted
    have hdue := due_of_bounded hbounded hcall.elapsed hused
    unfold asksReady at hasked
    split at hasked
    · rename_i now1 c1 r1 W3 W4 hevent
      cases hevent
      cases hasked
      have hoffered := (offered_iff hE hcall.there hcall.submitted hdue).mpr ⟨⟨m?, rfl⟩, hforemost⟩
      cases hoffered
      exact ⟨i, now, _, row, hcall, rfl⟩
    · nomatch hasked

end Runs

/-! ## A provider that asks for ten days -/

/-- A message is enqueued in a fresh spool. -/
def sampleEnqueued [Unicode] : Task Record := do
  sampleStore.newSpoolStore
  sampleStore.enqueue sampleMessage

/-- A Running answer that asks for the time `d`. -/
def runningFor (d : Int) : SubmissionResult where
  state := .running
  operationID := lit "op"
  operationLocation := []
  providerMessageID := []
  retryAfter := d
  failure := none

/-- The first round of the worker after a message was enqueued at second 2. -/
def FirstRound [Unicode] (tr : Trace) (W : World) : Prop :=
  ∃ tr0 rec W0, Runs exec sampleEnqueued (sampleWorld ⟨[], nodup_nil⟩) tr0 (.ok rec) W0 ∧
    AllBounded sampleWorker (fun _ => 0) W0.rows ∧
    Among exec SessionStep (sampleWorker.start sampleStore) W0 tr (sampleWorker.start sampleStore) W

theorem firstRound_of_run [Unicode] {d : Int} {T : Trace → World → Bool}
    (h : (run exec (calm (.ok (runningFor d)) (.error .canceled)) 100 sampleEnqueued
      (sampleWorld ⟨[], nodup_nil⟩)).any (fun x => x.1.toBool &&
        (x.2.2.rows.rows.all fun row => decide (row.state ≠ .submitted)) &&
        (run exec (calm (.ok (runningFor d)) (.error .canceled)) 100
          (sampleWorker.once sampleStore) x.2.2).any fun y =>
            decide (y.1 = .ok ()) && T y.2.1 y.2.2) = true) :
    ∃ tr W, FirstRound tr W ∧ T tr W = true := by
  obtain ⟨out, tr0, W0, hrun0, hT⟩ := exists_runs_of_run _ _ _ _ _ h
  obtain ⟨hT, hround⟩ := Bool.and_eq_true_iff.mp hT
  obtain ⟨hok, hrows⟩ := Bool.and_eq_true_iff.mp hT
  obtain ⟨out', tr, W, hrun, hT'⟩ := exists_runs_of_run (E := exec) _ _
    (sampleWorker.once sampleStore) _ _ hround
  obtain ⟨hok', hT'⟩ := Bool.and_eq_true_iff.mp hT'
  obtain rfl : out' = .ok () := of_decide_eq_true hok'
  cases out with
  | error e => nomatch hok
  | ok rec =>
    refine ⟨tr, W, ⟨tr0, rec, W0, hrun0, ?_, among_of_round hrun⟩, hT'⟩
    intro id row hrow hs
    have hne := of_decide_eq_true (all_eq_true.mp hrows row (Table.find_mem hrow))
    exact absurd hs hne

/-- The outside, one hour after second 2. -/
def anHourLater : Op → Choice := calmAt (3602 * second) (.error .canceled) (.error .canceled)

/-- The row is submitted at second 2.  At second 3602 a call offers it, and a round ends well. -/
def endsLater [Unicode] (tr : Trace) (W : World) (row : Row) : Bool :=
  decide (W.calls = [.submit row.id (.ok (runningFor (second / 2)))] ∧ row.state = .submitted ∧
    row.firstSubmittedAtMS = some 2000 ∧
    usedSince (fun _ => 0) tr row.id + sampleWorker.cfg.pollInterval ≤ 3602 * second ∧
    Foremost W.rows .submitted (timeToMillis (3602 * second)) row) &&
  ((run exec anHourLater 100 (sampleWorker.processSubmittedOnce (3602 * second)) W).any fun x =>
    decide (x.1 = .ok true)) &&
  (run exec anHourLater 100 (sampleWorker.once sampleStore) W).any fun x =>
    decide (x.1 = .ok () ∧ AllPunctual sampleWorker (tr ++ x.2.1) ∧
      usedSince (fun _ => 0) ((tr ++ x.2.1).take (tr.length + 2)) row.id +
        sampleWorker.cfg.pollInterval ≤ 3602 * second) &&
    (tr ++ x.2.1)[tr.length + 2]?.any fun ev => decide (ev.pre.rows.rows = W.rows.rows) &&
      (asksReady ev).any fun y => decide (y.1 = 3602 * second) && y.2.toBool

/-- **Half a second is asked for**, with a poll interval of one second: the row is bounded.  One hour
    later it is offered, and dead-lettered without another call. -/
theorem timeout_bounds_half_second :
    letI := Unicode.ascii
    ∃ tr W row tr' W' W2, FirstRound tr W ∧ W.rows.find (Row.toColumns row).id = some row ∧
      W.calls = [.submit row.id (.ok (runningFor (second / 2)))] ∧ row.state = .submitted ∧
      Bounded sampleWorker (usedSince (fun _ => 0) tr row.id) row.metadata ∧
      Among exec SessionStep (sampleWorker.start sampleStore) W tr'
        (sampleWorker.start sampleStore) W' ∧ OfferedInTime sampleWorker (tr ++ tr') row.id ∧
      (∃ tr2, Runs exec (sampleWorker.processSubmittedOnce (3602 * second)) W tr2 (.ok true) W2) ∧
      W2.calls = W.calls ∧ EndsIn W2 row.id .deadLetter := by
  let _ := Unicode.ascii
  obtain ⟨tr, W, hround, hT⟩ := firstRound_of_run (d := second / 2)
    (T := fun tr W => decide (AllPunctual sampleWorker tr) && W.rows.rows.any (endsLater tr W))
    (by decide +kernel)
  simp only [Bool.and_eq_true, decide_eq_true_eq, any_eq_true] at hT
  obtain ⟨hpunctual, row, hmem, hT⟩ := hT
  unfold endsLater at hT
  simp only [Bool.and_eq_true, decide_eq_true_eq] at hT
  obtain ⟨⟨⟨hcalls, hs, hfirst, hused, hforemost⟩, hprocess⟩, honce⟩ := hT
  have hfind : W.rows.find row.id = some row := Table.mem_iff.mp hmem
  have helapsed : row.metadata.firstSubmittedAt + sampleWorker.cfg.submittedTimeout = 3602 * second := by
    show (row.firstSubmittedAtMS.map ofMillis).getD zeroTime + _ = _
    rw [hfirst]
    rfl
  obtain ⟨out, tr2, W2, hprocess, hok⟩ := exists_runs_of_run (E := exec) _ _
    (sampleWorker.processSubmittedOnce (3602 * second)) _ _ hprocess
  obtain rfl : out = .ok true := of_decide_eq_true hok
  obtain ⟨out', tr', W', honce, hT⟩ := exists_runs_of_run (E := exec) _ _
    (sampleWorker.once sampleStore) _ _ honce
  simp only [Bool.and_eq_true, decide_eq_true_eq, Option.any_eq_true] at hT
  obtain ⟨⟨rfl, hpunctual', hused'⟩, ev, hev, hrows, ⟨now, r⟩, hasks, hnow, hr⟩ := hT
  obtain ⟨tr0, rec, W0, -, h0, hrun⟩ := id hround
  have hsecond : Among exec SessionStep (sampleWorker.start sampleStore) W tr'
      (sampleWorker.start sampleStore) W' := among_of_round honce
  obtain ⟨hbounded, hpast⟩ := (timeout_bounds h0 hrun).2.1 hpunctual row.id row hfind hs
  obtain ⟨-, hround2⟩ := hpast (3602 * second) (Int.le_of_eq helapsed) hused
  obtain ⟨hcalls2, hends⟩ := hround2 (by rw [hfirst]; nofun) hforemost tr2 true W2 hprocess
  have hattended : Attended sampleWorker (fun _ => 0) (tr ++ tr') row.id := by
    cases r with
    | error e => nomatch hr
    | ok m? =>
      obtain rfl : now = 3602 * second := hnow
      have hsame : ev.pre.rows = W.rows := Table.ext hrows
      refine ⟨tr.length + 2, _, m?, W.rows, row, ⟨?_, hfind, hs, Int.le_of_eq helapsed, ?_⟩, rfl,
        hused', hforemost⟩
      · rw [hev, Option.bind_some, hasks, hsame]
        rfl
      · rw [helapsed]
        decide
  exact ⟨tr, W, row, tr', W', W2, hround, hfind, hcalls, hs, hbounded, hsecond,
    (timeout_bounds h0 (hrun.trans hsecond)).2.2 hpunctual' row.id hattended, ⟨tr2, hprocess⟩, hcalls2,
    hends⟩

/-- **Ten days are asked for**, with a poll interval of one second and a timeout of one hour: the
    record is parked for ten days. -/
theorem timeout_ten_days :
    letI := Unicode.ascii
    ∃ tr W row, FirstRound tr W ∧
      W.rows.find (Row.toColumns row).id = some row ∧
      W.calls = [.submit row.id (.ok (runningFor (10 * 24 * 3600 * second)))] ∧
      row.state = .submitted ∧ ¬ Bounded sampleWorker (usedSince (fun _ => 0) tr row.id) row.metadata := by
  let _ := Unicode.ascii
  obtain ⟨tr, W, hround, hT⟩ := firstRound_of_run (d := 10 * 24 * 3600 * second)
    (T := fun tr W => W.rows.rows.any fun row =>
      decide (W.calls = [.submit row.id (.ok (runningFor (10 * 24 * 3600 * second)))] ∧
        row.state = .submitted ∧
        ¬ Bounded sampleWorker (usedSince (fun _ => 0) tr row.id) row.metadata))
    (by decide +kernel)
  obtain ⟨row, hrow, hT⟩ := any_eq_true.mp hT
  exact ⟨tr, W, row, hround, Table.mem_iff.mp hrow, of_decide_eq_true hT⟩

end SmtpCloudRelay.Spool
