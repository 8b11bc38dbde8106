/-
  BACKOFF AND RETRY-AFTER: how long the worker really waits.

  When an attempt fails for the moment, or the provider says that it is still running, the worker
  writes down when the record is due again.  It computes that from the reading at the HEAD OF THE
  ROUND, and a round may hold a Poll and a Submit that take any time.  So the delay is counted from a
  moment before the call, and what is left of it when the call returns may be nothing.

  To speak of this, a run is given with its times (`timedExec`): every operation starts and ends at a
  reading of the clock, and the clock never goes back.

  * `Awaits`: from the answer to the next call for the record, its row is due at one fixed moment.
  * `backoff_waited`: that moment is the head of the round plus the delay; so the delay has been
    waited after the answer exactly when the call has not pushed it over a millisecond.
-/
import SmtpCloudRelay.Spool.Timeout

namespace SmtpCloudRelay.Spool

open Go Lib Prog List

/-! ## Runs with their times -/

/-- What the outside chooses for an operation, and the clock when it starts and when it has ended. -/
structure Timing where
  choice : Choice
  start : Int
  finish : Int

/-- The clock was at `now` before; what the operation reads of it lies between start and finish. -/
def Timing.possible (c : Timing) (now : Int) : Bool :=
  now ≤ c.start && c.start ≤ c.finish &&
    match c.choice with
    | .time t => c.start ≤ t && t ≤ c.finish
    | _ => true

/-- A run of operations that take time. -/
abbrev TimedTrace := List (Event spoolSig Timing (World × Int))

section Runs

variable [Unicode]

/-- The semantics of operations that take time: the world comes with its clock. -/
def timedExec : Exec spoolSig Timing (World × Int) := fun o c X =>
  if c.possible X.2 then (exec o c.choice X.1).map fun x => (x.1, x.2, c.finish) else none

/-- The others take their steps, or only their time. -/
def Meanwhile (X X' : World × Int) : Prop :=
  X.2 ≤ X'.2 ∧ (X'.1 = X.1 ∨ SessionStep X.1 X'.1)

variable {o : Op} {X X' X0 : World × Int} {κ κ0 : Shift}
  {tr : TimedTrace} {t : Records} {m : Metadata} {row : Row}
  {id : GoString} {s : SpoolStore} {p : Task Unit} {i : Nat}

theorem timed_cases {c : Timing} {r : o.Res} (h : timedExec o c X = some (r, X')) :
    exec o c.choice X.1 = some (r, X'.1) ∧ X.2 ≤ c.start ∧ c.start ≤ c.finish ∧
      X'.2 = c.finish ∧ ∀ t, c.choice = .time t → t ≤ c.finish := by
  unfold timedExec at h
  split at h
  · rename_i hpossible
    obtain ⟨⟨r', W'⟩, hE, hx⟩ := Option.map_eq_some_iff.mp h
    cases hx
    unfold Timing.possible at hpossible
    simp only [Bool.and_eq_true, decide_eq_true_eq] at hpossible
    obtain ⟨⟨hstart, hfinish⟩, hreads⟩ := hpossible
    refine ⟨hE, hstart, hfinish, rfl, fun t ht => ?_⟩
    rw [ht] at hreads
    simp only [Bool.and_eq_true, decide_eq_true_eq] at hreads
    exact hreads.2
  · nomatch h

/-- A reading of the clock is what the clock showed. -/
theorem exec_now {c : Choice} {W W' : World} {t : Int} (h : exec .now c W = some (t, W')) :
    c = .time t := by
  obtain ⟨hanswer, -, -⟩ := exec_other h rfl rfl
  cases c with
  | time t' =>
    obtain rfl : t' = t := Option.some.inj hanswer
    rfl
  | _ => nomatch hanswer

/-- What is known in every state of a run: the head of the round was read, and has passed. -/
structure Timely (κ : Shift) (tr : TimedTrace) (X : World × Int) : Prop where
  shift : κ = shiftOf tr
  holds : κ.Holds X.1.rows
  head : κ.head = 0 ∨ κ.head ≤ X.2

variable {w : Worker}

theorem Timely.step {c : Timing} {r : o.Res} (h : Timely κ tr X) (hok : κ.Allows w o)
    (hE : timedExec o c X = some (r, X')) : Timely (κ.after o r) (tr ++ [⟨o, c, r, X, X'⟩]) X' := by
  obtain ⟨hexec, hstart, hfinish, hclock, hreads⟩ := timed_cases hE
  refine ⟨?_, h.holds.step (shift_step hok hexec), ?_⟩
  · rw [shiftOf_concat, ← h.shift]
  · have hlater : κ.head = 0 ∨ κ.head ≤ X'.2 := h.head.imp (fun h => h) fun h => by omega
    cases o with
    | now =>
      obtain ⟨duty, head, stamp⟩ := κ
      cases duty with
      | idle =>
        -- the reading is the new head
        refine Or.inr ?_
        rw [hclock]
        exact hreads r (exec_now hexec)
      | _ => exact hlater
    | _ => exact hlater

theorem Timely.others (h : Timely κ tr X) (hstep : Meanwhile X X') : Timely κ tr X' := by
  obtain ⟨hclock, hstep⟩ := hstep
  refine ⟨h.shift, ?_, h.head.imp (fun h => h) fun h => by omega⟩
  rcases hstep with hstep | hstep
  · rw [hstep]
    exact h.holds
  · exact h.holds.session hstep

/-! ## What a record waits for -/

/-- A record waits for its next Submit, or for its next Poll. -/
inductive Wait where
  | submit
  | poll

variable {k : Wait}

/-- The states of a record that waits. -/
def Wait.Live : Wait → State → Prop
  | .submit, st => st = .queued ∨ st = .working
  | .poll, st => st = .submitted

/-- The call that the record `id` waits for. -/
def Wait.ends : Wait → GoString → Op → Bool
  | .submit, id, .submit _ id' => id' = id
  | .poll, id, .poll id' _ => id' = id
  | _, _, _ => false

/-- The row is due at `due`, or given up. -/
def Settled (k : Wait) (due : Int) (row : Row) : Prop :=
  (k.Live row.state ∧ row.nextAttemptAtMS = due) ∨ row.state = .deadLetter

/-- From an answer, at the shift `κ0`, on: the answer is still to be settled, or the row says so. -/
inductive Awaits (k : Wait) (id : GoString) (due : Int) (κ0 κ : Shift) (t : Records) : Prop where
  | stopped (h : κ.duty = .stopped)
  | unsettled (hduty : κ.duty = κ0.duty) (hhead : κ.head = κ0.head)
  | settled (row : Row) (hrow : t.find id = some row) (hdue : Settled k due row)
      (hfree : ∀ m, κ.Answered m → m.id ≠ id)

/-- An answer for the record `id` that makes its row due at `due`. -/
structure Schedules (w : Worker) (k : Wait) (id : GoString) (due : Int) (κ0 : Shift) : Prop where
  answered : ∃ m, κ0.Answered m
  stores : ∀ (κ : Shift) (t : Records) (m : Metadata) (rec : Record) (row : Row),
    κ.duty = κ0.duty → κ.head = κ0.head → κ.Holds t → κ.Writes w m rec →
    row.toColumns = rec.columns → rec.id = id ∧ Settled k due row

/-- What is written about a record without an answer. -/
theorem writes_held {rec : Record} (hholds : κ.Holds t) (hw : κ.Writes w m rec) :
    rec.id = m.id ∧ (κ.Answered m ∨ rec.state = .deadLetter ∨
      (κ.duty = .claimed m ∧ rec.state = .queued ∧ rec.nextAttemptAt = m.nextAttemptAt)) := by
  obtain ⟨duty, head, stamp⟩ := κ
  unfold Shift.Holds at hholds
  cases duty with
  | idle | stopped => nomatch hw
  | claimed m' =>
    obtain ⟨rfl, ⟨t', rfl⟩ | ⟨cause, t', rfl⟩⟩ := hw
    · exact ⟨rfl, Or.inr (Or.inr ⟨rfl, rfl, rfl⟩)⟩
    · exact ⟨corrupted_id _ _ _, Or.inr (Or.inl (corrupted_state _ _ _))⟩
  | submitted m' answer =>
    obtain ⟨rfl, msg, hw⟩ := hw
    obtain ⟨row, -, hrow⟩ := hholds
    exact ⟨(queued_stores hrow.working hw.stores).1.id, Or.inl (Or.inl ⟨answer, rfl⟩)⟩
  | found m' =>
    obtain ⟨rfl, -, hw⟩ := hw
    obtain ⟨row, -, rfl, hstate, -⟩ := hholds
    exact ⟨(timeout_stores hstate hw.stores).id, Or.inr (Or.inl hw.ends.2)⟩
  | polled m' answer =>
    obtain ⟨rfl, hw⟩ := hw
    obtain ⟨row, -, rfl, hstate, -⟩ := hholds
    exact ⟨(submitted_stores hstate hw.stores).id, Or.inl (Or.inr ⟨answer, rfl⟩)⟩

omit [Unicode] in
theorem next_of_columns {rec : Record} (h : row.toColumns = rec.columns) :
    row.nextAttemptAtMS = unixMilli rec.nextAttemptAt := by
  have hpos := row.check.next
  have hms : row.nextAttemptAtMS = timeToMillis rec.nextAttemptAt := by
    rw [h]
    rfl
  rw [hms] at hpos ⊢
  unfold timeToMillis at hpos ⊢
  split
  · rename_i hzero
    rw [if_pos hzero] at hpos
    omega
  · rfl

/-- The worker's own steps, once the answer is settled. -/
theorem Awaits.settled_step {due : Int} {κ' : Shift} {t' : Records} (hholds : κ.Holds t)
    (hstep : ShiftStep w κ t o κ' t') (hno : k.ends id o = false) (hrow : t.find id = some row)
    (hdue : Settled k due row) (hfree : ∀ m, κ.Answered m → m.id ≠ id) :
    Awaits k id due κ0 κ' t' := by
  unfold Shift.Holds at hholds
  have hfree' : ∀ m, κ'.Answered m → m.id ≠ id := by
    rintro m hm rfl
    rcases hstep.answered hm with ⟨hm, -⟩ | ⟨-, ⟨hclaimed, msg, rfl⟩ | ⟨hfound, rfl⟩⟩
    · exact hfree m hm rfl
    · rw [hclaimed] at hholds
      obtain ⟨row0, hrow0, hm⟩ := hholds
      obtain rfl := Option.some.inj (hrow.symm.trans hrow0)
      cases k with
      | submit => exact absurd (decide_eq_true rfl) (ne_true_of_eq_false hno)
      | poll => rcases hdue with ⟨hlive, -⟩ | hdead
                · exact nomatch hm.state.symm.trans hlive
                · exact nomatch hm.state.symm.trans hdead
    · rw [hfound] at hholds
      obtain ⟨row0, hrow0, -, hs, -⟩ := hholds
      obtain rfl := Option.some.inj (hrow.symm.trans hrow0)
      cases k with
      | poll => exact absurd (decide_eq_true rfl) (ne_true_of_eq_false hno)
      | submit => rcases hdue with ⟨hlive | hlive, -⟩ | hdead
                  · exact nomatch hs.symm.trans hlive
                  · exact nomatch hs.symm.trans hlive
                  · exact nomatch hs.symm.trans hdead
  cases hstep with
  | quiet | find | submit | poll => exact .settled row hrow hdue hfree'
  | stop hduty => exact .stopped hduty
  | @claim row0 row' stamp _ hidle hrow0 hs _ hcols hκ' =>
    have hid : row'.id = row0.id := by
      rw [hcols]
      rfl
    rcases find_replaced hrow0 hid hrow with ⟨rfl, hrow'⟩ | hrow'
    · -- the record itself is claimed: its row keeps its due time
      refine .settled row' hrow' ?_ hfree'
      rcases hdue with ⟨hlive, hdue⟩ | hdead
      · refine Or.inl ⟨?_, ?_⟩
        · cases k with
          | submit =>
            refine Or.inr ?_
            rw [hcols]
            rfl
          | poll =>
            rw [hs] at hlive
            nomatch hlive
        · rw [hcols]
          exact hdue
      · rw [hs] at hdead
        nomatch hdead
    · exact .settled row hrow' hdue hfree'
  | @update m rec row0 row' _ hw hrow0 hs hcols hκ' =>
    obtain ⟨hrecid, hwhat⟩ := writes_held hholds hw
    have hid0 : row0.id = rec.id := find_id hrow0
    have hid : row'.id = row0.id := by
      rw [hcols, hid0]
      rfl
    rw [← hid0] at hrow0
    rcases find_replaced hrow0 hid hrow with ⟨rfl, hrow'⟩ | hrow'
    · -- the record itself is rewritten: it is put back as it was, or given up
      refine .settled row' hrow' ?_ hfree'
      rcases hwhat with hanswered | hdead | ⟨hclaimed, hqueued, hnext⟩
      · refine absurd ?_ (hfree m hanswered)
        rw [← hrecid, ← hid0]
        exact find_id hrow
      · refine Or.inr ?_
        rw [hcols]
        exact hdead
      · rw [hclaimed] at hholds
        obtain ⟨row1, hrow1, hm⟩ := hholds
        have hsame : row1 = row := by
          rw [← hrecid, ← hid0] at hrow1
          exact Option.some.inj (hrow1.symm.trans hrow0)
        subst hsame
        rcases hdue with ⟨hlive, hdue⟩ | hdead
        · refine Or.inl ⟨?_, ?_⟩
          · cases k with
            | submit =>
              refine Or.inl ?_
              rw [hcols]
              exact hqueued
            | poll => exact nomatch hm.state.symm.trans hlive
          · rw [next_of_columns hcols, hnext, hm.next, unixMilli_ofMillis]
            exact hdue
        · exact nomatch hm.state.symm.trans hdead
    · exact .settled row hrow' hdue hfree'

/-- **The worker's own steps**, until the call that the record waits for. -/
theorem Awaits.step {due : Int} {κ' : Shift} {t' : Records} (h : Awaits k id due κ0 κ t)
    (hκ0 : Schedules w k id due κ0) (hholds : κ.Holds t) (hstep : ShiftStep w κ t o κ' t')
    (hno : k.ends id o = false) : Awaits k id due κ0 κ' t' := by
  cases h with
  | stopped h =>
    -- nothing is allowed any more that would change the duty
    cases hstep with
    | quiet _ hduty _ => exact .stopped (hduty.trans h)
    | stop hduty => exact .stopped hduty
    | claim hidle | find hidle => exact nomatch h.symm.trans hidle
    | submit hclaimed => exact nomatch h.symm.trans hclaimed
    | poll hfound => exact nomatch h.symm.trans hfound
    | update hw =>
      unfold Shift.Writes at hw
      rw [h] at hw
      nomatch hw
  | unsettled hduty hhead =>
    obtain ⟨m, hm⟩ := hκ0.answered
    have hm : κ.Answered m := by
      unfold Shift.Answered at hm ⊢
      rwa [hduty]
    have hnot : ∀ {d : Duty}, (∀ answer, d ≠ .submitted m answer) →
        (∀ answer, d ≠ .polled m answer) → κ.duty ≠ d := by
      rintro d hs hp rfl
      rcases hm with ⟨answer, hd⟩ | ⟨answer, hd⟩
      · exact hs answer hd
      · exact hp answer hd
    cases hstep with
    | quiet _ hd hh =>
      have hbusy : κ.duty ≠ .idle := hnot (by simp) (by simp)
      exact .unsettled (hd.trans hduty) ((hh hbusy).trans hhead)
    | stop hd => exact .stopped hd
    | claim hidle | find hidle => exact absurd hidle (hnot (by simp) (by simp))
    | submit hclaimed => exact absurd hclaimed (hnot (by simp) (by simp))
    | poll hfound => exact absurd hfound (hnot (by simp) (by simp))
    | @update m' rec row0 row' _ hw hrow0 hs hcols hκ' =>
      obtain ⟨hid, hsettled⟩ := hκ0.stores κ t m' rec row' hduty hhead hholds hw hcols
      have hid0 : row0.id = rec.id := find_id hrow0
      have hid' : row'.id = row0.id := by
        rw [hcols, hid0]
        rfl
      refine .settled row' ?_ hsettled fun m hm => absurd hm (not_answered_of_free hκ' m)
      rw [← hid, ← hid0]
      exact find_replace_self (hid0 ▸ hrow0) hid'
  | settled row hrow hdue hfree => exact Awaits.settled_step hholds hstep hno hrow hdue hfree

/-- **The others** leave the rows that are there. -/
theorem Awaits.others {due : Int} (h : Awaits k id due κ0 κ X.1.rows) (hstep : Meanwhile X X') :
    Awaits k id due κ0 κ X'.1.rows := by
  rcases hstep.2 with hstep | hstep
  · rw [hstep]
    exact h
  · cases h with
    | stopped h => exact .stopped h
    | unsettled hduty hhead => exact .unsettled hduty hhead
    | settled row hrow hdue hfree => exact .settled row (hstep.find hrow) hdue hfree

/-- After event `i` no call of the kind that the record `id` waits for has been made. -/
def NoCall (k : Wait) (id : GoString) (i : Nat) (tr : TimedTrace) : Prop :=
  ∀ ev ∈ tr.drop (i + 1), k.ends id ev.op = false

/-- **From the answer on, the record waits**, in every state before the next call for it. -/
theorem awaits_run (hrun : Among timedExec Meanwhile (w.start s) X0 tr p X) {due : Int}
    (hκ0 : Schedules w k id due κ0) :
    ∃ κ, p.Safe (shiftProto w) (fun _ _ => True) κ ∧ Timely κ tr X ∧
      (i < tr.length → shiftOf (tr.take (i + 1)) = κ0 → NoCall k id i tr →
        Awaits k id due κ0 κ X.1.rows) := by
  refine Among.safe (L := shiftProto w) start_shift (κ := ⟨.idle, 0, 0⟩)
    (R := fun κ tr X => Timely κ tr X ∧ (i < tr.length → shiftOf (tr.take (i + 1)) = κ0 →
      NoCall k id i tr → Awaits k id due κ0 κ X.1.rows)) ?_ ?_ ?_ hrun
  · exact ⟨⟨rfl, trivial, Or.inl rfl⟩, nofun⟩
  · rintro κ tr X X' ⟨htimely, hawaits⟩ hstep
    exact ⟨htimely.others hstep, fun hi hshift hno => (hawaits hi hshift hno).others hstep⟩
  · rintro κ tr o c r X X' ⟨htimely, hawaits⟩ hok hE
    have htimely' := htimely.step hok hE
    refine ⟨_, ⟨exec_truthful (timed_cases hE).1, rfl⟩, htimely', fun hi hshift hno => ?_⟩
    rw [length_append, length_singleton] at hi
    rcases Nat.lt_or_ge i tr.length with hlt | hge
    · -- the answer lies before this step
      rw [take_append_of_le_length hlt] at hshift
      unfold NoCall at hno
      rw [drop_append_of_le_length hlt] at hno
      have hbefore : NoCall k id i tr := fun ev hev => hno ev (mem_append_left _ hev)
      exact (hawaits hlt hshift hbefore).step hκ0 htimely.holds (shift_step hok (timed_cases hE).1)
        (hno _ (mem_append_right _ (mem_singleton.mpr rfl)))
    · -- this step is the call that was answered
      obtain rfl : i = tr.length := by omega
      rw [take_of_length_le (by simp), ← htimely'.shift] at hshift
      rw [hshift]
      exact .unsettled rfl rfl

/-! ## When a record is due again -/

/-- `RetryBaseDelay * 2^min(a, 30)`, without a bound. -/
def Worker.backoff (w : Worker) (attempt : Int) : Int :=
  w.cfg.retryBaseDelay * 2 ^ (min attempt 30).toNat

omit [Unicode] in
/-- A delay that is a duration is the one that the worker computes. -/
theorem submitRetryDelay_eq {attempt : Int} (h : w.backoff attempt ≤ maxDuration) :
    w.submitRetryDelay attempt = w.backoff attempt := by
  have hexp : (min 30 (max 0 attempt)).toNat = (min attempt 30).toNat := by omega
  have hpos : 0 < w.backoff attempt := Int.mul_pos w.valid.retryBaseDelay (Int.pow_pos (by decide))
  unfold Worker.submitRetryDelay
  rw [hexp]
  show wrap64 (w.backoff attempt) = w.backoff attempt
  exact wrap64_of_range (le_trans (by decide) hpos.le) h

/-- **After a temporary failure** the record is due at the head of the round plus the delay. -/
theorem schedules_retry {answer : Except GoError SubmissionResult}
    (hduty : κ.duty = .submitted m answer) (hfail : FailedTemporarily answer) :
    Schedules w .submit m.id (unixMilli (κ.head + w.submitRetryDelay m.attempt)) κ := by
  refine ⟨⟨m, Or.inl ⟨answer, hduty⟩⟩, ?_⟩
  rintro ⟨duty, head, stamp⟩ t m' rec row hd hhead hholds hw hcols
  obtain rfl : duty = .submitted m answer := hd.trans hduty
  obtain rfl : head = κ.head := hhead
  obtain ⟨rfl, msg, hw⟩ := hw
  obtain ⟨row0, -, hrow0⟩ := hholds
  obtain ⟨hatt, hend⟩ := queued_stores hrow0.working hw.stores
  have haccepted := hend.accepted
  refine ⟨hatt.id, ?_⟩
  unfold Settled
  rw [next_of_columns hcols, hcols]
  cases hend with
  | retry state _ _ _ next => exact Or.inl ⟨Or.inl state, congrArg unixMilli next⟩
  | dead state => exact Or.inr state
  | succeeded state => exact absurd (haccepted (Or.inr state)) hfail.not_accepted
  | submitted state => exact absurd (haccepted (Or.inl state)) hfail.not_accepted

/-- The provider has answered for the record `m` that it is still running. -/
def Shift.Running (κ : Shift) (m : Metadata) : Prop :=
  (∃ result, κ.duty = .submitted m (.ok result) ∧ result.state = .running) ∨
    ∃ status, κ.duty = .polled m (.ok status) ∧ status.state = .running

/-- **After a Running answer** the record is due at the head of the round plus what was asked for. -/
theorem schedules_running (h : κ.Running m) (hasked : 0 < κ.asked) :
    Schedules w .poll m.id (unixMilli (κ.head + κ.asked)) κ := by
  have hanswered : κ.Answered m := h.imp (fun ⟨_, hd, _⟩ => ⟨_, hd⟩) fun ⟨_, hd, _⟩ => ⟨_, hd⟩
  refine ⟨⟨m, hanswered⟩, fun κ' t m' rec row hd hhead hholds hw hcols => ?_⟩
  -- what is stored as submitted is due when the provider has asked for
  have hstored : rec.state = .submitted → Settled .poll (unixMilli (κ.head + κ.asked)) row := by
    intro hs
    obtain ⟨-, -, hnext, -⟩ := writes_submitted hholds hw hs
    have hsame : κ'.asked = κ.asked := by
      unfold Shift.asked
      rw [hd]
    refine Or.inl ⟨?_, ?_⟩
    · rw [hcols]
      exact hs
    · rw [next_of_columns hcols, hnext, hsame, hhead]
      unfold Worker.nextPoll
      rw [if_pos hasked]
  have hdead : rec.state = .deadLetter → Settled .poll (unixMilli (κ.head + κ.asked)) row := by
    intro hs
    refine Or.inr ?_
    rw [hcols]
    exact hs
  obtain ⟨duty, head, stamp⟩ := κ'
  rcases h with ⟨result, hduty, hr⟩ | ⟨status, hduty, hr⟩
  · obtain rfl : duty = .submitted m (.ok result) := hd.trans hduty
    obtain ⟨rfl, msg, hw⟩ := hw
    obtain ⟨row0, -, hrow0⟩ := hholds
    obtain ⟨hatt, hend⟩ := queued_stores hrow0.working hw.stores
    refine ⟨hatt.id, ?_⟩
    cases hend with
    | retry _ hfailed => rcases hfailed.1 with hf | hf <;> exact nomatch hr.symm.trans hf
    | dead hs => exact hdead hs
    | succeeded _ _ answered delivered =>
      cases answered
      nomatch hr.symm.trans delivered
    | submitted hs => exact hstored hs
  · obtain rfl : duty = .polled m (.ok status) := hd.trans hduty
    obtain ⟨rfl, hw⟩ := hw
    obtain ⟨row0, -, rfl, hstate, -⟩ := hholds
    refine ⟨(submitted_stores hstate hw.stores).id, hstored ?_⟩
    have hst : (Worker.withMessageID row0.metadata.toRecord status).state = .submitted :=
      (withMessageID_state _ _).trans hstate
    unfold Worker.submittedOutcome at hw
    dsimp only at hw
    rw [hr] at hw
    obtain ⟨t1, hw⟩ := hw
    unfold Record.retried at hw
    rw [hst] at hw
    cases hw
    rfl

/-! ## The next call -/

/-- Event `i` is a call of the provider; it ended at `t` and has left the shift `κ`. -/
def Returned (tr : TimedTrace) (i : Nat) (κ : Shift) (t : Int) : Prop :=
  ∃ ev, tr[i]? = some ev ∧ ((∃ msg id, ev.op = .submit msg id) ∨ ∃ id op, ev.op = .poll id op) ∧
    ev.choice.finish = t ∧ shiftOf (tr.take (i + 1)) = κ

/-- Event `j` is the next call for the record `id` after event `i`; it starts at `u`. -/
def NextCall (k : Wait) (id : GoString) (tr : TimedTrace) (i j : Nat) (u : Int) : Prop :=
  i < j ∧ NoCall k id i (tr.take j) ∧
    ∃ ev, tr[j]? = some ev ∧ k.ends id ev.op = true ∧ ev.choice.start = u

/-- The answer of event `i` is settled, the worker's hands are empty, and `row` waits for its next
    call. -/
structure Waiting (k : Wait) (id : GoString) (tr : TimedTrace)
    (i : Nat) (X : World × Int) (row : Row) : Prop where
  idle : (shiftOf tr).duty = .idle
  quiet : NoCall k id i tr
  find : X.1.rows.find id = some row
  live : k.Live row.state

/-- A call of the provider is made for a row that was due at the head of the round. -/
theorem call_due (hok : κ.Allows w o) (hholds : κ.Holds t) (hcall : k.ends id o = true) :
    (∃ m, κ.duty = .claimed m ∨ κ.duty = .found m) ∧ ∃ row, t.find id = some row ∧
      k.Live row.state ∧ row.nextAttemptAtMS ≤ timeToMillis κ.head := by
  rcases hok with htry | ⟨m, rec, -, rfl⟩
  · unfold Shift.Tries at htry
    unfold Shift.Holds at hholds
    cases hd : κ.duty with
    | idle =>
      rw [hd] at htry
      rcases htry with rfl | rfl | ⟨d, rfl⟩ | rfl | rfl <;> cases k <;> nomatch hcall
    | claimed m =>
      rw [hd] at htry hholds
      obtain ⟨row, hrow, hm⟩ := hholds
      rcases htry with rfl | hc | ⟨msg, rfl⟩
      · cases k <;> nomatch hcall
      · cases o with
        | submit msg id | poll id op => nomatch hc
        | _ => cases k <;> nomatch hcall
      · cases k with
        | submit =>
          obtain rfl : m.id = id := of_decide_eq_true hcall
          exact ⟨⟨m, Or.inl rfl⟩, row, hrow, Or.inr hm.state, hm.due⟩
        | poll => nomatch hcall
    | submitted m answer =>
      rw [hd] at htry
      obtain rfl : o = .now := htry
      cases k <;> nomatch hcall
    | found m =>
      rw [hd] at htry hholds
      obtain ⟨row, hrow, -, hs, hdue⟩ := hholds
      rcases htry with rfl | ⟨-, rfl⟩
      · cases k <;> nomatch hcall
      · cases k with
        | submit => nomatch hcall
        | poll =>
          obtain rfl : m.id = id := of_decide_eq_true hcall
          exact ⟨⟨m, Or.inr rfl⟩, row, hrow, hs, hdue⟩
    | polled m answer =>
      rw [hd] at htry
      obtain rfl : o = .now := htry
      cases k <;> nomatch hcall
    | stopped =>
      rw [hd] at htry
      nomatch htry
  · cases k <;> nomatch hcall

omit [Unicode] in
/-- A row that is due at a reading is due at every later one. -/
theorem due_le_unixMilli {x : Int} (h : row.nextAttemptAtMS ≤ timeToMillis x) :
    0 < x ∧ row.nextAttemptAtMS ≤ unixMilli x := by
  have hpos := row.check.next
  unfold timeToMillis at h
  split at h
  · omega
  · refine ⟨?_, h⟩
    unfold unixMilli millisecond at h
    omega

omit [Unicode] in
theorem unixMilli_mono {x y : Int} (h : x ≤ y) : unixMilli x ≤ unixMilli y := by
  unfold unixMilli millisecond
  omega

omit [Unicode] in
theorem Settled.due_of_live {due : Int} (h : Settled k due row) (hlive : k.Live row.state) :
    row.nextAttemptAtMS = due := by
  rcases h with ⟨-, hdue⟩ | hdead
  · exact hdue
  · rw [hdead] at hlive
    cases k with
    | submit => rcases hlive with h | h <;> nomatch h
    | poll => nomatch hlive

/-- The row waits until the moment that the answer has set. -/
theorem Waiting.due (hrun : Among timedExec Meanwhile (w.start s) X0 tr p X) {due t : Int}
    (hκ : Schedules w k id due κ) (hret : Returned tr i κ t) (h : Waiting k id tr i X row) :
    row.nextAttemptAtMS = due := by
  obtain ⟨ev, hev, -, -, hshift⟩ := hret
  obtain ⟨κ', -, htimely, hawaits⟩ := awaits_run hrun hκ (i := i)
  have hidle : κ'.duty = .idle := by
    rw [htimely.shift]
    exact h.idle
  cases hawaits (List.getElem?_eq_some_iff.mp hev).1 hshift h.quiet with
  | stopped hd => exact nomatch hidle.symm.trans hd
  | unsettled hd _ =>
    obtain ⟨m, hm⟩ := hκ.answered
    refine absurd hm (not_answered_of_free (Or.inl ?_) m)
    exact hd.symm.trans hidle
  | settled row' hrow' hsettled _ =>
    obtain rfl := Option.some.inj (h.find.symm.trans hrow')
    exact hsettled.due_of_live h.live

/-- **The next call for the record starts at that moment at the earliest.** -/
theorem NextCall.due (hrun : Among timedExec Meanwhile (w.start s) X0 tr p X) {due t u : Int}
    (hκ : Schedules w k id due κ) {j : Nat} (hret : Returned tr i κ t)
    (h : NextCall k id tr i j u) : due ≤ unixMilli u := by
  obtain ⟨ev, hev, -, -, hshift⟩ := hret
  obtain ⟨hij, hno, ev', hev', hcall, rfl⟩ := h
  obtain ⟨p1, X1, p2, X2, hbefore, hmove, -⟩ := hrun.split hev'
  obtain ⟨κ', hsafe, htimely, hawaits⟩ := awaits_run hbefore hκ (i := i)
  have hlen : i < (tr.take j).length := by
    have := (List.getElem?_eq_some_iff.mp hev').1
    rw [length_take]
    omega
  rw [take_take, Nat.min_eq_left hij] at hawaits
  rcases Safe.move hsafe hmove with ⟨hx, -⟩ | ⟨o, c, r, hx, hE, hok, -⟩
  · nomatch hx
  · obtain rfl := Option.some.inj hx
    obtain ⟨⟨m, hd⟩, row, hrow, hlive, hdue⟩ := call_due hok htimely.holds hcall
    cases hawaits hlen hshift hno with
    | stopped hd' => rcases hd with hd | hd <;> exact nomatch hd.symm.trans hd'
    | unsettled hd' _ =>
      obtain ⟨m', ⟨answer, hm⟩ | ⟨answer, hm⟩⟩ := hκ.answered
      · rcases hd with hd | hd <;> exact nomatch hd.symm.trans (hd'.trans hm)
      · rcases hd with hd | hd <;> exact nomatch hd.symm.trans (hd'.trans hm)
    | settled row' hrow' hsettled _ =>
      obtain rfl := Option.some.inj (hrow.symm.trans hrow')
      rw [← hsettled.due_of_live hlive]
      obtain ⟨hpos, hdue⟩ := due_le_unixMilli hdue
      obtain ⟨-, hstart, -, -, -⟩ := timed_cases hE
      have hhead : κ'.head ≤ X1.2 := by
        rcases htimely.head with hzero | hle
        · omega
        · exact hle
      exact le_trans hdue (unixMilli_mono (le_trans hhead hstart))

/-- **What is left of the delay when the call returns.**  In every run of the worker with its times,
    among any Enqueue calls, let a call of the provider return at `t`, in a round whose head was read
    at `κ.head`.

    * It was a Submit that has failed temporarily, and the delay does not overflow: the row is due,
      to the millisecond, no earlier than `t` plus the delay EXACTLY WHEN the delay counted from the
      head of the round reaches that millisecond; and then the next Submit starts no earlier.
    * It was a Submit or Poll that answers Running with a RetryAfter: the row is due no earlier than
      `t` plus RetryAfter EXACTLY WHEN RetryAfter counted from the head of the round, cut to the
      millisecond, reaches that moment; and then the next Poll starts no earlier. -/
theorem backoff_waited {s : SpoolStore} {X0 X : World × Int}
    {tr : TimedTrace} {p : Task Unit} {i : Nat} {κ : Shift} {t : Int}
    (hrun : Among timedExec Meanwhile (w.start s) X0 tr p X) (hret : Returned tr i κ t) :
    (∀ m answer, κ.duty = .submitted m answer → FailedTemporarily answer →
      w.backoff m.attempt ≤ maxDuration →
      (∀ row, Waiting .submit m.id tr i X row →
        ((∀ x, row.nextAttemptAtMS ≤ timeToMillis x →
            unixMilli (t + w.backoff m.attempt) ≤ unixMilli x) ↔
          unixMilli (t + w.backoff m.attempt) ≤ unixMilli (κ.head + w.backoff m.attempt))) ∧
      (∀ j u, NextCall .submit m.id tr i j u →
        unixMilli (t + w.backoff m.attempt) ≤ unixMilli (κ.head + w.backoff m.attempt) →
        unixMilli (t + w.backoff m.attempt) ≤ unixMilli u)) ∧
    (∀ m, κ.Running m → 0 < κ.asked →
      (∀ row, Waiting .poll m.id tr i X row →
        ((∀ x, row.nextAttemptAtMS ≤ timeToMillis x → t + κ.asked ≤ x) ↔
          t + κ.asked ≤ truncateMillis (κ.head + κ.asked))) ∧
      (∀ j u, NextCall .poll m.id tr i j u → t + κ.asked ≤ truncateMillis (κ.head + κ.asked) →
        t + κ.asked ≤ u)) := by
  constructor
  · intro m answer hduty hfail hdelay
    have hκ := schedules_retry (w := w) hduty hfail
    rw [submitRetryDelay_eq hdelay] at hκ
    constructor
    · intro row hrow
      have hdue := hrow.due hrun hκ hret
      constructor
      · intro h
        -- the row is due at the very moment that it says
        rw [← hdue]
        have hat := h (ofMillis row.nextAttemptAtMS) ?_
        · rwa [unixMilli_ofMillis] at hat
        · have hpos := row.check.next
          unfold timeToMillis
          rw [if_neg, unixMilli_ofMillis]
          unfold ofMillis millisecond zeroTime
          omega
      · intro h x hx
        rw [← hdue] at h
        exact le_trans h (due_le_unixMilli hx).2
    · intro j u hnext h
      exact le_trans h (hnext.due hrun hκ hret)
  · intro m hm hasked
    have hκ := schedules_running (w := w) hm hasked
    have htrunc : truncateMillis (κ.head + κ.asked) = ofMillis (unixMilli (κ.head + κ.asked)) := by
      unfold truncateMillis ofMillis unixMilli millisecond
      omega
    constructor
    · intro row hrow
      have hdue := hrow.due hrun hκ hret
      constructor
      · intro h
        rw [htrunc, ← hdue]
        refine h _ ?_
        have hpos := row.check.next
        unfold timeToMillis
        rw [if_neg, unixMilli_ofMillis]
        unfold ofMillis millisecond zeroTime
        omega
      · intro h x hx
        rw [htrunc, ← hdue] at h
        have hx := (due_le_unixMilli hx).2
        unfold ofMillis unixMilli millisecond at *
        omega
    · intro j u hnext h
      have hle := hnext.due hrun hκ hret
      rw [htrunc] at h
      unfold ofMillis unixMilli millisecond at *
      omega

end Runs

/-! ## A call that lasts a minute -/

/-- Every operation takes no time, but a sleep and a Submit, which takes the time `d` and ends with
    `answer`. -/
def slowly (answer : Except GoError SubmissionResult) (d : Int) (X : World × Int) (o : Op) : Timing where
  choice :=
    match o with
    | .now => .time X.2
    | .tx _ => .tx (.run fun _ => X.2)
    | o => calm answer (.error .canceled) o
  start := X.2
  finish :=
    match o with
    | .sleep d' => X.2 + d'
    | .submit _ _ => X.2 + d
    | _ => X.2

/-- Some rounds of the worker, one after another. -/
def sampleRounds [Unicode] (answer : Except GoError SubmissionResult) (d : Int) :
    Nat → World × Int → Option (TimedTrace × World × Int)
  | 0, X => some ([], X)
  | n + 1, X => do
    let round ← runIn timedExec (slowly answer d) 100 (sampleWorker.once sampleStore) X
    if round.1 = .ok () then
      (sampleRounds answer d n round.2.2).map fun rest => (round.2.1 ++ rest.1, rest.2)
    else none

theorem among_of_sampleRounds [Unicode] {answer : Except GoError SubmissionResult} {d : Int} {n : Nat}
    {X X' : World × Int} {tr : TimedTrace} (h : sampleRounds answer d n X = some (tr, X')) :
    Among timedExec Meanwhile (sampleWorker.start sampleStore) X tr
      (sampleWorker.start sampleStore) X' := by
  induction n generalizing X tr with
  | zero =>
    cases h
    exact .start
  | succ n ih =>
    obtain ⟨⟨out, tr1, X1⟩, hround, h⟩ := Option.bind_eq_some_iff.mp h
    dsimp only at h
    split at h
    · rename_i hok
      obtain rfl : out = .ok () := hok
      obtain ⟨⟨tr2, X2⟩, hrest, hx⟩ := Option.map_eq_some_iff.mp h
      cases hx
      exact (among_of_round (runs_of_runIn hround)).trans (ih hrest)
    · nomatch h

/-- A message is enqueued at second 2, and from then on the worker makes its rounds. -/
def WorkedSince2 [Unicode] (tr : TimedTrace) : Prop :=
  ∃ tr0 rec W0 X, Runs exec sampleEnqueued (sampleWorld ⟨[], nodup_nil⟩) tr0 (.ok rec) W0 ∧
    Among timedExec Meanwhile (sampleWorker.start sampleStore) (W0, 2 * second) tr
      (sampleWorker.start sampleStore) X

/-- Event `i` is a first Submit that has ended with `answer`, at `t`, and event `j` the next call of
    the kind `k`, at `u`. -/
def calledTwice (answer : Except GoError SubmissionResult) (k : Wait) (tr : TimedTrace) (i j : Nat)
    (head t u : Int) : Bool :=
  let κ := shiftOf (tr.take (i + 1))
  match κ.duty with
  | .submitted m answer' =>
    decide (answer' = answer ∧ m.attempt = 0 ∧ κ.head = head ∧ i < j) &&
      (tr[i]?.any fun ev => Wait.submit.ends m.id ev.op && decide (ev.choice.finish = t)) &&
      (tr[j]?.any fun ev => k.ends m.id ev.op && decide (ev.choice.start = u)) &&
      ((tr.take j).drop (i + 1)).all fun ev => k.ends m.id ev.op = false
  | _ => false

theorem calledTwice_spec {answer : Except GoError SubmissionResult} {k : Wait} {tr : TimedTrace}
    {i j : Nat} {head t u : Int} (h : calledTwice answer k tr i j head t u = true) :
    ∃ κ m, Returned tr i κ t ∧ κ.head = head ∧ κ.duty = .submitted m answer ∧
      m.attempt = 0 ∧ NextCall k m.id tr i j u := by
  unfold calledTwice at h
  dsimp only at h
  split at h
  · rename_i m answer' hduty
    simp only [Bool.and_eq_true, decide_eq_true_eq, Option.any_eq_true, all_eq_true] at h
    obtain ⟨⟨⟨⟨rfl, hattempt, hhead, hij⟩, ev, hev, hcall, hfinish⟩,
      ev', hev', hcall', hstart⟩, hno⟩ := h
    have hsubmit : ∃ msg id, ev.op = .submit msg id := by
      cases hop : ev.op with
      | submit msg id => exact ⟨msg, id, rfl⟩
      | _ =>
        rw [hop] at hcall
        nomatch hcall
    exact ⟨_, m, ⟨ev, hev, Or.inl hsubmit, hfinish, rfl⟩, hhead, hduty, hattempt, hij, hno,
      ev', hev', hcall', hstart⟩
  · nomatch h

theorem workedSince2_of_run [Unicode] (answer : Except GoError SubmissionResult) (d : Int) (n : Nat)
    (T : TimedTrace → Bool)
    (h : (run exec (calm (.error .canceled) (.error .canceled)) 100 sampleEnqueued
      (sampleWorld ⟨[], nodup_nil⟩)).any (fun x => x.1.toBool &&
        (sampleRounds answer d n (x.2.2, 2 * second)).any fun y => T y.1) = true) :
    ∃ tr, WorkedSince2 tr ∧ T tr = true := by
  obtain ⟨out, tr0, W0, hrun0, hT⟩ := exists_runs_of_run _ _ _ _ _ h
  obtain ⟨hok, hrounds⟩ := Bool.and_eq_true_iff.mp hT
  obtain ⟨⟨tr, X⟩, hrounds, htest⟩ := (Option.any_eq_true _ _).mp hrounds
  cases out with
  | error e => nomatch hok
  | ok rec => exact ⟨tr, ⟨tr0, rec, W0, X, hrun0, among_of_sampleRounds hrounds⟩, htest⟩

/-- **A Submit that ends at once**: if it fails, the next one starts a second later, and if it asks for
    a second, so does the Poll. -/
theorem backoff_waited_at_once :
    letI := Unicode.ascii
    (∃ tr i j κ m, WorkedSince2 tr ∧ Returned tr i κ (2 * second) ∧
      κ.duty = .submitted m (.error .canceled) ∧ FailedTemporarily (.error .canceled) ∧
      NextCall .submit m.id tr i j (3 * second) ∧
      unixMilli (2 * second + sampleWorker.backoff m.attempt) ≤ unixMilli (3 * second)) ∧
    ∃ tr i j κ m, WorkedSince2 tr ∧ Returned tr i κ (2 * second) ∧ κ.Running m ∧ κ.asked = second ∧
      NextCall .poll m.id tr i j (3 * second) ∧ 2 * second + κ.asked ≤ 3 * second := by
  let _ := Unicode.ascii
  constructor
  · obtain ⟨tr, hworked, hT⟩ := workedSince2_of_run (.error .canceled) 0 3
      (calledTwice (.error .canceled) .submit · 9 28 (2 * second) (2 * second) (3 * second))
      (by decide +kernel)
    obtain ⟨κ, m, hret, hhead, hduty, hattempt, hnext⟩ := calledTwice_spec hT
    obtain ⟨tr0, rec, W0, X, -, hrun⟩ := id hworked
    have hfail : FailedTemporarily (.error .canceled) := rfl
    refine ⟨tr, 9, 28, κ, m, hworked, hret, hduty, hfail, hnext, ?_⟩
    refine ((backoff_waited hrun hret).1 m _ hduty hfail ?_).2 28 _ hnext ?_
    · rw [hattempt]
      decide
    · rw [hhead]
  · obtain ⟨tr, hworked, hT⟩ := workedSince2_of_run (.ok (runningFor second)) 0 3
      (calledTwice (.ok (runningFor second)) .poll · 9 21 (2 * second) (2 * second) (3 * second))
      (by decide +kernel)
    obtain ⟨κ, m, hret, hhead, hduty, -, hnext⟩ := calledTwice_spec hT
    obtain ⟨tr0, rec, W0, X, -, hrun⟩ := id hworked
    have hasked : κ.asked = second := by
      unfold Shift.asked
      rw [hduty]
      rfl
    have hrunning : κ.Running m := Or.inl ⟨_, hduty, rfl⟩
    refine ⟨tr, 9, 21, κ, m, hworked, hret, hrunning, hasked, hnext, ?_⟩
    refine ((backoff_waited hrun hret).2 m hrunning (by rw [hasked]; decide)).2 21 _ hnext ?_
    rw [hhead, hasked]
    decide

/-- **A Submit that fails after a minute**: the next one starts at once. -/
theorem backoff_used_up :
    letI := Unicode.ascii
    ∃ tr i j κ m, WorkedSince2 tr ∧ Returned tr i κ (62 * second) ∧
      κ.duty = .submitted m (.error .canceled) ∧ FailedTemporarily (.error .canceled) ∧
      sampleWorker.backoff m.attempt = second ∧ NextCall .submit m.id tr i j (62 * second) ∧
      ¬ unixMilli (62 * second + sampleWorker.backoff m.attempt) ≤ unixMilli (62 * second) := by
  let _ := Unicode.ascii
  obtain ⟨tr, hworked, hT⟩ := workedSince2_of_run (.error .canceled) (60 * second) 2
    (calledTwice (.error .canceled) .submit · 9 22 (2 * second) (62 * second) (62 * second))
    (by decide +kernel)
  obtain ⟨κ, m, hret, -, hduty, hattempt, hnext⟩ := calledTwice_spec hT
  have hfail : FailedTemporarily (.error .canceled) := rfl
  have hdelay : sampleWorker.backoff m.attempt = second := by
    rw [hattempt]
    decide
  refine ⟨tr, 9, 22, κ, m, hworked, hret, hduty, hfail, hdelay, hnext, ?_⟩
  rw [hdelay]
  decide

end SmtpCloudRelay.Spool
