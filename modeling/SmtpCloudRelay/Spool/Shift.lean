/-
  THE WORKER IN TIME: what a shift does to the table, and what a shift knows about its row.

  `Steps` looks at the worker without its clock.  Here the same is done for shifts: `shift_step` goes
  through the operations once and says what a step does to the table, with the reading at the head of
  the round, which decides what is due and what is computed; `Holds` is what the worker knows about
  the row of the record it holds.

  The shift is a function of what the worker has done (`shiftOf`), so that a statement about a run
  can speak of "the reading that this call was made with".
-/
import SmtpCloudRelay.Lib.Among
import SmtpCloudRelay.Spool.Steps

namespace SmtpCloudRelay.Spool

open Go Lib Prog

/-! ## The shift that a trace leads to -/

/-- The shift of a worker that has done `tr` since it started. -/
def shiftOf {C W : Type} (tr : List (Event spoolSig C W)) : Shift :=
  tr.foldl (fun κ ev => κ.after ev.op ev.res) ⟨.idle, 0, 0⟩

@[simp] theorem shiftOf_concat {C W : Type} (tr : List (Event spoolSig C W))
    (ev : Event spoolSig C W) : shiftOf (tr ++ [ev]) = (shiftOf tr).after ev.op ev.res := by
  unfold shiftOf
  rw [List.foldl_append]
  rfl

section Steps

variable [Unicode]

/-! ## What a shift does -/

/-- What a step of a shift does to it and to the table. -/
inductive ShiftStep (w : Worker) (κ : Shift) (t : Records) : Op → Shift → Records → Prop where
  | quiet {o : Op} {κ' : Shift} (hcall : o.isCall = false) (hduty : κ'.duty = κ.duty)
      (hhead : κ.duty ≠ .idle → κ'.head = κ.head) : ShiftStep w κ t o κ' t
  | stop {tx : Tx} {κ' : Shift} (hduty : κ'.duty = .stopped) : ShiftStep w κ t (.tx tx) κ' t
  | claim {row row' : Row} {stamp : Int} {κ' : Shift} (hidle : κ.duty = .idle)
      (hrow : t.find row.id = some row) (hs : row.state = .queued)
      (hdue : row.nextAttemptAtMS ≤ timeToMillis κ.head)
      (hcols : row'.toColumns = claimSet stamp row.toColumns)
      (hκ' : κ' = { κ with duty := .claimed (row.metadata.claimed stamp) } ∨ κ'.duty = .stopped) :
      ShiftStep w κ t (.tx (.claim κ.head)) κ' (t.replace row')
  | find {row : Row} (hidle : κ.duty = .idle) (hrow : t.find row.id = some row)
      (hs : row.state = .submitted) (hdue : row.nextAttemptAtMS ≤ timeToMillis κ.head) :
      ShiftStep w κ t (.tx (.nextSubmitted κ.head)) { κ with duty := .found row.metadata } t
  | submit {m : Metadata} {msg : Message} (hclaimed : κ.duty = .claimed m)
      (answer : Except GoError SubmissionResult) :
      ShiftStep w κ t (.submit msg m.id) { κ with duty := .submitted m answer } t
  | poll {m : Metadata} (hfound : κ.duty = .found m)
      (hin : w.timedOut κ.head m.toRecord = false) (answer : Except GoError SubmissionStatus) :
      ShiftStep w κ t (.poll m.id m.operationID) { κ with duty := .polled m answer } t
  | update {m : Metadata} {rec : Record} {row row' : Row} {κ' : Shift} (hw : κ.Writes w m rec)
      (hrow : t.find rec.id = some row) (hs : row.state = m.state)
      (hcols : row'.toColumns = rec.columns) (hκ' : κ'.duty = .idle ∨ κ'.duty = .stopped) :
      ShiftStep w κ t (.tx (.update m.state rec)) κ' (t.replace row')

variable {w : Worker} {κ : Shift} {o : Op} {ch : Choice} {W W' : World} {t : Records}

/-- A step that is neither a transaction nor a call of the provider. -/
theorem quiet_step {r : o.Res} (h : exec o ch W = some (r, W')) (htx : o.isTx = false)
    (hcall : o.isCall = false) : ShiftStep w κ W.rows o (κ.after o r) W'.rows := by
  rw [exec_rows h htx]
  refine .quiet hcall ?_ ?_
  · rw [after_duty]
    cases o with
    | tx tx => nomatch htx
    | submit msg id | poll id op => nomatch hcall
    | _ => rfl
  · intro hidle
    cases o with
    | now =>
      obtain ⟨duty, head, stamp⟩ := κ
      cases duty with
      | idle => exact absurd rfl hidle
      | _ => rfl
    | _ => rfl

theorem shift_claim {r : Except GoError (Option Metadata)} (hidle : κ.duty = .idle)
    (h : exec (.tx (.claim κ.head)) ch W = some (r, W')) :
    ShiftStep w κ W.rows (.tx (.claim κ.head)) (κ.after (.tx (.claim κ.head)) r) W'.rows := by
  obtain ⟨-, ⟨clock, a, hbody, hr⟩ | ⟨hrows, e, rfl⟩⟩ := exec_tx_cases h
  · rcases claimBody_ok hbody with ⟨rfl, hrows⟩ | ⟨row, row', rfl, -, hf, hs, hdue, hcols, hrows⟩
    · rw [hrows]
      rcases hr with rfl | ⟨e, rfl⟩
      · exact .quiet rfl rfl fun _ => rfl
      · exact .stop rfl
    · rw [hrows]
      rcases hr with rfl | ⟨e, rfl⟩
      · exact .claim hidle hf hs hdue hcols (Or.inl rfl)
      · exact .claim hidle hf hs hdue hcols (Or.inr rfl)
  · rw [hrows]
    exact .stop rfl

theorem shift_nextSubmitted {r : Except GoError (Option Metadata)} (hidle : κ.duty = .idle)
    (h : exec (.tx (.nextSubmitted κ.head)) ch W = some (r, W')) :
    ShiftStep w κ W.rows (.tx (.nextSubmitted κ.head)) (κ.after (.tx (.nextSubmitted κ.head)) r)
      W'.rows := by
  obtain ⟨-, ⟨clock, a, hbody, hr⟩ | ⟨hrows, e, rfl⟩⟩ := exec_tx_cases h
  · obtain ⟨hrows, hfound⟩ := nextSubmittedBody_ok hbody
    rw [hrows]
    rcases hr with rfl | ⟨e, rfl⟩
    · rcases hfound with ⟨rfl, -⟩ | ⟨row, rfl, -, hf, hs, hdue⟩
      · exact .quiet rfl rfl fun _ => rfl
      · exact .find hidle hf hs hdue
    · exact .stop rfl
  · rw [hrows]
    exact .stop rfl

theorem shift_update {m : Metadata} {rec : Record} {r : Except GoError Unit} (hw : κ.Writes w m rec)
    (h : exec (.tx (.update m.state rec)) ch W = some (r, W')) :
    ShiftStep w κ W.rows (.tx (.update m.state rec)) (κ.after (.tx (.update m.state rec)) r)
      W'.rows := by
  obtain ⟨-, ⟨clock, a, hbody, hr⟩ | ⟨hrows, e, rfl⟩⟩ := exec_tx_cases h
  · obtain ⟨row, row', hf, hs, hcols, hrows⟩ := updateBody_ok hbody
    rw [hrows]
    rcases hr with rfl | ⟨e, rfl⟩
    · exact .update hw hf hs hcols (Or.inl rfl)
    · exact .update hw hf hs hcols (Or.inr rfl)
  · rw [hrows]
    exact .stop rfl

/-- **A step that a shift allows is one of its steps.** -/
theorem shift_step {r : o.Res} (hok : κ.Allows w o) (h : exec o ch W = some (r, W')) :
    ShiftStep w κ W.rows o (κ.after o r) W'.rows := by
  rcases hok with htry | ⟨m, rec, hw, rfl⟩
  · have hnow : o = .now → ShiftStep w κ W.rows o (κ.after o r) W'.rows := by
      rintro rfl
      exact quiet_step h rfl rfl
    unfold Shift.Tries at htry
    cases hd : κ.duty with
    | idle =>
      rw [hd] at htry
      rcases htry with rfl | rfl | ⟨d, rfl⟩ | rfl | rfl
      · exact hnow rfl
      · exact quiet_step h rfl rfl
      · exact quiet_step h rfl rfl
      · exact shift_claim hd h
      · exact shift_nextSubmitted hd h
    | claimed m =>
      rw [hd] at htry
      rcases htry with rfl | hc | ⟨msg, rfl⟩
      · exact hnow rfl
      · exact quiet_step h hc.isTx hc.isCall
      · rw [(exec_submit h).1, show κ.after (.submit msg m.id) r =
          { κ with duty := .submitted m r } by
            show { κ with duty := κ.duty.submitAnswered r } = _
            rw [hd]
            rfl]
        exact .submit hd r
    | submitted m answer =>
      rw [hd] at htry
      exact hnow htry
    | found m =>
      rw [hd] at htry
      rcases htry with rfl | ⟨hin, rfl⟩
      · exact hnow rfl
      · rw [(exec_poll h).1, show κ.after (.poll m.id m.operationID) r =
          { κ with duty := .polled m r } by
            show { κ with duty := κ.duty.pollAnswered r } = _
            rw [hd]
            rfl]
        exact .poll hd hin r
    | polled m answer =>
      rw [hd] at htry
      exact hnow htry
    | stopped =>
      rw [hd] at htry
      nomatch htry
  · exact shift_update hw h

/-- An UPDATE is allowed as a write only. -/
theorem Shift.Allows.writes {st : State} {rec : Record} (h : κ.Allows w (.tx (.update st rec))) :
    ∃ m, κ.Writes w m rec := by
  rcases h with htry | ⟨m, rec', hw, hx⟩
  · unfold Shift.Tries at htry
    cases hd : κ.duty with
    | idle =>
      rw [hd] at htry
      rcases htry with h | h | ⟨_, h⟩ | h | h <;> nomatch h
    | found m =>
      rw [hd] at htry
      rcases htry with h | ⟨-, h⟩ <;> nomatch h
    | claimed m =>
      rw [hd] at htry
      rcases htry with h | h | ⟨_, h⟩ <;> nomatch h
    | submitted m answer | polled m answer | stopped =>
      rw [hd] at htry
      nomatch htry
  · cases hx
    exact ⟨m, hw⟩

/-! ## What a shift knows about its row -/

/-- The metadata of a claimed record says what its row says, and the row was due at `head`. -/
structure Metadata.Holds (m : Metadata) (head : Int) (row : Row) : Prop where
  id : m.id = row.id
  working : m.state = .working
  state : row.state = .working
  attempt : m.attempt = row.attempt
  next : m.nextAttemptAt = ofMillis row.nextAttemptAtMS
  due : row.nextAttemptAtMS ≤ timeToMillis head

/-- What the worker holds is what stands in the table. -/
def Shift.Holds (κ : Shift) (t : Records) : Prop :=
  match κ.duty with
  | .claimed m | .submitted m _ => ∃ row, t.find m.id = some row ∧ m.Holds κ.head row
  | .found m | .polled m _ => ∃ row, t.find m.id = some row ∧ row.metadata = m ∧
      row.state = .submitted ∧ row.nextAttemptAtMS ≤ timeToMillis κ.head
  | _ => True

omit [Unicode] in
theorem Shift.Holds.of_same {κ' : Shift} (h : κ.Holds t) (hduty : κ'.duty = κ.duty)
    (hhead : κ.duty ≠ .idle → κ'.head = κ.head) : κ'.Holds t := by
  unfold Shift.Holds at h ⊢
  rw [hduty]
  cases hd : κ.duty with
  | idle | stopped => trivial
  | claimed m | submitted m answer | found m | polled m answer =>
    rw [hd] at h hhead
    rw [hhead (by simp)]
    exact h

omit [Unicode] in
theorem Shift.holds_of_free (h : κ.duty = .idle ∨ κ.duty = .stopped) : κ.Holds t := by
  unfold Shift.Holds
  rcases h with h | h <;> rw [h] <;> trivial

/-- **The worker's own steps** keep what it knows. -/
theorem Shift.Holds.step {κ' : Shift} {t' : Records} (h : κ.Holds t)
    (hstep : ShiftStep w κ t o κ' t') : κ'.Holds t' := by
  cases hstep with
  | quiet _ hduty hhead => exact h.of_same hduty hhead
  | stop hduty => exact Shift.holds_of_free (Or.inr hduty)
  | @claim row row' stamp _ hidle hrow hs hdue hcols hκ' =>
    rcases hκ' with rfl | hκ'
    · have hid : row'.id = row.id := by
        rw [hcols]
        rfl
      refine ⟨row', find_replace_self hrow hid, hid.symm, rfl, ?_, ?_, ?_, ?_⟩
      · rw [hcols]
        rfl
      · rw [hcols]
        rfl
      · rw [hcols]
        rfl
      · rw [hcols]
        exact hdue
    · exact Shift.holds_of_free (Or.inr hκ')
  | find hidle hrow hs hdue => exact ⟨_, hrow, rfl, hs, hdue⟩
  | @submit m msg hclaimed answer =>
    unfold Shift.Holds at h
    rw [hclaimed] at h
    exact h
  | @poll m hfound hin answer =>
    unfold Shift.Holds at h
    rw [hfound] at h
    exact h
  | update hw hrow hs hcols hκ' => exact Shift.holds_of_free hκ'

/-! ## The others -/

/-- A step that an Enqueue call may take. -/
def SessionStep (W W' : World) : Prop := ∃ o c r, ClientOp o ∧ exec o c W = some (r, W')

/-- **A session leaves the rows that are there.** -/
theorem SessionStep.find (h : SessionStep W W') {id : GoString} {row : Row}
    (hrow : W.rows.find id = some row) : W'.rows.find id = some row := by
  obtain ⟨o, c, r, ho, hE⟩ := h
  obtain ⟨hstep, -⟩ := client_step ho hE
  generalize W'.rows = t' at hstep ⊢
  generalize W.rows = t at hstep hrow
  cases hstep with
  | quiet => exact hrow
  | @insert new _ _ _ hfree hcols =>
    rw [Table.find_insert, if_neg]
    · exact hrow
    · rintro rfl
      exact hfree (Table.has_of_find hrow)

/-- A row that a session has added is queued. -/
theorem SessionStep.queued (h : SessionStep W W') {id : GoString} {row : Row}
    (hrow : W'.rows.find id = some row) : W.rows.find id = some row ∨ row.state = .queued := by
  obtain ⟨o, c, r, ho, hE⟩ := h
  obtain ⟨hstep, -⟩ := client_step ho hE
  generalize W'.rows = t' at hstep hrow
  generalize W.rows = t at hstep ⊢
  cases hstep with
  | quiet => exact Or.inl hrow
  | @insert new _ _ _ hfree hcols =>
    rw [Table.find_insert] at hrow
    split at hrow
    · obtain rfl := Option.some.inj hrow
      refine Or.inr ?_
      rw [hcols]
      rfl
    · exact Or.inl hrow

/-- **Sessions** leave what the worker knows. -/
theorem Shift.Holds.session (h : κ.Holds W.rows) (hstep : SessionStep W W') : κ.Holds W'.rows := by
  unfold Shift.Holds at h ⊢
  cases hd : κ.duty with
  | idle | stopped => trivial
  | claimed m | submitted m answer | found m | polled m answer =>
    rw [hd] at h
    exact h.imp fun row hrow => ⟨hstep.find hrow.1, hrow.2⟩

/-! ## Rounds -/

/-- A round of the worker that goes well leads from the head of the loop to the head of the loop. -/
theorem among_of_round {C W : Type} {E : Exec spoolSig C W} {Env : W → W → Prop} {s : SpoolStore}
    {W1 W2 : W} {tr : List (Event spoolSig C W)} (h : Runs E (w.once s) W1 tr (.ok ()) W2) :
    Among E Env (w.start s) W1 tr (w.start s) W2 := by
  refine Runs.among_round ?_
  have hround : Runs E ((w.once s).attempt >>= Worker.afterRound : Task (Unit ⊕ Unit)) W1
      (tr ++ []) (.ok (.inl ())) W2 := Runs.bind h.attempt (.ret _ W2)
  rw [List.append_nil] at hround
  exact hround

end Steps

end SmtpCloudRelay.Spool
