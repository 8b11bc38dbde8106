/-
  THE TRANSACTIONS OF THE RECORD STORE.

  Every access to SQLite is one transaction (`BEGIN IMMEDIATE … COMMIT` on the only connection) or
  one query.  Its BODY, what the statements between BEGIN and COMMIT do to the table, is a function
  `Tx.body`; a body that ends in an error is rolled back.  How the transaction as a whole ends is
  decided outside, and `Tx.perform` has the three endings there are:

  * `run`: the statements are executed and what they did is committed, or they fail and nothing is;
  * `fault`: some call of database/sql fails (or the context has expired there) and nothing is
    applied; the error names the call, as the code wraps it;
  * `lost`: the transaction is reported as failed, and what its statements did is there all the same
    (`Mishap`); for an INSERT that these are all the endings is `Sql.insert_visible`.

  The clock readings made inside a transaction are the function `clock`, reading by reading.

  The second half says what a body that succeeds has done, once for each transaction: the rest of
  the development uses these lemmas and never looks into a body again.
-/
import SmtpCloudRelay.Spool.Types
import Mathlib.Data.List.Sort

namespace SmtpCloudRelay.Spool

open Go Lib List

/-! ## Reading rows -/

/-- Byte strings in the order of SQLite's BINARY collation. -/
def bytesLe : GoString → GoString → Bool
  | [], _ => true
  | _ :: _, [] => false
  | a :: s, b :: t => a < b || (a = b && bytesLe s t)

/-- ORDER BY created_at_ms ASC, id ASC. -/
def createdBefore (r r' : Row) : Prop :=
  (r.createdAtMS < r'.createdAtMS ∨ (r.createdAtMS = r'.createdAtMS ∧ bytesLe r.id r'.id = true))

instance : DecidableRel createdBefore := fun _ _ => inferInstanceAs (Decidable (_ ∨ _))

/-- ORDER BY next_attempt_at_ms ASC, created_at_ms ASC, id ASC. -/
def readyBefore (r r' : Row) : Prop :=
  (r.nextAttemptAtMS < r'.nextAttemptAtMS ∨
    (r.nextAttemptAtMS = r'.nextAttemptAtMS ∧ createdBefore r r'))

instance : DecidableRel readyBefore := fun _ _ => inferInstanceAs (Decidable (_ ∨ _))

/-- The first row in state `s` that is due at `nowMS`. -/
def selectReady (t : Records) (s : State) (nowMS : Int) : Option Row :=
  ((t.rows.filter fun r => r.state = s ∧ r.nextAttemptAtMS ≤ nowMS).insertionSort readyBefore).head?

/-- All rows in state `s`. -/
def selectState (t : Records) (s : State) : List Row :=
  (t.rows.filter fun r => r.state = s).insertionSort createdBefore

/-! ## What database/sql reports -/

/-- The cause of a failed call: the context has ended, a constraint is violated, or the driver
    reports anything else. -/
inductive DbError where
  | canceled
  | deadlineExceeded
  | constraint
  | driver (text : GoString)
  deriving DecidableEq

/-- The Go error of a failed call. -/
def DbError.toError : DbError → GoError
  | .canceled => .canceled
  | .deadlineExceeded => .deadlineExceeded
  | .constraint => .foreign .plain (lit "constraint failed")
  | .driver text => .foreign .plain text

/-- UPDATE … WHERE id = ? AND state = ?, with the number of rows it affects. -/
def updateWhere (t : Records) (id : GoString) (s : State) (set : Columns → Columns) :
    Except DbError (Nat × Records) :=
  match t.find id with
  | none => .ok (0, t)
  | some row =>
    if row.state = s then
      if h : (set row.toColumns).Check then .ok (1, t.replace ⟨set row.toColumns, h⟩)
      else .error .constraint
    else .ok (0, t)

/-! ## The bodies -/

/-- `recordRecoverySnapshot`; the set of valid ids is a list. -/
structure Snapshot where
  requeued : List Metadata
  submitted : List Metadata
  validIDs : List GoString

/-- The columns that a claim sets. -/
def claimSet (stamp : Int) (c : Columns) : Columns :=
  { c with state := .working, updatedAtMS := timeToMillis stamp }

/-- The metadata that a claim hands out. -/
def Metadata.claimed (m : Metadata) (stamp : Int) : Metadata :=
  { m with state := .working, updatedAt := stamp }

/-- The columns that recovery sets in a stale working row. -/
def requeueSet (now stamp : Int) (c : Columns) : Columns :=
  { c with
    state := .queued
    nextAttemptAtMS := timeToMillis now
    operationID := none
    operationLocation := none
    providerMessageID := none
    firstSubmittedAtMS := none
    updatedAtMS := timeToMillis stamp }

/-- The metadata of a stale working row once recovery has requeued it. -/
def Metadata.requeued (m : Metadata) (now stamp : Int) : Metadata :=
  { m with
    state := .queued
    nextAttemptAt := now
    operationID := []
    operationLocation := []
    providerMessageID := []
    firstSubmittedAt := zeroTime
    updatedAt := stamp }

section Bodies

variable [Unicode]

/-- INSERT of `insertRecord`. -/
def insertBody (rec : Record) (t : Records) : Except GoError (Unit × Records) :=
  let refused : GoError :=
    .wrapStoreError (lit "insert record " ++ quote rec.id) DbError.constraint.toError
  if h : rec.columns.Check then
    if hk : t.Has rec.id then .error refused
    else .ok ((), t.insert ⟨rec.columns, h⟩ hk)
  else .error refused

/-- UPDATE of `updateRecord`, which has to affect one row. -/
def updateBody (currentState : State) (updated : Record) (t : Records) :
    Except GoError (Unit × Records) :=
  match updateWhere t updated.id currentState fun c => { updated.columns with id := c.id } with
  | .error e => .error (.wrapStoreError (lit "update record " ++ quote updated.id) e.toError)
  | .ok (1, t') => .ok ((), t')
  | .ok _ => .error (.new (lit "spool record " ++ quote updated.id ++ lit " not found in state " ++
      quote currentState.text))

/-- SELECT and UPDATE of `claimReadyMetadata`. -/
def claimBody (now : Int) (clock : Nat → Int) (t : Records) :
    Except GoError (Option Metadata × Records) :=
  match selectReady t .queued (timeToMillis now) with
  | none => .ok (none, t)
  | some row =>
    match scanMetadata row with
    | .error e => .error e
    | .ok m =>
      match updateWhere t m.id .queued (claimSet (clock 0)) with
      | .error e => .error (.wrapStoreError (lit "claim record " ++ quote m.id) e.toError)
      | .ok (1, t') => .ok (some (m.claimed (clock 0)), t')
      | .ok _ => .error (.new (lit "spool record " ++ quote m.id ++ lit " was not claimable"))

/-- `queryAllIDs`. -/
def queryAllIDs (t : Records) : Except GoError (List GoString) :=
  t.rows.mapM fun row =>
    ((validateCanonicalRecordID row.id).mapError (.wrapStoreError (lit "validate spool ids"))).map
      fun _ => row.id

/-- The loop of `recoverMetadata` over the stale working rows; `i` clock readings were made. -/
def requeueAll (now : Int) (clock : Nat → Int) :
    Nat → List Metadata → Records → Except GoError (List Metadata × Records)
  | _, [], t => .ok ([], t)
  | i, m :: ms, t =>
    match updateWhere t m.id .working (requeueSet now (clock i)) with
    | .error e =>
      .error (.wrapStoreError (lit "requeue stale working record " ++ quote m.id) e.toError)
    | .ok (_, t1) =>
      (requeueAll now clock (i + 1) ms t1).map fun x => (m.requeued now (clock i) :: x.1, x.2)

/-- The queries and updates of `recoverMetadata`. -/
def recoverBody (now : Int) (clock : Nat → Int) (t : Records) :
    Except GoError (Snapshot × Records) := do
  let working ← (selectState t .working).mapM scanMetadata
  let submitted ← (selectState t .submitted).mapM scanMetadata
  let validIDs ← queryAllIDs t
  let (requeued, t') ← requeueAll now clock 0 working t
  pure (⟨requeued, submitted, validIDs⟩, t')

/-- The query of `nextSubmittedReady`. -/
def nextSubmittedBody (now : Int) (t : Records) : Except GoError (Option Metadata × Records) :=
  match selectReady t .submitted (timeToMillis now) with
  | none => .ok (none, t)
  | some row => (scanMetadata row).map fun m => (some m, t)

end Bodies

/-! ## Transactions as a whole -/

/-- The accesses to the database. -/
inductive Tx where
  | insert (rec : Record)
  | claim (now : Int)
  | update (currentState : State) (updated : Record)
  | recover (now : Int)
  | nextSubmitted (now : Int)

/-- What each of them answers. -/
def Tx.Answer : Tx → Type
  | .insert _ => Unit
  | .claim _ => Option Metadata
  | .update _ _ => Unit
  | .recover _ => Snapshot
  | .nextSubmitted _ => Option Metadata

/-- The calls of database/sql that can fail. -/
inductive Stage where
  | acquire
  | begin
  | query
  | scan
  | iterate
  | queryIDs
  | scanIDs
  | iterateIDs
  | exec (id : GoString)
  | rowsAffected (id : GoString)
  | commit
  deriving DecidableEq

/-- How what a transaction did can be there although the transaction is reported as failed. -/
inductive Mishap where
  /-- COMMIT is applied, and its answer is an error. -/
  | commit
  /-- COMMIT is applied, and the connection fails to close after it. -/
  | close
  /-- The context has ended before COMMIT: neither COMMIT nor ROLLBACK is executed, and the transaction
      stays open on the only connection. -/
  | leftOpen

/-- How a transaction ends. -/
inductive TxOutcome where
  /-- No call fails by itself. -/
  | run (clock : Nat → Int)
  /-- A call fails, and nothing is applied. -/
  | fault (stage : Stage) (cause : DbError)
  /-- The transaction is reported as failed, and what it did is there. -/
  | lost (clock : Nat → Int) (how : Mishap) (cause : DbError)

section Perform

variable [Unicode]

/-- What a transaction does between BEGIN and COMMIT. -/
def Tx.body : (tx : Tx) → (Nat → Int) → Records → Except GoError (tx.Answer × Records)
  | .insert rec, _, t => insertBody rec t
  | .claim now, clock, t => claimBody now clock t
  | .update s rec, _, t => updateBody s rec t
  | .recover now, clock, t => recoverBody now clock t
  | .nextSubmitted now, _, t => nextSubmittedBody now t

/-- The operation that the code names when a call fails; `none` where the transaction makes no such
    call. -/
def Tx.stageOp : Tx → Stage → Option GoString
  | .nextSubmitted _, .query => some (lit "query spool metadata")
  | .nextSubmitted _, .scan => some (lit "scan spool metadata")
  | .nextSubmitted _, .iterate => some (lit "iterate spool metadata")
  | .nextSubmitted _, _ => none
  | _, .acquire => some (lit "acquire sqlite connection")
  | _, .begin => some (lit "begin immediate sqlite transaction")
  | _, .commit => some (lit "commit sqlite transaction")
  | .insert rec, .exec _ => some (lit "insert record " ++ quote rec.id)
  | .insert _, _ => none
  | .update _ rec, .exec _ => some (lit "update record " ++ quote rec.id)
  | .update _ rec, .rowsAffected _ => some (lit "read update result for " ++ quote rec.id)
  | .update _ _, _ => none
  | .claim _, .exec id => some (lit "claim record " ++ quote id)
  | .claim _, .rowsAffected id => some (lit "read claim result for " ++ quote id)
  | .recover _, .exec id => some (lit "requeue stale working record " ++ quote id)
  | .recover _, .queryIDs => some (lit "query spool ids")
  | .recover _, .scanIDs => some (lit "scan spool id")
  | .recover _, .iterateIDs => some (lit "iterate spool ids")
  | _, .query => some (lit "query spool metadata")
  | _, .scan => some (lit "scan spool metadata")
  | _, .iterate => some (lit "iterate spool metadata")
  | _, _ => none

/-- The operation that is named then. -/
def Mishap.op : Mishap → GoString
  | .close => lit "close sqlite connection"
  | _ => lit "commit sqlite transaction"

/-- The query of `nextSubmittedReady` runs outside a transaction: nothing is committed. -/
def Tx.commits : Tx → Bool
  | .nextSubmitted _ => false
  | _ => true

/-- A transaction with its ending: the answer and the table after it. -/
def Tx.perform (tx : Tx) (t : Records) : TxOutcome → Option (Except GoError tx.Answer × Records)
  | .run clock =>
    match tx.body clock t with
    | .ok (a, t') => some (.ok a, t')
    | .error e => some (.error e, t)
  | .fault stage cause =>
    (tx.stageOp stage).map fun op => (.error (.wrapStoreError op cause.toError), t)
  | .lost clock how cause =>
    match tx.commits, tx.body clock t with
    | true, .ok (_, t') => some (.error (.wrapStoreError how.op cause.toError), t')
    | _, _ => none

end Perform

/-! ## What a body that succeeds has done -/

theorem selectReady_spec {t : Records} {s : State} {nowMS : Int} {row : Row}
    (h : selectReady t s nowMS = some row) :
    t.find row.id = some row ∧ row.state = s ∧ row.nextAttemptAtMS ≤ nowMS := by
  have hmem : row ∈ (t.rows.filter fun r => r.state = s ∧ r.nextAttemptAtMS ≤ nowMS) :=
    (perm_insertionSort readyBefore _).mem_iff.mp (mem_of_mem_head? h)
  rw [mem_filter] at hmem
  have hcond := of_decide_eq_true hmem.2
  exact ⟨Table.mem_iff.mp hmem.1, hcond.1, hcond.2⟩

theorem mem_selectState {t : Records} {s : State} {row : Row} :
    row ∈ selectState t s ↔ t.find row.id = some row ∧ row.state = s := by
  unfold selectState
  rw [(perm_insertionSort _ _).mem_iff, mem_filter, ← Table.mem_iff]
  simp

/-- The rows that are selected are distinct, being rows of the table. -/
theorem selectState_nodup (t : Records) (s : State) :
    ((selectState t s).map fun row => row.id).Nodup := by
  have hperm : (selectState t s).Perm (t.rows.filter fun r => r.state = s) := perm_insertionSort _ _
  exact (hperm.map _).nodup_iff.mpr (t.nodup.sublist (filter_sublist.map _))

/-- An UPDATE affects no row, or rewrites the one row with the id, which was in the state asked
    for. -/
theorem updateWhere_spec {t t' : Records} {id : GoString} {s : State} {set : Columns → Columns}
    {n : Nat} (h : updateWhere t id s set = .ok (n, t')) :
    (n = 0 ∧ t' = t ∧ ∀ row, t.find id = some row → row.state ≠ s) ∨
    (n = 1 ∧ ∃ row row', t.find id = some row ∧ row.state = s ∧
      row'.toColumns = set row.toColumns ∧ t' = t.replace row') := by
  unfold updateWhere at h
  cases hf : t.find id with
  | none =>
    simp only [hf, Except.ok.injEq, Prod.mk.injEq] at h
    exact Or.inl ⟨h.1.symm, h.2.symm, fun row hrow => nomatch hrow⟩
  | some row =>
    simp only [hf] at h
    by_cases hs : row.state = s
    · rw [if_pos hs] at h
      by_cases hc : (set row.toColumns).Check
      · rw [dif_pos hc] at h
        simp only [Except.ok.injEq, Prod.mk.injEq] at h
        exact Or.inr ⟨h.1.symm, row, ⟨_, hc⟩, rfl, hs, rfl, h.2.symm⟩
      · rw [dif_neg hc] at h
        nomatch h
    · rw [if_neg hs] at h
      simp only [Except.ok.injEq, Prod.mk.injEq] at h
      refine Or.inl ⟨h.1.symm, h.2.symm, fun row' hrow' => ?_⟩
      cases hrow'
      exact hs

section Specs

variable [Unicode] {t t' : Records}

theorem insertBody_ok {rec : Record} {u : Unit} (h : insertBody rec t = .ok (u, t')) :
    ∃ (row : Row) (hk : ¬ t.Has row.id), row.toColumns = rec.columns ∧ t' = t.insert row hk := by
  unfold insertBody at h
  by_cases hc : rec.columns.Check
  · by_cases hk : t.Has rec.id
    · simp [hc, hk] at h
    · simp only [hc, hk, dif_pos, dif_neg, not_false_eq_true, Except.ok.injEq, Prod.mk.injEq] at h
      exact ⟨⟨_, hc⟩, hk, rfl, h.2.symm⟩
  · simp [hc] at h

theorem updateBody_ok {s : State} {rec : Record} {u : Unit} (h : updateBody s rec t = .ok (u, t')) :
    ∃ row row', t.find rec.id = some row ∧ row.state = s ∧ row'.toColumns = rec.columns ∧
      t' = t.replace row' := by
  unfold updateBody at h
  cases hu : updateWhere t rec.id s fun c => { rec.columns with id := c.id } with
  | error e =>
    rw [hu] at h
    nomatch h
  | ok x =>
    obtain ⟨n, t1⟩ := x
    rw [hu] at h
    rcases updateWhere_spec hu with ⟨rfl, -, -⟩ | ⟨rfl, row, row', hf, hs, hcols, rfl⟩
    · nomatch h
    · cases h
      -- the id column keeps the id that the WHERE clause asked for
      have hid : row.id = rec.columns.id := find_id hf
      refine ⟨row, row', hf, hs, ?_, rfl⟩
      rw [hcols, hid]

variable {now : Int} {clock : Nat → Int} {row' row : Row} {id : GoString} {tx : Tx}

theorem claimBody_ok {m? : Option Metadata} (h : claimBody now clock t = .ok (m?, t')) :
    (m? = none ∧ t' = t) ∨
    ∃ row row', m? = some (row.metadata.claimed (clock 0)) ∧ Canonical row.id ∧
      t.find row.id = some row ∧ row.state = .queued ∧
      row.nextAttemptAtMS ≤ timeToMillis now ∧
      row'.toColumns = claimSet (clock 0) row.toColumns ∧ t' = t.replace row' := by
  unfold claimBody at h
  cases hsel : selectReady t .queued (timeToMillis now) with
  | none =>
    simp only [hsel, Except.ok.injEq, Prod.mk.injEq] at h
    exact Or.inl ⟨h.1.symm, h.2.symm⟩
  | some row =>
    simp only [hsel] at h
    obtain ⟨hfind, hstate, hdue⟩ := selectReady_spec hsel
    cases hscan : scanMetadata row with
    | error e =>
      rw [hscan] at h
      nomatch h
    | ok m =>
      rw [hscan] at h
      dsimp only at h
      obtain ⟨rfl, hcanon⟩ := scanMetadata_ok hscan
      cases hu : updateWhere t row.metadata.id .queued (claimSet (clock 0)) with
      | error e =>
        rw [hu] at h
        nomatch h
      | ok x =>
        obtain ⟨n, t1⟩ := x
        rw [hu] at h
        rcases updateWhere_spec hu with ⟨rfl, -, -⟩ | ⟨rfl, row0, row', hf, -, hcols, rfl⟩
        · nomatch h
        · cases h
          -- the row that was updated is the row that was selected
          have hrow : row0 = row := Option.some.inj (hf.symm.trans hfind)
          subst hrow
          exact Or.inr ⟨row0, row', rfl, hcanon, hfind, hstate, hdue, hcols, rfl⟩

theorem nextSubmittedBody_ok {m? : Option Metadata} (h : nextSubmittedBody now t = .ok (m?, t')) :
    t' = t ∧ ((m? = none ∧ selectReady t .submitted (timeToMillis now) = none) ∨
      ∃ row, m? = some row.metadata ∧ selectReady t .submitted (timeToMillis now) = some row ∧
        t.find row.id = some row ∧ row.state = .submitted ∧
        row.nextAttemptAtMS ≤ timeToMillis now) := by
  unfold nextSubmittedBody at h
  cases hsel : selectReady t .submitted (timeToMillis now) with
  | none =>
    simp only [hsel, Except.ok.injEq, Prod.mk.injEq] at h
    exact ⟨h.2.symm, Or.inl ⟨h.1.symm, rfl⟩⟩
  | some row =>
    simp only [hsel] at h
    obtain ⟨hfind, hstate, hdue⟩ := selectReady_spec hsel
    cases hscan : scanMetadata row with
    | error e =>
      rw [hscan] at h
      nomatch h
    | ok m =>
      rw [hscan] at h
      obtain ⟨rfl, -⟩ := scanMetadata_ok hscan
      cases h
      exact ⟨rfl, Or.inr ⟨row, rfl, rfl, hfind, hstate, hdue⟩⟩

/-- The loop of recovery over rows that are working in `t`: each is requeued, with some reading of
    the clock, and no other row is touched. -/
theorem requeueAll_ok {i : Nat} {ms out : List Metadata}
    (h : requeueAll now clock i ms t = .ok (out, t')) (hnodup : (ms.map (·.id)).Nodup)
    (hms : ∀ m ∈ ms, ∃ row, t.find m.id = some row ∧ row.state = .working) :
    (∀ id, (∀ m ∈ ms, m.id ≠ id) → t'.find id = t.find id) ∧
    (∀ m ∈ ms, ∃ j row row', t.find m.id = some row ∧ t'.find m.id = some row' ∧
      row'.toColumns = requeueSet now (clock j) row.toColumns ∧ m.requeued now (clock j) ∈ out) ∧
    (∀ m' ∈ out, ∃ m ∈ ms, ∃ j, m' = m.requeued now (clock j)) := by
  induction ms generalizing i t out with
  | nil =>
    cases h
    exact ⟨fun _ _ => rfl, (fun m hm => nomatch hm), (fun m hm => nomatch hm)⟩
  | cons m ms ih =>
    unfold requeueAll at h
    obtain ⟨row, hfind, hstate⟩ := hms m (mem_cons_self ..)
    cases hu : updateWhere t m.id .working (requeueSet now (clock i)) with
    | error e =>
      rw [hu] at h
      nomatch h
    | ok x =>
      obtain ⟨n, t1⟩ := x
      rw [hu] at h
      dsimp only at h
      rcases updateWhere_spec hu with ⟨rfl, -, hno⟩ | ⟨rfl, row0, row', hf, -, hcols, rfl⟩
      · exact absurd hstate (hno row hfind)
      have hrow : row0 = row := Option.some.inj (hf.symm.trans hfind)
      subst hrow
      have hid : row'.id = m.id := by
        rw [hcols]
        exact find_id hfind
      have hother : ∀ id, id ≠ m.id → (t.replace row').find id = t.find id := by
        intro id hne
        rw [Table.find_replace, if_neg (hid ▸ hne)]
      have hself : (t.replace row').find m.id = some row' := by
        rw [Table.find_replace, if_pos hid.symm, hfind]
        rfl
      rw [map_cons, nodup_cons] at hnodup
      have hne : ∀ m2 ∈ ms, m2.id ≠ m.id := fun m2 hm2 heq =>
        hnodup.1 (heq ▸ mem_map_of_mem hm2)
      cases hrest : requeueAll now clock (i + 1) ms (t.replace row') with
      | error e =>
        rw [hrest] at h
        nomatch h
      | ok x =>
        obtain ⟨out1, t2⟩ := x
        rw [hrest] at h
        cases h
        obtain ⟨hkeep, hdone, hout⟩ := ih hrest hnodup.2 fun m2 hm2 => by
          rw [hother _ (hne m2 hm2)]
          exact hms m2 (mem_cons_of_mem _ hm2)
        refine ⟨?_, ?_, ?_⟩
        · intro id hid'
          rw [hkeep id fun m2 hm2 => hid' m2 (mem_cons_of_mem _ hm2)]
          exact hother id fun heq => hid' m (mem_cons_self ..) heq.symm
        · intro m2 hm2
          rcases mem_cons.mp hm2 with rfl | hm2
          · refine ⟨i, row0, row', hfind, ?_, hcols, mem_cons_self ..⟩
            rw [hkeep m2.id fun m3 hm3 => hne m3 hm3]
            exact hself
          · obtain ⟨j, row2, row2', hf2, hf2', hc2, hin⟩ := hdone m2 hm2
            rw [hother _ (hne m2 hm2)] at hf2
            exact ⟨j, row2, row2', hf2, hf2', hc2, mem_cons_of_mem _ hin⟩
        · intro m' hm'
          rcases mem_cons.mp hm' with rfl | hm'
          · exact ⟨m, mem_cons_self .., i, rfl⟩
          · obtain ⟨m2, hm2, j, rfl⟩ := hout m' hm'
            exact ⟨m2, mem_cons_of_mem _ hm2, j, rfl⟩

/-- What recovery has done: every working row is requeued, no other row is touched, and the
    snapshot lists the requeued rows, the submitted rows and all ids. -/
structure Recovered (now : Int) (t t' : Records) (snap : Snapshot) : Prop where
  none_of_none : ∀ id, t.find id = none → t'.find id = none
  kept : ∀ id row, t.find id = some row → row.state ≠ .working → t'.find id = some row
  working : ∀ id row, t.find id = some row → row.state = .working →
    ∃ stamp row', t'.find id = some row' ∧ row'.toColumns = requeueSet now stamp row.toColumns ∧
      row.metadata.requeued now stamp ∈ snap.requeued
  requeued : ∀ m ∈ snap.requeued, ∃ row stamp, t.find m.id = some row ∧ row.state = .working ∧
    m = row.metadata.requeued now stamp
  submitted : ∀ m ∈ snap.submitted, ∃ row, t.find m.id = some row ∧ row.state = .submitted ∧
    m = row.metadata
  validIDs : snap.validIDs = t.rows.map (·.id)

theorem recoverBody_ok {snap : Snapshot} (h : recoverBody now clock t = .ok (snap, t')) :
    Recovered now t t' snap := by
  unfold recoverBody at h
  obtain ⟨working, hworking, h⟩ := bind_eq_ok.mp h
  obtain ⟨submitted, hsubmitted, h⟩ := bind_eq_ok.mp h
  obtain ⟨validIDs, hvalid, h⟩ := bind_eq_ok.mp h
  obtain ⟨⟨requeued, t1⟩, hrequeue, h⟩ := bind_eq_ok.mp h
  cases h
  have hscan : ∀ (row : Row) m, scanMetadata row = .ok m → m = row.metadata :=
    fun row m hm => (scanMetadata_ok hm).1
  have hw : working = (selectState t .working).map (·.metadata) := mapM_eq_ok hscan hworking
  have hs : submitted = (selectState t .submitted).map (·.metadata) := mapM_eq_ok hscan hsubmitted
  have hv : validIDs = t.rows.map (·.id) := by
    refine mapM_eq_ok (fun row id hid => ?_) hvalid
    cases hc : validateCanonicalRecordID row.id with
    | error e =>
      rw [hc] at hid
      nomatch hid
    | ok _ =>
      rw [hc] at hid
      exact (Except.ok.inj hid).symm
  have hnodup : (working.map (·.id)).Nodup := by
    have heq : working.map (·.id) = (selectState t .working).map (·.id) := by
      rw [hw, map_map]
      rfl
    rw [heq]
    exact selectState_nodup t .working
  have hmem : ∀ m ∈ working, ∃ row, t.find m.id = some row ∧ row.state = .working ∧
      m = row.metadata := by
    intro m hm
    rw [hw] at hm
    obtain ⟨row, hrow, rfl⟩ := mem_map.mp hm
    exact ⟨row, (mem_selectState.mp hrow).1, (mem_selectState.mp hrow).2, rfl⟩
  obtain ⟨hkeep, hdone, hout⟩ := requeueAll_ok hrequeue hnodup fun m hm =>
    (hmem m hm).elim fun row hrow => ⟨row, hrow.1, hrow.2.1⟩
  -- a row that is not working is not in the list
  have hkept : ∀ id, (∀ row, t.find id = some row → row.state ≠ .working) →
      t'.find id = t.find id := by
    intro id hid
    refine hkeep id fun m hm heq => ?_
    obtain ⟨row, hrow, hstate, -⟩ := hmem m hm
    exact hid row (heq ▸ hrow) hstate
  refine ⟨?_, ?_, ?_, ?_, ?_, hv⟩
  · intro id hid
    rw [hkept id fun row hrow => by rw [hid] at hrow; nomatch hrow]
    exact hid
  · intro id row hrow hstate
    rw [hkept id fun row' hrow' => by cases hrow.symm.trans hrow'; exact hstate]
    exact hrow
  · intro id row hrow hstate
    have hin : row.metadata ∈ working := by
      rw [hw]
      exact mem_map_of_mem (mem_selectState.mpr ⟨by rw [find_id hrow]; exact hrow, hstate⟩)
    have hid : row.metadata.id = id := find_id hrow
    obtain ⟨j, row0, row', hf, hf', hcols, hout'⟩ := hdone _ hin
    rw [hid] at hf hf'
    cases hrow.symm.trans hf
    exact ⟨clock j, row', hf', hcols, hout'⟩
  · intro m' hm'
    obtain ⟨m, hm, j, rfl⟩ := hout m' hm'
    obtain ⟨row, hrow, hstate, rfl⟩ := hmem m hm
    exact ⟨row, clock j, hrow, hstate, rfl⟩
  · intro m hm
    rw [show (Snapshot.mk requeued submitted validIDs).submitted = submitted from rfl, hs] at hm
    obtain ⟨row, hrow, rfl⟩ := mem_map.mp hm
    exact ⟨row, (mem_selectState.mp hrow).1, (mem_selectState.mp hrow).2, rfl⟩

/-! ## What a transaction does to one row -/

/-- The ways in which a transaction rewrites a row that is there. -/
def Tx.Rewrites : Tx → Row → Row → Prop
  | .claim _, row, row' =>
    row.state = .queued ∧ ∃ stamp, row'.toColumns = claimSet stamp row.toColumns
  | .update s rec, row, row' => row.id = rec.id ∧ row.state = s ∧ row'.toColumns = rec.columns
  | .recover now, row, row' =>
    row.state = .working ∧ ∃ stamp, row'.toColumns = requeueSet now stamp row.toColumns
  | _, _, _ => False

omit [Unicode] in
/-- Looking up an id after one row was replaced by a row with its id. -/
theorem find_replaced {row0 : Row} (h0 : t.find row0.id = some row0) (hid : row'.id = row0.id)
    (hrow : t.find id = some row) :
    (row = row0 ∧ (t.replace row').find id = some row') ∨ (t.replace row').find id = some row := by
  by_cases heq : id = row'.id
  · subst heq
    rw [hid, h0] at hrow
    refine Or.inl ⟨(Option.some.inj hrow).symm, ?_⟩
    rw [Table.find_replace, if_pos rfl, hid, h0]
    rfl
  · right
    rw [Table.find_replace, if_neg heq]
    exact hrow

omit [Unicode] in
/-- A row of the table after one row was replaced. -/
theorem find_replace_cases (h : (t.replace row').find id = some row) :
    (id = row'.id ∧ row = row') ∨ (id ≠ row'.id ∧ t.find id = some row) := by
  rw [Table.find_replace] at h
  by_cases hid : id = row'.id
  · rw [if_pos hid] at h
    obtain ⟨_, -, hrow⟩ := Option.map_eq_some_iff.mp h
    exact Or.inl ⟨hid, hrow.symm⟩
  · rw [if_neg hid] at h
    exact Or.inr ⟨hid, h⟩

omit [Unicode] in
theorem find_replace_none (h : (t.replace row').find id = none) : t.find id = none := by
  rw [Table.find_none] at h ⊢
  rwa [Table.has_replace] at h

omit [Unicode] in
/-- The replaced row is found under its id. -/
theorem find_replace_self (h : t.find row.id = some row) (hid : row'.id = row.id) :
    (t.replace row').find row.id = some row' := by
  rw [Table.find_replace, if_pos hid.symm, h]
  rfl

/-- **A row stays as it is, or is rewritten as the transaction rewrites rows; none disappears.** -/
theorem Tx.body_find {a : tx.Answer} (h : tx.body clock t = .ok (a, t'))
    (hrow : t.find id = some row) :
    ∃ row', t'.find id = some row' ∧ (row' = row ∨ tx.Rewrites row row') := by
  cases tx with
  | insert rec =>
    obtain ⟨new, hk, -, rfl⟩ := insertBody_ok h
    refine ⟨row, ?_, Or.inl rfl⟩
    have hne : id ≠ new.id := by
      rintro rfl
      exact hk (Table.has_of_find hrow)
    rw [Table.find_insert, if_neg hne]
    exact hrow
  | claim now =>
    rcases claimBody_ok h with ⟨-, rfl⟩ | ⟨row0, row', -, -, hf, hs, -, hcols, rfl⟩
    · exact ⟨row, hrow, Or.inl rfl⟩
    · have hid : row'.id = row0.id := by
        rw [hcols]
        rfl
      rcases find_replaced hf hid hrow with ⟨rfl, hf'⟩ | hf'
      · exact ⟨row', hf', Or.inr ⟨hs, _, hcols⟩⟩
      · exact ⟨row, hf', Or.inl rfl⟩
  | update s rec =>
    obtain ⟨row0, row', hf, hs, hcols, rfl⟩ := updateBody_ok h
    have hid0 : row0.id = rec.id := find_id hf
    have hid : row'.id = row0.id := by
      rw [hcols, hid0]
      rfl
    rcases find_replaced (hid0.symm ▸ hf) hid hrow with ⟨rfl, hf'⟩ | hf'
    · exact ⟨row', hf', Or.inr ⟨hid0, hs, hcols⟩⟩
    · exact ⟨row, hf', Or.inl rfl⟩
  | recover now =>
    have hrec := recoverBody_ok h
    by_cases hs : row.state = .working
    · obtain ⟨stamp, row', hf', hcols, -⟩ := hrec.working id row hrow hs
      exact ⟨row', hf', Or.inr ⟨hs, stamp, hcols⟩⟩
    · exact ⟨row, hrec.kept id row hrow hs, Or.inl rfl⟩
  | nextSubmitted now =>
    obtain ⟨rfl, -⟩ := nextSubmittedBody_ok h
    exact ⟨row, hrow, Or.inl rfl⟩

/-- **A row that was not there is the row that was inserted.** -/
theorem Tx.body_find_new {a : tx.Answer} (h : tx.body clock t = .ok (a, t'))
    (hnone : t.find id = none) (hrow : t'.find id = some row) :
    ∃ rec, tx = .insert rec ∧ rec.id = id ∧ row.toColumns = rec.columns := by
  have hno : ∀ row', (t.replace row').find id = none := by
    intro row'
    rw [Table.find_replace, hnone]
    split <;> rfl
  cases tx with
  | insert rec =>
    obtain ⟨new, hk, hcols, rfl⟩ := insertBody_ok h
    rw [Table.find_insert] at hrow
    by_cases hid : id = new.id
    · rw [if_pos hid] at hrow
      cases hrow
      refine ⟨rec, rfl, ?_, hcols⟩
      rw [hid, hcols]
      rfl
    · rw [if_neg hid, hnone] at hrow
      nomatch hrow
  | claim now =>
    rcases claimBody_ok h with ⟨-, rfl⟩ | ⟨_, row', -, -, -, -, -, -, rfl⟩
    · rw [hnone] at hrow
      nomatch hrow
    · rw [hno row'] at hrow
      nomatch hrow
  | update s rec =>
    obtain ⟨_, row', -, -, -, rfl⟩ := updateBody_ok h
    rw [hno row'] at hrow
    nomatch hrow
  | recover now =>
    rw [(recoverBody_ok h).none_of_none id hnone] at hrow
    nomatch hrow
  | nextSubmitted now =>
    obtain ⟨rfl, -⟩ := nextSubmittedBody_ok h
    rw [hnone] at hrow
    nomatch hrow

/-- What the transaction did is there although it is reported as failed. -/
def TxOutcome.isLost : TxOutcome → Bool
  | .lost _ _ _ => true
  | _ => false

/-- **How a transaction ends**: its body is applied, and the answer is the body's or, when the
    outcome was lost, an error; or nothing is applied and the answer is an error. -/
theorem Tx.perform_cases {out : TxOutcome} {r : Except GoError tx.Answer}
    (h : tx.perform t out = some (r, t')) : (∃ clock a, tx.body clock t = .ok (a, t') ∧
      ((out.isLost = false ∧ r = .ok a) ∨ (out.isLost = true ∧ ∃ e, r = .error e))) ∨
    (t' = t ∧ out.isLost = false ∧ ∃ e, r = .error e) := by
  cases out with
  | run clock =>
    unfold Tx.perform at h
    dsimp only at h
    split at h
    · rename_i a t1 hbody
      cases h
      exact Or.inl ⟨clock, a, hbody, Or.inl ⟨rfl, rfl⟩⟩
    · cases h
      exact Or.inr ⟨rfl, rfl, _, rfl⟩
  | fault stage cause =>
    obtain ⟨op, -, hx⟩ := Option.map_eq_some_iff.mp h
    cases hx
    exact Or.inr ⟨rfl, rfl, _, rfl⟩
  | lost clock how cause =>
    unfold Tx.perform at h
    dsimp only at h
    split at h
    · rename_i a t1 _ hbody
      cases h
      exact Or.inl ⟨clock, a, hbody, Or.inr ⟨rfl, _, rfl⟩⟩
    · nomatch h

end Specs

end SmtpCloudRelay.Spool
