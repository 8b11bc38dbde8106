/-
  THE POOLED CONNECTION: the transactions of the record store, statement by statement.

  `Transactions` has a transaction as one step.  Here it is what the code executes: take the only
  connection out of the pool, BEGIN IMMEDIATE, the statements of the operation, COMMIT, and a deferred
  ROLLBACK where there was no COMMIT.  Every statement is executed with the CALLER'S context, the deferred
  ROLLBACK as well, and a statement with a context that has ended is not executed.

  The state that matters is the connection's own: whether a transaction is open on it, and with which
  table.  Nothing resets it when the connection goes back to the pool.  So there are three results:

  * as long as the context does not end after BEGIN, an operation ends in one of the ways that
    `Transactions` lists (`operation_end`), and an INSERT does so in any case (`insert_visible`);
  * an operation that fails leaves the connection as it was EXACTLY IF its context does not end after
    BEGIN (`operation_usable_iff`);
  * a connection with an open transaction stays so: every transaction after that fails at its BEGIN
    (`stuck_forever`).
-/
import SmtpCloudRelay.Spool.Store
import SmtpCloudRelay.Lib.Spec

namespace SmtpCloudRelay.Spool.Sql

open Go Lib Act
open Prog (Runs)

/-! ## Statements -/

/-- The statements of the record store. -/
inductive Query where
  | begin
  | commit
  | rollback
  | insert (rec : Record)
  | selectReady (s : State) (nowMS : Int)
  | selectState (s : State)
  | selectIDs
  | update (id : GoString) (s : State) (set : Columns → Columns)

/-- What a statement answers. -/
def Query.Answer : Query → Type
  | .selectReady _ _ => Option Row
  | .selectState _ => List Row
  | .selectIDs => List GoString
  | .update _ _ _ => Nat
  | _ => Unit

/-- The calls of database/sql. -/
inductive Op where
  /-- `db.Conn(ctx)`. -/
  | acquire
  /-- `conn.ExecContext(ctx, …)` and `conn.QueryContext(ctx, …)`. -/
  | sql (q : Query)
  /-- `conn.Close()`. -/
  | close
  /-- Read the clock. -/
  | now

/-- What the calls answer. -/
def Op.Res : Op → Type
  | .acquire => Except DbError Unit
  | .sql q => Except DbError q.Answer
  | .close => Except DbError Unit
  | .now => Int

/-- The signature of the record store's operations. -/
abbrev sqlSig : Sig := ⟨Op, Op.Res⟩

/-! ## The connection -/

/-- The database, its only connection, and the context of the operation. -/
structure Session where
  /-- The table as it is committed. -/
  table : Records
  /-- The table inside the transaction that is open on the connection. -/
  pending : Option Records
  /-- The connection is out of the pool. -/
  held : Bool
  /-- The context has ended. -/
  ended : Option CtxErr

namespace Session

/-- An operation begins: no transaction is open, and the context is live. -/
def idle (t : Records) : Session := ⟨t, none, false, none⟩

/-- What a query on the connection sees. -/
def visible (W : Session) : Records := W.pending.getD W.table

/-- A write, inside the open transaction or else at once. -/
def write (W : Session) (t : Records) : Session :=
  match W.pending with
  | some _ => { W with pending := some t }
  | none => { W with table := t }

/-- The same session with the context of another operation. -/
def renewed (W : Session) : Session := { W with ended := none }

end Session

/-- The cause that a call reports when the context has ended. -/
def contextCause : CtxErr → DbError
  | .canceled => .canceled
  | .deadlineExceeded => .deadlineExceeded

/-- `sql.ErrConnDone`. -/
def connDone : DbError := .driver (lit "sql: connection is already closed")

/-- BEGIN inside a transaction. -/
def nestedBegin : DbError := .driver (lit "cannot start a transaction within a transaction")

/-- COMMIT and ROLLBACK outside a transaction. -/
def noTransaction : DbError := .driver (lit "no transaction is active")

/-- INSERT. -/
def insertInto (rec : Record) (t : Records) : Except DbError Records :=
  if h : rec.columns.Check then
    if hk : t.Has rec.id then .error .constraint
    else .ok (t.insert ⟨rec.columns, h⟩ hk)
  else .error .constraint

/-- What a statement does when it is executed. -/
def Query.perform : (q : Query) → Session → Except DbError q.Answer × Session
  | .begin, W =>
    match W.pending with
    | none => (.ok (), { W with pending := some W.table })
    | some _ => (.error nestedBegin, W)
  | .commit, W =>
    match W.pending with
    | some t => (.ok (), { W with table := t, pending := none })
    | none => (.error noTransaction, W)
  | .rollback, W =>
    match W.pending with
    | some _ => (.ok (), { W with pending := none })
    | none => (.error noTransaction, W)
  | .insert rec, W =>
    match insertInto rec W.visible with
    | .ok t => (.ok (), W.write t)
    | .error e => (.error e, W)
  | .selectReady s nowMS, W => (.ok (Spool.selectReady W.visible s nowMS), W)
  | .selectState s, W => (.ok (Spool.selectState W.visible s), W)
  | .selectIDs, W => (.ok (W.visible.rows.map fun row => row.id), W)
  | .update id s set, W =>
    match updateWhere W.visible id s set with
    | .ok (n, t) => (.ok n, W.write t)
    | .error e => (.error e, W)

/-- What the outside chooses: the call is made, or the context has ended when it is made. -/
inductive Choice where
  | go
  | expire (e : CtxErr)
  | time (t : Int)

/-- A call: a context that has ended stays so, and a connection that is taken has to be waited for. -/
def exec : (o : Op) → Choice → Session → Option (o.Res × Session)
  | .now, .time t, W => some (t, W)
  | .close, .go, W =>
    some (if W.held then (.ok (), { W with held := false }) else (.error connDone, W))
  | .acquire, .go, W =>
    if W.ended = none ∧ W.held = false then some (.ok (), { W with held := true }) else none
  | .acquire, .expire e, W =>
    if W.ended = none ∨ W.ended = some e then
      some (.error (contextCause e), { W with ended := some e })
    else none
  | .sql q, .go, W =>
    if W.ended = none then some (if W.held then q.perform W else (.error connDone, W)) else none
  | .sql _, .expire e, W =>
    if W.ended = none ∨ W.ended = some e then
      some (.error (if W.held then contextCause e else connDone), { W with ended := some e })
    else none
  | _, _, _ => none

/-! ## The operations -/

/-- A program over the connection. -/
abbrev Job (α : Type) := Act sqlSig GoError α

/-- A call, with its own error. -/
def query (q : Query) : Act sqlSig DbError q.Answer := .step (.sql q) .ret

/-- `conn.Close()`. -/
def closeConn : Act sqlSig DbError Unit := .step .close .ret

/-- Read the clock. -/
def clock : Job Int := .step .now fun t => .ret (.ok t)

/-- The error of a failed call, as the code wraps it. -/
def storeError (op : GoString) (e : DbError) : GoError := .wrapStoreError op e.toError

/-- `beginImmediate`. -/
def beginImmediate : Job Unit := do
  (show Act sqlSig DbError Unit from .step .acquire .ret).mapError
    (storeError (lit "acquire sqlite connection"))
  ((query .begin).mapError (storeError (lit "begin immediate sqlite transaction"))).onFail closeConn

/-- `finishImmediate`. -/
def finishImmediate (committed : Bool) : Job Unit :=
  if committed then closeConn.ignore
  else do
    (query .rollback).ignore
    closeConn.ignore

/-- `commitImmediate`. -/
def commitImmediate : Job Unit := do
  ((query .commit).mapError (storeError (lit "commit sqlite transaction"))).onFail closeConn
  closeConn.mapError (storeError (lit "close sqlite connection"))

/-- After BEGIN: a body that says whether it has committed, and the deferred `finishImmediate`. -/
def rest {α : Type} (body : Job (α × Bool)) : Job α := do
  let out ← body.attempt
  finishImmediate (match out with
    | .ok x => x.2
    | .error _ => false)
  match out with
  | .ok x => pure x.1
  | .error e => .fail e

/-- What all the operations share. -/
def immediate {α : Type} (body : Job (α × Bool)) : Job α := beginImmediate >>= fun _ => rest body

section Operations

variable [Unicode]

/-- The statements of `insertRecord`. -/
def insertBody (rec : Record) : Job (Unit × Bool) := do
  (query (.insert rec)).mapError (storeError (lit "insert record " ++ quote rec.id))
  commitImmediate
  pure ((), true)

/-- The statements of `claimReadyMetadata`. -/
def claimBody (now : Int) : Job (Option Metadata × Bool) := do
  let found ← (query (.selectReady .queued (timeToMillis now))).mapError
    (storeError (lit "query spool metadata"))
  match found with
  | none => pure (none, false)
  | some row => do
    let m ← Act.lift (fun e => e) (scanMetadata row)
    let stamp ← clock
    let (n : Nat) ← (query (.update m.id .queued (claimSet stamp))).mapError
      (storeError (lit "claim record " ++ quote m.id))
    if n = 1 then do
      commitImmediate
      pure (some (m.claimed stamp), true)
    else .fail (.new (lit "spool record " ++ quote m.id ++ lit " was not claimable"))

/-- The statements of `updateRecord`. -/
def updateBody (currentState : State) (updated : Record) : Job (Unit × Bool) := do
  let (n : Nat) ← (query (.update updated.id currentState
    fun c => { updated.columns with id := c.id })).mapError
      (storeError (lit "update record " ++ quote updated.id))
  if n = 1 then do
    commitImmediate
    pure ((), true)
  else .fail (.new (lit "spool record " ++ quote updated.id ++ lit " not found in state " ++
    quote currentState.text))

/-- `queryAllMetadata`, for the records in a state. -/
def queryAllMetadata (s : State) : Job (List Metadata) := do
  let rows ← (query (.selectState s)).mapError (storeError (lit "query spool metadata"))
  Act.lift (fun e => e) (List.mapM scanMetadata rows)

/-- `queryAllIDs`. -/
def queryAllIDs : Job (List GoString) := do
  let ids ← (query .selectIDs).mapError (storeError (lit "query spool ids"))
  Act.lift (fun e => e) (List.mapM (fun id =>
    ((validateCanonicalRecordID id).mapError (.wrapStoreError (lit "validate spool ids"))).map
      fun _ => id) ids)

/-- The loop of `recoverMetadata`. -/
def requeueAll (now : Int) : List Metadata → Job (List Metadata)
  | [] => pure []
  | m :: ms => do
    let stamp ← clock
    let _ ← (query (.update m.id .working (requeueSet now stamp))).mapError
      (storeError (lit "requeue stale working record " ++ quote m.id))
    let rest ← requeueAll now ms
    pure (m.requeued now stamp :: rest)

/-- The statements of `recoverMetadata`. -/
def recoverBody (now : Int) : Job (Snapshot × Bool) := do
  let working ← queryAllMetadata .working
  let submitted ← queryAllMetadata .submitted
  let validIDs ← queryAllIDs
  let requeued ← requeueAll now working
  commitImmediate
  pure (⟨requeued, submitted, validIDs⟩, true)

/-- `nextSubmittedReady`: the query takes the connection for itself, and gives it back. -/
def nextSubmittedReady (now : Int) : Job (Option Metadata) := do
  (show Act sqlSig DbError Unit from .step .acquire .ret).mapError
    (storeError (lit "query spool metadata"))
  let found ← ((query (.selectReady .submitted (timeToMillis now))).mapError
    (storeError (lit "query spool metadata"))).onFail closeConn
  closeConn.ignore
  match found with
  | none => pure none
  | some row => Act.lift (fun e => e) ((scanMetadata row).map some)

/-- The accesses to the database, as the code makes them. -/
def operation : (tx : Tx) → Job tx.Answer
  | .insert rec => immediate (insertBody rec)
  | .claim now => immediate (claimBody now)
  | .update s rec => immediate (updateBody s rec)
  | .recover now => immediate (recoverBody now)
  | .nextSubmitted now => nextSubmittedReady now

end Operations

/-! ## What a call does -/

section Calls

variable {W W' : Session} {c : Choice}

theorem exec_sql_inv {q : Query} {r : Except DbError q.Answer}
    (h : exec (.sql q) c W = some (r, W')) :
    (c = .go ∧ W.ended = none ∧ (if W.held then q.perform W else (.error connDone, W)) = (r, W')) ∨
    (∃ e, c = .expire e ∧ (W.ended = none ∨ W.ended = some e) ∧
      r = .error (if W.held then contextCause e else connDone) ∧
      W' = { W with ended := some e }) := by
  cases c with
  | go =>
    obtain ⟨hlive, hW⟩ := Option.ite_none_right_eq_some.mp h
    exact Or.inl ⟨rfl, hlive, Option.some.inj hW⟩
  | expire e =>
    obtain ⟨he, hW⟩ := Option.ite_none_right_eq_some.mp h
    cases hW
    exact Or.inr ⟨e, rfl, he, rfl, rfl⟩
  | time n => nomatch h

theorem exec_acquire_inv {r : Except DbError Unit} (h : exec .acquire c W = some (r, W')) :
    (c = .go ∧ W.ended = none ∧ W.held = false ∧ r = .ok () ∧ W' = { W with held := true }) ∨
    (∃ e, c = .expire e ∧ (W.ended = none ∨ W.ended = some e) ∧ r = .error (contextCause e) ∧
      W' = { W with ended := some e }) := by
  cases c with
  | go =>
    obtain ⟨⟨hlive, hfree⟩, hW⟩ := Option.ite_none_right_eq_some.mp h
    cases hW
    exact Or.inl ⟨rfl, hlive, hfree, rfl, rfl⟩
  | expire e =>
    obtain ⟨he, hW⟩ := Option.ite_none_right_eq_some.mp h
    cases hW
    exact Or.inr ⟨e, rfl, he, rfl, rfl⟩
  | time n => nomatch h

/-- Closing takes no context, and gives the connection back as it is. -/
theorem exec_close_inv {r : Except DbError Unit} (h : exec .close c W = some (r, W')) :
    c = .go ∧ (W.held = true → r = .ok ()) ∧ W' = { W with held := false } := by
  obtain ⟨table, pending, held, ended⟩ := W
  cases c with
  | go =>
    cases held with
    | true =>
      cases h
      exact ⟨rfl, fun _ => rfl, rfl⟩
    | false =>
      cases h
      exact ⟨rfl, (nomatch ·), rfl⟩
  | expire e | time n => nomatch h

theorem exec_now_inv {n : Int} (h : exec .now c W = some (n, W')) : c = .time n ∧ W' = W := by
  cases c with
  | go | expire e => nomatch h
  | time m =>
    cases h
    exact ⟨rfl, rfl⟩

theorem perform_insert_ok {rec : Record} {t : Records} (h : insertInto rec W.visible = .ok t) :
    (Query.insert rec).perform W = (.ok (), W.write t) := by
  simp only [Query.perform, h]

theorem perform_insert_error {rec : Record} {d : DbError} (h : insertInto rec W.visible = .error d) :
    (Query.insert rec).perform W = (.error d, W) := by
  simp only [Query.perform, h]

theorem perform_update_ok {id : GoString} {s : State} {set : Columns → Columns} {n : Nat}
    {t : Records} (h : updateWhere W.visible id s set = .ok (n, t)) :
    (Query.update id s set).perform W = (.ok n, W.write t) := by
  exact congrArg (fun x : Except DbError (Nat × Records) => show Except DbError Nat × Session from
    match x with
    | .ok (n, t) => (.ok n, W.write t)
    | .error e => (.error e, W)) h

theorem perform_update_error {id : GoString} {s : State} {set : Columns → Columns} {d : DbError}
    (h : updateWhere W.visible id s set = .error d) :
    (Query.update id s set).perform W = (.error d, W) := by
  simp only [Query.perform, h]

/-- A statement does not touch the context or the pool. -/
theorem perform_frame (q : Query) (W : Session) :
    (q.perform W).2.ended = W.ended ∧ (q.perform W).2.held = W.held := by
  have hwrite : ∀ t, (W.write t).ended = W.ended ∧ (W.write t).held = W.held := by
    intro t
    unfold Session.write
    split <;> exact ⟨rfl, rfl⟩
  cases q with
  | begin | commit | rollback => obtain ⟨t, _ | u, held, ended⟩ := W <;> exact ⟨rfl, rfl⟩
  | insert rec =>
    cases h : insertInto rec W.visible with
    | ok t =>
      rw [perform_insert_ok h]
      exact hwrite t
    | error d =>
      rw [perform_insert_error h]
      exact ⟨rfl, rfl⟩
  | selectReady s nowMS | selectState s | selectIDs => exact ⟨rfl, rfl⟩
  | update id s set =>
    cases h : updateWhere W.visible id s set with
    | ok x =>
      rw [perform_update_ok (n := x.1) (t := x.2) h]
      exact hwrite x.2
    | error d =>
      rw [perform_update_error h]
      exact ⟨rfl, rfl⟩

/-- The context ends in a call exactly if the outside says so there, and then it has ended for good. -/
theorem exec_ended {o : Op} {r : o.Res} (h : exec o c W = some (r, W')) :
    W'.ended = none ↔ W.ended = none ∧ ∀ e, c ≠ .expire e := by
  have hgo : ∀ e, Choice.go ≠ .expire e := fun e h => nomatch h
  have hexp : ∀ {e : CtxErr}, W' = { W with ended := some e } → c = .expire e →
      (W'.ended = none ↔ W.ended = none ∧ ∀ e, c ≠ .expire e) := by
    rintro e rfl rfl
    exact ⟨(nomatch ·), fun h => absurd rfl (h.2 e)⟩
  cases o with
  | acquire =>
    rcases exec_acquire_inv h with ⟨rfl, hlive, -, -, rfl⟩ | ⟨e, hc, -, -, hW⟩
    · exact ⟨fun h => ⟨hlive, hgo⟩, fun h => h.1⟩
    · exact hexp hW hc
  | sql q =>
    rcases exec_sql_inv h with ⟨rfl, hlive, hW⟩ | ⟨e, hc, -, -, hW⟩
    · have hsame : W'.ended = W.ended := by
        cases hheld : W.held with
        | true =>
          rw [hheld, if_pos rfl] at hW
          have hframe := (perform_frame q W).1
          rw [hW] at hframe
          exact hframe
        | false =>
          rw [hheld] at hW
          cases hW
          rfl
      rw [hsame]
      exact ⟨fun h => ⟨h, hgo⟩, fun h => h.1⟩
    · exact hexp hW hc
  | close =>
    obtain ⟨rfl, -, rfl⟩ := exec_close_inv h
    exact ⟨fun h => ⟨h, hgo⟩, fun h => h.1⟩
  | now =>
    obtain ⟨rfl, rfl⟩ := exec_now_inv h
    exact ⟨fun h => ⟨h, fun e he => nomatch he⟩, fun h => h.1⟩

end Calls

/-- A run of operations on the connection. -/
abbrev SqlTrace := List (Event sqlSig Choice Session)

/-- The context had ended when the call was made. -/
def Expired (ev : Event sqlSig Choice Session) : Prop := ∃ e, ev.choice = .expire e

/-- The session at the end of a run knows whether the context ended on the way. -/
theorem runs_ended {α : Type} {p : Prog sqlSig α} {W W' : Session}
    {tr : SqlTrace} {a : α} (h : Runs exec p W tr a W') :
    W'.ended = none ↔ W.ended = none ∧ ∀ ev ∈ tr, ¬ Expired ev := by
  induction h with
  | ret a W => exact ⟨fun h => ⟨h, List.forall_mem_nil _⟩, fun h => h.1⟩
  | @step o k W W1 W' c r tr a hE hk ih =>
    rw [ih, exec_ended hE, List.forall_mem_cons, and_assoc]
    exact and_congr_right fun _ => and_congr_left fun _ => not_exists.symm
  | loop h ih => exact ih

/-! ## The rules of the connection

  A program over the connection is followed state by state: what it knows is the session itself
  (`exactly`).  Inside a transaction there are two kinds of states.  The context is live
  (`Session.inside`), or it has ended, and then no statement changes anything (`Session.Stuck`). -/

namespace Session

/-- Inside a transaction over `t`: it has made `u` of it so far. -/
def inside (t u : Records) : Session := ⟨t, some u, true, none⟩

@[simp] theorem visible_inside (t u : Records) : (inside t u).visible = u := rfl

/-- The context has ended with the transaction open. -/
def Stuck (t : Records) (W : Session) : Prop := W.table = t ∧ W.pending ≠ none ∧ W.ended ≠ none

end Session

open Session

/-- The protocol that knows the session. -/
def exactly : Proto sqlSig Session where
  ok _ _ := True
  next W o r W' := ∃ c, exec o c W = some (r, W')

theorem ends_of_safe {α : Type} {Q : α → Session → Prop} {p : Prog sqlSig α} {W W' : Session}
    {tr : SqlTrace} {a : α} (h : Runs exec p W tr a W') (hp : p.Safe exactly Q W) : Q a W' := by
  have hsim : ∀ (κ : Session) (o : Op) (c : Choice) (w : Session) (r : o.Res) (w' : Session),
      κ = w → True → exec o c w = some (r, w') →
      ∃ κ', (∃ c, exec o c κ = some (r, κ')) ∧ κ' = w' := by
    rintro κ o c w r w' rfl - hE
    exact ⟨w', ⟨c, hE⟩, rfl⟩
  obtain ⟨⟨κ, hQ, rfl⟩, -⟩ := Prog.Runs.safe (L := exactly) (R := Eq) hsim h hp rfl
  exact hQ

section Rules

variable {β : Type} {t u : Records} {W : Session}

variable {q : Query} {Q : Except GoError β → Session → Prop} {f : DbError → GoError}
  {g : q.Answer → Job β}

/-- A statement with a live context is executed, or finds that the context has ended. -/
theorem safe_query {Q : Except DbError q.Answer → Session → Prop} (hheld : W.held = true)
    (hgo : W.ended = none → Q (q.perform W).1 (q.perform W).2)
    (hcut : ∀ e, (W.ended = none ∨ W.ended = some e) →
      Q (.error (contextCause e)) { W with ended := some e }) : (query q).Safe exactly Q W := by
  refine ⟨trivial, ?_⟩
  rintro r W' ⟨c, hc⟩
  rcases exec_sql_inv hc with ⟨-, hlive, hW⟩ | ⟨e, -, he, rfl, rfl⟩
  · rw [if_pos hheld] at hW
    have hQ := hgo hlive
    rw [hW] at hQ
    exact hQ
  · rw [if_pos hheld]
    exact hcut e he

/-- With a context that has ended, a statement changes nothing. -/
theorem safe_query_ended {Q : Except DbError q.Answer → Session → Prop} (hended : W.ended ≠ none)
    (hQ : ∀ d, Q (.error d) W) : (query q).Safe exactly Q W := by
  refine ⟨trivial, ?_⟩
  rintro r W' ⟨c, hc⟩
  rcases exec_sql_inv hc with ⟨-, hlive, -⟩ | ⟨e, -, he, rfl, rfl⟩
  · exact absurd hlive hended
  · have hsame : ({ W with ended := some e } : Session) = W := by
      rw [← he.resolve_left hended]
    rw [hsame]
    exact hQ _

theorem safe_close {Q : Except DbError Unit → Session → Prop}
    (hQ : ∀ r, (W.held = true → r = .ok ()) → Q r { W with held := false }) :
    closeConn.Safe exactly Q W := by
  refine ⟨trivial, ?_⟩
  rintro r W' ⟨c, hc⟩
  obtain ⟨-, hr, rfl⟩ := exec_close_inv hc
  exact hQ r hr

/-- Taking the connection out of the pool, and what comes after it. -/
theorem acquire_bind {op : GoString} {g : Unit → Job β}
    (hok : W.ended = none → (g ()).Safe exactly Q { W with held := true })
    (hcut : ∀ e, (W.ended = none ∨ W.ended = some e) →
      Q (.error (storeError op (contextCause e))) { W with ended := some e }) :
    ((show Act sqlSig DbError Unit from .step .acquire .ret).mapError (storeError op) >>= g).Safe
      exactly Q W := by
  refine ⟨trivial, ?_⟩
  rintro r W' ⟨c, hc⟩
  rcases exec_acquire_inv hc with ⟨-, hlive, -, rfl, rfl⟩ | ⟨e, -, he, rfl, rfl⟩
  · exact hok hlive
  · exact hcut e he

/-- A statement of a transaction, and what comes after it. -/
theorem safe_statement (hok : ∀ a W, q.perform (inside t u) = (.ok a, W) → (g a).Safe exactly Q W)
    (herr : ∀ d W, q.perform (inside t u) = (.error d, W) → Q (.error (f d)) W)
    (hcut : ∀ e W, W.Stuck t → Q (.error e) W) :
    ((query q).mapError f >>= g).Safe exactly Q (inside t u) := by
  have hquery : (query q).Safe exactly (fun out W => q.perform (inside t u) = (out, W) ∨
      (∃ d, out = .error d) ∧ W.Stuck t) (inside t u) :=
    safe_query rfl (fun _ => Or.inl rfl) fun e _ =>
      Or.inr ⟨⟨_, rfl⟩, rfl, Option.some_ne_none _, Option.some_ne_none _⟩
  refine Prog.Safe.bind (Prog.Safe.bind (Safe.mono ?_ hquery))
  intro out W h
  rcases h with h | ⟨⟨d, rfl⟩, h⟩
  · cases out with
    | ok a => exact hok a W h
    | error d => exact herr d W h
  · exact hcut _ W h

theorem statement_ok {a : q.Answer} (h : q.perform (inside t u) = (.ok a, W))
    (hg : (g a).Safe exactly Q W) (hcut : ∀ e W, W.Stuck t → Q (.error e) W) :
    ((query q).mapError f >>= g).Safe exactly Q (inside t u) := by
  refine safe_statement (fun a' W' h' => ?_) (fun d W' h' => ?_) hcut
  · rw [h] at h'
    cases h'
    exact hg
  · rw [h] at h'
    nomatch h'

theorem statement_error {d : DbError} (h : q.perform (inside t u) = (.error d, W))
    (hQ : Q (.error (f d)) W) (hcut : ∀ e W, W.Stuck t → Q (.error e) W) :
    ((query q).mapError f >>= g).Safe exactly Q (inside t u) := by
  refine safe_statement (fun a W' h' => ?_) (fun d' W' h' => ?_) hcut
  · rw [h] at h'
    nomatch h'
  · rw [h] at h'
    cases h'
    exact hQ

theorem clock_bind {g : Int → Job β} (hg : ∀ n, (g n).Safe exactly Q W) :
    (clock >>= g).Safe exactly Q W := by
  refine ⟨trivial, ?_⟩
  rintro n W' ⟨c, hc⟩
  obtain ⟨-, rfl⟩ := exec_now_inv hc
  exact hg n

/-- How COMMIT ends: it is applied, or the transaction stays open. -/
def CommitEnd {ε : Type} (t u : Records) : Except ε Unit → Session → Prop
  | .ok _, W => W = ⟨u, none, true, none⟩
  | .error _, W => W.Stuck t

/-- COMMIT applies the transaction and gives the connection back; with a context that has ended it
    leaves the transaction open, and the connection is given back all the same. -/
theorem commitImmediate_safe {Q : Except GoError Unit → Session → Prop} (hok : Q (.ok ()) (idle u))
    (hcut : ∀ e W, W.Stuck t → Q (.error e) W) : commitImmediate.Safe exactly Q (inside t u) := by
  have hcommit : (query .commit).Safe exactly (CommitEnd t u) (inside t u) :=
    safe_query (q := .commit) (Q := CommitEnd t u) rfl (fun _ => rfl) fun e _ =>
      ⟨rfl, Option.some_ne_none _, Option.some_ne_none _⟩
  refine Safe.bind (P := CommitEnd t u) (Safe.onFail (P := CommitEnd t u)
    (Safe.mapError hcommit (fun _ _ h => h) fun _ _ h => h) (fun _ _ h => h) ?_) ?_ hcut
  · intro e W h
    exact safe_close fun r _ => h
  · rintro - W rfl
    refine Safe.mapError (P := fun out W => out = .ok () ∧ W = idle u) ?_ ?_ ?_
    · exact safe_close fun r hr => ⟨hr rfl, rfl⟩
    · rintro - W ⟨-, rfl⟩
      exact hok
    · rintro e W ⟨he, -⟩
      nomatch he

end Rules

/-! ## The bodies

  What `Transactions` says that the statements do, they do, unless the context ends among them. -/

/-- How a body ends inside its transaction over `t`: as `spec` says, with some readings of the clock,
    or with the context ended. -/
def BodyEnd {α : Type} (t : Records) (spec : (Nat → Int) → Except GoError (α × Records)) :
    Except GoError (α × Bool) → Session → Prop
  | .ok (a, true), W => ∃ clock u, spec clock = .ok (a, u) ∧ W = idle u
  | .ok (a, false), W => ∃ clock, spec clock = .ok (a, t) ∧ W = inside t t
  | .error e, W => (∃ clock u, spec clock = .error e ∧ W = inside t u) ∨ W.Stuck t

section Bodies

variable [Unicode] {α : Type} {t u : Records} {spec : (Nat → Int) → Except GoError (α × Records)}

omit [Unicode] in
theorem bodyEnd_stuck (e : GoError) (W : Session) (h : W.Stuck t) : BodyEnd t spec (.error e) W :=
  Or.inr h

omit [Unicode] in
theorem committed_safe {a : α} (h : ∃ clock, spec clock = .ok (a, u)) :
    (commitImmediate >>= fun _ => pure (a, true)).Safe exactly (BodyEnd t spec) (inside t u) := by
  have hcommit : commitImmediate.Safe exactly (fun out W =>
      (out = .ok () → W = idle u) ∧ ∀ e, out = .error e → W.Stuck t) (inside t u) :=
    commitImmediate_safe ⟨fun _ => rfl, fun e he => by cases he⟩ fun e W hW =>
      ⟨(fun hx => by cases hx), fun _ _ => hW⟩
  refine Safe.bind hcommit ?_ fun e W hW => bodyEnd_stuck e W (hW.2 e rfl)
  rintro ⟨⟩ W ⟨hW, -⟩
  obtain rfl := hW rfl
  obtain ⟨clock, hspec⟩ := h
  exact ⟨clock, u, hspec, rfl⟩

theorem insertBody_eq (rec : Record) (t : Records) :
    Spool.insertBody rec t = ((insertInto rec t).map fun u => ((), u)).mapError
      (storeError (lit "insert record " ++ quote rec.id)) := by
  unfold Spool.insertBody insertInto
  by_cases hcheck : rec.columns.Check
  · by_cases hk : t.Has rec.id
    · rw [dif_pos hcheck, dif_pos hcheck, dif_pos hk, dif_pos hk]
      rfl
    · rw [dif_pos hcheck, dif_pos hcheck, dif_neg hk, dif_neg hk]
      rfl
  · rw [dif_neg hcheck, dif_neg hcheck]
    rfl

theorem insertBody_safe (rec : Record) :
    (insertBody rec).Safe exactly (BodyEnd t fun _ => Spool.insertBody rec t) (inside t t) := by
  have hspec := insertBody_eq rec t
  cases hi : insertInto rec t with
  | ok u =>
    rw [hi] at hspec
    exact statement_ok (perform_insert_ok hi) (committed_safe ⟨fun _ => 0, hspec⟩) bodyEnd_stuck
  | error d =>
    rw [hi] at hspec
    exact statement_error (perform_insert_error hi) (Or.inl ⟨fun _ => 0, t, hspec, rfl⟩) bodyEnd_stuck

omit [Unicode] in
/-- UPDATE affects one row, or none and then it changes nothing. -/
theorem updateWhere_count {id : GoString} {s : State} {set : Columns → Columns} {n : Nat}
    (h : updateWhere t id s set = .ok (n, u)) : n = 1 ∨ n = 0 ∧ u = t := by
  rcases updateWhere_spec h with ⟨rfl, rfl, -⟩ | ⟨rfl, -⟩
  · exact Or.inr ⟨rfl, rfl⟩
  · exact Or.inl rfl

theorem updateBody_safe (s : State) (rec : Record) :
    (updateBody s rec).Safe exactly (BodyEnd t fun _ => Spool.updateBody s rec t) (inside t t) := by
  cases hu : updateWhere t rec.id s fun c => { rec.columns with id := c.id } with
  | error d =>
    refine statement_error (perform_update_error hu) (Or.inl ⟨fun _ => 0, t, ?_, rfl⟩) bodyEnd_stuck
    simp only [Spool.updateBody, hu, storeError]
  | ok x =>
    obtain ⟨n, u⟩ := x
    refine statement_ok (perform_update_ok hu) ?_ bodyEnd_stuck
    rcases updateWhere_count hu with rfl | ⟨rfl, rfl⟩
    · refine committed_safe ⟨fun _ => 0, ?_⟩
      simp only [Spool.updateBody, hu]
    · refine Or.inl ⟨fun _ => 0, u, ?_, rfl⟩
      simp only [Spool.updateBody, hu]

theorem claimBody_safe (now : Int) :
    (claimBody now).Safe exactly (BodyEnd t fun clock => Spool.claimBody now clock t)
      (inside t t) := by
  refine statement_ok rfl ?_ bodyEnd_stuck
  rw [visible_inside]
  cases hrow : Spool.selectReady t .queued (timeToMillis now) with
  | none =>
    refine ⟨fun _ => 0, ?_, rfl⟩
    simp only [Spool.claimBody, hrow]
  | some row =>
    refine Safe.lift_bind (fun m hm => clock_bind fun stamp => ?_) fun e he =>
      Or.inl ⟨fun _ => 0, t, ?_, rfl⟩
    · cases hu : updateWhere t m.id .queued (claimSet stamp) with
      | error d =>
        refine statement_error (perform_update_error hu) (Or.inl ⟨fun _ => stamp, t, ?_, rfl⟩)
          bodyEnd_stuck
        simp only [Spool.claimBody, hrow, hm, hu, storeError]
      | ok x =>
        obtain ⟨n, u⟩ := x
        refine statement_ok (perform_update_ok hu) ?_ bodyEnd_stuck
        rcases updateWhere_count hu with rfl | ⟨rfl, rfl⟩
        · refine committed_safe ⟨fun _ => stamp, ?_⟩
          simp only [Spool.claimBody, hrow, hm, hu]
        · refine Or.inl ⟨fun _ => stamp, u, ?_, rfl⟩
          simp only [Spool.claimBody, hrow, hm, hu]
    · simp only [Spool.claimBody, hrow, he]

/-- The loop of recovery depends on the readings of the clock that it makes. -/
theorem requeueAll_congr {now : Int} {clock clock' : Nat → Int} {i : Nat} {ms : List Metadata}
    (h : ∀ j, i ≤ j → clock j = clock' j) :
    Spool.requeueAll now clock i ms u = Spool.requeueAll now clock' i ms u := by
  induction ms generalizing i u with
  | nil => rfl
  | cons m ms ih =>
    have hrest : ∀ u, Spool.requeueAll now clock (i + 1) ms u =
        Spool.requeueAll now clock' (i + 1) ms u := fun u => ih fun j hj => h j (by omega)
    simp only [Spool.requeueAll, h i (le_refl i), hrest]

/-- How a part of a body ends. -/
def PartEnd {β : Type} (t : Records) (spec : (Nat → Int) → Except GoError (β × Records)) :
    Except GoError β → Session → Prop
  | .ok b, W => ∃ clock u, spec clock = .ok (b, u) ∧ W = inside t u
  | .error e, W => (∃ clock u, spec clock = .error e ∧ W = inside t u) ∨ W.Stuck t

/-- The loop of recovery, by induction on the rows that are left; the readings of the clock are put
    together from the one of this round and those of the rounds after it. -/
theorem requeueAll_safe (now : Int) (ms : List Metadata) (i : Nat) :
    (requeueAll now ms).Safe exactly (PartEnd t fun clock => Spool.requeueAll now clock i ms u)
      (inside t u) := by
  induction ms generalizing i u with
  | nil => exact ⟨fun _ => 0, u, rfl, rfl⟩
  | cons m ms ih =>
    refine clock_bind fun stamp => ?_
    cases hu : updateWhere u m.id .working (requeueSet now stamp) with
    | error d =>
      refine statement_error (perform_update_error hu) (Or.inl ⟨fun _ => stamp, u, ?_, rfl⟩)
        fun e W h => Or.inr h
      simp only [Spool.requeueAll, hu, storeError]
    | ok x =>
      obtain ⟨n, u1⟩ := x
      have hspec : ∀ clock : Nat → Int, Spool.requeueAll now
          (fun j => if j = i then stamp else clock j) i (m :: ms) u =
          (Spool.requeueAll now clock (i + 1) ms u1).map
            fun y => (m.requeued now stamp :: y.1, y.2) := by
        intro clock
        have hrest : Spool.requeueAll now (fun j => if j = i then stamp else clock j) (i + 1) ms u1 =
            Spool.requeueAll now clock (i + 1) ms u1 :=
          requeueAll_congr fun j hj => if_neg (by omega)
        simp only [Spool.requeueAll, if_true, hu, hrest]
      refine statement_ok (perform_update_ok hu) ?_ fun e W h => Or.inr h
      refine Safe.bind (ih (i + 1)) ?_ ?_
      · rintro rest W ⟨clock, u', hrest, rfl⟩
        refine ⟨fun j => if j = i then stamp else clock j, u', ?_, rfl⟩
        exact (hspec clock).trans (congrArg (Except.map _) hrest)
      · rintro e W (⟨clock, u', hrest, rfl⟩ | hW)
        · refine Or.inl ⟨fun j => if j = i then stamp else clock j, u', ?_, rfl⟩
          exact (hspec clock).trans (congrArg (Except.map _) hrest)
        · exact Or.inr hW

/-- How a part ends that only reads. -/
def ReadEnd {β : Type} (t u : Records) (value : Except GoError β) (out : Except GoError β)
    (W : Session) : Prop :=
  (out = value ∧ W = inside t u) ∨ (∃ e, out = .error e) ∧ W.Stuck t

omit [Unicode] in
theorem read_bind {β γ : Type} {value : Except GoError β} {p : Job β} {g : β → Job γ}
    {Q : Except GoError γ → Session → Prop} (hp : p.Safe exactly (ReadEnd t u value) (inside t u))
    (hok : ∀ b, value = .ok b → (g b).Safe exactly Q (inside t u))
    (herr : ∀ e, value = .error e → Q (.error e) (inside t u))
    (hcut : ∀ e W, W.Stuck t → Q (.error e) W) : (p >>= g).Safe exactly Q (inside t u) := by
  refine Safe.bind hp ?_ ?_
  · rintro b W (⟨h, rfl⟩ | ⟨⟨e, he⟩, -⟩)
    · exact hok b h.symm
    · nomatch he
  · rintro e W (⟨h, rfl⟩ | ⟨-, hW⟩)
    · exact herr e h.symm
    · exact hcut e W hW

theorem queryAllMetadata_safe (s : State) : (queryAllMetadata s).Safe exactly
    (ReadEnd t u ((Spool.selectState u s).mapM scanMetadata)) (inside t u) := by
  refine statement_ok rfl ?_ fun e W h => Or.inr ⟨⟨e, rfl⟩, h⟩
  rw [visible_inside]
  exact Safe.lift (fun ms h => Or.inl ⟨h.symm, rfl⟩) fun e h => Or.inl ⟨h.symm, rfl⟩

theorem queryAllIDs_safe :
    queryAllIDs.Safe exactly (ReadEnd t u (Spool.queryAllIDs u)) (inside t u) := by
  refine statement_ok rfl ?_ fun e W h => Or.inr ⟨⟨e, rfl⟩, h⟩
  rw [visible_inside, List.mapM_map]
  exact Safe.lift (fun ms h => Or.inl ⟨h.symm, rfl⟩) fun e h => Or.inl ⟨h.symm, rfl⟩

theorem recoverBody_safe (now : Int) :
    (recoverBody now).Safe exactly (BodyEnd t fun clock => Spool.recoverBody now clock t)
      (inside t t) := by
  refine read_bind (queryAllMetadata_safe .working) (fun working hw => ?_) (fun e he => ?_)
    bodyEnd_stuck
  · refine read_bind (queryAllMetadata_safe .submitted) (fun submitted hs => ?_) (fun e he => ?_)
      bodyEnd_stuck
    · refine read_bind queryAllIDs_safe (fun validIDs hids => ?_) (fun e he => ?_) bodyEnd_stuck
      · have hspec : ∀ clock, Spool.recoverBody now clock t =
            (Spool.requeueAll now clock 0 working t).map
              fun x => (⟨x.1, submitted, validIDs⟩, x.2) := by
          intro clock
          unfold Spool.recoverBody
          rw [hw, hs, hids]
          show (Spool.requeueAll now clock 0 working t >>= fun x =>
            pure ((⟨x.1, submitted, validIDs⟩ : Snapshot), x.2)) = _
          cases Spool.requeueAll now clock 0 working t with
          | ok x | error e => rfl
        refine Safe.bind (requeueAll_safe now working 0) ?_ ?_
        · rintro requeued W ⟨clock, u, hu, rfl⟩
          refine committed_safe ⟨clock, ?_⟩
          exact (hspec clock).trans (congrArg (Except.map _) hu)
        · rintro e W (⟨clock, u, hu, rfl⟩ | hW)
          · exact Or.inl ⟨clock, u, (hspec clock).trans (congrArg (Except.map _) hu), rfl⟩
          · exact Or.inr hW
      · refine Or.inl ⟨fun _ => 0, t, ?_, rfl⟩
        unfold Spool.recoverBody
        rw [hw, hs, he]
        rfl
    · refine Or.inl ⟨fun _ => 0, t, ?_, rfl⟩
      unfold Spool.recoverBody
      rw [hw, he]
      rfl
  · refine Or.inl ⟨fun _ => 0, t, ?_, rfl⟩
    unfold Spool.recoverBody
    rw [he]
    rfl

end Bodies

/-! ## Whole operations -/

/-- BEGIN opened a transaction. -/
def Begun (ev : Event sqlSig Choice Session) : Prop :=
  ev.op = .sql .begin ∧ ev.pre.pending = none ∧ ev.post.pending ≠ none

/-- **The context ends inside the transaction**: BEGIN has been executed, and some call after it finds
    that the context has ended. -/
def ExpiresInside (tr : SqlTrace) : Prop :=
  ∃ before after, tr = before ++ after ∧ (∃ ev ∈ before, Begun ev) ∧ ∃ ev ∈ after, Expired ev

section Operations

variable {α : Type} {t : Records} {W W' : Session} {tr : SqlTrace}

/-- How an operation ends that has got past BEGIN: as `spec` says, or with the transaction open. -/
def RestEnd (t : Records) (spec : (Nat → Int) → Except GoError (α × Records))
    (out : Except GoError α) (W : Session) : Prop :=
  (∃ clock, match spec clock with
    | .ok (a, u) => out = .ok a ∧ W = idle u
    | .error e => out = .error e ∧ W = idle t) ∨
  (W.Stuck t ∧ W.held = false)

/-- The deferred ROLLBACK, with the context of the caller: it is executed, or the transaction stays
    open; the connection is given back in both cases. -/
theorem rollback_safe {u : Records} (hW : W = inside t u ∨ W.Stuck t) :
    (finishImmediate false).Safe exactly (fun out W' => out = .ok () ∧
      ((W = inside t u ∧ W' = idle t) ∨ (W'.Stuck t ∧ W'.held = false))) W := by
  have hquery : (query .rollback).Safe exactly (fun _ W' =>
      (W = inside t u ∧ W' = ⟨t, none, true, none⟩) ∨ W'.Stuck t) W := by
    rcases hW with rfl | hW
    · exact safe_query (q := .rollback) rfl (fun _ => Or.inl ⟨rfl, rfl⟩) fun e _ =>
        Or.inr ⟨rfl, Option.some_ne_none _, Option.some_ne_none _⟩
    · exact safe_query_ended hW.2.2 fun d => Or.inr hW
  refine Prog.Safe.bind (Prog.Safe.bind (Safe.mono ?_ hquery))
  intro x W1 h
  refine Safe.ignore (P := fun _ W' => (W = inside t u ∧ W' = idle t) ∨
    (W'.Stuck t ∧ W'.held = false)) (safe_close fun r _ => ?_) fun x W' h' => ⟨rfl, h'⟩
  rcases h with ⟨hin, rfl⟩ | h
  · exact Or.inl ⟨hin, rfl⟩
  · exact Or.inr ⟨h, rfl⟩

theorem rest_safe {spec : (Nat → Int) → Except GoError (α × Records)} {body : Job (α × Bool)}
    (hbody : body.Safe exactly (BodyEnd t spec) (inside t t)) :
    (rest body).Safe exactly (RestEnd t spec) (inside t t) := by
  refine Prog.Safe.bind (Prog.Safe.bind (Safe.mono ?_ hbody))
  intro x W hend
  match x, hend with
  | .ok (a, true), ⟨clock, u, hspec, hW⟩ =>
    subst hW
    refine Safe.bind (P := fun out W => out = .ok () ∧ W = idle u)
      (Safe.ignore (P := fun _ W => W = idle u) (safe_close fun r _ => rfl)
        fun x W h => ⟨rfl, h⟩) ?_ fun e W h => nomatch h.1
    rintro - W ⟨-, rfl⟩
    refine Or.inl ⟨clock, ?_⟩
    rw [hspec]
    exact ⟨rfl, rfl⟩
  | .ok (a, false), ⟨clock, hspec, hW⟩ =>
    refine Safe.bind (rollback_safe (Or.inl hW)) ?_ fun e W h => nomatch h.1
    rintro - W ⟨-, ⟨-, rfl⟩ | h⟩
    · refine Or.inl ⟨clock, ?_⟩
      rw [hspec]
      exact ⟨rfl, rfl⟩
    · exact Or.inr h
  | .error e, .inl ⟨clock, u, hspec, hW⟩ =>
    refine Safe.bind (rollback_safe (Or.inl hW)) ?_ fun e W h => nomatch h.1
    rintro - W ⟨-, ⟨-, rfl⟩ | h⟩
    · refine Or.inl ⟨clock, ?_⟩
      rw [hspec]
      exact ⟨rfl, rfl⟩
    · exact Or.inr h
  | .error e, .inr hW =>
    refine Safe.bind (rollback_safe (u := t) (Or.inr hW)) ?_ fun e W h => nomatch h.1
    rintro - W' ⟨-, ⟨rfl, -⟩ | h⟩
    · exact absurd rfl hW.2.2
    · exact Or.inr h

/-- BEGIN with a free connection: the transaction is open, or the context has ended before it. -/
theorem beginImmediate_runs {out : Except GoError Unit}
    (h : Runs exec beginImmediate (idle t) tr out W') :
    (out = .ok () ∧ W' = inside t t ∧ ∃ ev ∈ tr, Begun ev) ∨
    (∃ op e, (op = lit "acquire sqlite connection" ∨ op = lit "begin immediate sqlite transaction") ∧
      out = .error (storeError op (contextCause e)) ∧ W' = { idle t with ended := some e } ∧
      ∀ ev ∈ tr, ¬ Begun ev) := by
  obtain ⟨c, r, W1, tr1, rfl, hE, h1⟩ := h.step_inv
  rcases exec_acquire_inv hE with ⟨-, -, -, rfl, rfl⟩ | ⟨e, -, -, rfl, rfl⟩
  · obtain ⟨c2, r2, W2, tr2, rfl, hE2, h2⟩ := h1.step_inv
    rcases exec_sql_inv hE2 with ⟨-, -, hW⟩ | ⟨e, -, -, rfl, rfl⟩
    · cases hW
      obtain ⟨rfl, rfl, rfl⟩ := h2.ret_inv
      refine Or.inl ⟨rfl, rfl, _, List.mem_cons_of_mem _ (List.mem_singleton.mpr rfl), ?_⟩
      exact ⟨rfl, rfl, Option.some_ne_none _⟩
    · obtain ⟨c3, r3, W3, tr3, rfl, hE3, h3⟩ := h2.step_inv
      obtain ⟨-, -, rfl⟩ := exec_close_inv hE3
      obtain ⟨rfl, rfl, rfl⟩ := h3.ret_inv
      refine Or.inr ⟨_, e, Or.inr rfl, rfl, rfl, ?_⟩
      rintro ev hev ⟨hop, -, hpost⟩
      rcases List.mem_cons.mp hev with rfl | hev
      · nomatch hop
      rcases List.mem_cons.mp hev with rfl | hev
      · exact hpost rfl
      rcases List.mem_singleton.mp hev with rfl
      nomatch hop
  · obtain ⟨rfl, rfl, rfl⟩ := h1.ret_inv
    refine Or.inr ⟨_, e, Or.inl rfl, rfl, rfl, ?_⟩
    rintro ev hev ⟨hop, -, -⟩
    rcases List.mem_singleton.mp hev with rfl
    nomatch hop

/-- How an operation over `t` ends.  Either the context does not end inside the transaction, and then
    the operation is one of the endings that `Transactions` lists, or it does, and then the connection
    goes back to the pool with the transaction open. -/
def OperationEnd [Unicode] (tx : Tx) (t : Records) (tr : SqlTrace)
    (out : Except GoError tx.Answer) (W : Session) : Prop :=
  W.held = false ∧
  ((¬ ExpiresInside tr ∧ W.pending = none ∧ (∃ o, tx.perform t o = some (out, W.table)) ∧
      ∀ e, out = .error e → W.table = t) ∨
    (ExpiresInside tr ∧ W.Stuck t))

theorem not_expiresInside (h : ∀ ev ∈ tr, ¬ Begun ev) : ¬ ExpiresInside tr := by
  rintro ⟨before, after, rfl, ⟨ev, hev, hbegun⟩, -⟩
  exact h ev (List.mem_append_left _ hev) hbegun

variable [Unicode]

theorem perform_run_ok {tx : Tx} {clock : Nat → Int} {a : tx.Answer} {u : Records}
    (h : tx.body clock t = .ok (a, u)) : tx.perform t (.run clock) = some (.ok a, u) := by
  simp only [Tx.perform, h]

theorem perform_run_error {tx : Tx} {clock : Nat → Int} {e : GoError}
    (h : tx.body clock t = .error e) : tx.perform t (.run clock) = some (.error e, t) := by
  simp only [Tx.perform, h]

theorem immediate_end (tx : Tx) {body : Job (tx.Answer × Bool)} {out : Except GoError tx.Answer}
    (hstages : tx.stageOp .acquire = some (lit "acquire sqlite connection") ∧
      tx.stageOp .begin = some (lit "begin immediate sqlite transaction"))
    (hbody : body.Safe exactly (BodyEnd t fun clock => tx.body clock t) (inside t t))
    (h : Runs exec (immediate body) (idle t) tr out W') : OperationEnd tx t tr out W' := by
  rcases h.act_bind_inv with ⟨_, tr1, tr2, W1, rfl, h1, h2⟩ | ⟨e, rfl, h1⟩
  · rcases beginImmediate_runs h1 with ⟨-, rfl, hbegun⟩ | ⟨op, e, -, he, -, -⟩
    · have hquiet : ∀ ev ∈ tr1, ¬ Expired ev := ((runs_ended h1).mp rfl).2
      have hiff : ExpiresInside (tr1 ++ tr2) ↔ W'.ended ≠ none := by
        rw [Ne, runs_ended h2]
        constructor
        · rintro ⟨before, after, htr, -, ev, hev, hexp⟩ ⟨-, hnone⟩
          have hmem : ev ∈ tr1 ++ tr2 := htr ▸ List.mem_append_right _ hev
          rcases List.mem_append.mp hmem with hmem | hmem
          · exact hquiet ev hmem hexp
          · exact hnone ev hmem hexp
        · intro hex
          have hsome : ∃ ev ∈ tr2, Expired ev := by
            by_contra hno
            exact hex ⟨rfl, fun ev hev hexp => hno ⟨ev, hev, hexp⟩⟩
          exact ⟨tr1, tr2, rfl, hbegun, hsome⟩
      rcases ends_of_safe h2 (rest_safe hbody) with ⟨clock, hspec⟩ | ⟨hstuck, hheld⟩
      · cases hb : tx.body clock t with
        | ok x =>
          simp only [hb] at hspec
          obtain ⟨rfl, rfl⟩ := hspec
          exact ⟨rfl, Or.inl ⟨fun hex => hiff.mp hex rfl, rfl, ⟨_, perform_run_ok hb⟩,
            fun e he => nomatch he⟩⟩
        | error e =>
          simp only [hb] at hspec
          obtain ⟨rfl, rfl⟩ := hspec
          exact ⟨rfl, Or.inl ⟨fun hex => hiff.mp hex rfl, rfl, ⟨_, perform_run_error hb⟩,
            fun e he => rfl⟩⟩
      · exact ⟨hheld, Or.inr ⟨hiff.mpr hstuck.2.2, hstuck⟩⟩
    · nomatch he
  · rcases beginImmediate_runs h1 with ⟨he, -, -⟩ | ⟨op, d, hop, he, rfl, hnone⟩
    · nomatch he
    · cases he
      refine ⟨rfl, Or.inl ⟨not_expiresInside hnone, rfl, ?_, fun _ _ => rfl⟩⟩
      rcases hop with rfl | rfl
      · exact ⟨.fault .acquire (contextCause d), congrArg (Option.map _) hstages.1⟩
      · exact ⟨.fault .begin (contextCause d), congrArg (Option.map _) hstages.2⟩

/-- The query outside a transaction leaves the connection as it is, and answers from what it sees. -/
theorem nextSubmittedReady_safe (now : Int) (hfree : W.held = false) :
    (nextSubmittedReady now).Safe exactly (fun out W' => W'.table = W.table ∧
      W'.pending = W.pending ∧ W'.held = false ∧
      ((∃ e, out = .error (storeError (lit "query spool metadata") (contextCause e))) ∨
        nextSubmittedBody now W.visible = out.map fun a => (a, W.visible))) W := by
  refine acquire_bind (fun hlive => ?_) fun e _ => ⟨rfl, rfl, hfree, Or.inl ⟨e, rfl⟩⟩
  have hquery : (query (.selectReady .submitted (timeToMillis now))).Safe exactly (fun out W' =>
      W'.table = W.table ∧ W'.pending = W.pending ∧
      (out = .ok (Spool.selectReady W.visible .submitted (timeToMillis now)) ∨
        ∃ e, out = .error (contextCause e))) { W with held := true } :=
    safe_query (q := .selectReady .submitted (timeToMillis now)) rfl
      (fun _ => ⟨rfl, rfl, Or.inl rfl⟩) fun e _ => ⟨rfl, rfl, Or.inr ⟨e, rfl⟩⟩
  refine Prog.Safe.bind (Prog.Safe.bind (Prog.Safe.bind (Safe.mono ?_ hquery)))
  rintro x W1 ⟨htable, hpending, rfl | ⟨e, rfl⟩⟩
  · refine Prog.Safe.bind (Prog.Safe.bind (safe_close fun r _ => ?_))
    cases hrow : Spool.selectReady W.visible .submitted (timeToMillis now) with
    | none =>
      refine ⟨htable, hpending, rfl, Or.inr ?_⟩
      simp only [nextSubmittedBody, hrow, Except.map]
    | some row =>
      have hvalue : nextSubmittedBody now W.visible =
          ((scanMetadata row).map some).map fun a => (a, W.visible) := by
        simp only [nextSubmittedBody, hrow]
        cases scanMetadata row with
        | ok m | error e => rfl
      exact Safe.lift
        (fun a h => ⟨htable, hpending, rfl, Or.inr (hvalue.trans (congrArg _ h))⟩)
        fun e h => ⟨htable, hpending, rfl, Or.inr (hvalue.trans (congrArg _ h))⟩
  · refine Prog.Safe.bind (safe_close fun r _ => ?_)
    exact ⟨htable, hpending, rfl, Or.inl ⟨e, rfl⟩⟩

theorem nextSubmittedReady_end (now : Int) {out : Except GoError (Option Metadata)}
    (h : Runs exec (nextSubmittedReady now) (idle t) tr out W') :
    OperationEnd (.nextSubmitted now) t tr out W' := by
  have huses : (nextSubmittedReady now).Uses (S := sqlSig) (fun o => o ≠ .sql .begin) := by
    refine Uses.bind (Uses.mapError (uses_step nofun fun r => trivial)) fun _ => ?_
    refine Uses.bind (Uses.onFail (Uses.mapError (uses_step nofun fun r => trivial))
      (uses_step nofun fun r => trivial)) fun found => ?_
    refine Uses.bind (Uses.ignore (uses_step nofun fun r => trivial)) fun _ => ?_
    cases found with
    | none => exact uses_pure _
    | some row => exact uses_lift _ _
  have hnone : ¬ ExpiresInside tr :=
    not_expiresInside fun ev hev hbegun => h.uses huses ev hev hbegun.1
  obtain ⟨htable, hpending, hheld, hout⟩ :=
    ends_of_safe h (nextSubmittedReady_safe now (W := idle t) rfl)
  refine ⟨hheld, Or.inl ⟨hnone, hpending, ?_, fun _ _ => htable⟩⟩
  rw [show W'.table = t from htable]
  rcases hout with ⟨e, rfl⟩ | hbody
  · exact ⟨.fault .query (contextCause e), rfl⟩
  · cases out with
    | ok a => exact ⟨.run fun _ => 0, perform_run_ok hbody⟩
    | error e => exact ⟨.run fun _ => 0, perform_run_error hbody⟩

/-- **The statements are the transaction**: an operation ends in one of the ways that `Transactions`
    lists, exactly if its context does not end inside the transaction. -/
theorem operation_end (tx : Tx) {out : Except GoError tx.Answer}
    (h : Runs exec (operation tx) (idle t) tr out W') : OperationEnd tx t tr out W' := by
  cases tx with
  | insert rec => exact immediate_end (.insert rec) ⟨rfl, rfl⟩ (insertBody_safe rec) h
  | claim now => exact immediate_end (.claim now) ⟨rfl, rfl⟩ (claimBody_safe now) h
  | update s rec => exact immediate_end (.update s rec) ⟨rfl, rfl⟩ (updateBody_safe s rec) h
  | recover now => exact immediate_end (.recover now) ⟨rfl, rfl⟩ (recoverBody_safe now) h
  | nextSubmitted now => exact nextSubmittedReady_end now h

omit [Unicode] in
/-- A deferred ROLLBACK after which the transaction is still open has changed nothing that can be seen. -/
theorem finishImmediate_visible {e : GoError} {out : Except GoError α}
    (h : Runs exec (finishImmediate false >>= fun _ => .fail e : Job α) W tr out W')
    (hopen : W'.pending ≠ none) : out = .error e ∧ W'.visible = W.visible := by
  obtain ⟨c, r, W1, tr1, -, hE, h1⟩ := h.step_inv
  obtain ⟨c2, r2, W2, tr2, -, hE2, h2⟩ := h1.step_inv
  obtain ⟨-, -, rfl⟩ := exec_close_inv hE2
  obtain ⟨rfl, -, rfl⟩ := h2.ret_inv
  refine ⟨rfl, ?_⟩
  rcases exec_sql_inv hE with ⟨-, -, hW⟩ | ⟨d, -, -, -, rfl⟩
  · obtain ⟨table, pending, held, ended⟩ := W
    cases held with
    | false =>
      cases hW
      rfl
    | true =>
      cases pending with
      | none | some u =>
        cases hW
        exact absurd rfl hopen
  · rfl

/-- **What an INSERT leaves, also when its context ends inside the transaction**: a query on the
    connection then sees what one of the endings of `Transactions` leaves. -/
theorem insert_visible {rec : Record} {out : Except GoError Unit}
    (h : Runs exec (operation (.insert rec)) (idle t) tr out W') :
    ∃ o, (Tx.insert rec).perform t o = some (out, W'.visible) := by
  obtain ⟨-, ⟨-, hpending, hperform, -⟩ | ⟨-, -, hopen, -⟩⟩ := operation_end (.insert rec) h
  · unfold visible
    rw [hpending]
    exact hperform
  have hspec := insertBody_eq rec t
  -- the transaction is open at the end, so COMMIT and ROLLBACK were not executed
  rcases h.act_bind_inv with ⟨_, tr1, tr2, W1, -, h1, h2⟩ | ⟨e, -, h1⟩
  swap
  · rcases beginImmediate_runs h1 with ⟨he, -⟩ | ⟨op, d, -, -, rfl, -⟩
    · nomatch he
    · exact absurd rfl hopen
  rcases beginImmediate_runs h1 with ⟨-, rfl, -⟩ | ⟨op, d, -, he, -⟩
  swap
  · nomatch he
  obtain ⟨c, r, W2, tr3, -, hE, h3⟩ := h2.step_inv
  rcases exec_sql_inv hE with ⟨-, -, hW⟩ | ⟨e, -, -, rfl, rfl⟩
  · cases hi : insertInto rec t with
    | ok u =>
      rw [hi] at hspec
      cases hW.symm.trans (perform_insert_ok (W := inside t t) hi)
      obtain ⟨c4, r4, W4, tr4, -, hE4, h4⟩ := h3.step_inv
      rcases exec_sql_inv hE4 with ⟨-, -, hW⟩ | ⟨e, -, -, rfl, rfl⟩
      · cases hW
        obtain ⟨c5, r5, W5, tr5, -, hE5, h5⟩ := h4.step_inv
        obtain ⟨-, hok, rfl⟩ := exec_close_inv hE5
        obtain rfl := hok rfl
        obtain ⟨c6, r6, W6, tr6, -, hE6, h6⟩ := h5.step_inv
        obtain ⟨-, -, rfl⟩ := exec_close_inv hE6
        obtain ⟨-, -, rfl⟩ := h6.ret_inv
        exact absurd rfl hopen
      · obtain ⟨c5, r5, W5, tr5, -, hE5, h5⟩ := h4.step_inv
        obtain ⟨-, -, rfl⟩ := exec_close_inv hE5
        obtain ⟨rfl, hsame⟩ := finishImmediate_visible h5 hopen
        refine ⟨.lost (fun _ => 0) .leftOpen (contextCause e), ?_⟩
        rw [hsame]
        simp only [Tx.perform, Tx.commits, Tx.body, hspec]
        rfl
    | error d =>
      rw [hi] at hspec
      cases hW.symm.trans (perform_insert_error (W := inside t t) hi)
      obtain ⟨rfl, hsame⟩ := finishImmediate_visible h3 hopen
      rw [hsame]
      exact ⟨.run fun _ => 0, perform_run_error hspec⟩
  · obtain ⟨rfl, hsame⟩ := finishImmediate_visible h3 hopen
    rw [hsame]
    exact ⟨.fault (.exec rec.id) (contextCause e), rfl⟩

/-- **A failed operation has left nothing**: no transaction is open on the connection, a query sees the
    table as it was, and every operation with a live context runs as if the failed one had not been
    called. -/
structure Usable (t : Records) (W : Session) : Prop where
  closed : W.pending = none
  unseen : W.visible = t
  next : ∀ (tx : Tx) (tr : SqlTrace) (out : Except GoError tx.Answer)
    (W' : Session), Runs exec (operation tx) W.renewed tr out W' ↔
      Runs exec (operation tx) (idle t) tr out W'

/-- **When a failed operation leaves the store usable**: exactly if its context does not end inside the
    transaction.  The deferred ROLLBACK has the same context, so it is not executed where it is
    needed. -/
theorem operation_usable_iff (tx : Tx) {e : GoError}
    (h : Runs exec (operation tx) (idle t) tr (.error e) W') :
    Usable t W' ↔ ¬ ExpiresInside tr := by
  obtain ⟨hheld, ⟨hno, hclosed, -, htable⟩ | ⟨hex, hstuck⟩⟩ := operation_end tx h
  · refine ⟨fun _ => hno, fun _ => ?_⟩
    have hrenewed : W'.renewed = idle t := by
      obtain ⟨table, pending, held, ended⟩ := W'
      cases hheld
      cases hclosed
      cases htable e rfl
      rfl
    refine ⟨hclosed, ?_, fun tx tr out W'' => by rw [hrenewed]⟩
    show W'.pending.getD W'.table = t
    rw [hclosed]
    exact htable e rfl
  · exact ⟨fun husable => absurd husable.closed hstuck.2.1, fun hno => absurd hex hno⟩

/-- A table with a record in state `working`. -/
def workingTable : Records := sampleWorking

/-- The record, delivered. -/
def delivered : Record := { (sampleColumns .working).metadata.toRecord with state := .succeeded }

/-- What the outside does: the context stays live, or it has ended when COMMIT is reached. -/
def untilCommit (ends : Bool) : Op → Choice
  | .now => .time (2 * second)
  | .sql .commit => if ends then .expire .deadlineExceeded else .go
  | .sql .rollback => if ends then .expire .deadlineExceeded else .go
  | _ => .go

omit [Unicode] in
/-- A record that is not in the state asked for: the operation fails, and ROLLBACK is executed. -/
theorem operation_usable_wrong_state :
    letI := Unicode.ascii
    ∃ (tr : SqlTrace) (e : GoError) (W' : Session),
      Runs exec (operation (.update .queued delivered)) (idle workingTable) tr (.error e) W' ∧
      Usable workingTable W' := by
  let _ := Unicode.ascii
  obtain ⟨out, tr, W', hrun, htest⟩ := Prog.exists_runs_of_run (E := exec) (untilCommit false) 40
    (operation (.update .queued delivered)) (idle workingTable) (fun x => (match x.1 with
      | .ok _ => false
      | .error _ => true) && x.2.1.all fun ev => match ev.choice with
        | .expire _ => false
        | _ => true) (by decide +kernel)
  cases out with
  | ok a => nomatch htest
  | error e =>
    refine ⟨tr, e, W', hrun, (operation_usable_iff _ hrun).mpr ?_⟩
    rintro ⟨before, after, rfl, -, ev, hev, d, hd⟩
    have hall := List.all_eq_true.mp htest ev (List.mem_append_right _ hev)
    rw [hd] at hall
    nomatch hall

/-! ## After that -/

/-- A transaction is open on a connection that is in the pool. -/
def Leaked (W : Session) : Prop := W.pending ≠ none ∧ W.held = false

/-- The connection is as it was: the same table, the same open transaction, back in the pool. -/
def Unchanged (W W' : Session) : Prop :=
  W'.table = W.table ∧ W'.pending = W.pending ∧ W'.held = false

omit [Unicode] in
/-- BEGIN inside an open transaction fails. -/
theorem beginImmediate_leaked (hW : Leaked W) :
    beginImmediate.Safe exactly (fun out W' => (∃ e, out = .error e) ∧ Unchanged W W') W := by
  refine acquire_bind (fun hlive => ?_) fun e _ => ⟨⟨_, rfl⟩, rfl, rfl, hW.2⟩
  have hbegin : (query .begin).Safe exactly (fun out W' => (∃ d, out = .error d) ∧
      W'.table = W.table ∧ W'.pending = W.pending) { W with held := true } := by
    refine safe_query (q := .begin) rfl (fun _ => ?_) fun e _ => ⟨⟨_, rfl⟩, rfl, rfl⟩
    obtain ⟨u, hu⟩ := Option.ne_none_iff_exists'.mp hW.1
    have hnested : Query.begin.perform { W with held := true } =
        (.error nestedBegin, { W with held := true }) := by
      simp only [Query.perform, hu]
    rw [hnested]
    exact ⟨⟨_, rfl⟩, rfl, rfl⟩
  refine Prog.Safe.bind (Prog.Safe.bind (Safe.mono ?_ hbegin))
  rintro x W1 ⟨⟨d, rfl⟩, htable, hpending⟩
  refine Prog.Safe.bind (safe_close fun r _ => ?_)
  exact ⟨⟨_, rfl⟩, htable, hpending, rfl⟩

/-- So does every transaction; and the query goes on seeing what is not committed. -/
theorem operation_leaked (tx : Tx) (hW : Leaked W) :
    (operation tx).Safe exactly (fun out W' =>
      (tx.commits = true → ∃ e, out = .error e) ∧ Unchanged W W') W := by
  have himmediate : ∀ {α : Type} (body : Job (α × Bool)), (immediate body).Safe exactly
      (fun out W' => (∃ e, out = .error e) ∧ Unchanged W W') W := by
    intro α body
    refine Safe.bind (beginImmediate_leaked hW) ?_ fun e W' h => ⟨⟨e, rfl⟩, h.2⟩
    rintro a W' ⟨⟨e, he⟩, -⟩
    nomatch he
  cases tx with
  | insert rec => exact Safe.mono (fun _ _ h => ⟨fun _ => h.1, h.2⟩) (himmediate (insertBody rec))
  | claim now => exact Safe.mono (fun _ _ h => ⟨fun _ => h.1, h.2⟩) (himmediate (claimBody now))
  | update s rec => exact Safe.mono (fun _ _ h => ⟨fun _ => h.1, h.2⟩) (himmediate (updateBody s rec))
  | recover now => exact Safe.mono (fun _ _ h => ⟨fun _ => h.1, h.2⟩) (himmediate (recoverBody now))
  | nextSubmitted now =>
    exact Safe.mono (fun _ _ h => ⟨(nomatch ·), h.1, h.2.1, h.2.2.1⟩)
      (nextSubmittedReady_safe now hW.2)

/-- One more operation, with a context of its own. -/
def Step (W W' : Session) : Prop :=
  ∃ (tx : Tx) (tr : SqlTrace) (out : Except GoError tx.Answer),
    Runs exec (operation tx) W.renewed tr out W'

/-- **The transaction stays open for good**: whatever operations follow, the table and the open
    transaction stay as they are, and every transaction fails. -/
theorem stuck_forever (hW : Leaked W) (h : Relation.ReflTransGen Step W W') :
    W'.table = W.table ∧ W'.pending = W.pending ∧ Leaked W' ∧
    ∀ (tx : Tx) (tr : SqlTrace) (out : Except GoError tx.Answer)
      (W'' : Session), tx.commits = true → Runs exec (operation tx) W'.renewed tr out W'' →
      ∃ e, out = .error e := by
  have hsame : W'.table = W.table ∧ W'.pending = W.pending ∧ Leaked W' := by
    induction h with
    | refl => exact ⟨rfl, rfl, hW⟩
    | @tail W1 W2 _ hstep ih =>
      obtain ⟨htable, hpending, hleaked⟩ := ih
      obtain ⟨tx, tr, out, hrun⟩ := hstep
      obtain ⟨-, ht, hp, hheld⟩ := ends_of_safe hrun (operation_leaked tx (W := W1.renewed) hleaked)
      refine ⟨ht.trans htable, hp.trans hpending, ?_, hheld⟩
      rw [hp]
      exact hleaked.1
  refine ⟨hsame.1, hsame.2.1, hsame.2.2, fun tx tr out W'' htx hrun => ?_⟩
  exact (ends_of_safe hrun (operation_leaked tx (W := W'.renewed) hsame.2.2)).1 htx

omit [Unicode] in
/-- **The leak**: a record is marked as succeeded, and the context of the caller ends at COMMIT.  The
    operation fails; the connection goes back with the transaction open; a query sees the record as
    succeeded, which is not committed; and every transaction after that fails. -/
theorem commit_timeout_leaks :
    letI := Unicode.ascii
    ∃ (tr : SqlTrace) (e : GoError) (W' : Session),
      Runs exec (operation (.update .working delivered)) (idle workingTable) tr (.error e) W' ∧
      ExpiresInside tr ∧ ¬ Usable workingTable W' ∧ W'.pending ≠ none ∧
      W'.visible.rows.map (fun row => row.state) = [.succeeded] ∧
      W'.table.rows.map (fun row => row.state) = [.working] ∧
      ∀ W'', Relation.ReflTransGen Step W' W'' →
        ∀ (tx : Tx) (tr : SqlTrace) (out : Except GoError tx.Answer)
          (W3 : Session), tx.commits = true → Runs exec (operation tx) W''.renewed tr out W3 →
          ∃ e, out = .error e := by
  let _ := Unicode.ascii
  obtain ⟨out, tr, W', hrun, htest⟩ := Prog.exists_runs_of_run (E := exec) (untilCommit true) 40
    (operation (.update .working delivered)) (idle workingTable) (fun x => (match x.1 with
      | .ok _ => false
      | .error _ => true) && (x.2.2.pending.isSome &&
        decide (x.2.2.visible.rows.map (fun row => row.state) = [.succeeded] ∧
          x.2.2.table.rows.map (fun row => row.state) = [.working]))) (by decide +kernel)
  cases out with
  | ok a => nomatch htest
  | error e =>
    obtain ⟨hopen, hrows⟩ := Bool.and_eq_true_iff.mp (Bool.and_eq_true_iff.mp htest).2
    have hpending : W'.pending ≠ none := Option.isSome_iff_ne_none.mp hopen
    obtain ⟨hheld, ⟨-, hclosed, -⟩ | ⟨hex, -⟩⟩ := operation_end _ hrun
    · exact absurd hclosed hpending
    · refine ⟨tr, e, W', hrun, hex, fun husable => hpending husable.closed, hpending,
        (of_decide_eq_true hrows).1, (of_decide_eq_true hrows).2, fun W'' hsteps => ?_⟩
      exact (stuck_forever ⟨hpending, hheld⟩ hsteps).2.2.2

end Operations

end SmtpCloudRelay.Spool.Sql
