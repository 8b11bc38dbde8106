/-
  AN ENQUEUE THAT FAILS, and the row it may leave behind.

  `Enqueue` saves the payload first and inserts the row then, so a row is never ahead of its payload:
  whatever fails before the transaction leaves no row (`enqueue_runs`, the early case), and a
  transaction that succeeds finds the complete payload in place.

  When the transaction FAILS, the payload is removed again.  This takes the failure at its word.  But
  the COMMIT may have been applied all the same, with only its answer lost, or the connection may have
  failed to close after it, or the context has ended between INSERT and COMMIT and the transaction is
  left open on the only connection (`Mishap`): then the row is there, and the clean-up removes the
  payload under it.

  `enqueue_row_has_payload_iff` says that this is the only way: a row is left without its payload exactly
  when the transaction was lost in this sense and the clean-up after it has removed an entry.
-/
import SmtpCloudRelay.Spool.Sweep
import SmtpCloudRelay.Spool.Identifiers

namespace SmtpCloudRelay.Spool

open Go Lib Act List
open Prog (Runs)

/-! ## What a trace says about it -/

/-- The record id that a step has drawn. -/
def drawn : (o : Op) → o.Res → Option GoString
  | .newID, .ok id => some id
  | _, _ => none

/-- A transaction was reported as failed, and what it did is there: it is applied, or left open. -/
def lostCommit (ev : SpoolEvent) : Bool :=
  match ev.choice with
  | .tx out => out.isLost
  | _ => false

section Trace

variable (tr : Trace)

/-- The id was drawn. -/
def Drew (id : GoString) : Prop := ∃ ev ∈ tr, drawn ev.op ev.res = some id

/-- A commit was lost, and something was removed after it. -/
def RemovedAfterLostCommit : Prop :=
  ∃ tr1 ev tr2, tr = tr1 ++ ev :: tr2 ∧ lostCommit ev = true ∧
    ∃ ev' ∈ tr2, ∃ q, removed ev'.op ev'.res = some q

end Trace

/-- The steps that neither draw an id nor touch the table. -/
def Aside : Op → Prop
  | .newID => False
  | .tx _ => False
  | _ => True

theorem Aside.of_confined {R : Path → Prop} (o : Op) (h : Confined R o) : Aside o := by
  cases o with
  | newID | tx t => exact h.elim
  | _ => trivial

theorem Aside.isTx {o : Op} (h : Aside o) : o.isTx = false := by
  cases o with
  | tx t => exact h.elim
  | _ => rfl

theorem Aside.drawn {o : Op} (h : Aside o) (r : o.Res) : drawn o r = none := by
  cases o with
  | newID => exact h.elim
  | _ => rfl

section Runs

variable [Unicode] {s : SpoolStore} {msg : Message} {W W' : World} {id : GoString}
variable {tr : Trace}

/-- Only transactions lose commits. -/
theorem not_lostCommit {ev : SpoolEvent} (htx : ev.op.isTx = false)
    (hE : exec ev.op ev.choice ev.pre = some (ev.res, ev.post)) : lostCommit ev = false := by
  obtain ⟨o, c, r, w, w'⟩ := ev
  cases c with
  | tx out =>
    cases o with
    | tx t => nomatch htx
    | _ => nomatch hE
  | _ => rfl

/-- What a run aside leaves alone. -/
structure StandsAside (W W' : World) (tr : Trace) : Prop where
  rows : W'.rows = W.rows
  drew : ∀ id, ¬ Drew tr id
  lost : ∀ ev ∈ tr, lostCommit ev = false

theorem runs_aside {α : Type} {p : Prog spoolSig α} {a : α} (h : Runs exec p W tr a W')
    (hp : p.Uses Aside) : StandsAside W W' tr where
  rows := h.induct (fun W W' => W'.rows = W.rows) (fun _ => rfl) (fun _ _ _ h1 h2 => h2.trans h1)
    fun ev hev => exec_rows (h.valid ev hev) (h.uses hp ev hev).isTx
  drew id := by
    rintro ⟨ev, hev, hid⟩
    rw [Aside.drawn (h.uses hp ev hev)] at hid
    nomatch hid
  lost ev hev := not_lostCommit (h.uses hp ev hev).isTx (h.valid ev hev)

omit [Unicode] in
/-- No commit is lost where none is. -/
theorem not_removedAfterLost (h : ∀ ev ∈ tr, lostCommit ev = false) : ¬ RemovedAfterLostCommit tr := by
  rintro ⟨tr1, ev, tr2, rfl, hlost, -⟩
  rw [h ev (by simp)] at hlost
  nomatch hlost

/-! ## The call up to its transaction -/

/-- Saved and not yet inserted: the id is drawn, the payload complete, and the table as before. -/
structure Saved (msg : Message) (W W1 : World) (tr : Trace) (id : GoString) : Prop where
  canonical : Canonical id
  complete : CompleteAt W1.files id msg
  rows : W1.rows = W.rows
  drew : ∀ id', Drew tr id' ↔ id' = id
  lost : ∀ ev ∈ tr, lostCommit ev = false

/-- How a call of Enqueue begins: it fails without having touched the table, or it gets to its
    transaction with the complete payload in place. -/
inductive Begins (s : SpoolStore) (msg : Message) (W : World)
    (tr : Trace) (out : Except GoError Record) (W' : World) : Prop where
  | early (e : GoError) : out = .error e → W'.rows = W.rows →
      (∀ ev ∈ tr, lostCommit ev = false) → Begins s msg W tr out W'
  | saved {id : GoString} {now : Int} {tr1 tr2 : Trace} {W1 : World} :
      tr = tr1 ++ tr2 → Saved msg W W1 tr1 id →
      Runs exec ((insertRecord (.enqueued id msg now)).onFail (s.payloads.remove id) >>= fun _ =>
        pure (.enqueued id msg now) : Task Record) W1 tr2 out W' → Begins s msg W tr out W'

/-- An id that is drawn is canonical. -/
theorem newID_canonical {c : Choice} (h : exec .newID c W = some (.ok id, W')) : Canonical id := by
  obtain ⟨hanswer, -, -⟩ := exec_other h rfl rfl
  cases c with
  | random b =>
    have hid : newUUIDv4 b = id := Except.ok.inj (Option.some.inj hanswer)
    exact hid ▸ newUUIDv4_canonical b
  | _ => nomatch hanswer

variable {out : Except GoError Record} {x : Except GoError Unit}

/-- Saving the message under the id that was drawn. -/
theorem saveDrawn_runs {now : Int} {W0 : World} {before : Trace} (hid : Canonical id)
    (hrows : W0.rows = W.rows) (hdrew : ∀ id', Drew before id' ↔ id' = id)
    (hlost : ∀ ev ∈ before, lostCommit ev = false) (h : Runs exec (do
      (s.payloads.save id msg).mapError (.wrapStoreError (lit "save payload " ++ quote id))
      (insertRecord (.enqueued id msg now)).onFail (s.payloads.remove id)
      pure (.enqueued id msg now) : Task Record) W0 tr out W') :
    Begins s msg W (before ++ tr) out W' := by
  have hsaves : (s.payloads.save id msg).Uses Aside :=
    (PayloadStore.save_confined _ _).mono Aside.of_confined
  rcases h.act_bind_inv with ⟨_, tr1, tr2, W1, rfl, hsave, hrest⟩ | ⟨e, rfl, hsave⟩
  · obtain ⟨x, hsaved, hx⟩ := hsave.mapError_inv
    cases x with
    | error e => nomatch hx
    | ok u =>
      have haside := runs_aside hsaved hsaves
      have hcomplete := (save_complete hsaved).2
      rw [hid.trimmed] at hcomplete
      refine .saved (append_assoc ..).symm ⟨hid, hcomplete, haside.rows.trans hrows, ?_, ?_⟩ hrest
      · intro id'
        rw [← hdrew id']
        constructor
        · rintro ⟨ev, hev, hdrawn⟩
          rcases mem_append.mp hev with hev | hev
          · exact ⟨ev, hev, hdrawn⟩
          · exact (haside.drew id' ⟨ev, hev, hdrawn⟩).elim
        · rintro ⟨ev, hev, hdrawn⟩
          exact ⟨ev, mem_append_left _ hev, hdrawn⟩
      · intro ev hev
        exact (mem_append.mp hev).elim (hlost ev) (haside.lost ev)
  · obtain ⟨x, hsaved, -⟩ := hsave.mapError_inv
    have haside := runs_aside hsaved hsaves
    refine .early e rfl (haside.rows.trans hrows) fun ev hev => ?_
    exact (mem_append.mp hev).elim (hlost ev) (haside.lost ev)

/-- **A call of Enqueue**, up to its transaction. -/
theorem enqueue_begins (h : Runs exec (s.enqueue msg) W tr out W') :
    Begins s msg W tr out W' := by
  have hsame : ∀ {o : Op} {c : Choice} {r : o.Res} {W W' : World}, o.isTx = false →
      exec o c W = some (r, W') → W'.rows = W.rows ∧ lostCommit ⟨o, c, r, W, W'⟩ = false :=
    fun htx hE => ⟨exec_rows hE htx, not_lostCommit htx hE⟩
  obtain ⟨c1, ended, W1, tr1, rfl, hE1, h⟩ := h.step_inv
  have h1 := hsame (o := .ctxErr) rfl hE1
  cases ended with
  | some e =>
    obtain ⟨rfl, rfl, rfl⟩ := h.ret_inv
    exact .early _ rfl h1.1 (by simpa using h1.2)
  | none =>
    obtain ⟨c2, now, W2, tr2, rfl, hE2, h⟩ := h.step_inv
    have h2 := hsame (o := .now) rfl hE2
    obtain ⟨c3, drew, W3, tr3, rfl, hE3, h⟩ := h.step_inv
    have h3 := hsame (o := .newID) rfl hE3
    have hrows : W3.rows = W.rows := h3.1.trans (h2.1.trans h1.1)
    have hlost : ∀ ev ∈ [(⟨.ctxErr, c1, none, W, W1⟩ : SpoolEvent),
        ⟨.now, c2, now, W1, W2⟩, ⟨.newID, c3, drew, W2, W3⟩], lostCommit ev = false := by
      simp only [mem_cons, not_mem_nil, or_false]
      rintro ev (rfl | rfl | rfl)
      · exact h1.2
      · exact h2.2
      · exact h3.2
    cases drew with
    | error e =>
      obtain ⟨rfl, rfl, rfl⟩ := h.ret_inv
      exact .early _ rfl hrows hlost
    | ok id =>
      refine saveDrawn_runs (newID_canonical hE3) hrows (fun id' => ?_) hlost h
      constructor
      · rintro ⟨ev, hev, hdrawn⟩
        simp only [mem_cons, not_mem_nil, or_false] at hev
        rcases hev with rfl | rfl | rfl
        · nomatch hdrawn
        · nomatch hdrawn
        · exact (Option.some.inj hdrawn).symm
      · rintro rfl
        exact ⟨_, mem_cons_of_mem _ (mem_cons_of_mem _ (mem_cons_self ..)), rfl⟩

/-! ## The transaction, and the clean-up after it -/

/-- How an INSERT ends. -/
inductive Inserts (rec : Record) (W : World) :
    Trace → Except GoError Unit → World → Prop where
  | done {tr : Trace} {row : Row} (hk : ¬ W.rows.Has row.id) :
      row.toColumns = rec.columns → (∀ ev ∈ tr, lostCommit ev = false) →
      Inserts rec W tr (.ok ()) { W with rows := W.rows.insert row hk }
  | failed {tr : Trace} (e : GoError) :
      (∀ ev ∈ tr, lostCommit ev = false) → Inserts rec W tr (.error e) W
  | lost {ev : SpoolEvent} {row : Row} (e : GoError) (hk : ¬ W.rows.Has row.id) :
      row.toColumns = rec.columns → lostCommit ev = true →
      Inserts rec W [ev] (.error e) { W with rows := W.rows.insert row hk }

theorem insertRecord_runs {rec : Record} (h : Runs exec (insertRecord rec) W tr x W') :
    Inserts rec W tr x W' := by
  rcases h.lift_bind_inv with ⟨_, -, h⟩ | ⟨e, -, rfl, rfl, rfl⟩
  · obtain ⟨c, r, W1, tr', rfl, hE, hret⟩ := h.step_inv
    obtain ⟨rfl, rfl, rfl⟩ := hret.ret_inv
    obtain ⟨out, rows, rfl, hp, rfl⟩ := exec_tx hE
    rcases Tx.perform_cases hp with ⟨clock, a, hbody, ⟨hout, rfl⟩ | ⟨hout, e, rfl⟩⟩ | ⟨rfl, hout, e, rfl⟩
    · obtain ⟨row, hk, hcols, rfl⟩ := insertBody_ok hbody
      exact .done hk hcols (forall_mem_singleton.mpr hout)
    · obtain ⟨row, hk, hcols, rfl⟩ := insertBody_ok hbody
      exact .lost e hk hcols hout
    · exact .failed e (forall_mem_singleton.mpr hout)
  · exact .failed e (forall_mem_nil _)

/-- **The clean-up** removes an entry of the payload, or it changes nothing. -/
theorem remove_runs {p : PayloadStore} (h : Runs exec (p.remove id) W tr x W') :
    W'.rows = W.rows ∧
    (((∀ ev ∈ tr, removed ev.op ev.res = none) ∧ ∀ q, W'.files.get q = W.files.get q) ∨
      ∃ ev ∈ tr, ∃ q, removed ev.op ev.res = some q ∧ Below (payloadDir (trimSpace id)) q ∧
        W.files.get q ≠ none ∧ W'.files.get q = none) := by
  have hconfined := PayloadStore.remove_confined (s := p) id
  refine ⟨(runs_aside h (hconfined.mono Aside.of_confined)).rows, ?_⟩
  have hbelow : ∀ ev ∈ tr, ∀ q, removed ev.op ev.res = some q → Below (payloadDir (trimSpace id)) q :=
    fun ev hev q hq => removed_touched (h.uses hconfined ev hev) hq
  have hcuts : (do
      sysOr (about p.root "open payload root" payloadsRoot) (.openDir payloadsRoot)
      removeEntryTreeAt p.root payloadsRoot (trimSpace id)
      syncFD p.root payloadsRoot : Task Unit).Uses Cuts :=
    (sysOr_uses trivial).bind fun _ => removeEntryTreeAt_cuts.bind fun _ => sysOr_uses trivial
  rcases h.lift_bind_inv with ⟨_, -, h⟩ | ⟨e, -, -, rfl, rfl⟩
  swap
  · exact Or.inl ⟨forall_mem_nil _, fun q => rfl⟩
  obtain ⟨c, opened, W1, tr', rfl, hE, hrest⟩ := h.step_inv
  obtain ⟨-, -, hW1⟩ := exec_other (o := .openRoot) hE rfl rfl
  have hsame : W1 = W := hW1
  cases opened with
  | error e =>
    obtain ⟨-, rfl, rfl⟩ := hrest.ret_inv
    exact Or.inl ⟨forall_mem_singleton.mpr rfl, fun q => by rw [hsame]⟩
  | ok u =>
    rw [hsame] at hrest
    rcases (cuts_run hrest hcuts).2 with ⟨hnone, htree⟩ | ⟨ev, hev, q, hq, hwas, hgone⟩
    · refine Or.inl ⟨fun ev hev => ?_, fun q => congrFun htree q⟩
      rcases mem_cons.mp hev with rfl | hev
      · rfl
      · exact hnone ev hev
    · have hmem := mem_cons_of_mem (⟨.openRoot, c, .ok u, W, W1⟩ : SpoolEvent) hev
      exact Or.inr ⟨ev, hmem, q, hq, hbelow ev hmem q hq, hwas, hgone⟩

/-- A payload is complete after the clean-up exactly when nothing was removed. -/
theorem complete_iff_nothing_removed {p : PayloadStore} (hid : Canonical id)
    (hcomplete : CompleteAt W.files id msg) (h : Runs exec (p.remove id) W tr x W') :
    CompleteAt W'.files id msg ↔ ∀ ev ∈ tr, ∀ q, removed ev.op ev.res ≠ some q := by
  obtain ⟨-, ⟨hnone, hsame⟩ | ⟨ev, hev, q, hq, hbelow, hwas, hgone⟩⟩ := remove_runs h
  · refine ⟨fun _ ev hev q hq => ?_, fun _ q => (hsame _).trans (hcomplete q)⟩
    rw [hnone ev hev] at hq
    nomatch hq
  · rw [hid.trimmed] at hbelow
    obtain ⟨q', rfl⟩ := hbelow
    refine ⟨fun h' => ?_, fun h' => absurd hq (h' ev hev _)⟩
    -- the entry that was removed belongs to the complete payload
    rw [hcomplete q', ← h' q', hgone] at hwas
    exact absurd rfl hwas

/-! ## The whole call -/

omit [Unicode] in
/-- Only the drawing of an id draws one. -/
theorem drawn_newID {o : Op} {r : o.Res} (h : drawn o r = some id) : o = .newID := by
  cases o with
  | newID => rfl
  | _ => nomatch h

/-- A call draws no id after the first. -/
theorem drew_append {α : Type} {p : Prog spoolSig α} {a : α}
    {tr1 tr2 : Trace} (h : Runs exec p W tr2 a W')
    (hp : p.Uses fun o => o ≠ Op.newID) : Drew (tr1 ++ tr2) id ↔ Drew tr1 id := by
  constructor
  · rintro ⟨ev, hev, hdrawn⟩
    rcases mem_append.mp hev with hev | hev
    · exact ⟨ev, hev, hdrawn⟩
    · exact absurd (drawn_newID hdrawn) (h.uses hp ev hev)
  · rintro ⟨ev, hev, hdrawn⟩
    exact ⟨ev, mem_append_left _ hev, hdrawn⟩

omit [Unicode] in
/-- Where one commit is lost, what is removed after it is what is removed after that one. -/
theorem removedAfterLost_iff {tr1 tr2 : Trace}
    {ev : SpoolEvent} (h1 : ∀ ev ∈ tr1, lostCommit ev = false)
    (hev : lostCommit ev = true) (h2 : ∀ ev ∈ tr2, lostCommit ev = false) :
    RemovedAfterLostCommit (tr1 ++ ev :: tr2) ↔ ∃ ev' ∈ tr2, ∃ q, removed ev'.op ev'.res = some q := by
  refine ⟨?_, fun hremoved => ⟨tr1, ev, tr2, rfl, hev, hremoved⟩⟩
  rintro ⟨l, ev', r, heq, hev', hremoved⟩
  rcases append_eq_append_iff.mp heq with ⟨c, rfl, hc⟩ | ⟨c, rfl, hc⟩
  · cases c with
    | nil =>
      cases hc
      exact hremoved
    | cons x c =>
      obtain ⟨rfl, rfl⟩ := List.cons.inj hc
      rw [h2 ev' (by simp)] at hev'
      nomatch hev'
  · cases c with
    | nil =>
      cases hc
      exact hremoved
    | cons x c =>
      obtain ⟨rfl, rfl⟩ := List.cons.inj hc
      rw [h1 ev' (by simp)] at hev'
      nomatch hev'

/-- What Enqueue promises: a row that it leaves has its complete payload, and a record that it returns
    is queued and was never attempted. -/
structure LeavesWhole (msg : Message) (W : World) (tr : Trace)
    (out : Except GoError Record) (W' : World) : Prop where
  payload : ∀ id, Drew tr id → ¬ W.rows.Has id → W'.rows.Has id → CompleteAt W'.files id msg
  queued : ∀ rec, out = .ok rec → Drew tr rec.id ∧
    ∃ row, W'.rows.find rec.id = some row ∧ row.state = .queued ∧ row.attempt = 0

omit [Unicode] in
/-- A call that fails and leaves no new row leaves nothing without its payload. -/
theorem leavesWhole_of_rows {e : GoError} (hout : out = .error e) (hrows : W'.rows = W.rows) :
    LeavesWhole msg W tr out W' where
  payload id _ hnew hrow := absurd (hrows ▸ hrow) hnew
  queued rec hrec := by
    rw [hout] at hrec
    nomatch hrec

/-- The steps of a call after its payload is saved. -/
theorem insertOrRemove_uses {now : Int} : ((insertRecord (.enqueued id msg now)).onFail
    (s.payloads.remove id) >>= fun _ => pure (.enqueued id msg now) : Task Record).Uses
      fun o => o ≠ Op.newID := by
  refine Uses.bind (Uses.onFail ?_ ?_) fun _ => uses_pure _
  · refine Uses.bind (check_uses _) fun _ => uses_step ?_ fun _ => trivial
    exact fun ho => Op.noConfusion ho
  · refine (PayloadStore.remove_confined id).mono fun o ho => ?_
    rintro rfl
    exact ho

/-- **A row without its payload.**  Enqueue leaves a row without its complete payload exactly when the
    INSERT of the row was reported as failed although it is applied, or left open on the connection, and
    the clean-up after it has removed an entry. -/
theorem enqueue_row_has_payload_iff {out : Except GoError Record}
    (h : Runs exec (s.enqueue msg) W tr out W') :
    LeavesWhole msg W tr out W' ↔ ¬ RemovedAfterLostCommit tr := by
  cases enqueue_begins h with
  | early e hout hrows hlost =>
    exact iff_of_true (leavesWhole_of_rows hout hrows) (not_removedAfterLost hlost)
  | @saved id now tr1 tr2 W1 htr hsaved hrest =>
    subst htr
    have hdrew : ∀ id', Drew (tr1 ++ tr2) id' ↔ id' = id := fun id' =>
      (drew_append hrest insertOrRemove_uses).trans (hsaved.drew id')
    obtain ⟨x, hfail, rfl⟩ := hrest.map_inv
    rcases hfail.onFail_inv with ⟨_, rfl, hinsert⟩ | ⟨e, tr3, tr4, W2, x, rfl, rfl, hinsert, hremove⟩
    · -- the record is inserted, and nothing is lost
      cases insertRecord_runs hinsert with
      | @done _ row hk hcols hlost =>
        have hid : row.id = id := congrArg Columns.id hcols
        refine iff_of_true ⟨fun id' hd _ _ => ?_, fun rec hrec => ?_⟩ (not_removedAfterLost fun ev hev =>
          (mem_append.mp hev).elim (hsaved.lost ev) (hlost ev))
        · rw [(hdrew id').mp hd]
          exact hsaved.complete
        · cases hrec
          refine ⟨(hdrew _).mpr rfl, row, ?_, congrArg Columns.state hcols, congrArg Columns.attempt hcols⟩
          exact (Table.find_insert W1.rows row hk id).trans (if_pos hid.symm)
    · have hcleaned := runs_aside hremove ((PayloadStore.remove_confined id).mono Aside.of_confined)
      cases insertRecord_runs hinsert with
      | failed e hlost =>
        refine iff_of_true (leavesWhole_of_rows rfl (hcleaned.rows.trans hsaved.rows))
          (not_removedAfterLost fun ev hev => ?_)
        rcases mem_append.mp hev with hev | hev
        · exact hsaved.lost ev hev
        · exact (mem_append.mp hev).elim (hlost ev) (hcleaned.lost ev)
      | @lost ev row e hk hcols hlost =>
        -- the row is there, whatever the call says
        have hid : row.id = id := congrArg Columns.id hcols
        have hnew : ¬ W.rows.Has id := by
          rw [← hsaved.rows, ← hid]
          exact hk
        have hhas : W'.rows.Has id := by
          rw [hcleaned.rows]
          exact (Table.has_insert W1.rows row hk id).mpr (Or.inr hid.symm)
        have hwhole : LeavesWhole msg W (tr1 ++ ([ev] ++ tr4)) (.error e) W' ↔
            CompleteAt W'.files id msg := by
          constructor
          · intro hleaves
            exact hleaves.payload id ((hdrew id).mpr rfl) hnew hhas
          · intro hcomplete
            refine ⟨fun id' hd _ _ => ?_, fun rec hrec => nomatch hrec⟩
            rw [(hdrew id').mp hd]
            exact hcomplete
        have hremoved := complete_iff_nothing_removed (W := { W1 with rows := W1.rows.insert row hk })
          hsaved.canonical hsaved.complete hremove
        refine hwhole.trans (hremoved.trans ?_)
        rw [singleton_append, removedAfterLost_iff hsaved.lost hlost hcleaned.lost]
        constructor
        · rintro hnone ⟨ev', hev', q, hq⟩
          exact hnone ev' hev' q hq
        · intro hnone ev' hev' q hq
          exact hnone ⟨ev', hev', q, hq⟩

/-! ## Two calls in an empty spool -/

/-- The outside is calm, but the connection to the database is closed with an error after the COMMIT of a
    new record. -/
def closeFails : Op → Choice
  | .tx (.insert _) => .tx (.lost (fun _ => 2 * second) .close (.driver (lit "disk I/O error")))
  | o => calm (.error .canceled) (.error .canceled) o

omit [Unicode] in
/-- A message is enqueued in a fresh spool, with an outside that chooses `ch`. -/
theorem exists_enqueued (ch : Op → Choice) (T : Except GoError Record × Trace × World → Bool)
    (h : letI := Unicode.ascii
      (Prog.run exec (calm (.error .canceled) (.error .canceled)) 100
        sampleStore.payloads.newPayloadStore (sampleWorld ⟨[], nodup_nil⟩)).any (fun x =>
          x.2.2.rows.rows.isEmpty &&
            (Prog.run exec ch 100 (sampleStore.enqueue sampleMessage) x.2.2).any T) = true) :
    letI := Unicode.ascii
    ∃ W tr out W', W.rows.rows = [] ∧
      Runs exec (sampleStore.enqueue sampleMessage) W tr out W' ∧ T (out, tr, W') = true := by
  let _ := Unicode.ascii
  obtain ⟨_, _, W, -, hW⟩ := Prog.exists_runs_of_run _ _ _ _ _ h
  obtain ⟨hempty, hany⟩ := Bool.and_eq_true_iff.mp hW
  obtain ⟨out, tr, W', hrun, hT⟩ := Prog.exists_runs_of_run _ _ _ _ _ hany
  exact ⟨W, tr, out, W', List.isEmpty_iff.mp hempty, hrun, hT⟩

omit [Unicode] in
/-- **A call in which nothing goes wrong**: the record is queued, and its payload complete. -/
theorem enqueue_row_has_payload_calm :
    letI := Unicode.ascii
    ∃ W tr rec W', Runs exec (sampleStore.enqueue sampleMessage) W tr (.ok rec) W' ∧
      LeavesWhole sampleMessage W tr (.ok rec) W' := by
  let _ := Unicode.ascii
  obtain ⟨W, tr, out, W', -, hrun, hT⟩ := exists_enqueued (calm (.error .canceled) (.error .canceled))
    (fun x => x.1.toBool && x.2.1.all fun ev => lostCommit ev = false) (by decide +kernel)
  obtain ⟨hok, hlost⟩ := Bool.and_eq_true_iff.mp hT
  have hnone : ∀ ev ∈ tr, lostCommit ev = false := by simpa using hlost
  cases out with
  | error e => nomatch hok
  | ok rec =>
    exact ⟨W, tr, rec, W', hrun, (enqueue_row_has_payload_iff hrun).mpr (not_removedAfterLost hnone)⟩

omit [Unicode] in
/-- **The connection fails to close after the COMMIT**: Enqueue reports an error, and leaves a row in the
    table and nothing below `payloads/`. -/
theorem enqueue_row_without_payload :
    letI := Unicode.ascii
    ∃ W tr e W' id, Runs exec (sampleStore.enqueue sampleMessage) W tr (.error e) W' ∧
      Drew tr id ∧ ¬ W.rows.Has id ∧ W'.rows.Has id ∧ W'.files.get (payloadDir id) = none := by
  let _ := Unicode.ascii
  obtain ⟨W, tr, out, W', hempty, hrun, hT⟩ := exists_enqueued closeFails
    (fun x => !x.1.toBool && x.2.1.any fun ev => (drawn ev.op ev.res).any fun id =>
      decide (x.2.2.rows.Has id) && (x.2.2.files.get (payloadDir id)).isNone) (by decide +kernel)
  obtain ⟨hout, hany⟩ := Bool.and_eq_true_iff.mp hT
  obtain ⟨ev, hev, hid⟩ := any_eq_true.mp hany
  cases hdrawn : drawn ev.op ev.res with
  | none =>
    rw [hdrawn] at hid
    nomatch hid
  | some id =>
    rw [hdrawn] at hid
    obtain ⟨hrow, hnone⟩ := Bool.and_eq_true_iff.mp hid
    cases out with
    | ok rec => nomatch hout
    | error e =>
      refine ⟨W, tr, e, W', id, hrun, ⟨ev, hev, hdrawn⟩, ?_, of_decide_eq_true hrow,
        Option.isNone_iff_eq_none.mp hnone⟩
      unfold Table.Has
      rw [hempty]
      exact not_mem_nil

end Runs

end SmtpCloudRelay.Spool
