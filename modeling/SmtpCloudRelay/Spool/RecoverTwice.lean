/-
  A SECOND `Recover` does nothing.

  What a `Recover` that succeeds leaves behind is a spool with nothing to settle (`Tidy`): no row is
  working, the payload of every submitted row loads, and every entry of `payloads/` belongs to a row.
  On such a spool `Recover` does nothing, when no input or output fails (`recover_tidy`).  That is the
  whole proof of idempotence: no step of the first run is compared with a step of the second.

  `Quietly` is the calculus of that run: a program that, when nothing fails, changes nothing and answers
  something of a kind.
-/
import SmtpCloudRelay.Spool.Recovery

namespace SmtpCloudRelay.Spool

open Go Lib Lib.Prog

/-! ## Nothing to settle -/

section Again

variable [Unicode] {s : SpoolStore} {W W' : World} {tr : Trace} {now : Int}

/-- A spool with nothing to settle: no row is working, the payload of every submitted row loads, and
    every entry of `payloads/` belongs to a row. -/
structure Tidy (s : SpoolStore) (W : World) : Prop where
  ids : CanonicalIDs W.rows
  rest : ∀ id row, W.rows.find id = some row → row.state ≠ .working
  loads : ∀ id row, W.rows.find id = some row → row.state = .submitted →
    ∃ msg, PayloadLoads s W id msg
  payloads : W.tree payloadsRoot = some .dir
  orphans : W.tree orphanRoot = some .dir
  entries : ∀ n, W.tree (payloadsRoot ++ [n]) ≠ none →
    W.tree (payloadsRoot ++ [n]) = some .dir ∧ W.rows.find n ≠ none

omit [Unicode] in
/-- What `Load` asks about a record is answered by `payloads/` and what is below the record's
    directory. -/
theorem answers_asked {t t' : Files GoString} {id : GoString}
    (hroot : t'.get payloadsRoot = t.get payloadsRoot)
    (hbelow : ∀ q, t'.get (payloadDir id ++ q) = t.get (payloadDir id ++ q)) {o : Op}
    (h : AsksOf id o) : answers t' noFaults o = answers t noFaults o := by
  have hopen : ∀ p, t'.get p = t.get p →
      answers t' noFaults (.fs (.openDir p)) = answers t noFaults (.fs (.openDir p)) := by
    intro p hp
    show some (if t'.get p = some .dir then Except.ok () else .error (t'.notDir p)) =
      some (if t.get p = some .dir then Except.ok () else .error (t.notDir p))
    unfold Files.notDir
    rw [hp]
  have hread : ∀ p, t'.get p = t.get p →
      answers t' noFaults (.fs (.readFile p)) = answers t noFaults (.fs (.readFile p)) := by
    intro p hp
    rw [answers_readFile, answers_readFile, hp]
  cases h with
  | root => rfl
  | payloads => exact hopen _ hroot
  | directory => exact hopen _ (by simpa using hbelow [])
  | attachments => exact hopen _ (hbelow _)
  | manifest => exact hread _ (hbelow _)
  | attachment i =>
    refine hread _ ?_
    unfold attachmentFile
    rw [List.append_assoc]
    exact hbelow _

/-- No row disappears; none is left working, and one is submitted only if its payload loads. -/
theorem Passed.rests {W1 : World} {snap : Snapshot} {xs ys : List (Record ⊕ Record)}
    (h : Passed s now W W1 W' snap xs ys) {id : GoString} {row : Row}
    (hrow : W.rows.find id = some row) :
    ∃ row', W'.rows.find id = some row' ∧ row'.state ≠ .working ∧
      (row'.state = .submitted → ∃ msg, PayloadLoads s W id msg) := by
  have hstate : ∀ {row' : Row} {st : State}, W'.rows.find id = some row' → row'.state = st →
      st ≠ .working → st ≠ .submitted → ∃ row', W'.rows.find id = some row' ∧
        row'.state ≠ .working ∧ (row'.state = .submitted → ∃ msg, PayloadLoads s W id msg) := by
    rintro row' _ hrow' rfl hw hs
    exact ⟨row', hrow', hw, fun hx => absurd hx hs⟩
  by_cases hw : row.state = .working
  · rcases h.working hrow hw with ⟨-, row', hrow', hrequeued⟩ | ⟨-, row', hrow', hdead, -⟩
    · exact hstate hrow' hrequeued.state nofun nofun
    · exact hstate hrow' hdead nofun nofun
  by_cases hs : row.state = .submitted
  · rcases h.submitted_row hrow hs with ⟨hload, hrow'⟩ | ⟨-, row', hrow', hdead⟩
    · exact ⟨row, hrow', hw, fun _ => hload⟩
    · exact hstate hrow' hdead.state nofun nofun
  · have hkept : W'.rows.find id = W.rows.find id := h.other fun row' hrow' => by
      cases hrow.symm.trans hrow'
      exact ⟨hw, hs⟩
    exact hstate (hkept.trans hrow) rfl hw hs

/-- **The passes leave nothing to settle.** -/
theorem Passed.tidy {W1 : World} {snap : Snapshot} {xs ys : List (Record ⊕ Record)}
    (h : Passed s now W W1 W' snap xs ys) : Tidy s W' := by
  have hswept := h.swept
  -- the roots are not swept: what is moved lies one level below
  have hroot : ∀ n : GoString, W'.tree [n] = W.tree [n] := by
    intro n
    refine hswept.kept _ (fun m _ _ hb => ?_) fun target _ hb => ?_
    · have hlen := hb.length_le
      have hpayloads : (payloadsRoot ++ [m]).length = 2 := rfl
      have hone : [n].length = 1 := rfl
      omega
    · have hlen := hb.length_le
      have horphans : (orphanRoot ++ [target]).length = 2 := rfl
      have hone : [n].length = 1 := rfl
      omega
  have hafter : ∀ id row', W'.rows.find id = some row' → ∃ row, W.rows.find id = some row ∧
      row'.state ≠ .working ∧ (row'.state = .submitted → ∃ msg, PayloadLoads s W id msg) := by
    intro id row' hrow'
    cases hrow : W.rows.find id with
    | none => nomatch hrow'.symm.trans (h.absent hrow)
    | some row =>
      obtain ⟨_, hfind, hrests⟩ := h.rests hrow
      cases hrow'.symm.trans hfind
      exact ⟨row, rfl, hrests⟩
  refine ⟨fun id row' hrow' => ?_, fun id row' hrow' => ?_, fun id row' hrow' hstate => ?_, ?_, ?_,
    fun n hn => ?_⟩
  · obtain ⟨row, hrow, -⟩ := hafter id row' hrow'
    exact h.ids id row hrow
  · obtain ⟨row, -, hno, -⟩ := hafter id row' hrow'
    exact hno
  · obtain ⟨row, hrow, -, hloads⟩ := hafter id row' hrow'
    obtain ⟨msg, hload⟩ := hloads hstate
    have hid := h.ids id row hrow
    have heval : (s.payloads.loadFrom id).eval (answers W'.files noFaults) =
        (s.payloads.loadFrom id).eval (answers W.files noFaults) :=
      (loadFrom_asks id).eval_congr fun o ho => answers_asked (hroot _)
        (h.payload_kept fun hx => (nomatch hrow.symm.trans hx)) ho
    exact ⟨msg, (loadsAs_iff_eval hid).mpr (heval.trans ((loadsAs_iff_eval hid).mp hload))⟩
  · exact (hroot _).trans h.payloads
  · exact (hroot _).trans h.orphans
  · by_cases hin : W.tree (payloadsRoot ++ [n]) ≠ none
    · have hvalid : n ∈ snap.validIDs := by
        by_contra hout
        exact hn (congrFun (hswept.orphans n hin hout).1 [])
      rw [h.recovered.validIDs] at hvalid
      have hrow : W.rows.find n ≠ none := mem_validIDs.mp hvalid
      refine ⟨(h.payload_kept hrow []).trans (hswept.entries n hin), ?_⟩
      obtain ⟨row, hfind⟩ := Option.ne_none_iff_exists'.mp hrow
      obtain ⟨row', hfind', -⟩ := h.rests hfind
      exact Option.ne_none_iff_exists'.mpr ⟨row', hfind'⟩
    · refine absurd ?_ hn
      have hkept : W'.tree (payloadsRoot ++ [n]) = W.tree (payloadsRoot ++ [n]) := by
        refine hswept.kept _ (fun m hm _ => ?_) fun target _ => ?_
        · have hne : n ≠ m := fun heq => hin (heq ▸ hm)
          exact (apart_of_ne hne).not_below (List.prefix_refl _)
        · exact (orphans_apart target n).symm.not_below (List.prefix_refl _)
      rw [hkept]
      exact not_not.mp hin

/-! ## A second `Recover` -/

/-- A choice of the outside that is no failure of a system call, of the database or of the random
    source. -/
def goesWell : Choice → Bool
  | .call .go => true
  | .call (.names _) => true
  | .opened => true
  | .tx (.run _) => true
  | .time _ => true
  | .context _ => true
  | .random _ => true
  | _ => false

/-- No input or output fails. -/
def NoIOFailure (tr : Trace) : Prop := ∀ ev ∈ tr, goesWell ev.choice = true

omit [Unicode] in
theorem NoIOFailure.left {tr tr' : Trace} (h : NoIOFailure (tr ++ tr')) : NoIOFailure tr :=
  fun ev hev => h ev (List.mem_append_left _ hev)

omit [Unicode] in
theorem NoIOFailure.right {tr tr' : Trace} (h : NoIOFailure (tr ++ tr')) : NoIOFailure tr' :=
  fun ev hev => h ev (List.mem_append_right _ hev)

/-- On this world, when no input or output fails, the program changes nothing and answers something
    of this kind. -/
def Quietly {ε α : Type} (p : Act spoolSig ε α) (W : World) (Q : α → Prop) : Prop :=
  ∀ tr out W', Runs exec p W tr out W' → NoIOFailure tr → W' = W ∧ ∃ a, out = .ok a ∧ Q a

namespace Quietly

variable {ε ε' α β : Type} {p : Act spoolSig ε α} {f : α → Act spoolSig ε β} {P : α → Prop}
  {Q : β → Prop}

theorem pure {a : α} (h : P a) : Quietly (.ret (.ok a) : Act spoolSig ε α) W P := by
  intro tr out W' hrun _
  obtain ⟨rfl, -, rfl⟩ := hrun.ret_inv
  exact ⟨rfl, a, rfl, h⟩

theorem bind (hp : Quietly p W P) (hf : ∀ a, P a → Quietly (f a) W Q) : Quietly (p >>= f) W Q := by
  intro tr out W' hrun hio
  rcases hrun.act_bind_inv with ⟨a, tr1, tr2, W1, rfl, h1, h2⟩ | ⟨e, rfl, h1⟩
  · obtain ⟨rfl, _, ha, hP⟩ := hp _ _ _ h1 hio.left
    cases ha
    exact hf a hP _ _ _ h2 hio.right
  · obtain ⟨-, _, hx, -⟩ := hp _ _ _ h1 hio
    nomatch hx

theorem mapError {g : ε → ε'} (hp : Quietly p W P) : Quietly (p.mapError g) W P := by
  intro tr out W' hrun hio
  obtain ⟨x, hx, rfl⟩ := hrun.mapError_inv
  obtain ⟨rfl, a, rfl, hP⟩ := hp _ _ _ hx hio
  exact ⟨rfl, a, rfl, hP⟩

theorem attempt (hp : Quietly p W P) :
    Quietly (p.attempt : Act spoolSig ε' (Except ε α)) W fun x => ∃ a, x = .ok a ∧ P a := by
  intro tr out W' hrun hio
  obtain ⟨x, rfl, hx⟩ := hrun.attempt_inv
  obtain ⟨rfl, hok⟩ := hp _ _ _ hx hio
  exact ⟨rfl, x, rfl, hok⟩

/-- A step that changes nothing and answers something of this kind. -/
theorem step {o : Op} {k : o.Res → Act spoolSig ε α}
    (h : ∀ c r W', exec o c W = some (r, W') → goesWell c = true → W' = W ∧ Quietly (k r) W P) :
    Quietly (.step o k) W P := by
  intro tr out W' hrun hio
  obtain ⟨c, r, W1, tr', rfl, hE, hk⟩ := hrun.step_inv
  obtain ⟨hc, hrest⟩ := List.forall_mem_cons.mp hio
  obtain ⟨rfl, hq⟩ := h c r W1 hE hc
  exact hq _ _ _ hk hrest

/-- A system call that only looks. -/
theorem look {c : Call GoString} {x : c.Answer} {P : c.Answer → Prop}
    (h : ∀ cc, c.perform W.files cc = Call.looking W.files (some (.ok x)) cc) (hx : P x) :
    Quietly (sys c) W P := by
  refine step fun ch r W' hE hc => ?_
  obtain ⟨cc, files, rfl, hperf, rfl⟩ := exec_fs hE
  rw [h] at hperf
  cases cc with
  | go =>
    cases hperf
    exact ⟨rfl, pure hx⟩
  | fault e | wrote k e => nomatch hc
  | names l => nomatch hperf

theorem openDir {d : Path} (hdir : W.tree d = some .dir) :
    Quietly (sys (.openDir d)) W fun _ => True := by
  refine look (c := .openDir d) (x := ()) (fun cc => ?_) trivial
  show Call.looking W.files (some (if W.files.get d = some .dir then _ else _)) cc = _
  rw [if_pos (show W.files.get d = some .dir from hdir)]

theorem openRoot {before : GoString} : Quietly (openRootOr before) W fun _ => True := by
  refine mapError (step fun c r W' hE hc => ?_)
  obtain ⟨ha, -, hW⟩ := exec_other hE rfl rfl
  cases c with
  | opened =>
    cases ha
    exact ⟨hW, pure trivial⟩
  | notOpened before e => nomatch hc
  | _ => nomatch ha

theorem readEntries {d : Path} (hdir : W.tree d = some .dir) :
    Quietly (readDirectoryEntriesFD d) W fun names => ∀ n ∈ names, W.tree (d ++ [n]) ≠ none := by
  refine bind (mapError (look (c := .quiet d) (x := ()) (P := fun _ => True) (fun _ => rfl) trivial)) fun _ _ => ?_
  refine mapError (step fun ch r W' hE hc => ?_)
  obtain ⟨cc, files, rfl, hperf, rfl⟩ := exec_fs hE
  have hdir : W.files.get d = some .dir := hdir
  cases cc with
  | go =>
    have hperf : some ((if W.files.get d = some .dir then .ok (W.files.children d)
        else .error (W.files.notDir d) : Except Errno (List GoString)), W.files) =
        some (r, files) := hperf
    rw [if_pos hdir] at hperf
    cases hperf
    exact ⟨rfl, pure fun n hn => Files.mem_children.mp hn⟩
  | names l =>
    have hperf : (if W.files.get d = some .dir ∧ l.Perm (W.files.children d) then
        some ((.ok l : Except Errno (List GoString)), W.files) else none) = some (r, files) := hperf
    obtain ⟨hl, hperf⟩ := Option.ite_none_right_eq_some.mp hperf
    cases hperf
    exact ⟨rfl, pure fun n hn => Files.mem_children.mp (hl.2.subset hn)⟩
  | fault e | wrote k e => nomatch hc

/-- An entry that belongs to a row stays. -/
theorem quarantineEntry {q : PayloadStore} {validIDs : List GoString} {n : GoString} (hid : Canonical n)
    (hdir : W.tree (payloadsRoot ++ [n]) = some .dir) (hmem : n ∈ validIDs) :
    Quietly (q.quarantineEntry validIDs n) W (· = none) := by
  have hstat : Quietly (sys (.stat (payloadsRoot ++ [n]))) W (· = Kind.dir) := by
    refine look (c := .stat (payloadsRoot ++ [n])) (x := Kind.dir) (fun cc => ?_) rfl
    simp only [Call.perform, show W.files.get (payloadsRoot ++ [n]) = some .dir from hdir]
    rfl
  have hmode : Quietly (entryModeAt (payloadsRoot ++ [n])) W (· = some Kind.dir) := by
    refine bind hstat.attempt ?_
    rintro _ ⟨_, rfl, rfl⟩
    exact pure rfl
  unfold PayloadStore.quarantineEntry
  rw [validateCanonicalRecordID_ok.mpr hid]
  refine bind (pure (P := fun _ => True) trivial) fun _ _ => bind hmode.mapError ?_
  rintro _ rfl
  show Quietly (if n ∈ validIDs then _ else _) W _
  rw [if_pos hmem]
  exact pure rfl

/-- **On a tidy spool the sweep does nothing.** -/
theorem quarantineOrphans {q : PayloadStore} {validIDs : List GoString}
    (hpayloads : W.tree payloadsRoot = some .dir) (horphans : W.tree orphanRoot = some .dir)
    (hentries : ∀ n, W.tree (payloadsRoot ++ [n]) ≠ none →
      Canonical n ∧ W.tree (payloadsRoot ++ [n]) = some .dir ∧ n ∈ validIDs) :
    Quietly (q.quarantineOrphans validIDs) W (· = []) := by
  have hloop : ∀ names : List GoString, (∀ n ∈ names, W.tree (payloadsRoot ++ [n]) ≠ none) →
      Quietly (q.quarantineEntries validIDs names) W (· = []) := by
    intro names
    induction names with
    | nil => exact fun _ => pure rfl
    | cons n names ih =>
      intro hnames
      obtain ⟨hn, hnames⟩ := List.forall_mem_cons.mp hnames
      obtain ⟨hid, hdir, hmem⟩ := hentries n hn
      refine bind (quarantineEntry hid hdir hmem) ?_
      rintro _ rfl
      refine bind (ih hnames) ?_
      rintro _ rfl
      exact pure rfl
  refine bind openRoot fun _ _ => bind (mapError (openDir hpayloads)) fun _ _ =>
    bind (mapError (openDir horphans)) fun _ _ => bind (mapError (readEntries hpayloads)) hloop

/-- A payload that loads is loaded. -/
theorem load {id : GoString} {msg : Message} (hid : Canonical id) (hload : PayloadLoads s W id msg) :
    Quietly (s.payloads.load id) W (· = msg) := by
  intro tr out W' hrun hio
  have htrim : trimSpace id = id := hid.trimmed
  have hfrom := hrun
  rw [load_of_canonical (htrim.symm ▸ hid)] at hfrom
  obtain ⟨-, f, hchoices, hcause, -⟩ := loadFrom_run hfrom
  have hnone : f = noFaults := by
    funext q
    cases hq : f q with
    | none => rfl
    | some x =>
      obtain ⟨ev, hev, -, hchoice⟩ := hcause q x hq
      have hgood := hio ev hev
      rw [hchoice] at hgood
      cases hop : ev.op with
      | openRoot | _ =>
        rw [hop] at hgood
        nomatch hgood
  rw [hnone] at hchoices
  obtain ⟨rfl, rfl⟩ := hload.2 tr out W' hrun hchoices
  exact ⟨rfl, msg, rfl, rfl⟩

/-- The loop over records whose payloads all load. -/
theorem recoverRecords {what : String} {ms : List Metadata}
    (hloads : ∀ m ∈ ms, Canonical m.id ∧ ∃ msg, PayloadLoads s W m.id msg) :
    Quietly (s.recoverRecords what ms) W fun zs => zs.filterMap Sum.getRight? = [] := by
  induction ms with
  | nil => exact pure rfl
  | cons m ms ih =>
    obtain ⟨⟨hid, msg, hload⟩, hloads⟩ := List.forall_mem_cons.mp hloads
    refine bind (load hid hload).attempt ?_
    rintro _ ⟨msg, rfl, rfl⟩
    refine bind (pure (P := (· = Sum.inl { m.toRecord with message := msg })) rfl) ?_
    rintro _ rfl
    exact bind (ih hloads) fun zs hzs => pure hzs

/-- A transaction that does not fail by itself and changes nothing. -/
theorem transact (tx : Tx) {a : tx.Answer} (h : ∀ clock, tx.body clock W.rows = .ok (a, W.rows)) :
    Quietly (transact tx) W (· = a) := by
  refine step fun c r W' hE hc => ?_
  obtain ⟨o, rows, rfl, hperf, rfl⟩ := exec_tx hE
  cases o with
  | run clock =>
    unfold Tx.perform at hperf
    dsimp only at hperf
    rw [h clock] at hperf
    cases hperf
    exact ⟨rfl, pure rfl⟩
  | fault stage cause | lost clock how cause => nomatch hc

end Quietly

/-- The transaction of `Recover` on a table without working rows. -/
theorem Tidy.recoverBody {clock : Nat → Int} (h : Tidy s W) :
    recoverBody now clock W.rows = .ok (⟨[], (selectState W.rows .submitted).map (·.metadata),
      W.rows.rows.map fun row => row.id⟩, W.rows) := by
  have hread := h.ids.readable
  have hnone : selectState W.rows .working = [] := by
    refine List.eq_nil_iff_forall_not_mem.mpr fun row hrow => ?_
    obtain ⟨hfind, hstate⟩ := mem_selectState.mp hrow
    exact h.rest _ row hfind hstate
  unfold Spool.recoverBody
  rw [hread.states .working, hread.states .submitted, hread.ids, hnone]
  rfl

/-- What a `Recover` that settles nothing answers: the context has ended, or there is nothing to
    report but the submitted records. -/
def SettlesNothing (out : Except GoError RecoveryResult) : Prop :=
  (∃ e : CtxErr, out = .error e.toError) ∨
  ∃ res, out = .ok res ∧ res.requeued = [] ∧ res.deadLettered = [] ∧ res.orphanedPayloads = []

/-- **On a tidy spool `Recover` does nothing**, whatever the time, when no input or output fails. -/
theorem recover_tidy {out : Except GoError RecoveryResult} (h : Runs exec (s.recover now) W tr out W')
    (hio : NoIOFailure tr) (htidy : Tidy s W) : W' = W ∧ SettlesNothing out := by
  rcases h.act_bind_inv with ⟨_, tr1, tr2, W1, rfl, hctx, hrun⟩ | ⟨e, rfl, hctx⟩
  swap
  · obtain ⟨rfl, hx | ⟨ended, hx⟩⟩ := checkContext_runs hctx
    · nomatch hx
    · cases hx
      exact ⟨rfl, Or.inl ⟨ended, rfl⟩⟩
  obtain rfl := (checkContext_runs hctx).1
  have hloads : ∀ m ∈ (selectState W1.rows .submitted).map (·.metadata),
      Canonical m.id ∧ ∃ msg, PayloadLoads s W1 m.id msg := by
    intro m hm
    obtain ⟨row, hrow, rfl⟩ := List.mem_map.mp hm
    obtain ⟨hfind, hstate⟩ := mem_selectState.mp hrow
    exact ⟨htidy.ids _ row hfind, htidy.loads _ row hfind hstate⟩
  have hentries : ∀ n, W1.tree (payloadsRoot ++ [n]) ≠ none → Canonical n ∧
      W1.tree (payloadsRoot ++ [n]) = some .dir ∧ n ∈ W1.rows.rows.map fun row => row.id := by
    intro n hn
    obtain ⟨hdir, hrow⟩ := htidy.entries n hn
    obtain ⟨row, hfind⟩ := Option.ne_none_iff_exists'.mp hrow
    exact ⟨htidy.ids n row hfind, hdir, mem_validIDs.mpr hrow⟩
  -- after the context: the transaction, the two loops and the sweep
  have hquiet : ∀ {p : Task RecoveryResult}, Runs exec p W1 tr2 out W' →
      Quietly p W1 (fun res => res.requeued = [] ∧ res.deadLettered = [] ∧
        res.orphanedPayloads = []) → W' = W1 ∧ SettlesNothing out := by
    intro p hp hquiet
    obtain ⟨rfl, res, rfl, hres⟩ := hquiet _ _ _ hp hio.right
    exact ⟨rfl, Or.inr ⟨res, rfl, hres⟩⟩
  refine hquiet hrun (Quietly.bind (Quietly.transact (.recover now) fun clock =>
    htidy.recoverBody) ?_)
  rintro _ rfl
  refine Quietly.bind (Quietly.pure (P := (· = [])) rfl) ?_
  rintro _ rfl
  refine Quietly.bind (Quietly.recoverRecords hloads) fun ys hys => ?_
  refine Quietly.bind (Quietly.mapError
    (Quietly.quarantineOrphans htidy.payloads htidy.orphans hentries)) ?_
  rintro _ rfl
  exact Quietly.pure ⟨rfl, hys, rfl⟩

/-- **`Recover` meets its specification and is idempotent.**  In every world, with whatever payload
    directories missing, corrupt or without a row, and for every time: if `Recover` succeeds, the rows,
    the result and the entries of `payloads/` are as specified; and a second `Recover` at any time, with
    no operation in between and no failing input or output, requeues, dead-letters and quarantines
    nothing and changes nothing at all. -/
theorem recover_spec_and_idempotent {res : RecoveryResult}
    (h : Runs exec (s.recover now) W tr (.ok res) W') (htrue : TrueErrors tr) :
    RecoverySpec s now W W' res ∧
    ∀ now' tr' out W'', Runs exec (s.recover now') W' tr' out W'' → NoIOFailure tr' →
      W'' = W' ∧ SettlesNothing out := by
  obtain ⟨W1, snap, xs, ys, orphaned, hpassed, rfl⟩ := recover_passed h htrue
  exact ⟨hpassed.spec orphaned, fun now' tr' out W'' h' hio => recover_tidy h' hio hpassed.tidy⟩

omit [Unicode] in
theorem NoIOFailure.trueErrors {tr : Trace} (h : NoIOFailure tr) : TrueErrors tr := by
  intro ev hev e hc
  have hgood := h ev hev
  rw [hc] at hgood
  nomatch hgood

omit [Unicode] in
/-- **A record that was left working is requeued**, and a second recovery finds nothing to do. -/
theorem recover_spec_after_claim :
    letI := Unicode.ascii
    ∃ (W : World) (tr : Trace) (res : RecoveryResult) (W' : World) (tr' : Trace)
      (res' : RecoveryResult), (∃ id row, W.rows.find id = some row ∧ row.state = .working) ∧
      Runs exec (sampleStore.recover (3 * second)) W tr (.ok res) W' ∧
      RecoverySpec sampleStore (3 * second) W W' res ∧
      Runs exec (sampleStore.recover (4 * second)) W' tr' (.ok res') W' ∧
      SettlesNothing (.ok res') := by
  let _ := Unicode.ascii
  let ch := calm (.error .canceled) (.error .canceled)
  let before : Task (Option Record) := do
    sampleStore.newSpoolStore
    let _ ← sampleStore.enqueue sampleMessage
    sampleStore.claimReady (10 * second)
  obtain ⟨_, _, W, -, hW⟩ := Prog.exists_runs_of_run (E := exec) ch 200 before
    (sampleWorld ⟨[], List.nodup_nil⟩)
    (fun x => (x.2.2.rows.rows.any fun row => row.state = .working) &&
      (Prog.run exec ch 100 (sampleStore.recover (3 * second)) x.2.2).any fun y =>
        y.1.toBool && (y.2.1.all fun ev => goesWell ev.choice) &&
        (Prog.run exec ch 100 (sampleStore.recover (4 * second)) y.2.2).any fun z =>
          z.1.toBool && z.2.1.all fun ev => goesWell ev.choice)
    (by decide +kernel)
  obtain ⟨hworking, hrun⟩ := Bool.and_eq_true_iff.mp hW
  obtain ⟨out, tr, W', h, hy⟩ := Prog.exists_runs_of_run (E := exec) ch 100
    (sampleStore.recover (3 * second)) W _ hrun
  obtain ⟨hy, hagain⟩ := Bool.and_eq_true_iff.mp hy
  obtain ⟨hok, hgood⟩ := Bool.and_eq_true_iff.mp hy
  obtain ⟨out', tr', W'', h', hz⟩ := Prog.exists_runs_of_run (E := exec) ch 100
    (sampleStore.recover (4 * second)) W' _ hagain
  obtain ⟨hok', hgood'⟩ := Bool.and_eq_true_iff.mp hz
  obtain ⟨row, hmem, hstate⟩ := List.any_eq_true.mp hworking
  have hio : ∀ {tr : Trace}, (tr.all fun ev => goesWell ev.choice) = true → NoIOFailure tr :=
    fun hall ev hev => List.all_eq_true.mp hall ev hev
  cases out with
  | error e => nomatch hok
  | ok res =>
    cases out' with
    | error e => nomatch hok'
    | ok res' =>
      obtain ⟨hspec, hsecond⟩ := recover_spec_and_idempotent h (hio hgood).trueErrors
      obtain ⟨rfl, hnothing⟩ := hsecond _ _ _ _ h' (hio hgood')
      exact ⟨W, tr, res, W'', tr', res', ⟨row.id, row, Table.mem_iff.mp hmem, of_decide_eq_true hstate⟩,
        h, hspec, h', hnothing⟩

end Again

end SmtpCloudRelay.Spool
