/-
  `ClaimReady` AGAINST ITS SPECIFICATION.

  The rows that are due form a list in the order of the next attempt, the creation and the id
  (`dueRows`).  `ClaimReady` goes through it from the front: a record whose payload is corrupt is
  dead-lettered and the next one is tried; the first record whose payload is not corrupt ends the
  call, as claimed if the payload loads, and back in the queue if loading fails in another way.

  `claimRound_runs` is the whole argument about one round; `claimReady_spec` is the induction over
  the list.  The number of due rows drops with every round that does not end the call, which is also
  why the call terminates (`Lib.Prog.Halts`).

  SQLITE DOES NOT FAIL means: no call of database/sql reports an error, and no statement violates a
  constraint (`dbFails`).  Everything else that could go wrong on the way, such as a row that cannot
  be read or that is not in the expected state, is shown not to happen.
-/
import SmtpCloudRelay.Lib.Halts
import SmtpCloudRelay.Spool.Constraints
import SmtpCloudRelay.Spool.RoundTrip

namespace SmtpCloudRelay.Spool

open Go Lib Lib.Prog List

/-! ## The order of the queue -/

theorem bytesLe_iff {s t : GoString} : bytesLe s t = true ↔ s ≤ t := by
  induction s generalizing t with
  | nil => simp [bytesLe]
  | cons a s ih =>
    cases t with
    | nil => simp [bytesLe]
    | cons b t => simp [bytesLe, cons_le_cons_iff, ih]

theorem readyBefore_total (r r' : Row) : readyBefore r r' ∨ readyBefore r' r := by
  unfold readyBefore createdBefore
  have hid := List.le_total r.id r'.id
  rw [← bytesLe_iff, ← bytesLe_iff] at hid
  rcases Int.lt_trichotomy r.nextAttemptAtMS r'.nextAttemptAtMS with hlt | heq | hgt
  · exact Or.inl (Or.inl hlt)
  · rcases Int.lt_trichotomy r.createdAtMS r'.createdAtMS with hlt | hcreated | hgt
    · exact Or.inl (Or.inr ⟨heq, Or.inl hlt⟩)
    · rcases hid with hid | hid
      · exact Or.inl (Or.inr ⟨heq, Or.inr ⟨hcreated, hid⟩⟩)
      · exact Or.inr (Or.inr ⟨heq.symm, Or.inr ⟨hcreated.symm, hid⟩⟩)
    · exact Or.inr (Or.inr ⟨heq.symm, Or.inl hgt⟩)
  · exact Or.inr (Or.inl hgt)

theorem readyBefore_trans {r r' r'' : Row} (h : readyBefore r r') (h' : readyBefore r' r'') :
    readyBefore r r'' := by
  unfold readyBefore createdBefore at *
  rcases h with h | ⟨heq, h | ⟨hceq, hid⟩⟩
  · rcases h' with h' | ⟨heq', -⟩ <;> exact Or.inl (by omega)
  · rcases h' with h' | ⟨heq', h' | ⟨hceq', -⟩⟩
    · exact Or.inl (by omega)
    · exact Or.inr ⟨by omega, Or.inl (by omega)⟩
    · exact Or.inr ⟨by omega, Or.inl (by omega)⟩
  · rcases h' with h' | ⟨heq', h' | ⟨hceq', hid'⟩⟩
    · exact Or.inl (by omega)
    · exact Or.inr ⟨by omega, Or.inl (by omega)⟩
    · exact Or.inr ⟨by omega, Or.inr ⟨by omega,
        bytesLe_iff.mpr (List.le_trans (bytesLe_iff.mp hid) (bytesLe_iff.mp hid'))⟩⟩

/-- Two rows that stand before each other have one id. -/
theorem id_of_readyBefore {r r' : Row} (h : readyBefore r r') (h' : readyBefore r' r) :
    r.id = r'.id := by
  unfold readyBefore createdBefore at *
  rcases h with h | ⟨heq, h | ⟨hceq, hid⟩⟩
  · omega
  · omega
  · rcases h' with h' | ⟨heq', h' | ⟨hceq', hid'⟩⟩
    · omega
    · omega
    · exact List.le_antisymm (bytesLe_iff.mp hid) (bytesLe_iff.mp hid')

instance : Std.Total readyBefore := ⟨readyBefore_total⟩

instance : IsTrans Row readyBefore := ⟨fun _ _ _ => readyBefore_trans⟩

/-- No row in state `s` that is due at `nowMS` stands before `row`. -/
def Foremost (t : Records) (s : State) (nowMS : Int) (row : Row) : Prop :=
  ∀ r ∈ t.rows, r.state = s → r.nextAttemptAtMS ≤ nowMS → readyBefore row r

instance (t : Records) (s : State) (nowMS : Int) (row : Row) : Decidable (Foremost t s nowMS row) :=
  inferInstanceAs (Decidable (∀ r ∈ t.rows, _))

/-- **LIMIT 1**: of the rows that are due, the query takes the foremost. -/
theorem selectReady_iff {t : Records} {s : State} {nowMS : Int} {row : Row}
    (hrow : t.find row.id = some row) (hs : row.state = s) (hdue : row.nextAttemptAtMS ≤ nowMS) :
    selectReady t s nowMS = some row ↔ Foremost t s nowMS row := by
  have hmem : ∀ r, r ∈ (t.rows.filter fun r => r.state = s ∧ r.nextAttemptAtMS ≤ nowMS).insertionSort
      readyBefore ↔ r ∈ t.rows ∧ r.state = s ∧ r.nextAttemptAtMS ≤ nowMS := by
    intro r
    rw [(perm_insertionSort _ _).mem_iff, mem_filter, decide_eq_true_eq]
  have hsorted := pairwise_insertionSort readyBefore
    (t.rows.filter fun r => r.state = s ∧ r.nextAttemptAtMS ≤ nowMS)
  unfold selectReady
  generalize (t.rows.filter fun r => r.state = s ∧ r.nextAttemptAtMS ≤ nowMS).insertionSort readyBefore
    = l at hmem hsorted ⊢
  have hin : row ∈ l := (hmem row).mpr ⟨Table.mem_iff.mpr hrow, hs, hdue⟩
  cases l with
  | nil => nomatch hin
  | cons first rest =>
    obtain ⟨hfirst, -⟩ := pairwise_cons.mp hsorted
    constructor
    · intro h r hr hrs hrdue
      obtain rfl : first = row := Option.some.inj h
      rcases mem_cons.mp ((hmem r).mpr ⟨hr, hrs, hrdue⟩) with rfl | hr
      · exact (readyBefore_total r r).elim id id
      · exact hfirst r hr
    · intro h
      obtain ⟨hthere, hfs, hfdue⟩ := (hmem first).mp (mem_cons_self ..)
      rcases mem_cons.mp hin with rfl | hin
      · rfl
      · -- each of the two stands before the other
        have hid := id_of_readyBefore (h first hthere hfs hfdue) (hfirst row hin)
        have hfind := Table.mem_iff.mp hthere
        rw [← hid, hrow] at hfind
        exact hfind.symm

/-! ## The rows that are due -/

/-- The queued rows that are due at `now`, in the order in which they are claimed. -/
def dueRows (t : Records) (now : Int) : List Row :=
  (t.rows.filter fun r => r.state = .queued ∧ r.nextAttemptAtMS ≤ timeToMillis now).insertionSort
    readyBefore

variable {t t' : Records} {now : Int}

theorem mem_dueRows {row : Row} : row ∈ dueRows t now ↔
    t.find row.id = some row ∧ row.state = .queued ∧ row.nextAttemptAtMS ≤ timeToMillis now := by
  unfold dueRows
  rw [(perm_insertionSort _ _).mem_iff, mem_filter, Table.mem_iff]
  simp

theorem pairwise_dueRows (t : Records) (now : Int) : (dueRows t now).Pairwise readyBefore :=
  pairwise_insertionSort _ _

theorem nodup_dueRows (t : Records) (now : Int) : (dueRows t now).Nodup :=
  (perm_insertionSort _ _).nodup_iff.mpr (t.nodup.of_map.filter _)

/-- A row that is due has its id for itself. -/
theorem id_ne_of_dueRows {row : Row} {rest : List Row} (h : dueRows t now = row :: rest) {row' : Row}
    (h' : row' ∈ rest) : row'.id ≠ row.id := by
  intro hid
  have hmem : row ∈ dueRows t now := h ▸ mem_cons_self ..
  have hmem' : row' ∈ dueRows t now := h ▸ mem_cons_of_mem _ h'
  have hsame : row' = row := by
    have hfind := (mem_dueRows.mp hmem').1
    rw [hid, (mem_dueRows.mp hmem).1] at hfind
    exact (Option.some.inj hfind).symm
  have hnodup := nodup_dueRows t now
  rw [h] at hnodup
  exact (nodup_cons.mp hnodup).1 (hsame ▸ h')

/-- **Once the first row has left the queue, the others are due, in their order.** -/
theorem dueRows_tail {row : Row} {rest : List Row} (h : dueRows t now = row :: rest)
    (hothers : ∀ id, id ≠ row.id → t'.find id = t.find id)
    (hgone : ∀ row', t'.find row.id = some row' → row'.state ≠ .queued) : dueRows t' now = rest := by
  have hsorted := pairwise_dueRows t now
  have hnodup := nodup_dueRows t now
  rw [h] at hsorted hnodup
  have hmem : ∀ r, r ∈ dueRows t' now ↔ r ∈ rest := by
    intro r
    rw [mem_dueRows]
    constructor
    · rintro ⟨hfind, hstate, hdue⟩
      have hne : r.id ≠ row.id := fun hid => hgone r (hid ▸ hfind) hstate
      have hr : r ∈ dueRows t now := mem_dueRows.mpr ⟨hothers r.id hne ▸ hfind, hstate, hdue⟩
      rw [h] at hr
      rcases mem_cons.mp hr with rfl | hr
      · exact absurd rfl hne
      · exact hr
    · intro hr
      have hne := id_ne_of_dueRows h hr
      obtain ⟨hfind, hstate, hdue⟩ := mem_dueRows.mp (h ▸ mem_cons_of_mem _ hr)
      exact ⟨(hothers r.id hne).trans hfind, hstate, hdue⟩
  have hperm : (dueRows t' now).Perm rest :=
    (perm_ext_iff_of_nodup (nodup_dueRows t' now) (nodup_cons.mp hnodup).2).mpr hmem
  refine hperm.eq_of_pairwise ?_ (pairwise_dueRows t' now) (pairwise_cons.mp hsorted).2
  intro a b ha hb hab hba
  -- both are rows of the new table
  have hfa := (mem_dueRows.mp ha).1
  have hfb := (mem_dueRows.mp ((hmem b).mpr hb)).1
  rw [id_of_readyBefore hab hba, hfb] at hfa
  exact (Option.some.inj hfa).symm

/-! ## Transactions in which SQLite does not fail -/

/-- A statement that violates a constraint. -/
def isConstraintError : GoError → Bool
  | .store _ e => e = DbError.constraint.toError
  | _ => false

/-- SQLite fails at this step: a call of database/sql reports an error, or a statement violates a
    constraint. -/
def dbFails (ev : SpoolEvent) : Bool :=
  match ev.op, ev.choice, ev.res with
  | .tx _, .tx (.run _), .error e => isConstraintError e
  | .tx _, .tx (.run _), .ok _ => false
  | .tx _, _, _ => true
  | _, _, _ => false

/-- A step at which SQLite does not fail. -/
def DbWorks (ev : SpoolEvent) : Prop := dbFails ev = false

section Round

variable [Unicode]

omit [Unicode] in
theorem isConstraintError_wrap (op : GoString) :
    isConstraintError (.wrapStoreError op DbError.constraint.toError) = true := by
  have hwrap : GoError.wrapStoreError op DbError.constraint.toError =
      .store op DbError.constraint.toError := rfl
  rw [hwrap]
  exact decide_eq_true (Eq.refl DbError.constraint.toError)

/-- **A transaction in which SQLite does not fail** ends as its body does. -/
theorem exec_tx_works {tx : Tx} {c : Choice} {W W' : World} {r : Except GoError tx.Answer}
    (hE : exec (.tx tx) c W = some (r, W')) (h : DbWorks ⟨.tx tx, c, r, W, W'⟩) :
    W'.files = W.files ∧ ∃ clock,
      (∃ a, r = .ok a ∧ tx.body clock W.rows = .ok (a, W'.rows)) ∨
      ∃ e, r = .error e ∧ tx.body clock W.rows = .error e ∧ isConstraintError e = false := by
  obtain ⟨out, rows, rfl, hperf, rfl⟩ := exec_tx hE
  refine ⟨rfl, ?_⟩
  cases out with
  | run clock =>
    refine ⟨clock, ?_⟩
    unfold Tx.perform at hperf
    dsimp only at hperf
    cases hb : tx.body clock W.rows with
    | ok x =>
      rw [hb] at hperf
      cases hperf
      exact Or.inl ⟨x.1, rfl, rfl⟩
    | error e =>
      rw [hb] at hperf
      cases hperf
      exact Or.inr ⟨e, rfl, rfl, h⟩
  | fault stage cause | lost clock how cause => cases h

/-- **A claim takes the first row that is due.** -/
theorem claimBody_due (now : Int) (clock : Nat → Int) (hids : CanonicalIDs t) :
    (dueRows t now = [] ∧ claimBody now clock t = .ok (none, t)) ∨
    ∃ row rest, dueRows t now = row :: rest ∧
      ((∃ row' : Row, row'.toColumns = claimSet (clock 0) row.toColumns ∧
        claimBody now clock t = .ok (some (row.metadata.claimed (clock 0)), t.replace row')) ∨
      ∃ e, claimBody now clock t = .error e ∧ isConstraintError e = true) := by
  have hhead : selectReady t .queued (timeToMillis now) = (dueRows t now).head? := rfl
  unfold claimBody
  rw [hhead]
  cases hdue : dueRows t now with
  | nil => exact Or.inl ⟨rfl, rfl⟩
  | cons row rest =>
    have hmem : row ∈ dueRows t now := hdue ▸ mem_cons_self ..
    obtain ⟨hfind, hstate, -⟩ := mem_dueRows.mp hmem
    refine Or.inr ⟨row, rest, rfl, ?_⟩
    have hscan := scanMetadata_of_canonical (hids _ row hfind)
    have hupdate : updateWhere t row.metadata.id .queued (claimSet (clock 0)) =
        if h : (claimSet (clock 0) row.toColumns).Check then .ok (1, t.replace ⟨_, h⟩)
        else .error .constraint := by
      unfold updateWhere
      rw [show t.find row.metadata.id = some row from hfind]
      exact if_pos hstate
    dsimp only [head?_cons]
    rw [hscan]
    dsimp only
    rw [hupdate]
    by_cases hcheck : (claimSet (clock 0) row.toColumns).Check
    · rw [dif_pos hcheck]
      exact Or.inl ⟨⟨_, hcheck⟩, rfl, rfl⟩
    · rw [dif_neg hcheck]
      exact Or.inr ⟨_, rfl, isConstraintError_wrap _⟩

variable {row : Row} {stamp : Int} {s : SpoolStore} {id : GoString}

/-- **An update of a row that is there, in the state that is expected**, rewrites it. -/
theorem updateBody_found {st : State} {rec : Record} (hrow : t.find rec.id = some row)
    (hst : row.state = st) :
    (∃ row' : Row, row'.toColumns = rec.columns ∧ updateBody st rec t = .ok ((), t.replace row')) ∨
    ∃ e, updateBody st rec t = .error e ∧ isConstraintError e = true := by
  have hid : row.id = rec.id := find_id hrow
  have hcols : ({ rec.columns with id := row.id } : Columns) = rec.columns := by
    rw [hid]
    rfl
  have hupdate : updateWhere t rec.id st (fun c => { rec.columns with id := c.id }) =
      if h : ({ rec.columns with id := row.id } : Columns).Check then .ok (1, t.replace ⟨_, h⟩)
      else .error .constraint := by
    unfold updateWhere
    rw [hrow]
    exact if_pos hst
  unfold updateBody
  rw [hupdate]
  by_cases hcheck : ({ rec.columns with id := row.id } : Columns).Check
  · rw [dif_pos hcheck]
    exact Or.inl ⟨⟨_, hcheck⟩, hcols, rfl⟩
  · rw [dif_neg hcheck]
    exact Or.inr ⟨_, rfl, isConstraintError_wrap _⟩

variable {W W' : World} {tr : Trace}

theorem updateRecord_works {st : State} {rec : Record} {out : Except GoError Unit}
    (h : Runs exec (updateRecord st rec) W tr out W') (hdb : ∀ ev ∈ tr, DbWorks ev)
    (hid : Canonical rec.id) (hvalid : isValidState rec.state = true)
    (hrow : W.rows.find rec.id = some row) (hst : row.state = st) :
    out = .ok () ∧ W'.files = W.files ∧
      ∃ row' : Row, row'.toColumns = rec.columns ∧ W'.rows = W.rows.replace row' := by
  have hstate : isValidState st = true := hst ▸ row.check.state
  rcases h.lift_bind_inv with ⟨_, -, h⟩ | ⟨_, hx, -⟩
  · rcases h.lift_bind_inv with ⟨_, -, h⟩ | ⟨_, hx, -⟩
    · obtain ⟨c, r, W1, tr', rfl, hE, hret⟩ := h.step_inv
      obtain ⟨rfl, rfl, rfl⟩ := hret.ret_inv
      obtain ⟨hfiles, clock, ⟨a, rfl, hbody⟩ | ⟨e, rfl, hbody, he⟩⟩ :=
        exec_tx_works hE (hdb _ (mem_singleton.mpr rfl))
      · rcases updateBody_found hrow hst with ⟨row', hcols, hok⟩ | ⟨e, herr, -⟩
        · obtain ⟨-, hrows⟩ := Prod.mk.inj (Except.ok.inj (hbody.symm.trans hok))
          exact ⟨rfl, hfiles, row', hcols, hrows⟩
        · nomatch hbody.symm.trans herr
      · rcases updateBody_found hrow hst with ⟨row', -, hok⟩ | ⟨e', herr, hc⟩
        · nomatch hbody.symm.trans hok
        · cases hbody.symm.trans herr
          nomatch he.symm.trans hc
    · refine absurd hx ?_
      rw [show failIf (isValidState st = false ∨ isValidState rec.state = false) _ = .ok () from
        failIf_eq_ok.mpr (by rw [hstate, hvalid]; decide)]
      nofun
  · rw [validateCanonicalRecordID_ok.mpr hid] at hx
    nomatch hx

/-- Reading the clock first changes nothing. -/
theorem readClock_works {α : Type} {f : Int → Task α} {out : Except GoError α}
    (h : Runs exec (readClock >>= f : Task α) W tr out W') :
    ∃ stamp ev tr1, tr = ev :: tr1 ∧ Runs exec (f stamp) W tr1 out W' := by
  obtain ⟨c, stamp, W1, tr1, rfl, hE, hf⟩ := h.step_inv
  obtain ⟨-, -, hW⟩ := exec_other hE rfl rfl
  cases hW
  exact ⟨stamp, _, tr1, rfl, hf⟩

/-- `deadLetterCorruptRecord`, when SQLite does not fail. -/
theorem deadLetterCorruptRecord_works {m : Metadata} {cause : GoError} {out : Except GoError Record}
    (h : Runs exec (deadLetterCorruptRecord m cause) W tr out W') (hdb : ∀ ev ∈ tr, DbWorks ev)
    (hid : Canonical m.id) (hrow : W.rows.find m.id = some row) (hst : row.state = m.state) :
    W'.files = W.files ∧ ∃ time, out = .ok (m.corrupted cause time) ∧ ∃ row' : Row,
      row'.toColumns = (m.corrupted cause time).columns ∧ W'.rows = W.rows.replace row' := by
  obtain ⟨time, ev, tr1, rfl, hstore⟩ := readClock_works h
  have hdb1 : ∀ ev ∈ tr1, DbWorks ev := fun ev hev => hdb ev (mem_cons_of_mem _ hev)
  have hworks : ∀ {tr2 : Trace} {out : Except GoError Unit} {W2 : World},
      (∀ ev ∈ tr2, DbWorks ev) → Runs exec (updateRecord m.state (m.corrupted cause time)) W tr2 out W2 →
      out = .ok () ∧ W2.files = W.files ∧ ∃ row' : Row,
        row'.toColumns = (m.corrupted cause time).columns ∧ W2.rows = W.rows.replace row' := by
    intro tr2 out W2 hdb2 hupdate
    refine updateRecord_works hupdate hdb2 ?_ ?_ ?_ hst
    · rw [corrupted_id]
      exact hid
    · rw [corrupted_state]
      rfl
    · rw [corrupted_id]
      exact hrow
  have hstore : Runs exec (updateRecord m.state (m.corrupted cause time) >>= fun _ =>
      pure (m.corrupted cause time) : Task Record) W tr1 out W' := hstore
  rcases hstore.act_bind_inv with ⟨_, tr2, tr3, W2, rfl, hupdate, hret⟩ | ⟨e, rfl, hupdate⟩
  · obtain ⟨rfl, rfl, rfl⟩ := hret.ret_inv
    rw [append_nil] at hdb1
    obtain ⟨-, hfiles, hrow'⟩ := hworks hdb1 hupdate
    exact ⟨hfiles, time, rfl, hrow'⟩
  · nomatch (hworks hdb1 hupdate).1

/-- `requeueClaimedRecord`, when SQLite does not fail. -/
theorem requeueClaimedRecord_works {m : Metadata} {out : Except GoError Unit}
    (h : Runs exec (requeueClaimedRecord m) W tr out W') (hdb : ∀ ev ∈ tr, DbWorks ev)
    (hid : Canonical m.id) (hrow : W.rows.find m.id = some row) (hst : row.state = m.state) :
    out = .ok () ∧ W'.files = W.files ∧ ∃ time, ∃ row' : Row,
      row'.toColumns = (m.unclaimed time).columns ∧ W'.rows = W.rows.replace row' := by
  obtain ⟨time, ev, tr1, rfl, hstore⟩ := readClock_works h
  obtain ⟨x, tr2, tr3, W2, rfl, hupdate, hlift⟩ := Runs.bind_inv hstore
  have hdb2 : ∀ ev ∈ tr2, DbWorks ev := fun ev hev =>
    hdb ev (mem_cons_of_mem _ (mem_append_left _ hev))
  obtain ⟨rfl, hfiles, row', hcols, hrows⟩ := updateRecord_works hupdate hdb2 hid rfl hrow hst
  obtain ⟨rfl, -, rfl⟩ := hlift.ret_inv
  exact ⟨rfl, hfiles, time, row', hcols, hrows⟩

/-! ## What becomes of one row -/

/-- The row has been dead-lettered because of the load error `e`: a permanent error of the spool, no
    metadata of the provider, and everything else but the time of the update as before. -/
structure DeadLettered (row row' : Row) (e : GoError) : Prop where
  state : row'.state = .deadLetter
  attempt : row'.attempt = row.attempt
  next : row'.nextAttemptAtMS = row.nextAttemptAtMS
  created : row'.createdAtMS = row.createdAtMS
  provider : row'.operationID = none ∧ row'.operationLocation = none ∧
    row'.providerMessageID = none ∧ row'.firstSubmittedAtMS = none
  lastError : ∃ time, row'.scanLastError =
    some ⟨trimSpace (GoError.recordCorruption row.id e).error, spoolProviderName, false, time⟩

/-- The row is back in the queue: all that is read of it is as before, but for the time of the
    update. -/
def PutBack (row row' : Row) : Prop :=
  row'.metadata = { row.metadata with updatedAt := row'.metadata.updatedAt } ∧
    row'.nextAttemptAtMS = row.nextAttemptAtMS

omit [Unicode] in
theorem timeToMillis_ofMillis {ms : Int} (h : 0 < ms) : timeToMillis (ofMillis ms) = ms :=
  (positive_ofMillis h).timeToMillis.trans (unixMilli_ofMillis ms)

omit [Unicode] in
theorem truncateMillis_ofMillis (ms : Int) : truncateMillis (ofMillis ms) = ofMillis ms := by
  rw [← ofMillis_unixMilli, unixMilli_ofMillis]

omit [Unicode] in
/-- A last error that was read is written back as it is. -/
theorem scanLastError_again (row : Row) :
    (normalizeLastError row.scanLastError zeroTime).map LastError.asStored = row.scanLastError := by
  cases h : row.scanLastError with
  | none => rfl
  | some e =>
    have htime := positive_scanLastError h
    unfold Columns.scanLastError at h
    split at h
    · nomatch h
    · obtain rfl := Option.some.inj h
      have hmillis : truncateMillis (if ofMillis (row.lastErrorTimestampMS.getD 0) = zeroTime then
          zeroTime else ofMillis (row.lastErrorTimestampMS.getD 0)) =
          ofMillis (row.lastErrorTimestampMS.getD 0) := by
        rw [if_neg htime.ne_zeroTime, truncateMillis_ofMillis]
      have htext : ∀ s : Option GoString, trimSpace (trimSpace (scanText s)) = scanText s := by
        intro s
        unfold scanText
        rw [trimSpace_trimSpace, trimSpace_trimSpace]
      show some (LastError.mk (trimSpace (trimSpace (scanText _)))
        (trimSpace (trimSpace (scanText _))) _ (truncateMillis _)) = _
      rw [htext, htext, hmillis]

omit [Unicode] in
/-- **A claimed row that is put back is as it was.** -/
theorem putBack_unclaimed {row' : Row} {time : Int} (hstate : row.state = .queued)
    (h : row'.toColumns = ((row.metadata.claimed stamp).unclaimed time).columns) :
    PutBack row row' := by
  have hcheck := row'.check
  rw [h] at hcheck
  have hnext : row'.nextAttemptAtMS = row.nextAttemptAtMS := by
    rw [h]
    exact timeToMillis_ofMillis row.check.next
  have hcreated : row'.createdAtMS = row.createdAtMS := by
    rw [h]
    exact timeToMillis_ofMillis row.check.created
  have herror : row'.scanLastError = row.scanLastError := by
    rw [h, scanLastError_columns hcheck]
    exact scanLastError_again row
  have hfirst : (row'.firstSubmittedAtMS.map ofMillis).getD zeroTime =
      (row.firstSubmittedAtMS.map ofMillis).getD zeroTime := by
    rw [h]
    refine (ofMillis_nullIfZeroTime _).trans ?_
    show truncateMillis ((row.firstSubmittedAtMS.map ofMillis).getD zeroTime) = _
    cases row.firstSubmittedAtMS with
    | none => exact truncateMillis_zeroTime
    | some ms => exact truncateMillis_ofMillis ms
  have htext : ∀ s : Option GoString, scanText (nullIfEmpty (scanText s)) = scanText s := by
    intro s
    rw [scanText_nullIfEmpty]
    unfold scanText
    rw [trimSpace_trimSpace]
  have hop : scanText row'.operationID = scanText row.operationID := by
    rw [h]
    exact htext _
  have hloc : scanText row'.operationLocation = scanText row.operationLocation := by
    rw [h]
    exact htext _
  have hmid : scanText row'.providerMessageID = scanText row.providerMessageID := by
    rw [h]
    exact htext _
  have hid : row'.id = row.id := by
    rw [h]
    rfl
  have hst : row'.state = row.state := by
    rw [h, hstate]
    rfl
  have hattempt : row'.attempt = row.attempt := by
    rw [h]
    rfl
  refine ⟨?_, hnext⟩
  unfold Columns.metadata
  rw [hid, hst, hattempt, hnext, hop, hloc, hmid, hfirst, herror, hcreated]

/-- **A claimed row whose payload is corrupt becomes a dead letter.** -/
theorem deadLettered_corrupted {row' : Row} {time : Int} {e : GoError} (h : row'.toColumns =
      ((row.metadata.claimed stamp).corrupted (.recordCorruption row.id e) time).columns) :
    DeadLettered row row' e := by
  have hcheck := row'.check
  have hrec : (row.metadata.claimed stamp).corrupted (.recordCorruption row.id e) time =
      ({ (row.metadata.claimed stamp) with
        state := .deadLetter
        lastError := some ⟨(GoError.recordCorruption row.id e).error, spoolProviderName, false, time⟩
        updatedAt := time : Metadata }).toRecord.cleared := by
    have hno : ¬ (row.metadata.claimed stamp).state = .submitted :=
      fun hx => nomatch (show State.working = State.submitted from hx)
    unfold Metadata.corrupted
    dsimp only
    rw [if_neg hno]
  rw [hrec] at h
  rw [h] at hcheck
  refine ⟨?_, ?_, ?_, ?_, ?_, ?_⟩
  · rw [h]
    rfl
  · rw [h]
    rfl
  · rw [h]
    exact timeToMillis_ofMillis row.check.next
  · rw [h]
    exact timeToMillis_ofMillis row.check.created
  · rw [h]
    exact ⟨rfl, rfl, rfl, rfl⟩
  · rw [h, scanLastError_columns hcheck]
    refine ⟨truncateMillis (if time = zeroTime then zeroTime else time), ?_⟩
    show some (LastError.mk (trimSpace (trimSpace _)) (trimSpace (trimSpace _)) _ _) = _
    rw [trimSpace_trimSpace]
    rfl

/-- How loading the payload of `id` ended, somewhere in the run. -/
def LoadedIn (s : SpoolStore) (tr : Trace) (id : GoString) (x : Except GoError Message) : Prop :=
  ∃ tr1 trLoad tr2 w w', tr = tr1 ++ trLoad ++ tr2 ∧ Runs exec (s.payloads.load id) w trLoad x w'

theorem LoadedIn.append {x : Except GoError Message} (h : LoadedIn s tr id x) (tr1 tr2 : Trace) :
    LoadedIn s (tr1 ++ tr ++ tr2) id x := by
  obtain ⟨tr3, trLoad, tr4, w, w', rfl, hrun⟩ := h
  exact ⟨tr1 ++ tr3, trLoad, tr4 ++ tr2, w, w', by simp only [append_assoc], hrun⟩

/-- How one round ends, by how the payload of its row loads. -/
inductive RoundEnd (row row' : Row) : Except GoError Message →
    Except GoError (Unit ⊕ Option Record) → Prop where
  | claimed (msg : Message) (stamp : Int) (h : row'.toColumns = claimSet stamp row.toColumns) :
      RoundEnd row row' (.ok msg)
        (.ok (.inr (some { (row.metadata.claimed stamp).toRecord with message := msg })))
  | dead (e : GoError) (hcorrupt : e.isPayloadCorruption = true) (h : DeadLettered row row' e) :
      RoundEnd row row' (.error e) (.ok (.inl ()))
  | putBack (e : GoError) (hother : e.isPayloadCorruption = false) (h : PutBack row row') :
      RoundEnd row row' (.error e) (.error (.wrapStoreError (lit "load payload " ++ quote row.id) e))

theorem onLoadError_eq {α : Type} {e : GoError} (he : Unclassified e)
    (corrupt other : GoError → Task α) : onLoadError id e corrupt other =
      if e.isPayloadCorruption then corrupt (.recordCorruption id e)
      else other (.wrapStoreError (lit "load payload " ++ quote id) e) := by
  unfold onLoadError classifyPayloadLoadError
  by_cases hc : e.isPayloadCorruption = true
  · have hnew : GoError.newRecordCorruptionError id e = .recordCorruption id e := by
      unfold GoError.newRecordCorruptionError
      rw [show e.asRecordCorruptionError = none from he]
      rfl
    rw [if_pos hc, if_pos hc, hnew]
    rfl
  · have hnone : (GoError.wrapStoreError (lit "load payload " ++ quote id) e).asRecordCorruptionError =
        none := by
      unfold GoError.wrapStoreError
      split <;> exact he
    rw [if_neg hc, if_neg hc, hnone]

/-- A round after the claim: the row is working, and its payload has been loaded. -/
theorem settleClaim_runs {row1 : Row} {loaded : Except GoError Message}
    {x : Except GoError (Unit ⊕ Option Record)} (hid : Canonical row.id)
    (hstate : row.state = .queued) (hcols : row1.toColumns = claimSet stamp row.toColumns)
    (hrow : W.rows.find row.id = some row1) (hun : ∀ e, loaded = .error e → Unclassified e)
    (h : Runs exec (SpoolStore.settleClaim (row.metadata.claimed stamp) loaded) W tr x W')
    (hdb : ∀ ev ∈ tr, DbWorks ev) :
    W'.files = W.files ∧ ∃ row', W'.rows.find row.id = some row' ∧ RoundEnd row row' loaded x ∧
      ∀ id, id ≠ row.id → W'.rows.find id = W.rows.find id := by
  have hworking : row1.state = .working := by
    rw [hcols]
    rfl
  have hid1 : row1.id = row.id := find_id hrow
  have hreplace : ∀ {row' : Row} {t1 : Records}, row'.id = row.id → t1 = W.rows.replace row' →
      t1.find row.id = some row' ∧ ∀ id, id ≠ row.id → t1.find id = W.rows.find id := by
    rintro row' t1 hid' rfl
    refine ⟨?_, fun id hne => ?_⟩
    · rw [← hid1]
      exact find_replace_self (hid1.symm ▸ hrow) (hid'.trans hid1.symm)
    · rw [Table.find_replace, if_neg fun heq => hne (heq.trans hid')]
  cases loaded with
  | ok msg =>
    obtain ⟨rfl, -, rfl⟩ := h.ret_inv
    exact ⟨rfl, row1, hrow, .claimed msg stamp hcols, fun _ _ => rfl⟩
  | error e =>
    rw [SpoolStore.settleClaim, onLoadError_eq (hun e rfl)] at h
    by_cases hc : e.isPayloadCorruption = true
    · rw [if_pos hc] at h
      rcases h.act_bind_inv with ⟨rec, tr1, tr2, W1, rfl, hdead, hret⟩ | ⟨e', rfl, hdead⟩
      · obtain ⟨rfl, rfl, rfl⟩ := hret.ret_inv
        rw [append_nil] at hdb
        obtain ⟨hfiles, time, -, row', hcols', hrows⟩ :=
          deadLetterCorruptRecord_works hdead hdb hid hrow hworking
        have hid' : row'.id = row.id := by
          rw [hcols']
          exact corrupted_id ..
        obtain ⟨hfind, hothers⟩ := hreplace hid' hrows
        exact ⟨hfiles, row', hfind, .dead e hc (deadLettered_corrupted hcols'), hothers⟩
      · obtain ⟨-, time, hx, -⟩ := deadLetterCorruptRecord_works hdead hdb hid hrow hworking
        cases hx
    · rw [if_neg hc] at h
      have hother : e.isPayloadCorruption = false := Bool.eq_false_iff.mpr hc
      rcases h.act_bind_inv with ⟨_, tr1, tr2, W1, rfl, hrequeue, hret⟩ | ⟨e', rfl, hrequeue⟩
      · obtain ⟨rfl, rfl, rfl⟩ := hret.ret_inv
        rw [append_nil] at hdb
        obtain ⟨-, hfiles, time, row', hcols', hrows⟩ :=
          requeueClaimedRecord_works hrequeue hdb hid hrow hworking
        have hid' : row'.id = row.id := by
          rw [hcols']
          rfl
        obtain ⟨hfind, hothers⟩ := hreplace hid' hrows
        exact ⟨hfiles, row', hfind, .putBack e hother (putBack_unclaimed hstate hcols'), hothers⟩
      · cases (requeueClaimedRecord_works hrequeue hdb hid hrow hworking).1

/-- **One round of `ClaimReady`**: nothing is due, or the first row that is due is settled, and no
    other row is touched. -/
theorem claimRound_runs {x : Except GoError (Unit ⊕ Option Record)} (hids : CanonicalIDs W.rows)
    (h : Runs exec (s.claimRound now) W tr x W') (hdb : ∀ ev ∈ tr, DbWorks ev) :
    W'.files = W.files ∧
    ((dueRows W.rows now = [] ∧ x = .ok (.inr none) ∧ W'.rows = W.rows) ∨
    ∃ row rest loaded row', dueRows W.rows now = row :: rest ∧ LoadedIn s tr row.id loaded ∧
      W'.rows.find row.id = some row' ∧ RoundEnd row row' loaded x ∧
      ∀ id, id ≠ row.id → W'.rows.find id = W.rows.find id) := by
  -- the claim
  obtain ⟨c, r, W1, tr1, rfl, hE, h1⟩ := h.step_inv
  obtain ⟨hev, hdb1⟩ := forall_mem_cons.mp hdb
  obtain ⟨hfiles, clock, hclaim⟩ := exec_tx_works hE hev
  rcases claimBody_due now clock hids with ⟨hnone, hbody⟩ |
    ⟨row, rest, hdue, ⟨row1, hcols, hbody⟩ | ⟨e, hbody, hc⟩⟩
  · rcases hclaim with ⟨a, rfl, ha⟩ | ⟨e, -, he, -⟩
    · obtain ⟨rfl, hrows⟩ := Prod.mk.inj (Except.ok.inj (ha.symm.trans hbody))
      obtain ⟨rfl, -, rfl⟩ := h1.ret_inv
      exact ⟨hfiles, Or.inl ⟨hnone, rfl, hrows⟩⟩
    · nomatch he.symm.trans hbody
  · rcases hclaim with ⟨a, rfl, ha⟩ | ⟨e, -, he, -⟩
    · obtain ⟨rfl, hrows⟩ := Prod.mk.inj (Except.ok.inj (ha.symm.trans hbody))
      have hmem : row ∈ dueRows W.rows now := hdue ▸ mem_cons_self ..
      obtain ⟨hfind, hstate, -⟩ := mem_dueRows.mp hmem
      have hid : Canonical row.id := hids _ row hfind
      have hid1 : row1.id = row.id := by
        rw [hcols]
        rfl
      have hfind1 : W1.rows.find row.id = some row1 := by
        rw [hrows]
        exact find_replace_self hfind hid1
      have hothers1 : ∀ id, id ≠ row.id → W1.rows.find id = W.rows.find id := by
        intro id hne
        rw [hrows, Table.find_replace, if_neg fun heq => hne (heq.trans hid1)]
      -- the payload
      have h1 : Runs exec ((s.payloads.load row.id).attempt >>=
          SpoolStore.settleClaim (row.metadata.claimed (clock 0)) : Task (Unit ⊕ Option Record))
          W1 tr1 x W' := h1
      rcases h1.act_bind_inv with ⟨loaded, trLoad, tr2, W2, rfl, hload, h2⟩ | ⟨e, rfl, hload⟩
      · obtain ⟨_, hx, hload⟩ := hload.attempt_inv
        cases hx
        have hun := (runs_life (A := fun _ _ => True) hload (load_unclassified s row.id)).1
        have htrim : trimSpace row.id = row.id := hid.trimmed
        have hfrom := hload
        rw [load_of_canonical (htrim.symm ▸ hid)] at hfrom
        obtain ⟨rfl, -⟩ := loadFrom_run hfrom
        obtain ⟨hfiles2, row', hfind', hsettled, hothers2⟩ := settleClaim_runs hid hstate hcols hfind1
          (fun e he => hun e he) h2 fun ev hev => hdb1 ev (mem_append_right _ hev)
        refine ⟨hfiles2.trans hfiles, Or.inr ⟨row, rest, loaded, row', hdue, ?_, hfind', hsettled,
          fun id hne => (hothers2 id hne).trans (hothers1 id hne)⟩⟩
        exact ⟨[_], trLoad, tr2, _, _, rfl, hload⟩
      · obtain ⟨_, hx, -⟩ := hload.attempt_inv
        nomatch hx
    · nomatch he.symm.trans hbody
  · rcases hclaim with ⟨a, -, ha⟩ | ⟨e', -, he, hno⟩
    · nomatch ha.symm.trans hbody
    · cases he.symm.trans hbody
      nomatch hno.symm.trans hc

/-! ## The loop -/

/-- How a call ends, given the rows from the first one whose payload is not corrupt on. -/
inductive ClaimEnd (s : SpoolStore) (tr : Trace) (t' : Records) : List Row →
    Except GoError (Option Record) → Prop where
  | none : ClaimEnd s tr t' [] (.ok none)
  | claimed {row row' : Row} {others : List Row} {msg : Message} {stamp : Int}
      (hload : LoadedIn s tr row.id (.ok msg)) (hfind : t'.find row.id = some row')
      (h : row'.toColumns = claimSet stamp row.toColumns) :
      ClaimEnd s tr t' (row :: others)
        (.ok (some { (row.metadata.claimed stamp).toRecord with message := msg }))
  | putBack {row row' : Row} {others : List Row} {e : GoError}
      (hload : LoadedIn s tr row.id (.error e)) (hother : e.isPayloadCorruption = false)
      (hfind : t'.find row.id = some row') (h : PutBack row row') :
      ClaimEnd s tr t' (row :: others)
        (.error (.wrapStoreError (lit "load payload " ++ quote row.id) e))

/-- The specification of `ClaimReady`: of the rows that are due, the first ones have corrupt payloads
    and become dead letters; the call ends at the next one; and no other row is touched. -/
structure ClaimSpec (s : SpoolStore) (now : Int) (W : World) (tr : Trace)
    (out : Except GoError (Option Record)) (W' : World) (dead rest : List Row) : Prop where
  due : dueRows W.rows now = dead ++ rest
  corrupt : ∀ row ∈ dead, ∃ e row', LoadedIn s tr row.id (.error e) ∧ e.isPayloadCorruption = true ∧
    W'.rows.find row.id = some row' ∧ DeadLettered row row' e
  ending : ClaimEnd s tr W'.rows rest out
  others : ∀ id, (∀ row ∈ dead, row.id ≠ id) → (∀ row ∈ rest.head?, row.id ≠ id) →
    W'.rows.find id = W.rows.find id
  files : W'.files = W.files

theorem ClaimEnd.append {rows : List Row} {out : Except GoError (Option Record)}
    (h : ClaimEnd s tr t' rows out) (tr1 tr2 : Trace) :
    ClaimEnd s (tr1 ++ tr ++ tr2) t' rows out := by
  cases h with
  | none => exact .none
  | claimed hload hfind h => exact .claimed (hload.append tr1 tr2) hfind h
  | putBack hload hother hfind h => exact .putBack (hload.append tr1 tr2) hother hfind h

omit [Unicode] in
/-- The ids stay canonical when one row is rewritten. -/
theorem canonicalIDs_of_others (hids : CanonicalIDs t) (hid : Canonical id)
    (h : ∀ id', id' ≠ id → t'.find id' = t.find id') : CanonicalIDs t' := by
  intro id' row hrow
  by_cases heq : id' = id
  · rw [heq]
    exact hid
  · rw [h id' heq] at hrow
    exact hids id' row hrow

/-- **The loop goes through the rows that are due**, by induction on their list. -/
theorem claimLoop_runs {out : Except GoError (Option Record)} {due : List Row}
    (hdue : dueRows W.rows now = due) (hids : CanonicalIDs W.rows)
    (h : Runs exec (Act.forever (fun _ => s.claimRound now) ()) W tr out W')
    (hdb : ∀ ev ∈ tr, DbWorks ev) : ∃ dead rest, ClaimSpec s now W tr out W' dead rest := by
  induction due generalizing W tr with
  | nil =>
    rcases h.forever_inv with ⟨_, tr1, tr2, W1, rfl, hround, -⟩ | ⟨b, rfl, hround⟩ | ⟨e, rfl, hround⟩
    · obtain ⟨-, ⟨-, hx, -⟩ | ⟨row, rest, _, _, hcons, -⟩⟩ := claimRound_runs hids hround
        fun ev hev => hdb ev (mem_append_left _ hev)
      · nomatch hx
      · nomatch hdue.symm.trans hcons
    · obtain ⟨hfiles, ⟨-, hx, hrows⟩ | ⟨row, rest, _, _, hcons, -⟩⟩ := claimRound_runs hids hround hdb
      · cases hx
        exact ⟨[], [], hdue, forall_mem_nil _, .none, fun _ _ _ => by rw [hrows], hfiles⟩
      · nomatch hdue.symm.trans hcons
    · obtain ⟨-, ⟨-, hx, -⟩ | ⟨row, rest, _, _, hcons, -⟩⟩ := claimRound_runs hids hround hdb
      · nomatch hx
      · nomatch hdue.symm.trans hcons
  | cons row rest ih =>
    have hmem : row ∈ dueRows W.rows now := hdue ▸ mem_cons_self ..
    have hid : Canonical row.id := hids _ row (mem_dueRows.mp hmem).1
    rcases h.forever_inv with ⟨_, tr1, tr2, W1, rfl, hround, hloop⟩ | ⟨b, rfl, hround⟩ |
      ⟨e, rfl, hround⟩
    · -- the payload is corrupt: the rest of the loop works on the rest of the list
      obtain ⟨hfiles, ⟨hnil, -⟩ | ⟨row0, rest0, loaded, row', hcons, hload, hfind, hsettled, hothers⟩⟩ :=
        claimRound_runs hids hround fun ev hev => hdb ev (mem_append_left _ hev)
      · nomatch hdue.symm.trans hnil
      · cases hdue.symm.trans hcons
        cases hsettled with
        | dead e hcorrupt hdead =>
          have hdue1 : dueRows W1.rows now = rest := by
            refine dueRows_tail hdue hothers fun row'' hrow'' => ?_
            cases hfind.symm.trans hrow''
            rw [hdead.state]
            nofun
          obtain ⟨dead, others, hspec⟩ := ih hdue1 (canonicalIDs_of_others hids hid hothers) hloop
            fun ev hev => hdb ev (mem_append_right _ hev)
          -- the row is not among the later ones
          have hlater : ∀ row'' ∈ dead ++ others, row''.id ≠ row.id := by
            intro row'' hrow''
            rw [← hspec.due, hdue1] at hrow''
            exact id_ne_of_dueRows hdue hrow''
          have hhead : ∀ row'' ∈ others.head?, row''.id ≠ row.id := fun row'' hrow'' =>
            hlater row'' (mem_append_right _ (mem_of_mem_head? hrow''))
          refine ⟨row :: dead, others, ⟨?_, ?_, ?_, ?_, hspec.files.trans hfiles⟩⟩
          · rw [hdue, ← hdue1, hspec.due]
            rfl
          · refine forall_mem_cons.mpr ⟨⟨e, row', ?_, hcorrupt, ?_, hdead⟩, fun r hr => ?_⟩
            · have hload' := hload.append [] tr2
              rwa [nil_append] at hload'
            · rw [hspec.others row.id (fun r hr => hlater r (mem_append_left _ hr)) hhead]
              exact hfind
            · obtain ⟨e', r', hload', hrest⟩ := hspec.corrupt r hr
              have happend := hload'.append tr1 []
              rw [append_nil] at happend
              exact ⟨e', r', happend, hrest⟩
          · have happend := hspec.ending.append tr1 []
            rwa [append_nil] at happend
          · intro id hdeadIds hheadIds
            obtain ⟨hne, hdeadIds⟩ := forall_mem_cons.mp hdeadIds
            exact (hspec.others id hdeadIds hheadIds).trans (hothers id (Ne.symm hne))
    · -- the payload loads
      obtain ⟨hfiles, ⟨hnil, -⟩ | ⟨row0, rest0, loaded, row', hcons, hload, hfind, hsettled, hothers⟩⟩ :=
        claimRound_runs hids hround hdb
      · nomatch hdue.symm.trans hnil
      · cases hdue.symm.trans hcons
        cases hsettled with
        | claimed msg stamp hcols =>
          refine ⟨[], row :: rest, ⟨hdue, forall_mem_nil _, .claimed hload hfind hcols, ?_, hfiles⟩⟩
          exact fun id _ hhead => hothers id (Ne.symm (hhead row rfl))
    · -- loading fails in another way
      obtain ⟨hfiles, ⟨hnil, -⟩ | ⟨row0, rest0, loaded, row', hcons, hload, hfind, hsettled, hothers⟩⟩ :=
        claimRound_runs hids hround hdb
      · nomatch hdue.symm.trans hnil
      · cases hdue.symm.trans hcons
        cases hsettled with
        | putBack e hother hback =>
          refine ⟨[], row :: rest, ⟨hdue, forall_mem_nil _, .putBack hload hother hfind hback, ?_, hfiles⟩⟩
          exact fun id _ hhead => hothers id (Ne.symm (hhead row rfl))

/-! ## Termination -/

theorem load_straight (s : PayloadStore) (id : GoString) : (s.load id).Straight :=
  (Act.straight_lift _ _).bind fun _ => loadFrom_straight s _

theorem updateRecord_straight (st : State) (rec : Record) : (updateRecord st rec).Straight :=
  (Act.straight_lift _ _).bind fun _ => (Act.straight_lift _ _).bind fun _ => fun _ => trivial

/-- A round has no loops. -/
theorem claimRound_straight (s : SpoolStore) (now : Int) : (s.claimRound now).Straight := by
  refine Act.Straight.bind (fun _ => trivial) fun claimed => ?_
  cases claimed with
  | none => trivial
  | some m =>
    refine (load_straight s.payloads m.id).attempt.bind fun loaded => ?_
    cases loaded with
    | ok msg => trivial
    | error e =>
      rw [SpoolStore.settleClaim, onLoadError]
      split
      · refine Act.Straight.bind (Act.Straight.bind (fun _ => trivial) fun time => ?_) fun _ => trivial
        exact (Act.straight_lift _ _).bind fun rec =>
          (updateRecord_straight _ rec).bind fun _ => trivial
      · refine Act.Straight.bind (Act.Straight.bind (fun _ => trivial) fun time => ?_) fun _ => trivial
        exact (updateRecord_straight _ _).mapError

/-- **`ClaimReady` terminates**: every round that does not end it takes a row from the queue. -/
theorem claimReady_halts (hids : CanonicalIDs W.rows) :
    (s.claimReady now).Halts exec DbWorks W := by
  have hcheck : checkContext.Straight := fun _ => trivial
  refine Act.Halts.bind (Straight.halts hcheck W) fun tr _ W1 hrun _ => ?_
  obtain ⟨c, r, W2, tr', rfl, hE, hret⟩ := hrun.step_inv
  have hids1 : CanonicalIDs W1.rows := by
    obtain ⟨-, -, rfl⟩ := hret.ret_inv
    rw [exec_rows hE rfl]
    exact hids
  refine Halts.forever (fun _ W => CanonicalIDs W.rows) (fun _ W => (dueRows W.rows now).length)
    (fun _ W _ => Straight.halts (claimRound_straight s now) W) ?_ hids1
  intro _ W tr _ W' hids hround hdb
  obtain ⟨-, ⟨-, hx, -⟩ | ⟨row, rest, loaded, row', hdue, -, hfind, hsettled, hothers⟩⟩ :=
    claimRound_runs hids hround hdb
  · nomatch hx
  · have hmem : row ∈ dueRows W.rows now := hdue ▸ mem_cons_self ..
    cases hsettled with
    | dead e hcorrupt hdead =>
      have hrest : dueRows W'.rows now = rest := by
        refine dueRows_tail hdue hothers fun row'' hrow'' => ?_
        cases hfind.symm.trans hrow''
        rw [hdead.state]
        nofun
      refine ⟨canonicalIDs_of_others hids (hids _ row (mem_dueRows.mp hmem).1) hothers, ?_⟩
      rw [hrest, hdue, length_cons]
      omega

/-- **`ClaimReady` meets its specification, and terminates.**  In every state that any number of store
    operations can reach, for every time `now`, as long as SQLite does not fail: the call comes to an
    end; and when it does, either its context had ended before it began and nothing has happened, or
    the specification holds. -/
theorem claimReady_spec {s : SpoolStore} {W0 : World} {P : StorePool} (h0 : CanonicalIDs W0.rows)
    (hreach : Pool.Reaches exec (StoreCall.run s) W0 P) (now : Int) :
    (s.claimReady now).Halts exec DbWorks P.world ∧
    ∀ tr out W', Runs exec (s.claimReady now) P.world tr out W' → (∀ ev ∈ tr, DbWorks ev) →
      (∃ e, tr = [⟨.ctxErr, .context (some e), some e, P.world, P.world⟩] ∧
        out = .error e.toError ∧ W' = P.world) ∨
      ∃ dead rest, ClaimSpec s now P.world tr out W' dead rest := by
  have hids := canonicalIDs_of_pool h0 hreach
  refine ⟨claimReady_halts hids, fun tr out W' h hdb => ?_⟩
  obtain ⟨c, r, W1, tr1, rfl, hE, h1⟩ := h.step_inv
  obtain ⟨hans, -, hW⟩ := exec_other hE rfl rfl
  have hW : W1 = P.world := hW
  subst hW
  cases c with
  | context e =>
    obtain rfl : e = r := Option.some.inj hans
    cases e with
    | some e =>
      obtain ⟨rfl, rfl, rfl⟩ := h1.ret_inv
      exact Or.inl ⟨e, rfl, rfl, rfl⟩
    | none =>
      obtain ⟨dead, rest, hspec⟩ := claimLoop_runs rfl hids h1
        fun ev hev => hdb ev (mem_cons_of_mem _ hev)
      have hload : ∀ {id : GoString} {x : Except GoError Message}, LoadedIn s tr1 id x →
          LoadedIn s (⟨.ctxErr, .context none, none, P.world, P.world⟩ :: tr1) id x := by
        intro id x hx
        have happend := hx.append [⟨.ctxErr, .context none, none, P.world, P.world⟩] []
        rwa [append_nil] at happend
      have hend := hspec.ending.append [⟨.ctxErr, .context none, none, P.world, P.world⟩] []
      rw [append_nil] at hend
      refine Or.inr ⟨dead, rest, hspec.due, fun row hrow => ?_, hend, hspec.others, hspec.files⟩
      obtain ⟨e, row', hx, hrest⟩ := hspec.corrupt row hrow
      exact ⟨e, row', hload hx, hrest⟩
  | _ => nomatch hans

omit [Unicode] in
/-- **A message that has been enqueued is claimed**, from a fresh spool on. -/
theorem claimReady_spec_enqueued :
    letI := Unicode.ascii
    ∃ (W0 : World) (P : StorePool) (tr : Trace) (rec : Record) (W' : World) (dead rest : List Row),
      CanonicalIDs W0.rows ∧ Pool.Reaches exec (StoreCall.run sampleStore) W0 P ∧
      (sampleStore.claimReady (10 * second)).Halts exec DbWorks P.world ∧
      Runs exec (sampleStore.claimReady (10 * second)) P.world tr (.ok (some rec)) W' ∧
      ClaimSpec sampleStore (10 * second) P.world tr (.ok (some rec)) W' dead rest := by
  let _ := Unicode.ascii
  let ch := calm (.error .canceled) (.error .canceled)
  let enqueue := (StoreCall.enqueue sampleMessage).run sampleStore
  obtain ⟨_, _, W0, -, hW0⟩ := Prog.exists_runs_of_run (E := exec) ch 100 sampleStore.newSpoolStore
    (sampleWorld ⟨[], nodup_nil⟩)
    (fun x => x.2.2.rows.rows.isEmpty && (Prog.run exec ch 100 enqueue x.2.2).any
      fun y => (Prog.run exec ch 100 (sampleStore.claimReady (10 * second)) y.2.2).any
        fun z => (z.1.toOption.bind id).isSome && z.2.1.all fun ev => !dbFails ev)
    (by decide +kernel)
  obtain ⟨hempty, hrun⟩ := Bool.and_eq_true_iff.mp hW0
  obtain ⟨_, _, W, hrun, hclaim⟩ := Prog.exists_runs_of_run (E := exec) ch 100 enqueue W0 _ hrun
  obtain ⟨out, tr, W', hclaim, hz⟩ := Prog.exists_runs_of_run (E := exec) ch 100
    (sampleStore.claimReady (10 * second)) W _ hclaim
  obtain ⟨hsome, hworks⟩ := Bool.and_eq_true_iff.mp hz
  have hcanon : CanonicalIDs W0.rows := by
    intro id row hfind
    have hmem := Table.find_mem hfind
    rw [List.isEmpty_iff.mp hempty] at hmem
    nomatch hmem
  have hstart : Pool.Reaches exec (StoreCall.run sampleStore) W0 ⟨W0, []⟩ := .refl
  obtain ⟨_, hreach⟩ := Pool.reaches_run (t := .enqueue sampleMessage) hstart hrun
  obtain ⟨hhalts, hspec⟩ := claimReady_spec hcanon hreach (10 * second)
  have hdb : ∀ ev ∈ tr, DbWorks ev := fun ev hev => by
    simpa [DbWorks] using all_eq_true.mp hworks ev hev
  match out, hclaim, hsome with
  | .ok (some claimed), hclaim, _ =>
    rcases hspec tr _ W' hclaim hdb with ⟨e, -, hx, -⟩ | ⟨dead, rest, hspec⟩
    · nomatch hx
    · exact ⟨W0, _, tr, claimed, W', dead, rest, hcanon, hreach, hhalts, hclaim, hspec⟩
  | .ok none, _, hsome => nomatch hsome
  | .error _, _, hsome => nomatch hsome

end Round

end SmtpCloudRelay.Spool
