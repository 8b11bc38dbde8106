/-
  WHAT A RECORD SAYS ABOUT ITS OPERATION, in every state of the relay.

  Four columns speak of the provider: operation id, operation location, provider message id and the
  time of the first submission.  Before a message is submitted they are all empty; as long as it is
  submitted, the operation id and the first submission are there and stay what they are; and what
  a submitted record was polled with is what its row keeps for ever.

  The worker takes an operation id for usable when it is not EMPTY, and the store TRIMS it
  afterwards: an id of blanks is stored as NULL, and the record is submitted with nothing to poll for.
  So the invariant holds for the runs in which every usable id has a character that is not a blank
  (`UsableIDs`).  The row after every step, and that a sent row goes on with the operation it was
  sent with (`Row.Follows`), are proved side by side.
-/
import SmtpCloudRelay.Spool.Steps

namespace SmtpCloudRelay.Spool

open Go Lib Prog

/-! ## Rows -/

/-- Nothing is said about the provider. -/
structure Columns.Blank (c : Columns) : Prop where
  operationID : c.operationID = none
  operationLocation : c.operationLocation = none
  providerMessageID : c.providerMessageID = none
  first : c.firstSubmittedAtMS = none

/-- An operation can be polled for, and it is known since when. -/
structure Columns.Operates (c : Columns) : Prop where
  operationID : ∃ op, c.operationID = some op ∧ op ≠ []
  first : c.firstSubmittedAtMS ≠ none
  attempt : 1 ≤ c.attempt

/-- What holds of every row. -/
structure RowInfo (row : Row) : Prop where
  trimmed : ∀ op, row.operationID = some op → op ≠ [] ∧ trimSpace op = op
  blank : row.state = .queued ∨ row.state = .working → row.Blank
  operates : row.state = .submitted → row.Operates

/-- The record was handed to the provider, or is done with. -/
def Row.Sent (row : Row) : Prop :=
  row.state = .submitted ∨ row.state = .succeeded ∨ row.state = .deadLetter

/-- A sent row goes on with its operation. -/
def Row.Follows (row row' : Row) : Prop :=
  row.Sent → row'.Sent ∧ row'.operationID = row.operationID ∧
    row'.firstSubmittedAtMS = row.firstSubmittedAtMS

theorem Row.Follows.refl (row : Row) : row.Follows row := fun h => ⟨h, rfl, rfl⟩

theorem Row.Follows.trans {a b c : Row} (h1 : a.Follows b) (h2 : b.Follows c) : a.Follows c := by
  intro hs
  obtain ⟨hb, hop, hfirst⟩ := h1 hs
  obtain ⟨hc, hop', hfirst'⟩ := h2 hb
  exact ⟨hc, hop'.trans hop, hfirst'.trans hfirst⟩

/-- A row that is queued or working is not sent. -/
theorem Row.not_sent {row : Row} (h : row.state = .queued ∨ row.state = .working) :
    ¬ row.Sent := by
  rintro (hs | hs | hs) <;> rcases h with h | h <;> rw [h] at hs <;> nomatch hs

/-! ## What is encoded, and decoded again -/

theorem nullIfEmpty_some {v op : GoString} (h : nullIfEmpty v = some op) :
    op ≠ [] ∧ trimSpace op = op := by
  unfold nullIfEmpty at h
  by_cases hv : trimSpace v = []
  · rw [if_pos hv] at h
    nomatch h
  · rw [if_neg hv] at h
    cases h
    exact ⟨hv, trimSpace_trimSpace v⟩

/-- What is read from a text column is written back as it was. -/
theorem nullIfEmpty_scanText {o : Option GoString}
    (h : ∀ op, o = some op → op ≠ [] ∧ trimSpace op = op) : nullIfEmpty (scanText o) = o := by
  cases o with
  | none => rfl
  | some op =>
    obtain ⟨hne, htrim⟩ := h op rfl
    unfold nullIfEmpty scanText
    rw [Option.getD_some, htrim, htrim, if_neg hne]

/-- Columns that were encoded from a record hold no blank texts. -/
theorem columns_trimmed {row : Row} {rec : Record} (h : row.toColumns = rec.columns) :
    ∀ op, row.operationID = some op → op ≠ [] ∧ trimSpace op = op := by
  intro op hop
  rw [h] at hop
  exact nullIfEmpty_some hop

theorem Record.Blank.columns {rec : Record} (h : rec.Blank) : rec.columns.Blank := by
  constructor
  · show nullIfEmpty rec.operationID = none
    rw [h.operationID]
    rfl
  · show nullIfEmpty rec.operationLocation = none
    rw [h.operationLocation]
    rfl
  · show nullIfEmpty rec.providerMessageID = none
    rw [h.providerMessageID]
    rfl
  · show nullIfZeroTime rec.firstSubmittedAt = none
    rw [h.firstSubmittedAt]
    rfl

/-- Metadata of a blank row is blank. -/
theorem Columns.Blank.describes {m : Metadata} {row : Row} (h : row.Blank) (hm : m.Describes row) :
    m.toRecord.Blank := by
  constructor
  · show m.operationID = []
    rw [hm.operationID, h.operationID]
    rfl
  · show m.operationLocation = []
    rw [hm.operationLocation, h.operationLocation]
    rfl
  · show m.providerMessageID = []
    rw [hm.providerMessageID, h.providerMessageID]
    rfl
  · show m.firstSubmittedAt = zeroTime
    rw [hm.firstSubmittedAt, h.first]
    rfl

/-! ## The row after each step -/

/-- A row that is done with: nothing more is claimed of it. -/
theorem rowInfo_done {row : Row} {rec : Record} (hcols : row.toColumns = rec.columns)
    (hs : row.state = .succeeded ∨ row.state = .deadLetter) : RowInfo row := by
  refine ⟨columns_trimmed hcols, fun h => ?_, fun h => ?_⟩
  · rcases hs with hs | hs <;> rw [hs] at h <;> rcases h with h | h <;> nomatch h
  · rcases hs with hs | hs <;> rw [hs] at h <;> nomatch h

theorem rowInfo_blank {row : Row} (hs : row.state = .queued ∨ row.state = .working)
    (hblank : row.Blank) : RowInfo row := by
  refine ⟨fun op hop => ?_, fun _ => hblank, fun h => ?_⟩
  · rw [hblank.operationID] at hop
    nomatch hop
  · rcases hs with hs | hs <;> rw [hs] at h <;> nomatch h

section

/-- Every answer that the worker takes for usable names an operation with a character that is not
    a blank. -/
def UsableIDs (cs : List ProviderCall) : Prop :=
  ∀ id result, ProviderCall.submit id (.ok result) ∈ cs → result.state = .running →
    result.operationID ≠ [] → trimSpace result.operationID ≠ []

variable {w : Worker} {m : Metadata} {row row' : Row} {rec : Record}

theorem rowInfo_attempted [Unicode] {answer : Except GoError SubmissionResult} (hinfo : RowInfo row)
    (hs : row.state = .working) (hm : m.Describes row) (hatt : Attempted m rec)
    {now : Int} (hend : SubmitEnd w now m answer rec) (hcols : row'.toColumns = rec.columns)
    (husable : ∀ result, answer = .ok result → result.state = .running →
      result.operationID ≠ [] → trimSpace result.operationID ≠ []) : RowInfo row' := by
  have hstate : row'.state = rec.state := by
    rw [hcols]
    rfl
  cases hend with
  | retry state failed allowed blank next =>
    refine rowInfo_blank (Or.inl (hstate.trans state)) ?_
    rw [hcols]
    exact blank.columns
  | dead state refused exhausted blank => exact rowInfo_done hcols (Or.inr (hstate.trans state))
  | succeeded state => exact rowInfo_done hcols (Or.inl (hstate.trans state))
  | submitted state result answered running usable operationID first next =>
    have hsub : row'.state = .submitted := hstate.trans state
    refine ⟨columns_trimmed hcols, fun h => ?_, fun _ => ⟨?_, ?_, ?_⟩⟩
    · rw [hsub] at h
      rcases h with h | h <;> nomatch h
    · have hne : trimSpace result.operationID ≠ [] := husable result answered running usable
      refine ⟨trimSpace result.operationID, ?_, hne⟩
      rw [hcols]
      show nullIfEmpty rec.operationID = _
      unfold nullIfEmpty
      rw [operationID, trimSpace_trimSpace, if_neg hne]
    · -- the first submission is now, and the table refuses the zero time
      have hzero : m.firstSubmittedAt = zeroTime :=
        ((hinfo.blank (Or.inr hs)).describes hm).firstSubmittedAt
      rw [if_pos hzero] at first
      have hupdated : 0 < row'.updatedAtMS := row'.check.updated.1
      rw [hcols] at hupdated ⊢
      have hupdated : 0 < timeToMillis rec.updatedAt := hupdated
      show nullIfZeroTime rec.firstSubmittedAt ≠ none
      rw [first]
      unfold timeToMillis at hupdated
      unfold nullIfZeroTime
      by_cases hz : rec.updatedAt = zeroTime
      · rw [if_pos hz] at hupdated
        omega
      · rw [if_neg hz]
        exact Option.some_ne_none _
    · have hwrap : row'.attempt = wrap64 (row.attempt + 1) := by
        rw [hcols, ← hm.attempt]
        exact hatt.attempt
      have h0 : 0 ≤ row.attempt := row.check.attempt
      have hsucc := wrap64_succ h0 row.check.attempt_max (hwrap ▸ row'.check.attempt)
      rw [hwrap, hsucc]
      omega

/-- A poll keeps the operation of the row. -/
theorem polled_columns (hinfo : RowInfo row) (hm : m.Describes row) (hrec : Polled m rec)
    (hcols : row'.toColumns = rec.columns) :
    row'.operationID = row.operationID ∧ row'.firstSubmittedAtMS = row.firstSubmittedAtMS ∧
      row'.attempt = row.attempt := by
  rw [hcols]
  refine ⟨?_, ?_, hrec.attempt.trans hm.attempt⟩
  · show nullIfEmpty rec.operationID = _
    rw [hrec.operationID, hm.operationID]
    exact nullIfEmpty_scanText hinfo.trimmed
  · show nullIfZeroTime rec.firstSubmittedAt = _
    rw [hrec.firstSubmittedAt, hm.firstSubmittedAt]
    exact nullIfZeroTime_scan row.check.first

theorem rowInfo_polled (hinfo : RowInfo row) (hs : row.state = .submitted) (hm : m.Describes row)
    (hrec : Polled m rec) (hcols : row'.toColumns = rec.columns) :
    RowInfo row' ∧ row.Follows row' := by
  obtain ⟨hop, hfirst, hatt⟩ := polled_columns hinfo hm hrec hcols
  have hstate : row'.Sent := by
    unfold Row.Sent
    rw [hcols]
    exact hrec.state
  refine ⟨⟨columns_trimmed hcols, fun h => absurd hstate (Row.not_sent h), fun _ => ?_⟩,
    fun _ => ⟨hstate, hop, hfirst⟩⟩
  obtain ⟨⟨op, hsome, hne⟩, hfirst0, hatt0⟩ := hinfo.operates hs
  refine ⟨⟨op, hop.trans hsome, hne⟩, ?_, ?_⟩
  · rw [hfirst]
    exact hfirst0
  · rw [hatt]
    exact hatt0

/-- The row of a claimed record that could not be loaded. -/
theorem rowInfo_unloadable [Unicode] (hinfo : RowInfo row) (hs : row.state = .working)
    (hm : m.Describes row) (hrec : m.Unloadable rec) (hcols : row'.toColumns = rec.columns) :
    RowInfo row' := by
  rcases hrec with ⟨t, rfl⟩ | ⟨cause, t, rfl⟩
  · have hblank : m.toRecord.Blank := (hinfo.blank (Or.inr hs)).describes hm
    refine rowInfo_blank (Or.inl ?_) ?_
    · rw [hcols]
      rfl
    · rw [hcols]
      exact Record.Blank.columns ⟨hblank.operationID, hblank.operationLocation,
        hblank.providerMessageID, hblank.firstSubmittedAt⟩
  · refine rowInfo_done hcols (Or.inr ?_)
    rw [hcols]
    exact corrupted_state m cause t

/-! ## Tables -/

/-- Every row of the table is as it should be, and goes on from a row of the table before. -/
structure TableStep (t t' : Records) : Prop where
  rows : ∀ id row', t'.find id = some row' → RowInfo row'
  follows : ∀ id row, t.find id = some row → ∃ row', t'.find id = some row' ∧ row.Follows row'

variable {t t' : Records}

theorem tableStep_same (h : ∀ id row, t.find id = some row → RowInfo row) : TableStep t t :=
  ⟨h, fun _ row hrow => ⟨row, hrow, Row.Follows.refl row⟩⟩

theorem tableStep_replace (h : ∀ id row, t.find id = some row → RowInfo row)
    (hrow : t.find row.id = some row) (hid : row'.id = row.id) (hinfo : RowInfo row')
    (hfollows : row.Follows row') : TableStep t (t.replace row') := by
  refine ⟨fun id r hr => ?_, fun id r hr => ?_⟩
  · rcases find_replace_cases hr with ⟨-, rfl⟩ | ⟨-, hr'⟩
    · exact hinfo
    · exact h id r hr'
  · rcases find_replaced hrow hid hr with ⟨rfl, hr'⟩ | hr'
    · exact ⟨row', hr', hfollows⟩
    · exact ⟨r, hr', Row.Follows.refl r⟩

theorem tableStep_client (h : ∀ id row, t.find id = some row → RowInfo row)
    (hstep : ClientStep t t') : TableStep t t' := by
  cases hstep with
  | quiet => exact tableStep_same h
  | @insert new id0 msg now hfree hcols =>
    have hnew : RowInfo new := by
      refine rowInfo_blank (Or.inl ?_) ?_
      · rw [hcols]
        rfl
      · rw [hcols]
        exact Record.Blank.columns ⟨rfl, rfl, rfl, rfl⟩
    refine ⟨fun id r hr => ?_, fun id r hr => ⟨r, ?_, Row.Follows.refl r⟩⟩
    · rw [Table.find_insert] at hr
      by_cases hid : id = new.id
      · rw [if_pos hid] at hr
        cases hr
        exact hnew
      · rw [if_neg hid] at hr
        exact h id r hr
    · rw [Table.find_insert, if_neg fun hid : id = new.id => ?_]
      · exact hr
      · exact hfree (hid ▸ Table.has_of_find hr)

/-- An answer that the worker holds was given. -/
def Duty.Answered (cs : List ProviderCall) : Duty → Prop
  | .submitted m answer => .submit m.id answer ∈ cs
  | _ => True

variable {κ κ' : Duty} {cs cs' : List ProviderCall} {φ : Phase}

theorem update_info [Unicode] (hinfo : RowInfo row) (hsees : κ.Sees t) (hanswered : κ.Answered cs)
    (husable : UsableIDs cs) (hw : κ.Writes w m rec) (hrow : t.find rec.id = some row)
    (hs : row.state = m.state) (hcols : row'.toColumns = rec.columns) :
    RowInfo row' ∧ row.Follows row' := by
  have hfrom : ∀ {row0 : Row}, rec.id = m.id → t.find m.id = some row0 → row0 = row := by
    intro row0 hrid h0
    rw [← hrid, hrow] at h0
    exact (Option.some.inj h0).symm
  -- a working row is not sent, so nothing has to be followed
  have hfree : row.state = .working → row.Follows row' :=
    fun hwork hsent => absurd hsent (Row.not_sent (Or.inr hwork))
  cases κ with
  | idle | stopped => nomatch hw
  | claimed m1 =>
    obtain ⟨rfl, hrec⟩ := hw
    obtain ⟨hm, row0, h0, hdesc⟩ := hsees
    have hrid : rec.id = m1.id := by
      rcases hrec with ⟨t, rfl⟩ | ⟨cause, t, rfl⟩
      · rfl
      · exact corrupted_id m1 cause t
    cases hfrom hrid h0
    have hwork : row.state = .working := hs.trans hm
    exact ⟨rowInfo_unloadable hinfo hwork hdesc hrec hcols, hfree hwork⟩
  | submitted m1 answer =>
    obtain ⟨rfl, now, msg, hrec⟩ := hw
    obtain ⟨hm, row0, h0, hdesc⟩ := hsees
    obtain ⟨hatt, hend⟩ := queued_stores hm hrec
    cases hfrom hatt.id h0
    have hwork : row.state = .working := hs.trans hm
    refine ⟨rowInfo_attempted hinfo hwork hdesc hatt hend hcols ?_, hfree hwork⟩
    rintro result rfl hrun hop
    exact husable _ _ hanswered hrun hop
  | found m1 =>
    obtain ⟨rfl, now, hrec⟩ := hw
    obtain ⟨hm, row0, h0, hdesc⟩ := hsees
    have hpolled : Polled m1 rec := timeout_stores hm hrec
    cases hfrom hpolled.id h0
    exact rowInfo_polled hinfo (hs.trans hm) hdesc hpolled hcols
  | polled m1 answer =>
    obtain ⟨rfl, now, hrec⟩ := hw
    obtain ⟨hm, row0, h0, hdesc⟩ := hsees
    have hpolled : Polled m1 rec := submitted_stores hm hrec
    cases hfrom hpolled.id h0
    exact rowInfo_polled hinfo (hs.trans hm) hdesc hpolled hcols

theorem tableStep_worker [Unicode] (h : ∀ id row, t.find id = some row → RowInfo row) (hsees : κ.Sees t)
    (hanswered : κ.Answered cs) (husable : UsableIDs cs) (hstep : WorkerStep w κ t cs κ' t' cs') :
    TableStep t t' := by
  cases hstep with
  | quiet | stop | find hrow hs | submit answer | poll answer => exact tableStep_same h
  | @claim _ _ r r' stamp _ hrow hs hcols hκ =>
    have hstate : r'.state = .working := by
      rw [hcols]
      rfl
    refine tableStep_replace h hrow ?_ ?_ ?_
    · rw [hcols]
      rfl
    · have hblank : r.Blank := (h _ r hrow).blank (Or.inl hs)
      refine rowInfo_blank (Or.inr hstate) ?_
      rw [hcols]
      exact ⟨hblank.operationID, hblank.operationLocation, hblank.providerMessageID, hblank.first⟩
    · exact fun hsent => absurd hsent (Row.not_sent (Or.inl hs))
  | @update _ _ _ _ m1 rec1 r r' hw hrow hs hcols hκ =>
    have hid : r.id = rec1.id := find_id hrow
    obtain ⟨hinfo, hfollows⟩ := update_info (h _ r hrow) hsees hanswered husable hw hrow hs hcols
    refine tableStep_replace h (hid.symm ▸ hrow) ?_ hinfo hfollows
    rw [hcols, hid]
    rfl

/-- What the boot knows of the table: as long as a record of the snapshot is submitted, it is as the
    snapshot says. -/
def BootDuty.Sees : BootDuty → Records → Prop
  | .starting, _ => True
  | .recovering snap, t => (∀ m ∈ snap.requeued, m.state = .queued) ∧
      ∀ m ∈ snap.submitted, m.state = .submitted ∧
        ∀ row, t.find m.id = some row → row.state = .submitted → m.Describes row

theorem tableStep_recovered {now : Int} {snap : Snapshot}
    (h : ∀ id row, t.find id = some row → RowInfo row) (hrec : Recovered now t t' snap) :
    TableStep t t' ∧ (BootDuty.recovering snap).Sees t' := by
  refine ⟨⟨fun id row' hrow' => ?_, fun id row hrow => ?_⟩, fun m hm => ?_, fun m hm => ?_⟩
  · cases hrow : t.find id with
    | none =>
      rw [hrec.none_of_none id hrow] at hrow'
      nomatch hrow'
    | some row =>
      by_cases hs : row.state = .working
      · obtain ⟨stamp, row1, hrow1, hcols, -⟩ := hrec.working id row hrow hs
        cases hrow1.symm.trans hrow'
        refine rowInfo_blank (Or.inl ?_) ?_
        · rw [hcols]
          rfl
        · rw [hcols]
          exact ⟨rfl, rfl, rfl, rfl⟩
      · cases (hrec.kept id row hrow hs).symm.trans hrow'
        exact h id _ hrow
  · by_cases hs : row.state = .working
    · obtain ⟨stamp, row1, hrow1, -, -⟩ := hrec.working id row hrow hs
      exact ⟨row1, hrow1, fun hsent => absurd hsent (Row.not_sent (Or.inr hs))⟩
    · exact ⟨row, hrec.kept id row hrow hs, Row.Follows.refl row⟩
  · obtain ⟨row, stamp, -, -, rfl⟩ := hrec.requeued m hm
    rfl
  · obtain ⟨row, hrow, hs, rfl⟩ := hrec.submitted m hm
    refine ⟨hs, fun row' hrow' _ => ?_⟩
    have hnot : row.state ≠ .working := by
      rw [hs]
      nofun
    cases (hrec.kept _ row hrow hnot).symm.trans hrow'
    exact describes_metadata _

/-- A corrupt record keeps the operation that it was sent with. -/
theorem corrupted_follows [Unicode] {cause : GoError} {now : Int} (hinfo : RowInfo row)
    (hs : row.state = .submitted) (hm : m.Describes row)
    (hcols : row'.toColumns = (m.corrupted cause now).columns) : row.Follows row' := by
  have hpolled : Polled m (m.corrupted cause now) := by
    unfold Metadata.corrupted
    rw [if_pos (hm.state.trans hs)]
    exact ⟨rfl, Or.inr (Or.inr rfl), rfl, rfl, rfl⟩
  exact (rowInfo_polled hinfo hs hm hpolled hcols).2

theorem tableStep_boot [Unicode] {κ κ' : BootDuty} (h : ∀ id row, t.find id = some row → RowInfo row)
    (hsees : κ.Sees t) (hstep : BootStep κ t κ' t') : TableStep t t' ∧ κ'.Sees t' := by
  cases hstep with
  | quiet => exact ⟨tableStep_same h, hsees⟩
  | recover hrec hκ =>
    obtain ⟨htable, hknown⟩ := tableStep_recovered h hrec
    rcases hκ with rfl | rfl
    · exact ⟨htable, hknown⟩
    · exact ⟨htable, trivial⟩
  | @corrupt _ snap m1 cause stamp r r' hm hrow hs hcols =>
    have hid : r.id = m1.id := find_id hrow
    have hdead : r'.state = .deadLetter := by
      rw [hcols]
      exact corrupted_state m1 cause stamp
    refine ⟨?_, hsees.1, fun m2 hm2 => ⟨(hsees.2 m2 hm2).1, fun row2 hrow2 hs2 => ?_⟩⟩
    · refine tableStep_replace h (hid.symm ▸ hrow) ?_ (rowInfo_done hcols (Or.inr hdead)) ?_
      · rw [hcols, hid]
        exact corrupted_id m1 cause stamp
      · rcases hm with hm | hm
        · intro hsent
          rw [hsees.1 m1 hm] at hs
          exact absurd hsent (Row.not_sent (Or.inl hs))
        · obtain ⟨hsub, hdesc⟩ := hsees.2 m1 hm
          have hs' : r.state = .submitted := hs.trans hsub
          exact corrupted_follows (h _ r hrow) hs' (hdesc r hrow hs') hcols
    · rcases find_replace_cases hrow2 with ⟨-, rfl⟩ | ⟨-, hrow2'⟩
      · rw [hdead] at hs2
        nomatch hs2
      · exact (hsees.2 m2 hm2).2 row2 hrow2' hs2

/-! ## The invariant -/

/-- What is known in a phase. -/
def Phase.Sees (t : Records) (cs : List ProviderCall) : Phase → Prop
  | .down => True
  | .booting κ => κ.Sees t
  | .serving κ => κ.Sees t ∧ κ.Answered cs

/-- What a record was polled with is what its row says. -/
def PollsKept (t : Records) (cs : List ProviderCall) : Prop :=
  ∀ id op answer, ProviderCall.poll id op answer ∈ cs →
    op ≠ [] ∧ ∃ row, t.find id = some row ∧ row.Sent ∧ row.operationID = some op

/-- The invariant of the system. -/
structure OperationData (φ : Phase) (W : World) : Prop where
  rows : ∀ id row, W.rows.find id = some row → RowInfo row
  sees : φ.Sees W.rows W.calls
  polls : PollsKept W.rows W.calls

theorem PollsKept.follows (h : PollsKept t cs) (hstep : TableStep t t') : PollsKept t' cs := by
  intro id op answer hcall
  obtain ⟨hne, row, hrow, hsent, hop⟩ := h id op answer hcall
  obtain ⟨row', hrow', hfollows⟩ := hstep.follows id row hrow
  obtain ⟨hsent', hop', -⟩ := hfollows hsent
  exact ⟨hne, row', hrow', hsent', hop'.trans hop⟩

/-- The calls of the worker's steps: a Poll asks for the operation of the row. -/
theorem PollsKept.worker [Unicode] (hpolls : PollsKept t cs)
    (h : ∀ id row, t.find id = some row → RowInfo row) (hsees : κ.Sees t)
    (hstep : WorkerStep w κ t cs κ' t' cs') : PollsKept t cs' := by
  cases hstep with
  | submit answer =>
    intro id op status hcall
    rcases List.mem_cons.mp hcall with hx | hcall
    · nomatch hx
    · exact hpolls id op status hcall
  | @poll _ _ m1 answer =>
    intro id op status hcall
    rcases List.mem_cons.mp hcall with hx | hcall
    · cases hx
      obtain ⟨hm, row1, hrow1, hdesc⟩ := hsees
      have hs : row1.state = .submitted := hdesc.state.symm.trans hm
      obtain ⟨op1, hop1, hne⟩ := ((h _ row1 hrow1).operates hs).operationID
      have heq : m1.operationID = op1 := by
        rw [hdesc.operationID, hop1]
        exact ((h _ row1 hrow1).trimmed op1 hop1).2
      rw [heq]
      exact ⟨hne, row1, hrow1, Or.inl hs, hop1⟩
    · exact hpolls id op status hcall
  | quiet | stop | claim _ _ _ _ | find _ _ | update _ _ _ _ _ => exact hpolls

/-- The worker holds only answers that were given. -/
theorem Duty.Answered.worker [Unicode] (ha : κ.Answered cs) (hstep : WorkerStep w κ t cs κ' t' cs') :
    κ'.Answered cs' := by
  cases hstep with
  | quiet => exact ha
  | stop => trivial
  | claim _ _ _ hκ => rcases hκ with rfl | rfl <;> trivial
  | find _ _ => trivial
  | submit answer => exact List.mem_cons_self ..
  | poll answer => trivial
  | update _ _ _ _ hκ => rcases hκ with rfl | rfl <;> trivial

/-- Calls are only added. -/
theorem WorkerStep.calls_subset [Unicode] (h : WorkerStep w κ t cs κ' t' cs') : cs ⊆ cs' := by
  cases h with
  | submit answer | poll answer => exact List.subset_cons_self _ _
  | _ => exact fun _ hx => hx

theorem PhaseStep.calls_subset [Unicode] {φ' : Phase} {W W' : World} (h : PhaseStep w φ W φ' W') :
    W.calls ⊆ W'.calls := by
  cases h with
  | serve h =>
    rcases h with h | ⟨-, -, hsame⟩
    · exact h.calls_subset
    · rw [hsame]
      exact fun _ hx => hx
  | boot h hcalls =>
    rw [hcalls]
    exact fun _ hx => hx
  | _ => exact fun _ hx => hx

theorem UsableIDs.mono (h : UsableIDs cs') (hsub : cs ⊆ cs') : UsableIDs cs :=
  fun id result hcall => h id result (hsub hcall)

/-- **Every step of the system keeps the invariant**, and sent rows go on with their operation. -/
theorem OperationData.step [Unicode] {φ' : Phase} {W W' : World} (I : OperationData φ W)
    (h : PhaseStep w φ W φ' W') (husable : UsableIDs W'.calls) :
    OperationData φ' W' ∧ TableStep W.rows W'.rows := by
  cases h with
  | crash | launch => exact ⟨⟨I.rows, trivial, I.polls⟩, tableStep_same I.rows⟩
  | up => exact ⟨⟨I.rows, ⟨trivial, trivial⟩, I.polls⟩, tableStep_same I.rows⟩
  | boot h hcalls =>
    obtain ⟨htable, hsees⟩ := tableStep_boot I.rows I.sees h
    refine ⟨⟨htable.rows, hsees, ?_⟩, htable⟩
    rw [hcalls]
    exact I.polls.follows htable
  | serve h =>
    obtain ⟨hsees, hanswered⟩ := I.sees
    rcases h with h | ⟨rfl, h, hcalls⟩
    · have htable : TableStep W.rows W'.rows :=
        tableStep_worker I.rows hsees hanswered (husable.mono h.calls_subset) h
      have hpolls : PollsKept W.rows W'.calls := I.polls.worker I.rows hsees h
      exact ⟨⟨htable.rows, ⟨hsees.worker h, hanswered.worker h⟩, hpolls.follows htable⟩, htable⟩
    · have htable : TableStep W.rows W'.rows := tableStep_client I.rows h
      refine ⟨⟨htable.rows, ⟨hsees.client h, ?_⟩, ?_⟩, htable⟩
      · rw [hcalls]
        exact hanswered
      · rw [hcalls]
        exact I.polls.follows htable

/-! ## Runs -/

variable {s : SpoolStore} {σ0 σ σ' : Sys}

/-- Along a run the invariant is kept, and sent rows go on with their operation. -/
theorem operationData_run [Unicode] (hφ : InPhase w φ σ.process)
    (I : UsableIDs σ.world.calls → OperationData φ σ.world) (hrun : Reaches w s σ σ') :
    ∃ φ', InPhase w φ' σ'.process ∧ (UsableIDs σ'.world.calls → OperationData φ' σ'.world ∧
      ∀ id row, σ.world.rows.find id = some row →
        ∃ row', σ'.world.rows.find id = some row' ∧ row.Follows row') := by
  induction hrun with
  | refl => exact ⟨φ, hφ, fun hu => ⟨I hu, fun id row hrow => ⟨row, hrow, Row.Follows.refl row⟩⟩⟩
  | tail _ hstep ih =>
    obtain ⟨φ1, hφ1, hI1⟩ := ih
    obtain ⟨φ2, hφ2, hphase⟩ := hφ1.step hstep
    refine ⟨φ2, hφ2, fun hu => ?_⟩
    obtain ⟨I1, hfollows⟩ := hI1 (hu.mono hphase.calls_subset)
    obtain ⟨I2, htable⟩ := I1.step hphase hu
    refine ⟨I2, fun id row hrow => ?_⟩
    obtain ⟨row1, hrow1, h1⟩ := hfollows id row hrow
    obtain ⟨row2, hrow2, h2⟩ := htable.follows id row1 hrow1
    exact ⟨row2, hrow2, h1.trans h2⟩

/-- A relay that has never run. -/
structure Sys.Fresh (σ : Sys) : Prop where
  down : σ.process = .down
  empty : ∀ id, σ.world.rows.find id = none
  uncalled : σ.world.calls = []

theorem Sys.Fresh.operationData (h : σ.Fresh) : OperationData .down σ.world := by
  refine ⟨fun id row hrow => ?_, trivial, fun id op answer hcall => ?_⟩
  · rw [h.empty id] at hrow
    nomatch hrow
  · rw [h.uncalled] at hcall
    nomatch hcall

/-- The time of the first submission is not the zero time, so the timeout applies. -/
theorem timedOut_of_operates (h : row.Operates) (now : Int) :
    w.timedOut now row.metadata.toRecord =
      decide (row.metadata.firstSubmittedAt + w.cfg.submittedTimeout ≤ now) := by
  have hne : row.metadata.firstSubmittedAt ≠ zeroTime := by
    intro hz
    refine h.first ?_
    have hback : nullIfZeroTime row.metadata.firstSubmittedAt = row.firstSubmittedAtMS :=
      nullIfZeroTime_scan row.check.first
    rw [← hback, hz]
    rfl
  show (decide (row.metadata.firstSubmittedAt ≠ zeroTime) && _) = _
  rw [decide_eq_true hne, Bool.true_and]
  rfl

/-- **Provider-operation metadata.**  Let a fresh relay run, with crashes and restarts at any
    point, to `σ` and on to `σ'`, and let every operation id that a Running answer names be empty or
    have a character that is not a blank.  Then in `σ'`: queued and working rows say nothing about the
    provider; submitted rows have a non-empty operation id, a first submission and an attempt, and
    the timeout of submitted records applies to them; a row that was submitted in `σ` has the same
    operation id and first submission in `σ'`, in whatever state it is; and every call of Poll had
    the non-empty operation id that the row of its record has. -/
theorem provider_metadata [Unicode] (hfresh : σ0.Fresh) (hrun : Reaches w s σ0 σ) (hrun' : Reaches w s σ σ')
    (husable : UsableIDs σ'.world.calls) :
    (∀ id row, σ'.world.rows.find id = some row →
      (row.state = .queued ∨ row.state = .working → row.Blank) ∧
      (row.state = .submitted → row.Operates ∧ ∀ now, w.timedOut now row.metadata.toRecord =
        decide (row.metadata.firstSubmittedAt + w.cfg.submittedTimeout ≤ now))) ∧
    (∀ id row, σ.world.rows.find id = some row → row.state = .submitted →
      ∃ row', σ'.world.rows.find id = some row' ∧
        (row'.state = .submitted ∨ row'.state = .succeeded ∨ row'.state = .deadLetter) ∧
        row'.operationID = row.operationID ∧
        row'.firstSubmittedAtMS = row.firstSubmittedAtMS) ∧
    (∀ id op answer, ProviderCall.poll id op answer ∈ σ'.world.calls → op ≠ [] ∧
      ∃ row, σ'.world.rows.find id = some row ∧
        (row.state = .submitted ∨ row.state = .succeeded ∨ row.state = .deadLetter) ∧
        row.operationID = some op) := by
  have hdown : InPhase w .down σ0.process := by
    rw [hfresh.down]
    exact .down
  obtain ⟨φ, hφ, hI⟩ := operationData_run hdown (fun _ => hfresh.operationData) hrun
  obtain ⟨φ', -, hI'⟩ := operationData_run hφ (fun hu => (hI hu).1) hrun'
  obtain ⟨I, hfollows⟩ := hI' husable
  refine ⟨fun id row hrow => ?_, fun id row hrow hs => ?_, I.polls⟩
  · have hinfo := I.rows id row hrow
    exact ⟨hinfo.blank, fun hs =>
      ⟨hinfo.operates hs, fun now => timedOut_of_operates (hinfo.operates hs) now⟩⟩
  · obtain ⟨row', hrow', h⟩ := hfollows id row hrow
    exact ⟨row', hrow', h (Or.inl hs)⟩

end

theorem sampleWorld_fresh : (⟨sampleWorld ⟨[], List.nodup_nil⟩, .down, []⟩ : Sys).Fresh :=
  ⟨rfl, fun _ => rfl, rfl⟩

/-- The answer to a submission that is running as operation `op`. -/
def runningAs (op : GoString) : SubmissionResult := ⟨op, [], 0, .running, [], none⟩

/-- The call was answered so. -/
def ProviderCall.isRunningAs (op : GoString) : ProviderCall → Bool
  | .submit _ (.ok result) => result = runningAs op
  | _ => false

/-- A run in which the provider names its operation: the record is submitted, and can be polled. -/
theorem provider_metadata_submitted :
    letI := Unicode.ascii
    ∃ σ0 σ row, σ0.Fresh ∧ Reaches sampleWorker sampleStore σ0 σ ∧
      σ.world.rows.rows = [row] ∧ row.state = .submitted ∧ row.Operates := by
  let _ := Unicode.ascii
  have h : (sampleDay (.ok (runningAs (lit "op-1")))).any (fun W =>
      W.rows.rows.map (·.state) = [.submitted] && W.calls.all (·.isRunningAs (lit "op-1"))) =
        true := by
    decide +kernel
  obtain ⟨W, hday, hW⟩ := (Option.any_eq_true _ _).mp h
  obtain ⟨hrows, hcalls⟩ := (Bool.and_eq_true _ _).mp hW
  obtain ⟨row, hrow, hs⟩ := List.map_eq_singleton_iff.mp (of_decide_eq_true hrows)
  obtain ⟨acc, hreach⟩ := sampleDay_reached hday
  have husable : UsableIDs W.calls := by
    intro id result hcall _ _
    rw [show result = runningAs (lit "op-1") from
      of_decide_eq_true (List.all_eq_true.mp hcalls _ hcall)]
    decide
  have hfind : W.rows.find row.id = some row := Table.mem_iff.mp (by rw [hrow]; simp)
  obtain ⟨hall, -, -⟩ := provider_metadata sampleWorld_fresh hreach .refl husable
  exact ⟨_, _, row, sampleWorld_fresh, hreach, hrow, hs, ((hall row.id row hfind).2 hs).1⟩

/-- **An operation id of blanks**: the record is submitted, and there is nothing to poll for. -/
theorem blank_operation_id_submitted :
    letI := Unicode.ascii
    ∃ σ0 σ row, σ0.Fresh ∧ Reaches sampleWorker sampleStore σ0 σ ∧
      σ.world.rows.rows = [row] ∧ row.state = .submitted ∧ row.operationID = none := by
  let _ := Unicode.ascii
  have h : (sampleDay (.ok (runningAs (lit " ")))).any (fun W =>
      W.rows.rows.map (fun row => (row.state, row.operationID)) = [(.submitted, none)]) = true := by
    decide +kernel
  obtain ⟨W, hday, hW⟩ := (Option.any_eq_true _ _).mp h
  obtain ⟨row, hrow, hpair⟩ := List.map_eq_singleton_iff.mp (of_decide_eq_true hW)
  obtain ⟨hs, hop⟩ := Prod.mk.inj hpair
  obtain ⟨acc, hreach⟩ := sampleDay_reached hday
  exact ⟨_, _, row, sampleWorld_fresh, hreach, hrow, hs, hop⟩

end SmtpCloudRelay.Spool
