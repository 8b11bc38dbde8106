/-
  WRITING AND READING ROWS: what the store has written, it can read.

  A record is encoded by the Go code (NULL for an empty text and for the zero time), checked by the
  constraints of the table, and checked again when it is scanned.  The three layers agree: a row
  that passes the constraints and has a canonical id passes every check of `scanMetadata`
  (`scanMetadata_of_canonical`), and what is scanned is the record that was written, with its times
  cut to milliseconds and its texts trimmed (`asStored`).

  The columns of times are INT64: `Time.UnixMilli` wraps for an instant that is 292 million years away
  (`Record.bound`).  Such a row can be read as well, but the time that is read is another one, and so the
  round trip is stated for records whose times fit.

  An id that is not canonical is the only thing that could make a row unreadable, and no operation
  writes one: `insertRecord` checks the id, and an UPDATE keeps it.  So in every pool of store
  operations, with any arguments and any interleaving, every row can be read.
-/
import SmtpCloudRelay.Lib.Pool
import SmtpCloudRelay.Spool.Lifecycle

namespace SmtpCloudRelay.Spool

open Go Lib Act List

/-! ## The record that comes back -/

/-- An instant cut to whole milliseconds. -/
def truncateMillis (t : Int) : Int := t - t % millisecond

/-- An error whose texts are trimmed and whose time is cut to milliseconds. -/
def LastError.asStored (e : LastError) : LastError where
  message := trimSpace e.message
  provider := trimSpace e.provider
  temporary := e.temporary
  timestamp := truncateMillis e.timestamp

/-- What a stored record comes back as: its times cut to milliseconds, its texts trimmed, and
    without the message, which is in the payload. -/
def Record.asStored (rec : Record) : Record where
  id := rec.id
  state := rec.state
  attempt := rec.attempt
  nextAttemptAt := truncateMillis rec.nextAttemptAt
  operationID := trimSpace rec.operationID
  operationLocation := trimSpace rec.operationLocation
  providerMessageID := trimSpace rec.providerMessageID
  firstSubmittedAt := truncateMillis rec.firstSubmittedAt
  lastError := rec.lastError.map LastError.asStored
  createdAt := truncateMillis rec.createdAt
  updatedAt := truncateMillis rec.updatedAt
  message := Message.zero

theorem ofMillis_unixMilli (t : Int) : ofMillis (unixMilli t) = truncateMillis t := by
  unfold ofMillis unixMilli truncateMillis millisecond
  omega

/-- The zero time has no fraction of a millisecond. -/
theorem truncateMillis_zeroTime : truncateMillis zeroTime = zeroTime := by decide

theorem scanText_nullIfEmpty (s : GoString) : scanText (nullIfEmpty s) = trimSpace s := by
  unfold scanText nullIfEmpty
  split
  · rename_i hblank
    rw [hblank]
    rfl
  · exact trimSpace_trimSpace s

/-- A time that a constraint asks to be positive. -/
theorem ofMillis_timeToMillis {t : Int} (h : 0 < timeToMillis t) :
    ofMillis (timeToMillis t) = truncateMillis t := by
  unfold timeToMillis at h ⊢
  split
  · rename_i hzero
    rw [if_pos hzero] at h
    nomatch h
  · exact ofMillis_unixMilli t

theorem ofMillis_nullIfZeroTime (t : Int) :
    ((nullIfZeroTime t).map ofMillis).getD zeroTime = truncateMillis t := by
  unfold nullIfZeroTime
  split
  · rename_i hzero
    rw [hzero, truncateMillis_zeroTime]
    rfl
  · exact ofMillis_unixMilli t

/-- An error that is stored with its time, and scanned. -/
theorem scanLastError_columns {rec : Record} (h : rec.columns.Check) :
    rec.columns.scanLastError = rec.lastError.map LastError.asStored := by
  have hlast := h.lastError
  unfold Columns.scanLastError
  cases he : rec.lastError with
  | none =>
    have hnull : rec.columns.lastErrorMessage = none ∧ rec.columns.lastErrorProvider = none ∧
        rec.columns.lastErrorTemporary = none ∧ rec.columns.lastErrorTimestampMS = none := by
      unfold Record.columns
      rw [he]
      exact ⟨rfl, rfl, rfl, rfl⟩
    rw [if_pos hnull]
    rfl
  | some e =>
    have htemp : rec.columns.lastErrorTemporary = some (lastErrorTemporary e) := by
      unfold Record.columns
      rw [he]
      rfl
    have hnot : ¬ (rec.columns.lastErrorMessage = none ∧ rec.columns.lastErrorProvider = none ∧
        rec.columns.lastErrorTemporary = none ∧ rec.columns.lastErrorTimestampMS = none) := by
      rintro ⟨-, -, hx, -⟩
      rw [htemp] at hx
      nomatch hx
    rw [if_neg hnot]
    -- the constraint asks for the time of the error
    have hstamp : rec.columns.lastErrorTimestampMS ≠ none := by
      rcases hlast with hnull | hstamp
      · exact absurd hnull hnot
      · exact hstamp
    have htime : rec.columns.lastErrorTimestampMS = nullIfZeroTime e.timestamp := by
      unfold Record.columns
      rw [he]
      rfl
    rw [htime] at hstamp
    have hmsg : rec.columns.lastErrorMessage = nullIfEmpty e.message := by
      unfold Record.columns
      rw [he]
      rfl
    have hprov : rec.columns.lastErrorProvider = nullIfEmpty e.provider := by
      unfold Record.columns
      rw [he]
      rfl
    rw [htemp, htime, hmsg, hprov, scanText_nullIfEmpty, scanText_nullIfEmpty]
    have hts : ofMillis ((nullIfZeroTime e.timestamp).getD 0) = truncateMillis e.timestamp := by
      unfold nullIfZeroTime at hstamp ⊢
      split
      · rename_i hzero
        rw [if_pos hzero] at hstamp
        exact absurd rfl hstamp
      · exact ofMillis_unixMilli e.timestamp
    have hbit : decide ((some (lastErrorTemporary e)).getD 0 ≠ 0) = e.temporary := by
      unfold lastErrorTemporary
      cases e.temporary <;> rfl
    rw [hts, hbit]
    rfl

/-- `toRecord` changes nothing that was trimmed before. -/
theorem normalizeLastError_asStored (e : Option LastError) :
    normalizeLastError (e.map LastError.asStored) zeroTime = e.map LastError.asStored := by
  cases e with
  | none => rfl
  | some e =>
    have hstamp : (if truncateMillis e.timestamp = zeroTime then zeroTime
        else truncateMillis e.timestamp) = truncateMillis e.timestamp := by
      split
      · rename_i hzero
        exact hzero.symm
      · rfl
    show some (LastError.mk (trimSpace (trimSpace e.message)) (trimSpace (trimSpace e.provider))
      e.temporary (if truncateMillis e.timestamp = zeroTime then zeroTime
        else truncateMillis e.timestamp)) = some e.asStored
    rw [trimSpace_trimSpace, trimSpace_trimSpace, hstamp]
    rfl

/-- **What is written is what is read**, for columns that pass the constraints. -/
theorem toRecord_metadata_columns {rec : Record} (h : rec.columns.Check) :
    rec.columns.metadata.toRecord = rec.asStored := by
  unfold Metadata.toRecord Columns.metadata
  rw [scanLastError_columns h, normalizeLastError_asStored]
  have hnext : ofMillis rec.columns.nextAttemptAtMS = truncateMillis rec.nextAttemptAt :=
    ofMillis_timeToMillis h.next
  have hcreated : ofMillis rec.columns.createdAtMS = truncateMillis rec.createdAt :=
    ofMillis_timeToMillis h.created
  have hupdated : ofMillis rec.columns.updatedAtMS = truncateMillis rec.updatedAt :=
    ofMillis_timeToMillis h.updated.1
  have hfirst : (rec.columns.firstSubmittedAtMS.map ofMillis).getD zeroTime =
      truncateMillis rec.firstSubmittedAt := ofMillis_nullIfZeroTime _
  have hop : scanText rec.columns.operationID = trimSpace rec.operationID := scanText_nullIfEmpty _
  have hloc : scanText rec.columns.operationLocation = trimSpace rec.operationLocation :=
    scanText_nullIfEmpty _
  have hpmid : scanText rec.columns.providerMessageID = trimSpace rec.providerMessageID :=
    scanText_nullIfEmpty _
  dsimp only
  rw [hnext, hcreated, hupdated, hfirst, hop, hloc, hpmid]
  rfl

/-! ## The range of the columns -/

/-- The parameters as the driver gets them: an int64 for each time. -/
def Record.bound (rec : Record) : Columns :=
  { rec.columns with
    nextAttemptAtMS := wrap64 rec.columns.nextAttemptAtMS
    firstSubmittedAtMS := rec.columns.firstSubmittedAtMS.map wrap64
    lastErrorTimestampMS := rec.columns.lastErrorTimestampMS.map wrap64
    createdAtMS := wrap64 rec.columns.createdAtMS
    updatedAtMS := wrap64 rec.columns.updatedAtMS }

/-- Every time of the record is, in milliseconds, an int64. -/
def Record.InRange (rec : Record) : Prop :=
  ∀ t ∈ rec.nextAttemptAt :: rec.firstSubmittedAt :: rec.createdAt :: rec.updatedAt ::
    rec.lastError.toList.map (·.timestamp), -maxDuration ≤ unixMilli t ∧ unixMilli t ≤ maxDuration

instance (rec : Record) : Decidable rec.InRange := inferInstanceAs (Decidable (∀ t ∈ _, _))

/-- In range the parameters are the columns of the record. -/
theorem Record.InRange.bound {rec : Record} (h : rec.InRange) : rec.bound = rec.columns := by
  have hexact : ∀ {t}, (-maxDuration ≤ unixMilli t ∧ unixMilli t ≤ maxDuration) →
      wrap64 (timeToMillis t) = timeToMillis t ∧
      (nullIfZeroTime t).map wrap64 = nullIfZeroTime t := by
    intro t ht
    have hwrap := wrap64_of_range ht.1 ht.2
    unfold timeToMillis nullIfZeroTime
    split
    · exact ⟨rfl, rfl⟩
    · exact ⟨hwrap, congrArg some hwrap⟩
  have hlast : rec.columns.lastErrorTimestampMS.map wrap64 = rec.columns.lastErrorTimestampMS := by
    unfold Record.columns
    cases he : rec.lastError with
    | none => rfl
    | some e => exact (hexact (h e.timestamp (by simp [he]))).2
  unfold Record.bound
  rw [hlast]
  show ({ rec.columns with
    nextAttemptAtMS := wrap64 (timeToMillis rec.nextAttemptAt)
    firstSubmittedAtMS := (nullIfZeroTime rec.firstSubmittedAt).map wrap64
    createdAtMS := wrap64 (timeToMillis rec.createdAt)
    updatedAtMS := wrap64 (timeToMillis rec.updatedAt) } : Columns) = _
  rw [(hexact (h _ (by simp))).1, (hexact (h rec.firstSubmittedAt (by simp))).2,
    (hexact (h rec.createdAt (by simp))).1, (hexact (h rec.updatedAt (by simp))).1]
  rfl

/-! ## Reading a row -/

section Reading

variable [Unicode]

/-- **A row with a canonical id can be read**: the constraints of the table imply every other check
    of `scanMetadata`. -/
theorem scanMetadata_of_canonical {row : Row} (h : Canonical row.id) :
    scanMetadata row = .ok row.metadata := by
  have hc := row.check
  have hchecks : row.scanChecks = .ok () := by
    unfold Columns.scanChecks
    rw [validateCanonicalRecordID_ok.mpr h]
    refine bind_eq_ok.mpr ⟨(), rfl, ?_⟩
    simp only [failIf_bind_eq_ok, failIf_eq_ok]
    refine ⟨?_, not_lt.mpr hc.attempt, not_le.mpr hc.next, not_le.mpr hc.created,
      not_le.mpr hc.updated.1, ?_, not_lt.mpr hc.updated.2, ?_, ?_⟩
    · rw [hc.state]
      exact Bool.noConfusion
    · rw [hc.first]
      exact Bool.noConfusion
    · -- the flag of the last error is NULL, 0 or 1
      rintro ⟨hne0, hne1⟩
      rcases hc.temporary with hnull | hzero | hone
      · rw [hnull] at hne0
        exact hne0 rfl
      · rw [hzero] at hne0
        exact hne0 rfl
      · rw [hone] at hne1
        exact hne1 rfl
    · -- a last error has a positive time
      rintro ⟨hsome, hle⟩
      rcases hc.lastError with hnull | hstamp
      · exact hsome (if_pos hnull)
      · obtain ⟨ms, hms⟩ := Option.ne_none_iff_exists'.mp hstamp
        have hpos := hc.timestamp
        rw [hms] at hle hpos
        exact absurd hle (not_le.mpr (of_decide_eq_true hpos))
  unfold scanMetadata
  rw [hchecks]
  rfl

/-- Every row of the table has a canonical id. -/
def CanonicalIDs (t : Records) : Prop := ∀ id row, t.find id = some row → Canonical id

/-- What reads rows cannot fail on the table. -/
structure Readable (t : Records) : Prop where
  scan : ∀ id row, t.find id = some row → scanMetadata row = .ok row.metadata
  ready : ∀ st now row, selectReady t st now = some row → scanMetadata row = .ok row.metadata
  states : ∀ st, (selectState t st).mapM scanMetadata =
    .ok ((selectState t st).map fun row => row.metadata)
  ids : queryAllIDs t = .ok (t.rows.map fun row => row.id)

omit [Unicode] in
/-- A `mapM` whose function succeeds on every element. -/
theorem mapM_eq_ok_of_forall {α β ε : Type} {f : α → Except ε β} {g : α → β} {l : List α}
    (h : ∀ a ∈ l, f a = .ok (g a)) : l.mapM f = .ok (l.map g) := by
  induction l with
  | nil => rfl
  | cons a l ih =>
    rw [mapM_cons, h a (mem_cons_self ..), ih fun b hb => h b (mem_cons_of_mem _ hb)]
    rfl

/-- **A table of canonical ids is readable.** -/
theorem CanonicalIDs.readable {t : Records} (h : CanonicalIDs t) : Readable t where
  scan id row hrow := scanMetadata_of_canonical (find_id hrow ▸ h id row hrow)
  ready st now row hrow := scanMetadata_of_canonical (h _ row (selectReady_spec hrow).1)
  states st := mapM_eq_ok_of_forall fun row hrow =>
    scanMetadata_of_canonical (h _ row (mem_selectState.mp hrow).1)
  ids := mapM_eq_ok_of_forall fun row hrow => by
    rw [validateCanonicalRecordID_ok.mpr (h _ row (Table.mem_iff.mp hrow))]
    rfl

/-! ## No operation writes an id that is not canonical -/

/-- The steps of the store: an INSERT has a canonical id. -/
def InsertsCanonical (o : Op) : Prop := ∀ rec, o = .tx (.insert rec) → Canonical rec.id

variable {W W' : World} {rec : Record} {tr : Trace}

/-- **One step keeps the ids canonical.** -/
theorem CanonicalIDs.step {o : Op} {c : Choice} {r : o.Res} (ho : InsertsCanonical o)
    (hE : exec o c W = some (r, W')) (h : CanonicalIDs W.rows) : CanonicalIDs W'.rows := by
  cases o with
  | tx tx =>
    obtain ⟨-, ⟨clock, a, hbody, -⟩ | ⟨hrows, -⟩⟩ := exec_tx_cases hE
    · intro id row' hrow'
      cases hrow : W.rows.find id with
      | some row => exact h id row hrow
      | none =>
        obtain ⟨rec, rfl, rfl, -⟩ := Tx.body_find_new hbody hrow hrow'
        exact ho rec rfl
    · rw [hrows]
      exact h
  | _ =>
    rw [exec_rows hE rfl]
    exact h

omit [Unicode] in
theorem confined_inserts {R : Path → Prop} (o : Op) (h : Confined R o) : InsertsCanonical o := by
  rintro rec rfl
  nomatch h

theorem updateRecord_inserts (st : State) (rec : Record) :
    (updateRecord st rec).Uses InsertsCanonical := by
  refine Uses.bind (check_uses _) fun _ => Uses.bind (check_uses _) fun _ => ?_
  exact uses_step (fun _ hx => nomatch hx) fun _ => trivial

theorem storeUpdated_inserts (st : State) (updated : Except GoError Record) :
    (storeUpdated st updated).Uses InsertsCanonical :=
  Uses.bind (uses_lift _ _) fun rec =>
    Uses.bind (updateRecord_inserts st rec) fun _ => uses_pure _

omit [Unicode] in
theorem readClock_inserts : readClock.Uses InsertsCanonical :=
  uses_step (fun _ hx => nomatch hx) fun _ => trivial

omit [Unicode] in
theorem checkContext_inserts : checkContext.Uses InsertsCanonical :=
  uses_step (fun _ hx => nomatch hx) fun _ => trivial

theorem mark_inserts (m : Mark) : m.run.Uses InsertsCanonical := by
  cases m with
  | submitted rec result next =>
    refine Uses.bind (check_uses _) fun _ => Uses.bind readClock_inserts fun _ => ?_
    exact storeUpdated_inserts _ _
  | retry rec next lastErr =>
    refine Uses.bind readClock_inserts fun _ => Uses.bind readClock_inserts fun _ => ?_
    exact storeUpdated_inserts _ _
  | succeeded rec => exact Uses.bind readClock_inserts fun _ => storeUpdated_inserts _ _
  | deadLetter rec lastErr =>
    refine Uses.bind readClock_inserts fun _ => Uses.bind readClock_inserts fun _ => ?_
    exact storeUpdated_inserts _ _

theorem deadLetterCorruptRecord_inserts (m : Metadata) (cause : GoError) :
    (deadLetterCorruptRecord m cause).Uses InsertsCanonical :=
  Uses.bind readClock_inserts fun _ => storeUpdated_inserts _ _

/-- Both branches after a payload could not be loaded. -/
theorem onLoadError_inserts {α : Type} {id : GoString} {e : GoError} {corrupt other : GoError → Task α}
    (hc : ∀ e, (corrupt e).Uses InsertsCanonical) (ho : ∀ e, (other e).Uses InsertsCanonical) :
    (onLoadError id e corrupt other).Uses InsertsCanonical := by
  unfold onLoadError
  split
  · exact hc _
  · exact ho _

theorem load_inserts (s : SpoolStore) (id : GoString) :
    (s.payloads.load id).Uses InsertsCanonical :=
  (PayloadStore.load_confined id).mono confined_inserts

theorem enqueue_inserts (s : SpoolStore) (msg : Message) :
    (s.enqueue msg).Uses InsertsCanonical := by
  refine Uses.bind checkContext_inserts fun _ => Uses.bind readClock_inserts fun now => ?_
  refine Uses.bind (Uses.mapError (uses_step (fun _ hx => nomatch hx) fun _ => trivial))
    fun id => ?_
  refine Uses.bind ((PayloadStore.save_confined id msg).mono confined_inserts).mapError
    fun _ => ?_
  refine Uses.bind (Uses.onFail ?_ ?_) fun _ => uses_pure _
  · -- the INSERT comes after the check of the id
    refine Safe.lift_bind (fun _ hid => ?_) fun _ _ => trivial
    refine uses_step ?_ fun _ => trivial
    rintro rec ⟨⟩
    exact validateCanonicalRecordID_ok.mp hid
  · exact (PayloadStore.remove_confined id).mono confined_inserts

theorem claimReady_inserts (s : SpoolStore) (now : Int) :
    (s.claimReady now).Uses InsertsCanonical := by
  refine Uses.bind checkContext_inserts fun _ => Uses.forever fun _ => ?_
  refine Uses.bind (uses_step (fun _ hx => nomatch hx) fun _ => trivial) fun claimed => ?_
  cases claimed with
  | none => exact uses_pure _
  | some m =>
    refine Uses.bind (load_inserts s m.id).attempt fun loaded => ?_
    cases loaded with
    | ok msg => exact uses_pure _
    | error e =>
      unfold SpoolStore.settleClaim
      refine onLoadError_inserts (fun _ => ?_) fun _ => ?_
      · exact Uses.bind (deadLetterCorruptRecord_inserts m _) fun _ => uses_pure _
      · refine Uses.bind ?_ fun _ => uses_fail _
        exact Uses.bind readClock_inserts fun _ => (updateRecord_inserts _ _).mapError

theorem recoverRecords_inserts (s : SpoolStore) (what : String) (ms : List Metadata) :
    (s.recoverRecords what ms).Uses InsertsCanonical := by
  induction ms with
  | nil => exact uses_pure _
  | cons m ms ih =>
    refine Uses.bind (load_inserts s m.id).attempt fun loaded => ?_
    refine Uses.bind ?_ fun _ => Uses.bind ih fun _ => uses_pure _
    cases loaded with
    | ok msg => exact uses_pure _
    | error e =>
      refine onLoadError_inserts (fun _ => ?_) fun _ => uses_fail _
      exact Uses.bind (deadLetterCorruptRecord_inserts m _) fun _ => uses_pure _

theorem recover_inserts (s : SpoolStore) (now : Int) : (s.recover now).Uses InsertsCanonical := by
  refine Uses.bind checkContext_inserts fun _ => ?_
  refine Uses.bind (uses_step (fun _ hx => nomatch hx) fun _ => trivial) fun snap => ?_
  refine Uses.bind (recoverRecords_inserts s _ _) fun _ => ?_
  refine Uses.bind (recoverRecords_inserts s _ _) fun _ => ?_
  refine Uses.bind (Uses.mapError ?_) fun _ => uses_pure _
  exact (PayloadStore.quarantineOrphans_confined _).mono confined_inserts

/-- **Every operation of the store** inserts only canonical ids. -/
theorem storeCall_inserts (s : SpoolStore) (call : StoreCall) :
    (call.run s).Uses InsertsCanonical := by
  cases call with
  | enqueue msg => exact Uses.bind (enqueue_inserts s msg) fun _ => uses_pure _
  | claimReady now => exact Uses.bind (claimReady_inserts s now) fun _ => uses_pure _
  | nextSubmittedReady now =>
    refine Uses.bind ?_ fun _ => uses_pure _
    refine Uses.bind ?_ fun _ => uses_pure _
    exact uses_step (fun _ hx => nomatch hx) fun _ => trivial
  | mark m => exact Uses.bind (mark_inserts m) fun _ => uses_pure _
  | recover now => exact Uses.bind (recover_inserts s now) fun _ => uses_pure _

/-- Any number of operations of the store at work on one world. -/
abbrev StorePool := Pool spoolSig Choice World StoreCall (Except GoError Unit)

/-- **The ids stay canonical** under any number of operations, whatever their arguments and however
    they interleave. -/
theorem canonicalIDs_of_pool {s : SpoolStore} {W0 : World} {P : StorePool}
    (h0 : CanonicalIDs W0.rows) (h : Pool.Reaches exec (StoreCall.run s) W0 P) :
    CanonicalIDs P.world.rows := by
  induction h with
  | refl => exact h0
  | tail hreach hstep ih =>
    have hkeeps : ∀ {p p' : Prog spoolSig (Except GoError Unit)} {W W' : World}
        {ev : Option (SpoolEvent)}, Prog.Uses InsertsCanonical p →
        Prog.Move exec p W ev p' W' → Prog.Uses InsertsCanonical p' :=
      fun hp hmove => (hp.move hmove).1
    have huses := Pool.forall_threads (I := fun th => Prog.Uses InsertsCanonical th.prog)
      (storeCall_inserts s) hkeeps hreach
    cases hstep with
    | spawn call => exact ih
    | move hmove =>
      have hp := huses _ (mem_append_right _ (mem_cons_self ..))
      obtain ⟨-, rfl | ⟨o, c, r, ho, hE⟩⟩ := hp.move hmove
      · exact ih
      · exact CanonicalIDs.step ho hE ih

/-! ## The round trip -/

/-- A record that was stored can be read, as what it is stored as. -/
theorem scanMetadata_stored {row : Row} (hid : Canonical rec.id)
    (hcols : row.toColumns = rec.columns) :
    ∃ m, scanMetadata row = .ok m ∧ m.toRecord = rec.asStored := by
  have hrow : Canonical row.id := by
    rw [hcols]
    exact hid
  refine ⟨row.metadata, scanMetadata_of_canonical hrow, ?_⟩
  have hcheck := row.check
  rw [hcols] at hcheck ⊢
  exact toRecord_metadata_columns hcheck

/-- A record is in the table, and is read as what it is stored as. -/
def ReadsBack (W : World) (rec : Record) : Prop :=
  ∃ row m, W.rows.find rec.id = some row ∧ scanMetadata row = .ok m ∧ m.toRecord = rec.asStored

theorem insertRecord_readsBack (h : Prog.Runs exec (insertRecord rec) W tr (.ok ()) W') :
    ReadsBack W' rec := by
  rcases h.lift_bind_inv with ⟨_, hid, h⟩ | ⟨_, -, hx, -⟩
  · obtain ⟨c, r, W1, tr', -, hE, hret⟩ := h.step_inv
    obtain ⟨rfl, -, rfl⟩ := hret.ret_inv
    obtain ⟨-, ⟨clock, a, hbody, -⟩ | ⟨-, _, hx⟩⟩ := exec_tx_cases hE
    · obtain ⟨row, hk, hcols, hrows⟩ := insertBody_ok hbody
      obtain ⟨m, hscan, hm⟩ := scanMetadata_stored (validateCanonicalRecordID_ok.mp hid) hcols
      refine ⟨row, m, ?_, hscan, hm⟩
      have hrowid : rec.id = row.id := by
        rw [hcols]
        rfl
      rw [hrows, hrowid, Table.find_insert, if_pos rfl]
    · nomatch hx
  · nomatch hx

/-- `updateRecord` that succeeds has rewritten the row, which was in the state it expects, and nothing
    else. -/
theorem updateRecord_applied {st : State}
    (h : Prog.Runs exec (updateRecord st rec) W tr (.ok ()) W') :
    Canonical rec.id ∧ W'.files = W.files ∧ W'.calls = W.calls ∧
      ∃ row row' : Row, W.rows.find rec.id = some row ∧ row.state = st ∧
        row'.toColumns = rec.columns ∧ W'.rows = W.rows.replace row' := by
  rcases h.lift_bind_inv with ⟨_, hid, h⟩ | ⟨_, -, hx, -⟩
  · rcases h.lift_bind_inv with ⟨_, -, h⟩ | ⟨_, -, hx, -⟩
    · obtain ⟨c, r, W1, tr', -, hE, hret⟩ := h.step_inv
      obtain ⟨rfl, -, rfl⟩ := hret.ret_inv
      obtain ⟨hcalls, ⟨clock, a, hbody, -⟩ | ⟨-, _, hx⟩⟩ := exec_tx_cases hE
      · have hfiles := exec_files hE rfl
        exact ⟨validateCanonicalRecordID_ok.mp hid, hfiles, hcalls, updateBody_ok hbody⟩
      · nomatch hx
    · nomatch hx
  · nomatch hx

theorem updateRecord_readsBack {st : State}
    (h : Prog.Runs exec (updateRecord st rec) W tr (.ok ()) W') : ReadsBack W' rec := by
  obtain ⟨hid, -, -, row, row', hf, -, hcols, hrows⟩ := updateRecord_applied h
  obtain ⟨m, hscan, hm⟩ := scanMetadata_stored hid hcols
  refine ⟨row', m, ?_, hscan, hm⟩
  have hrowid : row.id = rec.id := find_id hf
  have hrowid' : row'.id = row.id := by
    rw [hcols, hrowid]
    rfl
  rw [hrows, ← hrowid]
  exact find_replace_self (hrowid.symm ▸ hf) hrowid'

/-- A record with an error whose text has blanks around it, at a time between two milliseconds. -/
def sampleFailed : Record where
  id := sampleID
  state := .queued
  attempt := 1
  nextAttemptAt := 2 * second + 7
  operationID := []
  operationLocation := []
  providerMessageID := []
  firstSubmittedAt := zeroTime
  lastError := some ⟨lit " busy ", lit "acs", true, second + 7⟩
  createdAt := second
  updatedAt := second + 7
  message := Message.zero

/-- A record that is due in the year 730 million. -/
def farRecord : Record := { sampleFailed with nextAttemptAt := 23058430092136939 * second }

end Reading

end SmtpCloudRelay.Spool
