/-
  THE CONSTRAINTS OF THE TABLE, against the clock.

  Every write of the worker and of recovery sets `updated_at_ms` to a reading of the wall clock, and
  the table insists on `updated_at_ms >= created_at_ms`.  The other constraints are met whatever the
  clock reads, as long as it is positive (`Fills.check_iff`), so that a write is accepted EXACTLY
  when the clock has not been set back behind the creation of the record, and, for the writes that
  count an attempt, the counter has not reached its last value:

  * one `Check` is computed for the columns of any record that comes from its row;
  * from it, what each operation answers is read off, for every table with canonical ids and every
    reading, with no failure of the storage itself.

  A clock that is set back makes every claim of a newer record fail, every `Mark*`, and, when such a
  record was left working, the recovery of the next start.
-/
import SmtpCloudRelay.Spool.Codec
import SmtpCloudRelay.Spool.Duty

namespace SmtpCloudRelay.Spool

open Go Lib Prog List

/-! ## Times that the table can hold -/

/-- A time whose milliseconds are positive. -/
def Positive (t : Int) : Prop := 0 < unixMilli t

instance (t : Int) : Decidable (Positive t) := inferInstanceAs (Decidable (0 < unixMilli t))

variable {t : Int} {row : Row}

theorem Positive.ne_zeroTime (h : Positive t) : t ≠ zeroTime := by
  rintro rfl
  exact absurd h (by decide)

theorem Positive.timeToMillis (h : Positive t) : timeToMillis t = unixMilli t :=
  if_neg h.ne_zeroTime

theorem Positive.nullIfZeroTime (h : Positive t) :
    nullIfZeroTime t = some (unixMilli t) := if_neg h.ne_zeroTime

theorem positive_ofMillis {ms : Int} (h : 0 < ms) : Positive (ofMillis ms) := by
  unfold Positive
  rw [unixMilli_ofMillis]
  exact h

/-- A time that a column may be NULL for. -/
def ZeroOrPositive (t : Int) : Prop := t = zeroTime ∨ Positive t

theorem ZeroOrPositive.nullOrPos (h : ZeroOrPositive t) : nullOrPos (nullIfZeroTime t) = true := by
  rcases h with rfl | h
  · rfl
  · rw [h.nullIfZeroTime]
    exact decide_eq_true h

theorem zeroOrPositive_scan {ms : Option Int} (h : nullOrPos ms = true) :
    ZeroOrPositive ((ms.map ofMillis).getD zeroTime) := by
  cases ms with
  | none => exact Or.inl rfl
  | some n => exact Or.inr (positive_ofMillis (of_decide_eq_true h))

/-! ## Records that come from a row -/

/-- The metadata says what the row says, as far as a write relies on it: that is what `ClaimReady`,
    `NextSubmittedReady` and `Recover` hand out, and what the worker passes on. -/
structure Metadata.From (m : Metadata) (row : Row) : Prop where
  id : m.id = row.id
  state : m.state = row.state
  attempt : m.attempt = row.attempt
  next : Positive m.nextAttemptAt
  first : ZeroOrPositive m.firstSubmittedAt
  lastError : ∀ e, m.lastError = some e → Positive e.timestamp
  created : m.createdAt = ofMillis row.createdAtMS

theorem positive_scanLastError {e : LastError} (h : row.scanLastError = some e) :
    Positive e.timestamp := by
  have hc := row.check
  unfold Columns.scanLastError at h
  split at h
  · nomatch h
  · rename_i hsome
    rcases hc.lastError with hnull | hstamp
    · exact absurd hnull hsome
    · obtain ⟨ms, hms⟩ := Option.ne_none_iff_exists'.mp hstamp
      have hpos := hc.timestamp
      rw [hms] at hpos
      obtain rfl := Option.some.inj h
      show Positive (ofMillis (row.lastErrorTimestampMS.getD 0))
      rw [hms]
      exact positive_ofMillis (of_decide_eq_true hpos)

theorem from_metadata (row : Row) : row.metadata.From row where
  id := rfl
  state := rfl
  attempt := rfl
  next := positive_ofMillis row.check.next
  first := zeroOrPositive_scan row.check.first
  lastError _ h := positive_scanLastError h
  created := rfl

theorem from_claimed {row' : Row} {stamp : Int}
    (h : row'.toColumns = claimSet stamp row.toColumns) :
    (row.metadata.claimed stamp).From row' where
  id := by rw [h]; rfl
  state := by rw [h]; rfl
  attempt := by rw [h]; rfl
  next := positive_ofMillis row.check.next
  first := zeroOrPositive_scan row.check.first
  lastError _ he := positive_scanLastError he
  created := by rw [h]; rfl

/-- What recovery has requeued, at whatever reading. -/
theorem from_requeued {row' : Row} {now stamp stamp' : Int} (hnow : Positive now)
    (h : row'.toColumns = requeueSet now stamp' row.toColumns) :
    (row.metadata.requeued now stamp).From row' where
  id := by rw [h]; rfl
  state := by rw [h]; rfl
  attempt := by rw [h]; rfl
  next := hnow
  first := Or.inl rfl
  lastError _ he := positive_scanLastError he
  created := by rw [h]; rfl

/-- A last error that is normalized has a time, if the fallback is one. -/
theorem positive_normalizeLastError {lastErr : Option LastError} (ht : Positive t)
    (h : ∀ e, lastErr = some e → ZeroOrPositive e.timestamp) :
    ∀ e, normalizeLastError lastErr t = some e → Positive e.timestamp := by
  intro e he
  obtain ⟨e0, rfl, rfl⟩ := Option.map_eq_some_iff.mp he
  show Positive (if e0.timestamp = zeroTime then t else e0.timestamp)
  split
  · exact ht
  · rename_i hne
    exact (h e0 rfl).resolve_left hne

theorem Metadata.From.toRecord {m : Metadata} (h : m.From row) : m.toRecord.From row where
  id := h.id
  state := h.state
  attempt := h.attempt
  next := h.next
  first := h.first
  lastError e he := by
    obtain ⟨e0, he0, rfl⟩ := Option.map_eq_some_iff.mp he
    have hpos := h.lastError e0 he0
    show Positive (if e0.timestamp = zeroTime then zeroTime else e0.timestamp)
    rw [if_neg hpos.ne_zeroTime]
    exact hpos
  created := h.created

/-! ## What the constraints come down to -/

/-- A record that is about to be written to its row. -/
structure Record.Fills (rec : Record) (row : Row) : Prop where
  id : rec.id = row.id
  state : isValidState rec.state = true
  next : Positive rec.nextAttemptAt
  first : ZeroOrPositive rec.firstSubmittedAt
  lastError : ∀ e, rec.lastError = some e → Positive e.timestamp
  created : rec.createdAt = ofMillis row.createdAtMS
  updated : Positive rec.updatedAt

/-- The constraints on the columns of the last error. -/
theorem lastError_columns {rec : Record} (h : ∀ e, rec.lastError = some e → Positive e.timestamp) :
    (rec.columns.lastErrorTemporary = none ∨ rec.columns.lastErrorTemporary = some 0 ∨
      rec.columns.lastErrorTemporary = some 1) ∧
    nullOrPos rec.columns.lastErrorTimestampMS = true ∧
    ((rec.columns.lastErrorMessage = none ∧ rec.columns.lastErrorProvider = none ∧
      rec.columns.lastErrorTemporary = none ∧ rec.columns.lastErrorTimestampMS = none) ∨
      rec.columns.lastErrorTimestampMS ≠ none) := by
  unfold Record.columns
  cases he : rec.lastError with
  | none => exact ⟨Or.inl rfl, rfl, Or.inl ⟨rfl, rfl, rfl, rfl⟩⟩
  | some e =>
    have hpos := h e he
    have hstamp : (some e).bind (fun e => nullIfZeroTime e.timestamp) =
        some (unixMilli e.timestamp) := hpos.nullIfZeroTime
    refine ⟨?_, ?_, Or.inr ?_⟩
    · show some (lastErrorTemporary e) = none ∨ some (lastErrorTemporary e) = some 0 ∨
        some (lastErrorTemporary e) = some 1
      unfold lastErrorTemporary
      cases e.temporary with
      | false => exact Or.inr (Or.inl rfl)
      | true => exact Or.inr (Or.inr rfl)
    · rw [hstamp]
      exact decide_eq_true hpos
    · rw [hstamp]
      exact Option.some_ne_none _

/-- **The constraints come down to two**: the clock is not behind the creation of the record, and
    the attempts are a counter. -/
theorem Record.Fills.check_iff {rec : Record} (h : rec.Fills row) : rec.columns.Check ↔
      row.createdAtMS ≤ unixMilli rec.updatedAt ∧ 0 ≤ rec.attempt ∧ rec.attempt ≤ maxDuration := by
  have hcreated : Positive rec.createdAt := by
    rw [h.created]
    exact positive_ofMillis row.check.created
  have hcreatedMS : rec.columns.createdAtMS = row.createdAtMS := by
    show timeToMillis rec.createdAt = _
    rw [hcreated.timeToMillis, h.created, unixMilli_ofMillis]
  have hupdatedMS : rec.columns.updatedAtMS = unixMilli rec.updatedAt := h.updated.timeToMillis
  have hid : rec.columns.id = row.id := h.id
  obtain ⟨htemp, htime, hlast⟩ := lastError_columns h.lastError
  constructor
  · intro hc
    have hle := hc.updated.2
    rw [hcreatedMS, hupdatedMS] at hle
    exact ⟨hle, hc.attempt, hc.attempt_max⟩
  · rintro ⟨hle, hmin, hmax⟩
    refine ⟨?_, ?_, h.state, hmin, hmax, ?_, h.first.nullOrPos, htemp, htime, ?_, ⟨?_, ?_⟩, hlast⟩
    · rw [hid]
      exact row.check.id_length
    · rw [hid]
      exact row.check.id_trimmed
    · show 0 < timeToMillis rec.nextAttemptAt
      rw [h.next.timeToMillis]
      exact h.next
    · rw [hcreatedMS]
      exact row.check.created
    · rw [hupdatedMS]
      exact h.updated
    · rw [hcreatedMS, hupdatedMS]
      exact hle

/-- The next attempt of a record is counted, unless it was the last one that can be. -/
theorem count_iff {n : Int} (h0 : 0 ≤ n) (hmax : n ≤ maxDuration) :
    (0 ≤ wrap64 (n + 1) ∧ wrap64 (n + 1) ≤ maxDuration) ↔ n < maxDuration := by
  unfold wrap64 maxDuration at *
  rw [Int.bmod_def]
  split <;> omega

section Writes

/-! ## One write -/

variable {t : Records} {row : Row} {st : State} {rec : Record} {clock : Nat → Int} {W W' : World}
  {tr : Trace} {out : Except GoError Record} {m : Metadata} {stamp now : Int}

/-- An UPDATE of a row that is there goes through exactly when the new columns pass. -/
theorem updateWhere_ok_iff {set : Columns → Columns} (hrow : t.find row.id = some row)
    (hst : row.state = st) :
    (∃ x, updateWhere t row.id st set = .ok x) ↔ (set row.toColumns).Check := by
  unfold updateWhere
  rw [hrow]
  dsimp only
  rw [if_pos hst]
  by_cases hc : (set row.toColumns).Check
  · rw [dif_pos hc]
    exact ⟨fun _ => hc, fun _ => ⟨_, rfl⟩⟩
  · rw [dif_neg hc]
    refine ⟨?_, fun h => absurd h hc⟩
    rintro ⟨x, hx⟩
    nomatch hx

theorem updateBody_ok_iff [Unicode] (hrow : t.find row.id = some row) (hst : row.state = st)
    (hid : rec.id = row.id) : (∃ x, updateBody st rec t = .ok x) ↔ rec.columns.Check := by
  have hcols : ({ rec.columns with id := row.id } : Columns) = rec.columns := by
    rw [← hid]
    rfl
  have hiff : (∃ x, updateWhere t row.id st (fun c => { rec.columns with id := c.id }) = .ok x) ↔
      ({ rec.columns with id := row.id } : Columns).Check := updateWhere_ok_iff hrow hst
  rw [hcols] at hiff
  rw [← hiff, ← hid]
  unfold updateBody
  constructor
  · rintro ⟨x, hx⟩
    cases hu : updateWhere t rec.id st fun c => { rec.columns with id := c.id } with
    | error e =>
      rw [hu] at hx
      nomatch hx
    | ok y => exact ⟨y, rfl⟩
  · rintro ⟨⟨n, t'⟩, hu⟩
    rw [hu]
    rcases updateWhere_spec hu with ⟨-, -, hno⟩ | ⟨rfl, -⟩
    · exact absurd hst (hno row (hid ▸ hrow))
    · exact ⟨_, rfl⟩

/-- A transaction that no failure of the storage disturbs. -/
theorem exec_run_ok_iff [Unicode] {tx : Tx} {r : Except GoError tx.Answer}
    (h : exec (.tx tx) (.tx (.run clock)) W = some (r, W')) :
    (∃ a, r = .ok a) ↔ ∃ x, tx.body clock W.rows = .ok x := by
  obtain ⟨out, rows, hout, hperf, -⟩ := exec_tx h
  cases hout
  unfold Tx.perform at hperf
  dsimp only at hperf
  cases hb : tx.body clock W.rows with
  | error e =>
    rw [hb] at hperf
    cases hperf
    constructor
    · rintro ⟨a, ha⟩
      cases ha
    · rintro ⟨x, hx⟩
      cases hx
  | ok x =>
    rw [hb] at hperf
    cases hperf
    exact ⟨fun _ => ⟨x, rfl⟩, fun _ => ⟨_, rfl⟩⟩

/-! ## The methods that update one row -/

/-- The clock reading that a step has answered. -/
def reading (ev : SpoolEvent) : Option Int :=
  match ev.op, ev.res with
  | .now, (t : Int) => some t
  | _, _ => none

/-- The last reading of the clock: the one that becomes `updated_at_ms`. -/
def lastReading (tr : Trace) : Option Int := (tr.filterMap reading).getLast?

/-- A step that is no failure of the storage, and no reading that is not positive. -/
def soundEvent (ev : SpoolEvent) : Bool :=
  match ev.op, ev.choice, ev.res with
  | .tx _, .tx (.run _), _ => true
  | .tx _, _, _ => false
  | .now, _, (t : Int) => Positive t
  | _, _, _ => true

/-- No failure of the storage, and a clock that reads positive times. -/
def Sound (tr : Trace) : Prop := tr.all soundEvent = true

theorem Sound.tail {ev : SpoolEvent} (h : Sound (ev :: tr)) :
    Sound tr := (Bool.and_eq_true_iff.mp h).2

theorem Sound.reads {c : Choice} {t : Int} (h : Sound (⟨.now, c, t, W, W'⟩ :: tr)) :
    Positive t := by
  have hev : soundEvent ⟨.now, c, t, W, W'⟩ = true := (Bool.and_eq_true_iff.mp h).1
  exact of_decide_eq_true hev

theorem Sound.runs {c : Choice} {tx : Tx} {r : Except GoError tx.Answer}
    (h : Sound (⟨.tx tx, c, r, W, W'⟩ :: tr)) : ∃ clock, c = .tx (.run clock) := by
  have hev : soundEvent ⟨.tx tx, c, r, W, W'⟩ = true := (Bool.and_eq_true_iff.mp h).1
  cases c with
  | tx out =>
    cases out with
    | run clock => exact ⟨clock, rfl⟩
    | _ => nomatch hev
  | _ => nomatch hev

/-- After the readings comes one transaction, with no more readings. -/
theorem updateRecord_ok_iff [Unicode] {out : Except GoError Unit}
    (h : Runs exec (updateRecord st rec) W tr out W') (hs : Sound tr) (hid : Canonical row.id)
    (hrow : W.rows.find row.id = some row) (hst : row.state = st) (hfills : rec.Fills row) :
    tr.filterMap reading = [] ∧ ((∃ u, out = .ok u) ↔ rec.columns.Check) := by
  have hidok : validateCanonicalRecordID rec.id = .ok () :=
    validateCanonicalRecordID_ok.mpr (hfills.id ▸ hid)
  have hstate : isValidState st = true := hst ▸ row.check.state
  rcases h.lift_bind_inv with ⟨_, -, h⟩ | ⟨_, hx, -⟩
  · rcases h.lift_bind_inv with ⟨_, -, h⟩ | ⟨_, hx, -⟩
    · obtain ⟨c, r, W1, tr', rfl, hE, hret⟩ := h.step_inv
      obtain ⟨rfl, rfl, rfl⟩ := hret.ret_inv
      obtain ⟨clock, rfl⟩ := hs.runs
      exact ⟨rfl, (exec_run_ok_iff hE).trans (updateBody_ok_iff hrow hst hfills.id)⟩
    · refine absurd hx ?_
      rw [show failIf (isValidState st = false ∨ isValidState rec.state = false) _ = .ok () from
        failIf_eq_ok.mpr (by rw [hstate, hfills.state]; decide)]
      nofun
  · rw [hidok] at hx
    nomatch hx

theorem storeUpdated_ok_iff [Unicode] (h : Runs exec (storeUpdated st (.ok rec)) W tr out W') (hs : Sound tr)
    (hid : Canonical row.id) (hrow : W.rows.find row.id = some row) (hst : row.state = st)
    (hfills : rec.Fills row) :
    tr.filterMap reading = [] ∧ ((∃ rec', out = .ok rec') ↔ rec.columns.Check) := by
  have h' : Runs exec (updateRecord st rec >>= fun _ => pure rec : Task Record) W tr out W' := h
  rcases h'.act_bind_inv with ⟨u, tr1, tr2, W1, rfl, hupdate, hret⟩ | ⟨e, rfl, hupdate⟩
  · obtain ⟨rfl, rfl, rfl⟩ := hret.ret_inv
    rw [append_nil] at hs ⊢
    obtain ⟨hnone, hiff⟩ := updateRecord_ok_iff hupdate hs hid hrow hst hfills
    exact ⟨hnone, fun _ => hiff.mp ⟨u, rfl⟩, fun _ => ⟨_, rfl⟩⟩
  · obtain ⟨hnone, hiff⟩ := updateRecord_ok_iff hupdate hs hid hrow hst hfills
    refine ⟨hnone, ?_, fun hc => ?_⟩
    · rintro ⟨rec', hx⟩
      nomatch hx
    · obtain ⟨u, hx⟩ := hiff.mpr hc
      nomatch hx

theorem readClock_bind_sound [Unicode] {α : Type} {f : Int → Task α} {out : Except GoError α}
    (h : Runs exec (readClock >>= f : Task α) W tr out W') (hs : Sound tr) :
    ∃ t tr' W1, Positive t ∧ tr.filterMap reading = t :: tr'.filterMap reading ∧
      W1.rows = W.rows ∧ Sound tr' ∧ Runs exec (f t) W1 tr' out W' := by
  obtain ⟨c, t, W1, tr', rfl, hE, hf⟩ := h.step_inv
  have hrows : W1.rows = W.rows := exec_rows hE rfl
  exact ⟨t, tr', W1, hs.reads, rfl, hrows, hs.tail, hf⟩

/-- What is stored with the reading `t` fills the row, and its attempt can be stored if `P` holds. -/
def StampedAt (row : Row) (P : Prop) (t : Int) (x : Except GoError Record) : Prop :=
  ∃ rec : Record, x = .ok rec ∧ rec.Fills row ∧ rec.updatedAt = t ∧
    ((0 ≤ rec.attempt ∧ rec.attempt ≤ maxDuration) ↔ P)

/-- **One reading, one write**: it is accepted exactly when its record passes. -/
theorem stamp_then_store [Unicode] {f : Int → Except GoError Record} {P : Prop}
    (h : Runs exec (readClock >>= fun t => storeUpdated st (f t) : Task Record) W tr out W')
    (hs : Sound tr) (hid : Canonical row.id) (hrow : W.rows.find row.id = some row)
    (hst : row.state = st) (hf : ∀ t, Positive t → StampedAt row P t (f t)) :
    ∃ t, lastReading tr = some t ∧
      ((∃ rec', out = .ok rec') ↔ row.createdAtMS ≤ unixMilli t ∧ P) := by
  obtain ⟨t, tr', W1, ht, hread, hrows, hs', h'⟩ := readClock_bind_sound h hs
  obtain ⟨rec, hrec, hfills, hupdated, hP⟩ := hf t ht
  rw [hrec] at h'
  obtain ⟨hnone, hiff⟩ := storeUpdated_ok_iff h' hs' hid (hrows ▸ hrow) hst hfills
  refine ⟨t, ?_, ?_⟩
  · unfold lastReading
    rw [hread, hnone]
    rfl
  · rw [hiff, hfills.check_iff, hupdated, hP]

theorem read_stamp_then_store [Unicode] {g : Int → Int → Except GoError Record} {P : Prop}
    (h : Runs exec (readClock >>= fun t1 => readClock >>= fun t => storeUpdated st (g t1 t) :
      Task Record) W tr out W')
    (hs : Sound tr) (hid : Canonical row.id) (hrow : W.rows.find row.id = some row)
    (hst : row.state = st) (hg : ∀ t1 t, Positive t1 → Positive t → StampedAt row P t (g t1 t)) :
    ∃ t, lastReading tr = some t ∧
      ((∃ rec', out = .ok rec') ↔ row.createdAtMS ≤ unixMilli t ∧ P) := by
  obtain ⟨t1, tr1, W1, ht1, hread, hrows, hs1, h1⟩ := readClock_bind_sound h hs
  obtain ⟨t, ht, hiff⟩ := stamp_then_store h1 hs1 hid (hrows ▸ hrow) hst fun t => hg t1 t ht1
  refine ⟨t, ?_, hiff⟩
  unfold lastReading at ht ⊢
  rw [hread, getLast?_cons, ht]
  rfl

/-! ## The calls of the worker -/

/-- What the worker passes to a `Mark*` method: a working record, or a submitted one where the
    method takes it; a next attempt at a positive time; any last error with a time or without. -/
inductive Mark.Fits : Mark → Prop where
  | submitted {rec : Record} {result : SubmissionResult} {next : Int}
      (hstate : rec.state = .working) (hnext : Positive next) : Fits (.submitted rec result next)
  | retry {rec : Record} {next : Int} {lastErr : Option LastError}
      (hstate : rec.state = .working ∨ rec.state = .submitted) (hnext : Positive next)
      (herr : ∀ e, lastErr = some e → ZeroOrPositive e.timestamp) : Fits (.retry rec next lastErr)
  | succeeded {rec : Record} (hstate : rec.state = .working ∨ rec.state = .submitted) :
      Fits (.succeeded rec)
  | deadLetter {rec : Record} {lastErr : Option LastError}
      (hstate : rec.state = .working ∨ rec.state = .submitted)
      (herr : ∀ e, lastErr = some e → ZeroOrPositive e.timestamp) : Fits (.deadLetter rec lastErr)

/-- A write that counts an attempt can count it. -/
def CanCount (row : Row) : Prop := row.state = .working → row.attempt < maxDuration

theorem Metadata.From.counted (h : m.From row) (hw : row.state = .working) :
    (0 ≤ wrap64 (m.attempt + 1) ∧ wrap64 (m.attempt + 1) ≤ maxDuration) ↔ CanCount row := by
  rw [h.attempt, count_iff row.check.attempt row.check.attempt_max]
  exact ⟨fun hlt _ => hlt, fun hc => hc hw⟩

theorem Metadata.From.kept (h : m.From row) (hs : row.state = .submitted) :
    (0 ≤ m.attempt ∧ m.attempt ≤ maxDuration) ↔ CanCount row := by
  rw [h.attempt]
  refine ⟨fun _ hw => ?_, fun _ => ⟨row.check.attempt, row.check.attempt_max⟩⟩
  rw [hs] at hw
  nomatch hw

/-- **A `Mark*` method is accepted exactly when the clock is not behind the record**, and the
    attempt can be counted. -/
theorem mark_ok_iff [Unicode] {m : Mark} (h : Runs exec m.run W tr out W') (hs : Sound tr)
    (hid : Canonical row.id) (hrow : W.rows.find row.id = some row)
    (hfrom : m.record.toMetadata.From row) (hfits : m.Fits) : ∃ t, lastReading tr = some t ∧
      ((∃ rec', out = .ok rec') ↔ row.createdAtMS ≤ unixMilli t ∧ CanCount row) := by
  have hst : row.state = m.record.state := hfrom.state.symm
  cases hfits with
  | @submitted rec result next hstate hnext =>
    rcases h.lift_bind_inv with ⟨_, -, h⟩ | ⟨_, hx, -⟩
    · refine stamp_then_store h hs hid hrow hst fun t ht =>
        ⟨_, rfl, ⟨hfrom.id, rfl, hnext, ?_, nofun, hfrom.created, ht⟩, rfl,
          hfrom.counted (hst.trans hstate)⟩
      show ZeroOrPositive (if rec.firstSubmittedAt = zeroTime then t else rec.firstSubmittedAt)
      split
      · exact Or.inr ht
      · exact hfrom.first
    · unfold failIf at hx
      rw [if_neg (not_not.mpr hstate)] at hx
      nomatch hx
  | @retry rec next lastErr hstate hnext herr =>
    refine read_stamp_then_store h hs hid hrow hst fun t1 t ht1 ht => ?_
    have herr' := positive_normalizeLastError ht1 herr
    unfold Record.retried
    rcases hstate with hw | hsub
    · rw [hw]
      exact ⟨_, rfl, ⟨hfrom.id, rfl, hnext, Or.inl rfl, herr', hfrom.created, ht⟩, rfl,
        hfrom.counted (hst.trans hw)⟩
    · rw [hsub]
      exact ⟨_, rfl, ⟨hfrom.id, rfl, hnext, hfrom.first, herr', hfrom.created, ht⟩, rfl,
        hfrom.kept (hst.trans hsub)⟩
  | @succeeded rec hstate =>
    refine stamp_then_store h hs hid hrow hst fun t ht => ?_
    unfold Record.succeeded
    rcases hstate with hw | hsub
    · rw [hw]
      exact ⟨_, rfl, ⟨hfrom.id, rfl, hfrom.next, hfrom.first, nofun, hfrom.created, ht⟩, rfl,
        hfrom.counted (hst.trans hw)⟩
    · rw [hsub]
      exact ⟨_, rfl, ⟨hfrom.id, rfl, hfrom.next, hfrom.first, nofun, hfrom.created, ht⟩, rfl,
        hfrom.kept (hst.trans hsub)⟩
  | @deadLetter rec lastErr hstate herr =>
    refine read_stamp_then_store h hs hid hrow hst fun t1 t ht1 ht => ?_
    have herr' := positive_normalizeLastError ht1 herr
    unfold Record.deadLettered
    rcases hstate with hw | hsub
    · rw [hw]
      exact ⟨_, rfl, ⟨hfrom.id, rfl, hfrom.next, Or.inl rfl, herr', hfrom.created, ht⟩, rfl,
        hfrom.counted (hst.trans hw)⟩
    · rw [hsub]
      exact ⟨_, rfl, ⟨hfrom.id, rfl, hfrom.next, hfrom.first, herr', hfrom.created, ht⟩, rfl,
        hfrom.kept (hst.trans hsub)⟩

/-- Dead-lettering a record whose payload is corrupt. -/
theorem deadLetterCorruptRecord_ok_iff [Unicode] {cause : GoError}
    (h : Runs exec (deadLetterCorruptRecord m cause) W tr out W') (hs : Sound tr)
    (hid : Canonical row.id) (hrow : W.rows.find row.id = some row) (hfrom : m.From row) :
    ∃ t, lastReading tr = some t ∧ ((∃ rec', out = .ok rec') ↔ row.createdAtMS ≤ unixMilli t) := by
  have hfills : ∀ t, Positive t → StampedAt row True t (.ok (m.corrupted cause t)) := by
    intro t ht
    have herr : ∀ e, normalizeLastError (some ⟨cause.error, spoolProviderName, false, t⟩) zeroTime =
        some e → Positive e.timestamp := by
      intro e he
      obtain rfl := Option.some.inj he
      show Positive (if t = zeroTime then zeroTime else t)
      rw [if_neg ht.ne_zeroTime]
      exact ht
    have hcount : 0 ≤ m.attempt ∧ m.attempt ≤ maxDuration := by
      rw [hfrom.attempt]
      exact ⟨row.check.attempt, row.check.attempt_max⟩
    unfold Metadata.corrupted
    dsimp only
    split
    · exact ⟨_, rfl, ⟨hfrom.id, rfl, hfrom.next, hfrom.first, herr, hfrom.created, ht⟩, rfl,
        iff_true_intro hcount⟩
    · exact ⟨_, rfl, ⟨hfrom.id, rfl, hfrom.next, Or.inl rfl, herr, hfrom.created, ht⟩, rfl,
        iff_true_intro hcount⟩
  obtain ⟨t, ht, hiff⟩ := stamp_then_store h hs hid hrow hfrom.state.symm hfills
  exact ⟨t, ht, hiff.trans (and_iff_left trivial)⟩

theorem requeueClaimedRecord_ok_iff [Unicode] {out : Except GoError Unit}
    (h : Runs exec (requeueClaimedRecord m) W tr out W') (hs : Sound tr) (hid : Canonical row.id)
    (hrow : W.rows.find row.id = some row) (hfrom : m.From row) :
    ∃ t, lastReading tr = some t ∧ ((∃ u, out = .ok u) ↔ row.createdAtMS ≤ unixMilli t) := by
  obtain ⟨t, tr1, W1, ht, hread, hrows, hs1, h1⟩ := readClock_bind_sound h hs
  have hfills : (m.unclaimed t).Fills row :=
    ⟨hfrom.id, rfl, hfrom.next, hfrom.first, hfrom.toRecord.lastError, hfrom.created, ht⟩
  have hcheck : (m.unclaimed t).columns.Check ↔ row.createdAtMS ≤ unixMilli t := by
    rw [hfills.check_iff]
    refine and_iff_left ?_
    show 0 ≤ m.attempt ∧ m.attempt ≤ maxDuration
    rw [hfrom.attempt]
    exact ⟨row.check.attempt, row.check.attempt_max⟩
  obtain ⟨out', tr2, tr3, W2, rfl, hupdate, hlift⟩ := Runs.bind_inv h1
  have hret : ∃ b, Runs exec (.ret b) W2 tr3 out W' ∧
      ((∃ u, b = .ok u) ↔ ∃ u, out' = .ok u) := by
    cases out' with
    | ok u => exact ⟨.ok u, hlift, Iff.rfl⟩
    | error e =>
      refine ⟨.error _, hlift, ?_, ?_⟩
      · rintro ⟨u, hx⟩
        nomatch hx
      · rintro ⟨u, hx⟩
        nomatch hx
  obtain ⟨b, hret, hb⟩ := hret
  obtain ⟨rfl, rfl, rfl⟩ := hret.ret_inv
  rw [append_nil] at hread hs1
  obtain ⟨hnone, hiff⟩ := updateRecord_ok_iff hupdate hs1 hid (hrows ▸ hrow) hfrom.state.symm hfills
  refine ⟨t, ?_, hb.trans (hiff.trans hcheck)⟩
  unfold lastReading
  rw [hread, hnone]
  rfl

/-! ## Claims and recovery -/

/-- A claim or a requeueing writes columns that were in the table, with a new `updated_at_ms`. -/
theorem check_stamped {c : Columns} (hstamp : Positive stamp) (hstate : isValidState c.state = true)
    (hnext : 0 < c.nextAttemptAtMS) (hfirst : nullOrPos c.firstSubmittedAtMS = true)
    (hcols : c = { row.toColumns with
      state := c.state
      nextAttemptAtMS := c.nextAttemptAtMS
      operationID := c.operationID
      operationLocation := c.operationLocation
      providerMessageID := c.providerMessageID
      firstSubmittedAtMS := c.firstSubmittedAtMS
      updatedAtMS := timeToMillis stamp }) : c.Check ↔ row.createdAtMS ≤ unixMilli stamp := by
  have hr := row.check
  rw [hstamp.timeToMillis] at hcols
  have hcreated : c.createdAtMS = row.createdAtMS := by rw [hcols]
  have hupdated : c.updatedAtMS = unixMilli stamp := by rw [hcols]
  constructor
  · intro hc
    have hle := hc.updated.2
    rwa [hcreated, hupdated] at hle
  · intro hle
    refine ⟨?_, ?_, hstate, ?_, ?_, hnext, hfirst, ?_, ?_, ?_, ⟨?_, ?_⟩, ?_⟩
    · rw [hcols]
      exact hr.id_length
    · rw [hcols]
      exact hr.id_trimmed
    · rw [hcols]
      exact hr.attempt
    · rw [hcols]
      exact hr.attempt_max
    · rw [hcols]
      exact hr.temporary
    · rw [hcols]
      exact hr.timestamp
    · rw [hcreated]
      exact hr.created
    · rw [hupdated]
      exact hstamp
    · rw [hcreated, hupdated]
      exact hle
    · rw [hcols]
      exact hr.lastError

theorem claimSet_check (h : Positive stamp) :
    (claimSet stamp row.toColumns).Check ↔ row.createdAtMS ≤ unixMilli stamp :=
  check_stamped h rfl row.check.next row.check.first rfl

theorem requeueSet_check (hnow : Positive now) (h : Positive stamp) :
    (requeueSet now stamp row.toColumns).Check ↔ row.createdAtMS ≤ unixMilli stamp := by
  refine check_stamped h rfl ?_ rfl rfl
  show 0 < timeToMillis now
  rw [hnow.timeToMillis]
  exact hnow

/-- **A claim is accepted exactly when the clock is not behind the record that is due.** -/
theorem claimBody_ok_iff [Unicode] (hids : CanonicalIDs t) (hclock : Positive (clock 0)) :
    (∃ x, claimBody now clock t = .ok x) ↔
      ∀ row, selectReady t .queued (timeToMillis now) = some row →
        row.createdAtMS ≤ unixMilli (clock 0) := by
  unfold claimBody
  cases hsel : selectReady t .queued (timeToMillis now) with
  | none => exact ⟨(fun _ row hrow => nomatch hrow), fun _ => ⟨_, rfl⟩⟩
  | some row =>
    obtain ⟨hfind, hstate, -⟩ := selectReady_spec hsel
    dsimp only
    rw [scanMetadata_of_canonical (hids _ row hfind)]
    dsimp only
    have hiff : (∃ x, updateWhere t row.metadata.id .queued (claimSet (clock 0)) = .ok x) ↔
        row.createdAtMS ≤ unixMilli (clock 0) :=
      (updateWhere_ok_iff hfind hstate).trans (claimSet_check hclock)
    constructor
    · rintro ⟨x, hx⟩ row' hrow'
      obtain rfl := Option.some.inj hrow'
      refine hiff.mp ?_
      cases hu : updateWhere t row.metadata.id .queued (claimSet (clock 0)) with
      | error e =>
        rw [hu] at hx
        nomatch hx
      | ok y => exact ⟨y, rfl⟩
    · intro h
      obtain ⟨⟨n, t'⟩, hu⟩ := hiff.mpr (h row rfl)
      rw [hu]
      rcases updateWhere_spec hu with ⟨-, -, hno⟩ | ⟨rfl, -⟩
      · exact absurd hstate (hno row hfind)
      · exact ⟨_, rfl⟩

/-- The loop of recovery over distinct working rows; `i` clock readings were made. -/
theorem requeueAll_ok_iff [Unicode] (hnow : Positive now) (hclock : ∀ i, Positive (clock i))
    {rows : List Row} : ∀ {i : Nat} {t : Records}, (rows.map fun row => row.id).Nodup →
    (∀ row ∈ rows, t.find row.id = some row ∧ row.state = .working) →
    ((∃ x, requeueAll now clock i (rows.map fun row => row.metadata) t = .ok x) ↔
      ∀ j row, rows[j]? = some row → row.createdAtMS ≤ unixMilli (clock (i + j))) := by
  induction rows with
  | nil => exact fun _ _ => ⟨(fun _ j row hrow => by cases hrow), fun _ => ⟨_, rfl⟩⟩
  | cons row rows ih =>
    intro i t hnodup hrows
    obtain ⟨hnew, hnodup'⟩ := nodup_cons.mp hnodup
    obtain ⟨hfind, hstate⟩ := hrows row (mem_cons_self ..)
    have hiff : (∃ x, updateWhere t row.metadata.id .working (requeueSet now (clock i)) = .ok x) ↔
        row.createdAtMS ≤ unixMilli (clock i) :=
      (updateWhere_ok_iff hfind hstate).trans (requeueSet_check hnow (hclock i))
    rw [map_cons]
    unfold requeueAll
    -- the rows that follow are still there after the first has been rewritten
    have hrest : ∀ {n t1}, updateWhere t row.metadata.id .working (requeueSet now (clock i)) =
        .ok (n, t1) → ∀ row' ∈ rows, t1.find row'.id = some row' ∧ row'.state = .working := by
      intro n t1 hu row' hrow'
      obtain ⟨hfind', hstate'⟩ := hrows row' (mem_cons_of_mem _ hrow')
      refine ⟨?_, hstate'⟩
      rcases updateWhere_spec hu with ⟨-, rfl, -⟩ | ⟨-, row0, row1, hf, -, hcols, rfl⟩
      · exact hfind'
      · have hid : row1.id = row.id := by
          rw [hcols]
          exact find_id hf
        rw [Table.find_replace, if_neg, hfind']
        intro heq
        exact hnew (mem_map.mpr ⟨row', hrow', heq.trans hid⟩)
    constructor
    · rintro ⟨x, hx⟩ j row' hrow'
      cases hu : updateWhere t row.metadata.id .working (requeueSet now (clock i)) with
      | error e =>
        rw [hu] at hx
        cases hx
      | ok y =>
        rw [hu] at hx
        cases j with
        | zero =>
          obtain rfl := Option.some.inj hrow'
          exact hiff.mp ⟨y, hu⟩
        | succ j =>
          have htail : ∃ x, requeueAll now clock (i + 1) (rows.map fun row => row.metadata) y.2 =
              .ok x := by
            cases hr : requeueAll now clock (i + 1) (rows.map fun row => row.metadata) y.2 with
            | error e =>
              dsimp only at hx
              rw [hr] at hx
              cases hx
            | ok z => exact ⟨z, rfl⟩
          have := (ih hnodup' (hrest hu)).mp htail j row' hrow'
          rwa [Nat.add_assoc, Nat.add_comm 1 j] at this
    · intro h
      obtain ⟨⟨n, t1⟩, hu⟩ := hiff.mpr (h 0 row rfl)
      obtain ⟨x, hx⟩ := (ih (i := i + 1) hnodup' (hrest hu)).mpr fun j row' hrow' => by
        have := h (j + 1) row' hrow'
        rwa [Nat.add_assoc, Nat.add_comm 1 j]
      rw [hu]
      dsimp only
      rw [hx]
      exact ⟨_, rfl⟩

/-- **Recovery is accepted exactly when the clock is not behind any record that was left working.** -/
theorem recoverBody_ok_iff [Unicode] (hids : CanonicalIDs t) (hnow : Positive now)
    (hclock : ∀ i, Positive (clock i)) : (∃ x, recoverBody now clock t = .ok x) ↔
      ∀ i row, (selectState t .working)[i]? = some row →
        row.createdAtMS ≤ unixMilli (clock i) := by
  have hread := hids.readable
  have hiff := requeueAll_ok_iff hnow hclock (i := 0) (selectState_nodup t .working) fun row hrow =>
    mem_selectState.mp hrow
  simp only [Nat.zero_add] at hiff
  rw [← hiff]
  unfold recoverBody
  rw [hread.states .working, hread.states .submitted, hread.ids]
  constructor
  · rintro ⟨x, hx⟩
    obtain ⟨working, hw, hx⟩ := bind_eq_ok.mp hx
    obtain ⟨submitted, -, hx⟩ := bind_eq_ok.mp hx
    obtain ⟨ids, -, hx⟩ := bind_eq_ok.mp hx
    obtain ⟨y, hy, -⟩ := bind_eq_ok.mp hx
    obtain rfl := Except.ok.inj hw
    exact ⟨y, hy⟩
  · rintro ⟨y, hy⟩
    refine ⟨(⟨y.1, (selectState t .submitted).map fun row => row.metadata,
      t.rows.map fun row => row.id⟩, y.2), ?_⟩
    refine bind_eq_ok.mpr ⟨_, rfl, bind_eq_ok.mpr ⟨_, rfl, bind_eq_ok.mpr ⟨_, rfl, ?_⟩⟩⟩
    exact bind_eq_ok.mpr ⟨y, hy, rfl⟩

/-! ## Every write of the worker and of recovery -/

/-- A reading that is behind the creation of a record makes the write fail, and nothing else does. -/
def AcceptedUnlessBehind {α : Type} (row : Row) (tr : Trace) (out : Except GoError α)
    (also : Prop) : Prop :=
  ∃ t, lastReading tr = some t ∧ ((∃ a, out = .ok a) ↔ row.createdAtMS ≤ unixMilli t ∧ also)

/-- **The constraints against the clock.**  In every table with canonical ids, while the storage does
    not fail and the clock reads positive times, whatever times they are:

    * a claim is accepted exactly when its reading is not behind the creation of the record that is
      due, and what it hands out comes from its row;
    * a `Mark*` call, on a record that comes from its row, is accepted exactly when its last reading
      is not behind the creation of the record and the attempt can be counted;
    * putting a claimed record back, and dead-lettering a corrupt one, is accepted exactly when the
      reading is not behind;
    * the recovery of the working rows is accepted exactly when none of its readings is behind the
      creation of its row, and what it hands out comes from its row. -/
theorem constraints_accept_iff [Unicode] {W : World} (hids : CanonicalIDs W.rows) :
    (∀ now clock r W', Positive (clock 0) →
      exec (.tx (.claim now)) (.tx (.run clock)) W = some (r, W') →
      ((∃ a, r = .ok a) ↔ ∀ row, selectReady W.rows .queued (timeToMillis now) = some row →
        row.createdAtMS ≤ unixMilli (clock 0)) ∧
      ∀ m, r = .ok (some m) → ∃ row, W'.rows.find row.id = some row ∧ m.From row) ∧
    (∀ row, W.rows.find row.id = some row →
      (∀ (mark : Mark) tr out W', mark.record.toMetadata.From row → mark.Fits → Sound tr →
        Runs exec mark.run W tr out W' → AcceptedUnlessBehind row tr out (CanCount row)) ∧
      (∀ (m : Metadata) tr out W', m.From row → Sound tr →
        Runs exec (requeueClaimedRecord m) W tr out W' → AcceptedUnlessBehind row tr out True) ∧
      (∀ (m : Metadata) cause tr out W', m.From row → Sound tr →
        Runs exec (deadLetterCorruptRecord m cause) W tr out W' →
        AcceptedUnlessBehind row tr out True)) ∧
    (∀ now clock r W', Positive now → (∀ i, Positive (clock i)) →
      exec (.tx (.recover now)) (.tx (.run clock)) W = some (r, W') →
      ((∃ a, r = .ok a) ↔ ∀ i row, (selectState W.rows .working)[i]? = some row →
        row.createdAtMS ≤ unixMilli (clock i)) ∧
      ∀ snap : Snapshot, r = .ok snap → ∀ m, m ∈ snap.requeued ∨ m ∈ snap.submitted →
        ∃ row, W'.rows.find row.id = some row ∧ m.From row) := by
  refine ⟨?_, ?_, ?_⟩
  · intro now clock r W' hclock hE
    refine ⟨(exec_run_ok_iff hE).trans (claimBody_ok_iff hids hclock), ?_⟩
    rintro m rfl
    obtain ⟨-, ⟨clock', a, hbody, hr⟩ | ⟨-, _, hx⟩⟩ := exec_tx_cases hE
    · obtain rfl | ⟨_, hx⟩ := hr.imp Except.ok.inj fun h => h
      · rcases claimBody_ok hbody with ⟨hx, -⟩ | ⟨row, row', hm, -, hf, -, -, hcols, hrows⟩
        · nomatch hx
        · obtain rfl := Option.some.inj hm
          have hid : row'.id = row.id := by
            rw [hcols]
            rfl
          refine ⟨row', ?_, from_claimed hcols⟩
          rw [hrows, hid]
          exact find_replace_self hf hid
      · nomatch hx
    · nomatch hx
  · intro row hrow
    have hid : Canonical row.id := hids _ row hrow
    refine ⟨?_, ?_, ?_⟩
    · intro mark tr out W' hfrom hfits hs hrun
      exact mark_ok_iff hrun hs hid hrow hfrom hfits
    · intro m tr out W' hfrom hs hrun
      obtain ⟨t, ht, hiff⟩ := requeueClaimedRecord_ok_iff hrun hs hid hrow hfrom
      exact ⟨t, ht, hiff.trans (and_iff_left trivial).symm⟩
    · intro m cause tr out W' hfrom hs hrun
      obtain ⟨t, ht, hiff⟩ := deadLetterCorruptRecord_ok_iff hrun hs hid hrow hfrom
      exact ⟨t, ht, hiff.trans (and_iff_left trivial).symm⟩
  · intro now clock r W' hnow hclock hE
    refine ⟨(exec_run_ok_iff hE).trans (recoverBody_ok_iff hids hnow hclock), ?_⟩
    rintro snap rfl m hm
    obtain ⟨-, ⟨clock', a, hbody, hr⟩ | ⟨-, _, hx⟩⟩ := exec_tx_cases hE
    · obtain rfl | ⟨_, hx⟩ := hr.imp Except.ok.inj fun h => h
      · have hrec := recoverBody_ok hbody
        rcases hm with hm | hm
        · obtain ⟨row, stamp, hf, hw, rfl⟩ := hrec.requeued m hm
          obtain ⟨stamp', row', hf', hcols, -⟩ := hrec.working _ row hf hw
          have hid : row'.id = row.id := by
            rw [hcols]
            rfl
          exact ⟨row', hid ▸ hf', from_requeued hnow hcols⟩
        · obtain ⟨row, hf, hsub, rfl⟩ := hrec.submitted m hm
          refine ⟨row, hrec.kept _ row hf ?_, from_metadata row⟩
          rw [hsub]
          exact State.noConfusion
      · nomatch hx
    · nomatch hx

end Writes

/-! ## A clock that is set back -/

/-- Nothing fails, and the clock reads `t`. -/
def clockAt (t : Int) : Op → Choice
  | .now => .time t
  | .tx _ => .tx (.run fun _ => t)
  | o => calm (.error .canceled) (.error .canceled) o

/-- A message is enqueued in a fresh spool, and claimed. -/
def sampleClaimed [Unicode] : Task (Option Record) := do
  sampleStore.newSpoolStore
  let _ ← sampleStore.enqueue sampleMessage
  sampleStore.claimReady (2 * second)

/-- **A mark at second 3 of a record of second 1** is accepted. -/
theorem constraints_accept_later :
    letI := Unicode.ascii
    ∃ tr rec' W', Sound tr ∧ Runs exec (Mark.succeeded sampleWorkingRow.metadata.toRecord).run
      (sampleWorld sampleWorking) tr (.ok rec') W' := by
  let _ := Unicode.ascii
  obtain ⟨out, tr, W', hrun, hT⟩ := exists_runs_of_run (E := exec) (clockAt (3 * second)) 10
    (Mark.succeeded sampleWorkingRow.metadata.toRecord).run
    (sampleWorld sampleWorking)
    (fun x => x.2.1.all soundEvent && decide (lastReading x.2.1 = some (3 * second)))
    (by decide +kernel)
  obtain ⟨hs, hlast⟩ := Bool.and_eq_true_iff.mp hT
  have hids : CanonicalIDs (sampleWorld sampleWorking).rows := by
    intro id row hrow
    obtain rfl := mem_singleton.mp (Table.find_mem hrow)
    rw [← find_id hrow]
    exact ⟨by decide, by decide, by decide⟩
  obtain ⟨t, ht, hiff⟩ := (((constraints_accept_iff hids).2.1 sampleWorkingRow rfl).1
    (Mark.succeeded sampleWorkingRow.metadata.toRecord) tr out W' (from_metadata _).toRecord
    (.succeeded (Or.inl rfl)) hs hrun)
  obtain rfl := Option.some.inj (ht.symm.trans (of_decide_eq_true hlast))
  obtain ⟨rec', rfl⟩ := hiff.mpr ⟨by decide, fun _ => by decide⟩
  exact ⟨tr, rec', W', hs, hrun⟩

/-- **The clock is set back to second 1 after a record of second 2 was claimed**: no failure of the
    storage, and still the record can be neither marked nor recovered. -/
theorem clock_set_back :
    letI := Unicode.ascii
    ∃ rec tr W, Runs exec sampleClaimed (sampleWorld ⟨[], nodup_nil⟩) tr (.ok (some rec)) W ∧
      (∃ tr e W', Sound tr ∧ Runs exec (Mark.succeeded rec).run W tr (.error e) W') ∧
      ∃ tr e W', Sound tr ∧ Runs exec (sampleStore.recover second) W tr (.error e) W' := by
  let _ := Unicode.ascii
  let failed {α : Type} (x : Except GoError α × Trace × World) : Bool :=
    x.2.1.all soundEvent && !x.1.toBool
  obtain ⟨out, tr, W, hrun, hT⟩ := exists_runs_of_run (E := exec) (clockAt (2 * second)) 100
    sampleClaimed (sampleWorld ⟨[], nodup_nil⟩)
    (fun x => x.1.toOption.join.any fun rec =>
      (run exec (clockAt second) 10 (Mark.succeeded rec).run x.2.2).any failed &&
      (run exec (clockAt second) 10 (sampleStore.recover second) x.2.2).any failed)
    (by decide +kernel)
  have hend : ∀ {α : Type} {p : Task α}, (run exec (clockAt second) 10 p W).any failed = true →
      ∃ tr e W', Sound tr ∧ Runs exec p W tr (.error e) W' := by
    intro α p h
    obtain ⟨out, tr, W', hrun, hT⟩ := exists_runs_of_run (E := exec) _ _ p _ _ h
    obtain ⟨hs, herr⟩ := Bool.and_eq_true_iff.mp hT
    cases out with
    | ok a => cases herr
    | error e => exact ⟨tr, e, W', hs, hrun⟩
  rcases out with e | _ | rec
  · cases hT
  · cases hT
  · obtain ⟨hmark, hrecover⟩ := Bool.and_eq_true_iff.mp hT
    exact ⟨rec, tr, W, hrun, hend hmark, hend hrecover⟩

end SmtpCloudRelay.Spool
