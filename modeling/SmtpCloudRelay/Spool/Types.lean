/-
  SPOOL RECORDS and the rows they are stored in.

  A record exists in two forms.  In Go it is a struct with instants, plain strings and an optional
  last error; in SQLite it is a ROW of fourteen columns, where an empty string and the zero time are
  NULL and instants are milliseconds.  `Record.columns` encodes, `scanMetadata` decodes, and what
  the table's CHECK constraints demand is a field of `Row`: a row that violates them cannot be
  built, just as SQLite refuses to store it.

  Decoding is not the inverse of encoding (strings are trimmed on both ways, instants lose their
  nanoseconds), which is why both are kept as the code has them.
-/
import SmtpCloudRelay.Email.Message
import SmtpCloudRelay.Errors
import SmtpCloudRelay.Go.Time
import SmtpCloudRelay.Lib.Checks
import SmtpCloudRelay.Lib.Table

namespace SmtpCloudRelay.Spool

open Go Lib

/-! ## Record identifiers -/

/-- The character that `validateCanonicalRecordID` admits at position `i`. -/
def canonicalAt (i : Nat) (c : UInt8) : Bool :=
  if i = 8 ∨ i = 13 ∨ i = 18 ∨ i = 23 then c = 0x2D
  else if i = 14 then c = 0x34
  else if i = 19 then c = 0x38 || c = 0x39 || c = 0x61 || c = 0x62
  else (0x30 ≤ c && c ≤ 0x39) || (0x61 ≤ c && c ≤ 0x66)

/-- Every character from position `i` on is admitted. -/
def canonicalFrom : Nat → GoString → Bool
  | _, [] => true
  | i, c :: s => canonicalAt i c && canonicalFrom (i + 1) s

/-- A canonical lower-case version 4 UUID. -/
structure Canonical (id : GoString) : Prop where
  trimmed : trimSpace id = id
  length : id.length = 36
  chars : canonicalFrom 0 id = true

/-- No canonical identifier starts with a dot. -/
theorem Canonical.head_ne_dot {s : GoString} (h : Canonical (0x2E :: s)) : False := by
  have := h.chars
  simp [canonicalFrom, canonicalAt] at this

/-- The version and variant bits of `newUUIDv4`, set in random bytes. -/
def uuidBits (b : Vector UInt8 16) : Vector UInt8 16 :=
  (b.set 6 ((b[6] &&& 0x0F) ||| 0x40)).set 8 ((b[8] &&& 0x3F) ||| 0x80)

/-- `newUUIDv4` on the random bytes it reads. -/
def newUUIDv4 (random : Vector UInt8 16) : GoString :=
  let b := (uuidBits random).toList
  hexEncode (b.take 4) ++ lit "-" ++ hexEncode ((b.drop 4).take 2) ++ lit "-" ++
    hexEncode ((b.drop 6).take 2) ++ lit "-" ++ hexEncode ((b.drop 8).take 2) ++ lit "-" ++
    hexEncode (b.drop 10)

/-! ## States, records, metadata -/

/-- `spool.State`; `other` is any string that is none of the five names. -/
inductive State where
  | queued
  | working
  | submitted
  | succeeded
  | deadLetter
  | other (s : GoString)
  deriving DecidableEq

/-- The string of a state. -/
def State.text : State → GoString
  | .queued => lit "queued"
  | .working => lit "working"
  | .submitted => lit "submitted"
  | .succeeded => lit "succeeded"
  | .deadLetter => lit "dead-letter"
  | .other s => s

/-- `spool.isValidState`. -/
def isValidState : State → Bool
  | .other _ => false
  | _ => true

/-- `spool.LastError`. -/
structure LastError where
  message : GoString
  provider : GoString
  temporary : Bool
  timestamp : Int
  deriving DecidableEq

/-- `spool.recordMetadata`. -/
structure Metadata where
  id : GoString
  state : State
  attempt : Int
  nextAttemptAt : Int
  operationID : GoString
  operationLocation : GoString
  providerMessageID : GoString
  firstSubmittedAt : Int
  lastError : Option LastError
  createdAt : Int
  updatedAt : Int
  deriving DecidableEq

/-- `spool.Record`: the metadata together with the message. -/
structure Record extends Metadata where
  message : Message
  deriving DecidableEq

/-- `spool.RecoveryResult`. -/
structure RecoveryResult where
  requeued : List Record
  submitted : List Record
  deadLettered : List Record
  orphanedPayloads : List GoString
  deriving DecidableEq

/-- `spool.normalizeLastError`. -/
def normalizeLastError (lastErr : Option LastError) (fallback : Int) : Option LastError :=
  lastErr.map fun e =>
    { e with
      message := trimSpace e.message
      provider := trimSpace e.provider
      timestamp := if e.timestamp = zeroTime then fallback else e.timestamp }

/-- `recordMetadata.toRecord`. -/
def Metadata.toRecord (m : Metadata) : Record :=
  { m with lastError := normalizeLastError m.lastError zeroTime, message := Message.zero }

/-! ## Rows -/

/-- The columns of table `records`. -/
structure Columns where
  id : GoString
  state : State
  attempt : Int
  nextAttemptAtMS : Int
  operationID : Option GoString
  operationLocation : Option GoString
  providerMessageID : Option GoString
  firstSubmittedAtMS : Option Int
  lastErrorMessage : Option GoString
  lastErrorProvider : Option GoString
  lastErrorTemporary : Option Int
  lastErrorTimestampMS : Option Int
  createdAtMS : Int
  updatedAtMS : Int
  deriving DecidableEq

/-- SQL's `trim`: blanks only. -/
def sqlTrim (s : GoString) : GoString :=
  ((s.dropWhile (· = 0x20)).reverse.dropWhile (· = 0x20)).reverse

/-- A column that is NULL or positive. -/
def nullOrPos : Option Int → Bool
  | none => true
  | some n => 0 < n

/-- The CHECK constraints of the table, and that an INTEGER has 64 bits. -/
structure Columns.Check (c : Columns) : Prop where
  id_length : 0 < c.id.length
  id_trimmed : c.id = sqlTrim c.id
  state : isValidState c.state = true
  attempt : 0 ≤ c.attempt
  attempt_max : c.attempt ≤ maxDuration
  next : 0 < c.nextAttemptAtMS
  first : nullOrPos c.firstSubmittedAtMS = true
  temporary : c.lastErrorTemporary = none ∨ c.lastErrorTemporary = some 0 ∨
    c.lastErrorTemporary = some 1
  timestamp : nullOrPos c.lastErrorTimestampMS = true
  created : 0 < c.createdAtMS
  updated : 0 < c.updatedAtMS ∧ c.createdAtMS ≤ c.updatedAtMS
  lastError : (c.lastErrorMessage = none ∧ c.lastErrorProvider = none ∧
    c.lastErrorTemporary = none ∧ c.lastErrorTimestampMS = none) ∨ c.lastErrorTimestampMS ≠ none

instance (c : Columns) : Decidable c.Check :=
  decidable_of_iff
    (0 < c.id.length ∧ c.id = sqlTrim c.id ∧ isValidState c.state = true ∧ 0 ≤ c.attempt ∧
      c.attempt ≤ maxDuration ∧ 0 < c.nextAttemptAtMS ∧ nullOrPos c.firstSubmittedAtMS = true ∧
      (c.lastErrorTemporary = none ∨ c.lastErrorTemporary = some 0 ∨
        c.lastErrorTemporary = some 1) ∧
      nullOrPos c.lastErrorTimestampMS = true ∧ 0 < c.createdAtMS ∧
      (0 < c.updatedAtMS ∧ c.createdAtMS ≤ c.updatedAtMS) ∧
      ((c.lastErrorMessage = none ∧ c.lastErrorProvider = none ∧ c.lastErrorTemporary = none ∧
        c.lastErrorTimestampMS = none) ∨ c.lastErrorTimestampMS ≠ none))
    ⟨fun ⟨h1, h2, h3, h4, h5, h6, h7, h8, h9, h10, h11, h12⟩ =>
        ⟨h1, h2, h3, h4, h5, h6, h7, h8, h9, h10, h11, h12⟩,
      fun h => ⟨h.id_length, h.id_trimmed, h.state, h.attempt, h.attempt_max, h.next, h.first,
        h.temporary, h.timestamp, h.created, h.updated, h.lastError⟩⟩

/-- A row of the table: columns that pass its CHECK constraints. -/
structure Row extends Columns where
  check : toColumns.Check
  deriving DecidableEq

/-- The table `records`: its primary key is the id. -/
abbrev Records := Table fun r : Row => r.id

theorem find_id {t : Records} {id : GoString} {row : Row} (h : t.find id = some row) :
    row.id = id := by
  have hkey := Table.find_key h
  exact hkey

/-! ## Encoding a record -/

/-- `spool.timeToMillis`, before it is cut to an int64 (`Record.bound`). -/
def timeToMillis (ts : Int) : Int := if ts = zeroTime then 0 else unixMilli ts

/-- `spool.nullIfEmpty`. -/
def nullIfEmpty (value : GoString) : Option GoString :=
  if trimSpace value = [] then none else some (trimSpace value)

/-- `spool.nullIfZeroTime`. -/
def nullIfZeroTime (ts : Int) : Option Int := if ts = zeroTime then none else some (unixMilli ts)

/-- What is read from the column of the first submission is written back as it was. -/
theorem nullIfZeroTime_scan {o : Option Int} (h : nullOrPos o = true) :
    nullIfZeroTime ((o.map ofMillis).getD zeroTime) = o := by
  cases o with
  | none => rfl
  | some n =>
    have hpos : 0 < n := of_decide_eq_true h
    have hne : ofMillis n ≠ zeroTime := by
      unfold ofMillis millisecond zeroTime
      omega
    show nullIfZeroTime (ofMillis n) = _
    unfold nullIfZeroTime
    rw [if_neg hne, unixMilli_ofMillis]

/-- `spool.lastErrorTemporary`. -/
def lastErrorTemporary (e : LastError) : Int := if e.temporary then 1 else 0

/-- The parameters that INSERT and UPDATE bind. -/
def Record.columns (rec : Record) : Columns where
  id := rec.id
  state := rec.state
  attempt := rec.attempt
  nextAttemptAtMS := timeToMillis rec.nextAttemptAt
  operationID := nullIfEmpty rec.operationID
  operationLocation := nullIfEmpty rec.operationLocation
  providerMessageID := nullIfEmpty rec.providerMessageID
  firstSubmittedAtMS := nullIfZeroTime rec.firstSubmittedAt
  lastErrorMessage := rec.lastError.bind fun e => nullIfEmpty e.message
  lastErrorProvider := rec.lastError.bind fun e => nullIfEmpty e.provider
  lastErrorTemporary := rec.lastError.map lastErrorTemporary
  lastErrorTimestampMS := rec.lastError.bind fun e => nullIfZeroTime e.timestamp
  createdAtMS := timeToMillis rec.createdAt
  updatedAtMS := timeToMillis rec.updatedAt

/-! ## Decoding a row -/

/-- A NULL text is scanned as the empty string; then it is trimmed. -/
def scanText (s : Option GoString) : GoString := trimSpace (s.getD [])

/-- The last error that the four columns hold. -/
def Columns.scanLastError (c : Columns) : Option LastError :=
  if c.lastErrorMessage = none ∧ c.lastErrorProvider = none ∧ c.lastErrorTemporary = none ∧
      c.lastErrorTimestampMS = none then none
  else some {
    message := scanText c.lastErrorMessage
    provider := scanText c.lastErrorProvider
    temporary := c.lastErrorTemporary.getD 0 ≠ 0
    timestamp := ofMillis (c.lastErrorTimestampMS.getD 0) }

/-- The metadata that the columns hold. -/
def Columns.metadata (c : Columns) : Metadata where
  id := c.id
  state := c.state
  attempt := c.attempt
  nextAttemptAt := ofMillis c.nextAttemptAtMS
  operationID := scanText c.operationID
  operationLocation := scanText c.operationLocation
  providerMessageID := scanText c.providerMessageID
  firstSubmittedAt := (c.firstSubmittedAtMS.map ofMillis).getD zeroTime
  lastError := c.scanLastError
  createdAt := ofMillis c.createdAtMS
  updatedAt := ofMillis c.updatedAtMS

section Texts

variable [Unicode]

/-- `spool.validateCanonicalRecordID`. -/
def validateCanonicalRecordID (id : GoString) : Except GoError Unit := do
  failIf (id = []) (.errorf "record id cannot be empty")
  failIf (trimSpace id ≠ id)
    (.new (lit "record id " ++ quote id ++ lit " must not have surrounding whitespace"))
  failIf (id.length ≠ 36 ∨ canonicalFrom 0 id = false)
    (.new (lit "record id " ++ quote id ++ lit " must be a canonical lowercase UUID"))

/-- **The identifier check accepts exactly the canonical identifiers.** -/
theorem validateCanonicalRecordID_ok {id : GoString} :
    validateCanonicalRecordID id = .ok () ↔ Canonical id := by
  unfold validateCanonicalRecordID
  rw [failIf_bind_eq_ok, failIf_bind_eq_ok, failIf_eq_ok]
  constructor
  · rintro ⟨_, h2, h3⟩
    refine ⟨not_not.mp h2, ?_, ?_⟩
    · by_contra h
      exact h3 (Or.inl h)
    · by_contra h
      exact h3 (Or.inr (Bool.eq_false_iff.mpr h))
  · intro h
    refine ⟨?_, fun h2 => h2 h.trimmed, ?_⟩
    · rintro rfl
      exact absurd h.length (by decide)
    · rintro (h3 | h3)
      · exact h3 h.length
      · rw [h.chars] at h3
        nomatch h3

/-- A stored value that `scanMetadata` refuses. -/
def invalidMetadata (text : GoString) : GoError :=
  .wrapStoreError (lit "validate spool metadata") (.new text)

/-- The checks that `scanMetadata` makes on the columns. -/
def Columns.scanChecks (c : Columns) : Except GoError Unit := do
  (validateCanonicalRecordID c.id).mapError (.wrapStoreError (lit "validate spool metadata"))
  failIf (isValidState c.state = false) (invalidMetadata
    (lit "spool record " ++ quote c.id ++ lit " has invalid state " ++ quote c.state.text))
  failIf (c.attempt < 0) (invalidMetadata
    (lit "spool record " ++ quote c.id ++ lit " has negative attempt " ++ itoa c.attempt))
  failIf (c.nextAttemptAtMS ≤ 0) (invalidMetadata
    (lit "spool record " ++ quote c.id ++ lit " has invalid next_attempt_at_ms " ++
      itoa c.nextAttemptAtMS))
  failIf (c.createdAtMS ≤ 0) (invalidMetadata
    (lit "spool record " ++ quote c.id ++ lit " has invalid created_at_ms " ++
      itoa c.createdAtMS))
  failIf (c.updatedAtMS ≤ 0) (invalidMetadata
    (lit "spool record " ++ quote c.id ++ lit " has invalid updated_at_ms " ++
      itoa c.updatedAtMS))
  failIf (nullOrPos c.firstSubmittedAtMS = false) (invalidMetadata
    (lit "spool record " ++ quote c.id ++ lit " has invalid first_submitted_at_ms " ++
      itoa (c.firstSubmittedAtMS.getD 0)))
  failIf (c.updatedAtMS < c.createdAtMS) (invalidMetadata
    (lit "spool record " ++ quote c.id ++ lit " has updated_at before created_at"))
  failIf (c.lastErrorTemporary.getD 0 ≠ 0 ∧ c.lastErrorTemporary.getD 0 ≠ 1) (invalidMetadata
    (lit "spool record " ++ quote c.id ++ lit " has invalid last_error_temporary " ++
      itoa (c.lastErrorTemporary.getD 0)))
  failIf (c.scanLastError ≠ none ∧ c.lastErrorTimestampMS.getD 0 ≤ 0) (invalidMetadata
    (lit "spool record " ++ quote c.id ++ lit " has incomplete last error timestamp state"))

/-- `spool.scanMetadata`. -/
def scanMetadata (row : Row) : Except GoError Metadata :=
  row.scanChecks.map fun _ => row.metadata

/-- What is scanned is what the columns hold, under a canonical identifier. -/
theorem scanMetadata_ok {row : Row} {m : Metadata} (h : scanMetadata row = .ok m) :
    m = row.metadata ∧ Canonical row.id := by
  unfold scanMetadata at h
  cases hc : row.scanChecks with
  | error e =>
    rw [hc] at h
    nomatch h
  | ok u =>
    rw [hc] at h
    refine ⟨(Except.ok.inj h).symm, ?_⟩
    unfold Columns.scanChecks at hc
    obtain ⟨_, hid, -⟩ := bind_eq_ok.mp hc
    cases hv : validateCanonicalRecordID row.id with
    | error e =>
      rw [hv] at hid
      nomatch hid
    | ok _ => exact validateCanonicalRecordID_ok.mp hv

end Texts

end SmtpCloudRelay.Spool
