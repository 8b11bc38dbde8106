/-
  THE SPOOL STORE: records in the database, messages in the payload directories.

  Every method of `SpoolStore` is a program of steps here, with the record store's methods below it.
  The four `Mark*` methods share one shape — read the clock, compute the updated record, store it
  under the condition that the row is still in the state the caller saw — and differ in the record
  they compute, so that part of each is a pure function (`Record.retried` and so on) and `Mark` is
  the type of their calls.
-/
import SmtpCloudRelay.Spool.PayloadStore

namespace SmtpCloudRelay

open Go Lib

/-- `existing.RecordID = recordID` in the first `RecordCorruptionError` of a chain, when that has
    none yet. -/
def GoError.fillRecordID (id : GoString) : GoError → GoError
  | .recordCorruption old err => .recordCorruption (if old = [] then id else old) err
  | .wrap before err => .wrap before (err.fillRecordID id)
  | .foreignOf kind text err => .foreignOf kind text (err.fillRecordID id)
  | .sendOf p info err => .sendOf p info (err.fillRecordID id)
  | .store op err => .store op (err.fillRecordID id)
  | .payloadCorruption pid path err => .payloadCorruption pid path (err.fillRecordID id)
  | e => e

/-- `spool.newRecordCorruptionError`, for an error that is not nil. -/
def GoError.newRecordCorruptionError (id : GoString) (err : GoError) : GoError :=
  if err.asRecordCorruptionError.isSome then err.fillRecordID id else .recordCorruption id err

namespace Spool

/-! ## Steps -/

/-- `if err := ctx.Err(); err != nil { return err }`. -/
def failIfEnded (e : Option CtxErr) : Except GoError Unit :=
  match e with
  | none => .ok ()
  | some e => .error e.toError

/-- Look at the context. -/
def checkContext : Task Unit := .step .ctxErr fun e => .ret (failIfEnded e)

/-- Read the clock. -/
def readClock : Task Int := .step .now fun t => .ret (.ok t)

/-- Draw a record id. -/
def newID : Task GoString := .step .newID .ret

/-- A transaction. -/
def transact (t : Tx) : Task t.Answer := .step (.tx t) .ret

/-! ## The records that the methods store -/

/-- The record of `Enqueue`. -/
def Record.enqueued (id : GoString) (msg : Message) (now : Int) : Record where
  id := id
  message := msg
  state := .queued
  attempt := 0
  nextAttemptAt := now
  operationID := []
  operationLocation := []
  providerMessageID := []
  firstSubmittedAt := zeroTime
  lastError := none
  createdAt := now
  updatedAt := now

/-- A record without what the provider said about it. -/
def Record.cleared (rec : Record) : Record :=
  { rec with
    operationID := []
    operationLocation := []
    providerMessageID := []
    firstSubmittedAt := zeroTime }

/-- The record that `markSubmitted` stores. -/
def Record.submitted (rec : Record) (result : SubmissionResult) (next stamp : Int) : Record :=
  { rec with
    state := .submitted
    attempt := wrap64 (rec.attempt + 1)
    operationID := trimSpace result.operationID
    operationLocation := trimSpace result.operationLocation
    providerMessageID := trimSpace result.providerMessageID
    nextAttemptAt := next
    lastError := none
    updatedAt := stamp
    firstSubmittedAt := if rec.firstSubmittedAt = zeroTime then stamp else rec.firstSubmittedAt }

/-- The record that `requeueClaimedRecord` stores. -/
def Metadata.unclaimed (m : Metadata) (stamp : Int) : Record :=
  { m.toRecord with state := .queued, updatedAt := stamp }

section Texts

variable [Unicode]

/-- A `Mark*` method was called for a record in the wrong state. -/
def wrongState (what : String) (got : State) : GoError :=
  .new (lit what ++ lit " requires " ++ quote State.working.text ++ lit " or " ++
    quote State.submitted.text ++ lit " state, got " ++ quote got.text)

/-- The record that `markRetry` stores; the clock was read at `t1` and at `t2`. -/
def Record.retried (rec : Record) (next : Int) (lastErr : Option LastError) (t1 t2 : Int) :
    Except GoError Record :=
  let updated := { rec with
    nextAttemptAt := next
    lastError := normalizeLastError lastErr t1
    updatedAt := t2 }
  match rec.state with
  | .working => .ok { updated.cleared with state := .queued, attempt := wrap64 (rec.attempt + 1) }
  | .submitted => .ok { updated with state := .submitted }
  | s => .error (wrongState "mark retry" s)

/-- The record that `markSucceeded` stores. -/
def Record.succeeded (rec : Record) (stamp : Int) : Except GoError Record :=
  let updated := { rec with state := .succeeded, lastError := none, updatedAt := stamp }
  match rec.state with
  | .working => .ok { updated with attempt := wrap64 (rec.attempt + 1) }
  | .submitted => .ok { updated with attempt := rec.attempt }
  | s => .error (wrongState "mark succeeded" s)

/-- The record that `markDeadLetter` stores. -/
def Record.deadLettered (rec : Record) (lastErr : Option LastError) (t1 t2 : Int) :
    Except GoError Record :=
  let updated := { rec with
    state := .deadLetter
    lastError := normalizeLastError lastErr t1
    updatedAt := t2 }
  match rec.state with
  | .working => .ok { updated.cleared with attempt := wrap64 (rec.attempt + 1) }
  | .submitted => .ok { updated with attempt := rec.attempt }
  | s => .error (wrongState "mark dead-letter" s)

/-- `spoolProviderName`. -/
def spoolProviderName : GoString := lit "spool"

/-- The record that `deadLetterCorruptRecord` stores. -/
def Metadata.corrupted (m : Metadata) (cause : GoError) (now : Int) : Record :=
  let updated : Metadata := { m with
    state := .deadLetter
    lastError := some ⟨cause.error, spoolProviderName, false, now⟩
    updatedAt := now }
  if m.state = .submitted then updated.toRecord else updated.toRecord.cleared

theorem corrupted_id (m : Metadata) (cause : GoError) (now : Int) :
    (m.corrupted cause now).id = m.id := by
  unfold Metadata.corrupted
  split <;> rfl

theorem corrupted_state (m : Metadata) (cause : GoError) (now : Int) :
    (m.corrupted cause now).state = .deadLetter := by
  unfold Metadata.corrupted
  split <;> rfl

theorem corrupted_attempt (m : Metadata) (cause : GoError) (now : Int) :
    (m.corrupted cause now).attempt = m.attempt := by
  unfold Metadata.corrupted
  split <;> rfl

/-! ## The record store -/

/-- `sqliteRecordStore.insertRecord`. -/
def insertRecord (rec : Record) : Task Unit := do
  check (validateCanonicalRecordID rec.id)
  transact (.insert rec)

/-- `sqliteRecordStore.updateRecord`. -/
def updateRecord (currentState : State) (updated : Record) : Task Unit := do
  check (validateCanonicalRecordID updated.id)
  check (failIf (isValidState currentState = false ∨ isValidState updated.state = false)
    (.new (lit "invalid state transition " ++ quote currentState.text ++ lit " -> " ++
      quote updated.state.text)))
  transact (.update currentState updated)

/-- Store what a method has computed for a record that was in state `s`. -/
def storeUpdated (s : State) (updated : Except GoError Record) : Task Record := do
  let rec' ← Act.lift (fun e => e) updated
  updateRecord s rec'
  pure rec'

/-- A call of one of the `Mark*` methods. -/
inductive Mark where
  | submitted (rec : Record) (result : SubmissionResult) (nextAttemptAt : Int)
  | retry (rec : Record) (nextAttemptAt : Int) (lastErr : Option LastError)
  | succeeded (rec : Record)
  | deadLetter (rec : Record) (lastErr : Option LastError)

/-- `sqliteRecordStore.markSubmitted`. -/
def markSubmitted (rec : Record) (result : SubmissionResult) (nextAttemptAt : Int) :
    Task Record := do
  check (failIf (rec.state ≠ .working) (.new (lit "mark submitted requires " ++
    quote State.working.text ++ lit " state, got " ++ quote rec.state.text)))
  let stamp ← readClock
  storeUpdated rec.state (.ok (rec.submitted result nextAttemptAt stamp))

/-- `sqliteRecordStore.markRetry`. -/
def markRetry (rec : Record) (nextAttemptAt : Int) (lastErr : Option LastError) :
    Task Record := do
  let t1 ← readClock
  let t2 ← readClock
  storeUpdated rec.state (rec.retried nextAttemptAt lastErr t1 t2)

/-- `sqliteRecordStore.markSucceeded`. -/
def markSucceeded (rec : Record) : Task Record := do
  let stamp ← readClock
  storeUpdated rec.state (rec.succeeded stamp)

/-- `sqliteRecordStore.markDeadLetter`. -/
def markDeadLetter (rec : Record) (lastErr : Option LastError) : Task Record := do
  let t1 ← readClock
  let t2 ← readClock
  storeUpdated rec.state (rec.deadLettered lastErr t1 t2)

/-- The method that a call is of. -/
def Mark.run : Mark → Task Record
  | .submitted rec result next => markSubmitted rec result next
  | .retry rec next lastErr => markRetry rec next lastErr
  | .succeeded rec => markSucceeded rec
  | .deadLetter rec lastErr => markDeadLetter rec lastErr

/-- `sqliteRecordStore.requeueClaimedRecord`. -/
def requeueClaimedRecord (m : Metadata) : Task Unit := do
  let stamp ← readClock
  (updateRecord m.state (m.unclaimed stamp)).mapError
    (.wrapStoreError (lit "requeue claimed record " ++ quote m.id))

/-- `sqliteRecordStore.deadLetterCorruptRecord`. -/
def deadLetterCorruptRecord (m : Metadata) (cause : GoError) : Task Record := do
  let now ← readClock
  storeUpdated m.state (.ok (m.corrupted cause now))

/-! ## The spool store -/

/-- `spool.SpoolStore`, as far as it is its payload store. -/
structure SpoolStore where
  payloads : PayloadStore

/-- `classifyPayloadLoadError`. -/
def classifyPayloadLoadError (id : GoString) (err : GoError) : GoError :=
  if err.isPayloadCorruption then .newRecordCorruptionError id err
  else .wrapStoreError (lit "load payload " ++ quote id) err

/-- What the code does with an error of loading a payload: go on with the corruption that it is
    classified as, or with the classified error. -/
def onLoadError {α : Type} (id : GoString) (err : GoError) (corrupt other : GoError → Task α) :
    Task α :=
  match (classifyPayloadLoadError id err).asRecordCorruptionError with
  | some c => corrupt c
  | none => other (classifyPayloadLoadError id err)

namespace SpoolStore

variable (s : SpoolStore)

/-- `NewSpoolStore`; the root is given in its clean form. -/
def newSpoolStore : Task Unit := do
  check (failIf (trimSpace s.payloads.root.path = []) (.errorf "spool root cannot be empty"))
  openRootOr (lit "ensure spool root " ++ s.payloads.root.path ++ lit ": ")
  (.step .openDatabase .ret : Task Unit)
  s.payloads.newPayloadStore

/-- `SpoolStore.Enqueue`. -/
def enqueue (msg : Message) : Task Record := do
  checkContext
  let now ← readClock
  let id ← newID.mapError (.wrapStoreError (lit "generate record id"))
  (s.payloads.save id msg).mapError (.wrapStoreError (lit "save payload " ++ quote id))
  (insertRecord (.enqueued id msg now)).onFail (s.payloads.remove id)
  pure (.enqueued id msg now)

/-- What `ClaimReady` does with a claimed record, given how loading its payload ended. -/
def settleClaim (m : Metadata) : Except GoError Message → Task (Unit ⊕ Option Record)
  | .ok msg => pure (.inr (some { m.toRecord with message := msg }))
  | .error e => onLoadError m.id e
      (fun corrupt => do
        let _ ← deadLetterCorruptRecord m corrupt
        pure (.inl ()))
      (fun classified => do
        requeueClaimedRecord m
        .fail classified)

/-- One round of the loop of `ClaimReady`. -/
def claimRound (now : Int) : Task (Unit ⊕ Option Record) := do
  let claimed : Option Metadata ← transact (.claim now)
  match claimed with
  | none => pure (.inr none)
  | some m => do
    let loaded ← (s.payloads.load m.id).attempt
    settleClaim m loaded

/-- `SpoolStore.ClaimReady`. -/
def claimReady (now : Int) : Task (Option Record) := do
  checkContext
  Act.forever (fun _ => s.claimRound now) ()

/-- `SpoolStore.NextSubmittedReady`. -/
def nextSubmittedReady (now : Int) : Task (Option Record) := do
  let found : Option Metadata ← transact (.nextSubmitted now)
  pure (found.map Metadata.toRecord)

/-- What `Recover` does with a record of its snapshot, given how loading its payload ended: the
    record is kept, or it is dead-lettered. -/
def settleRecovered (what : String) (m : Metadata) :
    Except GoError Message → Task (Record ⊕ Record)
  | .ok msg => pure (.inl { m.toRecord with message := msg })
  | .error e => onLoadError m.id e
      (fun corrupt => do
        let dead ← deadLetterCorruptRecord m corrupt
        pure (.inr dead))
      (fun classified => .fail (.wrapStoreError (lit "load " ++ lit what ++ lit " payload " ++
        quote m.id ++ lit " during recovery") classified))

/-- The loops of `Recover` over the records of its snapshot. -/
def recoverRecords (what : String) : List Metadata → Task (List (Record ⊕ Record))
  | [] => pure []
  | m :: ms => do
    let loaded ← (s.payloads.load m.id).attempt
    let settled ← settleRecovered what m loaded
    let rest ← recoverRecords what ms
    pure (settled :: rest)

/-- The result of `Recover`. -/
def recoveryResult (requeued submitted : List (Record ⊕ Record)) (orphaned : List GoString) :
    RecoveryResult where
  requeued := requeued.filterMap Sum.getLeft?
  submitted := submitted.filterMap Sum.getLeft?
  deadLettered := requeued.filterMap Sum.getRight? ++ submitted.filterMap Sum.getRight?
  orphanedPayloads := orphaned

/-- `SpoolStore.Recover`. -/
def recover (now : Int) : Task RecoveryResult := do
  checkContext
  let snapshot : Snapshot ← transact (.recover now)
  let requeued ← s.recoverRecords "requeued" snapshot.requeued
  let submitted ← s.recoverRecords "submitted" snapshot.submitted
  let orphaned ← (s.payloads.quarantineOrphans snapshot.validIDs).mapError
    (.wrapStoreError (lit "quarantine orphan payloads"))
  pure (recoveryResult requeued submitted orphaned)

end SpoolStore

end Texts

/-- A message without attachments. -/
def sampleMessage : Message where
  envelopeFrom := lit "a@example.com"
  headerFrom := lit "a@example.com"
  replyTo := []
  toAddrs := [lit "b@example.com"]
  subject := lit "hi"
  textBody := lit "hello"
  htmlBody := []
  attachments := []

/-- A store in a directory of its own. -/
def sampleStore : SpoolStore := ⟨⟨⟨lit "/spool", 16, false⟩, fun _ => lit "unexpected end of JSON input"⟩⟩

end Spool

end SmtpCloudRelay
