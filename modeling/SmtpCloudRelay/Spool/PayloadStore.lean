/-
  THE PAYLOAD STORE: messages as directories.

  A payload is a directory `payloads/<id>` with the manifest and the attachment files.  It is built
  under `staging/` and PUBLISHED by renaming the finished directory, so that it is there as a whole
  or not at all; when staging is on another file system, it is copied to a temporary directory
  beside its place first.  Starting up removes what earlier processes left half-built, and recovery
  moves payloads without a record to `payload-orphans/`.
-/
import SmtpCloudRelay.Spool.Manifest
import SmtpCloudRelay.Spool.PayloadFs

namespace SmtpCloudRelay.Spool

open Go Lib

/-- `payloads/`. -/
def payloadsRoot : Path := [lit "payloads"]
/-- `payload-orphans/`. -/
def orphanRoot : Path := [lit "payload-orphans"]
/-- `staging/`. -/
def stagingRoot : Path := [lit "staging"]

def messageFileName : GoString := lit "message.json"

def attachmentsDirName : GoString := lit "attachments"

def publishTempStart : GoString := lit ".publish-"

/-- The directory of a payload. -/
def payloadDir (id : GoString) : Path := payloadsRoot ++ [id]

/-- `spool.PayloadStore`: its root directory, and the texts of `json.Unmarshal`'s errors, on which
    nothing depends. -/
structure PayloadStore where
  root : Root
  jsonError : List UInt8 → GoString

/-- Walk to the spool root; the error is wrapped with a text in front. -/
def openRootOr (before : GoString) : Task Unit :=
  Act.mapError (.wrap before) (.step .openRoot .ret : Task Unit)

/-- A check that fails the program. -/
def check (x : Except GoError Unit) : Task Unit := Act.lift (fun e => e) x

/-- The message that a manifest describes, with the attachments read. -/
def Manifest.message (m : Manifest) (attachments : List Attachment) : Message where
  envelopeFrom := trimSpace m.envelopeFrom
  headerFrom := trimSpace m.headerFrom
  replyTo := m.replyTo
  toAddrs := m.toAddrs
  subject := m.subject
  textBody := m.textBody
  htmlBody := m.htmlBody
  attachments := attachments

namespace PayloadStore

variable [Unicode] (s : PayloadStore)

/-! ## Saving -/

/-- The loop of `Save` over the attachments, from attachment `i` on. -/
def writeAttachments (d : Path) : Nat → List Attachment → Task Unit
  | _, [] => pure ()
  | i, a :: as => do
    writeRegularFileAt s.root d (attachmentName i) a.data
    writeAttachments d (i + 1) as

/-- The attachments directory of a payload, when there are attachments. -/
def stageAttachments (stage : Path) (attachments : List Attachment) : Task Unit :=
  match attachments with
  | [] => pure ()
  | as => do
    createDirectoryAt s.root stage attachmentsDirName
    s.writeAttachments (stage ++ [attachmentsDirName]) 0 as
    syncFD s.root (stage ++ [attachmentsDirName])
    sysOr (lit "close file descriptor: ") (.quiet (stage ++ [attachmentsDirName]))

/-- `publishViaPayloadTemp` up to the point where the payload is in place. -/
def publishTemp (stage temp id : GoString) : Task Unit := do
  -- the parent paths that the code passes end in the names already
  copyDirectoryContentsAt { s.root with twice := true } (stagingRoot ++ [stage])
    (payloadsRoot ++ [temp])
  renameDirectoryAt payloadsRoot temp payloadsRoot id
  syncFD s.root payloadsRoot

/-- `PayloadStore.publishViaPayloadTemp`. -/
def publishViaPayloadTemp (stage id : GoString) : Task Unit := do
  let temp ← createPublishTempDirectoryAt s.root payloadsRoot id
  (s.publishTemp stage temp id).onFail (discardEntry s.root payloadsRoot temp)
  discardEntry s.root stagingRoot stage

/-- The text before an error of publishing. -/
def publishing (stage id : GoString) : GoString :=
  lit "publish payload " ++ pathText s.root (stagingRoot ++ [stage]) ++ lit " -> " ++
    pathText s.root (payloadDir id) ++ lit ": "

/-- The end of `Save`: rename the staged directory into place, or copy it there. -/
def publish (stage id : GoString) : Task Unit := do
  let renamed ← (renameDirectoryAt stagingRoot stage payloadsRoot id).attempt
  match renamed with
  | .ok _ => do
    syncFD s.root payloadsRoot
    syncFD s.root stagingRoot
  | .error e =>
    if isCrossDeviceError e then
      (s.publishViaPayloadTemp stage id).mapError (.wrap (s.publishing stage id))
    else .fail (.wrap (s.publishing stage id) e)

/-- What `Save` does once its staging directory exists. -/
def saveStaged (stage id : GoString) (msg : Message) : Task Unit := do
  s.stageAttachments (stagingRoot ++ [stage]) msg.attachments
  writeRegularFileAt s.root (stagingRoot ++ [stage]) messageFileName
    (Manifest.ofMessage msg).marshal
  syncFD s.root (stagingRoot ++ [stage])
  s.publish stage id

/-- `Save` from its look at the target on. -/
def saveNew (id : GoString) (msg : Message) : Task Unit := do
  let stage ← createStagingDirectoryAt s.root stagingRoot id
  (s.saveStaged stage id msg).onFail (discardEntry s.root stagingRoot stage)

/-- `PayloadStore.Save`. -/
def save (id : GoString) (msg : Message) : Task Unit := do
  check (validateCanonicalRecordID (trimSpace id))
  openRootOr (lit "open spool root " ++ s.root.path ++ lit ": ")
  sysOr (about s.root "open payload root" payloadsRoot) (.openDir payloadsRoot)
  sysOr (about s.root "open staging root" stagingRoot) (.openDir stagingRoot)
  let mode ← (entryModeAt (payloadDir (trimSpace id))).mapError
    (.wrap (about s.root "stat payload target" (payloadDir (trimSpace id))))
  match mode with
  | none => s.saveNew (trimSpace id) msg
  | some .dir =>
    .fail (.new (lit "payload already exists: " ++ pathText s.root (payloadDir (trimSpace id))))
  | some _ => .fail (unexpectedEntryError s.root (payloadDir (trimSpace id)))

/-! ## Loading -/

/-- `classifyRecordPathError`. -/
def classifyRecordPathError (id path : GoString) (missing : String) (err : GoError) : GoError :=
  if err.is (.errno .enoent) then .payloadCorruption id path (.errorf missing)
  else if err.is (.errno .eloop) then
    .payloadCorruption id path (.errorf "path must not be a symlink")
  else if err.is (.errno .enotdir) || err.is .unexpectedFileType then
    .payloadCorruption id path (.errorf "unexpected file type")
  else .wrap (lit "read payload path " ++ path ++ lit ": ") err

/-- The loop of `Load` over the references, from attachment `i` on. -/
def loadAttachments (id : GoString) : Nat → List AttachmentRef → Task (List Attachment)
  | _, [] => pure []
  | i, ref :: refs => do
    let dir := payloadDir id ++ [attachmentsDirName]
    let manifestPath := pathText s.root (payloadDir id ++ [messageFileName])
    let fullPath := pathText s.root (dir ++ [attachmentName i])
    check ((validateAttachmentRef i ref).mapError (.payloadCorruption id manifestPath))
    let data ← (readRegularFileAtNoFollow (dir ++ [attachmentName i])).mapError
      (classifyRecordPathError id fullPath "attachment file is missing")
    check (failIf ((data.length : Int) ≠ ref.sizeBytes)
      (.payloadCorruption id fullPath (.errorf "attachment size mismatch")))
    check (failIf (equalFold (hexEncode (Sha256.sum256 data)) (trimSpace ref.sha256) = false)
      (.payloadCorruption id fullPath (.errorf "attachment sha256 mismatch")))
    let rest ← loadAttachments id (i + 1) refs
    pure (⟨ref.filename, ref.contentType, data⟩ :: rest)

/-- Open the attachments directory, when there are attachments. -/
def openAttachments (id : GoString) (refs : List AttachmentRef) : Task Unit :=
  let dir := payloadDir id ++ [attachmentsDirName]
  match refs with
  | [] => pure ()
  | _ => (openDirectoryAtNoFollow dir).mapError
      (classifyRecordPathError id (pathText s.root dir) "attachments directory is missing")

/-- `Load` once the manifest is decoded. -/
def loadManifest (id : GoString) (m : Manifest) : Task Message := do
  s.openAttachments id m.attachments
  let attachments ← s.loadAttachments id 0 m.attachments
  pure (m.message attachments)

/-- `Load` of a canonical id. -/
def loadFrom (id : GoString) : Task Message := do
  openRootOr (lit "open spool root " ++ s.root.path ++ lit ": ")
  sysOr (about s.root "open payload root" payloadsRoot) (.openDir payloadsRoot)
  (openDirectoryAtNoFollow (payloadDir id)).mapError
    (classifyRecordPathError id (pathText s.root (payloadDir id)) "payload directory is missing")
  let manifestPath := pathText s.root (payloadDir id ++ [messageFileName])
  let data ← (readRegularFileAtNoFollow (payloadDir id ++ [messageFileName])).mapError
    (classifyRecordPathError id manifestPath "payload manifest is missing")
  match Manifest.unmarshal data with
  | some m => s.loadManifest id m
  | none => .fail (.payloadCorruption id manifestPath
      (.wrap (lit "decode payload manifest: ") (.foreign .plain (s.jsonError data))))

/-- `PayloadStore.Load`. -/
def load (id : GoString) : Task Message := do
  check (validateCanonicalRecordID (trimSpace id))
  s.loadFrom (trimSpace id)

/-! ## Removing and quarantining -/

/-- `PayloadStore.Remove`. -/
def remove (id : GoString) : Task Unit := do
  check (validateCanonicalRecordID (trimSpace id))
  openRootOr (lit "open spool root " ++ s.root.path ++ lit ": ")
  sysOr (about s.root "open payload root" payloadsRoot) (.openDir payloadsRoot)
  removeEntryTreeAt s.root payloadsRoot (trimSpace id)
  syncFD s.root payloadsRoot

/-- `PayloadStore.copyAndRemoveOrphan`. -/
def copyAndRemoveOrphan (name target : GoString) : Task Unit := do
  copyDirectoryTreeAt s.root payloadsRoot name orphanRoot target
  (removeEntryTreeAt s.root payloadsRoot name).onFail (discardEntry s.root orphanRoot target)

/-- The move of one orphan: rename it, or copy it and remove it. -/
def moveOrphan (name target : GoString) : Task Unit := do
  let before := lit "move orphan payload " ++ pathText s.root (payloadsRoot ++ [name]) ++
    lit " -> " ++ pathText s.root (orphanRoot ++ [target]) ++ lit ": "
  let moved ← (renameDirectoryAt payloadsRoot name orphanRoot target).attempt
  match moved with
  | .ok _ => pure ()
  | .error e =>
    if isCrossDeviceError e then (s.copyAndRemoveOrphan name target).mapError (.wrap before)
    else .fail (.wrap before e)

/-- One round of the loop of `QuarantineOrphans`: the new path of an entry that was moved. -/
def quarantineEntry (validIDs : List GoString) (name : GoString) : Task (Option GoString) := do
  let path := payloadsRoot ++ [name]
  check ((validateCanonicalRecordID name).mapError (.wrap (about s.root "invalid payload entry" path)))
  let mode ← (entryModeAt path).mapError (.wrap (about s.root "stat payload entry" path))
  match mode with
  | none => .fail (.new (lit "payload entry disappeared during orphan scan: " ++
      pathText s.root path))
  | some .dir =>
    if name ∈ validIDs then pure none
    else do
      let target ← (uniqueQuarantineNameAt orphanRoot name).mapError
        (.wrap (about s.root "select quarantine name for" path))
      s.moveOrphan name target
      syncFD s.root payloadsRoot
      syncFD s.root orphanRoot
      pure (some (pathText s.root (orphanRoot ++ [target])))
  | some _ => .fail (unexpectedEntryError s.root path)

/-- The loop of `QuarantineOrphans`. -/
def quarantineEntries (validIDs : List GoString) : List GoString → Task (List GoString)
  | [] => pure []
  | name :: names => do
    let moved ← s.quarantineEntry validIDs name
    let rest ← quarantineEntries validIDs names
    pure (moved.toList ++ rest)

/-- `PayloadStore.QuarantineOrphans`. -/
def quarantineOrphans (validIDs : List GoString) : Task (List GoString) := do
  openRootOr (lit "open spool root " ++ s.root.path ++ lit ": ")
  sysOr (about s.root "open payload root" payloadsRoot) (.openDir payloadsRoot)
  sysOr (about s.root "open orphan root" orphanRoot) (.openDir orphanRoot)
  let entries ← (readDirectoryEntriesFD payloadsRoot).mapError
    (.wrap (about s.root "read payload root" payloadsRoot))
  s.quarantineEntries validIDs entries

/-! ## Starting up -/

/-- One round of the loop of `cleanupPayloadTemps`, for an entry with the prefix. -/
def cleanupTemp (name : GoString) : Task Unit :=
  (removeEntryTreeAt s.root payloadsRoot name).mapError
    (.wrap (about s.root "clean payload publish temp" (payloadsRoot ++ [name])))

/-- `PayloadStore.cleanupPayloadTemps`. -/
def cleanupPayloadTemps : Task Unit := do
  let entries ← (readDirectoryEntriesFD payloadsRoot).mapError
    (.wrap (about s.root "read payload root" payloadsRoot))
  let temps := entries.filter fun name => publishTempStart.isPrefixOf name
  forEach s.cleanupTemp temps
  match temps with
  | [] => pure ()
  | _ => syncFD s.root payloadsRoot

/-- `NewPayloadStore`. -/
def newPayloadStore : Task Unit := do
  check (failIf (trimSpace s.root.path = []) (.errorf "spool root cannot be empty"))
  openRootOr (lit "ensure spool root " ++ s.root.path ++ lit ": ")
  ensureDirectoryAt s.root [] (lit "payloads")
  ensureDirectoryAt s.root [] (lit "payload-orphans")
  ensureDirectoryAt s.root [] (lit "staging")
  (removeTreeContentsFD s.root stagingRoot).mapError
    (.wrap (about s.root "clean staging root" stagingRoot))
  syncFD s.root stagingRoot
  s.cleanupPayloadTemps

end PayloadStore

end SmtpCloudRelay.Spool
