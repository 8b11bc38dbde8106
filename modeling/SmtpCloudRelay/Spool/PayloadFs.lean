/-
  THE PAYLOAD STORE'S FILE OPERATIONS: directories and files made, copied, renamed and removed one
  system call at a time.

  A descriptor of the source is a PATH here: every directory it holds open is one that only the
  program itself moves or removes, so the path and the open directory stay the same thing for as
  long as the code uses them.  A deferred close whose error is ignored does nothing and is left
  out; a close whose error is returned is a step.

  Two recursions of the source follow a directory tree downwards as far as it goes.  Here a walk is
  given a number of levels, `Root.depth`, and NEVER RETURNS if the tree goes on below them.  Every
  run of the source that ends is therefore the run of a walk with enough levels, and a result over
  every `Root` is a result about trees of any depth.
-/
import SmtpCloudRelay.Spool.World

namespace SmtpCloudRelay.Spool

open Go Lib

/-- A system call, with its error number. -/
def sys (c : Call GoString) : Act spoolSig Errno c.Answer := .step (.fs c) .ret

/-- A system call whose error is returned as it is. -/
def sysRaw (c : Call GoString) : Task c.Answer := (sys c).mapError .errno

/-- A system call whose error is wrapped with a text in front. -/
def sysOr (before : GoString) (c : Call GoString) : Task c.Answer :=
  (sys c).mapError fun e => .wrap before (.errno e)

/-- A random suffix. -/
def newSuffix : Task GoString := .step .suffix .ret

/-- Run `f` on every element, in order, until one fails. -/
def forEach {α : Type} (f : α → Task Unit) : List α → Task Unit
  | [] => pure ()
  | a :: as => f a >>= fun _ => forEach f as

/-- The spool root: its path, how many levels the walks over trees below it may go down, and whether
    errors name the second directory of a path twice. -/
structure Root where
  path : GoString
  depth : Nat
  twice : Bool

/-- `filepath.Join` of the spool root and a path below it. -/
def pathText (root : Root) (p : Path) : GoString :=
  (if root.twice then p.take 2 ++ p.drop 1 else p).foldl (fun s n => s ++ lit "/" ++ n) root.path

section Operations

variable (root : Root)

/-- The text before a wrapped error about path `p`. -/
def about (what : String) (p : Path) : GoString := lit what ++ lit " " ++ pathText root p ++ lit ": "

/-- `syncFD`. -/
def syncFD (p : Path) : Task Unit := sysOr (about root "fsync directory" p) (.quiet p)

/-- `openDirectoryAtNoFollow`. -/
def openDirectoryAtNoFollow (p : Path) : Task Unit := sysRaw (.openDir p)

/-- What follows a successful mkdir wherever the code makes a directory: open it, set its mode,
    and sync it and its parent. -/
def settleDirectoryAt (d : Path) (name : GoString) : Task Unit := do
  sysOr (about root "open spool directory" (d ++ [name])) (.openDir (d ++ [name]))
  sysOr (about root "chmod spool directory" (d ++ [name])) (.quiet (d ++ [name]))
  syncFD root (d ++ [name])
  syncFD root d

/-- `createDirectoryAt`. -/
def createDirectoryAt (d : Path) (name : GoString) : Task Unit := do
  sysOr (about root "create spool directory" (d ++ [name])) (.mkdir d name)
  settleDirectoryAt root d name

/-- `ensureDirectoryAt`: a directory that exists is fine, and then its parent is not synced. -/
def ensureDirectoryAt (d : Path) (name : GoString) : Task Unit := do
  let made ← (sys (.mkdir d name)).attempt
  match made with
  | .ok _ => settleDirectoryAt root d name
  | .error .eexist => do
    sysOr (about root "open spool directory" (d ++ [name])) (.openDir (d ++ [name]))
    sysOr (about root "chmod spool directory" (d ++ [name])) (.quiet (d ++ [name]))
    syncFD root (d ++ [name])
  | .error e => .fail (.wrap (about root "create spool directory" (d ++ [name])) (.errno e))

/-- The loop of the two functions that make a directory with a random name; `left` attempts remain. -/
def createUniqueDirectoryAt (d : Path) (nameOf : GoString → GoString) (noSuffix exhausted : GoString) :
    Nat → Task GoString
  | 0 => .fail (.new exhausted)
  | left + 1 => do
    let suffix ← newSuffix.mapError (.wrap noSuffix)
    let made ← (sys (.mkdir d (nameOf suffix))).attempt
    match made with
    | .ok _ => do
      settleDirectoryAt root d (nameOf suffix)
      pure (nameOf suffix)
    | .error .eexist => createUniqueDirectoryAt d nameOf noSuffix exhausted left
    | .error e =>
      .fail (.wrap (about root "create spool directory" (d ++ [nameOf suffix])) (.errno e))

/-- The name of a staging directory. -/
def stageName (recordID suffix : GoString) : GoString := lit ".stage-" ++ recordID ++ lit "-" ++ suffix

/-- The name of a publish temp directory. -/
def publishTempName (recordID suffix : GoString) : GoString :=
  lit ".publish-" ++ recordID ++ lit "-" ++ suffix

/-- `createStagingDirectoryAt`. -/
def createStagingDirectoryAt (d : Path) (recordID : GoString) : Task GoString :=
  createUniqueDirectoryAt root d (stageName recordID)
    (lit "generate staging suffix for " ++ recordID ++ lit ": ")
    (lit "create staging directory for " ++ recordID ++ lit ": exhausted unique names") 16

/-- `createPublishTempDirectoryAt`. -/
def createPublishTempDirectoryAt (d : Path) (recordID : GoString) : Task GoString :=
  createUniqueDirectoryAt root d (publishTempName recordID)
    (lit "generate publish suffix for " ++ recordID ++ lit ": ")
    (lit "create publish temp directory for " ++ recordID ++ lit ": exhausted unique names") 16

/-! ## Files -/

/-- `uniqueTempName` with the prefix `.tmp-`; `left` attempts remain. -/
def uniqueTempName (d : Path) : Nat → Task GoString
  | 0 => .fail (.errorf "exhausted unique temp names")
  | left + 1 => do
    let suffix ← newSuffix
    let found ← (sys (.stat (d ++ [lit ".tmp-" ++ suffix]))).attempt
    match found with
    | .ok _ => uniqueTempName d left
    | .error .enoent => pure (lit ".tmp-" ++ suffix)
    | .error e => .fail (.errno e)

/-- `writeRegularFileAt` after the temporary name is chosen: create, write, sync, rename. -/
def writeTemp (d : Path) (tmpName name : GoString) (data : List UInt8) : Task Unit := do
  sysOr (about root "create temp payload file" (d ++ [tmpName])) (.create d tmpName)
  sysOr (about root "write payload file" (d ++ [tmpName])) (.write d tmpName data)
  sysOr (about root "fsync payload file" (d ++ [tmpName])) (.quiet (d ++ [tmpName]))
  sysOr (about root "chmod payload file" (d ++ [tmpName])) (.quiet (d ++ [tmpName]))
  sysOr (about root "close payload file" (d ++ [tmpName])) (.quiet (d ++ [tmpName]))
  sysOr (lit "rename payload file " ++ pathText root (d ++ [tmpName]) ++ lit " -> " ++
    pathText root (d ++ [name]) ++ lit ": ") (.rename d tmpName d name)

/-- `writeRegularFileAt`: the temporary file is unlinked when anything fails before the rename. -/
def writeRegularFileAt (d : Path) (name : GoString) (data : List UInt8) : Task Unit := do
  let tmpName ← (uniqueTempName d 16).mapError (.wrap (about root "create temp payload file in" d))
  (writeTemp root d tmpName name data).onFail (sys (.unlink d tmpName))
  syncFD root d

/-- `readRegularFileAtNoFollow`. -/
def readRegularFileAtNoFollow (p : Path) : Task (List UInt8) := do
  let data ← sysRaw (.readFile p)
  match data with
  | some bytes => pure bytes
  | none => .fail .unexpectedFileType

/-- `readDirectoryEntriesFD`. -/
def readDirectoryEntriesFD (p : Path) : Task (List GoString) := do
  sysRaw (.quiet p)
  sysRaw (.readDir p)

/-- `entryModeAt`: the entry's type, or that it does not exist. -/
def entryModeAt (p : Path) : Task (Option Kind) := do
  let mode ← (sys (.stat p)).attempt
  match mode with
  | .ok k => pure (some k)
  | .error .enoent => pure none
  | .error e => .fail (.errno e)

/-- `unexpectedEntryError`. -/
def unexpectedEntryError (p : Path) : GoError :=
  .wrap (about root "unexpected spool entry" p) .unexpectedFileType

/-! ## Removing trees -/

/-- `removeEntryTreeAt`, given how to remove a directory's contents. -/
def removeEntry (contents : Path → Task Unit) (d : Path) (name : GoString) : Task Unit := do
  let mode ← (entryModeAt (d ++ [name])).mapError (.wrap (about root "stat spool entry" (d ++ [name])))
  match mode with
  | none => pure ()
  | some .dir => do
    sysOr (about root "open spool directory" (d ++ [name])) (.openDir (d ++ [name]))
    contents (d ++ [name])
    sysOr (about root "close spool directory" (d ++ [name])) (.quiet (d ++ [name]))
    sysOr (about root "remove spool directory" (d ++ [name])) (.rmdir d name)
  | some .reg => sysOr (about root "remove spool file" (d ++ [name])) (.unlink d name)
  | some .other => .fail (.wrap (about root "unexpected file type at" (d ++ [name])) .unexpectedFileType)

/-- `removeTreeContentsFD`, so many levels deep. -/
def removeTreeContents : Nat → Path → Task Unit
  | 0, _ => .diverge
  | depth + 1, p => do
    let entries ← (readDirectoryEntriesFD p).mapError (.wrap (about root "read directory" p))
    forEach (removeEntry root (removeTreeContents depth) p) entries

/-- `removeTreeContentsFD`. -/
def removeTreeContentsFD (p : Path) : Task Unit := removeTreeContents root root.depth p

/-- `removeEntryTreeAt`. -/
def removeEntryTreeAt (d : Path) (name : GoString) : Task Unit :=
  removeEntry root (removeTreeContentsFD root) d name

/-- A clean-up that the code defers: remove the entry, sync the directory, ignore both errors. -/
def discardEntry (d : Path) (name : GoString) : Task Unit := do
  (removeEntryTreeAt root d name).ignore
  (syncFD root d).ignore

/-! ## Copying trees -/

/-- The part of `copyDirectoryTreeAt` between making the target and giving it up. -/
def copyInto (entries : Path → Path → Task Unit) (source target : Path) : Task Unit := do
  sysOr (about root "open spool directory" source) (.openDir source)
  entries source target
  syncFD root target

/-- `copyDirectoryTreeAt`, given how to copy a directory's entries; a failed copy is removed. -/
def copyTree (entries : Path → Path → Task Unit) (sd : Path) (sn : GoString) (td : Path)
    (tn : GoString) : Task Unit := do
  createDirectoryAt root td tn
  (copyInto root entries (sd ++ [sn]) (td ++ [tn])).onFail (discardEntry root td tn)

/-- One round of the loop of `copyDirectoryEntries`. -/
def copyEntry (entries : Path → Path → Task Unit) (source target : Path) (name : GoString) :
    Task Unit := do
  let mode ← (entryModeAt (source ++ [name])).mapError
    (.wrap (about root "stat spool entry" (source ++ [name])))
  match mode with
  | none => .fail (.new (lit "spool entry disappeared during copy: " ++
      pathText root (source ++ [name])))
  | some .dir => copyTree root entries source name target name
  | some .reg => do
    let data ← (readRegularFileAtNoFollow (source ++ [name])).mapError
      (.wrap (about root "read spool file" (source ++ [name])))
    writeRegularFileAt root target name data
  | some .other =>
    .fail (.wrap (about root "unexpected file type at" (source ++ [name])) .unexpectedFileType)

/-- `copyDirectoryEntries`, so many levels deep. -/
def copyEntries : Nat → Path → Path → Task Unit
  | 0, _, _ => .diverge
  | depth + 1, source, target => do
    let entries ← (readDirectoryEntriesFD source).mapError (.wrap (about root "read directory" source))
    forEach (copyEntry root (copyEntries depth) source target) entries

/-- `copyDirectoryTreeAt`. -/
def copyDirectoryTreeAt (sd : Path) (sn : GoString) (td : Path) (tn : GoString) : Task Unit :=
  copyTree root (copyEntries root root.depth) sd sn td tn

/-- `copyDirectoryContentsAt`. -/
def copyDirectoryContentsAt (source target : Path) : Task Unit := do
  sysOr (about root "open spool directory" source) (.openDir source)
  sysOr (about root "open spool directory" target) (.openDir target)
  copyEntries root root.depth source target

/-! ## Renaming -/

/-- `renameDirectoryAt`. -/
def renameDirectoryAt (sd : Path) (sn : GoString) (dd : Path) (dn : GoString) : Task Unit := do
  let mode : Kind ← sysRaw (.stat (sd ++ [sn]))
  match mode with
  | .dir => sysRaw (.rename sd sn dd dn)
  | _ => .fail .unexpectedFileType

/-- `isCrossDeviceError`. -/
def isCrossDeviceError (e : GoError) : Bool := e.is (.errno .exdev)

/-- `uniqueQuarantineNameAt`: try `name`, then `name-1`, `name-2` and so on. -/
def uniqueQuarantineNameAt (d : Path) (name : GoString) : Task GoString :=
  Act.forever (fun (st : GoString × Nat) => do
    let found ← (sys (.stat (d ++ [st.1]))).attempt
    match found with
    | .ok _ => pure (.inl (name ++ lit "-" ++ itoa st.2, st.2 + 1))
    | .error .enoent => pure (.inr st.1)
    | .error e => .fail (.errno e)) (name, 1)

end Operations

end SmtpCloudRelay.Spool
