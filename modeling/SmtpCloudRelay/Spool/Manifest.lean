/-
  THE PAYLOAD MANIFEST: what `message.json` holds, and how `encoding/json` writes and reads it.

  A message is stored as a manifest with all its text fields, and one file for each attachment, to
  which the manifest refers by path, size and digest.  Writing follows the struct tags of
  `payloadManifest` (the order of the fields, `omitempty`); reading follows `json.Unmarshal`: keys
  match regardless of case, unknown keys are skipped, `null` leaves a field as it is, and any value
  of the wrong type is an error.
-/
import SmtpCloudRelay.Email.Message
import SmtpCloudRelay.Errors
import SmtpCloudRelay.Go.Time
import SmtpCloudRelay.Lib.Checks
import SmtpCloudRelay.Lib.Json
import SmtpCloudRelay.Lib.Sha256

namespace SmtpCloudRelay.Spool

open Go Lib
open Json (Value Values Fields)

/-- `spool.payloadAttachmentRef`. -/
structure AttachmentRef where
  filename : GoString
  contentType : GoString
  path : GoString
  sizeBytes : Int
  sha256 : GoString
  deriving DecidableEq

/-- `spool.payloadManifest`; `toAddrs` is its field `To`. -/
structure Manifest where
  envelopeFrom : GoString
  headerFrom : GoString
  replyTo : List GoString
  toAddrs : List GoString
  subject : GoString
  textBody : GoString
  htmlBody : GoString
  attachments : List AttachmentRef
  deriving DecidableEq

/-- The zero values that `json.Unmarshal` decodes into. -/
def AttachmentRef.zero : AttachmentRef := ⟨[], [], [], 0, []⟩

def Manifest.zero : Manifest := ⟨[], [], [], [], [], [], [], []⟩

/-! ## Writing -/

/-- A string member with `omitempty`. -/
def omitEmpty (key : String) (s : GoString) : List (GoString × Value) :=
  if s = [] then [] else [(lit key, .str s)]

/-- A list member with `omitempty`. -/
def omitEmptyList (key : String) (l : List Value) : List (GoString × Value) :=
  if l = [] then [] else [(lit key, .arr (.ofList l))]

/-- An integer as JSON. -/
def intValue (n : Int) : Value :=
  .num (if n < 0 then 0x2D :: Json.digits n.natAbs else Json.digits n.toNat)

/-- A reference as JSON. -/
def AttachmentRef.value (r : AttachmentRef) : Value :=
  .obj (.ofList (omitEmpty "filename" r.filename ++ omitEmpty "contentType" r.contentType ++
    [(lit "path", .str r.path), (lit "sizeBytes", intValue r.sizeBytes),
      (lit "sha256", .str r.sha256)]))

/-- A manifest as JSON. -/
def Manifest.value (m : Manifest) : Value :=
  .obj (.ofList (omitEmpty "envelopeFrom" m.envelopeFrom ++ omitEmpty "headerFrom" m.headerFrom ++
    omitEmptyList "replyTo" (m.replyTo.map .str) ++ omitEmptyList "to" (m.toAddrs.map .str) ++
    omitEmpty "subject" m.subject ++ omitEmpty "textBody" m.textBody ++
    omitEmpty "htmlBody" m.htmlBody ++
    omitEmptyList "attachments" (m.attachments.map (·.value))))

/-- `json.Marshal` of a manifest. -/
def Manifest.marshal (m : Manifest) : List UInt8 := m.value.encode

/-! ## Reading -/

/-- One character of a key, folded: ASCII letters, and the two characters beyond ASCII that fold
    to an ASCII letter. -/
def foldSeg : Utf8.Seg → List UInt8
  | .rune [b] => [lowerByte b]
  | .rune e => if e = [0xC5, 0xBF] then [0x73] else if e = [0xE2, 0x84, 0xAA] then [0x6B] else e
  | .bad b => [b]

/-- A key as `encoding/json` compares it with a field's name. -/
def foldKey (key : GoString) : GoString := (Utf8.segments key).flatMap foldSeg

/-- The key names the field. -/
def isField (key : GoString) (name : String) : Bool := foldKey key = (lit name).map lowerByte

/-- Decode into a string that holds `old`. -/
def decodeString (old : GoString) : Value → Option GoString
  | .str s => some s
  | .null => some old
  | _ => none

/-- Decode into a list of strings. -/
def decodeStrings : Value → Option (List GoString)
  | .arr vs => vs.toList.mapM (decodeString [])
  | .null => some []
  | _ => none

/-- `strconv.ParseInt` in base ten with 64 bits. -/
def parseInt64 (text : List UInt8) : Option Int :=
  let negative := text.head? = some 0x2D
  let ds := if negative then text.drop 1 else text
  if ds = [] ∨ ds.all Json.isDigit = false then none
  else
    let n : Int := if negative then - (Json.ofDigits ds : Int) else Json.ofDigits ds
    if -maxDuration - 1 ≤ n ∧ n ≤ maxDuration then some n else none

/-- Decode into an integer that holds `old`. -/
def decodeInt64 (old : Int) : Value → Option Int
  | .num text => parseInt64 text
  | .null => some old
  | _ => none

/-- Decode one member into a reference. -/
def AttachmentRef.member (r : AttachmentRef) (kv : GoString × Value) : Option AttachmentRef :=
  if isField kv.1 "filename" then
    (decodeString r.filename kv.2).map fun s => { r with filename := s }
  else if isField kv.1 "contentType" then
    (decodeString r.contentType kv.2).map fun s => { r with contentType := s }
  else if isField kv.1 "path" then (decodeString r.path kv.2).map fun s => { r with path := s }
  else if isField kv.1 "sizeBytes" then
    (decodeInt64 r.sizeBytes kv.2).map fun n => { r with sizeBytes := n }
  else if isField kv.1 "sha256" then
    (decodeString r.sha256 kv.2).map fun s => { r with sha256 := s }
  else some r

/-- Decode into a reference. -/
def decodeRef : Value → Option AttachmentRef
  | .obj fs => fs.toList.foldlM AttachmentRef.member .zero
  | .null => some .zero
  | _ => none

/-- Decode into a list of references. -/
def decodeRefs : Value → Option (List AttachmentRef)
  | .arr vs => vs.toList.mapM decodeRef
  | .null => some []
  | _ => none

/-- Decode one member into a manifest. -/
def Manifest.member (m : Manifest) (kv : GoString × Value) : Option Manifest :=
  if isField kv.1 "envelopeFrom" then
    (decodeString m.envelopeFrom kv.2).map fun s => { m with envelopeFrom := s }
  else if isField kv.1 "headerFrom" then
    (decodeString m.headerFrom kv.2).map fun s => { m with headerFrom := s }
  else if isField kv.1 "replyTo" then (decodeStrings kv.2).map fun l => { m with replyTo := l }
  else if isField kv.1 "to" then (decodeStrings kv.2).map fun l => { m with toAddrs := l }
  else if isField kv.1 "subject" then
    (decodeString m.subject kv.2).map fun s => { m with subject := s }
  else if isField kv.1 "textBody" then
    (decodeString m.textBody kv.2).map fun s => { m with textBody := s }
  else if isField kv.1 "htmlBody" then
    (decodeString m.htmlBody kv.2).map fun s => { m with htmlBody := s }
  else if isField kv.1 "attachments" then
    (decodeRefs kv.2).map fun l => { m with attachments := l }
  else some m

/-- Decode into a manifest. -/
def decodeManifest : Value → Option Manifest
  | .obj fs => fs.toList.foldlM Manifest.member .zero
  | .null => some .zero
  | _ => none

/-- `json.Unmarshal` into a manifest; `none` is any of its errors. -/
def Manifest.unmarshal (data : List UInt8) : Option Manifest := (Json.parse data).bind decodeManifest

/-! ## Attachment references -/

/-- `hex.DecodeString`; `none` is any of its errors. -/
def hexDecode : GoString → Option (List UInt8)
  | [] => some []
  | a :: b :: s =>
    match Json.hexValue a, Json.hexValue b, hexDecode s with
    | some x, some y, some bs => some (UInt8.ofNat (16 * x + y) :: bs)
    | _, _, _ => none
  | _ => none

/-- The file name of attachment `i`. -/
def attachmentName (i : Nat) : GoString := Json.digits i ++ lit ".bin"

/-- The path of attachment `i` in a reference. -/
def attachmentPath (i : Nat) : GoString := lit "attachments/" ++ attachmentName i

/-- The reference that `Save` writes for attachment `i`. -/
def attachmentRef (i : Nat) (a : Attachment) : AttachmentRef where
  filename := a.filename
  contentType := a.contentType
  path := attachmentPath i
  sizeBytes := a.data.length
  sha256 := hexEncode (Sha256.sum256 a.data)

/-- The references from attachment `i` on. -/
def attachmentRefs : Nat → List Attachment → List AttachmentRef
  | _, [] => []
  | i, a :: as => attachmentRef i a :: attachmentRefs (i + 1) as

/-- The manifest that `Save` writes. -/
def Manifest.ofMessage (msg : Message) : Manifest where
  envelopeFrom := trimSpace msg.envelopeFrom
  headerFrom := trimSpace msg.headerFrom
  replyTo := msg.replyTo
  toAddrs := msg.toAddrs
  subject := msg.subject
  textBody := msg.textBody
  htmlBody := msg.htmlBody
  attachments := attachmentRefs 0 msg.attachments

/-- `spool.validateAttachmentRef`; on success the file is `attachmentName index`. -/
def validateAttachmentRef [Unicode] (index : Nat) (ref : AttachmentRef) : Except GoError Unit := do
  failIf (trimSpace ref.path ≠ attachmentPath index)
    (.new (lit "attachment path must be " ++ quote (attachmentPath index)))
  failIf (ref.sizeBytes < 0) (.errorf "attachment size must be non-negative")
  failIf ((hexDecode (trimSpace ref.sha256)).map List.length ≠ some 32)
    (.errorf "attachment sha256 must be a 32-byte hex digest")

end SmtpCloudRelay.Spool
