/-
  THE MESSAGE PARSER: `smtp.ParseMessage` and the helpers below it.

  The parser takes the envelope from the session and everything else from the raw message.  The
  readers of the standard library it drives (`net/mail`, `mime`, `mime/multipart`, the transfer
  encodings) are collected in `MailLib` as parameters; the one law asked of them is that a part of
  a multipart body is shorter than the body, which is what makes the recursion over nested parts
  end.

  The result that the envelope theorems use is `parseMessage_envelope`: whatever the message
  contains, the parsed message carries the TRIMMED envelope sender and the trimmed, non-blank
  envelope recipients, in order.  No header and no part can change them.
-/
import SmtpCloudRelay.Email.Message
import SmtpCloudRelay.Errors
import SmtpCloudRelay.Lib.Checks

namespace SmtpCloudRelay.Smtp

open Go Lib

/-- An `io.Reader`: the bytes it yields, and the error it then ends with instead of the end of
    file. -/
structure Reader where
  data : GoString
  err : Option GoError

/-- `io.ReadAll`. -/
def Reader.readAll (r : Reader) : Except GoError GoString :=
  match r.err with
  | none => .ok r.data
  | some e => .error e

/-- The answer of `mime.ParseMediaType`: the type, its parameters (empty where absent), and the
    error that may come with them. -/
structure MediaType where
  mediaType : GoString
  params : GoString → GoString
  err : Option GoError

/-- The media type, or `fallback` when it came with an error. -/
def MediaType.typeOr (mt : MediaType) (fallback : GoString) : GoString :=
  if mt.err.isSome then fallback else mt.mediaType

/-- One part of a multipart body. -/
structure Part where
  /-- `Header.Get`. -/
  header : GoString → GoString
  /-- `Part.FileName`. -/
  fileName : GoString
  body : Reader

/-- The readers of the standard library that the parser drives. -/
structure MailLib where
  /-- `mail.ReadMessage`: the header and the body. -/
  readMessage : Reader → Except GoError ((GoString → GoString) × Reader)
  /-- `mime.ParseMediaType`. -/
  parseMediaType : GoString → MediaType
  /-- A `multipart.Reader` run to its end: the parts, and the error it ended with, if any. -/
  parts : (boundary : GoString) → Reader → List Part × Option GoError
  /-- A part is shorter than the body it stands in. -/
  parts_shorter : ∀ boundary r, ∀ p ∈ (parts boundary r).1, p.body.data.length < r.data.length
  /-- `base64.StdEncoding`. -/
  decodeBase64 : GoString → Except GoError GoString
  /-- `quotedprintable.NewReader`, read to its end. -/
  decodeQuotedPrintable : GoString → Except GoError GoString
  /-- `mail.ParseAddress`, down to the address. -/
  parseAddress : GoString → Except GoError GoString
  /-- `mail.ParseAddressList`, down to the addresses. -/
  parseAddressList : GoString → Except GoError (List GoString)
  /-- `mime.WordDecoder.DecodeHeader`. -/
  decodeWords : GoString → Except GoError GoString

variable (lib : MailLib)

/-- `normalizeAddresses`: trimmed, and without the blank ones. -/
def normalizeAddresses (values : List GoString) : List GoString :=
  (values.map trimSpace).filter (· ≠ [])

/-- `parseHeaderAddress`. -/
def parseHeaderAddress (value : GoString) : GoString :=
  if trimSpace value = [] then []
  else
    match lib.parseAddress (trimSpace value) with
    | .error _ => []
    | .ok address => trimSpace address

/-- `parseHeaderAddressList`. -/
def parseHeaderAddressList (value : GoString) : List GoString :=
  if trimSpace value = [] then []
  else
    match lib.parseAddressList (trimSpace value) with
    | .error _ => []
    | .ok addrs => normalizeAddresses addrs

/-- `decodeHeader`. -/
def decodeHeader (v : GoString) : GoString :=
  if trimSpace v = [] then []
  else
    match lib.decodeWords (trimSpace v) with
    | .error _ => trimSpace v
    | .ok decoded => decoded

section Tables

variable [Unicode]

/-- `decodeTransferEncoding`. -/
def decodeTransferEncoding (encoding data : GoString) : Except GoError GoString :=
  let e := toLower (trimSpace encoding)
  if e = lit "base64" then
    (lib.decodeBase64 (data.filter fun b => b ≠ 0x0A && b ≠ 0x0D)).mapError
      (.wrap (lit "decode base64 mime part: "))
  else if e = lit "quoted-printable" then
    (lib.decodeQuotedPrintable data).mapError
      (.wrap (lit "decode quoted-printable mime part: "))
  else .ok data

/-- A body text after a further part: the first one as it is, each later one on a new line. -/
def joinBody (body decoded : GoString) : GoString :=
  if body = [] then decoded else body ++ lit "\n" ++ decoded

/-- `strings.HasPrefix(strings.ToLower(mediaType), "multipart/")`. -/
def isMultipart (mediaType : GoString) : Bool :=
  (lit "multipart/").isPrefixOf (toLower mediaType)

/-- Where a decoded part goes: to the attachments, to one of the two bodies, or nowhere. -/
def placePart (mediaType disposition filename decoded : GoString) (out : Message) : Message :=
  if equalFold disposition (lit "attachment") || filename ≠ [] then
    { out with attachments := out.attachments ++
        [⟨filename, if mediaType = [] then lit "application/octet-stream" else mediaType, decoded⟩] }
  else if equalFold mediaType (lit "text/plain") then
    { out with textBody := joinBody out.textBody decoded }
  else if equalFold mediaType (lit "text/html") then
    { out with htmlBody := joinBody out.htmlBody decoded }
  else out

/-- The loop body of `parseMultipart` for a part that is not itself multipart. -/
def parseLeaf (part : Part) (mediaType : GoString) (out : Message) : Except GoError Message := do
  let partBytes ← part.body.readAll.mapError (.wrap (lit "read mime part body: "))
  let decoded ← decodeTransferEncoding lib (part.header (lit "Content-Transfer-Encoding")) partBytes
  let disposition := lib.parseMediaType (part.header (lit "Content-Disposition"))
  let filename :=
    if trimSpace part.fileName = [] then trimSpace (disposition.params (lit "filename"))
    else trimSpace part.fileName
  return placePart mediaType disposition.mediaType filename decoded out

/-- The loop body of `parseMultipart`; `nested` is the call for a part that is multipart. -/
def parsePart (nested : GoString → Message → Except GoError Message) (part : Part)
    (out : Message) : Except GoError Message :=
  let mt := lib.parseMediaType (part.header (lit "Content-Type"))
  let mediaType := mt.typeOr (lit "application/octet-stream")
  if isMultipart mediaType then
    if mt.params (lit "boundary") = [] then .ok out
    else nested (mt.params (lit "boundary")) out
  else parseLeaf lib part mediaType out

/-- `parseMultipart`: every part in turn, nested ones by recursion, then the reader's error. -/
def parseMultipart (boundary : GoString) (r : Reader) (out : Message) : Except GoError Message := do
  let out ← (lib.parts boundary r).1.attach.foldlM
    (fun out p => parsePart lib (fun b o => parseMultipart b p.1.body o) p.1 out) out
  match (lib.parts boundary r).2 with
  | none => return out
  | some e => .error (.wrap (lit "read mime part: ") e)
termination_by r.data.length
decreasing_by exact lib.parts_shorter boundary r p.1 p.2

/-- The walk without the bookkeeping of its termination. -/
theorem parseMultipart_eq (boundary : GoString) (r : Reader) (out : Message) :
    parseMultipart lib boundary r out = (do
      let out ← (lib.parts boundary r).1.foldlM
        (fun o p => parsePart lib (fun b o => parseMultipart lib b p.body o) p o) out
      match (lib.parts boundary r).2 with
      | none => return out
      | some e => .error (.wrap (lit "read mime part: ") e)) := by
  have hattach : ∀ (g : Message → Part → Except GoError Message) (l : List Part),
      l.attach.foldlM (fun o p => g o p.1) out = l.foldlM g out := by
    intro g l
    rw [← List.foldlM_map, List.attach_map_subtype_val]
  rw [parseMultipart]
  exact congrArg (· >>= _)
    (hattach (fun o p => parsePart lib (fun b o => parseMultipart lib b p.body o) p o) _)

/-- `ParseMessage`. -/
def parseMessage (r : Reader) (envelopeFrom : GoString) (envelopeTo : List GoString) :
    Except GoError Message := do
  let (header, body) ← (lib.readMessage r).mapError (.wrap (lit "read smtp message: "))
  let result : Message := {
    envelopeFrom := trimSpace envelopeFrom
    headerFrom := parseHeaderAddress lib (header (lit "From"))
    replyTo := parseHeaderAddressList lib (header (lit "Reply-To"))
    toAddrs := normalizeAddresses envelopeTo
    subject := decodeHeader lib (header (lit "Subject"))
    textBody := []
    htmlBody := []
    attachments := [] }
  let mt := lib.parseMediaType (header (lit "Content-Type"))
  let mediaType := mt.typeOr (lit "text/plain")
  if isMultipart mediaType then
    failIf (mt.params (lit "boundary") = []) (.errorf "multipart message missing boundary")
    parseMultipart lib (mt.params (lit "boundary")) body result
  else
    let bodyBytes ← body.readAll.mapError (.wrap (lit "read message body: "))
    let decodedBody ← decodeTransferEncoding lib (header (lit "Content-Transfer-Encoding")) bodyBytes
    if equalFold mediaType (lit "text/html") then return { result with htmlBody := decodedBody }
    else return { result with textBody := decodedBody }

end Tables

/-! ## No part touches the envelope -/

/-- Two messages with the same envelope. -/
def SameEnvelope (a b : Message) : Prop := b.envelopeFrom = a.envelopeFrom ∧ b.toAddrs = a.toAddrs

theorem SameEnvelope.refl (a : Message) : SameEnvelope a a := ⟨rfl, rfl⟩

theorem SameEnvelope.trans {a b c : Message} (h : SameEnvelope a b) (h' : SameEnvelope b c) :
    SameEnvelope a c :=
  ⟨h'.1.trans h.1, h'.2.trans h.2⟩

theorem placePart_envelope (mediaType disposition filename decoded : GoString) (out : Message) :
    SameEnvelope out (placePart mediaType disposition filename decoded out) := by
  unfold placePart
  split
  · exact ⟨rfl, rfl⟩
  · split
    · exact ⟨rfl, rfl⟩
    · split
      · exact ⟨rfl, rfl⟩
      · exact .refl _

variable {lib} [Unicode]

theorem parseLeaf_envelope {part : Part} {mediaType : GoString} {out out' : Message}
    (h : parseLeaf lib part mediaType out = .ok out') : SameEnvelope out out' := by
  obtain ⟨bytes, -, h⟩ := bind_eq_ok.mp h
  obtain ⟨decoded, -, h⟩ := bind_eq_ok.mp h
  cases h
  exact placePart_envelope ..

theorem parsePart_envelope {nested : GoString → Message → Except GoError Message} {part : Part}
    (hnested : ∀ b o o', nested b o = .ok o' → SameEnvelope o o') {out out' : Message}
    (h : parsePart lib nested part out = .ok out') : SameEnvelope out out' := by
  unfold parsePart at h
  dsimp only at h
  split at h
  · split at h
    · cases h
      exact .refl _
    · exact hnested _ _ _ h
  · exact parseLeaf_envelope h

omit [Unicode] in
/-- A fold over parts keeps the envelope when each part does. -/
theorem foldlM_envelope {α : Type} (f : Message → α → Except GoError Message)
    (hf : ∀ a o o', f o a = .ok o' → SameEnvelope o o') :
    ∀ (l : List α) (o o' : Message), l.foldlM f o = .ok o' → SameEnvelope o o'
  | [], o, o', h => by
    cases h
    exact .refl _
  | a :: l, o, o', h => by
    rw [List.foldlM_cons] at h
    obtain ⟨o1, h1, h2⟩ := bind_eq_ok.mp h
    exact (hf a o o1 h1).trans (foldlM_envelope f hf l o1 o' h2)

theorem parseMultipart_envelope (boundary : GoString) (r : Reader) (out out' : Message)
    (h : parseMultipart lib boundary r out = .ok out') : SameEnvelope out out' := by
  -- by induction on the length of the body: a nested part is shorter
  induction hn : r.data.length using Nat.strong_induction_on generalizing boundary r out out' with
  | _ n ih =>
    rw [parseMultipart] at h
    obtain ⟨o1, h1, h2⟩ := bind_eq_ok.mp h
    have hfold : SameEnvelope out o1 := by
      refine foldlM_envelope _ (fun p o o' hp => parsePart_envelope (fun b o o' hb => ?_) hp) _ _ _ h1
      exact ih _ (hn ▸ lib.parts_shorter boundary r p.1 p.2) b p.1.body o o' hb rfl
    split at h2
    · cases h2
      exact hfold
    · nomatch h2

/-- **The envelope of a parsed message is the session's, trimmed.** -/
theorem parseMessage_envelope {r : Reader} {envelopeFrom : GoString} {envelopeTo : List GoString}
    {msg : Message} (h : parseMessage lib r envelopeFrom envelopeTo = .ok msg) :
    msg.envelopeFrom = trimSpace envelopeFrom ∧ msg.toAddrs = normalizeAddresses envelopeTo := by
  obtain ⟨⟨header, body⟩, -, h⟩ := bind_eq_ok.mp h
  dsimp only at h
  split at h
  · obtain ⟨-, h⟩ := failIf_bind_eq_ok.mp h
    exact parseMultipart_envelope _ _ _ _ h
  · obtain ⟨bytes, -, h⟩ := bind_eq_ok.mp h
    obtain ⟨decoded, -, h⟩ := bind_eq_ok.mp h
    split at h
    · cases h
      exact ⟨rfl, rfl⟩
    · cases h
      exact ⟨rfl, rfl⟩

end SmtpCloudRelay.Smtp
