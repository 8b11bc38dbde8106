/-
  THE STANDARD LIBRARY UNDER THE PARSER.

  `ParseMessage` is modelled over an arbitrary `MailLib`.  Here the readers that work on mail text
  are what the standard library makes them (`Go.Mail`, `Go.MediaType`, `Lib.Base64`):

  * `mail.ReadMessage` reads a header and leaves the body;
  * `mime.ParseMediaType` and `base64.StdEncoding` are the functions themselves;
  * a `multipart.Reader` is only ASSUMED to yield what a `multipart.Writer` wrote, when the boundary
    does not occur in a part.  `Standard lib` says that of `lib`.

  `standardLib` is a library of this kind, with `readMultipart` as its multipart reader; addresses,
  encoded words and quoted-printable text stay parameters of it.
-/
import SmtpCloudRelay.Go.Mail
import SmtpCloudRelay.Lib.Base64
import SmtpCloudRelay.Smtp.Parser

namespace SmtpCloudRelay.Smtp

open Go Lib

variable [Unicode]

/-- `mail.ReadMessage`. -/
def readMessage (r : Reader) : Except GoError ((GoString → GoString) × Reader) :=
  if r.data.head?.any isBlank then
    .error (.new (lit "malformed initial line: " ++ ((readLine r.data).map Prod.fst).getD []))
  else
    match readFields (r.data.length + 1) r.data, r.err with
    | .error e, _ => .error (.new e)
    | .ok (fields, some body), _ => .ok (headerGet fields, ⟨body, r.err⟩)
    | .ok (_, none), some e => .error e
    | .ok (fields, none), none =>
      if fields = [] then .error (.errorf "EOF") else .ok (headerGet fields, ⟨[], none⟩)

/-- `mime.ParseMediaType`. -/
def mediaTypeOf (v : GoString) : MediaType :=
  ⟨(Go.parseMediaType v).mediaType, (Go.parseMediaType v).params,
    (Go.parseMediaType v).err.map .errorf⟩

/-- `base64.StdEncoding.Decode`. -/
def base64Of (s : GoString) : Except GoError GoString :=
  match Base64.decode s with
  | some data => .ok data
  | none => .error (.errorf "illegal base64 data")

/-- `filepath.Base`. -/
def baseName (s : GoString) : GoString :=
  if s = [] then lit "."
  else
    let t := (s.reverse.dropWhile (· = 0x2F)).reverse
    if t = [] then lit "/" else (t.reverse.takeWhile (· ≠ 0x2F)).reverse

/-- `Part.FileName`. -/
def fileNameOf (fields : List Field) : GoString :=
  let filename := (mediaTypeOf (headerGet fields (lit "Content-Disposition"))).params (lit "filename")
  if filename = [] then [] else baseName filename

/-- A part whose body is read as it stands. -/
def partOf (p : ReadPart) : Part := ⟨headerGet p.fields, fileNameOf p.fields, ⟨p.body, none⟩⟩

/-- What a reader finds of a written part. -/
def writtenPart (p : MIMEPart) : Part := partOf ⟨(sortFields p.header).map readBack, p.body⟩

/-- A part that a writer can write and a reader accepts: fields on one line, without control
    characters, and no transfer encoding that a reader undoes by itself. -/
structure WritablePart (p : MIMEPart) : Prop where
  fields : ∀ f ∈ p.header, IsField f
  values : ∀ f ∈ p.header, ∀ b ∈ f.2, isValueByte b = true
  encoding : equalFold (headerGet ((sortFields p.header).map readBack)
    (lit "Content-Transfer-Encoding")) (lit "quoted-printable") = false

/-- **A library with the standard readers.** -/
structure Standard (lib : MailLib) : Prop where
  readMessage : lib.readMessage = readMessage
  parseMediaType : lib.parseMediaType = mediaTypeOf
  decodeBase64 : lib.decodeBase64 = base64Of
  /-- A `multipart.Reader` yields exactly the parts that a `multipart.Writer` with its boundary has
      written, if the boundary occurs in none of them. -/
  parts : ∀ (b : Boundary) (parts : List MIMEPart), parts ≠ [] → (∀ p ∈ parts, WritablePart p) →
    (∀ p ∈ parts, ¬ b.text <:+: p.text) →
    lib.parts b.text ⟨writeMultipart b.text parts, none⟩ = (parts.map writtenPart, none)

/-! ## Such a library exists -/

/-- `Reader.NextPart`: quoted-printable text is decoded on the way, and its field is gone. -/
def nextPart (quotedPrintable : GoString → Except GoError GoString) (p : ReadPart) : Part :=
  if equalFold (headerGet p.fields (lit "Content-Transfer-Encoding")) (lit "quoted-printable") then
    let fields := p.fields.filter fun f => f.1 ≠ lit "Content-Transfer-Encoding"
    match quotedPrintable p.body with
    | .ok data => ⟨headerGet fields, fileNameOf fields, ⟨data, none⟩⟩
    | .error e => ⟨headerGet fields, fileNameOf fields, ⟨[], some e⟩⟩
  else partOf p

/-- The parts of a body, and the error that the reader ends with: that of the body, where the text
    ends too early. -/
def partsOf (quotedPrintable : GoString → Except GoError GoString) (boundary : GoString)
    (r : Reader) : List Part × Option GoError :=
  ((readMultipart boundary r.data).1.map (nextPart quotedPrintable),
    (readMultipart boundary r.data).2.map fun text => r.err.getD (.new text))

theorem nextPart_length {quotedPrintable : GoString → Except GoError GoString}
    (hshort : ∀ s d, quotedPrintable s = .ok d → d.length ≤ s.length) (p : ReadPart) :
    (nextPart quotedPrintable p).body.data.length ≤ p.body.length := by
  unfold nextPart
  split
  · split
    · next data hdata => exact hshort _ _ hdata
    · exact Nat.zero_le _
  · exact Nat.le_refl _

/-- A library with the standard readers. -/
def standardLib (quotedPrintable : GoString → Except GoError GoString)
    (hshort : ∀ s d, quotedPrintable s = .ok d → d.length ≤ s.length)
    (parseAddress : GoString → Except GoError GoString)
    (parseAddressList : GoString → Except GoError (List GoString))
    (decodeWords : GoString → Except GoError GoString) : MailLib where
  readMessage := readMessage
  parseMediaType := mediaTypeOf
  parts := partsOf quotedPrintable
  parts_shorter := by
    intro boundary r p hp
    obtain ⟨q, hq, rfl⟩ := List.mem_map.mp hp
    exact Nat.lt_of_le_of_lt (nextPart_length hshort q) (readMultipart_shorter hq)
  decodeBase64 := base64Of
  decodeQuotedPrintable := quotedPrintable
  parseAddress := parseAddress
  parseAddressList := parseAddressList
  decodeWords := decodeWords

/-- **The assumption on multipart readers can be met.** -/
theorem standard_standardLib {quotedPrintable : GoString → Except GoError GoString}
    {hshort : ∀ s d, quotedPrintable s = .ok d → d.length ≤ s.length}
    {parseAddress : GoString → Except GoError GoString}
    {parseAddressList : GoString → Except GoError (List GoString)}
    {decodeWords : GoString → Except GoError GoString} :
    Standard (standardLib quotedPrintable hshort parseAddress parseAddressList decodeWords) where
  readMessage := rfl
  parseMediaType := rfl
  decodeBase64 := rfl
  parts := by
    intro b parts hne hparts hfree
    have hread := readMultipart_written b hne (fun p hp => (hparts p hp).fields)
      (fun p hp => (hparts p hp).values) hfree
    show ((readMultipart b.text (writeMultipart b.text parts)).1.map _,
      (readMultipart b.text (writeMultipart b.text parts)).2.map _) = _
    rw [hread, List.map_map]
    refine Prod.ext (List.map_congr_left fun p hp => ?_) rfl
    show nextPart quotedPrintable ⟨(sortFields p.header).map readBack, p.body⟩ = writtenPart p
    unfold nextPart
    rw [if_neg (by rw [(hparts p hp).encoding]; decide)]
    rfl

end SmtpCloudRelay.Smtp
