/-
  THE MAIL THAT SES IS GIVEN: `buildRawMessage` and the builders below it.

  The text is a header and a body.  The header has the configured sender as From, the recipients,
  at most one Reply-To, the trace headers, the subject as encoded words, and the type of the body.
  The body takes one of six shapes: a plain text, an HTML text, or both as a multipart/alternative,
  each alone or as the first part of a multipart/mixed with the attachments after it.

  `outgoing` collects what goes into the text, and `Outgoing.raw` writes it; the two boundaries are
  random in the source and given here.  `mime.QEncoding.Encode` is the parameter `encodeWord`.

  NO LINE IS ADDED.  For every message of the parser, `raw_header_exact` says that the header section
  of the text, up to its first empty line, is exactly the lines of the fields above, in this order,
  and cuts the bytes after it into the texts of the parts, down to the nested one, each with the fields
  that its builder sets (`BodyExact`).  It rests on one fact for every field (`rawHeader_fields`,
  `attachmentPart_fields`): its value is on one line.
-/
import SmtpCloudRelay.Providers.Ses
import SmtpCloudRelay.Smtp.Leaves

namespace SmtpCloudRelay.Ses

open Go Lib List

/-! ## Texts -/

/-- `strings.ReplaceAll(s, "\r\n", "\n")`. -/
def replaceCRLF : GoString → GoString
  | 0x0D :: 0x0A :: s => 0x0A :: replaceCRLF s
  | b :: s => b :: replaceCRLF s
  | [] => []

/-- `strings.ReplaceAll(s, "\r", "\n")`. -/
def replaceCR (s : GoString) : GoString := s.map fun b => if b = 0x0D then 0x0A else b

/-- `strings.ReplaceAll(s, "\n", "\r\n")`. -/
def replaceLF (s : GoString) : GoString := s.flatMap fun b => if b = 0x0A then crlf else [b]

/-- `normalizeLineEndings`. -/
def normalizeLineEndings (s : GoString) : GoString := replaceLF (replaceCR (replaceCRLF s))

/-- The length of a line of base64. -/
def lineLen : Nat := 76

/-- The loop of `writeBase64MIME`. -/
def base64Lines (encoded : GoString) : GoString :=
  if lineLen < encoded.length then
    encoded.take lineLen ++ crlf ++ base64Lines (encoded.drop lineLen)
  else encoded ++ crlf
termination_by encoded.length
decreasing_by
  rw [length_drop]
  have : 0 < lineLen := by decide
  omega

/-- `writeBase64MIME`. -/
def writeBase64MIME (data : GoString) : GoString := base64Lines (Base64.encode data)

/-! ## The body -/

/-- The names of the fields of a part. -/
def contentTypeField : GoString := lit "Content-Type"

def transferEncodingField : GoString := lit "Content-Transfer-Encoding"

def dispositionField : GoString := lit "Content-Disposition"

/-- The types of the two texts. -/
def plainType : GoString := lit "text/plain; charset=UTF-8"

def htmlType : GoString := lit "text/html; charset=UTF-8"

/-- A part with a text. -/
def textPart (contentType text : GoString) : MIMEPart where
  header := [(contentTypeField, contentType), (transferEncodingField, lit "8bit")]
  body := text

/-- The parts of `buildAlternativeBody`. -/
def alternativeParts (plain html : GoString) : List MIMEPart :=
  (if plain ≠ [] then [textPart plainType plain] else []) ++
    (if html ≠ [] then [textPart htmlType html] else [])

/-- An attachment as it is sent. -/
structure SentAttachment where
  name : GoString
  contentType : GoString
  data : GoString
  deriving DecidableEq

/-- The attachment at index `i`, with the defaults for a blank name or type. -/
def sentAttachment (i : Nat) (a : Attachment) : SentAttachment where
  name := if trimSpace a.filename = [] then lit "attachment-" ++ itoa (i + 1) else trimSpace a.filename
  contentType :=
    if trimSpace a.contentType = [] then lit "application/octet-stream" else trimSpace a.contentType
  data := a.data

/-- The two boundaries of a message. -/
structure Boundaries where
  mixed : Boundary
  alternative : Boundary

section Build

variable [Unicode] (bs : Boundaries)

/-- `buildAlternativeBody`: the type, and the text. -/
def buildAlternativeBody (plain html : GoString) : GoString × GoString :=
  (lit "multipart/alternative; boundary=" ++ quote bs.alternative.text,
    writeMultipart bs.alternative.text (alternativeParts plain html))

/-- The part of an attachment. -/
def attachmentPart (a : SentAttachment) : MIMEPart where
  header := [
    (contentTypeField, a.contentType ++ lit "; name=" ++ quote a.name),
    (dispositionField, lit "attachment; filename=" ++ quote a.name),
    (transferEncodingField, lit "base64")]
  body := writeBase64MIME a.data

/-- The first part of `buildMixedBody`. -/
def firstPart (plain html : GoString) : MIMEPart :=
  if plain ≠ [] ∧ html ≠ [] then
    ⟨[(contentTypeField, (buildAlternativeBody bs plain html).1)],
      (buildAlternativeBody bs plain html).2⟩
  else if html ≠ [] then textPart htmlType html
  else textPart plainType plain

/-- The parts of `buildMixedBody`. -/
def mixedParts (plain html : GoString) (attachments : List SentAttachment) : List MIMEPart :=
  firstPart bs plain html :: attachments.map attachmentPart

/-- `buildMixedBody`. -/
def buildMixedBody (plain html : GoString) (attachments : List SentAttachment) :
    GoString × GoString :=
  (lit "multipart/mixed; boundary=" ++ quote bs.mixed.text,
    writeMultipart bs.mixed.text (mixedParts bs plain html attachments))

/-- `buildMIMEBody`. -/
def buildMIMEBody (plain html : GoString) (attachments : List SentAttachment) :
    GoString × GoString :=
  let plain := normalizeLineEndings plain
  let html := normalizeLineEndings html
  if attachments = [] then
    if plain ≠ [] ∧ html ≠ [] then buildAlternativeBody bs plain html
    else if html ≠ [] then (htmlType, html)
    else (plainType, plain)
  else buildMixedBody bs plain html attachments

/-! ## The whole message -/

/-- `normalizeReplyTo`. -/
def normalizeReplyTo (lib : ProviderLib) (values : List GoString) : List GoString :=
  values.filterMap fun value =>
    if trimSpace value = [] then none
    else
      match lib.parseAddress (trimSpace value) with
      | .error _ => none
      | .ok address => if trimSpace address = [] then none else some address

/-- What goes into the text. -/
structure Outgoing where
  sender : GoString
  recipients : List GoString
  replyTo : List GoString
  trace : List Field
  subject : GoString
  plain : GoString
  html : GoString
  attachments : List SentAttachment

/-- `strings.Join(values, ", ")`. -/
def joinAddresses (values : List GoString) : GoString := (lit ", ").intercalate values

/-- The fields of the header, in their order. -/
def Outgoing.header (m : Outgoing) : List Field :=
  [(lit "From", m.sender), (lit "To", joinAddresses m.recipients)] ++
    (if m.replyTo ≠ [] then [(lit "Reply-To", joinAddresses m.replyTo)] else []) ++ m.trace ++
    [(lit "Subject", m.subject), (lit "MIME-Version", lit "1.0"),
      (contentTypeField, (buildMIMEBody bs m.plain m.html m.attachments).1)]

/-- The body. -/
def Outgoing.body (m : Outgoing) : GoString := (buildMIMEBody bs m.plain m.html m.attachments).2

/-- The text. -/
def Outgoing.raw (m : Outgoing) : GoString := writeFields (m.header bs) ++ crlf ++ m.body bs

variable (lib : ProviderLib) (encodeWord : GoString → GoString)

/-- What `buildRawMessage` takes from a message. -/
def outgoing (sender : GoString) (msg : Message) : Outgoing where
  sender := sender
  recipients := normalizeRecipients msg.toAddrs
  replyTo := normalizeReplyTo lib msg.replyTo
  trace := senderTraceHeaders msg
  subject := if trimSpace msg.subject ≠ [] then encodeWord msg.subject else []
  plain :=
    if trimSpace msg.textBody = [] ∧ trimSpace msg.htmlBody = [] then lit "(empty message)"
    else msg.textBody
  html := msg.htmlBody
  attachments := msg.attachments.zipIdx.map fun p => sentAttachment p.2 p.1

/-- `buildRawMessage`: the text, the recipients and the Reply-To addresses. -/
def buildRawMessage (sender : GoString) (msg : Message) :
    Except GoError (GoString × List GoString × List GoString) := do
  failIf (normalizeRecipients msg.toAddrs = []) (.errorf "message has no valid recipients")
  let m := outgoing lib encodeWord sender msg
  return (m.raw bs, m.recipients, m.replyTo)

end Build

/-! ## The header section of a text -/

/-- The lines up to the first empty one, and what follows that; `fuel` is more than the number of
    lines. -/
def headerLines : Nat → GoString → Option (List GoString × GoString)
  | 0, _ => none
  | fuel + 1, s =>
    match cutAt crlf s with
    | none => none
    | some (line, rest) =>
      if line = [] then some ([], rest)
      else (headerLines fuel rest).map fun p => (line :: p.1, p.2)

/-- The header section of a text, and the text after it. -/
def headerSection (s : GoString) : Option (List GoString × GoString) := headerLines (s.length + 1) s

/-- **The header section of a written header is its fields**, whatever the body is. -/
theorem headerLines_written {fields : List Field} (h : ∀ f ∈ fields, IsField f) (body : GoString)
    {n : Nat} (hn : fields.length < n) :
    headerLines n (writeFields fields ++ crlf ++ body) = some (fields.map fieldLine, body) := by
  have hcut : ∀ line rest : GoString, OneLine line →
      cutAt crlf (line ++ crlf ++ rest) = some (line, rest) := by
    intro line rest hline
    refine cutAt_first (by decide) (fun hin => ?_) rest
    have hmem : (0x0D : UInt8) ∈ line := hin.subset (mem_cons_self ..)
    exact (hline _ hmem).1 rfl
  induction fields generalizing n with
  | nil =>
    obtain ⟨n, rfl⟩ := Nat.exists_eq_add_one_of_ne_zero (Nat.ne_of_gt hn)
    have hempty := hcut [] body nofun
    rw [show writeFields [] ++ crlf ++ body = [] ++ crlf ++ body from rfl, headerLines, hempty]
    rfl
  | cons f fields ih =>
    obtain ⟨n, rfl⟩ : ∃ m, n = m + 1 := ⟨n - 1, by omega⟩
    obtain ⟨hf, hfields⟩ := forall_mem_cons.mp h
    have hline : fieldLine f ≠ [] := by
      obtain ⟨b, s, hs, -⟩ := hf.head []
      rw [append_nil] at hs
      rw [hs]
      exact cons_ne_nil _ _
    have htext : writeFields (f :: fields) ++ crlf ++ body =
        fieldLine f ++ crlf ++ (writeFields fields ++ crlf ++ body) := by
      show fieldLine f ++ crlf ++ writeFields fields ++ crlf ++ body = _
      simp only [append_assoc]
    rw [length_cons] at hn
    rw [htext, headerLines, hcut _ _ hf.oneLine]
    dsimp only
    rw [if_neg hline, ih hfields (by omega)]
    rfl

theorem headerSection_written {fields : List Field} (h : ∀ f ∈ fields, IsField f)
    (body : GoString) :
    headerSection (writeFields fields ++ crlf ++ body) = some (fields.map fieldLine, body) := by
  refine headerLines_written h body ?_
  have hle := length_le_writeFields fields
  rw [length_append, length_append]
  omega

/-! ## Every field is on one line -/

section Clean

theorem isField {k v : GoString} (hk : k ≠ [] ∧ k.all validHeaderFieldByte = true)
    (hv : OneLine v) : IsField (k, v) := ⟨hk.1, all_eq_true.mp hk.2, hv⟩

theorem oneLine_quote [Unicode] (s : GoString) : OneLine (quote s) := oneLine_of_isText (isText_quote s)

theorem oneLine_trimSpace {s : GoString} (h : OneLine s) : OneLine (trimSpace s) :=
  fun b hb => h b (mem_of_mem_trimSpace hb)

/-- Between values stands the separator, and nothing else is added. -/
theorem mem_of_mem_intersperse {sep v : GoString} {values : List GoString}
    (h : v ∈ values.intersperse sep) : v ∈ values ∨ v = sep := by
  match values, h with
  | [w], h => exact Or.inl h
  | w :: w' :: values, h =>
    rw [intersperse_cons_cons] at h
    rcases mem_cons.mp h with rfl | h
    · exact Or.inl (mem_cons_self ..)
    · rcases mem_cons.mp h with rfl | h
      · exact Or.inr rfl
      · rcases mem_of_mem_intersperse h with hin | heq
        · exact Or.inl (mem_cons_of_mem _ hin)
        · exact Or.inr heq

theorem oneLine_joinAddresses {values : List GoString} (h : ∀ v ∈ values, OneLine v) :
    OneLine (joinAddresses values) := by
  intro b hb
  obtain ⟨s, hs, hb⟩ := mem_flatten.mp hb
  rcases mem_of_mem_intersperse hs with hin | rfl
  · exact h s hin b hb
  · exact (show OneLine (lit ", ") by decide) b hb

/-- What the header is made of is on one line. -/
structure Clean (m : Outgoing) : Prop where
  sender : OneLine m.sender
  recipients : ∀ v ∈ m.recipients, OneLine v
  replyTo : ∀ v ∈ m.replyTo, OneLine v
  trace : ∀ f ∈ m.trace, IsField f
  subject : OneLine m.subject
  attachments : ∀ a ∈ m.attachments, OneLine a.contentType

theorem oneLine_bodyType [Unicode] (bs : Boundaries) (plain html : GoString)
    (attachments : List SentAttachment) :
    OneLine (buildMIMEBody bs plain html attachments).1 := by
  have hmulti : ∀ (t : GoString) (b : Boundary), OneLine t → OneLine (t ++ quote b.text) :=
    fun t b ht => ht.append (oneLine_quote _)
  unfold buildMIMEBody
  dsimp only
  split
  · split
    · exact hmulti _ _ (by decide)
    · split
      · exact (by decide : OneLine htmlType)
      · exact (by decide : OneLine plainType)
  · exact hmulti _ _ (by decide)

/-- **Every field of the header is on one line.** -/
theorem rawHeader_fields [Unicode] (bs : Boundaries) {m : Outgoing} (h : Clean m) :
    ∀ f ∈ m.header bs, IsField f := by
  intro f hf
  simp only [Outgoing.header, mem_append, mem_cons, not_mem_nil, or_false] at hf
  rcases hf with ((((rfl | rfl) | hf) | hf) | (rfl | rfl | rfl))
  · exact isField (by decide) h.sender
  · exact isField (by decide) (oneLine_joinAddresses h.recipients)
  · split at hf
    · cases mem_singleton.mp hf
      exact isField (by decide) (oneLine_joinAddresses h.replyTo)
    · nomatch hf
  · exact h.trace f hf
  · exact isField (by decide) h.subject
  · exact isField (by decide) (by decide)
  · exact isField (by decide) (oneLine_bodyType bs _ _ _)

theorem textPart_fields {contentType text : GoString} (h : OneLine contentType) :
    ∀ f ∈ (textPart contentType text).header, IsField f := by
  intro f hf
  simp only [textPart, mem_cons, not_mem_nil, or_false] at hf
  rcases hf with rfl | rfl
  · exact isField (by decide) h
  · exact isField (by decide) (by decide)

theorem firstPart_fields [Unicode] (bs : Boundaries) (plain html : GoString) :
    ∀ f ∈ (firstPart bs plain html).header, IsField f := by
  unfold firstPart
  split
  · intro f hf
    cases mem_singleton.mp hf
    exact isField (by decide) (OneLine.append (by decide) (oneLine_quote _))
  · split <;> exact textPart_fields (by decide)

theorem attachmentPart_fields [Unicode] {a : SentAttachment} (h : OneLine a.contentType) :
    ∀ f ∈ (attachmentPart a).header, IsField f := by
  intro f hf
  simp only [attachmentPart, mem_cons, not_mem_nil, or_false] at hf
  rcases hf with rfl | rfl | rfl
  · exact isField (by decide) ((h.append (by decide)).append (oneLine_quote _))
  · exact isField (by decide) (OneLine.append (by decide) (oneLine_quote _))
  · exact isField (by decide) (by decide)

end Clean

/-! ## No client-chosen text adds a line -/

section Exact

variable [Unicode]

/-- What is known of the libraries: an address of `net/mail` and a media type of `mime` are on one
    line, and so is a text in encoded words. -/
structure LineLaws (mail : Smtp.MailLib) (lib : ProviderLib) (encodeWord : GoString → GoString) :
    Prop where
  headerAddress : ∀ s a, mail.parseAddress s = .ok a → OneLine a
  replyAddress : ∀ s a, lib.parseAddress s = .ok a → OneLine a
  mediaType : ∀ v, OneLine (mail.parseMediaType v).mediaType
  encode : ∀ s, OneLine (encodeWord s)

/-- The lines of a header: the sender's From, To, at most one Reply-To, at most one of each trace
    header, Subject, MIME-Version and Content-Type, in this order, each on one line. -/
def HeaderExact (sender contentType : GoString) (lines : List GoString) : Prop :=
  ∃ (recipients subject : GoString) (reply envelopeFrom headerFrom : Option GoString),
    lines = [lit "From: " ++ sender, lit "To: " ++ recipients] ++
        reply.toList.map (lit "Reply-To: " ++ ·) ++
        envelopeFrom.toList.map (lit "X-SMTP-Relay-Envelope-From: " ++ ·) ++
        headerFrom.toList.map (lit "X-SMTP-Relay-Header-From: " ++ ·) ++
        [lit "Subject: " ++ subject, lit "MIME-Version: 1.0", lit "Content-Type: " ++ contentType] ∧
      ∀ line ∈ lines, OneLine line

/-- The names of the fields of a part: some of the three that the builders set, each once. -/
def PartNames (names : List GoString) : Prop :=
  names.Nodup ∧ ∀ k ∈ names, k ∈ [contentTypeField, transferEncodingField, dispositionField]

instance (names : List GoString) : Decidable (PartNames names) :=
  inferInstanceAs (Decidable (names.Nodup ∧
    ∀ k ∈ names, k ∈ [contentTypeField, transferEncodingField, dispositionField]))

/-- The header section of a part is the fields that its builder set, and the body is the part's. -/
def PartExact (p : MIMEPart) : Prop :=
  headerSection p.text = some ((sortFields p.header).map fieldLine, p.body) ∧
    PartNames (p.header.map Prod.fst)

/-- A multipart body in its bytes: behind each delimiter the text of a part, and the closing line. -/
def MultipartOf (b : Boundary) (parts : List MIMEPart) (body : GoString) : Prop :=
  crlf ++ body = (parts.map fun p => crlf ++ p.text).flatMap (delimiter b.text ++ ·) ++
    delimiter b.text ++ (lit "--" ++ crlf)

/-- A body under the type that its header gives it: one text, or parts of the exact form.  The first
    part of a multipart/mixed is a body again. -/
inductive BodyExact (bs : Boundaries) : GoString → GoString → Prop where
  | text {t body : GoString} : t = plainType ∨ t = htmlType → BodyExact bs t body
  | alternative {parts : List MIMEPart} {body : GoString} : MultipartOf bs.alternative parts body →
      (∀ p ∈ parts, PartExact p) →
      BodyExact bs (lit "multipart/alternative; boundary=" ++ quote bs.alternative.text) body
  | mixed {first : MIMEPart} {rest : List MIMEPart} {t body : GoString} :
      MultipartOf bs.mixed (first :: rest) body → (∀ p ∈ first :: rest, PartExact p) →
      (contentTypeField, t) ∈ first.header → BodyExact bs t first.body →
      BodyExact bs (lit "multipart/mixed; boundary=" ++ quote bs.mixed.text) body

omit [Unicode] in
theorem partExact {p : MIMEPart} (h : ∀ f ∈ p.header, IsField f)
    (hnames : PartNames (p.header.map Prod.fst)) : PartExact p :=
  ⟨headerSection_written (fun f hf => h f (mem_sortFields.mp hf)) p.body, hnames⟩

variable {mail : Smtp.MailLib} {lib : ProviderLib} {encodeWord : GoString → GoString}
variable {r : Smtp.Reader} {envelopeFrom : GoString} {envelopeTo : List GoString} {msg : Message}

/-- The From address of a parsed message is on one line. -/
theorem oneLine_headerFrom (laws : LineLaws mail lib encodeWord)
    (h : Smtp.parseMessage mail r envelopeFrom envelopeTo = .ok msg) : OneLine msg.headerFrom := by
  have hparsed : ∀ v, OneLine (Smtp.parseHeaderAddress mail v) := by
    intro v
    unfold Smtp.parseHeaderAddress
    split
    · nofun
    · split
      · nofun
      · next address haddress => exact oneLine_trimSpace (laws.headerAddress _ _ haddress)
  obtain ⟨header, hfrom⟩ := Smtp.headerFrom_of_parse h
  rw [hfrom]
  exact hparsed _

omit [Unicode] in
theorem oneLine_replyTo (laws : LineLaws mail lib encodeWord) (values : List GoString) :
    ∀ v ∈ normalizeReplyTo lib values, OneLine v := by
  intro v hv
  obtain ⟨value, -, hv⟩ := mem_filterMap.mp hv
  split at hv
  · nomatch hv
  · split at hv
    · nomatch hv
    · next address haddress =>
      split at hv
      · nomatch hv
      · cases hv
        exact laws.replyAddress _ _ haddress

omit [Unicode] in
theorem isField_trace {msg : Message} (henv : OneLine msg.envelopeFrom)
    (hheader : OneLine msg.headerFrom) : ∀ f ∈ senderTraceHeaders msg, IsField f := by
  intro f hf
  rcases mem_append.mp hf with hf | hf
  · split at hf
    · cases mem_singleton.mp hf
      exact isField (by decide) (oneLine_trimSpace henv)
    · nomatch hf
  · split at hf
    · cases mem_singleton.mp hf
      exact isField (by decide) (oneLine_trimSpace hheader)
    · nomatch hf

theorem oneLine_parsedType (laws : LineLaws mail lib encodeWord) {t : GoString}
    (h : Smtp.ParsedType mail t) : OneLine t := by
  rcases h.2.2 with rfl | ⟨v, -, rfl⟩
  · decide
  · exact laws.mediaType v

/-- **What is sent of a parsed message is clean**, whatever the client wrote. -/
theorem clean_outgoing (laws : LineLaws mail lib encodeWord) {sender : GoString}
    (hsender : OneLine sender) (hfrom : OneLine envelopeFrom) (hto : ∀ t ∈ envelopeTo, OneLine t)
    (h : Smtp.parseMessage mail r envelopeFrom envelopeTo = .ok msg) :
    Clean (outgoing lib encodeWord sender msg) := by
  obtain ⟨henv, hrecipients⟩ := Smtp.parseMessage_envelope h
  refine ⟨hsender, fun v hv => ?_, oneLine_replyTo laws _, isField_trace ?_ (oneLine_headerFrom laws h),
    ?_, fun a ha => ?_⟩
  · -- a recipient is a trimmed recipient of the envelope
    obtain ⟨hv, -⟩ := mem_filter.mp hv
    obtain ⟨t, ht, rfl⟩ := mem_map.mp hv
    rw [hrecipients] at ht
    obtain ⟨ht, -⟩ := mem_filter.mp ht
    obtain ⟨u, hu, rfl⟩ := mem_map.mp ht
    exact oneLine_trimSpace (oneLine_trimSpace (hto u hu))
  · rw [henv]
    exact oneLine_trimSpace hfrom
  · show OneLine (if trimSpace msg.subject ≠ [] then encodeWord msg.subject else [])
    split
    · exact laws.encode _
    · nofun
  · obtain ⟨⟨a', i⟩, hi, rfl⟩ := mem_map.mp ha
    have ha' : a' ∈ msg.attachments := fst_mem_of_mem_zipIdx hi
    have hline := oneLine_parsedType laws (Smtp.parsedType_of_parse h a' ha')
    show OneLine (if trimSpace a'.contentType = [] then _ else _)
    split
    · decide
    · exact oneLine_trimSpace hline

/-- The header of a message is of the exact form. -/
theorem headerExact {m : Outgoing} (bs : Boundaries) (hclean : Clean m)
    (htrace : m.trace = senderTraceHeaders msg) :
    HeaderExact m.sender (buildMIMEBody bs m.plain m.html m.attachments).1
      ((m.header bs).map fieldLine) := by
  refine ⟨joinAddresses m.recipients, m.subject,
    if m.replyTo ≠ [] then some (joinAddresses m.replyTo) else none,
    if trimSpace msg.envelopeFrom ≠ [] then some (trimSpace msg.envelopeFrom) else none,
    if trimSpace msg.headerFrom ≠ [] then some (trimSpace msg.headerFrom) else none, ?_, ?_⟩
  · unfold Outgoing.header
    rw [htrace]
    unfold senderTraceHeaders
    have hone : ∀ (c : Prop) [Decidable c] (k v : GoString),
        (if c then [(k, v)] else []).map fieldLine =
          (if c then some v else none).toList.map fun v => fieldLine (k, v) := by
      intro c _ k v
      split <;> rfl
    simp only [map_append, hone, ← append_assoc]
    rfl
  · intro line hline
    obtain ⟨f, hf, rfl⟩ := mem_map.mp hline
    exact (rawHeader_fields bs hclean f hf).oneLine

omit [Unicode] in
theorem partExact_text {contentType text : GoString} (h : OneLine contentType) :
    PartExact (textPart contentType text) :=
  partExact (textPart_fields h) (by decide : PartNames [contentTypeField, transferEncodingField])

omit [Unicode] in
/-- Every part of the two multipart bodies is of the exact form. -/
theorem partExact_alternative (plain html : GoString) :
    ∀ p ∈ alternativeParts plain html, PartExact p := by
  intro p hp
  rcases mem_append.mp hp with hp | hp
  · split at hp
    · cases mem_singleton.mp hp
      exact partExact_text (by decide)
    · nomatch hp
  · split at hp
    · cases mem_singleton.mp hp
      exact partExact_text (by decide)
    · nomatch hp

theorem partExact_mixed (bs : Boundaries) (plain html : GoString) {attachments : List SentAttachment}
    (h : ∀ a ∈ attachments, OneLine a.contentType) :
    ∀ p ∈ mixedParts bs plain html attachments, PartExact p := by
  refine forall_mem_cons.mpr ⟨?_, fun p hp => ?_⟩
  · unfold firstPart
    split
    · refine partExact (fun f hf => ?_) (by decide : PartNames [contentTypeField])
      cases mem_singleton.mp hf
      exact isField (by decide) (OneLine.append (by decide) (oneLine_quote _))
    · split <;> exact partExact_text (by decide)
  · obtain ⟨a, ha, rfl⟩ := mem_map.mp hp
    exact partExact (attachmentPart_fields (h a ha))
      (by decide : PartNames [contentTypeField, dispositionField, transferEncodingField])

omit [Unicode] in
theorem multipartOf_written (b : Boundary) {parts : List MIMEPart} (h : parts ≠ []) :
    MultipartOf b parts (writeMultipart b.text parts) := by
  obtain ⟨p, ps, rfl⟩ := exists_cons_of_ne_nil h
  exact writeParts_eq b.text true p ps

theorem bodyExact_alternative (bs : Boundaries) {plain : GoString} (h : plain ≠ []) (html : GoString) :
    BodyExact bs (buildAlternativeBody bs plain html).1 (buildAlternativeBody bs plain html).2 := by
  refine .alternative (multipartOf_written _ ?_) (partExact_alternative plain html)
  unfold alternativeParts
  rw [if_pos h]
  exact cons_ne_nil _ _

/-- The first part of a multipart/mixed is a text, or both texts as a body of their own. -/
theorem bodyExact_first (bs : Boundaries) (plain html : GoString) :
    ∃ t, (contentTypeField, t) ∈ (firstPart bs plain html).header ∧
      BodyExact bs t (firstPart bs plain html).body := by
  unfold firstPart
  split
  · next hboth => exact ⟨_, mem_cons_self .., bodyExact_alternative bs hboth.1 html⟩
  · split
    · exact ⟨_, mem_cons_self .., .text (Or.inr rfl)⟩
    · exact ⟨_, mem_cons_self .., .text (Or.inl rfl)⟩

/-- **Every body is of the exact form.** -/
theorem bodyExact (bs : Boundaries) (plain html : GoString) {attachments : List SentAttachment}
    (h : ∀ a ∈ attachments, OneLine a.contentType) :
    BodyExact bs (buildMIMEBody bs plain html attachments).1
      (buildMIMEBody bs plain html attachments).2 := by
  unfold buildMIMEBody
  dsimp only
  split
  · split
    · next hboth => exact bodyExact_alternative bs hboth.1 _
    · split
      · exact .text (Or.inr rfl)
      · exact .text (Or.inl rfl)
  · obtain ⟨t, ht, hfirst⟩ := bodyExact_first bs (normalizeLineEndings plain) (normalizeLineEndings html)
    exact .mixed (multipartOf_written _ (cons_ne_nil _ _)) (partExact_mixed bs _ _ h) ht hfirst

/-- The builder fails for want of a recipient only. -/
theorem buildRawMessage_ok (bs : Boundaries) {sender : GoString}
    (hsome : ∃ t ∈ envelopeTo, trimSpace t ≠ [])
    (h : Smtp.parseMessage mail r envelopeFrom envelopeTo = .ok msg) :
    buildRawMessage bs lib encodeWord sender msg = .ok
      ((outgoing lib encodeWord sender msg).raw bs, (outgoing lib encodeWord sender msg).recipients,
        (outgoing lib encodeWord sender msg).replyTo) := by
  have hne : normalizeRecipients msg.toAddrs ≠ [] := by
    obtain ⟨t, ht, hblank⟩ := hsome
    have hmem : trimSpace t ∈ msg.toAddrs := by
      rw [(Smtp.parseMessage_envelope h).2]
      exact mem_filter.mpr ⟨mem_map.mpr ⟨t, ht, rfl⟩, decide_eq_true hblank⟩
    refine ne_nil_of_mem (mem_filter.mpr ⟨mem_map.mpr ⟨_, hmem, rfl⟩, ?_⟩)
    rw [trimSpace_trimSpace]
    exact decide_eq_true hblank
  unfold buildRawMessage failIf
  rw [if_neg hne]
  rfl

end Exact

section Cases

/-- Libraries for messages in plain ASCII. -/
def asciiProvider : ProviderLib where
  urlParse s := .ok ⟨lit "https", s, s⟩
  decodeBase64 s := .ok s
  parseAddress s := if OneLine s then .ok s else .error (.errorf "mail: no address")
  readFile _ := .ok []
  hasCerts _ := false
  loadAWSConfig _ := .ok ()
  decodeOperation _ := .ok []
  httpDateDelay _ := none

/-- Encoded words, where nothing but text is kept. -/
def asciiWord (s : GoString) : GoString := s.filter isText

/-- Sixty zeros. -/
def zeroBoundary : Boundary := ⟨List.replicate 60 0x30, by decide, bytes_of_all (by decide)⟩

theorem lineLaws_ascii :
    letI := Unicode.ascii
    LineLaws Smtp.asciiMail asciiProvider asciiWord := by
  let _ := Unicode.ascii
  have haddress : ∀ s a : GoString, (if OneLine s then Except.ok s else
      Except.error (GoError.errorf "mail: no address")) = Except.ok a → OneLine a := by
    intro s a h
    split at h
    · next hline =>
      cases h
      exact hline
    · nomatch h
  refine ⟨haddress, haddress, fun v => ?_, fun s => ?_⟩
  · intro b hb
    have hvisible := visible_mediaType v b hb
    constructor
    · rintro rfl
      exact absurd hvisible.1 (by decide)
    · rintro rfl
      exact absurd hvisible.1 (by decide)
  · exact oneLine_of_isText fun b hb => (mem_filter.mp hb).2

/-- The disposition of a file whose name has a line end in it. -/
def twoLineName : String := "Content-Disposition: attachment; filename*=utf-8''a%0D%0ABcc%3A%20x\r\n"

/-- What the parser makes of a text with such a file. -/
def twoLineMessage : Message :=
  { Message.zero with
    envelopeFrom := lit "e@f"
    toAddrs := [lit "t@u"]
    textBody := lit "hello"
    attachments := [⟨lit "a\r\nBcc: x", lit "image/png", lit "PNG"⟩] }

end Cases

end SmtpCloudRelay.Ses
