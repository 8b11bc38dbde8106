/-
  THE PARSER INVERTS THE BUILDER.

  What `ses.buildRawMessage` writes of a message, `smtp.ParseMessage` reads back: the two bodies with
  their line ends as CRLF, and the attachments in order, with the same types and the same bytes.

  The proof follows the text from the outside in.  The header is read back field by field, so the
  parser finds the type that the builder wrote (`readMessage_raw`).  A multipart body is read back
  part by part, which is the assumption on multipart readers; and one lemma for each kind of part
  says what the parser does with it (`parsePart_text`, `parsePart_attachment`,
  `parsePart_alternative`).  The six shapes of a body are then sequences of such steps.
-/
import SmtpCloudRelay.Providers.SesMessage

namespace SmtpCloudRelay.Ses

open Go Lib List Smtp

/-! ## Line ends -/

/-- Every line end as CRLF: a CRLF, a lone CR and a lone LF each become one. -/
def canonicalLines : GoString → GoString
  | 0x0D :: 0x0A :: s => crlf ++ canonicalLines s
  | b :: s => (if b = 0x0D ∨ b = 0x0A then crlf else [b]) ++ canonicalLines s
  | [] => []

/-- **The three replacements make every line end a CRLF.** -/
theorem normalizeLineEndings_eq (s : GoString) : normalizeLineEndings s = canonicalLines s := by
  have hcons : ∀ (b : UInt8) (t : GoString), replaceLF (replaceCR (b :: t)) =
      (if b = 0x0D ∨ b = 0x0A then crlf else [b]) ++ replaceLF (replaceCR t) := by
    intro b t
    show (if (if b = 0x0D then 0x0A else b) = 0x0A then crlf else [if b = 0x0D then 0x0A else b]) ++ _
      = _
    by_cases hcr : b = 0x0D
    · rw [if_pos hcr, if_pos rfl, if_pos (Or.inl hcr)]
      rfl
    · rw [if_neg hcr]
      by_cases hlf : b = 0x0A
      · rw [if_pos hlf, if_pos (Or.inr hlf)]
        rfl
      · rw [if_neg hlf, if_neg (by simp [hcr, hlf])]
        rfl
  unfold normalizeLineEndings
  fun_induction canonicalLines s with
  | case1 s ih =>
    rw [replaceCRLF, hcons, ih]
    rfl
  | case2 b s hne ih =>
    rw [replaceCRLF.eq_2 _ _ hne, hcons, ih]
  | case3 => rfl

/-! ## Base64 in lines -/

/-- A byte that is no line end. -/
def noLineEnd (b : UInt8) : Bool := b ≠ 0x0A && b ≠ 0x0D

/-- **Dropping the line ends undoes the wrapping.** -/
theorem filter_base64Lines {s : GoString} (h : ∀ b ∈ s, noLineEnd b = true) :
    (base64Lines s).filter noLineEnd = s := by
  have hcrlf : crlf.filter noLineEnd = [] := by decide
  fun_induction base64Lines s with
  | case1 s hlen ih =>
    have hfront : (s.take lineLen).filter noLineEnd = s.take lineLen :=
      filter_eq_self.mpr fun b hb => h b (mem_of_mem_take hb)
    rw [filter_append, filter_append, hcrlf, hfront,
      ih fun b hb => h b (mem_of_mem_drop hb), append_nil, take_append_drop]
  | case2 s hlen =>
    rw [filter_append, hcrlf, filter_eq_self.mpr h, append_nil]

theorem decode_writeBase64MIME (data : GoString) :
    Base64.decode ((writeBase64MIME data).filter noLineEnd) = some data := by
  have hvisible : ∀ b ∈ Base64.encode data, noLineEnd b = true := by
    intro b hb
    have h := (Base64.encode_visible data b hb).1
    simp only [noLineEnd, Bool.and_eq_true, decide_eq_true_eq]
    constructor
    · rintro rfl
      exact absurd h (by decide)
    · rintro rfl
      exact absurd h (by decide)
  unfold writeBase64MIME
  rw [filter_base64Lines hvisible, Base64.decode_encode]

/-! ## The header -/

section Read

variable [Unicode] {mail : Smtp.MailLib} (hstd : Smtp.Standard mail)

omit [Unicode] in
theorem headerGet_append {l : List Field} {name : GoString} (t : List Field)
    (h : ∀ f ∈ l, canonicalMIMEHeaderKey f.1 ≠ canonicalMIMEHeaderKey name) :
    headerGet (l.map readBack ++ t) name = headerGet t name := by
  unfold headerGet
  rw [find?_append]
  have hnone : (l.map readBack).find? (fun f => f.1 = canonicalMIMEHeaderKey name) = none := by
    rw [find?_eq_none]
    intro g hg
    obtain ⟨f, hf, rfl⟩ := mem_map.mp hg
    exact fun heq => h f hf (of_decide_eq_true heq)
  rw [hnone]
  rfl

/-- The fields in front of the type. -/
def Outgoing.front (m : Outgoing) : List Field :=
  [(lit "From", m.sender), (lit "To", joinAddresses m.recipients)] ++
    (if m.replyTo ≠ [] then [(lit "Reply-To", joinAddresses m.replyTo)] else []) ++ m.trace ++
    [(lit "Subject", m.subject), (lit "MIME-Version", lit "1.0")]

theorem header_eq (bs : Boundaries) (m : Outgoing) : m.header bs =
    m.front ++ [(contentTypeField, (buildMIMEBody bs m.plain m.html m.attachments).1)] := by
  unfold Outgoing.header Outgoing.front
  simp only [append_assoc, cons_append, nil_append]

omit [Unicode] in
/-- No field in front of the type has a name that the body is read by. -/
theorem front_names {m : Outgoing} {msg : Message} (htrace : m.trace = senderTraceHeaders msg) :
    ∀ f ∈ m.front, canonicalMIMEHeaderKey f.1 ≠ contentTypeField ∧
      canonicalMIMEHeaderKey f.1 ≠ transferEncodingField := by
  have hnames : ∀ f ∈ m.front, f.1 ∈ [lit "From", lit "To", lit "Reply-To",
      lit "X-SMTP-Relay-Envelope-From", lit "X-SMTP-Relay-Header-From", lit "Subject",
      lit "MIME-Version"] := by
    intro f hf
    unfold Outgoing.front senderTraceHeaders at *
    rw [htrace] at hf
    simp only [mem_append, mem_cons, not_mem_nil, or_false] at hf
    rcases hf with (((rfl | rfl) | hf) | (hf | hf)) | (rfl | rfl)
    · simp
    · simp
    · split at hf
      · cases mem_singleton.mp hf
        simp
      · nomatch hf
    · split at hf
      · cases mem_singleton.mp hf
        simp
      · nomatch hf
    · split at hf
      · cases mem_singleton.mp hf
        simp
      · nomatch hf
    · simp
    · simp
  have hall : ∀ k ∈ [lit "From", lit "To", lit "Reply-To",
      lit "X-SMTP-Relay-Envelope-From", lit "X-SMTP-Relay-Header-From", lit "Subject",
      lit "MIME-Version"], canonicalMIMEHeaderKey k ≠ contentTypeField ∧
      canonicalMIMEHeaderKey k ≠ transferEncodingField := by
    decide +kernel
  exact fun f hf => hall f.1 (hnames f hf)

include hstd in
/-- **The header of the text is read back**, and the body is what follows. -/
theorem readMessage_raw (bs : Boundaries) {m : Outgoing} {msg : Message} (hclean : Clean m)
    (htrace : m.trace = senderTraceHeaders msg) :
    ∃ header, mail.readMessage ⟨m.raw bs, none⟩ = .ok (header, ⟨m.body bs, none⟩) ∧
      header (lit "Content-Type") = fieldValue (buildMIMEBody bs m.plain m.html m.attachments).1 ∧
      header (lit "Content-Transfer-Encoding") = [] := by
  have hfields := rawHeader_fields bs hclean
  have hlength : (m.header bs).length < (m.raw bs).length + 1 := by
    have hle := length_le_writeFields (m.header bs)
    unfold Outgoing.raw
    rw [length_append, length_append]
    omega
  have hread := readFields_written hfields (m.body bs) hlength
  have hnames := front_names htrace
  refine ⟨headerGet ((m.header bs).map readBack), ?_, ?_, ?_⟩
  · rw [hstd.readMessage]
    have hblank : ¬ ((m.raw bs).head?.any isBlank) = true := by
      have hhead := head_writeFields hfields (m.body bs)
      cases hh : (m.raw bs).head? with
      | none => simp
      | some b =>
        have hb := hhead b hh
        simp [hb]
    unfold readMessage
    rw [if_neg hblank]
    dsimp only
    rw [show m.raw bs = writeFields (m.header bs) ++ crlf ++ m.body bs from rfl] at hread ⊢
    rw [hread]
  · rw [header_eq, map_append]
    exact headerGet_append _ fun f hf => (hnames f hf).1
  · rw [header_eq, map_append]
    exact headerGet_append _ fun f hf => (hnames f hf).2

end Read

/-! ## One part -/

section Parts

variable [Unicode] {mail : Smtp.MailLib} (hstd : Smtp.Standard mail)
variable (nested : GoString → Message → Except GoError Message)

/-- A value that ends with a quoted string is read as it was written. -/
theorem fieldValue_quote {t : GoString} (hne : t ≠ []) (hfront : ∀ b ∈ t.head?, isBlank b = false)
    (s : GoString) : fieldValue (t ++ quote s) = t ++ quote s := by
  refine fieldValue_eq ?_ ?_
  · intro b hb
    rw [head?_append_of_ne_nil _ hne] at hb
    exact hfront b hb
  · intro b hb
    unfold quote at hb
    rw [← append_assoc, getLast?_append_of_ne_nil _ (by decide)] at hb
    cases hb
    rfl

theorem fieldValue_param {m : GoString} (hm : IsMediaType m) (p s : GoString) :
    fieldValue (m ++ p ++ quote s) = m ++ p ++ quote s := by
  have hne : m ≠ [] := (bytes_of_check hm.check).1
  refine fieldValue_quote (by simp [hne]) ?_ s
  intro b hb
  rw [head?_append_of_ne_nil _ hne] at hb
  have hvisible := hm.visible b (mem_of_head? hb)
  simp only [isBlank, Bool.or_eq_false_iff, decide_eq_false_iff_not]
  constructor
  · rintro rfl
    exact absurd hvisible.1 (by decide)
  · rintro rfl
    exact absurd hvisible.1 (by decide)

/-- **A multipart type is read back**: the type and the boundary. -/
theorem mediaTypeOf_boundary {m : GoString} (hm : IsMediaType m) (b : Boundary) :
    (mediaTypeOf (m ++ lit "; boundary=" ++ quote b.text)).mediaType = m ∧
      (mediaTypeOf (m ++ lit "; boundary=" ++ quote b.text)).err = none ∧
      (mediaTypeOf (m ++ lit "; boundary=" ++ quote b.text)).params (lit "boundary") =
        b.text := by
  have hascii : readQuoted b.text = b.text := readQuoted_ascii fun c hc =>
    forall_byte (p := fun c => (hexVal? c).isSome → 0x20 ≤ c ∧ c < 0x7F) (by decide +kernel) c
      (b.hex c hc)
  obtain ⟨htype, herr, hparam⟩ := parseMediaType_quoted hm
    (show IsParamName (lit "boundary") by decide) (bytes_of_all (by decide)) b.text
  exact ⟨htype, congrArg (Option.map _) herr, hparam.trans hascii⟩

/-- The two fields of an attachment's part, as they are read. -/
theorem attachment_fields {a : SentAttachment} (ht : IsMediaType a.contentType) :
    (writtenPart (attachmentPart a)).header (lit "Content-Type") =
      a.contentType ++ lit "; name=" ++ quote a.name ∧
    (writtenPart (attachmentPart a)).header (lit "Content-Disposition") =
      lit "attachment" ++ lit "; filename=" ++ quote a.name :=
  ⟨fieldValue_param ht _ _, fieldValue_param (show IsMediaType (lit "attachment") by decide) _ _⟩

include hstd

/-- A part with a text is put where its type says. -/
theorem parsePart_text {contentType t : GoString} (text : GoString) (out : Message)
    (hvalue : fieldValue contentType = contentType)
    (htype : (mediaTypeOf contentType).typeOr (lit "application/octet-stream") = t)
    (hleaf : isMultipart t = false) :
    parsePart mail nested (writtenPart (textPart contentType text)) out =
      .ok (placePart t [] [] text out) := by
  have hheader : (writtenPart (textPart contentType text)).header (lit "Content-Type") =
      contentType := hvalue
  have hnone : (writtenPart (textPart contentType text)).header (lit "Content-Disposition") =
      [] := rfl
  have hcoding : (writtenPart (textPart contentType text)).header
      (lit "Content-Transfer-Encoding") = lit "8bit" := rfl
  have hname : (writtenPart (textPart contentType text)).fileName = [] := rfl
  unfold parsePart parseLeaf
  rw [hstd.parseMediaType, hheader, hnone, hcoding, hname]
  dsimp only
  rw [htype, hleaf, if_neg Bool.false_ne_true]
  rfl

theorem parsePart_plain (text : GoString) (out : Message) :
    parsePart mail nested (writtenPart (textPart plainType text)) out =
      .ok { out with textBody := joinBody out.textBody text } :=
  parsePart_text hstd nested text out rfl (show _ = lit "text/plain" from rfl) rfl

theorem parsePart_html (text : GoString) (out : Message) :
    parsePart mail nested (writtenPart (textPart htmlType text)) out =
      .ok { out with htmlBody := joinBody out.htmlBody text } :=
  parsePart_text hstd nested text out rfl (show _ = lit "text/html" from rfl) rfl

/-- An attachment is appended to the attachments, with its type and its bytes. -/
theorem parsePart_attachment {a : SentAttachment} (ht : IsMediaType a.contentType)
    (hm : isMultipart a.contentType = false) (out : Message) :
    ∃ name, parsePart mail nested (writtenPart (attachmentPart a)) out =
      .ok { out with attachments := out.attachments ++ [⟨name, a.contentType, a.data⟩] } := by
  have hne : a.contentType ≠ [] := (bytes_of_check ht.check).1
  have hatt : IsMediaType (lit "attachment") := by decide
  -- the header: the type, the disposition and the encoding, read as they were written
  obtain ⟨htype, hdisp⟩ := attachment_fields ht
  have henc : (writtenPart (attachmentPart a)).header (lit "Content-Transfer-Encoding") =
      lit "base64" := rfl
  obtain ⟨htypeOf, herr, -⟩ := parseMediaType_quoted ht (show IsParamName (lit "name") by decide)
    (bytes_of_all (by decide)) a.name
  obtain ⟨hattach, -, -⟩ := parseMediaType_quoted hatt (show IsParamName (lit "filename") by decide)
    (bytes_of_all (by decide)) a.name
  have hmedia : (mediaTypeOf (a.contentType ++ lit "; name=" ++ quote a.name)).typeOr
      (lit "application/octet-stream") = a.contentType := by
    have hnone : (mediaTypeOf (a.contentType ++ lit "; name=" ++ quote a.name)).err = none :=
      congrArg (Option.map _) herr
    unfold Smtp.MediaType.typeOr
    rw [hnone]
    exact htypeOf
  have hattach : (mediaTypeOf (lit "attachment" ++ lit "; filename=" ++ quote a.name)).mediaType =
      lit "attachment" := hattach
  have hdecode : decodeTransferEncoding mail (lit "base64") (writeBase64MIME a.data) =
      .ok a.data := by
    show (mail.decodeBase64 ((writeBase64MIME a.data).filter noLineEnd)).mapError _ = _
    rw [hstd.decodeBase64]
    unfold base64Of
    rw [decode_writeBase64MIME]
    rfl
  have hplace : ∀ name, placePart a.contentType (lit "attachment") name a.data out =
      { out with attachments := out.attachments ++ [⟨name, a.contentType, a.data⟩] } := by
    intro name
    have hfold : equalFold (lit "attachment") (lit "attachment") = true := rfl
    unfold placePart
    rw [hfold, Bool.true_or, if_pos rfl, if_neg hne]
  unfold parsePart parseLeaf
  rw [hstd.parseMediaType, htype, hdisp, henc]
  dsimp only
  rw [hmedia, hm, if_neg Bool.false_ne_true, hattach,
    show (writtenPart (attachmentPart a)).body.readAll = .ok (writeBase64MIME a.data) from rfl]
  exact ⟨_, bind_eq_ok.mpr ⟨_, rfl, bind_eq_ok.mpr ⟨_, hdecode, congrArg Except.ok (hplace _)⟩⟩⟩

/-- The part with both texts is read by the nested reader. -/
theorem parsePart_alternative (bs : Boundaries) (plain html text : GoString) (out : Message) :
    parsePart mail nested (writtenPart
        ⟨[(contentTypeField, (buildAlternativeBody bs plain html).1)], text⟩) out =
      nested bs.alternative.text out := by
  have hm : IsMediaType (lit "multipart/alternative") := by decide
  have htype : (writtenPart
      ⟨[(contentTypeField, (buildAlternativeBody bs plain html).1)], text⟩).header
        (lit "Content-Type") =
      lit "multipart/alternative" ++ lit "; boundary=" ++ quote bs.alternative.text :=
    fieldValue_param hm _ _
  obtain ⟨hmedia, herr, hparam⟩ := mediaTypeOf_boundary hm bs.alternative
  have hne : bs.alternative.text ≠ [] := by
    intro hnil
    have hlength := bs.alternative.length_eq
    rw [hnil] at hlength
    nomatch hlength
  unfold parsePart Smtp.MediaType.typeOr
  rw [hstd.parseMediaType, htype]
  dsimp only
  rw [herr, hmedia, hparam, if_neg hne]
  rfl

/-! ## Many parts -/

omit nested in
/-- **What was written part by part is parsed part by part.** -/
theorem parseMultipart_written (b : Boundary) {parts : List MIMEPart} (hne : parts ≠ [])
    (hparts : ∀ p ∈ parts, Smtp.WritablePart p) (hfree : ∀ p ∈ parts, ¬ b.text <:+: p.text)
    (out : Message) :
    parseMultipart mail b.text ⟨writeMultipart b.text parts, none⟩ out =
      parts.foldlM (fun o p => parsePart mail
        (fun b o => parseMultipart mail b ⟨p.body, none⟩ o) (writtenPart p) o) out := by
  have hread := hstd.parts b parts hne hparts hfree
  rw [parseMultipart_eq, hread, foldlM_map]
  exact bind_pure _

/-- All attachments are appended, in order. -/
theorem foldlM_attachments (step : MIMEPart → GoString → Message → Except GoError Message)
    {attachments : List SentAttachment} (h : ∀ a ∈ attachments,
      IsMediaType a.contentType ∧ isMultipart a.contentType = false) (out : Message) :
    ∃ out', (attachments.map attachmentPart).foldlM
        (fun o p => parsePart mail (step p) (writtenPart p) o) out = .ok out' ∧
      out'.textBody = out.textBody ∧ out'.htmlBody = out.htmlBody ∧
      out'.attachments.map (fun a => (a.contentType, a.data)) =
        out.attachments.map (fun a => (a.contentType, a.data)) ++
          attachments.map fun a => (a.contentType, a.data) := by
  induction attachments generalizing out with
  | nil => exact ⟨out, rfl, rfl, rfl, (append_nil _).symm⟩
  | cons a attachments ih =>
    obtain ⟨⟨htype, hmulti⟩, hrest⟩ := forall_mem_cons.mp h
    obtain ⟨name, hstep⟩ := parsePart_attachment hstd (step (attachmentPart a)) htype hmulti out
    obtain ⟨out', hfold, htext, hhtml, hattach⟩ := ih hrest
      { out with attachments := out.attachments ++ [⟨name, a.contentType, a.data⟩] }
    refine ⟨out', ?_, htext, hhtml, ?_⟩
    · rw [map_cons, foldlM_cons, hstep]
      exact hfold
    · rw [hattach]
      simp only [map_append, map_cons, map_nil, append_assoc, singleton_append]

end Parts

/-! ## Every part can be written -/

section Writable

variable [Unicode]

omit [Unicode] in
theorem isValueByte_of_isText {s : GoString} (h : ∀ b ∈ s, isText b = true) :
    ∀ b ∈ s, isValueByte b = true := by
  intro b hb
  unfold isValueByte
  rw [h b hb, Bool.or_true]

theorem isValueByte_quote {t : GoString} (ht : ∀ b ∈ t, isText b = true) (s : GoString) :
    ∀ b ∈ t ++ quote s, isValueByte b = true := by
  refine isValueByte_of_isText fun b hb => ?_
  rcases mem_append.mp hb with hb | hb
  · exact ht b hb
  · exact isText_quote s b hb

omit [Unicode] in
theorem writablePart_text {contentType : GoString} (text : GoString)
    (h : ∀ b ∈ contentType, isText b = true) : Smtp.WritablePart (textPart contentType text) where
  fields := textPart_fields (oneLine_of_isText h)
  values := by
    intro f hf
    simp only [textPart, mem_cons, not_mem_nil, or_false] at hf
    rcases hf with rfl | rfl
    · exact isValueByte_of_isText h
    · exact bytes_of_all (s := lit "8bit") (by decide)
  encoding := rfl

theorem writablePart_attachment {a : SentAttachment} (h : IsMediaType a.contentType) :
    Smtp.WritablePart (attachmentPart a) := by
  have htext : ∀ b ∈ a.contentType, isText b = true := by
    intro b hb
    obtain ⟨hlow, hhigh⟩ := h.visible b hb
    simp only [isText, Bool.and_eq_true, decide_eq_true_eq]
    constructor
    · exact UInt8.le_of_lt hlow
    · rintro rfl
      rcases (bytes_of_check h.check).2 _ hb with htoken | heq
      · exact absurd htoken (by decide)
      · exact absurd heq (by decide)
  refine ⟨attachmentPart_fields (oneLine_of_isText htext), ?_, rfl⟩
  intro f hf
  simp only [attachmentPart, mem_cons, not_mem_nil, or_false] at hf
  rcases hf with rfl | rfl | rfl
  · refine isValueByte_quote (fun b hb => ?_) _
    rcases mem_append.mp hb with hb | hb
    · exact htext b hb
    · exact bytes_of_all (p := fun b => isText b = true) (s := lit "; name=") (by decide) b hb
  · exact isValueByte_quote (bytes_of_all (by decide)) _
  · exact bytes_of_all (s := lit "base64") (by decide)

omit [Unicode] in
theorem writablePart_alternative (plain html : GoString) :
    ∀ p ∈ alternativeParts plain html, Smtp.WritablePart p := by
  intro p hp
  rcases mem_append.mp hp with hp | hp
  · split at hp
    · cases mem_singleton.mp hp
      exact writablePart_text _ (bytes_of_all (by decide))
    · nomatch hp
  · split at hp
    · cases mem_singleton.mp hp
      exact writablePart_text _ (bytes_of_all (by decide))
    · nomatch hp

theorem writablePart_first (bs : Boundaries) (plain html : GoString) :
    Smtp.WritablePart (firstPart bs plain html) := by
  have hfields := firstPart_fields bs plain html
  unfold firstPart at hfields ⊢
  split at hfields
  · next hboth =>
    rw [if_pos hboth]
    refine ⟨hfields, fun f hf => ?_, rfl⟩
    cases mem_singleton.mp hf
    exact isValueByte_quote (bytes_of_all (by decide)) _
  · next hboth =>
    rw [if_neg hboth]
    split <;> exact writablePart_text _ (bytes_of_all (by decide))

theorem writablePart_mixed (bs : Boundaries) (plain html : GoString)
    {attachments : List SentAttachment} (h : ∀ a ∈ attachments, IsMediaType a.contentType) :
    ∀ p ∈ mixedParts bs plain html attachments, Smtp.WritablePart p := by
  refine forall_mem_cons.mpr ⟨writablePart_first bs plain html, fun p hp => ?_⟩
  obtain ⟨a, ha, rfl⟩ := mem_map.mp hp
  exact writablePart_attachment (h a ha)

end Writable

/-! ## The six shapes of a body -/

section Shapes

variable [Unicode] {mail : Smtp.MailLib} (hstd : Smtp.Standard mail) (bs : Boundaries)

/-- The boundaries occur in no part. -/
structure Apart (plain html : GoString) (attachments : List SentAttachment) : Prop where
  alternative : ∀ p ∈ alternativeParts plain html, ¬ bs.alternative.text <:+: p.text
  mixed : ∀ p ∈ mixedParts bs plain html attachments, ¬ bs.mixed.text <:+: p.text

variable {bs} {plain html : GoString} {attachments : List SentAttachment}

include hstd

theorem parse_alternative (hplain : plain ≠ []) (hhtml : html ≠ [])
    (hapart : ∀ p ∈ alternativeParts plain html, ¬ bs.alternative.text <:+: p.text)
    {out : Message} (htext : out.textBody = []) (hbody : out.htmlBody = []) :
    parseMultipart mail bs.alternative.text ⟨(buildAlternativeBody bs plain html).2, none⟩ out =
      .ok { out with textBody := plain, htmlBody := html } := by
  have hparts : alternativeParts plain html = [textPart plainType plain, textPart htmlType html] := by
    unfold alternativeParts
    rw [if_pos hplain, if_pos hhtml]
    rfl
  have hwritten := parseMultipart_written hstd bs.alternative (by rw [hparts]; nofun)
    (writablePart_alternative plain html) hapart out
  refine hwritten.trans ?_
  rw [hparts]
  refine bind_eq_ok.mpr ⟨_, parsePart_plain hstd _ plain out,
    bind_eq_ok.mpr ⟨_, parsePart_html hstd _ html _, ?_⟩⟩
  show Except.ok { out with
    textBody := joinBody out.textBody plain, htmlBody := joinBody out.htmlBody html } = _
  rw [htext, hbody]
  rfl

theorem parse_first
    (hapart : ∀ p ∈ alternativeParts plain html, ¬ bs.alternative.text <:+: p.text)
    {out : Message} (htext : out.textBody = []) (hbody : out.htmlBody = []) :
    parsePart mail (fun b o => parseMultipart mail b ⟨(firstPart bs plain html).body, none⟩ o)
        (writtenPart (firstPart bs plain html)) out =
      .ok { out with textBody := plain, htmlBody := html } := by
  by_cases hboth : plain ≠ [] ∧ html ≠ []
  · have hfirst : firstPart bs plain html = ⟨[(contentTypeField, (buildAlternativeBody bs plain html).1)],
        (buildAlternativeBody bs plain html).2⟩ := if_pos hboth
    rw [hfirst, parsePart_alternative hstd]
    exact parse_alternative hstd hboth.1 hboth.2 hapart htext hbody
  · by_cases hhtml : html ≠ []
    · have hplain : plain = [] := by
        by_contra hplain
        exact hboth ⟨hplain, hhtml⟩
      have hfirst : firstPart bs plain html = textPart htmlType html :=
        (if_neg hboth).trans (if_pos hhtml)
      rw [hfirst, parsePart_html hstd, hbody, hplain]
      show Except.ok { out with htmlBody := html } = _
      rw [← htext]
    · have hfirst : firstPart bs plain html = textPart plainType plain :=
        (if_neg hboth).trans (if_neg hhtml)
      rw [hfirst, parsePart_plain hstd, htext, not_not.mp hhtml]
      show Except.ok { out with textBody := plain } = _
      rw [← hbody]

/-- **A multipart/mixed body is read back**: the two texts, and the attachments in order. -/
theorem parse_mixed (hapart : Apart bs plain html attachments) (htypes : ∀ a ∈ attachments,
      IsMediaType a.contentType ∧ isMultipart a.contentType = false)
    {out : Message} (htext : out.textBody = []) (hbody : out.htmlBody = [])
    (hnone : out.attachments = []) :
    ∃ out', parseMultipart mail bs.mixed.text
        ⟨(buildMixedBody bs plain html attachments).2, none⟩ out = .ok out' ∧
      out'.textBody = plain ∧ out'.htmlBody = html ∧
      out'.attachments.map (fun a => (a.contentType, a.data)) =
        attachments.map fun a => (a.contentType, a.data) := by
  have hwritten := parseMultipart_written hstd bs.mixed (cons_ne_nil _ _)
    (writablePart_mixed bs plain html fun a ha => (htypes a ha).1) hapart.mixed out
  obtain ⟨out', hfold, hkeptText, hkeptHtml, hattach⟩ := foldlM_attachments hstd
    (fun p b o => parseMultipart mail b ⟨p.body, none⟩ o) htypes
    { out with textBody := plain, htmlBody := html }
  refine ⟨out', hwritten.trans ?_, hkeptText, hkeptHtml, ?_⟩
  · show List.foldlM _ _ (firstPart bs plain html :: attachments.map attachmentPart) = _
    rw [foldlM_cons, parse_first hstd hapart.alternative htext hbody]
    exact hfold
  · rw [hattach, hnone]
    rfl

end Shapes

/-! ## The whole message -/

section Whole

variable [Unicode] {mail : Smtp.MailLib} (hstd : Smtp.Standard mail)
variable {raw : Smtp.Reader} {header : GoString → GoString} {body : GoString}
variable (envelopeFrom : GoString) (envelopeTo : List GoString)

include hstd

/-- A message of a multipart type starts with nothing, and is then read part by part. -/
theorem parseMessage_multipart (hread : mail.readMessage raw = .ok (header, ⟨body, none⟩))
    {t : GoString} (ht : IsMediaType t) (hmulti : isMultipart t = true) (b : Boundary)
    (htype : header (lit "Content-Type") = fieldValue (t ++ lit "; boundary=" ++ quote b.text)) :
    ∃ out : Message, out.textBody = [] ∧ out.htmlBody = [] ∧ out.attachments = [] ∧
      parseMessage mail raw envelopeFrom envelopeTo =
        parseMultipart mail b.text ⟨body, none⟩ out := by
  obtain ⟨hmedia, herr, hparam⟩ := mediaTypeOf_boundary ht b
  have hne : b.text ≠ [] := by
    intro hnil
    have hlength := b.length_eq
    rw [hnil] at hlength
    nomatch hlength
  have hor : (mediaTypeOf (t ++ lit "; boundary=" ++ quote b.text)).typeOr (lit "text/plain") =
      t := by
    unfold Smtp.MediaType.typeOr
    rw [herr, hmedia]
    rfl
  refine ⟨⟨trimSpace envelopeFrom, parseHeaderAddress mail (header (lit "From")),
    parseHeaderAddressList mail (header (lit "Reply-To")), normalizeAddresses envelopeTo,
    decodeHeader mail (header (lit "Subject")), [], [], []⟩, rfl, rfl, rfl, ?_⟩
  unfold parseMessage
  rw [hread, hstd.parseMediaType]
  refine (show _ = (if isMultipart ((mediaTypeOf (header (lit "Content-Type"))).typeOr
    (lit "text/plain")) then _ else _) from rfl).trans ?_
  rw [htype, fieldValue_param ht, hor, if_pos hmulti, hparam]
  unfold failIf
  rw [if_neg hne]
  rfl

/-- A message of one text is read as that text. -/
theorem parseMessage_text (hread : mail.readMessage raw = .ok (header, ⟨body, none⟩))
    (hcoding : header (lit "Content-Transfer-Encoding") = []) :
    (header (lit "Content-Type") = fieldValue plainType →
      ∃ msg, parseMessage mail raw envelopeFrom envelopeTo = .ok msg ∧
        msg.textBody = body ∧ msg.htmlBody = [] ∧ msg.attachments = []) ∧
    (header (lit "Content-Type") = fieldValue htmlType →
      ∃ msg, parseMessage mail raw envelopeFrom envelopeTo = .ok msg ∧
        msg.textBody = [] ∧ msg.htmlBody = body ∧ msg.attachments = []) := by
  constructor
  · intro htype
    refine ⟨⟨trimSpace envelopeFrom, parseHeaderAddress mail (header (lit "From")),
      parseHeaderAddressList mail (header (lit "Reply-To")), normalizeAddresses envelopeTo,
      decodeHeader mail (header (lit "Subject")), body, [], []⟩, ?_, rfl, rfl, rfl⟩
    unfold parseMessage
    rw [hread, hstd.parseMediaType]
    refine bind_eq_ok.mpr ⟨_, rfl, ?_⟩
    dsimp only
    rw [htype, hcoding]
    rfl
  · intro htype
    refine ⟨⟨trimSpace envelopeFrom, parseHeaderAddress mail (header (lit "From")),
      parseHeaderAddressList mail (header (lit "Reply-To")), normalizeAddresses envelopeTo,
      decodeHeader mail (header (lit "Subject")), [], body, []⟩, ?_, rfl, rfl, rfl⟩
    unfold parseMessage
    rw [hread, hstd.parseMediaType]
    refine bind_eq_ok.mpr ⟨_, rfl, ?_⟩
    dsimp only
    rw [htype, hcoding]
    rfl

/-- **What was built is read back**, in each of the six shapes. -/
theorem parse_raw {bs : Boundaries} {m : Outgoing} {msg : Message} (hclean : Clean m)
    (htrace : m.trace = senderTraceHeaders msg) (htypes : ∀ a ∈ m.attachments,
      IsMediaType a.contentType ∧ isMultipart a.contentType = false)
    (hapart : Apart bs (normalizeLineEndings m.plain) (normalizeLineEndings m.html) m.attachments) :
    ∃ out, parseMessage mail ⟨m.raw bs, none⟩ envelopeFrom envelopeTo = .ok out ∧
      out.textBody = normalizeLineEndings m.plain ∧ out.htmlBody = normalizeLineEndings m.html ∧
      out.attachments.map (fun a => (a.contentType, a.data)) =
        m.attachments.map fun a => (a.contentType, a.data) := by
  obtain ⟨header, hread, htype, hcoding⟩ := readMessage_raw hstd bs hclean htrace
  unfold Outgoing.body at hread
  by_cases hnone : m.attachments = []
  · rw [hnone] at hread htype ⊢
    by_cases hboth : normalizeLineEndings m.plain ≠ [] ∧ normalizeLineEndings m.html ≠ []
    · -- both texts
      have hshape : buildMIMEBody bs m.plain m.html [] = buildAlternativeBody bs
          (normalizeLineEndings m.plain) (normalizeLineEndings m.html) := by
        unfold buildMIMEBody
        dsimp only
        rw [if_pos rfl, if_pos hboth]
      rw [hshape] at hread htype
      obtain ⟨out, htext, hhtml, hempty, hparse⟩ := parseMessage_multipart hstd envelopeFrom
        envelopeTo hread (t := lit "multipart/alternative") (by decide) rfl
        bs.alternative htype
      refine ⟨_, hparse.trans (parse_alternative hstd hboth.1 hboth.2 hapart.alternative htext hhtml),
        rfl, rfl, ?_⟩
      rw [hempty]
      rfl
    · by_cases hhtml : normalizeLineEndings m.html ≠ []
      · -- the HTML text alone
        have hshape : buildMIMEBody bs m.plain m.html [] = (htmlType, normalizeLineEndings m.html) := by
          unfold buildMIMEBody
          dsimp only
          rw [if_pos rfl, if_neg hboth, if_pos hhtml]
        have hplain : normalizeLineEndings m.plain = [] := by
          by_contra hplain
          exact hboth ⟨hplain, hhtml⟩
        rw [hshape] at hread htype
        obtain ⟨out, hparse, ht, hh, ha⟩ := (parseMessage_text hstd envelopeFrom envelopeTo hread
          hcoding).2 htype
        refine ⟨out, hparse, ht.trans hplain.symm, hh, ?_⟩
        rw [ha]
        rfl
      · -- the plain text alone
        have hshape : buildMIMEBody bs m.plain m.html [] = (plainType, normalizeLineEndings m.plain) := by
          unfold buildMIMEBody
          dsimp only
          rw [if_pos rfl, if_neg hboth, if_neg hhtml]
        rw [hshape] at hread htype
        obtain ⟨out, hparse, ht, hh, ha⟩ := (parseMessage_text hstd envelopeFrom envelopeTo hread
          hcoding).1 htype
        refine ⟨out, hparse, ht, hh.trans (not_not.mp hhtml).symm, ?_⟩
        rw [ha]
        rfl
  · -- attachments after a first part of one of the three shapes
    have hshape : buildMIMEBody bs m.plain m.html m.attachments = buildMixedBody bs
        (normalizeLineEndings m.plain) (normalizeLineEndings m.html) m.attachments := if_neg hnone
    rw [hshape] at hread htype
    obtain ⟨out, htext, hhtml, hempty, hparse⟩ := parseMessage_multipart hstd envelopeFrom
      envelopeTo hread (t := lit "multipart/mixed") (by decide) rfl bs.mixed htype
    obtain ⟨out', hmixed, hrest⟩ := parse_mixed hstd hapart htypes htext hhtml hempty
    exact ⟨out', hparse.trans hmixed, hrest⟩

end Whole

section RoundTrip

variable [Unicode] [Unicode.Lawful]
variable {mail : Smtp.MailLib} {lib : ProviderLib} {encodeWord : GoString → GoString}
variable {r : Smtp.Reader} {envelopeFrom : GoString} {envelopeTo : List GoString} {msg : Message}

/-- A type that the parser gave to an attachment is sent as it is. -/
theorem sentAttachment_contentType (hstd : Smtp.Standard mail) {a : Attachment}
    (h : Smtp.ParsedType mail a.contentType) (i : Nat) :
    (sentAttachment i a).contentType = a.contentType ∧ IsMediaType a.contentType := by
  obtain ⟨-, hne, hparsed⟩ := h
  have htype : IsMediaType a.contentType := by
    rcases hparsed with heq | ⟨v, herr, heq⟩
    · rw [heq]
      exact (by decide)
    · rw [heq, hstd.parseMediaType]
      rw [hstd.parseMediaType] at herr
      exact isMediaType_parse (Option.map_eq_none_iff.mp herr)
  have htrim : trimSpace a.contentType = a.contentType := trimSpace_visible htype.visible
  refine ⟨?_, htype⟩
  show (if trimSpace a.contentType = [] then _ else trimSpace a.contentType) = _
  rw [htrim, if_neg hne]

/-- **The parser inverts the builder.**  For every message that the parser can produce, with a sender
    and an envelope on one line, at least one recipient, and boundaries that occur in no part:
    the text that is built is accepted, and what is read of it has the bodies of the message with
    every line end as CRLF, and its attachments in order, with the same types and bytes. -/
theorem parse_buildRawMessage (hstd : Smtp.Standard mail) (laws : LineLaws mail lib encodeWord)
    (bs : Boundaries) {sender : GoString} (hsender : OneLine sender) (hfrom : OneLine envelopeFrom)
    (hto : ∀ t ∈ envelopeTo, OneLine t) (hsome : ∃ t ∈ envelopeTo, trimSpace t ≠ [])
    (h : parseMessage mail r envelopeFrom envelopeTo = .ok msg)
    (hapart : Apart bs (normalizeLineEndings (outgoing lib encodeWord sender msg).plain)
      (normalizeLineEndings (outgoing lib encodeWord sender msg).html)
      (outgoing lib encodeWord sender msg).attachments)
    (readFrom : GoString) (readTo : List GoString) :
    ∃ raw recipients replyTo out,
      buildRawMessage bs lib encodeWord sender msg = .ok (raw, recipients, replyTo) ∧
      parseMessage mail ⟨raw, none⟩ readFrom readTo = .ok out ∧
      out.htmlBody = canonicalLines msg.htmlBody ∧
      out.textBody = (if trimSpace msg.textBody = [] ∧ trimSpace msg.htmlBody = [] then
        lit "(empty message)" else canonicalLines msg.textBody) ∧
      out.attachments.map (fun a => (a.contentType, a.data)) =
        msg.attachments.map fun a => (a.contentType, a.data) := by
  have hclean := clean_outgoing laws hsender hfrom hto h
  have hparsed := parsedType_of_parse h
  have htypes : ∀ a ∈ (outgoing lib encodeWord sender msg).attachments,
      IsMediaType a.contentType ∧ isMultipart a.contentType = false := by
    intro a ha
    obtain ⟨⟨a', i⟩, hi, rfl⟩ := mem_map.mp ha
    have ha' := hparsed a' (fst_mem_of_mem_zipIdx hi)
    obtain ⟨hsame, htype⟩ := sentAttachment_contentType hstd ha' i
    rw [hsame]
    exact ⟨htype, ha'.1⟩
  obtain ⟨out, hparse, htext, hhtml, hattach⟩ :=
    parse_raw hstd readFrom readTo hclean rfl htypes hapart
  refine ⟨_, _, _, out, buildRawMessage_ok bs hsome h, hparse, ?_, ?_, ?_⟩
  · rw [hhtml, normalizeLineEndings_eq]
    rfl
  · rw [htext, normalizeLineEndings_eq]
    show canonicalLines (if trimSpace msg.textBody = [] ∧ trimSpace msg.htmlBody = [] then _ else _) =
      _
    split
    · decide
    · rfl
  · rw [hattach]
    show (msg.attachments.zipIdx.map fun p => sentAttachment p.2 p.1).map _ = _
    rw [map_map]
    have hsame : ∀ p ∈ msg.attachments.zipIdx,
        ((fun a : SentAttachment => (a.contentType, a.data)) ∘ fun p => sentAttachment p.2 p.1) p =
          (p.1.contentType, p.1.data) := by
      rintro ⟨a, i⟩ hi
      have hct := (sentAttachment_contentType hstd (hparsed a (fst_mem_of_mem_zipIdx hi)) i).1
      exact congrArg (·, a.data) hct
    have hfst := congrArg (List.map fun a : Attachment => (a.contentType, a.data))
      (zipIdx_map_fst 0 msg.attachments)
    rw [map_map] at hfst
    exact (map_congr_left hsame).trans hfst

end RoundTrip

section Cases

/-- A text with an image, and with line ends of all kinds. -/
def mixedMessage : Smtp.Reader where
  data := lit "Content-Type: multipart/mixed; boundary=b\r\n\r\n--b\r\nContent-Type: text/plain\r\n\r\na\rb\nc\r\nd\r\n--b\r\nContent-Type: text/html\r\n\r\n<p>\r\n--b\r\nContent-Type: image/png\r\nContent-Disposition: attachment\r\n\r\nPNG\r\n--b--\r\n"
  err := none

/-- What the parser makes of it. -/
def mixedParsed : Message :=
  { Message.zero with
    toAddrs := [lit "t@u"], textBody := lit "a\rb\nc\r\nd", htmlBody := lit "<p>"
    attachments := [⟨[], lit "image/png", lit "PNG"⟩] }

/-- Two boundaries. -/
def twoBoundaries : Boundaries := ⟨zeroBoundary, ⟨List.replicate 60 0x31, by decide, bytes_of_all (by decide)⟩⟩

/-- Its text, its HTML and its image come back. -/
theorem parse_buildRawMessage_mixed :
    letI := Unicode.ascii
    ∃ raw recipients replyTo out,
      buildRawMessage twoBoundaries asciiProvider asciiWord (lit "s@t") mixedParsed =
        .ok (raw, recipients, replyTo) ∧
      parseMessage asciiMail ⟨raw, none⟩ [] [] = .ok out ∧
      out.textBody = lit "a\r\nb\r\nc\r\nd" ∧ out.htmlBody = lit "<p>" ∧
      out.attachments.map (fun a => (a.contentType, a.data)) = [(lit "image/png", lit "PNG")] := by
  let _ := Unicode.ascii
  have _ := Unicode.lawful_ascii
  have hparse : parseMessage asciiMail mixedMessage [] [lit "t@u"] = .ok mixedParsed := by
    decide +kernel
  obtain ⟨raw, recipients, replyTo, out, hbuild, hread, hhtml, htext, hattach⟩ :=
    parse_buildRawMessage standard_standardLib lineLaws_ascii twoBoundaries
      (show OneLine (lit "s@t") by decide) (by decide) (by decide) ⟨lit "t@u", by decide, by decide⟩
      hparse ⟨by decide +kernel, by decide +kernel⟩ [] []
  exact ⟨raw, recipients, replyTo, out, hbuild, hread, htext, hhtml, hattach⟩

end Cases

end SmtpCloudRelay.Ses
