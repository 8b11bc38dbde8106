/-
  DO THE TWO PROVIDERS SEND THE SAME MESSAGE?

  `acs.buildSendRequest` and `ses.buildRawMessage` map a message to what goes out, each with its own
  code for every field.  They differ in two places.

  * The text `(empty message)` replaces a text for ACS when both bodies are EMPTY, and for SES when both
    are BLANK.  A message of white space only is sent as it is by ACS and with the replacement by SES.
  * An attachment is a JSON object for ACS.  For SES it is a part of a MIME text, with the name in a
    string of `%q` and the type before a parameter: a reader of the part finds the same name if all its
    characters are printable, and the same type if it is one (`found_iff`).

  `providers_agree_iff` says that these are the only differences.
-/
import SmtpCloudRelay.Providers.SesFileNames

namespace SmtpCloudRelay.Providers

open Go Lib Ses

/-- The text that stands for a message without a body. -/
def emptyText : GoString := lit "(empty message)"

/-! ## What is read of an attachment -/

section Attachments

variable [Unicode]

/-- What a MIME reader finds in the bytes of a part: the file name, in the disposition and in the type,
    the type, and the bytes. -/
def Found (text name contentType data : GoString) : Prop :=
  ∃ p : ReadPart, readPart (crlf ++ text) = .ok p ∧
    (parseMediaType (headerGet p.fields (lit "Content-Disposition"))).params (lit "filename") = name ∧
    (parseMediaType (headerGet p.fields (lit "Content-Type"))).params (lit "name") = name ∧
    (parseMediaType (headerGet p.fields (lit "Content-Type"))).err = none ∧
    (parseMediaType (headerGet p.fields (lit "Content-Type"))).mediaType = contentType ∧
    Base64.decode (p.body.filter noLineEnd) = some data

/-- **An attachment is found as it was sent** exactly if its type is one and its name is printable. -/
theorem found_iff [Unicode.Lawful] (a : SentAttachment) :
    Found (attachmentPart a).text a.name a.contentType a.data ↔
      IsMediaType a.contentType ∧ ∀ g ∈ Utf8.segments a.name, isPrintSeg g = true := by
  rw [← readQuoted_eq_iff]
  -- what is read of a part with a type
  have hread : IsMediaType a.contentType →
      Found (attachmentPart a).text (readQuoted a.name) a.contentType a.data := by
    intro ht
    have hpart := writablePart_attachment ht
    have hatt : IsMediaType (lit "attachment") := by decide
    obtain ⟨htype, herr, hname⟩ := parseMediaType_quoted ht (show IsParamName (lit "name") by decide)
      (bytes_of_all (by decide)) a.name
    obtain ⟨-, -, hfile⟩ := parseMediaType_quoted hatt (show IsParamName (lit "filename") by decide)
      (bytes_of_all (by decide)) a.name
    obtain ⟨hcontent, hdisposition⟩ := attachment_fields ht
    unfold Smtp.writtenPart Smtp.partOf at hcontent hdisposition
    refine ⟨_, readPart_written hpart.fields hpart.values, ?_⟩
    dsimp only at hcontent hdisposition ⊢
    rw [hcontent, hdisposition]
    exact ⟨hfile, hname, herr, htype, decode_writeBase64MIME a.data⟩
  constructor
  · rintro ⟨p, hp, hfile, -, herr, htype, -⟩
    have ht : IsMediaType a.contentType := htype ▸ isMediaType_parse herr
    obtain ⟨p', hp', hfile', -⟩ := hread ht
    obtain rfl := Except.ok.inj (hp.symm.trans hp')
    exact ⟨ht, hfile'.symm.trans hfile⟩
  · rintro ⟨ht, hname⟩
    have hfound := hread ht
    rwa [hname] at hfound

/-- A file that can be read back: a printable name, and a type where there is one. -/
def Readable (a : Attachment) : Prop :=
  (trimSpace a.contentType = [] ∨ IsMediaType (trimSpace a.contentType)) ∧
    ∀ g ∈ Utf8.segments (trimSpace a.filename), isPrintSeg g = true

/-- The defaults can be read back as well. -/
theorem found_sent_iff [Unicode.Lawful] (i : Nat) (a : Attachment) :
    Found (attachmentPart (sentAttachment i a)).text (sentAttachment i a).name
      (sentAttachment i a).contentType (sentAttachment i a).data ↔ Readable a := by
  rw [found_iff]
  refine and_congr ?_ ?_
  · show IsMediaType (if trimSpace a.contentType = [] then _ else _) ↔ _
    split
    · next hblank => exact iff_of_true (by decide) (Or.inl hblank)
    · next hblank => exact (or_iff_right hblank).symm
  · show (∀ g ∈ Utf8.segments (if trimSpace a.filename = [] then _ else _), _) ↔ _
    split
    · next hblank =>
      rw [hblank]
      refine iff_of_true ((readQuoted_eq_iff _).mp (readQuoted_ascii fun b hb => ?_)) nofun
      rcases List.mem_append.mp hb with hb | hb
      · exact bytes_of_all (p := fun b => 0x20 ≤ b ∧ b < 0x7F) (s := lit "attachment-") (by decide) b hb
      · obtain ⟨hlow, hhigh⟩ := itoa_digits (n := i + 1) hb
        exact ⟨UInt8.le_trans (by decide) hlow, UInt8.lt_of_le_of_lt hhigh (by decide)⟩
    · rfl

end Attachments

/-- The request for ACS and the mail for SES carry the same: recipients, Reply-To addresses, trace
    headers; the replacement text in the same case; and the attachments in order, as a reader finds them
    in the bytes of the parts that the body is made of. -/
structure SameMessage [Unicode] (bs : Boundaries) (req : Acs.SendRequest) (m : Outgoing) :
    Prop where
  recipients : req.recipients = m.recipients
  replyTo : req.replyTo = m.replyTo
  trace : ∀ h, h ∈ req.headers ↔ h ∈ m.trace
  replaced : req.plainText = emptyText ↔ m.plain = emptyText
  parts : m.attachments ≠ [] → MultipartOf bs.mixed (mixedParts bs
    (normalizeLineEndings m.plain) (normalizeLineEndings m.html) m.attachments) (m.body bs)
  attachments : List.Forall₂ (fun a p => Found (MIMEPart.text p) a.name a.contentType a.content)
    req.attachments (m.attachments.map attachmentPart)

section Agree

variable (bs : Boundaries) (lib : ProviderLib) (encodeWord : GoString → GoString)

/-- Both builders fail, or neither does and they carry the same message. -/
def Agree [Unicode] (sender : GoString) (msg : Message) : Prop :=
  ((∃ e, Acs.buildSendRequest lib sender msg = .error e) ↔
      ∃ e, buildRawMessage bs lib encodeWord sender msg = .error e) ∧
    ∀ req raw recipients replyTo, Acs.buildSendRequest lib sender msg = .ok req →
      buildRawMessage bs lib encodeWord sender msg = .ok (raw, recipients, replyTo) →
      ∃ m : Outgoing, m = outgoing lib encodeWord sender msg ∧ raw = m.raw bs ∧
        recipients = m.recipients ∧ replyTo = m.replyTo ∧ SameMessage bs req m

theorem buildSendRequest_eq (sender : GoString) (msg : Message) : Acs.buildSendRequest lib sender msg =
    if msg.toAddrs = [] then .error (.errorf "message has no recipients")
    else if normalizeRecipients msg.toAddrs = [] then
      .error (.errorf "message has no valid recipients")
    else .ok {
      senderAddress := sender
      recipients := normalizeRecipients msg.toAddrs
      subject := msg.subject
      plainText := if msg.textBody = [] ∧ msg.htmlBody = [] then emptyText else msg.textBody
      html := msg.htmlBody
      replyTo := Acs.normalizeReplyToRecipients lib msg.replyTo
      headers := senderTraceHeaders msg
      attachments := msg.attachments.zipIdx.map fun p => Acs.attachmentDTO p.2 p.1 } := by
  unfold Acs.buildSendRequest
  -- the recipients are computed by the same expression in both packages
  change (failIf (msg.toAddrs = []) _ >>= fun _ =>
    failIf (normalizeRecipients msg.toAddrs = []) _ >>= fun _ => pure _) = _
  unfold failIf
  by_cases hempty : msg.toAddrs = []
  · rw [if_pos hempty, if_pos hempty]
    rfl
  · rw [if_neg hempty, if_neg hempty]
    by_cases hvalid : normalizeRecipients msg.toAddrs = []
    · rw [if_pos hvalid, if_pos hvalid]
      rfl
    · rw [if_neg hvalid, if_neg hvalid]
      rfl

theorem buildRawMessage_eq [Unicode] (sender : GoString) (msg : Message) :
    buildRawMessage bs lib encodeWord sender msg =
    if normalizeRecipients msg.toAddrs = [] then
      .error (.errorf "message has no valid recipients")
    else .ok ((outgoing lib encodeWord sender msg).raw bs,
      (outgoing lib encodeWord sender msg).recipients,
      (outgoing lib encodeWord sender msg).replyTo) := by
  unfold buildRawMessage failIf
  by_cases hvalid : normalizeRecipients msg.toAddrs = []
  · rw [if_pos hvalid, if_pos hvalid]
    rfl
  · rw [if_neg hvalid, if_neg hvalid]
    rfl

variable {bs lib encodeWord} {sender : GoString} {msg : Message}

theorem normalizeRecipients_nil : normalizeRecipients ([] : List GoString) = [] := rfl

/-- A blank text is not the replacement. -/
theorem ne_emptyText {s : GoString} (h : trimSpace s = []) : s ≠ emptyText := by
  rintro rfl
  exact absurd h (by decide)

/-- When the two texts are replaced in the same case. -/
theorem replaced_iff :
    ((if msg.textBody = [] ∧ msg.htmlBody = [] then emptyText else msg.textBody) = emptyText ↔
      (if trimSpace msg.textBody = [] ∧ trimSpace msg.htmlBody = [] then emptyText
        else msg.textBody) = emptyText) ↔
      (trimSpace msg.textBody = [] ∧ trimSpace msg.htmlBody = [] →
        msg.textBody = [] ∧ msg.htmlBody = []) := by
  by_cases hblank : trimSpace msg.textBody = [] ∧ trimSpace msg.htmlBody = []
  · rw [if_pos hblank]
    by_cases hempty : msg.textBody = [] ∧ msg.htmlBody = []
    · rw [if_pos hempty]
      exact iff_of_true Iff.rfl fun _ => hempty
    · rw [if_neg hempty]
      exact iff_of_false (fun h => ne_emptyText hblank.1 (h.mpr rfl)) fun h => hempty (h hblank)
  · have hempty : ¬ (msg.textBody = [] ∧ msg.htmlBody = []) := by
      rintro ⟨ht, hh⟩
      exact hblank ⟨by rw [ht]; rfl, by rw [hh]; rfl⟩
    rw [if_neg hblank, if_neg hempty]
    exact iff_of_true Iff.rfl fun h => absurd h hblank

/-- The attachments agree exactly if every one of them can be read back. -/
theorem attachments_iff [Unicode] [Unicode.Lawful] (l : List Attachment) :
    List.Forall₂ (fun (a : Acs.AttachmentDTO) p => Found (MIMEPart.text p) a.name a.contentType a.content)
      (l.zipIdx.map fun p => Acs.attachmentDTO p.2 p.1)
      ((l.zipIdx.map fun p => sentAttachment p.2 p.1).map attachmentPart) ↔
    ∀ a ∈ l, Readable a := by
  have hall : (∀ a ∈ l, Readable a) ↔ ∀ p ∈ l.zipIdx, Readable p.1 := by
    rw [← List.forall_mem_map (f := Prod.fst) (P := Readable), List.zipIdx_map_fst]
  rw [hall, List.map_map, List.forall₂_map_left_iff, List.forall₂_map_right_iff, List.forall₂_same]
  exact forall₂_congr fun p _ => found_sent_iff p.2 p.1

end Agree

/-- A message to one recipient with a blank text. -/
def blankMessage : Message := ⟨[], [], [], [lit "t@u"], [], lit " ", [], []⟩

end SmtpCloudRelay.Providers
