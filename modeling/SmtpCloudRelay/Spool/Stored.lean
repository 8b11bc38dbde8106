/-
  A MESSAGE AS IT COMES BACK from the payload store.

  The texts of a message go through JSON, and JSON is UTF-8: `Message.stored` is the message with every
  invalid byte of its texts replaced by U+FFFD (and the two sender addresses trimmed); the bytes of the
  attachments are kept as they are.  So a message comes back unchanged exactly when its texts are UTF-8
  (`stored_eq_self`).

  * `Manifest.unmarshal_marshal`: reading the manifest that was written gives the manifest with its
    texts coerced.  Decoding walks over the members, each of which sets one field.
  * `attachmentRef_valid`: the references that are written pass the checks made when they are read.
-/
import SmtpCloudRelay.Lib.JsonRoundTrip
import SmtpCloudRelay.Spool.PayloadStore

namespace SmtpCloudRelay.Spool

open Go Lib List Utf8
open Json (Value Values Fields)

/-! ## The manifest, there and back -/

/-- The reference with its texts coerced to UTF-8. -/
def AttachmentRef.coerced (r : AttachmentRef) : AttachmentRef where
  filename := coerce r.filename
  contentType := coerce r.contentType
  path := coerce r.path
  sizeBytes := r.sizeBytes
  sha256 := coerce r.sha256

/-- The manifest with its texts coerced to UTF-8. -/
def Manifest.coerced (m : Manifest) : Manifest where
  envelopeFrom := coerce m.envelopeFrom
  headerFrom := coerce m.headerFrom
  replyTo := m.replyTo.map coerce
  toAddrs := m.toAddrs.map coerce
  subject := coerce m.subject
  textBody := coerce m.textBody
  htmlBody := coerce m.htmlBody
  attachments := m.attachments.map AttachmentRef.coerced

/-- A member as it is read back. -/
def readBack (kv : GoString × Value) : GoString × Value := (coerce kv.1, kv.2.coerced)

section Members

variable {σ τ : Type} {f : σ → GoString × Value → Option σ} {m : σ} {key : String}

/-- A text member sets its field, whether it is written or left out. -/
theorem foldlM_omitEmpty (set : σ → GoString → σ) (s : GoString)
    (hf : ∀ v, f m (coerce (lit key), .str v) = some (set m v)) (hempty : set m [] = m) :
    ((omitEmpty key s).map readBack).foldlM f m = some (set m (coerce s)) := by
  unfold omitEmpty
  split
  · rename_i hs
    subst hs
    exact congrArg some hempty.symm
  · show (f m (coerce (lit key), .str (coerce s)) >>= fun m' => some m') = _
    rw [hf]
    rfl

theorem foldlM_omitEmptyList (set : σ → List τ → σ) {l : List Value} {x : List τ}
    (hf : f m (coerce (lit key), .arr (Values.ofList l).coerced) = some (set m x))
    (hempty : set m [] = m) (hl : l = [] → x = []) :
    ((omitEmptyList key l).map readBack).foldlM f m = some (set m x) := by
  unfold omitEmptyList
  split
  · rename_i hs
    rw [hl hs]
    exact congrArg some hempty.symm
  · show (f m (coerce (lit key), .arr (Values.ofList l).coerced) >>= fun m' => some m') = _
    rw [hf]
    rfl

end Members

theorem mapM_map_some {α β γ : Type} {f : β → Option γ} {g : α → β} {h : α → γ} {l : List α}
    (hl : ∀ a ∈ l, f (g a) = some (h a)) : (l.map g).mapM f = some (l.map h) := by
  induction l with
  | nil => rfl
  | cons a l ih =>
    rw [map_cons, mapM_cons, hl a (mem_cons_self ..), ih fun b hb => hl b (mem_cons_of_mem _ hb)]
    rfl

theorem decodeStrings_coerced (l : List GoString) :
    decodeStrings (.arr (Values.ofList (l.map .str)).coerced) = some (l.map coerce) := by
  show (Values.ofList (l.map .str)).coerced.toList.mapM _ = _
  rw [Values.toList_coerced, map_map]
  exact mapM_map_some fun s hs => rfl

/-- A size that a Go slice can have. -/
def IsSize (n : Int) : Prop := 0 ≤ n ∧ n ≤ maxDuration

theorem parseInt64_digits {n : Nat} (h : (n : Int) ≤ maxDuration) :
    parseInt64 (Json.digits n) = some (n : Int) := by
  have hhead : ¬ (Json.digits n).head? = some 0x2D := by
    intro hx
    have hmem : (0x2D : UInt8) ∈ Json.digits n := mem_of_mem_head? hx
    nomatch Json.isDigit_digits n _ hmem
  have hall : (Json.digits n).all Json.isDigit = true := all_eq_true.mpr (Json.isDigit_digits n)
  unfold parseInt64
  simp only [hhead, if_false, Json.digits_ne_nil, hall, false_or,
    Json.ofDigits_digits, Bool.true_eq_false]
  rw [if_pos]
  unfold maxDuration at *
  omega

theorem intValue_coerced (n : Int) : (intValue n).coerced = intValue n := by
  unfold intValue
  rw [Value.coerced]
  all_goals simp

theorem decodeInt64_intValue {n old : Int} (h : IsSize n) :
    decodeInt64 old (intValue n) = some n := by
  obtain ⟨k, rfl⟩ := Int.eq_ofNat_of_zero_le h.1
  show parseInt64 (if ((k : Int)) < 0 then _ else Json.digits (k : Int).toNat) = _
  rw [if_neg (by omega), Int.toNat_natCast]
  exact parseInt64_digits h.2

theorem decodeRef_coerced {r : AttachmentRef} (h : IsSize r.sizeBytes) :
    decodeRef r.value.coerced = some r.coerced := by
  show (Fields.ofList _).coerced.toList.foldlM AttachmentRef.member .zero = _
  rw [Fields.toList_coerced]
  show (List.map readBack _).foldlM _ _ = _
  simp only [map_append, foldlM_append, Option.bind_eq_bind]
  rw [foldlM_omitEmpty (fun r s => { r with filename := s }) r.filename (fun v => rfl) rfl,
    Option.bind_some,
    foldlM_omitEmpty (fun r s => { r with contentType := s }) r.contentType (fun v => rfl) rfl,
    Option.bind_some]
  -- the three members that are always written
  show (Option.bind (Option.map _ (decodeInt64 0 (intValue r.sizeBytes).coerced)) _) = _
  rw [intValue_coerced, decodeInt64_intValue h]
  rfl

theorem decodeRefs_coerced {l : List AttachmentRef} (h : ∀ r ∈ l, IsSize r.sizeBytes) :
    decodeRefs (.arr (Values.ofList (l.map (·.value))).coerced) =
      some (l.map AttachmentRef.coerced) := by
  show (Values.ofList (l.map (·.value))).coerced.toList.mapM _ = _
  rw [Values.toList_coerced, map_map]
  exact mapM_map_some fun r hr => decodeRef_coerced (h r hr)

theorem decodeManifest_coerced {m : Manifest} (h : ∀ r ∈ m.attachments, IsSize r.sizeBytes) :
    decodeManifest m.value.coerced = some m.coerced := by
  show (Fields.ofList _).coerced.toList.foldlM Manifest.member .zero = _
  rw [Fields.toList_coerced]
  show (List.map readBack _).foldlM _ _ = _
  simp only [map_append, foldlM_append, Option.bind_eq_bind]
  have hstrings : ∀ l : List GoString, l.map Value.str = [] → l.map coerce = [] := by
    intro l hl
    rw [map_eq_nil_iff.mp hl, map_nil]
  have hrefs : m.attachments.map (·.value) = [] → m.attachments.map AttachmentRef.coerced = [] := by
    intro hl
    rw [map_eq_nil_iff.mp hl, map_nil]
  have hreply : ∀ m0 : Manifest, m0.member (coerce (lit "replyTo"),
      .arr (Values.ofList (m.replyTo.map .str)).coerced) =
      some { m0 with replyTo := m.replyTo.map coerce } := by
    intro m0
    show (decodeStrings _).map _ = _
    rw [decodeStrings_coerced]
    rfl
  have hto : ∀ m0 : Manifest, m0.member (coerce (lit "to"),
      .arr (Values.ofList (m.toAddrs.map .str)).coerced) =
      some { m0 with toAddrs := m.toAddrs.map coerce } := by
    intro m0
    show (decodeStrings _).map _ = _
    rw [decodeStrings_coerced]
    rfl
  have hattachments : ∀ m0 : Manifest, m0.member (coerce (lit "attachments"),
      .arr (Values.ofList (m.attachments.map (·.value))).coerced) =
      some { m0 with attachments := m.attachments.map AttachmentRef.coerced } := by
    intro m0
    show (decodeRefs _).map _ = _
    rw [decodeRefs_coerced h]
    rfl
  rw [foldlM_omitEmpty (fun m s => { m with envelopeFrom := s }) m.envelopeFrom (fun v => rfl) rfl,
    Option.bind_some,
    foldlM_omitEmpty (fun m s => { m with headerFrom := s }) m.headerFrom (fun v => rfl) rfl,
    Option.bind_some,
    foldlM_omitEmptyList (fun m l => { m with replyTo := l }) (hreply _) rfl (hstrings _),
    Option.bind_some,
    foldlM_omitEmptyList (fun m l => { m with toAddrs := l }) (hto _) rfl (hstrings _),
    Option.bind_some,
    foldlM_omitEmpty (fun m s => { m with subject := s }) m.subject (fun v => rfl) rfl,
    Option.bind_some,
    foldlM_omitEmpty (fun m s => { m with textBody := s }) m.textBody (fun v => rfl) rfl,
    Option.bind_some,
    foldlM_omitEmpty (fun m s => { m with htmlBody := s }) m.htmlBody (fun v => rfl) rfl,
    Option.bind_some,
    foldlM_omitEmptyList (fun m l => { m with attachments := l }) (hattachments _) rfl hrefs]
  rfl

theorem intValue_decimal (n : Int) : (intValue n).Decimal := by
  unfold intValue
  split
  · exact ⟨n.natAbs, Or.inr rfl⟩
  · exact ⟨n.toNat, Or.inl rfl⟩

theorem omitEmpty_decimal {key : String} {s : GoString} : ∀ kv ∈ omitEmpty key s, kv.2.Decimal := by
  intro kv hkv
  unfold omitEmpty at hkv
  split at hkv
  · nomatch hkv
  · rw [mem_singleton.mp hkv]
    trivial

theorem omitEmptyList_decimal {key : String} {l : List Value} (h : ∀ v ∈ l, v.Decimal) :
    ∀ kv ∈ omitEmptyList key l, kv.2.Decimal := by
  intro kv hkv
  unfold omitEmptyList at hkv
  split at hkv
  · nomatch hkv
  · rw [mem_singleton.mp hkv]
    exact Values.decimal_ofList h

theorem AttachmentRef.value_decimal (r : AttachmentRef) : r.value.Decimal := by
  refine Fields.decimal_ofList ?_
  simp only [forall_mem_append, forall_mem_cons]
  exact ⟨⟨omitEmpty_decimal, omitEmpty_decimal⟩, trivial, intValue_decimal _, trivial,
    fun kv hkv => nomatch hkv⟩

theorem strings_decimal (l : List GoString) : ∀ v ∈ l.map Value.str, v.Decimal := by
  intro v hv
  obtain ⟨s, -, rfl⟩ := mem_map.mp hv
  trivial

theorem Manifest.value_decimal (m : Manifest) : m.value.Decimal := by
  refine Fields.decimal_ofList ?_
  simp only [forall_mem_append]
  refine ⟨⟨⟨⟨⟨⟨⟨omitEmpty_decimal, omitEmpty_decimal⟩, ?_⟩, ?_⟩, omitEmpty_decimal⟩,
    omitEmpty_decimal⟩, omitEmpty_decimal⟩, ?_⟩
  · exact omitEmptyList_decimal (strings_decimal _)
  · exact omitEmptyList_decimal (strings_decimal _)
  · refine omitEmptyList_decimal fun v hv => ?_
    obtain ⟨r, -, rfl⟩ := mem_map.mp hv
    exact r.value_decimal

/-- **The manifest round trip.** -/
theorem Manifest.unmarshal_marshal {m : Manifest} (h : ∀ r ∈ m.attachments, IsSize r.sizeBytes) :
    Manifest.unmarshal m.marshal = some m.coerced := by
  unfold Manifest.unmarshal Manifest.marshal
  rw [Json.parse_encode m.value_decimal]
  exact decodeManifest_coerced h

/-! ## The references, there and back -/

/-- Visible ASCII characters only. -/
def Visible (s : GoString) : Prop := ∀ b ∈ s, 0x20 < b ∧ b < 0x80

instance (s : GoString) : Decidable (Visible s) :=
  List.decidableBAll (fun b => 0x20 < b ∧ b < 0x80) s

theorem Visible.append {s t : GoString} (hs : Visible s) (ht : Visible t) : Visible (s ++ t) := by
  intro b hb
  rcases mem_append.mp hb with hb | hb
  · exact hs b hb
  · exact ht b hb

theorem Visible.coerce {s : GoString} (h : Visible s) : coerce s = s :=
  coerce_ascii fun b hb => (h b hb).2

theorem visible_digits (n : Nat) : Visible (Json.digits n) := by
  intro b hb
  have hd := Json.isDigit_digits n b hb
  simp only [Json.isDigit, Bool.and_eq_true, decide_eq_true_eq] at hd
  exact ⟨by grind, by grind⟩

theorem visible_attachmentName (i : Nat) : Visible (attachmentName i) :=
  (visible_digits i).append (by decide)

theorem visible_attachmentPath (i : Nat) : Visible (attachmentPath i) :=
  Visible.append (by decide) (visible_attachmentName i)

theorem hexEncode_cons (b : UInt8) (bs : List UInt8) :
    hexEncode (b :: bs) = hexDigits 2 b.toNat ++ hexEncode bs := rfl

/-- The two hexadecimal digits of a byte, written and read. -/
theorem hexDigits_byte (b : UInt8) :
    ∃ x y, hexDigits 2 b.toNat = [x, y] ∧ Visible [x, y] ∧
      Json.hexValue x = some (b.toNat / 16) ∧ Json.hexValue y = some (b.toNat % 16) := by
  have hall : ∀ n : Fin 256, hexDigits 2 n = [hexDigit (n / 16 % 16), hexDigit (n % 16)] ∧
      Visible [hexDigit (n / 16 % 16), hexDigit (n % 16)] ∧
      Json.hexValue (hexDigit (n / 16 % 16)) = some (n / 16) ∧
      Json.hexValue (hexDigit (n % 16)) = some (n % 16) := by decide +kernel
  exact ⟨_, _, hall ⟨b.toNat, b.toNat_lt⟩⟩

theorem visible_hexEncode (bs : List UInt8) : Visible (hexEncode bs) := by
  induction bs with
  | nil => exact fun b hb => nomatch hb
  | cons b bs ih =>
    obtain ⟨x, y, hxy, hvis, -, -⟩ := hexDigits_byte b
    rw [hexEncode_cons, hxy]
    exact hvis.append ih

theorem hexDecode_hexEncode (bs : List UInt8) : hexDecode (hexEncode bs) = some bs := by
  induction bs with
  | nil => rfl
  | cons b bs ih =>
    obtain ⟨x, y, hxy, -, hx, hy⟩ := hexDigits_byte b
    rw [hexEncode_cons, hxy]
    show hexDecode (x :: y :: hexEncode bs) = _
    rw [hexDecode, hx, hy, ih]
    have hbyte : UInt8.ofNat (16 * (b.toNat / 16) + b.toNat % 16) = b := by
      rw [Nat.div_add_mod, UInt8.ofNat_toNat]
    exact congrArg (fun c => some (c :: bs)) hbyte

/-- What is written about an attachment, as it is read. -/
theorem attachmentRef_coerced (i : Nat) (a : Attachment) :
    (attachmentRef i a).coerced = { attachmentRef i a with
      filename := coerce a.filename, contentType := coerce a.contentType } := by
  unfold AttachmentRef.coerced attachmentRef
  dsimp only
  rw [(visible_attachmentPath i).coerce, (visible_hexEncode _).coerce]

/-- **A reference that was written passes the checks.** -/
theorem attachmentRef_valid [Unicode] (i : Nat) (a : Attachment) :
    validateAttachmentRef i (attachmentRef i a).coerced = .ok () := by
  have hpath : trimSpace (attachmentPath i) = attachmentPath i :=
    trimSpace_visible (visible_attachmentPath i)
  have hsum : trimSpace (hexEncode (Sha256.sum256 a.data)) = hexEncode (Sha256.sum256 a.data) :=
    trimSpace_visible (visible_hexEncode _)
  have hsize : ¬ ((a.data.length : Int) < 0) := by omega
  rw [attachmentRef_coerced]
  unfold validateAttachmentRef attachmentRef
  simp only [hpath, hsum, hexDecode_hexEncode, Option.map_some, Sha256.length_sum256, hsize,
    ne_eq, not_true, failIf]
  rfl

/-! ## The message that comes back -/

/-- The attachment with its texts coerced. -/
def storedAttachment (a : Attachment) : Attachment :=
  { a with filename := coerce a.filename, contentType := coerce a.contentType }

/-- The message that is read from what was written for `m`. -/
def storedMessage (m : Message) : Message where
  envelopeFrom := trimSpace (coerce (trimSpace m.envelopeFrom))
  headerFrom := trimSpace (coerce (trimSpace m.headerFrom))
  replyTo := m.replyTo.map coerce
  toAddrs := m.toAddrs.map coerce
  subject := coerce m.subject
  textBody := coerce m.textBody
  htmlBody := coerce m.htmlBody
  attachments := m.attachments.map storedAttachment

/-- The texts of a message: everything but the bytes of its attachments. -/
def messageTexts (m : Message) : List GoString :=
  [m.envelopeFrom, m.headerFrom] ++ m.replyTo ++ m.toAddrs ++ [m.subject, m.textBody, m.htmlBody] ++
    m.attachments.flatMap fun a => [a.filename, a.contentType]

theorem map_eq_self {α : Type} {f : α → α} {l : List α} : l.map f = l ↔ ∀ a ∈ l, f a = a := by
  induction l with
  | nil => simp
  | cons a l ih => simp [ih]

/-- A trimmed text comes back exactly when it is UTF-8. -/
theorem trimmed_eq_self {s : GoString} (h : trimSpace s = s) :
    trimSpace (coerce (trimSpace s)) = s ↔ Valid s := by
  rw [h]
  constructor
  · intro hs
    rw [← hs]
    exact valid_trimSpace (valid_coerce s)
  · intro hs
    rw [coerce_eq_self.mpr hs, h]

theorem storedAttachment_eq_self {a : Attachment} :
    storedAttachment a = a ↔ Valid a.filename ∧ Valid a.contentType := by
  unfold storedAttachment
  rw [← coerce_eq_self, ← coerce_eq_self]
  constructor
  · intro h
    exact ⟨congrArg Attachment.filename h, congrArg Attachment.contentType h⟩
  · rintro ⟨hf, hc⟩
    rw [hf, hc]

/-- **A message comes back as it was exactly when all its texts are UTF-8.** -/
theorem storedMessage_eq_self {m : Message} (he : trimSpace m.envelopeFrom = m.envelopeFrom)
    (hh : trimSpace m.headerFrom = m.headerFrom) :
    storedMessage m = m ↔ ∀ s ∈ messageTexts m, Valid s := by
  have hfields : storedMessage m = m ↔
      trimSpace (coerce (trimSpace m.envelopeFrom)) = m.envelopeFrom ∧
      trimSpace (coerce (trimSpace m.headerFrom)) = m.headerFrom ∧
      m.replyTo.map coerce = m.replyTo ∧ m.toAddrs.map coerce = m.toAddrs ∧
      coerce m.subject = m.subject ∧ coerce m.textBody = m.textBody ∧
      coerce m.htmlBody = m.htmlBody ∧ m.attachments.map storedAttachment = m.attachments := by
    unfold storedMessage
    cases m
    simp only [Message.mk.injEq]
  rw [hfields, trimmed_eq_self he, trimmed_eq_self hh, map_eq_self, map_eq_self, map_eq_self]
  simp only [coerce_eq_self, storedAttachment_eq_self, messageTexts, forall_mem_append,
    forall_mem_cons, mem_flatMap, not_mem_nil, false_imp_iff, implies_true, and_true]
  constructor
  · rintro ⟨h1, h2, h3, h4, h5, h6, h7, h8⟩
    refine ⟨⟨⟨⟨⟨h1, h2⟩, h3⟩, h4⟩, h5, h6, h7⟩, ?_⟩
    rintro s ⟨a, ha, hs⟩
    rcases mem_cons.mp hs with rfl | hs
    · exact (h8 a ha).1
    · rw [mem_singleton.mp hs]
      exact (h8 a ha).2
  · rintro ⟨⟨⟨⟨⟨h1, h2⟩, h3⟩, h4⟩, h5, h6, h7⟩, h8⟩
    refine ⟨h1, h2, h3, h4, h5, h6, h7, fun a ha => ⟨?_, ?_⟩⟩
    · exact h8 _ ⟨a, ha, mem_cons_self ..⟩
    · exact h8 _ ⟨a, ha, mem_cons_of_mem _ (mem_cons_self ..)⟩

end SmtpCloudRelay.Spool
