/-
  MIME TREES: what nesting and wrapping do to a message.

  A multipart message is a FOREST: its parts are leaves, or multipart nodes with parts of their own.
  `parseMultipart` walks over it with ONE message that all levels write to.

  1. **Nesting** — the walk is a fold over the leaves in document order (`parseMultipart_forest`), so a
     forest and the flat list of its leaves give the same message (`multipart_flattens`).  The bodies
     are the text leaves on lines of their own, where empty ones count only behind a non-empty one
     (`foldl_joinBody`).
  2. **Wrapping** — a message that has no parts is read by OTHER code.  It takes whatever is not HTML
     for a text and knows no attachments; the walk drops what is neither a text nor an attachment.
     `wrapping_keeps_iff` says for which parts the two agree.
-/
import SmtpCloudRelay.Smtp.Leaves

namespace SmtpCloudRelay.Smtp

open Go Lib List

/-- A node of a message, with the part as the reader above it yields it. -/
inductive MimeTree where
  | leaf (part : Part)
  | node (part : Part) (children : List MimeTree)

/-- The part of a node. -/
def MimeTree.part : MimeTree → Part
  | .leaf part => part
  | .node part _ => part

mutual

/-- The leaves below a node, in document order. -/
def MimeTree.leafParts : MimeTree → List Part
  | .leaf part => [part]
  | .node _ children => leafParts children

/-- The leaves of a forest, in document order. -/
def leafParts : List MimeTree → List Part
  | [] => []
  | t :: ts => t.leafParts ++ leafParts ts

end

/-- The forest without its inner nodes. -/
def flat (ts : List MimeTree) : List MimeTree := (leafParts ts).map .leaf

theorem leafParts_flat (ts : List MimeTree) : leafParts (flat ts) = leafParts ts := by
  unfold flat
  induction leafParts ts with
  | nil => rfl
  | cons part parts ih => exact congrArg (part :: ·) ih

section Reading

variable [Unicode] (lib : MailLib)

mutual

/-- A node of this shape: a leaf is not multipart, and an inner node has a boundary, at which a reader
    finds its children in order. -/
def MimeTree.Fits : MimeTree → Prop
  | .leaf part => isMultipart (partType lib part).1 = false
  | .node part children =>
    isMultipart (partType lib part).1 = true ∧ (partType lib part).2 ≠ [] ∧
      lib.parts (partType lib part).2 part.body = (children.map MimeTree.part, none) ∧ AllFit children

/-- All of them have their shape. -/
def AllFit : List MimeTree → Prop
  | [] => True
  | t :: ts => t.Fits ∧ AllFit ts

end

/-- **A reader finds the forest in a body.** -/
structure Reads (boundary : GoString) (r : Reader) (ts : List MimeTree) : Prop where
  parts : lib.parts boundary r = (ts.map MimeTree.part, none)
  fits : AllFit lib ts

/-- A part as a leaf, with the type that the walk gives it. -/
def leafOf (part : Part) : Leaf := partLeaf lib part (partType lib part).1

/-- The leaves of a forest. -/
def forestLeaves (ts : List MimeTree) : List Leaf := (leafParts ts).map (leafOf lib)

end Reading

/-! ## The walk -/

section Walk

variable [Unicode] {lib : MailLib} {boundary : GoString} {r : Reader} {ts : List MimeTree}

theorem parseMultipart_parts (hparts : lib.parts boundary r = (ts.map MimeTree.part, none))
    (out : Message) : parseMultipart lib boundary r out =
      ts.foldlM (fun o t => parsePart lib (fun b o => parseMultipart lib b t.part.body o) t.part o)
        out := by
  rw [parseMultipart_eq, hparts, foldlM_map]
  exact bind_pure _

mutual

theorem MimeTree.walk (t : MimeTree) (h : t.Fits lib) (out : Message) :
    parsePart lib (fun b o => parseMultipart lib b t.part.body o) t.part out =
      (t.leafParts.map (leafOf lib)).foldlM takeLeaf out := by
  match t, h with
  | .leaf part, h =>
    have h : isMultipart (partType lib part).1 = false := h
    show parsePart lib _ part out = takeLeaf out (leafOf lib part) >>= fun o => pure o
    rw [bind_pure, leafOf, takeLeaf_partLeaf out h]
    unfold parsePart
    exact if_neg (Bool.eq_false_iff.mp h)
  | .node part children, ⟨hmulti, hbound, hparts, hfit⟩ =>
    -- the part has a boundary: the walk goes on below it
    have hstep : parsePart lib (fun b o => parseMultipart lib b part.body o) part out =
        parseMultipart lib (partType lib part).2 part.body out := by
      unfold parsePart
      exact (if_pos hmulti).trans (if_neg hbound)
    exact hstep.trans ((parseMultipart_parts hparts out).trans (forest_walk children hfit out))

theorem forest_walk (ts : List MimeTree) (h : AllFit lib ts) (out : Message) :
    ts.foldlM (fun o t => parsePart lib (fun b o => parseMultipart lib b t.part.body o) t.part o) out =
      (forestLeaves lib ts).foldlM takeLeaf out := by
  match ts, h with
  | [], _ => rfl
  | t :: ts, ⟨ht, hts⟩ =>
    unfold forestLeaves
    rw [leafParts, map_append, foldlM_append, foldlM_cons, MimeTree.walk t ht out]
    exact congrArg _ (funext fun o => forest_walk ts hts o)

end

/-- **The walk is a fold over the leaves in document order.** -/
theorem parseMultipart_forest (h : Reads lib boundary r ts) (out : Message) :
    parseMultipart lib boundary r out = (forestLeaves lib ts).foldlM takeLeaf out :=
  (parseMultipart_parts h.parts out).trans (forest_walk ts h.fits out)

end Walk

/-! ## What the leaves become -/

section Content

variable [Unicode]

/-- A leaf that becomes an attachment: its disposition says so, or it has a file name. -/
def Leaf.isAttachment (l : Leaf) : Bool :=
  equalFold l.disposition (lit "attachment") || l.filename ≠ []

/-- A leaf of a type that is not an attachment. -/
def Leaf.isInline (type : String) (l : Leaf) : Bool :=
  !l.isAttachment && equalFold l.mediaType (lit type)

/-- The decoded bytes of a leaf. -/
def Leaf.bytes (l : Leaf) : GoString := l.decoded.toOption.getD []

/-- Texts on lines of their own, without the empty ones at the front. -/
def joinLines (texts : List GoString) : GoString := (lit "\n").intercalate (texts.dropWhile (· = []))

/-- **The content of a message, leaf by leaf.** -/
structure HasContent (ls : List Leaf) (msg : Message) : Prop where
  attachments : msg.attachments = (ls.filter Leaf.isAttachment).map fun l => l.attachment l.bytes
  text : msg.textBody = joinLines ((ls.filter (Leaf.isInline "text/plain")).map Leaf.bytes)
  html : msg.htmlBody = joinLines ((ls.filter (Leaf.isInline "text/html")).map Leaf.bytes)

omit [Unicode] in
/-- Behind a text, every further text is on a new line. -/
theorem foldl_joinBody_ne {body : GoString} (h : body ≠ []) (texts : List GoString) :
    texts.foldl joinBody body = (lit "\n").intercalate (body :: texts) := by
  induction texts generalizing body with
  | nil => exact (append_nil _).symm
  | cons t texts ih =>
    have hstep : joinBody body t = body ++ lit "\n" ++ t := if_neg h
    have hne : body ++ lit "\n" ++ t ≠ [] := by simp [h]
    rw [foldl_cons, hstep, ih hne, intercalate_cons_cons]
    cases texts with
    | nil => rw [intercalate_singleton, intercalate_singleton]
    | cons u texts => simp only [intercalate_cons_cons, append_assoc]

omit [Unicode] in
/-- **The bodies are lines**: an empty text counts only behind one that is not empty. -/
theorem foldl_joinBody (texts : List GoString) : texts.foldl joinBody [] = joinLines texts := by
  induction texts with
  | nil => rfl
  | cons t texts ih =>
    unfold joinLines at ih ⊢
    show texts.foldl joinBody t = _
    by_cases ht : t = []
    · rw [ht, dropWhile_cons_of_pos (by simp), ih]
    · rw [dropWhile_cons_of_neg (by simpa using ht), foldl_joinBody_ne ht]

/-- A leaf below a multipart node that has a boundary. -/
structure Leaf.Inner (l : Leaf) : Prop where
  part : l.whole = false
  undivided : isMultipart l.mediaType = false

omit [Unicode] in
/-- No type is both a text and HTML. -/
theorem html_of_plain {mediaType : GoString} (h : equalFold mediaType (lit "text/plain") = true) :
    equalFold mediaType (lit "text/html") = false := by
  have h := of_decide_eq_true h
  unfold equalFold
  rw [h]
  decide

theorem put_content {l : Leaf} (h : l.Inner) (data : GoString) (out : Message) :
    (l.put data out).attachments =
        out.attachments ++ (if l.isAttachment then [l.attachment data] else []) ∧
      (l.put data out).textBody =
        (if l.isInline "text/plain" then joinBody out.textBody data else out.textBody) ∧
      (l.put data out).htmlBody =
        (if l.isInline "text/html" then joinBody out.htmlBody data else out.htmlBody) := by
  have hplace : l.place = if l.isAttachment then some .attachment
      else if equalFold l.mediaType (lit "text/plain") then some .text
      else if equalFold l.mediaType (lit "text/html") then some .html else none := by
    unfold Leaf.place
    rw [h.part, if_neg Bool.false_ne_true, if_neg (Bool.eq_false_iff.mp h.undivided)]
    rfl
  unfold Leaf.put Leaf.isInline
  rw [hplace]
  cases hattach : l.isAttachment with
  | true => simp
  | false =>
    cases hplain : equalFold l.mediaType (lit "text/plain") with
    | true => simp [html_of_plain hplain]
    | false => cases equalFold l.mediaType (lit "text/html") <;> simp

theorem takeLeaf_inner {l : Leaf} (h : l.Inner) (out : Message) :
    takeLeaf out l = l.decoded.map fun data => l.put data out := by
  unfold takeLeaf
  rw [if_neg fun hc => Bool.eq_false_iff.mp h.undivided hc.2]
  cases l.decoded <;> rfl

/-- **The walk succeeds exactly if every leaf can be decoded.** -/
theorem takeLeaves_ok {ls : List Leaf} (hinner : ∀ l ∈ ls, l.Inner) (out : Message) :
    (∃ msg, ls.foldlM takeLeaf out = .ok msg) ↔ ∀ l ∈ ls, ∃ data, l.decoded = .ok data := by
  induction ls generalizing out with
  | nil => exact ⟨fun _ => forall_mem_nil _, fun _ => ⟨out, rfl⟩⟩
  | cons l ls ih =>
    obtain ⟨hl, hls⟩ := forall_mem_cons.mp hinner
    rw [foldlM_cons, forall_mem_cons, takeLeaf_inner hl]
    cases hdata : l.decoded with
    | error e =>
      constructor
      · rintro ⟨msg, hmsg⟩
        nomatch hmsg
      · rintro ⟨⟨data, hdata⟩, -⟩
        nomatch hdata
    | ok data =>
      refine (ih hls (l.put data out)).trans ⟨fun h => ⟨⟨data, rfl⟩, h⟩, fun h => h.2⟩

theorem takeLeaves_content {ls : List Leaf} (hinner : ∀ l ∈ ls, l.Inner) {out msg : Message}
    (h : ls.foldlM takeLeaf out = .ok msg) :
    msg.attachments =
        out.attachments ++ (ls.filter Leaf.isAttachment).map (fun l => l.attachment l.bytes) ∧
      msg.textBody =
        ((ls.filter (Leaf.isInline "text/plain")).map Leaf.bytes).foldl joinBody out.textBody ∧
      msg.htmlBody =
        ((ls.filter (Leaf.isInline "text/html")).map Leaf.bytes).foldl joinBody out.htmlBody := by
  induction ls generalizing out with
  | nil =>
    cases h
    exact ⟨(append_nil _).symm, rfl, rfl⟩
  | cons l ls ih =>
    obtain ⟨hl, hls⟩ := forall_mem_cons.mp hinner
    rw [foldlM_cons, takeLeaf_inner hl] at h
    cases hdata : l.decoded with
    | error e =>
      rw [hdata] at h
      nomatch h
    | ok data =>
      rw [hdata] at h
      have hbytes : l.bytes = data := by
        unfold Leaf.bytes
        rw [hdata]
        rfl
      obtain ⟨hattach, htext, hhtml⟩ := put_content hl data out
      obtain ⟨hattach', htext', hhtml'⟩ := ih hls h
      rw [hattach', htext', hhtml', hattach, htext, hhtml, filter_cons, filter_cons, filter_cons]
      refine ⟨?_, ?_, ?_⟩
      · cases l.isAttachment <;> simp [hbytes]
      · cases l.isInline "text/plain" <;> simp [hbytes]
      · cases l.isInline "text/html" <;> simp [hbytes]

end Content

/-! ## Nesting -/

section Nesting

variable [Unicode] {lib : MailLib} {boundary : GoString} {r : Reader} {ts : List MimeTree}

mutual

theorem MimeTree.leaves_inner (t : MimeTree) (h : t.Fits lib) :
    ∀ part ∈ t.leafParts, isMultipart (partType lib part).1 = false := by
  match t, h with
  | .leaf part, h => exact forall_mem_singleton.mpr h
  | .node part children, ⟨_, _, _, hfit⟩ => exact forest_inner children hfit

/-- The leaves of a forest are no multipart nodes. -/
theorem forest_inner (ts : List MimeTree) (h : AllFit lib ts) :
    ∀ part ∈ leafParts ts, isMultipart (partType lib part).1 = false := by
  match ts, h with
  | [], _ => exact forall_mem_nil _
  | t :: ts, ⟨ht, hts⟩ =>
    rw [leafParts]
    exact forall_mem_append.mpr ⟨t.leaves_inner ht, forest_inner ts hts⟩

end

theorem forestLeaves_inner (h : AllFit lib ts) : ∀ l ∈ forestLeaves lib ts, l.Inner := by
  intro l hl
  obtain ⟨part, hpart, rfl⟩ := mem_map.mp hl
  exact ⟨rfl, forest_inner ts h part hpart⟩

/-- **Multipart parsing is a flattening.** -/
theorem multipart_flattens (h : Reads lib boundary r ts) {out : Message} (hattachments : out.attachments = [])
    (htext : out.textBody = []) (hhtml : out.htmlBody = []) :
    ((∃ msg, parseMultipart lib boundary r out = .ok msg) ↔
      ∀ l ∈ forestLeaves lib ts, ∃ data, l.decoded = .ok data) ∧
    (∀ boundary' r', Reads lib boundary' r' (flat ts) →
      parseMultipart lib boundary' r' out = parseMultipart lib boundary r out) ∧
    (∀ msg, parseMultipart lib boundary r out = .ok msg → HasContent (forestLeaves lib ts) msg) := by
  have hinner := forestLeaves_inner h.fits
  rw [parseMultipart_forest h]
  refine ⟨takeLeaves_ok hinner out, fun boundary' r' h' => ?_, fun msg hmsg => ?_⟩
  · rw [parseMultipart_forest h']
    unfold forestLeaves
    rw [leafParts_flat]
  · obtain ⟨ha, ht, hh⟩ := takeLeaves_content hinner hmsg
    rw [hattachments, nil_append] at ha
    rw [htext, foldl_joinBody] at ht
    rw [hhtml, foldl_joinBody] at hh
    exact ⟨ha, ht, hh⟩

end Nesting

/-! ## Wrapping -/

section Wrapping

variable [Unicode] {lib : MailLib} {p : ReadPart} {single wrapped : Reader}

/-- **A message that is the part itself, and one that has it as its only part.** -/
structure Wraps (lib : MailLib) (p : ReadPart) (single wrapped : Reader) : Prop where
  single : lib.readMessage single = .ok (headerGet p.fields, ⟨p.body, none⟩)
  wrapped : ∃ header body, lib.readMessage wrapped = .ok (header, body) ∧
    (lib.parseMediaType (header (lit "Content-Type"))).err = none ∧
    (lib.parseMediaType (header (lit "Content-Type"))).mediaType = lit "multipart/mixed" ∧
    (lib.parseMediaType (header (lit "Content-Type"))).params (lit "boundary") ≠ [] ∧
    lib.parts ((lib.parseMediaType (header (lit "Content-Type"))).params (lit "boundary")) body =
      ([nextPart lib.decodeQuotedPrintable p], none)
  leaf : (leafOf lib (partOf p)).Inner

/-- The two bodies and the attachments, where the message could be parsed. -/
def contentOf (parsed : Except GoError Message) : Option (GoString × GoString × List Attachment) :=
  parsed.toOption.map fun msg => (msg.textBody, msg.htmlBody, msg.attachments)

omit [Unicode] in
theorem headerGet_filter_ne {fields : List Field} {name : GoString}
    (h : canonicalMIMEHeaderKey name ≠ lit "Content-Transfer-Encoding") :
    headerGet (fields.filter fun f => f.1 ≠ lit "Content-Transfer-Encoding") name =
      headerGet fields name := by
  unfold headerGet
  rw [find?_filter]
  congr 3
  funext f
  by_cases hf : f.1 = canonicalMIMEHeaderKey name
  · simp [hf, h]
  · simp [hf]

omit [Unicode] in
theorem headerGet_filter_self (fields : List Field) :
    headerGet (fields.filter fun f => f.1 ≠ lit "Content-Transfer-Encoding")
      (lit "Content-Transfer-Encoding") = [] := by
  have hkey : canonicalMIMEHeaderKey (lit "Content-Transfer-Encoding") =
      lit "Content-Transfer-Encoding" := by decide
  unfold headerGet
  rw [hkey, find?_filter, find?_eq_none.mpr]
  · rfl
  · intro f _
    simp

/-- The name of an encoding in any case is read as that encoding. -/
theorem decodeTransferEncoding_quotedPrintable {encoding : GoString}
    (h : equalFold encoding (lit "quoted-printable") = true) (data : GoString) :
    (decodeTransferEncoding lib encoding data).toOption = (lib.decodeQuotedPrintable data).toOption := by
  have hlower : encoding.map lowerByte = lit "quoted-printable" := of_decide_eq_true h
  have hvisible : ∀ b, 0x20 < lowerByte b ∧ lowerByte b < 0x80 → 0x20 < b ∧ b < 0x80 :=
    forall_byte (by decide +kernel)
  have hname : ∀ b ∈ lit "quoted-printable", 0x20 < b ∧ b < 0x80 := bytes_of_all (by decide)
  have hascii : ∀ b ∈ encoding, 0x20 < b ∧ b < 0x80 := by
    intro b hb
    refine hvisible b (hname _ ?_)
    rw [← hlower]
    exact mem_map_of_mem hb
  have htrim : trimSpace encoding = encoding := trimSpace_visible hascii
  have hlower : toLower encoding = lit "quoted-printable" := (toLower_visible hascii).trans hlower
  unfold decodeTransferEncoding
  dsimp only
  rw [htrim, hlower, if_neg (by decide), if_pos rfl]
  cases lib.decodeQuotedPrintable data <;> rfl

/-- What a leaf is depends on three things besides its bytes. -/
theorem leafOf_congr (lib : MailLib) (q q' : Part)
    (htype : q.header (lit "Content-Type") = q'.header (lit "Content-Type"))
    (hdisposition : q.header (lit "Content-Disposition") = q'.header (lit "Content-Disposition"))
    (hfile : q.fileName = q'.fileName) :
    (leafOf lib q).mediaType = (leafOf lib q').mediaType ∧
      (leafOf lib q).disposition = (leafOf lib q').disposition ∧
      (leafOf lib q).filename = (leafOf lib q').filename := by
  unfold leafOf partType partLeaf
  rw [htype, hdisposition, hfile]
  exact ⟨rfl, rfl, rfl⟩

/-- **The reader of parts changes nothing but who undoes quoted-printable.** -/
theorem leafOf_nextPart :
    (leafOf lib (nextPart lib.decodeQuotedPrintable p)).mediaType = (leafOf lib (partOf p)).mediaType ∧
    (leafOf lib (nextPart lib.decodeQuotedPrintable p)).disposition =
      (leafOf lib (partOf p)).disposition ∧
    (leafOf lib (nextPart lib.decodeQuotedPrintable p)).filename = (leafOf lib (partOf p)).filename ∧
    (leafOf lib (nextPart lib.decodeQuotedPrintable p)).decoded.toOption =
      (leafOf lib (partOf p)).decoded.toOption := by
  have hType : canonicalMIMEHeaderKey (lit "Content-Type") ≠ lit "Content-Transfer-Encoding" := by decide
  have hDisposition : canonicalMIMEHeaderKey (lit "Content-Disposition") ≠
      lit "Content-Transfer-Encoding" := by decide
  unfold nextPart
  split
  · next hquoted =>
    -- the field is gone, and the text is what quoted-printable stands for
    have hfile : fileNameOf (p.fields.filter fun f => f.1 ≠ lit "Content-Transfer-Encoding") =
        fileNameOf p.fields := by
      unfold fileNameOf
      rw [headerGet_filter_ne hDisposition]
    have hdecoded : (leafOf lib (partOf p)).decoded.toOption =
        (lib.decodeQuotedPrintable p.body).toOption :=
      decodeTransferEncoding_quotedPrintable hquoted p.body
    have hundone : decodeTransferEncoding lib (headerGet (p.fields.filter fun f =>
        f.1 ≠ lit "Content-Transfer-Encoding") (lit "Content-Transfer-Encoding")) = Except.ok := by
      rw [headerGet_filter_self]
      rfl
    rw [hdecoded]
    cases lib.decodeQuotedPrintable p.body with
    | ok data =>
      obtain ⟨htype, hdisposition, hname⟩ := leafOf_congr lib
        ⟨headerGet _, fileNameOf _, ⟨data, none⟩⟩ (partOf p) (headerGet_filter_ne hType)
        (headerGet_filter_ne hDisposition) hfile
      exact ⟨htype, hdisposition, hname, congrArg Except.toOption (congrFun hundone data)⟩
    | error e =>
      obtain ⟨htype, hdisposition, hname⟩ := leafOf_congr lib
        ⟨headerGet _, fileNameOf _, ⟨[], some e⟩⟩ (partOf p) (headerGet_filter_ne hType)
        (headerGet_filter_ne hDisposition) hfile
      exact ⟨htype, hdisposition, hname, rfl⟩
  · exact ⟨rfl, rfl, rfl, rfl⟩

/-- Where the parser of a message without parts puts the bytes. -/
def loneContent (l : Leaf) (data : GoString) : GoString × GoString × List Attachment :=
  if equalFold l.mediaType (lit "text/html") then ([], data, []) else (data, [], [])

/-- Where the walk over the parts puts them. -/
def innerContent (l : Leaf) (data : GoString) : GoString × GoString × List Attachment :=
  (if l.isInline "text/plain" then data else [], if l.isInline "text/html" then data else [],
    if l.isAttachment then [l.attachment data] else [])

/-- The fallback of a message and that of a part differ, but neither is multipart, and neither is HTML. -/
theorem typeOr_fallback {mt : MediaType}
    (h : isMultipart (mt.typeOr (lit "application/octet-stream")) = false) :
    isMultipart (mt.typeOr (lit "text/plain")) = false ∧
      equalFold (mt.typeOr (lit "text/plain")) (lit "text/html") =
        equalFold (mt.typeOr (lit "application/octet-stream")) (lit "text/html") := by
  unfold MediaType.typeOr at h ⊢
  cases hmt : mt.err with
  | none =>
    rw [hmt] at h
    exact ⟨h, rfl⟩
  | some e => exact ⟨rfl, rfl⟩

theorem single_content (h : Wraps lib p single wrapped) (envelopeFrom : GoString)
    (envelopeTo : List GoString) :
    contentOf (parseMessage lib single envelopeFrom envelopeTo) =
      (leafOf lib (partOf p)).decoded.toOption.map (loneContent (leafOf lib (partOf p))) := by
  have hmulti : isMultipart ((lib.parseMediaType (headerGet p.fields (lit "Content-Type"))).typeOr
      (lit "text/plain")) = false := (typeOr_fallback h.leaf.undivided).1
  have hhtml : equalFold ((lib.parseMediaType (headerGet p.fields (lit "Content-Type"))).typeOr
      (lit "text/plain")) (lit "text/html") = equalFold (leafOf lib (partOf p)).mediaType
      (lit "text/html") := (typeOr_fallback h.leaf.undivided).2
  have hdecoded : (leafOf lib (partOf p)).decoded =
      decodeTransferEncoding lib (headerGet p.fields (lit "Content-Transfer-Encoding")) p.body := rfl
  unfold parseMessage
  rw [h.single]
  show contentOf (if isMultipart _ = true then _ else _) = _
  rw [if_neg (Bool.eq_false_iff.mp hmulti), hdecoded]
  show contentOf (decodeTransferEncoding lib (headerGet p.fields (lit "Content-Transfer-Encoding"))
    p.body >>= _) = _
  cases decodeTransferEncoding lib (headerGet p.fields (lit "Content-Transfer-Encoding")) p.body with
  | error e => rfl
  | ok data =>
    show contentOf (if equalFold _ _ = true then _ else _) = some (loneContent _ data)
    unfold loneContent
    rw [hhtml]
    split <;> rfl

theorem wrapped_content (h : Wraps lib p single wrapped) (envelopeFrom : GoString)
    (envelopeTo : List GoString) :
    contentOf (parseMessage lib wrapped envelopeFrom envelopeTo) =
      (leafOf lib (partOf p)).decoded.toOption.map (innerContent (leafOf lib (partOf p))) := by
  obtain ⟨header, body, hread, herr, htype, hbound, hparts⟩ := h.wrapped
  obtain ⟨hmedia, hdisposition, hfile, hdecoded⟩ := leafOf_nextPart (p := p)
  have hinner : (leafOf lib (nextPart lib.decodeQuotedPrintable p)).Inner :=
    ⟨rfl, by rw [hmedia]; exact h.leaf.undivided⟩
  have hmixed : (lib.parseMediaType (header (lit "Content-Type"))).typeOr (lit "text/plain") =
      lit "multipart/mixed" := by
    unfold MediaType.typeOr
    rw [herr, htype]
    rfl
  -- the walk meets this one leaf
  have hwalk : ∀ out : Message, contentOf (parseMultipart lib
      ((lib.parseMediaType (header (lit "Content-Type"))).params (lit "boundary")) body out) =
      (leafOf lib (nextPart lib.decodeQuotedPrintable p)).decoded.toOption.map fun data =>
        (((leafOf lib (nextPart lib.decodeQuotedPrintable p)).put data out).textBody,
          ((leafOf lib (nextPart lib.decodeQuotedPrintable p)).put data out).htmlBody,
          ((leafOf lib (nextPart lib.decodeQuotedPrintable p)).put data out).attachments) := by
    intro out
    have hreads : Reads lib ((lib.parseMediaType (header (lit "Content-Type"))).params (lit "boundary"))
        body [.leaf (nextPart lib.decodeQuotedPrintable p)] := ⟨hparts, hinner.undivided, trivial⟩
    rw [parseMultipart_forest hreads]
    show contentOf (takeLeaf out _ >>= pure) = _
    rw [bind_pure, takeLeaf_inner hinner]
    cases (leafOf lib (nextPart lib.decodeQuotedPrintable p)).decoded <;> rfl
  have hmulti : isMultipart (lit "multipart/mixed") = true := rfl
  unfold parseMessage
  rw [hread]
  show contentOf (if isMultipart _ = true then _ else _) = _
  rw [hmixed, if_pos hmulti]
  show contentOf (failIf _ _ >>= _) = _
  rw [failIf_eq_ok (u := ()) |>.mpr hbound]
  refine (hwalk _).trans ?_
  rw [hdecoded]
  refine congrArg (Option.map · _) (funext fun data => ?_)
  rw [(put_content hinner data _).1, (put_content hinner data _).2.1, (put_content hinner data _).2.2]
  unfold innerContent Leaf.isInline Leaf.isAttachment Leaf.attachment
  rw [hmedia, hdisposition, hfile]
  rfl

omit [Unicode] in
/-- The two agree on a leaf. -/
theorem content_agrees_iff {l : Leaf} {data : GoString} :
    loneContent l data = innerContent l data ↔
      l.isAttachment = false ∧ (equalFold l.mediaType (lit "text/plain") = true ∨
        equalFold l.mediaType (lit "text/html") = true ∨ data = []) := by
  unfold loneContent innerContent Leaf.isInline
  cases l.isAttachment with
  | true =>
    simp
    split <;> simp
  | false =>
    cases hplain : equalFold l.mediaType (lit "text/plain") with
    | true =>
      simp [html_of_plain hplain]
    | false =>
      cases equalFold l.mediaType (lit "text/html") <;> simp

/-- **Wrapping a part keeps its meaning exactly if** it cannot be decoded, or it is no attachment, and it
    has the type of a text or is empty. -/
theorem wrapping_keeps_iff (h : Wraps lib p single wrapped) (envelopeFrom : GoString)
    (envelopeTo : List GoString) :
    contentOf (parseMessage lib single envelopeFrom envelopeTo) =
        contentOf (parseMessage lib wrapped envelopeFrom envelopeTo) ↔
      ∀ data, (leafOf lib (partOf p)).decoded = .ok data →
        (leafOf lib (partOf p)).isAttachment = false ∧
          (equalFold (leafOf lib (partOf p)).mediaType (lit "text/plain") = true ∨
            equalFold (leafOf lib (partOf p)).mediaType (lit "text/html") = true ∨ data = []) := by
  rw [single_content h, wrapped_content h]
  cases hdata : (leafOf lib (partOf p)).decoded with
  | error e => exact ⟨fun _ data hd => (nomatch hd), fun _ => rfl⟩
  | ok data =>
    show some _ = some _ ↔ _
    rw [Option.some_inj, content_agrees_iff]
    constructor
    · rintro hagrees data' hd
      cases hd
      exact hagrees
    · intro hall
      exact hall data rfl

end Wrapping

section Cases

/-- The parts that the ASCII library finds, by a run of the reader. -/
theorem asciiMail_parts (boundary data : GoString) (ps : List ReadPart)
    (hparts : (readMultipart boundary data).1.map (fun p => (p.fields, p.body)) =
      ps.map fun p => (p.fields, p.body))
    (hend : (readMultipart boundary data).2 = none)
    (hplain : (ps.all fun p => !equalFold (headerGet p.fields (lit "Content-Transfer-Encoding"))
      (lit "quoted-printable")) = true) :
    letI := Unicode.ascii
    asciiMail.parts boundary ⟨data, none⟩ = (ps.map partOf, none) := by
  let _ := Unicode.ascii
  have hinj : Function.Injective fun p : ReadPart => (p.fields, p.body) := by
    rintro ⟨fields, body⟩ ⟨fields', body'⟩ h
    cases h
    rfl
  have hps : (readMultipart boundary data).1 = ps := map_injective_iff.mpr hinj hparts
  show ((readMultipart boundary data).1.map _, (readMultipart boundary data).2.map _) = _
  rw [hps, hend]
  refine Prod.ext (map_congr_left fun p hp => ?_) rfl
  have hp := all_eq_true.mp hplain p hp
  unfold nextPart
  exact if_neg (by simpa using hp)

/-- A part of a type. -/
def typedPart (type : String) (others : List Field) (body : String) : ReadPart :=
  ⟨(lit "Content-Type", lit type) :: others, lit body⟩

/-- A text in two forms. -/
def alternativeBody : String :=
  "--c\r\nContent-Type: text/plain\r\n\r\ntwo\r\n--c\r\nContent-Type: text/html\r\n\r\n<p>\r\n--c--\r\n"

/-- Another text before it. -/
def nestedBody : GoString :=
  lit "--b\r\nContent-Type: text/plain\r\n\r\none\r\n--b\r\nContent-Type: multipart/alternative; boundary=c\r\n\r\n" ++
    lit alternativeBody ++ lit "\r\n--b--\r\n"

/-- The forest of these parts. -/
def nestedForest : List MimeTree :=
  letI := Unicode.ascii
  [.leaf (partOf (typedPart "text/plain" [] "one")),
    .node (partOf (typedPart "multipart/alternative; boundary=c" [] alternativeBody))
      [.leaf (partOf (typedPart "text/plain" [] "two")), .leaf (partOf (typedPart "text/html" [] "<p>"))]]

theorem nestedForest_reads :
    letI := Unicode.ascii
    Reads asciiMail (lit "b") ⟨nestedBody, none⟩ nestedForest := by
  let _ := Unicode.ascii
  have hinner := asciiMail_parts (lit "c") (lit alternativeBody)
    [typedPart "text/plain" [] "two", typedPart "text/html" [] "<p>"]
    (by decide +kernel) (by decide +kernel) (by decide +kernel)
  have houter := asciiMail_parts (lit "b") nestedBody
    [typedPart "text/plain" [] "one", typedPart "multipart/alternative; boundary=c" [] alternativeBody]
    (by decide +kernel) (by decide +kernel) (by decide +kernel)
  have hone : isMultipart (partType asciiMail (partOf (typedPart "text/plain" [] "one"))).1 = false := by
    decide +kernel
  have htwo : isMultipart (partType asciiMail (partOf (typedPart "text/plain" [] "two"))).1 = false := by
    decide +kernel
  have hhtml : isMultipart (partType asciiMail (partOf (typedPart "text/html" [] "<p>"))).1 = false := by
    decide +kernel
  exact ⟨houter, hone, ⟨by decide +kernel, by decide +kernel, hinner, htwo, hhtml, trivial⟩, trivial⟩

/-- A message that is nested once. -/
theorem multipart_flattens_nested :
    letI := Unicode.ascii
    ∃ msg, parseMultipart asciiMail (lit "b") ⟨nestedBody, none⟩ Message.zero = .ok msg ∧
      HasContent (forestLeaves asciiMail nestedForest) msg ∧ msg.textBody = lit "one\ntwo" := by
  let _ := Unicode.ascii
  have hparse : parseMultipart asciiMail (lit "b") ⟨nestedBody, none⟩ Message.zero =
      .ok { Message.zero with textBody := lit "one\ntwo", htmlBody := lit "<p>" } := by
    decide +kernel
  exact ⟨_, hparse, (multipart_flattens nestedForest_reads rfl rfl rfl).2.2 _ hparse, rfl⟩

/-- Two messages that the ASCII library reads as a part and as that part wrapped. -/
theorem asciiMail_wraps {p : ReadPart} {single wrapped : GoString} (body : GoString)
    (hsingle : readFields (single.length + 1) single = .ok (p.fields, some p.body))
    (hwrapped : readFields (wrapped.length + 1) wrapped =
      .ok ([(lit "Content-Type", lit "multipart/mixed; boundary=b")], some body))
    (hblank : single.head?.any isBlank = false ∧ wrapped.head?.any isBlank = false)
    (hparts : (readMultipart (lit "b") body).1.map (fun p => (p.fields, p.body)) = [(p.fields, p.body)])
    (hend : (readMultipart (lit "b") body).2 = none)
    (hplain : equalFold (headerGet p.fields (lit "Content-Transfer-Encoding"))
      (lit "quoted-printable") = false)
    (hleaf : letI := Unicode.ascii
      isMultipart (partType asciiMail (partOf p)).1 = false) :
    letI := Unicode.ascii
    Wraps asciiMail p ⟨single, none⟩ ⟨wrapped, none⟩ := by
  let _ := Unicode.ascii
  have hread : ∀ {data fields body}, readFields (data.length + 1) data = .ok (fields, some body) →
      data.head?.any isBlank = false →
      asciiMail.readMessage ⟨data, none⟩ = .ok (headerGet fields, ⟨body, none⟩) := by
    intro data fields body hfields hstart
    show readMessage _ = _
    unfold readMessage
    rw [if_neg (Bool.eq_false_iff.mp hstart), hfields]
  refine ⟨hread hsingle hblank.1, ⟨_, _, hread hwrapped hblank.2, ?_, ?_, ?_, ?_⟩, rfl, hleaf⟩
  · decide +kernel
  · decide +kernel
  · decide +kernel
  · have hbound : (asciiMail.parseMediaType (headerGet [(lit "Content-Type",
        lit "multipart/mixed; boundary=b")] (lit "Content-Type"))).params (lit "boundary") = lit "b" := by
      decide +kernel
    have hnext : nextPart asciiMail.decodeQuotedPrintable p = partOf p :=
      if_neg (Bool.eq_false_iff.mp hplain)
    rw [hbound, hnext]
    exact asciiMail_parts (lit "b") body [p] hparts hend (by simp [hplain])

/-- A text of one part. -/
def helloMessage (disposition : String) : Reader :=
  ⟨lit "Content-Type: text/plain\r\n" ++ lit disposition ++ lit "\r\nhello", none⟩

/-- The same text as the only part. -/
def wrappedMessage (disposition : String) : Reader :=
  ⟨lit "Content-Type: multipart/mixed; boundary=b\r\n\r\n--b\r\nContent-Type: text/plain\r\n" ++
    lit disposition ++ lit "\r\nhello\r\n--b--\r\n", none⟩

/-- A text that has no other field is wrapped without a change. -/
theorem wrapping_keeps_text :
    letI := Unicode.ascii
    Wraps asciiMail (typedPart "text/plain" [] "hello") (helloMessage "") (wrappedMessage "") ∧
      contentOf (parseMessage asciiMail (helloMessage "") [] []) =
        contentOf (parseMessage asciiMail (wrappedMessage "") [] []) := by
  let _ := Unicode.ascii
  have hwraps : Wraps asciiMail (typedPart "text/plain" [] "hello") (helloMessage "") (wrappedMessage "") :=
    asciiMail_wraps (lit "--b\r\nContent-Type: text/plain\r\n\r\nhello\r\n--b--\r\n")
      (by decide +kernel) (by decide +kernel) (by decide +kernel) (by decide +kernel) (by decide +kernel)
      (by decide +kernel) (by decide +kernel)
  refine ⟨hwraps, (wrapping_keeps_iff hwraps [] []).mpr fun data _ => ⟨?_, Or.inl ?_⟩⟩
  · decide +kernel
  · decide +kernel

/-- **An attachment on its own becomes the text of the message**; as the only part it is an attachment. -/
theorem wrapping_loses_attachment :
    letI := Unicode.ascii
    Wraps asciiMail (typedPart "text/plain" [(lit "Content-Disposition", lit "attachment")] "hello")
        (helloMessage "Content-Disposition: attachment\r\n")
        (wrappedMessage "Content-Disposition: attachment\r\n") ∧
      contentOf (parseMessage asciiMail (helloMessage "Content-Disposition: attachment\r\n") [] []) =
        some (lit "hello", [], []) ∧
      contentOf (parseMessage asciiMail (wrappedMessage "Content-Disposition: attachment\r\n") [] []) =
        some ([], [], [⟨[], lit "text/plain", lit "hello"⟩]) := by
  let _ := Unicode.ascii
  refine ⟨?_, by decide +kernel, by decide +kernel⟩
  exact asciiMail_wraps (lit "--b\r\nContent-Type: text/plain\r\nContent-Disposition: attachment\r\n\r\nhello\r\n--b--\r\n")
    (by decide +kernel) (by decide +kernel) (by decide +kernel) (by decide +kernel) (by decide +kernel)
    (by decide +kernel) (by decide +kernel)

end Cases

end SmtpCloudRelay.Smtp
