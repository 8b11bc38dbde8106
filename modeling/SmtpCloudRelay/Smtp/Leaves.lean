/-
  WHAT BECOMES OF THE LEAVES OF A MESSAGE.

  A MIME message is a tree: multipart nodes, and leaves with a media type, a disposition, a file
  name and decoded bytes.  The parser walks the tree and puts each leaf somewhere (`Leaf.place`):

  * an attachment, if its disposition says so or it has a file name;
  * the text or the HTML body, if its type is `text/plain` or `text/html`;
  * NOWHERE otherwise.  An image without a file name, a part without a `Content-Type`, a part whose
    `Content-Type` cannot be parsed: the loop goes on with the next part.  A multipart part without
    a boundary is passed over with everything in it.

  `parseMultipart_leaves` says that the recursion over the tree is one fold over its leaves, and
  `parseMessage_leaves` what the result consists of.  From it, `leaves_carried_iff` says when no
  bytes are lost: exactly if whatever is in a leaf without a place also stands in one that has one.
-/
import SmtpCloudRelay.Smtp.Library

namespace SmtpCloudRelay.Smtp

open Go Lib List

/-- Where the parser puts a leaf. -/
inductive Place where
  | attachment
  | text
  | html
  deriving DecidableEq

/-- A leaf of the tree; `whole` says that it is the body of a message that has no parts. -/
structure Leaf where
  whole : Bool
  mediaType : GoString
  disposition : GoString
  filename : GoString
  decoded : Except GoError GoString
  deriving DecidableEq

section Tree

variable [Unicode] (lib : MailLib)

/-- The place of a leaf, if it has one. -/
def Leaf.place (l : Leaf) : Option Place :=
  if l.whole then some (if equalFold l.mediaType (lit "text/html") then .html else .text)
  else if isMultipart l.mediaType then none
  else if equalFold l.disposition (lit "attachment") || l.filename ≠ [] then some .attachment
  else if equalFold l.mediaType (lit "text/plain") then some .text
  else if equalFold l.mediaType (lit "text/html") then some .html
  else none

/-- A part as a leaf. -/
def partLeaf (part : Part) (mediaType : GoString) : Leaf where
  whole := false
  mediaType := mediaType
  disposition := (lib.parseMediaType (part.header (lit "Content-Disposition"))).mediaType
  filename :=
    if trimSpace part.fileName = [] then
      trimSpace ((lib.parseMediaType (part.header (lit "Content-Disposition"))).params
        (lit "filename"))
    else trimSpace part.fileName
  decoded := do
    let partBytes ← part.body.readAll.mapError (.wrap (lit "read mime part body: "))
    decodeTransferEncoding lib (part.header (lit "Content-Transfer-Encoding")) partBytes

/-- The type of a part, and the boundary of the parts below it. -/
def partType (part : Part) : GoString × GoString :=
  let mt := lib.parseMediaType (part.header (lit "Content-Type"))
  (mt.typeOr (lit "application/octet-stream"), mt.params (lit "boundary"))

/-- The leaves of a multipart body, from left to right.  A multipart part that names no boundary
    cannot be divided, and is a leaf. -/
def leaves (boundary : GoString) (r : Reader) : List Leaf :=
  (lib.parts boundary r).1.attach.flatMap fun p =>
    if isMultipart (partType lib p.1).1 ∧ (partType lib p.1).2 ≠ [] then
      leaves (partType lib p.1).2 p.1.body
    else [partLeaf lib p.1 (partType lib p.1).1]
termination_by r.data.length
decreasing_by exact lib.parts_shorter boundary r p.1 p.2

/-- The leaves of a message. -/
def messageLeaves (r : Reader) : List Leaf :=
  match lib.readMessage r with
  | .error _ => []
  | .ok (header, body) =>
    let mt := lib.parseMediaType (header (lit "Content-Type"))
    if isMultipart (mt.typeOr (lit "text/plain")) then leaves lib (mt.params (lit "boundary")) body
    else [{
      whole := true
      mediaType := mt.typeOr (lit "text/plain")
      disposition := []
      filename := []
      decoded := do
        let bodyBytes ← body.readAll.mapError (.wrap (lit "read message body: "))
        decodeTransferEncoding lib (header (lit "Content-Transfer-Encoding")) bodyBytes }]

/-- The attachment that a leaf becomes. -/
def Leaf.attachment (l : Leaf) (data : GoString) : Attachment :=
  ⟨l.filename, if l.mediaType = [] then lit "application/octet-stream" else l.mediaType, data⟩

/-- The message with the bytes of a leaf put in its place. -/
def Leaf.put (l : Leaf) (data : GoString) (out : Message) : Message :=
  match l.place with
  | some .attachment => { out with attachments := out.attachments ++ [l.attachment data] }
  | some .text => { out with textBody := joinBody out.textBody data }
  | some .html => { out with htmlBody := joinBody out.htmlBody data }
  | none => out

/-- One step of the walk.  A multipart part without a boundary is not even decoded. -/
def takeLeaf (out : Message) (l : Leaf) : Except GoError Message :=
  if l.whole = false ∧ isMultipart l.mediaType then .ok out
  else do
    let data ← l.decoded
    return l.put data out

end Tree

/-! ## The walk over the tree is a fold over the leaves -/

section Walk

variable [Unicode] {lib : MailLib}

theorem takeLeaf_partLeaf {part : Part} {mediaType : GoString} (out : Message)
    (h : isMultipart mediaType = false) :
    takeLeaf out (partLeaf lib part mediaType) = parseLeaf lib part mediaType out := by
  unfold takeLeaf parseLeaf
  rw [if_neg (by simp [partLeaf, h])]
  have hput : ∀ data, (partLeaf lib part mediaType).put data out =
      placePart mediaType (partLeaf lib part mediaType).disposition
        (partLeaf lib part mediaType).filename data out := by
    intro data
    unfold Leaf.put Leaf.place placePart
    rw [if_neg (by simp [partLeaf]), if_neg (by simp [partLeaf, h]),
      show (partLeaf lib part mediaType).mediaType = mediaType from rfl]
    by_cases hattach : (equalFold (partLeaf lib part mediaType).disposition (lit "attachment") ||
        decide ((partLeaf lib part mediaType).filename ≠ [])) = true
    · rw [if_pos hattach, if_pos hattach]
      rfl
    · rw [if_neg hattach, if_neg hattach]
      by_cases htext : equalFold mediaType (lit "text/plain") = true
      · rw [if_pos htext, if_pos htext]
      · rw [if_neg htext, if_neg htext]
        by_cases hhtml : equalFold mediaType (lit "text/html") = true
        · rw [if_pos hhtml, if_pos hhtml]
        · rw [if_neg hhtml, if_neg hhtml]
  simp only [hput]
  show ((part.body.readAll.mapError _ >>= _) >>= _) = _
  rw [bind_assoc]
  rfl

omit [Unicode] in
/-- A fold over the leaves of all parts, part by part. -/
theorem foldlM_flatMap {α β : Type} (f : Message → α → Except GoError Message) (g : β → List α)
    (l : List β) (out : Message) :
    (l.flatMap g).foldlM f out = l.foldlM (fun o b => (g b).foldlM f o) out := by
  induction l generalizing out with
  | nil => rfl
  | cons b l ih =>
    rw [flatMap_cons, foldlM_append, foldlM_cons]
    exact congrArg _ (funext fun o => ih o)

omit [Unicode] in
/-- Two folds of which the second succeeds wherever the first does. -/
theorem foldlM_imp {α : Type} {f g : Message → α → Except GoError Message}
    (h : ∀ a o o', f o a = .ok o' → g o a = .ok o') :
    ∀ (l : List α) (o o' : Message), l.foldlM f o = .ok o' → l.foldlM g o = .ok o'
  | [], _, _, hf => hf
  | a :: l, o, o', hf => by
    rw [foldlM_cons] at hf ⊢
    obtain ⟨o1, h1, h2⟩ := bind_eq_ok.mp hf
    exact bind_eq_ok.mpr ⟨o1, h a o o1 h1, foldlM_imp h l o1 o' h2⟩

/-- **The recursion over the parts is one fold over the leaves.** -/
theorem parseMultipart_leaves (boundary : GoString) (r : Reader) (out out' : Message)
    (h : parseMultipart lib boundary r out = .ok out') :
    (leaves lib boundary r).foldlM takeLeaf out = .ok out' := by
  -- by induction on the length of the body: a nested part is shorter
  induction hn : r.data.length using Nat.strong_induction_on generalizing boundary r out out' with
  | _ n ih =>
    rw [parseMultipart] at h
    obtain ⟨o1, h1, h2⟩ := bind_eq_ok.mp h
    have hend : o1 = out' := by
      split at h2
      · cases h2
        rfl
      · nomatch h2
    subst hend
    rw [leaves, foldlM_flatMap]
    refine foldlM_imp (fun p o o' hp => ?_) _ _ _ h1
    unfold parsePart at hp
    dsimp only at hp
    split at hp
    · next hmulti =>
      split at hp
      · next hbound =>
        -- no boundary: the part is passed over
        cases hp
        rw [if_neg fun hc => hc.2 hbound, foldlM_cons]
        have hskip : takeLeaf o (partLeaf lib p.1 (partType lib p.1).1) = .ok o :=
          if_pos ⟨rfl, hmulti⟩
        rw [hskip]
        rfl
      · next hbound =>
        rw [if_pos ⟨hmulti, hbound⟩]
        exact ih _ (hn ▸ lib.parts_shorter boundary r p.1 p.2) _ p.1.body o o' hp rfl
    · next hmulti =>
      rw [if_neg fun hc => hmulti hc.1, foldlM_cons]
      have hleaf : takeLeaf o (partLeaf lib p.1 (partType lib p.1).1) =
          parseLeaf lib p.1 (partType lib p.1).1 o :=
        takeLeaf_partLeaf o (Bool.eq_false_iff.mpr hmulti)
      rw [hleaf, show parseLeaf lib p.1 (partType lib p.1).1 o = .ok o' from hp]
      rfl

/-! ## What the result consists of -/

/-- The bytes of the leaves in one place, in order. -/
def bytesIn (place : Place) (l : List Leaf) : List GoString :=
  l.filterMap fun leaf => if leaf.place = some place then leaf.decoded.toOption else none

/-- A body text: the leaves of its place, each on a new line. -/
def bodyIn (place : Place) (l : List Leaf) : GoString := (bytesIn place l).foldl joinBody []

variable {out out' msg : Message} {r : Reader} {envelopeFrom : GoString}
  {envelopeTo : List GoString}

theorem takeLeaf_ok {l : Leaf} (h : takeLeaf out l = .ok out') :
    out'.attachments.map Attachment.data = out.attachments.map Attachment.data ++
        bytesIn .attachment [l] ∧
      out'.textBody = (bytesIn .text [l]).foldl joinBody out.textBody ∧
      out'.htmlBody = (bytesIn .html [l]).foldl joinBody out.htmlBody := by
  unfold takeLeaf at h
  split at h
  · next hskip =>
    cases h
    have hplace : l.place = none := by
      unfold Leaf.place
      rw [hskip.1, if_neg Bool.false_ne_true, if_pos hskip.2]
    have hnone : ∀ place, bytesIn place [l] = [] := by
      intro place
      unfold bytesIn
      rw [filterMap_cons_none (by rw [hplace]; rfl), filterMap_nil]
    rw [hnone, hnone, hnone, append_nil]
    exact ⟨rfl, rfl, rfl⟩
  · obtain ⟨data, hdata, h⟩ := bind_eq_ok.mp h
    cases h
    have hbytes : ∀ place, bytesIn place [l] = if l.place = some place then [data] else [] := by
      intro place
      unfold bytesIn
      by_cases hp : l.place = some place
      · rw [if_pos hp, filterMap_cons_some (by rw [if_pos hp, hdata]; rfl), filterMap_nil]
      · rw [if_neg hp, filterMap_cons_none (by rw [if_neg hp]), filterMap_nil]
    rw [hbytes, hbytes, hbytes]
    unfold Leaf.put
    cases l.place with
    | none => exact ⟨(append_nil _).symm, rfl, rfl⟩
    | some place =>
      cases place with
      | attachment => exact ⟨map_append .., rfl, rfl⟩
      | text | html => exact ⟨(append_nil _).symm, rfl, rfl⟩

theorem bytesIn_cons (place : Place) (leaf : Leaf) (l : List Leaf) :
    bytesIn place (leaf :: l) = bytesIn place [leaf] ++ bytesIn place l := by
  unfold bytesIn
  rw [show leaf :: l = [leaf] ++ l from rfl, filterMap_append]

theorem foldlM_takeLeaf {l : List Leaf} (h : l.foldlM takeLeaf out = .ok out') :
    out'.attachments.map Attachment.data = out.attachments.map Attachment.data ++
        bytesIn .attachment l ∧
      out'.textBody = (bytesIn .text l).foldl joinBody out.textBody ∧
      out'.htmlBody = (bytesIn .html l).foldl joinBody out.htmlBody := by
  induction l generalizing out with
  | nil =>
    cases h
    exact ⟨(append_nil _).symm, rfl, rfl⟩
  | cons leaf l ih =>
    rw [foldlM_cons] at h
    obtain ⟨o1, h1, h2⟩ := bind_eq_ok.mp h
    obtain ⟨ha1, ht1, hh1⟩ := takeLeaf_ok h1
    obtain ⟨ha2, ht2, hh2⟩ := ih h2
    refine ⟨?_, ?_, ?_⟩
    · rw [bytesIn_cons, ← append_assoc, ← ha1, ha2]
    · rw [bytesIn_cons, foldl_append, ← ht1, ht2]
    · rw [bytesIn_cons, foldl_append, ← hh1, hh2]

/-- **A parsed message consists of the leaves that have a place.** -/
theorem parseMessage_leaves (h : parseMessage lib r envelopeFrom envelopeTo = .ok msg) :
    msg.attachments.map Attachment.data = bytesIn .attachment (messageLeaves lib r) ∧
      msg.textBody = bodyIn .text (messageLeaves lib r) ∧
      msg.htmlBody = bodyIn .html (messageLeaves lib r) := by
  obtain ⟨⟨header, body⟩, hread, h⟩ := bind_eq_ok.mp h
  have hread : lib.readMessage r = .ok (header, body) := by
    cases hr : lib.readMessage r with
    | error e =>
      rw [hr] at hread
      nomatch hread
    | ok p =>
      rw [hr] at hread
      cases hread
      rfl
  dsimp only at h
  unfold messageLeaves
  rw [hread]
  dsimp only
  split at h
  · next hmulti =>
    obtain ⟨-, h⟩ := failIf_bind_eq_ok.mp h
    rw [if_pos hmulti]
    exact foldlM_takeLeaf (parseMultipart_leaves _ _ _ _ h)
  · next hmulti =>
    obtain ⟨bytes, hbytes, h⟩ := bind_eq_ok.mp h
    obtain ⟨data, hdata, h⟩ := bind_eq_ok.mp h
    rw [if_neg hmulti]
    have hdecoded : (do
        let bodyBytes ← body.readAll.mapError (GoError.wrap (lit "read message body: "))
        decodeTransferEncoding lib (header (lit "Content-Transfer-Encoding")) bodyBytes) =
        Except.ok data := bind_eq_ok.mpr ⟨bytes, hbytes, hdata⟩
    unfold bodyIn bytesIn
    rw [hdecoded]
    unfold Leaf.place
    split at h
    · next hhtml =>
      cases h
      simp [hhtml, Except.toOption, joinBody]
    · next hhtml =>
      cases h
      simp [hhtml, Except.toOption, joinBody]

/-! ## Where the From address and an attachment come from -/

/-- Putting a leaf leaves the addresses alone. -/
theorem put_headerFrom (leaf : Leaf) (data : GoString) (out : Message) :
    (leaf.put data out).headerFrom = out.headerFrom := by
  unfold Leaf.put
  split <;> rfl

/-- A leaf of a multipart body is a part, and its type is that of a header value, or the
    fallback. -/
theorem of_mem_leaves (boundary : GoString) (r : Reader) :
    ∀ l ∈ leaves lib boundary r, l.whole = false ∧ ∃ v, l.mediaType =
      (lib.parseMediaType v).typeOr (lit "application/octet-stream") := by
  induction hn : r.data.length using Nat.strong_induction_on generalizing boundary r with
  | _ n ih =>
    intro l hl
    rw [leaves] at hl
    obtain ⟨p, -, hl⟩ := mem_flatMap.mp hl
    split at hl
    · exact ih _ (hn ▸ lib.parts_shorter boundary r p.1 p.2) _ p.1.body rfl l hl
    · cases mem_singleton.mp hl
      exact ⟨rfl, p.1.header (lit "Content-Type"), rfl⟩

/-- A property of messages that putting a leaf keeps holds after all of them. -/
theorem foldlM_takeLeaf_keeps {P : Message → Prop} {l : List Leaf}
    (hput : ∀ leaf ∈ l, ∀ data out, P out → P (leaf.put data out))
    (h : l.foldlM takeLeaf out = .ok out') (hout : P out) : P out' := by
  induction l generalizing out with
  | nil =>
    cases h
    exact hout
  | cons leaf l ih =>
    obtain ⟨hleaf, hl⟩ := forall_mem_cons.mp hput
    rw [foldlM_cons] at h
    obtain ⟨o1, h1, h2⟩ := bind_eq_ok.mp h
    refine ih hl h2 ?_
    unfold takeLeaf at h1
    split at h1
    · cases h1
      exact hout
    · obtain ⟨data, -, h1⟩ := bind_eq_ok.mp h1
      cases h1
      exact hleaf data out hout

/-- **The From address is the parsed one of some header value.** -/
theorem headerFrom_of_parse (h : parseMessage lib r envelopeFrom envelopeTo = .ok msg) :
    ∃ v, msg.headerFrom = parseHeaderAddress lib v := by
  obtain ⟨⟨header, body⟩, -, h⟩ := bind_eq_ok.mp h
  refine ⟨header (lit "From"), ?_⟩
  dsimp only at h
  split at h
  · obtain ⟨-, h⟩ := failIf_bind_eq_ok.mp h
    exact foldlM_takeLeaf_keeps
      (P := fun m => m.headerFrom = parseHeaderAddress lib (header (lit "From")))
      (fun leaf _ data out hout => (put_headerFrom leaf data out).trans hout)
      (parseMultipart_leaves _ _ _ _ h) rfl
  · obtain ⟨bytes, -, h⟩ := bind_eq_ok.mp h
    obtain ⟨data, -, h⟩ := bind_eq_ok.mp h
    split at h
    · cases h
      rfl
    · cases h
      rfl

/-- A content type as the parser gives it to an attachment. -/
def ParsedType (lib : MailLib) (contentType : GoString) : Prop :=
  isMultipart contentType = false ∧ contentType ≠ [] ∧
    (contentType = lit "application/octet-stream" ∨
      ∃ v, (lib.parseMediaType v).err = none ∧ contentType = (lib.parseMediaType v).mediaType)

theorem parsedType_attachment {leaf : Leaf} {v data : GoString}
    (hplace : leaf.place = some .attachment) (hwhole : leaf.whole = false)
    (hv : leaf.mediaType = (lib.parseMediaType v).typeOr (lit "application/octet-stream")) :
    ParsedType lib (leaf.attachment data).contentType := by
  have hmulti : isMultipart leaf.mediaType = false := by
    unfold Leaf.place at hplace
    rw [hwhole, if_neg Bool.false_ne_true] at hplace
    split at hplace
    · nomatch hplace
    · next h => exact Bool.eq_false_iff.mpr h
  show ParsedType lib (if leaf.mediaType = [] then lit "application/octet-stream"
    else leaf.mediaType)
  split
  · exact ⟨rfl, by decide, Or.inl rfl⟩
  · next hne =>
    refine ⟨hmulti, hne, ?_⟩
    rw [hv]
    unfold MediaType.typeOr
    cases herr : (lib.parseMediaType v).err with
    | none => exact Or.inr ⟨v, herr, rfl⟩
    | some e => exact Or.inl rfl

/-- **The content type of an attachment is a media type that was read**, or the fallback. -/
theorem parsedType_of_parse (h : parseMessage lib r envelopeFrom envelopeTo = .ok msg) :
    ∀ a ∈ msg.attachments, ParsedType lib a.contentType := by
  have hnone : ∀ a ∈ ([] : List Attachment), ParsedType lib a.contentType := forall_mem_nil _
  obtain ⟨⟨header, body⟩, -, h⟩ := bind_eq_ok.mp h
  dsimp only at h
  split at h
  · obtain ⟨-, h⟩ := failIf_bind_eq_ok.mp h
    refine foldlM_takeLeaf_keeps (P := fun m => ∀ a ∈ m.attachments, ParsedType lib a.contentType)
      (fun leaf hleaf data out hout => ?_) (parseMultipart_leaves _ _ _ _ h) hnone
    obtain ⟨hwhole, v, hv⟩ := of_mem_leaves _ _ leaf hleaf
    unfold Leaf.put
    split
    · next hplace =>
      intro a ha
      rcases mem_append.mp ha with ha | ha
      · exact hout a ha
      · cases mem_singleton.mp ha
        exact parsedType_attachment hplace hwhole hv
    · exact hout
    · exact hout
    · exact hout
  · obtain ⟨bytes, -, h⟩ := bind_eq_ok.mp h
    obtain ⟨data, -, h⟩ := bind_eq_ok.mp h
    split at h
    · cases h
      exact hnone
    · cases h
      exact hnone

end Walk

/-! ## When nothing is lost -/

section Lost

variable [Unicode] {lib : MailLib}

/-- The bytes occur in a message: as an attachment, or inside one of its bodies. -/
def Carries (msg : Message) (data : GoString) : Prop :=
  (∃ a ∈ msg.attachments, a.data = data) ∨ data <:+: msg.textBody ∨ data <:+: msg.htmlBody

/-- The bytes stand in leaves that have a place: in an attachment, or in the texts or the HTML texts
    one after the other. -/
def InPlaced (l : List Leaf) (data : GoString) : Prop :=
  data ∈ bytesIn .attachment l ∨ data <:+: bodyIn .text l ∨ data <:+: bodyIn .html l

omit [Unicode] in
theorem infix_joinBody (body data : GoString) :
    body <:+: joinBody body data ∧ data <:+: joinBody body data := by
  unfold joinBody
  split
  · next hnil =>
    rw [hnil]
    exact ⟨List.nil_infix, infix_rfl⟩
  · exact ⟨⟨[], lit "\n" ++ data, by simp⟩, ⟨body ++ lit "\n", [], by simp⟩⟩

omit [Unicode] in
/-- A text stays in a body that grows. -/
theorem infix_foldl_joinBody (l : List GoString) (body : GoString) :
    body <:+: l.foldl joinBody body ∧ ∀ data ∈ l, data <:+: l.foldl joinBody body := by
  induction l generalizing body with
  | nil => exact ⟨infix_rfl, nofun⟩
  | cons d l ih =>
    obtain ⟨hbody, hdata⟩ := infix_joinBody body d
    obtain ⟨hacc, hl⟩ := ih (joinBody body d)
    exact ⟨hbody.trans hacc, forall_mem_cons.mpr ⟨hdata.trans hacc, hl⟩⟩

theorem mem_bytesIn {l : List Leaf} {leaf : Leaf} {place : Place} {data : GoString} (hl : leaf ∈ l)
    (hplace : leaf.place = some place) (hdata : leaf.decoded = .ok data) :
    data ∈ bytesIn place l := by
  refine mem_filterMap.mpr ⟨leaf, hl, ?_⟩
  rw [if_pos hplace, hdata]
  rfl

theorem inPlaced_of_place {l : List Leaf} {leaf : Leaf} {place : Place} {data : GoString}
    (hl : leaf ∈ l) (hplace : leaf.place = some place) (hdata : leaf.decoded = .ok data) :
    InPlaced l data := by
  have hmem := mem_bytesIn hl hplace hdata
  cases place with
  | attachment => exact Or.inl hmem
  | text => exact Or.inr (Or.inl ((infix_foldl_joinBody _ []).2 data hmem))
  | html => exact Or.inr (Or.inr ((infix_foldl_joinBody _ []).2 data hmem))

/-- **No content is dropped** exactly if every leaf without a place is empty, or has bytes that stand
    in the leaves with a place as well. -/
theorem leaves_carried_iff {r : Reader} {envelopeFrom : GoString} {envelopeTo : List GoString}
    {msg : Message} (h : parseMessage lib r envelopeFrom envelopeTo = .ok msg) :
    (∀ leaf ∈ messageLeaves lib r, ∀ data, leaf.decoded = .ok data → data ≠ [] →
        Carries msg data) ↔
      ∀ leaf ∈ messageLeaves lib r, leaf.place = none → ∀ data, leaf.decoded = .ok data →
        data = [] ∨ InPlaced (messageLeaves lib r) data := by
  obtain ⟨hattach, htext, hhtml⟩ := parseMessage_leaves h
  have hcarries : ∀ data, Carries msg data ↔ InPlaced (messageLeaves lib r) data := by
    intro data
    unfold Carries InPlaced
    rw [← hattach, htext, hhtml, mem_map]
  constructor
  · intro hall leaf hleaf _ data hdata
    by_cases hempty : data = []
    · exact Or.inl hempty
    · exact Or.inr ((hcarries data).mp (hall leaf hleaf data hdata hempty))
  · intro hall leaf hleaf data hdata hempty
    rw [hcarries]
    cases hplace : leaf.place with
    | none => exact (hall leaf hleaf hplace data hdata).resolve_left hempty
    | some place => exact inPlaced_of_place hleaf hplace hdata

end Lost

section Cases

/-- A library for messages in plain ASCII, with addresses that stand for themselves. -/
def asciiMail : MailLib :=
  letI := Unicode.ascii
  standardLib (fun s => .ok s) (fun s d h => by cases h; exact Nat.le_refl _)
    (fun s => if OneLine s then .ok s else .error (.errorf "mail: no address"))
    (fun s => if OneLine s then .ok [s] else .error (.errorf "mail: no address")) (fun s => .ok s)

/-- A text and an image; the image has the disposition that is given. -/
def imageMessage (disposition : String) : Reader where
  data := lit "Content-Type: multipart/mixed; boundary=b\r\n\r\n--b\r\nContent-Type: text/plain\r\n\r\nhello\r\n--b\r\nContent-Type: image/png\r\n" ++
    lit disposition ++ lit "\r\nPNG\r\n--b--\r\n"
  err := none

/-- An image that is declared an attachment is kept. -/
theorem leaves_carried_attachment :
    letI := Unicode.ascii
    ∃ msg, parseMessage asciiMail (imageMessage "Content-Disposition: attachment\r\n") [] [] = .ok msg ∧
      ∀ leaf ∈ messageLeaves asciiMail (imageMessage "Content-Disposition: attachment\r\n"),
        ∀ data, leaf.decoded = .ok data → data ≠ [] → Carries msg data := by
  let _ := Unicode.ascii
  have hparse : parseMessage asciiMail (imageMessage "Content-Disposition: attachment\r\n") [] [] =
      .ok { Message.zero with
        textBody := lit "hello"
        attachments := [⟨[], lit "image/png", lit "PNG"⟩] } := by
    decide +kernel
  have hplaces : ∀ leaf ∈ messageLeaves asciiMail
      (imageMessage "Content-Disposition: attachment\r\n"), leaf.place ≠ none := by
    decide +kernel
  refine ⟨_, hparse, (leaves_carried_iff hparse).mpr fun leaf hleaf hnone => ?_⟩
  exact absurd hnone (hplaces leaf hleaf)

/-- **An image without a file name is dropped**, and the message is accepted. -/
theorem leaves_dropped_image :
    letI := Unicode.ascii
    ∃ msg leaf, parseMessage asciiMail (imageMessage "") [] [] = .ok msg ∧
      leaf ∈ messageLeaves asciiMail (imageMessage "") ∧ leaf.decoded = .ok (lit "PNG") ∧
      ¬ Carries msg (lit "PNG") := by
  let _ := Unicode.ascii
  refine ⟨{ Message.zero with textBody := lit "hello" },
    ⟨false, lit "image/png", [], [], .ok (lit "PNG")⟩, ?_, ?_, rfl, ?_⟩
  · decide +kernel
  · decide +kernel
  · unfold Carries
    decide

end Cases

end SmtpCloudRelay.Smtp
