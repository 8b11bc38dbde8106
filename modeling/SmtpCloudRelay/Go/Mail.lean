/-
  MAIL TEXT: header fields, and multipart bodies.

  What `net/mail`, `net/textproto` and `mime/multipart` do with the bytes of a message, as far as
  the relay goes through them:

  * a header is a sequence of fields, each a line `Name: value`, ended by an empty line.  A line that
    starts with a blank continues the one before it.  `readFields` reads a header, and
    `readFields_written` says that it reads back what was written, WHATEVER the body is, as long as
    no value has a line end in it;
  * a multipart body is a sequence of parts, each with a header of its own, between lines that carry
    the boundary.  `writeMultipart` is the text of a `multipart.Writer`, and `readMultipart` cuts
    such a text apart again: `readMultipart_written`, provided that the boundary does not occur in
    a part.

  The boundary of a writer is random.  Here it is given, and all that is used of it is that it is a
  string of letters and digits (`Boundary`): a return starts a delimiter and is nowhere else in it,
  so that two delimiters never overlap.
-/
import SmtpCloudRelay.Go.MediaType

namespace SmtpCloudRelay.Go

open Lib List

/-- The end of a line. -/
def crlf : GoString := [0x0D, 0x0A]

/-- There is no line end in the text. -/
def OneLine (s : GoString) : Prop := ∀ b ∈ s, b ≠ 0x0D ∧ b ≠ 0x0A

instance (s : GoString) : Decidable (OneLine s) :=
  List.decidableBAll (fun b => b ≠ 0x0D ∧ b ≠ 0x0A) s

variable {t : GoString}

theorem OneLine.append {s : GoString} (hs : OneLine s) (ht : OneLine t) : OneLine (s ++ t) := by
  intro b hb
  rcases mem_append.mp hb with hb | hb
  · exact hs b hb
  · exact ht b hb

/-- A text without control characters is one line. -/
theorem oneLine_of_isText {s : GoString} (h : ∀ b ∈ s, isText b = true) : OneLine s := by
  intro b hb
  have ht := h b hb
  constructor
  · rintro rfl
    exact absurd ht (by decide)
  · rintro rfl
    exact absurd ht (by decide)

/-! ## Lines -/

/-- A line without the return at its end. -/
def dropCR (line : GoString) : GoString :=
  if line.getLast? = some 0x0D then line.dropLast else line

/-- `bufio.Reader.ReadLine`: the next line without its end, and the rest; `none` at the end. -/
def readLine : GoString → Option (GoString × GoString)
  | [] => none
  | b :: s =>
    match cutByte 0x0A (b :: s) with
    | none => some (b :: s, [])
    | some (line, rest) => some (dropCR line, rest)

/-- Cutting at a byte that the front does not have. -/
theorem cutByte_append {sep : UInt8} {s : GoString} (h : ∀ b ∈ s, b ≠ sep) (t : GoString) :
    cutByte sep (s ++ sep :: t) = some (s, t) := by
  induction s with
  | nil => exact if_pos rfl
  | cons b s ih =>
    obtain ⟨hb, hs⟩ := forall_mem_cons.mp h
    rw [cons_append, cutByte, if_neg hb, ih hs]
    rfl

/-- **A written line is read back.** -/
theorem readLine_crlf {line : GoString} (h : OneLine line) (rest : GoString) :
    readLine (line ++ crlf ++ rest) = some (line, rest) := by
  have htext : line ++ crlf ++ rest = (line ++ [0x0D]) ++ 0x0A :: rest := by
    show line ++ [0x0D, 0x0A] ++ rest = _
    simp only [append_assoc, cons_append, nil_append]
  have hcut : cutByte 0x0A ((line ++ [0x0D]) ++ 0x0A :: rest) = some (line ++ [0x0D], rest) := by
    refine cutByte_append (fun b hb => ?_) rest
    rcases mem_append.mp hb with hb | hb
    · exact (h b hb).2
    · cases mem_singleton.mp hb
      decide
  have hdrop : dropCR (line ++ [0x0D]) = line := by
    unfold dropCR
    rw [getLast?_concat, if_pos rfl, dropLast_concat]
  rw [htext]
  obtain ⟨b, s, hs⟩ : ∃ b s, (line ++ [0x0D]) ++ 0x0A :: rest = b :: s :=
    exists_cons_of_ne_nil (by simp)
  rw [hs] at hcut ⊢
  rw [readLine, hcut]
  dsimp only
  rw [hdrop]

/-! ## Header fields -/

/-- A blank of a header line: space or tab. -/
def isBlank (b : UInt8) : Bool := b = 0x20 || b = 0x09

/-- Without the blanks at the end. -/
def trimBlanksRight (s : GoString) : GoString := (s.reverse.dropWhile isBlank).reverse

/-- `textproto.trim`: without the blanks at both ends. -/
def trimBlanks (s : GoString) : GoString := trimBlanksRight (s.dropWhile isBlank)

/-- The lines that continue the text `acc`; `fuel` is at least the length of `s`. -/
def continued : Nat → GoString → GoString → GoString × GoString
  | 0, acc, s => (acc, s)
  | fuel + 1, acc, s =>
    if (s.head?.any isBlank) then
      match readLine (s.dropWhile isBlank) with
      | none => (acc ++ [0x20], [])
      | some (line, rest) => continued fuel (acc ++ [0x20] ++ trimBlanks line) rest
    else (acc, s)

/-- `textproto.Reader.ReadContinuedLine`. -/
def readContinuedLine (s : GoString) : Option (GoString × GoString) :=
  match readLine s with
  | none => none
  | some (line, rest) =>
    if line = [] then some ([], rest) else some (continued rest.length (trimBlanks line) rest)

/-- `validHeaderFieldByte`: letters, digits and the marks that a token may hold. -/
def validHeaderFieldByte (b : UInt8) : Bool :=
  (0x30 ≤ b && b ≤ 0x39) || (0x41 ≤ b && b ≤ 0x5A) || (0x61 ≤ b && b ≤ 0x7A) ||
    (lit "!#$%&'*+-.^_\x60|~").contains b

/-- The name in its canonical case; `upper` says that a word starts here. -/
def canonicalCase : Bool → GoString → GoString
  | _, [] => []
  | upper, b :: s =>
    (if upper && 0x61 ≤ b && b ≤ 0x7A then b - 0x20
      else if !upper && 0x41 ≤ b && b ≤ 0x5A then b + 0x20
      else b) :: canonicalCase (b = 0x2D) s

/-- `textproto.CanonicalMIMEHeaderKey`. -/
def canonicalMIMEHeaderKey (s : GoString) : GoString :=
  if s.all validHeaderFieldByte then canonicalCase true s else s

/-- A header field: its name and its value. -/
abbrev Field := GoString × GoString

/-- The fields of a header, under their canonical names, and what follows the empty line that ends
    it; `none` when the text ends before.  `fuel` is more than the length of `s`. -/
def readFields : Nat → GoString → Except GoString (List Field × Option GoString)
  | 0, s => .ok ([], some s)
  | fuel + 1, s =>
    match readContinuedLine s with
    | none => .ok ([], none)
    | some (kv, rest) =>
      if kv = [] then .ok ([], some rest)
      else
        match cutByte 0x3A kv with
        | none => .error (lit "malformed header line: " ++ kv)
        | some (k, v) => do
          let (fields, body) ← readFields fuel rest
          if k = [] then return (fields, body)
          else return ((canonicalMIMEHeaderKey k, v.dropWhile isBlank) :: fields, body)

/-- `Header.Get`: the first value under a name, empty where there is none. -/
def headerGet (fields : List Field) (name : GoString) : GoString :=
  ((fields.find? fun f => f.1 = canonicalMIMEHeaderKey name).map Prod.snd).getD []

/-- The text of a field. -/
def writeField (f : Field) : GoString := f.1 ++ lit ": " ++ f.2 ++ crlf

/-- A field that can be written: a name, and a value on one line. -/
structure IsField (f : Field) : Prop where
  name_ne : f.1 ≠ []
  name : ∀ b ∈ f.1, validHeaderFieldByte b = true
  value : OneLine f.2

/-- The value of a field as it is read: without the blanks around it. -/
def fieldValue (v : GoString) : GoString := (trimBlanksRight (0x20 :: v)).dropWhile isBlank

/-- What is read of a written field. -/
def readBack (f : Field) : Field := (canonicalMIMEHeaderKey f.1, fieldValue f.2)

theorem trimBlanksRight_append {s : GoString} {c : UInt8} (hc : isBlank c = false) (t : GoString) :
    trimBlanksRight (s ++ c :: t) = s ++ c :: trimBlanksRight t := by
  unfold trimBlanksRight
  rw [reverse_append, reverse_cons, append_assoc]
  by_cases hall : ∀ b ∈ t.reverse, isBlank b = true
  · have htail : t.reverse.dropWhile isBlank = [] := dropWhile_eq_nil_iff.mpr hall
    rw [dropWhile_append_of_pos hall, htail, singleton_append,
      dropWhile_cons_of_neg (by simp [hc]), reverse_cons, reverse_reverse]
    rfl
  · have hne : t.reverse.dropWhile isBlank ≠ [] := fun h => hall (dropWhile_eq_nil_iff.mp h)
    rw [dropWhile_append, if_neg (by simp [List.isEmpty_iff, hne]), reverse_append,
      reverse_append, reverse_reverse, append_assoc]
    rfl

/-- A value without blanks around it is read as it was written. -/
theorem fieldValue_eq {v : GoString} (hfront : ∀ b ∈ v.head?, isBlank b = false)
    (hback : ∀ b ∈ v.getLast?, isBlank b = false) : fieldValue v = v := by
  unfold fieldValue trimBlanksRight
  cases v with
  | nil => rfl
  | cons c v =>
    have hlast : ((0x20 :: c :: v).reverse.dropWhile isBlank) = (0x20 :: c :: v).reverse := by
      obtain ⟨b, t, ht⟩ : ∃ b t, (0x20 :: c :: v).reverse = b :: t :=
        exists_cons_of_ne_nil (by simp)
      have hb : b ∈ (c :: v).getLast? := by
        have hhead : (0x20 :: c :: v).reverse.head? = some b := by
          rw [ht]
          rfl
        rw [head?_reverse, getLast?_cons_cons] at hhead
        exact hhead
      rw [ht, dropWhile_cons_of_neg (by simp [hback b hb])]
    have hc : isBlank c = false := hfront c rfl
    rw [hlast, reverse_reverse, dropWhile_cons_of_pos (by decide),
      dropWhile_cons_of_neg (by simp [hc])]

theorem not_blank_of_valid {b : UInt8} (h : validHeaderFieldByte b = true) :
    isBlank b = false ∧ b ≠ 0x3A ∧ b ≠ 0x0D ∧ b ≠ 0x0A := by
  revert b
  show ∀ b : UInt8, _
  exact forall_byte (by decide +kernel)

section Written

variable {f : Field}

/-- The line of a field, without its end. -/
def fieldLine (f : Field) : GoString := f.1 ++ lit ": " ++ f.2

theorem IsField.oneLine (h : IsField f) : OneLine (fieldLine f) := by
  have hname : OneLine f.1 := fun b hb => (not_blank_of_valid (h.name b hb)).2.2
  exact (hname.append (by decide)).append h.value

/-- A field starts with the first byte of its name. -/
theorem IsField.head (h : IsField f) (t : GoString) :
    ∃ b s, fieldLine f ++ t = b :: s ∧ isBlank b = false := by
  obtain ⟨b, s, hs⟩ := exists_cons_of_ne_nil h.name_ne
  have hb : b ∈ f.1 := by
    rw [hs]
    exact mem_cons_self ..
  unfold fieldLine
  rw [hs]
  exact ⟨b, _, rfl, (not_blank_of_valid (h.name b hb)).1⟩

theorem IsField.trimmed (h : IsField f) :
    trimBlanks (fieldLine f) = f.1 ++ 0x3A :: trimBlanksRight (0x20 :: f.2) := by
  obtain ⟨b, s, hs, hb⟩ := h.head []
  rw [append_nil] at hs
  have hline : fieldLine f = f.1 ++ 0x3A :: 0x20 :: f.2 := by
    unfold fieldLine
    show f.1 ++ [0x3A, 0x20] ++ f.2 = _
    simp only [append_assoc, cons_append, nil_append]
  unfold trimBlanks
  rw [hs, dropWhile_cons_of_neg (by simp [hb]), ← hs, hline, trimBlanksRight_append (by decide)]

/-- Nothing is continued when the text does not go on with a blank. -/
theorem continued_stop {s : GoString} (h : ∀ b ∈ s.head?, isBlank b = false) (n : Nat)
    (acc : GoString) : continued n acc s = (acc, s) := by
  cases n with
  | zero => rfl
  | succ n =>
    have hno : ¬ (s.head?.any isBlank) = true := by
      cases hs : s.head? with
      | none => simp
      | some b => simp [h b hs]
    rw [continued, if_neg hno]

/-- **One written field is read back**, if what follows is not its continuation. -/
theorem readContinuedLine_written (h : IsField f) {rest : GoString}
    (hrest : ∀ b ∈ rest.head?, isBlank b = false) :
    readContinuedLine (writeField f ++ rest) =
      some (f.1 ++ 0x3A :: trimBlanksRight (0x20 :: f.2), rest) := by
  obtain ⟨b, s, hs, -⟩ := h.head []
  rw [append_nil] at hs
  unfold readContinuedLine
  rw [show writeField f = fieldLine f ++ crlf from rfl, readLine_crlf h.oneLine]
  dsimp only
  rw [if_neg (by rw [hs]; exact cons_ne_nil _ _), continued_stop hrest, h.trimmed]

end Written

variable {fields : List Field}

/-- The fields of a header, written. -/
def writeFields (fields : List Field) : GoString := fields.flatMap writeField

/-- What stands after the fields does not continue them. -/
theorem head_writeFields (h : ∀ f ∈ fields, IsField f) (body : GoString) :
    ∀ b ∈ (writeFields fields ++ crlf ++ body).head?, isBlank b = false := by
  intro b hb
  cases fields with
  | nil =>
    cases hb
    rfl
  | cons f fields =>
    obtain ⟨c, s, hs, hc⟩ := (h f (mem_cons_self ..)).head
      (crlf ++ (writeFields fields ++ crlf ++ body))
    have htext : writeFields (f :: fields) ++ crlf ++ body = c :: s := by
      rw [← hs]
      show fieldLine f ++ crlf ++ writeFields fields ++ crlf ++ body = _
      simp only [append_assoc]
    rw [htext] at hb
    cases hb
    exact hc

/-- **A written header is read back**, whatever the body is. -/
theorem readFields_written (h : ∀ f ∈ fields, IsField f) (body : GoString) {n : Nat}
    (hn : fields.length < n) :
    readFields n (writeFields fields ++ crlf ++ body) = .ok (fields.map readBack, some body) := by
  induction fields generalizing n with
  | nil =>
    obtain ⟨n, rfl⟩ := Nat.exists_eq_add_one_of_ne_zero (Nat.ne_of_gt hn)
    have hline : readContinuedLine (crlf ++ body) = some ([], body) := by
      have hread := readLine_crlf (show OneLine [] from nofun) body
      unfold readContinuedLine
      rw [show crlf ++ body = [] ++ crlf ++ body from rfl, hread]
      rfl
    rw [show writeFields [] ++ crlf ++ body = crlf ++ body from rfl, readFields, hline]
    rfl
  | cons f fields ih =>
    obtain ⟨n, rfl⟩ := Nat.exists_eq_add_one_of_ne_zero (Nat.ne_of_gt (Nat.lt_of_le_of_lt
      (Nat.zero_le _) hn))
    obtain ⟨hf, hfields⟩ := forall_mem_cons.mp h
    have htext : writeFields (f :: fields) ++ crlf ++ body =
        writeField f ++ (writeFields fields ++ crlf ++ body) := by
      show writeField f ++ writeFields fields ++ crlf ++ body = _
      simp only [append_assoc]
    have hlength : fields.length < n := by
      rw [length_cons] at hn
      omega
    have hcut : cutByte 0x3A (f.1 ++ 0x3A :: trimBlanksRight (0x20 :: f.2)) =
        some (f.1, trimBlanksRight (0x20 :: f.2)) :=
      cutByte_append (fun b hb => (not_blank_of_valid (hf.name b hb)).2.1) _
    rw [htext, readFields, readContinuedLine_written hf (head_writeFields hfields body)]
    dsimp only
    rw [if_neg (by simp), hcut]
    dsimp only
    rw [ih hfields hlength]
    show (if f.1 = [] then _ else _) = _
    rw [if_neg hf.name_ne]
    rfl

/-! ## The text of a multipart body -/

/-- A part of a multipart body. -/
structure MIMEPart where
  header : List Field
  body : GoString

/-- The order of Go strings: byte by byte. -/
def lexLE : GoString → GoString → Bool
  | [], _ => true
  | _ :: _, [] => false
  | a :: s, b :: t => a < b || (a = b && lexLE s t)

/-- A field put in its place among sorted ones. -/
def insertField (f : Field) : List Field → List Field
  | [] => [f]
  | g :: fields => if lexLE f.1 g.1 then f :: g :: fields else g :: insertField f fields

/-- The fields in the order of their names: the order in which a writer puts them. -/
def sortFields (fields : List Field) : List Field := fields.foldr insertField []

theorem mem_insertField {f g : Field} : g ∈ insertField f fields ↔ g = f ∨ g ∈ fields := by
  induction fields with
  | nil => exact mem_cons
  | cons h fields ih =>
    unfold insertField
    split
    · exact mem_cons
    · rw [mem_cons, ih, mem_cons]
      tauto

theorem mem_sortFields {g : Field} : g ∈ sortFields fields ↔ g ∈ fields := by
  induction fields with
  | nil => exact Iff.rfl
  | cons f fields ih =>
    show g ∈ insertField f (sortFields fields) ↔ _
    rw [mem_insertField, ih, mem_cons]

/-- The part's own text: header, empty line, body. -/
def MIMEPart.text (p : MIMEPart) : GoString := writeFields (sortFields p.header) ++ crlf ++ p.body

/-- A boundary of a `multipart.Writer`: sixty hexadecimal digits. -/
structure Boundary where
  text : GoString
  length_eq : text.length = 60
  hex : ∀ b ∈ text, (hexVal? b).isSome

/-- `multipart.Writer`: the parts from some point on, and the closing line; `first` says that no
    part has been written yet. -/
def writeParts (boundary : GoString) : Bool → List MIMEPart → GoString
  | _, [] => crlf ++ lit "--" ++ boundary ++ lit "--" ++ crlf
  | first, p :: ps =>
    (if first then [] else crlf) ++ lit "--" ++ boundary ++ crlf ++ p.text ++
      writeParts boundary false ps

/-- The text of a multipart body. -/
def writeMultipart (boundary : GoString) (parts : List MIMEPart) : GoString :=
  writeParts boundary true parts

/-! ## A multipart body cut apart -/

/-- What stands before and after the first occurrence of `delim`. -/
def cutAt (delim : GoString) : GoString → Option (GoString × GoString)
  | [] => if delim = [] then some ([], []) else none
  | b :: s =>
    if delim <+: b :: s then some ([], (b :: s).drop delim.length)
    else (cutAt delim s).map fun p => (b :: p.1, p.2)

/-- The sections between the occurrences of `delim`; `fuel` is at least the length of `s`. -/
def sections (delim : GoString) : Nat → GoString → List GoString
  | 0, s => [s]
  | fuel + 1, s =>
    match cutAt delim s with
    | none => [s]
    | some (front, rest) => front :: sections delim fuel rest

/-- What separates two parts: a line end, two dashes, the boundary. -/
def delimiter (boundary : GoString) : GoString := crlf ++ lit "--" ++ boundary

/-- A byte that a header value may have: a tab, or no control character. -/
def isValueByte (b : UInt8) : Bool := b = 0x09 || isText b

/-- A part as it is read: its fields under their canonical names, and its body. -/
structure ReadPart where
  fields : List Field
  body : GoString

variable {p : ReadPart}

/-- One section as a part: the line end of its delimiter, a header, and the body. -/
def readPart (section_ : GoString) : Except GoString ReadPart :=
  match expect 0x0D (section_.dropWhile isBlank) >>= expect 0x0A with
  | none => .error (lit "multipart: unexpected line in Next()")
  | some text =>
    match readFields (text.length + 1) text with
    | .error e => .error e
    | .ok (_, none) => .error (lit "unexpected EOF")
    | .ok (fields, some body) =>
      if fields.all fun f => f.1.all validHeaderFieldByte && f.2.all isValueByte then
        .ok ⟨fields, body⟩
      else .error (lit "malformed MIME header line")

/-- The sections after the preamble, up to the closing delimiter; the error it ends with, if any. -/
def readSections : List GoString → List ReadPart × Option GoString
  | [] => ([], some (lit "multipart: NextPart: EOF"))
  | s :: rest =>
    if lit "--" <+: s then ([], none)
    else
      match readPart s with
      | .error e => ([], some e)
      | .ok p => (p :: (readSections rest).1, (readSections rest).2)

/-- A multipart body with CRLF lines, read to its end. -/
def readMultipart (boundary data : GoString) : List ReadPart × Option GoString :=
  readSections (sections (delimiter boundary) (data.length + 2) (crlf ++ data)).tail

/-! ## Delimiters do not overlap -/

/-- A text at the front of two others lies in the first or goes on into the second. -/
theorem prefix_append_cases {d x y : GoString} (h : d <+: x ++ y) :
    d <+: x ∨ ∃ c t, d = x ++ c :: t ∧ c :: t <+: y := by
  obtain ⟨r, hr⟩ := h
  rcases append_eq_append_iff.mp hr with ⟨as, hx, -⟩ | ⟨bs, hd, hy⟩
  · exact Or.inl ⟨as, hx.symm⟩
  · cases bs with
    | nil =>
      rw [append_nil] at hd
      exact Or.inl ⟨[], by rw [append_nil, hd]⟩
    | cons c t => exact Or.inr ⟨c, t, hd, r, hy.symm⟩

section Cut

variable {d : GoString} {s : GoString}

/-- **The first delimiter is found**: one that starts with a byte it has nowhere else cannot begin
    inside the text before it. -/
theorem cutAt_first {a : UInt8} (hd : a ∉ d) (hs : ¬ (a :: d) <:+: s) (rest : GoString) :
    cutAt (a :: d) (s ++ (a :: d) ++ rest) = some (s, rest) := by
  induction s with
  | nil =>
    show cutAt (a :: d) (a :: (d ++ rest)) = _
    have hpre : a :: d <+: a :: (d ++ rest) := ⟨rest, rfl⟩
    rw [cutAt, if_pos hpre]
    show some ([], (d ++ rest).drop d.length) = _
    rw [drop_left]
  | cons b s ih =>
    rw [infix_cons_iff, not_or] at hs
    have hno : ¬ a :: d <+: b :: (s ++ (a :: d) ++ rest) := by
      intro hpre
      rw [show b :: (s ++ (a :: d) ++ rest) = (b :: s) ++ ((a :: d) ++ rest) by
        simp only [append_assoc, cons_append]] at hpre
      rcases prefix_append_cases hpre with hin | ⟨c, t, heq, hover⟩
      · exact hs.1 hin
      · -- the delimiter would go on with its own first byte
        have hc : c = a := (cons_prefix_cons.mp hover).1
        have htail : d = s ++ c :: t := (List.cons.inj heq).2
        refine hd ?_
        rw [htail, hc]
        exact mem_append_right _ (mem_cons_self ..)
    show cutAt (a :: d) (b :: (s ++ (a :: d) ++ rest)) = _
    rw [cutAt, if_neg hno, ih hs.2]
    rfl

theorem cutAt_none (hd : d ≠ []) (hs : ¬ d <:+: s) : cutAt d s = none := by
  induction s with
  | nil => exact if_neg hd
  | cons b s ih =>
    rw [infix_cons_iff, not_or] at hs
    rw [cutAt, if_neg hs.1, ih hs.2]
    rfl

/-- **Sections that do not contain the delimiter are found again.** -/
theorem sections_joined {a : UInt8} (hd : a ∉ d) {last : GoString} (hlast : ¬ (a :: d) <:+: last)
    (l : List GoString) (hl : ∀ t ∈ l, ¬ (a :: d) <:+: t) (hs : ¬ (a :: d) <:+: s) {n : Nat}
    (hn : l.length + 1 < n) :
    sections (a :: d) n (s ++ l.flatMap (a :: d ++ ·) ++ (a :: d) ++ last) = s :: l ++ [last] := by
  induction l generalizing s n with
  | nil =>
    obtain ⟨n, rfl⟩ : ∃ m, n = m + 2 := ⟨n - 2, by simp at hn; omega⟩
    rw [flatMap_nil, append_nil, sections, cutAt_first hd hs]
    dsimp only
    rw [sections, cutAt_none (cons_ne_nil _ _) hlast]
    rfl
  | cons t l ih =>
    obtain ⟨n, rfl⟩ : ∃ m, n = m + 1 := ⟨n - 1, by omega⟩
    obtain ⟨ht, hl⟩ := forall_mem_cons.mp hl
    rw [length_cons] at hn
    have htext : s ++ (t :: l).flatMap (a :: d ++ ·) ++ (a :: d) ++ last =
        s ++ (a :: d) ++ (t ++ l.flatMap (a :: d ++ ·) ++ (a :: d) ++ last) := by
      rw [flatMap_cons]
      simp only [append_assoc]
    rw [htext, sections, cutAt_first hd hs]
    dsimp only
    rw [ih hl ht (by omega)]
    rfl

end Cut

/-! ## What was written is read -/

section Written

variable {boundary : GoString}

theorem writeParts_eq (boundary : GoString) (first : Bool) (p : MIMEPart) (ps : List MIMEPart) :
    (if first then crlf else []) ++ writeParts boundary first (p :: ps) =
      ((p :: ps).map fun q => crlf ++ q.text).flatMap (delimiter boundary ++ ·) ++
        delimiter boundary ++ (lit "--" ++ crlf) := by
  induction ps generalizing first p with
  | nil =>
    cases first <;>
      simp [writeParts, delimiter, append_assoc]
  | cons q ps ih =>
    have hrest := ih false q
    rw [show (if false = true then crlf else []) = ([] : GoString) from rfl, nil_append] at hrest
    have hhead : (if first then crlf else []) ++ writeParts boundary first (p :: q :: ps) =
        delimiter boundary ++ (crlf ++ p.text) ++ writeParts boundary false (q :: ps) := by
      cases first <;> simp [writeParts, delimiter, append_assoc]
    have hflat : ((p :: q :: ps).map fun r => crlf ++ r.text).flatMap (delimiter boundary ++ ·) =
        delimiter boundary ++ (crlf ++ p.text) ++
          ((q :: ps).map fun r => crlf ++ r.text).flatMap (delimiter boundary ++ ·) := rfl
    rw [hhead, hrest, hflat]
    simp only [append_assoc]

/-- A boundary that is not in a text is not in a delimiter of it. -/
theorem not_delimiter_infix {t : GoString} (h : ¬ boundary <:+: t) : ¬ delimiter boundary <:+: t :=
  fun hin => h (List.IsInfix.trans ⟨crlf ++ lit "--", [], by rw [append_nil]; rfl⟩ hin)

/-- A boundary that is one line is not found across the line end before a text. -/
theorem not_infix_crlf (hne : boundary ≠ []) (hline : OneLine boundary) {t : GoString}
    (h : ¬ boundary <:+: t) : ¬ boundary <:+: crlf ++ t := by
  obtain ⟨b, rest, rfl⟩ := exists_cons_of_ne_nil hne
  have hb := hline b (mem_cons_self ..)
  show ¬ b :: rest <:+: 0x0D :: 0x0A :: t
  rw [infix_cons_iff, infix_cons_iff, cons_prefix_cons, cons_prefix_cons]
  rintro (⟨hcr, -⟩ | ⟨hlf, -⟩ | hin)
  · exact hb.1 hcr
  · exact hb.2 hlf
  · exact h hin

/-- Every field takes some text. -/
theorem length_le_writeFields (fields : List Field) : fields.length ≤ (writeFields fields).length := by
  induction fields with
  | nil => exact Nat.le_refl 0
  | cons f fields ih =>
    have hlen : (writeFields (f :: fields)).length =
        (writeField f).length + (writeFields fields).length := by
      show (writeField f ++ writeFields fields).length = _
      rw [length_append]
    have hpos : (writeField f).length = (f.1 ++ lit ": " ++ f.2).length + 2 := by
      unfold writeField
      rw [length_append]
      rfl
    rw [length_cons, hlen]
    omega

/-- A name in canonical case has the same kind of bytes. -/
theorem valid_canonicalMIMEHeaderKey {k : GoString} (h : ∀ b ∈ k, validHeaderFieldByte b = true) :
    ∀ b ∈ canonicalMIMEHeaderKey k, validHeaderFieldByte b = true := by
  have hall : ∀ (n : Fin 256) (upper : Bool), validHeaderFieldByte (UInt8.ofNat n) = true →
      validHeaderFieldByte (if upper && 0x61 ≤ UInt8.ofNat n && UInt8.ofNat n ≤ 0x7A then
        UInt8.ofNat n - 0x20 else if !upper && 0x41 ≤ UInt8.ofNat n && UInt8.ofNat n ≤ 0x5A
        then UInt8.ofNat n + 0x20 else UInt8.ofNat n) = true := by
    decide +kernel
  have hcase : ∀ (upper : Bool) (k : GoString), (∀ b ∈ k, validHeaderFieldByte b = true) →
      ∀ b ∈ canonicalCase upper k, validHeaderFieldByte b = true := by
    intro upper k hk
    induction k generalizing upper with
    | nil => exact nofun
    | cons c k ih =>
      obtain ⟨hc, hk⟩ := forall_mem_cons.mp hk
      refine forall_mem_cons.mpr ⟨?_, ih _ hk⟩
      have hbyte := hall ⟨c.toNat, c.toNat_lt⟩ upper
      rw [UInt8.ofNat_toNat] at hbyte
      exact hbyte hc
  unfold canonicalMIMEHeaderKey
  rw [if_pos (all_eq_true.mpr h)]
  exact hcase true k h

/-- A value as it is read has bytes of the value as it was written, and blanks. -/
theorem mem_of_mem_fieldValue {v : GoString} {b : UInt8} (h : b ∈ fieldValue v) : b = 0x20 ∨ b ∈ v := by
  have hright : b ∈ trimBlanksRight (0x20 :: v) := (dropWhile_suffix isBlank).subset h
  have hrev : b ∈ (0x20 :: v).reverse := (dropWhile_suffix isBlank).subset (mem_reverse.mp hright)
  exact mem_cons.mp (mem_reverse.mp hrev)

theorem readPart_written {p : MIMEPart} (hfields : ∀ f ∈ p.header, IsField f)
    (hvalid : ∀ f ∈ p.header, ∀ b ∈ f.2, isValueByte b = true) :
    readPart (crlf ++ p.text) = .ok ⟨(sortFields p.header).map readBack, p.body⟩ := by
  have hsorted : ∀ f ∈ sortFields p.header, IsField f :=
    fun f hf => hfields f (mem_sortFields.mp hf)
  have hlength : (sortFields p.header).length < p.text.length + 1 := by
    have hle := length_le_writeFields (sortFields p.header)
    unfold MIMEPart.text
    rw [length_append, length_append]
    omega
  have hread : readFields (p.text.length + 1) p.text =
      .ok ((sortFields p.header).map readBack, some p.body) :=
    readFields_written hsorted p.body hlength
  have hall : ((sortFields p.header).map readBack).all
      (fun f => f.1.all validHeaderFieldByte && f.2.all isValueByte) = true := by
    rw [all_eq_true]
    intro g hg
    obtain ⟨f, hf, rfl⟩ := mem_map.mp hg
    rw [Bool.and_eq_true, all_eq_true, all_eq_true]
    constructor
    · exact valid_canonicalMIMEHeaderKey (hsorted f hf).name
    · intro b hb
      rcases mem_of_mem_fieldValue hb with rfl | hb
      · decide
      · exact hvalid f (mem_sortFields.mp hf) b hb
  unfold readPart
  rw [show (crlf ++ p.text).dropWhile isBlank = 0x0D :: 0x0A :: p.text from rfl, expect_cons,
    Option.bind_eq_bind, Option.bind_some, expect_cons]
  dsimp only
  rw [hread]
  dsimp only
  rw [if_pos hall]

theorem readSections_written {parts : List MIMEPart}
    (hfields : ∀ p ∈ parts, ∀ f ∈ p.header, IsField f)
    (hvalid : ∀ p ∈ parts, ∀ f ∈ p.header, ∀ c ∈ f.2, isValueByte c = true) :
    readSections ((parts.map fun p => crlf ++ p.text) ++ [lit "--" ++ crlf]) =
      (parts.map fun p => ⟨(sortFields p.header).map readBack, p.body⟩, none) := by
  induction parts with
  | nil => rfl
  | cons p ps ih =>
    obtain ⟨hf, hfs⟩ := forall_mem_cons.mp hfields
    obtain ⟨hv, hvs⟩ := forall_mem_cons.mp hvalid
    have hno : ¬ lit "--" <+: crlf ++ p.text := by
      intro hpre
      exact absurd (cons_prefix_cons.mp hpre).1 (by decide)
    rw [map_cons, cons_append, readSections, if_neg hno, readPart_written hf hv, ih hfs hvs]
    rfl

/-- **A multipart body that was written is read back**, if the boundary does not occur in a part. -/
theorem readMultipart_written (b : Boundary) {parts : List MIMEPart} (hne : parts ≠ [])
    (hfields : ∀ p ∈ parts, ∀ f ∈ p.header, IsField f)
    (hvalid : ∀ p ∈ parts, ∀ f ∈ p.header, ∀ c ∈ f.2, isValueByte c = true)
    (hfree : ∀ p ∈ parts, ¬ b.text <:+: p.text) :
    readMultipart b.text (writeMultipart b.text parts) =
      (parts.map fun p => ⟨(sortFields p.header).map readBack, p.body⟩, none) := by
  obtain ⟨p, ps, rfl⟩ := exists_cons_of_ne_nil hne
  have hline : OneLine b.text := by
    intro c hc
    have hhex := b.hex c hc
    constructor
    · rintro rfl
      exact absurd hhex (by decide)
    · rintro rfl
      exact absurd hhex (by decide)
  have htext : b.text ≠ [] := by
    intro h
    have := b.length_eq
    rw [h] at this
    nomatch this
  have hdelim : delimiter b.text = 0x0D :: (0x0A :: 0x2D :: 0x2D :: b.text) := rfl
  have hcr : (0x0D : UInt8) ∉ 0x0A :: 0x2D :: 0x2D :: b.text := by
    intro hin
    simp only [mem_cons] at hin
    rcases hin with hin | hin | hin | hin
    · exact absurd hin (by decide)
    · exact absurd hin (by decide)
    · exact absurd hin (by decide)
    · exact (hline _ hin).1 rfl
  have hlast : ¬ delimiter b.text <:+: lit "--" ++ crlf := by
    intro hin
    have hlen := hin.length_le
    have hfour : (lit "--" ++ crlf).length = 4 := by decide
    rw [hdelim, hfour] at hlen
    simp only [length_cons, b.length_eq] at hlen
    omega
  have hsecs : ∀ t ∈ (p :: ps).map fun q => crlf ++ q.text, ¬ delimiter b.text <:+: t := by
    intro t ht
    obtain ⟨q, hq, rfl⟩ := mem_map.mp ht
    exact not_delimiter_infix (not_infix_crlf htext hline (hfree q hq))
  have hwritten := writeParts_eq b.text true p ps
  rw [show (if true = true then crlf else []) = crlf from rfl] at hwritten
  have hsections : sections (delimiter b.text) ((writeMultipart b.text (p :: ps)).length + 2)
      (crlf ++ writeMultipart b.text (p :: ps)) =
      [] :: ((p :: ps).map fun q => crlf ++ q.text) ++ [lit "--" ++ crlf] := by
    show sections _ _ (crlf ++ writeParts b.text true (p :: ps)) = _
    rw [hwritten]
    rw [hdelim] at hlast hsecs ⊢
    refine sections_joined (s := []) hcr hlast _ hsecs (fun hin => ?_) ?_
    · exact absurd hin.length_le (by simp)
    · -- every section takes some text
      have hlen := congrArg List.length hwritten
      have hmany : ∀ l : List GoString, l.length ≤ (l.flatMap (delimiter b.text ++ ·)).length := by
        intro l
        induction l with
        | nil => exact Nat.le_refl 0
        | cons t l ih =>
          have hpos : 0 < (delimiter b.text).length := by
            rw [hdelim]
            exact Nat.succ_pos _
          rw [flatMap_cons, length_append, length_append, length_cons]
          omega
      have hle := hmany ((p :: ps).map fun q => crlf ++ q.text)
      have hdashes : (lit "--" ++ crlf).length = 4 := by decide
      rw [length_append, length_append, length_append, hdashes] at hlen
      have htwo : crlf.length = 2 := rfl
      show _ < (writeParts b.text true (p :: ps)).length + 2
      omega
  unfold readMultipart
  rw [hsections]
  exact readSections_written hfields hvalid

end Written

/-! ## A part is shorter than the body it stands in -/

theorem cutByte_length {sep : UInt8} {s a : GoString} (h : cutByte sep s = some (a, t)) :
    t.length ≤ s.length := by
  induction s generalizing a with
  | nil => nomatch h
  | cons b s ih =>
    rw [cutByte] at h
    split at h
    · cases h
      exact Nat.le_succ _
    · obtain ⟨p, hp, heq⟩ := Option.map_eq_some_iff.mp h
      cases heq
      exact Nat.le_succ_of_le (ih hp)

theorem readLine_length {s line rest : GoString} (h : readLine s = some (line, rest)) :
    rest.length ≤ s.length := by
  match s, h with
  | b :: s, h =>
    rw [readLine] at h
    split at h
    · cases h
      exact Nat.zero_le _
    · next line rest hcut =>
      cases h
      exact cutByte_length hcut

theorem continued_length (n : Nat) (acc s : GoString) : (continued n acc s).2.length ≤ s.length := by
  induction n generalizing acc s with
  | zero => exact Nat.le_refl _
  | succ n ih =>
    rw [continued]
    split
    · have hdrop : (s.dropWhile isBlank).length ≤ s.length := (dropWhile_suffix isBlank).length_le
      split
      · exact Nat.zero_le _
      · next line rest hread =>
        exact (ih _ rest).trans ((readLine_length hread).trans hdrop)
    · exact Nat.le_refl _

theorem readContinuedLine_length {s kv rest : GoString}
    (h : readContinuedLine s = some (kv, rest)) : rest.length ≤ s.length := by
  unfold readContinuedLine at h
  split at h
  · nomatch h
  · next line rest' hread =>
    split at h
    · cases h
      exact readLine_length hread
    · have heq := Option.some.inj h
      have hlen := continued_length rest'.length (trimBlanks line) rest'
      rw [heq] at hlen
      exact hlen.trans (readLine_length hread)

theorem readFields_length {n : Nat} {s body : GoString}
    (h : readFields n s = .ok (fields, some body)) : body.length ≤ s.length := by
  induction n generalizing s fields with
  | zero =>
    cases h
    exact Nat.le_refl _
  | succ n ih =>
    rw [readFields] at h
    split at h
    · nomatch h
    · next kv rest hline =>
      have hrest := readContinuedLine_length hline
      split at h
      · cases h
        exact hrest
      · split at h
        · nomatch h
        · next k v hcut =>
          cases hread : readFields n rest with
          | error e =>
            rw [hread] at h
            nomatch h
          | ok r =>
            obtain ⟨fields', body'⟩ := r
            rw [hread] at h
            have hbody : body' = some body := by
              change (if k = [] then Except.ok (fields', body') else
                Except.ok (_ :: fields', body')) = _ at h
              split at h <;> exact congrArg Prod.snd (Except.ok.inj h)
            rw [hbody] at hread
            exact (ih hread).trans hrest

theorem readPart_length (h : readPart t = .ok p) : p.body.length ≤ t.length := by
  have hexpect : ∀ (b : UInt8) (s s' : GoString), expect b s = some s' → s'.length ≤ s.length := by
    intro b s s' hs
    match s, hs with
    | c :: s, hs =>
      rw [expect] at hs
      split at hs
      · cases hs
        exact Nat.le_succ _
      · nomatch hs
  unfold readPart at h
  split at h
  · nomatch h
  · next text htext =>
    obtain ⟨u, hu, htext⟩ := Option.bind_eq_some_iff.mp htext
    have hle : text.length ≤ t.length :=
      (hexpect _ _ _ htext).trans ((hexpect _ _ _ hu).trans (dropWhile_suffix isBlank).length_le)
    split at h
    · nomatch h
    · nomatch h
    · next fields body hread =>
      split at h
      · cases h
        exact (readFields_length hread).trans hle
      · nomatch h

theorem cutAt_length {d s a : GoString} (h : cutAt d s = some (a, t)) :
    a.length + d.length + t.length ≤ s.length := by
  induction s generalizing a with
  | nil =>
    rw [cutAt] at h
    split at h
    · next hd =>
      cases h
      rw [hd]
      exact Nat.le_refl 0
    · nomatch h
  | cons b s ih =>
    rw [cutAt] at h
    split at h
    · next hpre =>
      cases h
      have hle := hpre.length_le
      rw [length_nil, length_drop]
      omega
    · obtain ⟨p, hp, heq⟩ := Option.map_eq_some_iff.mp h
      cases heq
      have := ih hp
      rw [length_cons, length_cons]
      omega

theorem sections_length (d : GoString) (n : Nat) (s : GoString) :
    (∀ t ∈ sections d n s, t.length ≤ s.length) ∧
      ∀ t ∈ (sections d n s).tail, t.length + d.length ≤ s.length := by
  induction n generalizing s with
  | zero => exact ⟨fun t ht => by rw [mem_singleton.mp ht], nofun⟩
  | succ n ih =>
    rw [sections]
    split
    · exact ⟨fun t ht => by rw [mem_singleton.mp ht], nofun⟩
    · next front rest hcut =>
      have hlen := cutAt_length hcut
      refine ⟨fun t ht => ?_, fun t ht => ?_⟩
      · rcases mem_cons.mp ht with rfl | ht
        · omega
        · have := (ih rest).1 t ht
          omega
      · have := (ih rest).1 t ht
        omega

theorem mem_readSections {l : List GoString} (h : p ∈ (readSections l).1) :
    ∃ t ∈ l, readPart t = .ok p := by
  induction l with
  | nil => nomatch h
  | cons t l ih =>
    rw [readSections] at h
    split at h
    · nomatch h
    · split at h
      · nomatch h
      · next q hq =>
        rcases mem_cons.mp h with rfl | h
        · exact ⟨t, mem_cons_self .., hq⟩
        · obtain ⟨t', ht', hp⟩ := ih h
          exact ⟨t', mem_cons_of_mem _ ht', hp⟩

/-- **A part is shorter than the body.** -/
theorem readMultipart_shorter {boundary data : GoString} (h : p ∈ (readMultipart boundary data).1) :
    p.body.length < data.length := by
  obtain ⟨t, ht, hp⟩ := mem_readSections h
  have hsection := (sections_length _ _ _).2 t ht
  have hbody := readPart_length hp
  have hdelim : (delimiter boundary).length = boundary.length + 4 := by
    unfold delimiter
    rw [length_append]
    show 4 + boundary.length = _
    omega
  rw [length_append, hdelim] at hsection
  have htwo : crlf.length = 2 := rfl
  omega

end SmtpCloudRelay.Go
