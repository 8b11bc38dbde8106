/-
  MEDIA TYPES: `mime.ParseMediaType`, as the relay's parser calls it.

  A header value such as `text/plain; charset=UTF-8` is a type, which is a token or two tokens with
  a slash between them, and parameters, each a token, `=` and a token or a quoted string.  A
  parameter whose name has a star is a piece of a longer one and is put together with its siblings.

  The function answers with three things at once, as the source's does: the type, the parameters,
  and an error; a broken parameter is an error that comes WITH the type.

  Of what it reads, the relay itself writes two forms, and `parseMediaType_param` reads them back:
  a type with one parameter that is a token, and one with a parameter in quotes.
-/
import Mathlib.Data.List.TakeWhile
import SmtpCloudRelay.Go.Strings

namespace SmtpCloudRelay.Go

open Lib List Utf8

/-! ## Tokens and quoted strings -/

/-- `isTSpecial`. -/
def isTSpecial (b : UInt8) : Bool := (lit "()<>@,;:\\\"/[]?=").contains b

/-- `isTokenChar`: ASCII without blanks, control characters and the specials. -/
def isTokenChar (b : UInt8) : Bool := 0x20 < b && b < 0x7F && !isTSpecial b

/-- `consumeToken`: the token in front and the rest. -/
def consumeToken (v : GoString) : GoString × GoString := v.span isTokenChar

/-- The rest after one given byte. -/
def expect (b : UInt8) : GoString → Option GoString
  | [] => none
  | c :: s => if c = b then some s else none

theorem expect_cons (b : UInt8) (s : GoString) : expect b (b :: s) = some s := if_pos rfl

/-- The rest of a quoted string, up to its closing quote: what it says and what follows.  A
    backslash takes the next byte as it is when that is a special, and is itself otherwise. -/
def consumeQuoted : GoString → Option (GoString × GoString)
  | [] => none
  | [b] => if b = 0x22 then some ([], []) else none
  | b :: c :: v =>
    if b = 0x22 then some ([], c :: v)
    else if b = 0x5C ∧ isTSpecial c then (consumeQuoted v).map fun p => (c :: p.1, p.2)
    else if b = 0x0D ∨ b = 0x0A then none
    else (consumeQuoted (c :: v)).map fun p => (b :: p.1, p.2)

/-- `consumeValue`; `none` is the answer that consumes nothing. -/
def consumeValue (v : GoString) : Option (GoString × GoString) :=
  match v with
  | [] => none
  | b :: rest =>
    if b = 0x22 then consumeQuoted rest
    else if (consumeToken v).1 = [] then none else some (consumeToken v)

section Tables

variable [Unicode]

/-- `consumeMediaParam`: name, value and rest. -/
def consumeMediaParam (v : GoString) : Option (GoString × GoString × GoString) := do
  let rest ← expect 0x3B (trimLeft v)
  let (param, rest) := consumeToken (trimLeft rest)
  if toLower param = [] then none
  else do
    let rest ← expect 0x3D (trimLeft rest)
    let (value, rest) ← consumeValue (trimLeft rest)
    return (toLower param, value, rest)

/-! ## Parameters in pieces -/

/-- The value of a hexadecimal digit. -/
def hexVal? (b : UInt8) : Option Nat :=
  if 0x30 ≤ b ∧ b ≤ 0x39 then some (b.toNat - 0x30)
  else if 0x61 ≤ b ∧ b ≤ 0x66 then some (b.toNat - 0x61 + 10)
  else if 0x41 ≤ b ∧ b ≤ 0x46 then some (b.toNat - 0x41 + 10)
  else none

/-- `percentHexUnescape`. -/
def percentHexUnescape : GoString → Option GoString
  | [] => some []
  | 0x25 :: a :: b :: s => do
    let x ← hexVal? a
    let y ← hexVal? b
    let rest ← percentHexUnescape s
    return (x * 16 + y).toUInt8 :: rest
  | b :: s => if b = 0x25 then none else (percentHexUnescape s).map (b :: ·)

/-- `decode2231Enc`: a character set, a language and the text, between apostrophes. -/
def decode2231Enc (v : GoString) : Option GoString := do
  let (charset, rest) ← cutByte 0x27 v
  let (_, text) ← cutByte 0x27 rest
  if toLower charset = lit "us-ascii" ∨ toLower charset = lit "utf-8" then percentHexUnescape text
  else none

/-- The pieces `name*0`, `name*1`, … put together, from number `n` on, as far as there are any. -/
def joinPieces (lookup : GoString → Option GoString) (name : GoString) : Nat → Nat → Option GoString
  | 0, _ => none
  | fuel + 1, n =>
    let simple := name ++ lit "*" ++ itoa n
    match lookup simple with
    | some v => some (v ++ (joinPieces lookup name fuel (n + 1)).getD [])
    | none =>
      match lookup (simple ++ lit "*") with
      | none => none
      | some v =>
        let text := if n = 0 then (decode2231Enc v).getD [] else (percentHexUnescape v).getD []
        some (text ++ (joinPieces lookup name fuel (n + 1)).getD [])

/-- The parameter `name`, once its pieces have been put together. -/
def stitched (params : List (GoString × GoString)) (name : GoString) : GoString :=
  let lookup := fun key => (params.find? fun p => p.1 = key).map Prod.snd
  let plain := (lookup name).getD []
  -- a name with a star has its pieces in a table of its own
  if (cutByte 0x2A name).isSome then []
  else
    match lookup (name ++ lit "*") with
    | some v => (decode2231Enc v).getD plain
    | none => (joinPieces lookup name (params.length + 1) 0).getD plain

/-! ## The whole value -/

/-- `checkMediaTypeDisposition`: its error, if any. -/
def checkMediaTypeDisposition (s : GoString) : Option String :=
  let (typ, rest) := consumeToken s
  if typ = [] then some "mime: no media type"
  else
    match rest with
    | [] => none
    | 0x2F :: rest =>
      let (subtype, rest) := consumeToken rest
      if subtype = [] then some "mime: expected token after slash"
      else if rest ≠ [] then some "mime: unexpected content after media subtype"
      else none
    | _ => some "mime: expected slash after first token"

/-- How the loop over the parameters ends. -/
inductive ParamsEnd where
  | done (params : List (GoString × GoString))
  | invalid
  | duplicate

/-- The loop over the parameters; `fuel` is at least the length of the text. -/
def parseParams : Nat → GoString → List (GoString × GoString) → ParamsEnd
  | 0, _, params => .done params
  | fuel + 1, v, params =>
    if trimLeft v = [] then .done params
    else
      match consumeMediaParam (trimLeft v) with
      | none => if trimSpace v = lit ";" then .done params else .invalid
      | some (key, value, rest) =>
        if params.any fun p => p.1 = key && p.2 ≠ value then .duplicate
        else parseParams fuel rest (params ++ [(key, value)])

/-- What `mime.ParseMediaType` answers. -/
structure ParsedMediaType where
  mediaType : GoString
  params : GoString → GoString
  err : Option String

/-- `mime.ParseMediaType`. -/
def parseMediaType (v : GoString) : ParsedMediaType :=
  let base := (v.span (· ≠ 0x3B)).1
  let mediaType := trimSpace (toLower base)
  match checkMediaTypeDisposition mediaType with
  | some e => ⟨[], fun _ => [], some e⟩
  | none =>
    match parseParams v.length (v.span (· ≠ 0x3B)).2 [] with
    | .done params => ⟨mediaType, stitched params, none⟩
    | .invalid => ⟨mediaType, fun _ => [], some "mime: invalid media parameter"⟩
    | .duplicate => ⟨[], fun _ => [], some "mime: duplicate parameter name"⟩

end Tables

/-! ## What is left of the white space -/

variable {b : UInt8} {s t e d p m : GoString}

/-- Nothing is trimmed before a visible ASCII character. -/
theorem trimLeft_visible (h : 0x20 < b ∧ b < 0x80) (s : GoString) : trimLeft (b :: s) = b :: s := by
  have h1 : isSpace1 b = false := by
    simp only [isSpace1, Bool.or_eq_false_iff, Bool.and_eq_false_iff, decide_eq_false_iff_not]
    grind
  have h2 : ∀ c, isSpace2 b c = false := by
    intro c
    have hne : b ≠ 0xC2 := by grind
    simp [isSpace2, hne]
  have h3 : ∀ c d, isSpace3 b c d = false := by
    intro c d
    have hne : b ≠ 0xE1 ∧ b ≠ 0xE2 ∧ b ≠ 0xE3 := by grind
    simp [isSpace3, hne]
  apply strip_of_stripped
  rcases s with _ | ⟨c, _ | ⟨d, s⟩⟩
  · exact h1
  · exact ⟨h1, h2 c⟩
  · exact ⟨h1, h2 c, h3 c d⟩

theorem trimLeft_blank (s : GoString) : trimLeft (0x20 :: s) = trimLeft s := by
  match s with
  | [] => rfl
  | [c] => rfl
  | c :: d :: s => rfl

/-- Trimming leaves bytes of the string. -/
theorem mem_of_mem_trimSpace (h : b ∈ trimSpace s) : b ∈ s :=
  (strip_suffix s).subset (List.IsPrefix.subset ( trimRight_prefix (trimLeft s)) h)

/-- Splitting before the first byte that fails a test. -/
theorem span_append {p : UInt8 → Bool} (hs : ∀ c ∈ s, p c = true) (hb : p b = false) :
    (s ++ b :: t).span p = (s, b :: t) := by
  rw [span_eq_takeWhile_dropWhile, takeWhile_append_of_pos hs,
    dropWhile_append_of_pos hs, takeWhile_cons_of_neg (by simp [hb]),
    dropWhile_cons_of_neg (by simp [hb]), append_nil]

/-! ## What `%q` writes is one quoted string -/

/-- A byte that a quoted string holds as it is. -/
def isPlain (b : UInt8) : Bool := b ≠ 0x22 && b ≠ 0x5C && b ≠ 0x0D && b ≠ 0x0A

/-- A byte of a header value: no control character. -/
def isText (b : UInt8) : Bool := 0x20 ≤ b && b ≠ 0x7F

/-- A piece of text inside a quoted string that stands for `d`, whatever follows it. -/
def Stands (e d : GoString) : Prop :=
  ∀ rest, consumeQuoted (e ++ rest) = (consumeQuoted rest).map fun p => (d ++ p.1, p.2)

theorem Stands.nil : Stands [] [] := by
  intro rest
  show consumeQuoted rest = (consumeQuoted rest).map fun p => (p.1, p.2)
  rw [Option.map_id']

theorem Stands.append {e' d' : GoString} (h : Stands e d) (h' : Stands e' d') :
    Stands (e ++ e') (d ++ d') := by
  intro rest
  rw [append_assoc, h, h', Option.map_map]
  congr 1
  funext p
  exact congrArg (·, p.2) (append_assoc ..).symm

theorem Stands.plain (h : isPlain b = true) : Stands [b] [b] := by
  simp only [isPlain, Bool.and_eq_true, decide_eq_true_eq] at h
  obtain ⟨⟨⟨hquote, hback⟩, hcr⟩, hlf⟩ := h
  intro rest
  cases rest with
  | nil =>
    show (if b = 0x22 then _ else none) = none
    rw [if_neg hquote]
  | cons c v =>
    show consumeQuoted (b :: c :: v) = _
    rw [consumeQuoted, if_neg hquote, if_neg (fun h => hback h.1), if_neg (by simp [hcr, hlf])]
    rfl

theorem Stands.plains (h : ∀ b ∈ e, isPlain b = true) : Stands e e := by
  induction e with
  | nil => exact .nil
  | cons b e ih =>
    obtain ⟨hb, he⟩ := forall_mem_cons.mp h
    exact (Stands.plain hb).append (ih he)

/-- A backslash before a special stands for the special. -/
theorem Stands.escaped {c : UInt8} (h : isTSpecial c = true) : Stands [0x5C, c] [c] := by
  intro rest
  show consumeQuoted (0x5C :: c :: rest) = _
  rw [consumeQuoted, if_neg (by decide), if_pos ⟨rfl, h⟩]
  rfl

/-- A backslash before any other plain byte stands for itself. -/
theorem Stands.backslash {c : UInt8} (h : isTSpecial c = false)
    (he : ∀ b ∈ c :: e, isPlain b = true) : Stands (0x5C :: c :: e) (0x5C :: c :: e) := by
  intro rest
  show consumeQuoted (0x5C :: c :: (e ++ rest)) = _
  rw [consumeQuoted, if_neg (by decide), if_neg (by simp [h]), if_neg (by decide)]
  have hplain := Stands.plains he rest
  rw [cons_append] at hplain
  rw [hplain, Option.map_map]
  rfl

theorem isPlain_hexDigits (k n : Nat) : ∀ b ∈ hexDigits k n, isPlain b = true ∧ isText b = true := by
  have hdigit : ∀ i : Fin 16, isPlain (hexDigit i) = true ∧ isText (hexDigit i) = true := by
    decide +kernel
  induction k generalizing n with
  | zero =>
    intro b hb
    nomatch hb
  | succ k ih =>
    intro b hb
    rcases mem_append.mp hb with hb | hb
    · exact ih (n / 16) b hb
    · cases mem_singleton.mp hb
      exact hdigit ⟨n % 16, Nat.mod_lt _ (by decide)⟩

/-- A backslash, a letter that is no special, and further plain bytes. -/
def isEscape : GoString → Bool
  | 0x5C :: c :: e => !isTSpecial c && (c :: e).all fun b => isPlain b && isText b
  | _ => false

theorem isEscape_bytes (h : isEscape e = true) : Stands e e ∧ ∀ b ∈ e, isText b = true := by
  unfold isEscape at h
  split at h
  · rename_i c e
    simp only [Bool.and_eq_true, all_eq_true, Bool.not_eq_true'] at h
    exact ⟨.backslash h.1 fun b hb => (h.2 b hb).1,
      forall_mem_cons.mpr ⟨by decide, fun b hb => (h.2 b hb).2⟩⟩
  · nomatch h

theorem isEscape_hexDigits {x : UInt8} (hx : isTSpecial x = false ∧ isPlain x = true ∧ isText x = true)
    (k n : Nat) : isEscape ([0x5C, x] ++ hexDigits k n) = true := by
  have hdigits : (hexDigits k n).all (fun b => isPlain b && isText b) = true :=
    all_eq_true.mpr fun b hb => Bool.and_eq_true_iff.mpr (isPlain_hexDigits k n b hb)
  show (!isTSpecial x && (x :: hexDigits k n).all fun b => isPlain b && isText b) = true
  rw [hx.1, all_cons, hx.2.1, hx.2.2, hdigits]
  rfl

theorem hexDigits_length (k n : Nat) : (hexDigits k n).length = k := by
  induction k generalizing n with
  | zero => rfl
  | succ k ih =>
    show (hexDigits k (n / 16) ++ [hexDigit (n % 16)]).length = k + 1
    rw [length_append, ih]
    rfl

theorem plain_of_high : 0x80 ≤ b → isPlain b = true ∧ isText b = true :=
  forall_byte (p := fun b => 0x80 ≤ b → isPlain b = true ∧ isText b = true) (by decide +kernel) b

variable [Unicode]

/-- `strconv.IsPrint`, for a piece of a string. -/
def isPrintSeg : Seg → Bool
  | .bad _ => false
  | .rune [b] => 0x20 ≤ b && b < 0x7F
  | .rune e => Unicode.isPrint e

/-- What a MIME reader finds of a piece that `%q` wrote. -/
def readSeg (g : Seg) : GoString := if isPrintSeg g then g.bytes else quoteSeg g

/-- What it finds of a whole string. -/
def readQuoted (s : GoString) : GoString := (segments s).flatMap readSeg

/-- A single byte: written as it is or behind a backslash if it is printable, and else as an escape. -/
theorem quoteSeg_byte (b : UInt8) :
    (isPrintSeg (.rune [b]) = true → isText b = true ∧
      ((quoteSeg (.rune [b]) = [b] ∧ isPlain b = true) ∨
        (quoteSeg (.rune [b]) = [0x5C, b] ∧ isTSpecial b = true))) ∧
    (isPrintSeg (.rune [b]) = false →
      isEscape (quoteSeg (.rune [b])) = true ∧ 1 < (quoteSeg (.rune [b])).length) :=
  -- no table is looked up for a single byte
  @forall_byte (fun b => (@isPrintSeg Unicode.ascii (.rune [b]) = true → isText b = true ∧
      ((@quoteSeg Unicode.ascii (.rune [b]) = [b] ∧ isPlain b = true) ∨
        (@quoteSeg Unicode.ascii (.rune [b]) = [0x5C, b] ∧ isTSpecial b = true))) ∧
    (@isPrintSeg Unicode.ascii (.rune [b]) = false →
      isEscape (@quoteSeg Unicode.ascii (.rune [b])) = true ∧
        1 < (@quoteSeg Unicode.ascii (.rune [b])).length)) _ (by decide +kernel) b

/-- A character that is not printable is written as an escape, which is longer. -/
theorem quoteSeg_unprintable {g : Seg} (hg : g ∈ segments s) (h : isPrintSeg g = false) :
    isEscape (quoteSeg g) = true ∧ g.bytes.length < (quoteSeg g).length := by
  match g, hg, h with
  | .bad b, _, _ =>
    refine ⟨isEscape_hexDigits ⟨by decide, by decide, by decide⟩ 2 b.toNat, ?_⟩
    show 1 < ([0x5C, 0x78] ++ hexDigits 2 b.toNat).length
    rw [length_append, hexDigits_length]
    decide
  | .rune [], hg, _ => exact absurd rfl (isEnc_ne_nil (isEnc_of_mem hg))
  | .rune [b], _, h => exact (quoteSeg_byte b).2 h
  | .rune (a :: b :: e), hg, h =>
    have hlen : (a :: b :: e).length ≤ 4 := (isEnc_length (isEnc_of_mem hg)).2
    have hseg : quoteSeg (.rune (a :: b :: e)) =
        if codePoint (a :: b :: e) < 0x10000 then lit "\\u" ++ hexDigits 4 (codePoint (a :: b :: e))
        else lit "\\U" ++ hexDigits 8 (codePoint (a :: b :: e)) := if_neg (Bool.eq_false_iff.mp h)
    rw [hseg]
    show _ ∧ (a :: b :: e).length < _
    split
    · refine ⟨isEscape_hexDigits ⟨by decide, by decide, by decide⟩ 4 _, ?_⟩
      rw [length_append, hexDigits_length]
      show _ < 2 + 4
      omega
    · refine ⟨isEscape_hexDigits ⟨by decide, by decide, by decide⟩ 8 _, ?_⟩
      rw [length_append, hexDigits_length]
      show _ < 2 + 8
      omega

/-- **What a reader finds of a piece**, and that no control character is written for it. -/
theorem stands_quoteSeg {g : Seg} (hg : g ∈ segments s) :
    Stands (quoteSeg g) (readSeg g) ∧ ∀ b ∈ quoteSeg g, isText b = true := by
  unfold readSeg
  cases h : isPrintSeg g with
  | false =>
    rw [if_neg Bool.false_ne_true]
    exact isEscape_bytes (quoteSeg_unprintable hg h).1
  | true =>
    rw [if_pos rfl]
    match g, hg, h with
    | .rune [], hg, _ => exact absurd rfl (isEnc_ne_nil (isEnc_of_mem hg))
    | .rune [b], _, h =>
      obtain ⟨htext, ⟨heq, hplain⟩ | ⟨heq, hspecial⟩⟩ := (quoteSeg_byte b).1 h
      · rw [heq]
        exact ⟨.plain hplain, by simpa using htext⟩
      · rw [heq]
        exact ⟨.escaped hspecial, forall_mem_cons.mpr ⟨by decide, by simpa using htext⟩⟩
    | .rune (a :: b :: e), hg, h =>
      have hself : quoteSeg (.rune (a :: b :: e)) = a :: b :: e := if_pos h
      have hhigh := fun c hc => plain_of_high (high_of_isEnc (isEnc_of_mem hg) c hc)
      rw [hself]
      exact ⟨.plains fun c hc => (hhigh c hc).1, fun c hc => (hhigh c hc).2⟩

/-- **What a reader finds of a string that `%q` wrote.** -/
theorem consumeValue_quote (s : GoString) : consumeValue (quote s) = some (readQuoted s, []) := by
  have hall : ∀ l : List Seg, (∀ g ∈ l, g ∈ segments s) →
      Stands (l.flatMap quoteSeg) (l.flatMap readSeg) := by
    intro l hl
    induction l with
    | nil => exact .nil
    | cons g l ih =>
      obtain ⟨hg, hl⟩ := forall_mem_cons.mp hl
      exact (stands_quoteSeg hg).1.append (ih hl)
  show consumeQuoted ((segments s).flatMap quoteSeg ++ lit "\"") = _
  rw [hall _ fun g hg => hg]
  show some (_ ++ [], []) = _
  rw [append_nil]
  rfl

/-- **What `%q` writes has no control character.** -/
theorem isText_quote (s : GoString) : ∀ b ∈ quote s, isText b = true := by
  have hmark : ∀ b ∈ lit "\"", isText b = true := bytes_of_all (by decide)
  intro b hb
  unfold quote at hb
  rcases mem_append.mp hb with hb | hb
  · rcases mem_append.mp hb with hb | hb
    · exact hmark b hb
    · obtain ⟨g, hg, hb⟩ := mem_flatMap.mp hb
      exact (stands_quoteSeg hg).2 b hb
  · exact hmark b hb

/-- **The string comes back exactly if all its characters are printable.**  Any other character comes
    back longer than it was. -/
theorem readQuoted_eq_iff (s : GoString) :
    readQuoted s = s ↔ ∀ g ∈ segments s, isPrintSeg g = true := by
  have hle : ∀ g ∈ segments s, g.bytes.length ≤ (readSeg g).length ∧
      (isPrintSeg g = false → g.bytes.length < (readSeg g).length) := by
    intro g hg
    unfold readSeg
    cases h : isPrintSeg g with
    | true => exact ⟨Nat.le_refl _, nofun⟩
    | false =>
      have hlt := (quoteSeg_unprintable hg h).2
      rw [if_neg Bool.false_ne_true]
      exact ⟨hlt.le, fun _ => hlt⟩
  unfold readQuoted
  constructor
  · intro heq
    -- the lengths of all pieces add up to the same
    have hsum : ∀ l : List Seg, (∀ g ∈ l, g ∈ segments s) →
        (l.flatMap Seg.bytes).length ≤ (l.flatMap readSeg).length ∧
        ((l.flatMap readSeg).length = (l.flatMap Seg.bytes).length →
          ∀ g ∈ l, isPrintSeg g = true) := by
      intro l hl
      induction l with
      | nil => exact ⟨Nat.le_refl _, fun _ => forall_mem_nil _⟩
      | cons g l ih =>
        obtain ⟨hg, hl⟩ := forall_mem_cons.mp hl
        obtain ⟨hrest, hprint⟩ := ih hl
        obtain ⟨hhead, hlt⟩ := hle g hg
        simp only [flatMap_cons, length_append]
        refine ⟨by omega, fun hsame => forall_mem_cons.mpr ⟨?_, hprint (by omega)⟩⟩
        cases h : isPrintSeg g with
        | true => rfl
        | false =>
          have := hlt h
          omega
    refine (hsum _ fun g hg => hg).2 ?_
    rw [heq, segments_bytes]
  · intro h
    have hcongr : (segments s).flatMap readSeg = (segments s).flatMap Seg.bytes :=
      flatMap_congr fun g hg => if_pos (h g hg)
    rw [hcongr, segments_bytes]

/-- Printable ASCII comes back. -/
theorem readQuoted_ascii (h : ∀ b ∈ s, 0x20 ≤ b ∧ b < 0x7F) : readQuoted s = s := by
  have hseg := segments_ascii (fun b hb => UInt8.lt_trans (h b hb).2 (by decide : (0x7F : UInt8) < 0x80)) []
  rw [append_nil, segments_nil, append_nil] at hseg
  refine (readQuoted_eq_iff s).mpr ?_
  rw [hseg]
  intro g hg
  obtain ⟨b, hb, rfl⟩ := mem_map.mp hg
  simpa [isPrintSeg] using h b hb

/-! ## One parameter -/

/-- The name of a parameter, as it is written: a token in lower case. -/
def IsParamName (p : GoString) : Prop :=
  p ≠ [] ∧ (∀ b ∈ p, isTokenChar b = true) ∧ p.map lowerByte = p

instance (p : GoString) : Decidable (IsParamName p) :=
  letI := List.decidableBAll (fun b => isTokenChar b = true) p
  inferInstanceAs (Decidable (p ≠ [] ∧ (∀ b ∈ p, isTokenChar b = true) ∧ p.map lowerByte = p))

omit [Unicode] in
theorem visible_of_isTokenChar (h : isTokenChar b = true) : 0x20 < b ∧ b < 0x80 := by
  simp only [isTokenChar, Bool.and_eq_true, decide_eq_true_eq] at h
  obtain ⟨⟨hlow, hhigh⟩, -⟩ := h
  exact ⟨hlow, by grind⟩

/-- A string of tokens is ASCII. -/
theorem toLower_visible (h : ∀ b ∈ s, 0x20 < b ∧ b < 0x80) : toLower s = s.map lowerByte := by
  have hascii : isASCII s = true := by
    unfold isASCII
    rw [all_eq_true]
    intro b hb
    exact decide_eq_true (h b hb).2
  unfold toLower
  rw [if_pos hascii]

/-- **A parameter is read back.** -/
theorem consumeMediaParam_written (hp : IsParamName p) (ht : trimLeft t = t)
    (hd : consumeValue t = some (d, [])) :
    consumeMediaParam (0x3B :: 0x20 :: (p ++ 0x3D :: t)) = some (p, d, []) := by
  obtain ⟨hne, htoken, hlower⟩ := hp
  have hvisible : ∀ b ∈ p, 0x20 < b ∧ b < 0x80 := fun b hb => visible_of_isTokenChar (htoken b hb)
  have hfront : trimLeft (p ++ 0x3D :: t) = p ++ 0x3D :: t := by
    obtain ⟨b, q, rfl⟩ := exists_cons_of_ne_nil hne
    exact trimLeft_visible (hvisible b (mem_cons_self ..)) _
  have hname : toLower p = p := (toLower_visible hvisible).trans hlower
  have hspan : consumeToken (p ++ 0x3D :: t) = (p, 0x3D :: t) := span_append htoken (by decide)
  unfold consumeMediaParam
  rw [trimLeft_visible (by decide), expect_cons, Option.bind_eq_bind, Option.bind_some,
    trimLeft_blank, hfront, hspan]
  dsimp only
  rw [hname, if_neg hne, trimLeft_visible (by decide), expect_cons, Option.bind_some, ht, hd]
  rfl

/-- **A media type with one parameter is read back.** -/
theorem parseMediaType_param (hm : ∀ b ∈ m, b ≠ 0x3B)
    (hcheck : checkMediaTypeDisposition (trimSpace (toLower m)) = none) (hp : IsParamName p)
    (ht : trimLeft t = t) (hd : consumeValue t = some (d, [])) :
    parseMediaType (m ++ lit "; " ++ p ++ lit "=" ++ t) =
      ⟨trimSpace (toLower m), stitched [(p, d)], none⟩ := by
  have htext : m ++ lit "; " ++ p ++ lit "=" ++ t = m ++ 0x3B :: 0x20 :: (p ++ 0x3D :: t) := by
    show m ++ [0x3B, 0x20] ++ p ++ [0x3D] ++ t = _
    simp only [append_assoc, cons_append, nil_append]
  have hspan : (m ++ 0x3B :: 0x20 :: (p ++ 0x3D :: t)).span (· ≠ 0x3B) =
      (m, 0x3B :: 0x20 :: (p ++ 0x3D :: t)) :=
    span_append (fun b hb => decide_eq_true (hm b hb)) rfl
  have hfuel : ∃ n, (m ++ 0x3B :: 0x20 :: (p ++ 0x3D :: t)).length = n + 2 :=
    ⟨m.length + (p ++ 0x3D :: t).length, by simp only [length_append, length_cons]; omega⟩
  obtain ⟨n, hn⟩ := hfuel
  unfold parseMediaType
  rw [htext, hspan, hn]
  dsimp only
  rw [hcheck]
  dsimp only
  rw [parseParams, trimLeft_visible (by decide), if_neg (cons_ne_nil _ _),
    consumeMediaParam_written hp ht hd]
  rfl

/-- The only parameter there is, under its own name. -/
theorem stitched_one (hp : ∀ b ∈ p, b ≠ 0x2A) : stitched [(p, d)] p = d := by
  have hcut : cutByte 0x2A p = none := by
    induction p with
    | nil => rfl
    | cons b p ih =>
      obtain ⟨hb, hp⟩ := forall_mem_cons.mp hp
      rw [cutByte, if_neg hb, ih hp]
      rfl
  -- the names of pieces are longer
  have hnone : ∀ e : GoString, e ≠ [] → p ≠ p ++ e := by
    intro e he heq
    exact he (append_right_eq_self.mp heq.symm)
  have hself : ∀ key, (([(p, d)].find? fun q => q.1 = key).map Prod.snd) =
      if p = key then some d else none := by
    intro key
    by_cases hkey : p = key
    · rw [if_pos hkey, find?_cons_of_pos (by simp [hkey])]
      rfl
    · rw [if_neg hkey, find?_cons_of_neg (by simp [hkey])]
      rfl
  have hstar : ∀ e : GoString, p ≠ p ++ lit "*" ++ e := by
    intro e
    rw [append_assoc]
    exact hnone _ (append_ne_nil_of_left_ne_nil (by decide) _)
  unfold stitched
  simp only [hself]
  rw [hcut, if_neg (by simp), if_neg (hnone _ (by decide))]
  dsimp only
  rw [joinPieces]
  dsimp only
  rw [if_neg (hstar _)]
  dsimp only
  rw [if_neg (by rw [append_assoc]; exact hstar _)]
  simp

/-! ## A type that was read is read again -/

/-- The tables never lower a character to an upper-case ASCII letter. -/
class Unicode.Lawful : Prop where
  lower_ne_upper : ∀ e, isEnc e = true → 2 ≤ e.length →
    ∀ b ∈ Unicode.lower e, lowerByte b = b

omit [Unicode] in
theorem Unicode.lawful_ascii : @Unicode.Lawful Unicode.ascii := by
  refine @Unicode.Lawful.mk Unicode.ascii fun e he hlen b hb => ?_
  match e, he, hlen with
  | x :: y :: e, he, _ =>
    have hhigh : 0x80 ≤ b := high_of_isEnc he b hb
    unfold lowerByte
    rw [if_neg]
    simp only [Bool.and_eq_true, decide_eq_true_eq]
    grind

omit [Unicode] in
theorem lowerByte_lowerByte (b : UInt8) : lowerByte (lowerByte b) = lowerByte b :=
  forall_byte (p := fun b => lowerByte (lowerByte b) = lowerByte b) (by decide +kernel) b

/-- What is in lower case has no upper-case ASCII letter. -/
theorem lowerByte_of_mem_toLower [Unicode.Lawful] (h : b ∈ toLower s) : lowerByte b = b := by
  unfold toLower at h
  split at h
  · obtain ⟨c, -, rfl⟩ := mem_map.mp h
    exact lowerByte_lowerByte c
  · obtain ⟨g, hg, h⟩ := mem_flatMap.mp h
    match g, hg, h with
    | .bad _, _, h =>
      have hall : ∀ c ∈ replacement, lowerByte c = c := bytes_of_all (by decide)
      exact hall b h
    | .rune [], hg, _ => exact absurd rfl (isEnc_ne_nil (isEnc_of_mem hg))
    | .rune [c], _, h =>
      cases mem_singleton.mp h
      exact lowerByte_lowerByte c
    | .rune (x :: y :: e), hg, h =>
      exact Unicode.Lawful.lower_ne_upper _ (isEnc_of_mem hg) (by simp) b h

/-- A type as `mime.ParseMediaType` returns it. -/
structure IsMediaType (m : GoString) : Prop where
  check : checkMediaTypeDisposition m = none
  lower : ∀ b ∈ m, lowerByte b = b

instance (m : GoString) : Decidable (IsMediaType m) :=
  letI := List.decidableBAll (fun b => lowerByte b = b) m
  decidable_of_iff (checkMediaTypeDisposition m = none ∧ ∀ b ∈ m, lowerByte b = b)
    ⟨fun h => ⟨h.1, h.2⟩, fun h => ⟨h.check, h.lower⟩⟩

omit [Unicode] in
/-- A type is made of token characters and a slash. -/
theorem bytes_of_check (h : checkMediaTypeDisposition m = none) :
    m ≠ [] ∧ ∀ b ∈ m, isTokenChar b = true ∨ b = 0x2F := by
  unfold checkMediaTypeDisposition consumeToken at h
  simp only [span_eq_takeWhile_dropWhile] at h
  split at h
  · nomatch h
  · next htyp =>
    have hsplit := takeWhile_append_dropWhile (p := isTokenChar) (l := m)
    have htoken : ∀ b ∈ m.takeWhile isTokenChar, isTokenChar b = true :=
      fun b hb => mem_takeWhile_imp hb
    have hne : m ≠ [] := by
      rintro rfl
      exact htyp rfl
    refine ⟨hne, ?_⟩
    split at h
    · next hrest =>
      rw [hrest, append_nil] at hsplit
      intro b hb
      rw [← hsplit] at hb
      exact Or.inl (htoken b hb)
    · next rest hrest =>
      split at h
      · nomatch h
      · split at h
        · nomatch h
        · next hsub =>
          rw [hrest] at hsplit
          have hsub : rest.dropWhile isTokenChar = [] := by
            by_contra hne
            exact hsub hne
          have hsplit' := takeWhile_append_dropWhile (p := isTokenChar) (l := rest)
          rw [hsub, append_nil] at hsplit'
          intro b hb
          rw [← hsplit] at hb
          rcases mem_append.mp hb with hb | hb
          · exact Or.inl (htoken b hb)
          · rcases mem_cons.mp hb with rfl | hb
            · exact Or.inr rfl
            · rw [← hsplit'] at hb
              exact Or.inl (mem_takeWhile_imp hb)
    · nomatch h

omit [Unicode] in
theorem visible_of_check (h : checkMediaTypeDisposition m = none) :
    ∀ b ∈ m, 0x20 < b ∧ b < 0x80 := by
  intro b hb
  rcases (bytes_of_check h).2 b hb with hb | rfl
  · exact visible_of_isTokenChar hb
  · decide

/-- A type that is returned, with an error or without one, has visible characters only. -/
theorem visible_mediaType (v : GoString) :
    ∀ b ∈ (parseMediaType v).mediaType, 0x20 < b ∧ b < 0x80 := by
  unfold parseMediaType
  dsimp only
  split
  · nofun
  · next hcheck =>
    split
    · exact visible_of_check hcheck
    · exact visible_of_check hcheck
    · nofun

omit [Unicode] in
theorem IsMediaType.visible (h : IsMediaType m) : ∀ b ∈ m, 0x20 < b ∧ b < 0x80 :=
  visible_of_check h.check

theorem IsMediaType.fixed (h : IsMediaType m) : trimSpace (toLower m) = m := by
  have hlower : m.map lowerByte = m := by
    rw [map_congr_left h.lower, map_id']
  rw [toLower_visible h.visible, hlower, trimSpace_visible h.visible]

omit [Unicode] in
theorem IsMediaType.no_semicolon (h : IsMediaType m) : ∀ b ∈ m, b ≠ 0x3B := by
  rintro b hb rfl
  rcases (bytes_of_check h.check).2 _ hb with hb | hb <;> exact absurd hb (by decide)

/-- **A type with a quoted parameter is read back**, but for what `%q` does to the text. -/
theorem parseMediaType_quoted (hm : IsMediaType m) (hp : IsParamName p) (hstar : ∀ b ∈ p, b ≠ 0x2A)
    (text : GoString) :
    (parseMediaType (m ++ (lit "; " ++ p ++ lit "=") ++ quote text)).mediaType = m ∧
      (parseMediaType (m ++ (lit "; " ++ p ++ lit "=") ++ quote text)).err = none ∧
      (parseMediaType (m ++ (lit "; " ++ p ++ lit "=") ++ quote text)).params p = readQuoted text := by
  have hcheck : checkMediaTypeDisposition (trimSpace (toLower m)) = none := by
    rw [hm.fixed]
    exact hm.check
  have hfront : trimLeft (quote text) = quote text := trimLeft_visible (by decide) _
  have hparse := parseMediaType_param hm.no_semicolon hcheck hp hfront (consumeValue_quote text)
  rw [show m ++ (lit "; " ++ p ++ lit "=") ++ quote text = m ++ lit "; " ++ p ++ lit "=" ++ quote text by
    simp only [append_assoc], hparse]
  exact ⟨hm.fixed, rfl, stitched_one hstar⟩

/-- **Every type that is returned without an error is a media type.** -/
theorem isMediaType_parse [Unicode.Lawful] {v : GoString} (h : (parseMediaType v).err = none) :
    IsMediaType (parseMediaType v).mediaType := by
  have hcheck : ∀ base : GoString, checkMediaTypeDisposition (trimSpace (toLower base)) = none →
      IsMediaType (trimSpace (toLower base)) := by
    intro base hc
    exact ⟨hc, fun b hb => lowerByte_of_mem_toLower (mem_of_mem_trimSpace hb)⟩
  unfold parseMediaType at h ⊢
  dsimp only at h ⊢
  split at h
  · nomatch h
  · next hc =>
    split at h
    · next hp => exact hcheck _ hc
    · nomatch h
    · nomatch h

end SmtpCloudRelay.Go
