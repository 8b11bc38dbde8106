/-
  GO STRINGS, as the relay uses them: byte strings, with the functions of package `strings` and
  the formatting verbs of package `fmt` that its code calls.

  A Go string is ANY sequence of bytes; it need not be UTF-8, and the relay does hand raw mail
  bodies around as strings.  So `GoString` is a list of bytes and nothing more, and the functions
  that look at characters go through `Lib.Utf8`.

  * `trimSpace` removes the white space of `unicode.IsSpace` from both ends.  Those are six ASCII
    bytes and the encodings of nineteen further code points, each two or three bytes long; since
    no encoding is a part of another, looking for them at the front and at the back is what
    decoding runes from either side does.
  * `toLower` and `quote` (the verb `%q`) depend on two tables of package `unicode` beyond ASCII.
    The tables are a parameter, `Unicode`: every result holds for whatever they contain.
-/
import SmtpCloudRelay.Lib.Utf8

namespace SmtpCloudRelay.Go

open Lib List Utf8

/-- A Go string: a sequence of bytes. -/
abbrev GoString := List UInt8

instance : LawfulBEq GoString := inferInstance

/-- A string literal of the source, as bytes. -/
def lit (s : String) : GoString := s.toByteArray.data.toList

/-- A number as `%d` prints it. -/
def itoa (n : Int) : GoString := lit (toString n)

/-- A hexadecimal digit, in lower case. -/
def hexDigit (n : Nat) : UInt8 := if n < 10 then 0x30 + n.toUInt8 else 0x57 + n.toUInt8

/-- The `k` lowest hexadecimal digits of `n`. -/
def hexDigits : Nat → Nat → List UInt8
  | 0, _ => []
  | k + 1, n => hexDigits k (n / 16) ++ [hexDigit (n % 16)]

/-- `hex.EncodeToString`. -/
def hexEncode (bs : List UInt8) : GoString := bs.flatMap fun b => hexDigits 2 b.toNat

/-! ## White space -/

/-- The white space of one byte: tab, line feed, vertical tab, form feed, return, blank. -/
def isSpace1 (a : UInt8) : Bool := (0x09 ≤ a && a ≤ 0x0D) || a = 0x20

/-- The white space encoded in two bytes: U+0085 and U+00A0. -/
def isSpace2 (a b : UInt8) : Bool := a = 0xC2 && (b = 0x85 || b = 0xA0)

/-- The white space encoded in three bytes: U+1680, U+2000 to U+200A, U+2028, U+2029, U+202F,
    U+205F and U+3000. -/
def isSpace3 (a b c : UInt8) : Bool :=
  (a = 0xE1 && b = 0x9A && c = 0x80) ||
  (a = 0xE2 && b = 0x80 && ((0x80 ≤ c && c ≤ 0x8A) || c = 0xA8 || c = 0xA9 || c = 0xAF)) ||
  (a = 0xE2 && b = 0x81 && c = 0x9F) ||
  (a = 0xE3 && b = 0x80 && c = 0x80)

section Strip

variable (p1 : UInt8 → Bool) (p2 : UInt8 → UInt8 → Bool) (p3 : UInt8 → UInt8 → UInt8 → Bool)

/-- Drop characters of one, two or three bytes from the front as long as there are any. -/
def strip : GoString → GoString
  | [] => []
  | [a] => if p1 a then [] else [a]
  | [a, b] => if p1 a then strip [b] else if p2 a b then [] else [a, b]
  | a :: b :: c :: s =>
    if p1 a then strip (b :: c :: s)
    else if p2 a b then strip (c :: s)
    else if p3 a b c then strip s
    else a :: b :: c :: s

/-- The front of the string is not a character to be dropped. -/
def Stripped : GoString → Prop
  | [] => True
  | [a] => p1 a = false
  | [a, b] => p1 a = false ∧ p2 a b = false
  | a :: b :: c :: _ => p1 a = false ∧ p2 a b = false ∧ p3 a b c = false

variable {p1 p2 p3}

theorem stripped_strip (s : GoString) : Stripped p1 p2 p3 (strip p1 p2 p3 s) := by
  fun_induction strip p1 p2 p3 s with
  | case1 | case2 a h => trivial
  | case3 a h => exact Bool.eq_false_iff.mpr h
  | case4 a b h ih => exact ih
  | case5 a b h1 h2 => trivial
  | case6 a b h1 h2 => exact ⟨Bool.eq_false_iff.mpr h1, Bool.eq_false_iff.mpr h2⟩
  | case7 a b c s h ih | case8 a b c s h1 h2 ih | case9 a b c s h1 h2 h3 ih => exact ih
  | case10 a b c s h1 h2 h3 =>
    exact ⟨Bool.eq_false_iff.mpr h1, Bool.eq_false_iff.mpr h2, Bool.eq_false_iff.mpr h3⟩

theorem strip_of_stripped {s : GoString} (h : Stripped p1 p2 p3 s) : strip p1 p2 p3 s = s := by
  match s, h with
  | [], _ => rfl
  | [a], h => simp [strip, show p1 a = false from h]
  | [a, b], h => simp [strip, h.1, h.2]
  | a :: b :: c :: s, h => simp [strip, h.1, h.2.1, h.2.2]

theorem strip_suffix (s : GoString) : strip p1 p2 p3 s <:+ s := by
  fun_induction strip p1 p2 p3 s with
  | case1 => exact suffix_rfl
  | case2 a h => exact nil_suffix
  | case3 a h => exact suffix_rfl
  | case4 a b h ih => exact ih.trans (suffix_cons ..)
  | case5 a b h1 h2 => exact nil_suffix
  | case6 a b h1 h2 => exact suffix_rfl
  | case7 a b c s h ih => exact ih.trans (suffix_cons ..)
  | case8 a b c s h1 h2 ih =>
    exact ih.trans ((suffix_cons ..).trans (suffix_cons ..))
  | case9 a b c s h1 h2 h3 ih =>
    exact ih.trans ((suffix_cons ..).trans ((suffix_cons ..).trans (suffix_cons ..)))
  | case10 a b c s h1 h2 h3 => exact suffix_rfl

/-- A front part of a string that starts with no such character starts with none either. -/
theorem Stripped.of_append {s t : GoString} (h : Stripped p1 p2 p3 (s ++ t)) :
    Stripped p1 p2 p3 s := by
  match s, h with
  | [], _ => trivial
  | [a], h =>
    match t, h with
    | [], h => exact h
    | [b], h => exact h.1
    | b :: c :: t, h => exact h.1
  | [a, b], h =>
    match t, h with
    | [], h => exact h
    | c :: t, h => exact ⟨h.1, h.2.1⟩
  | a :: b :: c :: s, h => exact h

/-- One character to be dropped. -/
def Dropped (p1 : UInt8 → Bool) (p2 : UInt8 → UInt8 → Bool) (p3 : UInt8 → UInt8 → UInt8 → Bool) :
    GoString → Prop
  | [a] => p1 a = true
  | [a, b] => p2 a b = true
  | [a, b, c] => p3 a b c = true
  | _ => False

variable (p1 p2 p3) in
/-- What is dropped is a sequence of such characters. -/
theorem strip_dropped (s : GoString) :
    ∃ l : List GoString, (∀ e ∈ l, Dropped p1 p2 p3 e) ∧ s = l.flatten ++ strip p1 p2 p3 s := by
  fun_induction strip p1 p2 p3 s with
  | case1 => exact ⟨[], by simp, rfl⟩
  | case2 a h => exact ⟨[[a]], by simpa [Dropped] using h, rfl⟩
  | case3 a h => exact ⟨[], by simp, rfl⟩
  | case4 a b h ih =>
    obtain ⟨l, hl, hs⟩ := ih
    exact ⟨[a] :: l, forall_mem_cons.mpr ⟨h, hl⟩, congrArg (a :: ·) hs⟩
  | case5 a b h1 h2 => exact ⟨[[a, b]], by simpa [Dropped] using h2, rfl⟩
  | case6 a b h1 h2 => exact ⟨[], by simp, rfl⟩
  | case7 a b c s h ih =>
    obtain ⟨l, hl, hs⟩ := ih
    exact ⟨[a] :: l, forall_mem_cons.mpr ⟨h, hl⟩, congrArg (a :: ·) hs⟩
  | case8 a b c s h1 h2 ih =>
    obtain ⟨l, hl, hs⟩ := ih
    exact ⟨[a, b] :: l, forall_mem_cons.mpr ⟨h2, hl⟩, congrArg (fun t => a :: b :: t) hs⟩
  | case9 a b c s h1 h2 h3 ih =>
    obtain ⟨l, hl, hs⟩ := ih
    exact ⟨[a, b, c] :: l, forall_mem_cons.mpr ⟨h3, hl⟩, congrArg (fun t => a :: b :: c :: t) hs⟩
  | case10 a b c s h1 h2 h3 => exact ⟨[], by simp, rfl⟩

end Strip

/-- `strings.TrimLeftFunc(s, unicode.IsSpace)`. -/
def trimLeft (s : GoString) : GoString := strip isSpace1 isSpace2 isSpace3 s

/-- `strings.TrimRightFunc(s, unicode.IsSpace)`: the same from the back, where the bytes of a
    character are met in reverse. -/
def trimRight (s : GoString) : GoString :=
  (strip isSpace1 (fun b a => isSpace2 a b) (fun c b a => isSpace3 a b c) s.reverse).reverse

/-- `strings.TrimSpace`. -/
def trimSpace (s : GoString) : GoString := trimRight (trimLeft s)

theorem trimRight_prefix (s : GoString) : trimRight s <+: s := by
  rw [← reverse_suffix]
  show (strip _ _ _ s.reverse).reverse.reverse <:+ s.reverse
  rw [reverse_reverse]
  exact strip_suffix s.reverse

/-- **Trimming twice is trimming once.** -/
theorem trimSpace_trimSpace (s : GoString) : trimSpace (trimSpace s) = trimSpace s := by
  obtain ⟨t, ht⟩ := trimRight_prefix (trimLeft s)
  -- the left end: what trimRight leaves is a front part of what trimLeft left
  have hleft : trimLeft (trimSpace s) = trimSpace s := by
    have hfront : Stripped isSpace1 isSpace2 isSpace3 (trimRight (trimLeft s) ++ t) := by
      rw [ht]
      exact stripped_strip s
    exact strip_of_stripped hfront.of_append
  -- the right end
  have hright : trimRight (trimSpace s) = trimSpace s := by
    unfold trimSpace trimRight
    rw [reverse_reverse, strip_of_stripped (stripped_strip _)]
  show trimRight (trimLeft (trimSpace s)) = trimSpace s
  rw [hleft, hright]

/-- White space is encoded in UTF-8. -/
theorem isEnc_of_dropped {e : GoString} (h : Dropped isSpace1 isSpace2 isSpace3 e) :
    isEnc e = true := by
  match e, h with
  | [a], h =>
    simp only [Dropped, isSpace1, Bool.or_eq_true, Bool.and_eq_true, decide_eq_true_eq] at h
    simp only [isEnc, decide_eq_true_eq]
    grind
  | [a, b], h =>
    simp only [Dropped, isSpace2, Bool.or_eq_true, Bool.and_eq_true, decide_eq_true_eq] at h
    obtain ⟨rfl, rfl | rfl⟩ := h <;> decide
  | [a, b, c], h =>
    simp only [Dropped, isSpace3, Bool.or_eq_true, Bool.and_eq_true, decide_eq_true_eq] at h
    rcases h with ((⟨⟨rfl, rfl⟩, rfl⟩ | ⟨⟨rfl, rfl⟩, hc⟩) | ⟨⟨rfl, rfl⟩, rfl⟩) | ⟨⟨rfl, rfl⟩, rfl⟩
    · decide
    · have htail : 0x80 ≤ c ∧ c ≤ 0xBF := by grind
      simp [isEnc, isTail, htail.1, htail.2]
    · decide
    · decide

theorem dropped_reverse {e : GoString}
    (h : Dropped isSpace1 (fun b a => isSpace2 a b) (fun c b a => isSpace3 a b c) e) :
    Dropped isSpace1 isSpace2 isSpace3 e.reverse := by
  match e, h with
  | [a], h => exact h
  | [b, a], h => exact h
  | [c, b, a], h => exact h

/-- **Trimming keeps a string UTF-8.** -/
theorem valid_trimSpace {s : GoString} (h : Valid s) : Valid (trimSpace s) := by
  -- from the front, whole encodings come off
  have hleft : Valid (trimLeft s) := by
    obtain ⟨l, hl, hs⟩ := strip_dropped isSpace1 isSpace2 isSpace3 s
    change s = l.flatten ++ trimLeft s at hs
    generalize trimLeft s = t at hs
    subst hs
    induction l with
    | nil => exact h
    | cons e l ih =>
      obtain ⟨he, hl⟩ := forall_mem_cons.mp hl
      refine ih hl fun g hg => h g ?_
      rw [flatten_cons, append_assoc, segments_append (isEnc_of_dropped he)]
      exact mem_cons_of_mem _ hg
  -- from the back too, and what remains ends where an encoding begins
  unfold trimSpace
  generalize trimLeft s = t at hleft
  obtain ⟨l, hl, hs⟩ := strip_dropped isSpace1 (fun b a => isSpace2 a b)
    (fun c b a => isSpace3 a b c) t.reverse
  have ht : t = trimRight t ++ (l.map List.reverse).reverse.flatten := by
    have hrev := congrArg List.reverse hs
    rwa [reverse_reverse, reverse_append, reverse_flatten] at hrev
  have hhead : ∀ c ∈ ((l.map List.reverse).reverse.flatten).head?, isTail c = false := by
    have hencs : ∀ e ∈ (l.map List.reverse).reverse, isEnc e = true := by
      intro e he
      obtain ⟨e', he', rfl⟩ := mem_map.mp (mem_reverse.mp he)
      exact isEnc_of_dropped (dropped_reverse (hl e' he'))
    cases hm : (l.map List.reverse).reverse with
    | nil => exact nofun
    | cons e m =>
      have he := hencs e (by rw [hm]; exact mem_cons_self ..)
      obtain ⟨a, e', rfl⟩ := exists_cons_of_ne_nil (isEnc_ne_nil he)
      intro c hc
      cases hc
      exact (isTail_of_isEnc he).1
  intro g hg
  refine hleft g ?_
  rw [ht, segments_split hhead]
  exact mem_append_left _ hg

/-- No white space is trimmed from a string that has none. -/
theorem trimSpace_visible {s : GoString} (h : ∀ b ∈ s, 0x20 < b ∧ b < 0x80) : trimSpace s = s := by
  have h1 : ∀ a ∈ s, isSpace1 a = false := by
    intro a ha
    have := h a ha
    simp only [isSpace1, Bool.or_eq_false_iff, Bool.and_eq_false_iff, decide_eq_false_iff_not]
    grind
  have h2 : ∀ a ∈ s, ∀ b, isSpace2 a b = false := by
    intro a ha b
    have := h a ha
    have hne : a ≠ 0xC2 := by grind
    simp [isSpace2, hne]
  have h3 : ∀ a ∈ s, ∀ b c, isSpace3 a b c = false := by
    intro a ha b c
    have := h a ha
    have hne : a ≠ 0xE1 ∧ a ≠ 0xE2 ∧ a ≠ 0xE3 := by grind
    simp [isSpace3, hne]
  have hstripped : ∀ t : GoString, (∀ b ∈ t, b ∈ s) → Stripped isSpace1 isSpace2 isSpace3 t := by
    intro t ht
    match t, ht with
    | [], _ => trivial
    | [a], ht => exact h1 a (ht a (by simp))
    | [a, b], ht => exact ⟨h1 a (ht a (by simp)), h2 a (ht a (by simp)) b⟩
    | a :: b :: c :: t, ht =>
      exact ⟨h1 a (ht a (by simp)), h2 a (ht a (by simp)) b, h3 a (ht a (by simp)) b c⟩
  have hback : ∀ t : GoString, (∀ b ∈ t, b ∈ s) →
      Stripped isSpace1 (fun b a => isSpace2 a b) (fun c b a => isSpace3 a b c) t := by
    intro t ht
    match t, ht with
    | [], _ => trivial
    | [a], ht => exact h1 a (ht a (by simp))
    | [a, b], ht => exact ⟨h1 a (ht a (by simp)), h2 b (ht b (by simp)) a⟩
    | a :: b :: c :: t, ht =>
      exact ⟨h1 a (ht a (by simp)), h2 b (ht b (by simp)) a, h3 c (ht c (by simp)) b a⟩
  have hleft : trimLeft s = s := strip_of_stripped (hstripped s fun b hb => hb)
  unfold trimSpace trimRight
  rw [hleft, strip_of_stripped (hback s.reverse fun b hb => mem_reverse.mp hb), reverse_reverse]

/-! ## Cutting a string apart -/

/-- `strings.Split` at one byte. -/
def splitByte (sep : UInt8) : GoString → List GoString
  | [] => [[]]
  | b :: s =>
    if b = sep then [] :: splitByte sep s
    else
      match splitByte sep s with
      | [] => [[b]]
      | part :: parts => (b :: part) :: parts

/-- `strings.SplitN(s, sep, 2)`: what stands before and after the first separator. -/
def cutByte (sep : UInt8) : GoString → Option (GoString × GoString)
  | [] => none
  | b :: s => if b = sep then some ([], s) else (cutByte sep s).map fun p => (b :: p.1, p.2)

/-- What stands before and after the last separator: `strings.LastIndex` and the two slices. -/
def cutLast (sep : UInt8) (s : GoString) : Option (GoString × GoString) :=
  (cutByte sep s.reverse).map fun p => (p.2.reverse, p.1.reverse)

/-! ## Comparing without regard to case -/

/-- An ASCII upper-case letter in lower case; any other byte as it is. -/
def lowerByte (b : UInt8) : UInt8 := if 0x41 ≤ b && b ≤ 0x5A then b + 0x20 else b

/-- `strings.EqualFold(s, t)` for a `t` of ASCII characters other than `k` and `s`, the only two
    that Unicode folds with a character outside ASCII, or for two strings of ASCII characters. -/
def equalFold (s t : GoString) : Bool := s.map lowerByte = t.map lowerByte

/-! ## What depends on the Unicode tables -/

/-- The tables of package `unicode` for characters beyond ASCII, which are given by their
    encodings. -/
class Unicode where
  /-- `unicode.ToLower`. -/
  lower : List UInt8 → List UInt8
  /-- `strconv.IsPrint`. -/
  isPrint : List UInt8 → Bool

/-- Tables that know nothing beyond ASCII. -/
@[reducible] def Unicode.ascii : Unicode := ⟨id, fun _ => false⟩

/-- A string of ASCII bytes only. -/
def isASCII (s : GoString) : Bool := s.all fun b => b < 0x80

section Tables

variable [Unicode]

/-- One piece of a string in lower case.  Like `strings.Map`, it turns an invalid byte into
    U+FFFD. -/
def lowerSeg : Seg → List UInt8
  | .rune [b] => [lowerByte b]
  | .rune e => Unicode.lower e
  | .bad _ => replacement

/-- `strings.ToLower`. -/
def toLower (s : GoString) : GoString :=
  if isASCII s then s.map lowerByte else (segments s).flatMap lowerSeg

omit [Unicode] in
/-- ASCII bytes are cut off one by one. -/
theorem segments_ascii {sub : GoString} (h : ∀ b ∈ sub, b < 0x80) (t : GoString) :
    segments (sub ++ t) = sub.map (fun b => .rune [b]) ++ segments t := by
  induction sub with
  | nil => rfl
  | cons b sub ih =>
    have hb : isEnc [b] = true := decide_eq_true (h b (mem_cons_self ..))
    have hcut := segments_append hb (sub ++ t)
    rw [ih fun c hc => h c (mem_cons_of_mem _ hc)] at hcut
    exact hcut

omit [Unicode] in
/-- A string of ASCII characters is UTF-8. -/
theorem coerce_ascii {s : GoString} (h : ∀ b ∈ s, b < 0x80) : coerce s = s := by
  rw [coerce_eq_self]
  intro g hg
  have hcut := segments_ascii h []
  rw [append_nil, segments_nil, append_nil] at hcut
  rw [hcut] at hg
  obtain ⟨b, hb, rfl⟩ := mem_map.mp hg
  exact decide_eq_true (h b hb)

/-- A text in lower-case ASCII is still in the string when that is put in lower case. -/
theorem infix_toLower {sub s : GoString} (hsub : ∀ b ∈ sub, b < 0x80 ∧ lowerByte b = b)
    (h : sub <:+: s) : sub <:+: toLower s := by
  obtain ⟨a, t, rfl⟩ := h
  have hlower : sub.map lowerByte = sub := by
    rw [map_congr_left fun b hb => (hsub b hb).2, map_id']
  unfold toLower
  split
  · rw [map_append, map_append, hlower]
    exact infix_append _ _ _
  · cases hs : sub with
    | nil => exact nil_infix
    | cons b rest =>
      -- cut before the text, which starts with no tail byte
      have hhead : ∀ c ∈ (sub ++ t).head?, isTail c = false := by
        intro c hc
        rw [hs] at hc
        cases hc
        have hb : b < 0x80 := (hsub b (by rw [hs]; exact mem_cons_self ..)).1
        unfold isTail
        grind
      have hself : (sub.map fun b => Seg.rune [b]).flatMap lowerSeg = sub := by
        rw [flatMap_map]
        show sub.flatMap (fun b => [lowerByte b]) = sub
        rw [← map_eq_flatMap, hlower]
      rw [← hs, append_assoc, segments_split hhead, segments_ascii fun b hb => (hsub b hb).1,
        flatMap_append, flatMap_append, hself, ← append_assoc]
      exact infix_append _ _ _

/-- The code point that an encoding of several bytes stands for. -/
def codePoint : List UInt8 → Nat
  | [] => 0
  | [a] => a.toNat
  | [a, b] => (a.toNat % 32) * 64 + b.toNat % 64
  | [a, b, c] => (a.toNat % 16) * 4096 + (b.toNat % 64) * 64 + c.toNat % 64
  | a :: b :: c :: d :: _ =>
    (a.toNat % 8) * 262144 + (b.toNat % 64) * 4096 + (c.toNat % 64) * 64 + d.toNat % 64

/-- One piece of a string between quotes, escaped where `strconv.Quote` escapes it. -/
def quoteSeg : Seg → List UInt8
  | .bad b => lit "\\x" ++ hexDigits 2 b.toNat
  | .rune [b] =>
    if b = 0x22 then lit "\\\""
    else if b = 0x5C then lit "\\\\"
    else if 0x20 ≤ b && b < 0x7F then [b]
    else if b = 0x07 then lit "\\a"
    else if b = 0x08 then lit "\\b"
    else if b = 0x0C then lit "\\f"
    else if b = 0x0A then lit "\\n"
    else if b = 0x0D then lit "\\r"
    else if b = 0x09 then lit "\\t"
    else if b = 0x0B then lit "\\v"
    else lit "\\x" ++ hexDigits 2 b.toNat
  | .rune e =>
    if Unicode.isPrint e then e
    else if codePoint e < 0x10000 then lit "\\u" ++ hexDigits 4 (codePoint e)
    else lit "\\U" ++ hexDigits 8 (codePoint e)

/-- The verb `%q`: `strconv.Quote`. -/
def quote (s : GoString) : GoString :=
  lit "\"" ++ (segments s).flatMap quoteSeg ++ lit "\""

end Tables

/-- A property of every byte, checked by a run over the bytes. -/
theorem bytes_of_all {s : GoString} {p : UInt8 → Prop} [DecidablePred p]
    (h : s.all (fun b => decide (p b)) = true) : ∀ b ∈ s, p b :=
  fun b hb => of_decide_eq_true (all_eq_true.mp h b hb)

/-- A number is written with digits. -/
theorem itoa_digits {n : Nat} {b : UInt8} (h : b ∈ itoa n) : 0x30 ≤ b ∧ b ≤ 0x39 := by
  have hitoa : itoa n = (Nat.toDigits 10 n).flatMap String.utf8EncodeChar := by
    show (Nat.repr n).toByteArray.data.toList = _
    rw [Nat.repr_eq_ofList_toDigits, String.toByteArray_ofList, List.utf8Encode, data_toByteArray]
  rw [hitoa] at h
  obtain ⟨c, hc, hb⟩ := mem_flatMap.mp h
  have hdigit := Nat.isDigit_of_mem_toDigits (by decide) (by decide) hc
  simp only [Char.isDigit, Bool.and_eq_true, decide_eq_true_eq, ge_iff_le, UInt32.le_iff_toNat_le] at hdigit
  have hsize : c.utf8Size = 1 := by
    rw [Char.utf8Size_eq_one_iff, UInt32.le_iff_toNat_le]
    exact le_trans hdigit.2 (by decide)
  rw [String.utf8EncodeChar_eq_singleton hsize, mem_singleton] at hb
  subst hb
  have h1 : (48 : Nat) ≤ c.val.toNat := hdigit.1
  have h2 : c.val.toNat ≤ 57 := hdigit.2
  simp only [UInt8.le_iff_toNat_le, UInt32.toNat_toUInt8]
  constructor
  · show 48 ≤ _
    omega
  · show _ ≤ 57
    omega

end SmtpCloudRelay.Go
