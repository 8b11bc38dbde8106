/-
  JSON THERE AND BACK: reading what was written.

  A text that `Value.encode` has written is read as the same value with every string COERCED to
  UTF-8 (`parse_encode`): the reader turns the escapes of the writer back into what they were
  written for, and an invalid byte was already written as U+FFFD.

  * Strings: each piece of a string is escaped on its own, so it is enough to read back one piece
    (`pieces_escapeSeg`) and to put the results together (`assemble_segPieces`).  No escape of the
    writer is a surrogate, so no two of them are taken for one code point.
  * Numbers: the reader takes all digits, so what follows must not be one.
  * Values: the fuel of the reader is the length of the text, which every level of the value uses
    up by at least one byte.
-/
import Mathlib.Data.Bool.Basic
import SmtpCloudRelay.Lib.Json

namespace Lib.Json

open Utf8 List

/-! ## Strings -/

/-- What a piece of a string is read back as. -/
def segPieces : Seg → List Piece
  | .bad _ => [.unit 0xFFFD]
  | .rune [b] =>
    if (b < 0x20 && b ≠ 0x08 && b ≠ 0x09 && b ≠ 0x0A && b ≠ 0x0C && b ≠ 0x0D) ||
      b = 0x3C || b = 0x3E || b = 0x26 then [.unit b.toNat]
    else [.byte b]
  | .rune e =>
    if e = [0xE2, 0x80, 0xA8] then [.unit 0x2028]
    else if e = [0xE2, 0x80, 0xA9] then [.unit 0x2029]
    else e.map .byte

/-- Put pieces in front. -/
def pushAll (ps : List Piece) (x : Option (List Piece × List UInt8)) :
    Option (List Piece × List UInt8) :=
  x.map fun y => (ps ++ y.1, y.2)

theorem pushAll_cons (p : Piece) (ps : List Piece) (x : Option (List Piece × List UInt8)) :
    push p (pushAll ps x) = pushAll (p :: ps) x := by
  unfold push pushAll
  rw [Option.map_map]
  rfl

@[simp] theorem pushAll_nil (x : Option (List Piece × List UInt8)) : pushAll [] x = x := by
  unfold pushAll
  simp

variable {b : UInt8} {rest text : List UInt8} {v : Value} {n : Nat}

/-- A byte that is neither a quote nor a backslash nor a control character. -/
theorem pieces_byte (hquote : b ≠ 0x22) (hback : b ≠ 0x5C) (hctl : ¬ b < 0x20) (s : List UInt8) :
    pieces (b :: s) = push (.byte b) (pieces s) := by
  rw [pieces.eq_def]
  split
  · rename_i h
    nomatch h
  · rename_i h
    exact absurd (List.cons.inj h).1 hquote
  · rename_i h
    exact absurd (List.cons.inj h).1 hback
  · rename_i h
    exact absurd (List.cons.inj h).1 hback
  · rename_i h
    exact absurd (List.cons.inj h).1 hback
  · rename_i b' s' _ _ _ _ h
    obtain ⟨rfl, rfl⟩ := List.cons.inj h
    rw [if_neg hctl]

/-- Bytes that stand for themselves. -/
theorem pieces_bytes {e : List UInt8} (h : ∀ b ∈ e, 0x80 ≤ b) (s : List UInt8) :
    pieces (e ++ s) = pushAll (e.map .byte) (pieces s) := by
  induction e with
  | nil => simp
  | cons b e ih =>
    have hb : 0x80 ≤ b := h b (mem_cons_self ..)
    have hquote : b ≠ 0x22 := by
      rintro rfl
      exact absurd hb (by decide)
    have hback : b ≠ 0x5C := by
      rintro rfl
      exact absurd hb (by decide)
    have hctl : ¬ b < 0x20 := by
      intro hlt
      rw [UInt8.lt_iff_toNat_lt] at hlt
      rw [UInt8.le_iff_toNat_le] at hb
      have h20 : (0x20 : UInt8).toNat = 32 := rfl
      have h80 : (0x80 : UInt8).toNat = 128 := rfl
      omega
    rw [cons_append, pieces_byte hquote hback hctl, ih fun b hb => h b (mem_cons_of_mem _ hb),
      pushAll_cons]
    rfl

/-- The escape of a byte is read as its number. -/
theorem pieces_escapeHex (b : UInt8) (s : List UInt8) :
    pieces (escapeHex b ++ s) = push (.unit b.toNat) (pieces s) := by
  have hread : ∀ b : UInt8,
      hexValue4 0x30 0x30 (hexDigit (b.toNat / 16)) (hexDigit (b.toNat % 16)) = some b.toNat :=
    forall_byte (by decide +kernel)
  show pieces (0x5C :: 0x75 :: 0x30 :: 0x30 :: hexDigit (b.toNat / 16) :: hexDigit (b.toNat % 16) :: s) = _
  rw [pieces, hread]

/-- **One ASCII character, escaped and read.** -/
theorem pieces_escapeByte (hb : b < 0x80) (s : List UInt8) :
    pieces (escapeByte b ++ s) = pushAll (segPieces (.rune [b])) (pieces s) := by
  -- all 128 characters: the two functions look at the same ranges
  by_cases hquote : b = 0x22
  · subst hquote
    rfl
  by_cases hback : b = 0x5C
  · subst hback
    rfl
  by_cases h08 : b = 0x08
  · subst h08
    rfl
  by_cases h0C : b = 0x0C
  · subst h0C
    rfl
  by_cases h0A : b = 0x0A
  · subst h0A
    rfl
  by_cases h0D : b = 0x0D
  · subst h0D
    rfl
  by_cases h09 : b = 0x09
  · subst h09
    rfl
  unfold escapeByte segPieces
  rw [if_neg hquote, if_neg hback, if_neg h08, if_neg h0C, if_neg h0A, if_neg h0D, if_neg h09]
  dsimp only
  by_cases hesc : (b < 0x20 || b = 0x3C || b = 0x3E || b = 0x26) = true
  · have hunit : ((b < 0x20 && b ≠ 0x08 && b ≠ 0x09 && b ≠ 0x0A && b ≠ 0x0C && b ≠ 0x0D) ||
        b = 0x3C || b = 0x3E || b = 0x26) = true := by
      simp only [Bool.or_eq_true, Bool.and_eq_true, decide_eq_true_eq] at hesc ⊢
      grind
    rw [if_pos hesc, if_pos hunit, pieces_escapeHex]
    rfl
  · have hbyte : ¬ ((b < 0x20 && b ≠ 0x08 && b ≠ 0x09 && b ≠ 0x0A && b ≠ 0x0C && b ≠ 0x0D) ||
        b = 0x3C || b = 0x3E || b = 0x26) = true := by
      simp only [Bool.or_eq_true, Bool.and_eq_true, decide_eq_true_eq] at hesc ⊢
      grind
    have hctl : ¬ b < 0x20 := by
      simp only [Bool.or_eq_true, decide_eq_true_eq] at hesc
      grind
    rw [if_neg hesc, if_neg hbyte]
    exact pieces_byte hquote hback hctl s

/-- **One piece of a string, escaped and read.** -/
theorem pieces_escapeSeg {g : Seg} (hg : ∀ e, g = .rune e → isEnc e = true) (s : List UInt8) :
    pieces (escapeSeg g ++ s) = pushAll (segPieces g) (pieces s) := by
  cases g with
  | bad b => rfl
  | rune e =>
    have he := hg e rfl
    match e, he with
    | [], he => nomatch he
    | [b], he => exact pieces_escapeByte (of_decide_eq_true he) s
    | a :: b :: e, he =>
      show pieces ((if a :: b :: e = [0xE2, 0x80, 0xA8] then [0x5C, 0x75, 0x32, 0x30, 0x32, 0x38]
        else if a :: b :: e = [0xE2, 0x80, 0xA9] then [0x5C, 0x75, 0x32, 0x30, 0x32, 0x39]
        else a :: b :: e) ++ s) = pushAll (if a :: b :: e = [0xE2, 0x80, 0xA8] then [.unit 0x2028]
        else if a :: b :: e = [0xE2, 0x80, 0xA9] then [.unit 0x2029]
        else (a :: b :: e).map .byte) (pieces s)
      split
      · rfl
      · split
        · rfl
        · exact pieces_bytes (high_of_isEnc he) s

theorem pieces_quoted (s rest : List UInt8) :
    pieces (quoted s ++ rest) = some ((segments s).flatMap segPieces, rest) := by
  unfold quoted
  have hsegs : ∀ g ∈ segments s, ∀ e, g = .rune e → isEnc e = true := by
    rintro g hg e rfl
    exact isEnc_of_mem hg
  generalize segments s = l at hsegs
  induction l with
  | nil => rfl
  | cons g l ih =>
    rw [flatMap_cons, append_assoc, append_assoc,
      pieces_escapeSeg (hsegs g (mem_cons_self ..)), ← append_assoc,
      ih fun g hg => hsegs g (mem_cons_of_mem _ hg)]
    rfl

/-- A unit that is no first half of a surrogate pair stands for itself. -/
theorem assemble_unit {u : Nat} (h : u < 0xD800 ∨ 0xDC00 ≤ u) (ps : List Piece) :
    assemble (.unit u :: ps) = encode u ++ assemble ps := by
  cases ps with
  | nil => rfl
  | cons p ps =>
    cases p with
    | byte b => rfl
    | unit v =>
      rw [assemble, if_neg]
      omega

theorem assemble_bytes (e : List UInt8) (ps : List Piece) :
    assemble (e.map .byte ++ ps) = e ++ assemble ps := by
  induction e with
  | nil => rfl
  | cons b e ih =>
    show b :: assemble (e.map .byte ++ ps) = _
    rw [ih]
    rfl

/-- What one piece was written for. -/
theorem assemble_segPieces {g : Seg} (hg : ∀ e, g = .rune e → isEnc e = true) (ps : List Piece) :
    assemble (segPieces g ++ ps) = g.coerced ++ assemble ps := by
  cases g with
  | bad b =>
    show assemble (.unit 0xFFFD :: ps) = _
    rw [assemble_unit (by omega)]
    rfl
  | rune e =>
    have he := hg e rfl
    match e, he with
    | [], he => nomatch he
    | [b], he =>
      have hb : b.toNat < 128 := of_decide_eq_true he
      unfold segPieces
      dsimp only
      split
      · show assemble (.unit b.toNat :: ps) = _
        rw [assemble_unit (by omega)]
        unfold encode
        rw [if_pos hb, UInt8.ofNat_toNat]
        rfl
      · rfl
    | a :: b :: e, he =>
      show assemble ((if a :: b :: e = [0xE2, 0x80, 0xA8] then [.unit 0x2028]
        else if a :: b :: e = [0xE2, 0x80, 0xA9] then [.unit 0x2029]
        else (a :: b :: e).map .byte) ++ ps) = _
      split
      · rename_i heq
        rw [heq]
        show assemble (.unit 0x2028 :: ps) = _
        rw [assemble_unit (by omega)]
        rfl
      · split
        · rename_i heq
          rw [heq]
          show assemble (.unit 0x2029 :: ps) = _
          rw [assemble_unit (by omega)]
          rfl
        · exact assemble_bytes _ ps

/-- **A string comes back with its invalid bytes replaced.** -/
theorem parseString_quoted (s rest : List UInt8) :
    parseString (quoted s ++ rest) = some (coerce s, rest) := by
  have hassemble : assemble ((segments s).flatMap segPieces) = coerce s := by
    unfold coerce
    have hsegs : ∀ g ∈ segments s, ∀ e, g = .rune e → isEnc e = true := by
      rintro g hg e rfl
      exact isEnc_of_mem hg
    generalize segments s = l at hsegs
    induction l with
    | nil => rfl
    | cons g l ih =>
      rw [flatMap_cons, flatMap_cons, assemble_segPieces (hsegs g (mem_cons_self ..)),
        ih fun g hg => hsegs g (mem_cons_of_mem _ hg)]
  unfold parseString
  rw [pieces_quoted]
  show some (coerce (assemble ((segments s).flatMap segPieces)), rest) = _
  rw [hassemble, coerce_eq_self.mpr (valid_coerce s)]

/-! ## Numbers -/

/-- What may follow a value inside a text: nothing, a comma, or the end of an array or object. -/
def Follows (rest : List UInt8) : Prop := ∀ b ∈ rest.head?, b = 0x2C ∨ b = 0x5D ∨ b = 0x7D

theorem follows_nil : Follows [] := nofun

theorem follows_cons (h : b = 0x2C ∨ b = 0x5D ∨ b = 0x7D) (s : List UInt8) : Follows (b :: s) := by
  intro c hc
  cases hc
  exact h

/-- All digits are taken, and nothing else. -/
theorem parseDigits_append {ds : List UInt8} (hne : ds ≠ []) (hds : ∀ b ∈ ds, isDigit b = true)
    (hrest : Follows rest) : parseDigits (ds ++ rest) = some (ds, rest) := by
  have hstop : rest.takeWhile isDigit = [] ∧ rest.dropWhile isDigit = rest := by
    cases rest with
    | nil => exact ⟨rfl, rfl⟩
    | cons b rest =>
      have hb : isDigit b = false := by
        rcases hrest b rfl with rfl | rfl | rfl <;> rfl
      simp [hb]
  have htake : (ds ++ rest).takeWhile isDigit = ds := by
    rw [takeWhile_append_of_pos hds, hstop.1, append_nil]
  have hdrop : (ds ++ rest).dropWhile isDigit = rest := by
    rw [dropWhile_append_of_pos hds, hstop.2]
  unfold parseDigits
  rw [htake, hdrop]
  obtain ⟨b, ds, rfl⟩ := exists_cons_of_ne_nil hne
  rfl

theorem parseFrac_follows (h : Follows rest) : parseFrac rest = some ([], rest) := by
  cases rest with
  | nil => rfl
  | cons b rest => rcases h b rfl with rfl | rfl | rfl <;> rfl

theorem parseExp_follows (h : Follows rest) : parseExp rest = some ([], rest) := by
  cases rest with
  | nil => rfl
  | cons b rest => rcases h b rfl with rfl | rfl | rfl <;> rfl

/-- A natural number is read whole. -/
theorem parseUnsigned_digits (n : Nat) (h : Follows rest) :
    parseUnsigned (digits n ++ rest) = some (digits n, rest) := by
  have hint : parseInt (digits n ++ rest) = some (digits n, rest) := by
    obtain ⟨b, ds, hds⟩ := exists_cons_of_ne_nil (digits_ne_nil n)
    by_cases hzero : b = 0x30
    · subst hzero
      obtain rfl := digits_zero hds
      rw [hds]
      rfl
    · have hall := parseDigits_append (digits_ne_nil n) (isDigit_digits n) h
      rw [hds, cons_append] at hall ⊢
      rw [← hall]
      unfold parseInt
      split
      · rename_i heq
        exact absurd (List.cons.inj heq).1 hzero
      · rfl
  unfold parseUnsigned
  rw [hint]
  show (parseFrac rest >>= _) = _
  rw [parseFrac_follows h]
  show (parseExp rest >>= _) = _
  rw [parseExp_follows h]
  show some (digits n ++ [] ++ [], rest) = _
  rw [append_nil, append_nil]

/-- The text of an integer. -/
def IsDecimal (text : List UInt8) : Prop := ∃ n, text = digits n ∨ text = 0x2D :: digits n

/-- A digit starts no other value, and is no white space. -/
theorem isDigit_ne (h : isDigit b = true) :
    b ≠ 0x22 ∧ b ≠ 0x5B ∧ b ≠ 0x7B ∧ b ≠ 0x6E ∧ b ≠ 0x74 ∧ b ≠ 0x66 ∧ b ≠ 0x2D ∧
      isSpace b = false := by
  revert b
  show ∀ b : UInt8, _
  exact forall_byte (by decide +kernel)

theorem digits_cons (n : Nat) : ∃ b s, digits n = b :: s ∧ isDigit b = true := by
  obtain ⟨b, s, hs⟩ := exists_cons_of_ne_nil (digits_ne_nil n)
  exact ⟨b, s, hs, isDigit_digits n b (hs ▸ mem_cons_self ..)⟩

/-- The text of an integer starts with a digit or a minus sign. -/
theorem IsDecimal.start (h : IsDecimal text) :
    ∃ b s, text = b :: s ∧ b ≠ 0x22 ∧ b ≠ 0x5B ∧ b ≠ 0x7B ∧ isSpace b = false := by
  obtain ⟨n, rfl | rfl⟩ := h
  · obtain ⟨b, s, hs, hb⟩ := digits_cons n
    obtain ⟨h1, h2, h3, -, -, -, -, h4⟩ := isDigit_ne hb
    exact ⟨b, s, hs, h1, h2, h3, h4⟩
  · exact ⟨0x2D, digits n, rfl, by decide, by decide, by decide, rfl⟩

theorem parseScalar_decimal (h : IsDecimal text) (hrest : Follows rest) :
    parseScalar (text ++ rest) = some (.num text, rest) := by
  obtain ⟨n, rfl | rfl⟩ := h
  · obtain ⟨b, s, hs, hb⟩ := digits_cons n
    obtain ⟨-, -, -, h1, h2, h3, h4, -⟩ := isDigit_ne hb
    have hnum := parseUnsigned_digits n hrest
    rw [hs, cons_append] at hnum ⊢
    unfold parseScalar
    split
    · rename_i heq
      exact absurd (List.cons.inj heq).1 h1
    · rename_i heq
      exact absurd (List.cons.inj heq).1 h2
    · rename_i heq
      exact absurd (List.cons.inj heq).1 h3
    · rename_i heq
      exact absurd (List.cons.inj heq).1 h4
    · rw [hnum]
      rfl
  · show (parseUnsigned (digits n ++ rest)).map _ = _
    rw [parseUnsigned_digits n hrest]
    rfl

/-! ## Values -/

mutual

/-- The value with all its strings coerced to UTF-8. -/
def Value.coerced : Value → Value
  | .str s => .str (coerce s)
  | .arr vs => .arr vs.coerced
  | .obj fs => .obj fs.coerced
  | v => v

def Values.coerced : Values → Values
  | .nil => .nil
  | .cons v vs => .cons v.coerced vs.coerced

def Fields.coerced : Fields → Fields
  | .nil => .nil
  | .cons k v fs => .cons (coerce k) v.coerced fs.coerced

end

mutual

/-- All numbers in the value are integers, written in decimal. -/
def Value.Decimal : Value → Prop
  | .num text => IsDecimal text
  | .arr vs => vs.Decimal
  | .obj fs => fs.Decimal
  | _ => True

def Values.Decimal : Values → Prop
  | .nil => True
  | .cons v vs => v.Decimal ∧ vs.Decimal

def Fields.Decimal : Fields → Prop
  | .nil => True
  | .cons _ v fs => v.Decimal ∧ fs.Decimal

end

/-! ## Lists of elements and of members -/

theorem Values.toList_coerced (l : List Value) :
    (Values.ofList l).coerced.toList = l.map Value.coerced := by
  induction l with
  | nil => rfl
  | cons v l ih =>
    show v.coerced :: (Values.ofList l).coerced.toList = _
    rw [ih, map_cons]

theorem Fields.toList_coerced (l : List (List UInt8 × Value)) :
    (Fields.ofList l).coerced.toList = l.map fun kv => (coerce kv.1, kv.2.coerced) := by
  induction l with
  | nil => rfl
  | cons kv l ih =>
    show (coerce kv.1, kv.2.coerced) :: (Fields.ofList l).coerced.toList = _
    rw [ih, map_cons]

theorem Values.decimal_ofList {l : List Value} (h : ∀ v ∈ l, v.Decimal) :
    (Values.ofList l).Decimal := by
  induction l with
  | nil => trivial
  | cons v l ih => exact ⟨h v (mem_cons_self ..), ih fun w hw => h w (mem_cons_of_mem _ hw)⟩

theorem Fields.decimal_ofList {l : List (List UInt8 × Value)} (h : ∀ kv ∈ l, kv.2.Decimal) :
    (Fields.ofList l).Decimal := by
  induction l with
  | nil => trivial
  | cons kv l ih =>
    exact ⟨h kv (mem_cons_self ..), ih fun w hw => h w (mem_cons_of_mem _ hw)⟩

/-! ## Reading values back -/

theorem skip_cons (h : isSpace b = false) (s : List UInt8) : skip (b :: s) = b :: s := by
  unfold skip
  rw [dropWhile_cons_of_neg (by rw [h]; decide)]

/-- A value that starts like a number is read as one. -/
theorem parseValue_scalar (h1 : b ≠ 0x22) (h2 : b ≠ 0x5B) (h3 : b ≠ 0x7B) (hsp : isSpace b = false)
    (n : Nat) (s : List UInt8) : parseValue (n + 1) (b :: s) = parseScalar (b :: s) := by
  rw [parseValue, skip_cons hsp]
  split
  · rename_i heq
    exact absurd (List.cons.inj heq).1 h1
  · rename_i heq
    exact absurd (List.cons.inj heq).1 h2
  · rename_i heq
    exact absurd (List.cons.inj heq).1 h3
  · rfl

/-- The text of a value is not empty, and starts neither with white space nor with the end of an
    array or object. -/
theorem Value.encode_start (h : v.Decimal) :
    ∃ b s, v.encode = b :: s ∧ isSpace b = false ∧ b ≠ 0x5D ∧ b ≠ 0x7D := by
  cases v with
  | null => exact ⟨0x6E, _, by rw [Value.encode], by decide, by decide, by decide⟩
  | bool b =>
    cases b with
    | true => exact ⟨0x74, _, by rw [Value.encode], by decide, by decide, by decide⟩
    | false => exact ⟨0x66, _, by rw [Value.encode], by decide, by decide, by decide⟩
  | num text =>
    rw [Value.Decimal] at h
    obtain ⟨n, rfl | rfl⟩ := h
    · obtain ⟨b, s, hs, hb⟩ := digits_cons n
      refine ⟨b, s, by rw [Value.encode, hs], (isDigit_ne hb).2.2.2.2.2.2.2, ?_, ?_⟩
      · rintro rfl
        nomatch hb
      · rintro rfl
        nomatch hb
    · exact ⟨0x2D, digits n, by rw [Value.encode], by decide, by decide, by decide⟩
  | str s => exact ⟨0x22, _, by rw [Value.encode], by decide, by decide, by decide⟩
  | arr vs =>
    cases vs with
    | nil | cons v vs => exact ⟨0x5B, _, by rw [Value.encode], by decide, by decide, by decide⟩
  | obj fs =>
    cases fs with
    | nil | cons k v fs => exact ⟨0x7B, _, by rw [Value.encode], by decide, by decide, by decide⟩

theorem Values.encodeTail_follows (vs : Values) (rest : List UInt8) :
    Follows (vs.encodeTail ++ rest) := by
  cases vs with
  | nil | cons v vs =>
    rw [Values.encodeTail]
    exact follows_cons (by simp) _

theorem Fields.encodeTail_follows (fs : Fields) (rest : List UInt8) :
    Follows (fs.encodeTail ++ rest) := by
  cases fs with
  | nil | cons k v fs =>
    rw [Fields.encodeTail]
    exact follows_cons (by simp) _

/-- One member, given that its value is read back. -/
theorem parseField_encode (k : List UInt8)
    (hv : parseValue n (v.encode ++ rest) = some (v.coerced, rest)) :
    parseField (n + 1) (0x22 :: (quoted k ++ 0x3A :: (v.encode ++ rest))) =
      some ((coerce k, v.coerced), rest) := by
  rw [parseField, skip_cons (by decide)]
  show (parseString (quoted k ++ _) >>= _) = _
  rw [parseString_quoted]
  dsimp only [Option.bind_eq_bind, Option.bind_some]
  rw [skip_cons (by decide)]
  show (parseValue n (v.encode ++ rest) >>= _) = _
  rw [hv]
  rfl

/-- An array that is not empty, given that its parts are read back. -/
theorem parseValue_array {w : Value} {vs : Values} {tail : List UInt8} (h : v.Decimal)
    (hv : parseValue n (v.encode ++ tail) = some (w, tail))
    (hvs : parseElems n tail = some (vs, rest)) :
    parseValue (n + 1) (0x5B :: (v.encode ++ tail)) = some (.arr (.cons w vs), rest) := by
  obtain ⟨b, s, hb, hsp, hclose, -⟩ := Value.encode_start h
  rw [hb, cons_append] at hv ⊢
  rw [parseValue_bracket, skip_cons hsp]
  split
  · rename_i heq
    exact absurd (List.cons.inj heq).1 hclose
  · rw [hv]
    show (parseElems n tail >>= _) = _
    rw [hvs]
    rfl

/-- An object that is not empty, given that its parts are read back. -/
theorem parseValue_object {k : List UInt8} {fs : Fields} {tail : List UInt8}
    (hfield : parseField n (0x22 :: text) = some ((k, v), tail))
    (hfs : parseFields n tail = some (fs, rest)) :
    parseValue (n + 1) (0x7B :: 0x22 :: text) = some (.obj (.cons k v fs), rest) := by
  rw [parseValue_brace, skip_cons (by decide)]
  show (parseField n (0x22 :: text) >>= _) = _
  rw [hfield]
  show (parseFields n tail >>= _) = _
  rw [hfs]
  rfl

mutual

/-- **A value is read back, coerced**, when the fuel is the length of its text. -/
theorem parseValue_encode (v : Value) (h : v.Decimal) (n : Nat) (hn : v.encode.length ≤ n)
    (rest : List UInt8) (hrest : Follows rest) :
    parseValue n (v.encode ++ rest) = some (v.coerced, rest) := by
  obtain ⟨b0, s0, hstart, -, -, -⟩ := Value.encode_start h
  obtain ⟨n, rfl⟩ : ∃ m, n = m + 1 := by
    cases n with
    | zero =>
      rw [hstart] at hn
      nomatch hn
    | succ m => exact ⟨m, rfl⟩
  match v, h, hn with
  | .null, _, _ =>
    rw [Value.encode, Value.coerced]
    · exact parseValue_scalar (by decide) (by decide) (by decide) (by decide) n _
    all_goals simp
  | .bool true, _, _ =>
    rw [Value.encode, Value.coerced]
    · exact parseValue_scalar (by decide) (by decide) (by decide) (by decide) n _
    all_goals simp
  | .bool false, _, _ =>
    rw [Value.encode, Value.coerced]
    · exact parseValue_scalar (by decide) (by decide) (by decide) (by decide) n _
    all_goals simp
  | .num text, h, _ =>
    rw [Value.Decimal] at h
    rw [Value.encode, Value.coerced]
    · obtain ⟨b, s, hs, h1, h2, h3, hsp⟩ := h.start
      have hscalar := parseScalar_decimal h hrest
      rw [hs, cons_append] at hscalar ⊢
      rw [parseValue_scalar h1 h2 h3 hsp, hscalar]
    all_goals simp
  | .str s, _, _ =>
    rw [Value.encode, Value.coerced, cons_append, parseValue, skip_cons (by decide)]
    show (parseString (quoted s ++ rest)).map _ = _
    rw [parseString_quoted]
    rfl
  | .arr .nil, _, _ =>
    rw [Value.encode, Value.coerced, Values.coerced, cons_append, parseValue, skip_cons (by decide)]
    rfl
  | .arr (.cons v vs), h, hn =>
    rw [Value.Decimal, Values.Decimal] at h
    rw [Value.encode, length_cons, length_append] at hn
    have hv := parseValue_encode v h.1 n (by omega) (vs.encodeTail ++ rest)
      (vs.encodeTail_follows rest)
    have hvs := parseElems_encode vs h.2 n (by omega) rest
    rw [Value.encode, Value.coerced, Values.coerced, cons_append, append_assoc]
    exact parseValue_array h.1 hv hvs
  | .obj .nil, _, _ =>
    rw [Value.encode, Value.coerced, Fields.coerced, cons_append, parseValue, skip_cons (by decide)]
    rfl
  | .obj (.cons k v fs), h, hn =>
    rw [Value.Decimal, Fields.Decimal] at h
    rw [Value.encode] at hn
    simp only [length_cons, length_append] at hn
    obtain ⟨m, rfl⟩ : ∃ m, n = m + 1 := ⟨n - 1, by omega⟩
    have hv := parseValue_encode v h.1 m (by omega) (fs.encodeTail ++ rest)
      (fs.encodeTail_follows rest)
    have hfs := parseFields_encode fs h.2 (m + 1) (by omega) rest
    have hfield := parseField_encode k hv
    rw [Value.encode, Value.coerced, Fields.coerced, cons_append, cons_append,
      append_assoc, cons_append, append_assoc]
    exact parseValue_object hfield hfs

/-- The rest of an array is read back. -/
theorem parseElems_encode (vs : Values) (h : vs.Decimal) (n : Nat) (hn : vs.encodeTail.length ≤ n)
    (rest : List UInt8) : parseElems n (vs.encodeTail ++ rest) = some (vs.coerced, rest) := by
  match vs, h, hn with
  | .nil, _, hn =>
    rw [Values.encodeTail, length_singleton] at hn
    obtain ⟨n, rfl⟩ : ∃ m, n = m + 1 := ⟨n - 1, by omega⟩
    rw [Values.encodeTail, Values.coerced, cons_append, parseElems, skip_cons (by decide)]
    rfl
  | .cons v vs, h, hn =>
    rw [Values.Decimal] at h
    rw [Values.encodeTail, length_cons, length_append] at hn
    obtain ⟨n, rfl⟩ : ∃ m, n = m + 1 := ⟨n - 1, by omega⟩
    have hv := parseValue_encode v h.1 n (by omega) (vs.encodeTail ++ rest)
      (vs.encodeTail_follows rest)
    have hvs := parseElems_encode vs h.2 n (by omega) rest
    rw [Values.encodeTail, Values.coerced, cons_append, append_assoc, parseElems,
      skip_cons (by decide)]
    show (parseValue n (v.encode ++ (vs.encodeTail ++ rest)) >>= _) = _
    rw [hv]
    show (parseElems n (vs.encodeTail ++ rest) >>= _) = _
    rw [hvs]
    rfl

/-- The rest of an object is read back. -/
theorem parseFields_encode (fs : Fields) (h : fs.Decimal) (n : Nat)
    (hn : fs.encodeTail.length ≤ n) (rest : List UInt8) :
    parseFields n (fs.encodeTail ++ rest) = some (fs.coerced, rest) := by
  match fs, h, hn with
  | .nil, _, hn =>
    rw [Fields.encodeTail, length_singleton] at hn
    obtain ⟨n, rfl⟩ : ∃ m, n = m + 1 := ⟨n - 1, by omega⟩
    rw [Fields.encodeTail, Fields.coerced, cons_append, parseFields, skip_cons (by decide)]
    rfl
  | .cons k v fs, h, hn =>
    rw [Fields.Decimal] at h
    rw [Fields.encodeTail] at hn
    simp only [length_cons, length_append] at hn
    obtain ⟨n, rfl⟩ : ∃ m, n = m + 2 := ⟨n - 2, by omega⟩
    have hv := parseValue_encode v h.1 n (by omega) (fs.encodeTail ++ rest)
      (fs.encodeTail_follows rest)
    have hfs := parseFields_encode fs h.2 (n + 1) (by omega) rest
    have hfield := parseField_encode k hv
    rw [Fields.encodeTail, Fields.coerced, cons_append, cons_append, append_assoc,
      cons_append, append_assoc, parseFields, skip_cons (by decide)]
    show (parseField (n + 1) (0x22 :: _) >>= _) = _
    rw [hfield]
    show (parseFields (n + 1) (fs.encodeTail ++ rest) >>= _) = _
    rw [hfs]
    rfl

end

/-- **The round trip**: reading what was written gives the coerced value. -/
theorem parse_encode (h : v.Decimal) : parse v.encode = some v.coerced := by
  have hread := parseValue_encode v h (v.encode.length + 1) (by omega) [] follows_nil
  rw [append_nil] at hread
  unfold parse
  rw [hread]
  rfl

end Lib.Json
