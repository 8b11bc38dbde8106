/-
  JSON, as bytes: writing values and reading them back.

  Strings are ARBITRARY byte strings on the writing side, and a writer has to produce UTF-8: an
  invalid byte is written as the escape of U+FFFD (`escapeSeg`), so what comes back is the string
  with every invalid byte replaced.

  The reader accepts any JSON text, with white space and with escapes the writer never
  produces; inside strings, a pair of surrogate escapes is one code point and a lone one is U+FFFD.
  Its recursion is on a fuel that the length of the text always provides.
-/
import SmtpCloudRelay.Lib.Utf8

namespace Lib.Json

open Utf8

/-! ## Values -/

mutual

/-- A JSON value; a number is the text it is written as. -/
inductive Value where
  | null
  | bool (b : Bool)
  | num (text : List UInt8)
  | str (s : List UInt8)
  | arr (vs : Values)
  | obj (fs : Fields)

/-- The elements of an array. -/
inductive Values where
  | nil
  | cons (v : Value) (vs : Values)

/-- The members of an object, in order. -/
inductive Fields where
  | nil
  | cons (key : List UInt8) (v : Value) (fs : Fields)

end

/-- An array of values. -/
def Values.ofList : List Value → Values
  | [] => .nil
  | v :: vs => .cons v (ofList vs)

/-- An object of members. -/
def Fields.ofList : List (List UInt8 × Value) → Fields
  | [] => .nil
  | (k, v) :: fs => .cons k v (ofList fs)

/-- The elements as a list. -/
def Values.toList : Values → List Value
  | .nil => []
  | .cons v vs => v :: vs.toList

/-- The members as a list. -/
def Fields.toList : Fields → List (List UInt8 × Value)
  | .nil => []
  | .cons k v fs => (k, v) :: fs.toList

/-! ## Numbers -/

/-- A natural number in decimal. -/
def digits (n : Nat) : List UInt8 :=
  if n < 10 then [UInt8.ofNat (48 + n)] else digits (n / 10) ++ [UInt8.ofNat (48 + n % 10)]

/-- The byte is a decimal digit. -/
def isDigit (b : UInt8) : Bool := 0x30 ≤ b && b ≤ 0x39

/-- The number that a sequence of decimal digits denotes. -/
def ofDigits (s : List UInt8) : Nat := s.foldl (fun n b => 10 * n + (b.toNat - 48)) 0

/-- A digit and the number it denotes. -/
theorem isDigit_ofNat {d : Nat} (h : d < 10) :
    isDigit (UInt8.ofNat (48 + d)) = true ∧ (UInt8.ofNat (48 + d)).toNat - 48 = d := by
  have hall : ∀ d : Fin 10, isDigit (UInt8.ofNat (48 + d.val)) = true ∧
      (UInt8.ofNat (48 + d.val)).toNat - 48 = d.val := by decide
  exact hall ⟨d, h⟩

theorem ofDigits_append (s : List UInt8) (b : UInt8) :
    ofDigits (s ++ [b]) = 10 * ofDigits s + (b.toNat - 48) := by
  unfold ofDigits
  rw [List.foldl_append]
  rfl

/-- **A number survives being written in decimal.** -/
theorem ofDigits_digits (n : Nat) : ofDigits (digits n) = n := by
  induction n using Nat.strongRecOn with
  | _ n ih =>
    rw [digits]
    by_cases h : n < 10
    · rw [if_pos h]
      have hd := (isDigit_ofNat h).2
      show 10 * 0 + _ = n
      omega
    · rw [if_neg h, ofDigits_append, ih (n / 10) (by omega)]
      have hd := (isDigit_ofNat (d := n % 10) (by omega)).2
      omega

theorem isDigit_digits (n : Nat) : ∀ b ∈ digits n, isDigit b = true := by
  induction n using Nat.strongRecOn with
  | _ n ih =>
    rw [digits]
    by_cases h : n < 10
    · rw [if_pos h]
      intro b hb
      rw [List.mem_singleton.mp hb]
      exact (isDigit_ofNat h).1
    · rw [if_neg h]
      intro b hb
      rcases List.mem_append.mp hb with hb | hb
      · exact ih (n / 10) (by omega) b hb
      · rw [List.mem_singleton.mp hb]
        exact (isDigit_ofNat (by omega)).1

theorem digits_ne_nil (n : Nat) : digits n ≠ [] := by
  rw [digits]
  by_cases h : n < 10
  · simp [h]
  · simp [h]

/-- Only zero starts with the digit zero. -/
theorem digits_zero {n : Nat} {s : List UInt8} (h : digits n = 0x30 :: s) : s = [] := by
  induction n using Nat.strongRecOn generalizing s with
  | _ n ih =>
    rw [digits] at h
    by_cases hn : n < 10
    · rw [if_pos hn] at h
      exact (List.cons.inj h).2.symm
    · rw [if_neg hn] at h
      -- a longer number starts as its leading part does, which then denotes zero
      obtain ⟨b, t, ht⟩ := List.exists_cons_of_ne_nil (digits_ne_nil (n / 10))
      rw [ht, List.cons_append] at h
      obtain ⟨rfl, -⟩ := List.cons.inj h
      have hzero := ih (n / 10) (by omega) ht
      subst hzero
      have hval := ofDigits_digits (n / 10)
      rw [ht] at hval
      have : ofDigits [0x30] = 0 := rfl
      omega

/-! ## Writing -/

/-- A hexadecimal digit. -/
def hexDigit (n : Nat) : UInt8 := if n < 10 then UInt8.ofNat (48 + n) else UInt8.ofNat (87 + n)

/-- The escape `\u00XX` of a byte. -/
def escapeHex (b : UInt8) : List UInt8 :=
  [0x5C, 0x75, 0x30, 0x30, hexDigit (b.toNat / 16), hexDigit (b.toNat % 16)]

/-- An ASCII character inside a string; `<`, `>` and `&` are escaped so that the text may stand in
    HTML. -/
def escapeByte (b : UInt8) : List UInt8 :=
  if b = 0x22 then [0x5C, 0x22]
  else if b = 0x5C then [0x5C, 0x5C]
  else if b = 0x08 then [0x5C, 0x62]
  else if b = 0x0C then [0x5C, 0x66]
  else if b = 0x0A then [0x5C, 0x6E]
  else if b = 0x0D then [0x5C, 0x72]
  else if b = 0x09 then [0x5C, 0x74]
  else if b < 0x20 || b = 0x3C || b = 0x3E || b = 0x26 then escapeHex b
  else [b]

/-- A piece of a string: an invalid byte becomes the escape of U+FFFD, the two line separators of Unicode are
    escaped. -/
def escapeSeg : Seg → List UInt8
  | .bad _ => [0x5C, 0x75, 0x66, 0x66, 0x66, 0x64]
  | .rune [b] => escapeByte b
  | .rune e =>
    if e = [0xE2, 0x80, 0xA8] then [0x5C, 0x75, 0x32, 0x30, 0x32, 0x38]
    else if e = [0xE2, 0x80, 0xA9] then [0x5C, 0x75, 0x32, 0x30, 0x32, 0x39]
    else e

/-- A string up to and including its closing quote. -/
def quoted (s : List UInt8) : List UInt8 := (segments s).flatMap escapeSeg ++ [0x22]

mutual

/-- The text of a value. -/
def Value.encode : Value → List UInt8
  | .null => [0x6E, 0x75, 0x6C, 0x6C]
  | .bool true => [0x74, 0x72, 0x75, 0x65]
  | .bool false => [0x66, 0x61, 0x6C, 0x73, 0x65]
  | .num text => text
  | .str s => 0x22 :: quoted s
  | .arr .nil => [0x5B, 0x5D]
  | .arr (.cons v vs) => 0x5B :: (v.encode ++ vs.encodeTail)
  | .obj .nil => [0x7B, 0x7D]
  | .obj (.cons k v fs) => 0x7B :: 0x22 :: (quoted k ++ 0x3A :: (v.encode ++ fs.encodeTail))

/-- The text of an array after one of its elements. -/
def Values.encodeTail : Values → List UInt8
  | .nil => [0x5D]
  | .cons v vs => 0x2C :: (v.encode ++ vs.encodeTail)

/-- The text of an object after one of its members. -/
def Fields.encodeTail : Fields → List UInt8
  | .nil => [0x7D]
  | .cons k v fs => 0x2C :: 0x22 :: (quoted k ++ 0x3A :: (v.encode ++ fs.encodeTail))

end

/-! ## Reading -/

/-- The byte is white space. -/
def isSpace (b : UInt8) : Bool := b = 0x20 || b = 0x09 || b = 0x0A || b = 0x0D

/-- Drop white space. -/
def skip (s : List UInt8) : List UInt8 := s.dropWhile isSpace

/-- The value of a hexadecimal digit. -/
def hexValue (b : UInt8) : Option Nat :=
  if 0x30 ≤ b ∧ b ≤ 0x39 then some (b.toNat - 48)
  else if 0x61 ≤ b ∧ b ≤ 0x66 then some (b.toNat - 87)
  else if 0x41 ≤ b ∧ b ≤ 0x46 then some (b.toNat - 55)
  else none

/-- The value of four hexadecimal digits. -/
def hexValue4 (a b c d : UInt8) : Option Nat := do
  pure (((← hexValue a) * 16 + (← hexValue b)) * 256 + (← hexValue c) * 16 + (← hexValue d))

/-- What a string literal is made of: bytes, and escaped 16-bit units. -/
inductive Piece where
  | byte (b : UInt8)
  | unit (u : Nat)

/-- The character that a one-letter escape stands for. -/
def unescape (b : UInt8) : Option UInt8 :=
  if b = 0x22 ∨ b = 0x5C ∨ b = 0x2F then some b
  else if b = 0x62 then some 0x08
  else if b = 0x66 then some 0x0C
  else if b = 0x6E then some 0x0A
  else if b = 0x72 then some 0x0D
  else if b = 0x74 then some 0x09
  else none

/-- Put a piece in front. -/
def push (p : Piece) (x : Option (List Piece × List UInt8)) : Option (List Piece × List UInt8) :=
  x.map fun y => (p :: y.1, y.2)

/-- The pieces of a string literal up to its closing quote, and what follows it. -/
def pieces : List UInt8 → Option (List Piece × List UInt8)
  | [] => none
  | 0x22 :: s => some ([], s)
  | 0x5C :: 0x75 :: a :: b :: c :: d :: s =>
    match hexValue4 a b c d with
    | some u => push (.unit u) (pieces s)
    | none => none
  | 0x5C :: e :: s =>
    match unescape e with
    | some b => push (.byte b) (pieces s)
    | none => none
  | [0x5C] => none
  | b :: s => if b < 0x20 then none else push (.byte b) (pieces s)

/-- The bytes that pieces stand for: two units may be the halves of one code point. -/
def assemble : List Piece → List UInt8
  | [] => []
  | .byte b :: ps => b :: assemble ps
  | .unit u :: .unit v :: ps =>
    if 0xD800 ≤ u ∧ u < 0xDC00 ∧ 0xDC00 ≤ v ∧ v < 0xE000 then
      encode (0x10000 + (u - 0xD800) * 0x400 + (v - 0xDC00)) ++ assemble ps
    else encode u ++ assemble (.unit v :: ps)
  | .unit u :: ps => encode u ++ assemble ps

/-- A string literal after its opening quote. -/
def parseString (s : List UInt8) : Option (List UInt8 × List UInt8) :=
  (pieces s).map fun x => (coerce (assemble x.1), x.2)

/-- Digits, at least one of them. -/
def parseDigits (s : List UInt8) : Option (List UInt8 × List UInt8) :=
  match s.takeWhile isDigit with
  | [] => none
  | ds => some (ds, s.dropWhile isDigit)

/-- The integer part of a number: zero, or digits that do not start with zero. -/
def parseInt : List UInt8 → Option (List UInt8 × List UInt8)
  | 0x30 :: s => some ([0x30], s)
  | s => parseDigits s

/-- A fraction, if there is one. -/
def parseFrac : List UInt8 → Option (List UInt8 × List UInt8)
  | 0x2E :: s => (parseDigits s).map fun x => (0x2E :: x.1, x.2)
  | s => some ([], s)

/-- An exponent, if there is one. -/
def parseExp : List UInt8 → Option (List UInt8 × List UInt8)
  | 0x65 :: 0x2B :: s => (parseDigits s).map fun x => (0x65 :: 0x2B :: x.1, x.2)
  | 0x65 :: 0x2D :: s => (parseDigits s).map fun x => (0x65 :: 0x2D :: x.1, x.2)
  | 0x65 :: s => (parseDigits s).map fun x => (0x65 :: x.1, x.2)
  | 0x45 :: 0x2B :: s => (parseDigits s).map fun x => (0x45 :: 0x2B :: x.1, x.2)
  | 0x45 :: 0x2D :: s => (parseDigits s).map fun x => (0x45 :: 0x2D :: x.1, x.2)
  | 0x45 :: s => (parseDigits s).map fun x => (0x45 :: x.1, x.2)
  | s => some ([], s)

/-- A number without its sign. -/
def parseUnsigned (s : List UInt8) : Option (List UInt8 × List UInt8) := do
  let (i, s) ← parseInt s
  let (f, s) ← parseFrac s
  let (e, s) ← parseExp s
  pure (i ++ f ++ e, s)

/-- A value that is no string, array or object. -/
def parseScalar : List UInt8 → Option (Value × List UInt8)
  | 0x6E :: 0x75 :: 0x6C :: 0x6C :: s => some (.null, s)
  | 0x74 :: 0x72 :: 0x75 :: 0x65 :: s => some (.bool true, s)
  | 0x66 :: 0x61 :: 0x6C :: 0x73 :: 0x65 :: s => some (.bool false, s)
  | 0x2D :: s => (parseUnsigned s).map fun x => (.num (0x2D :: x.1), x.2)
  | s => (parseUnsigned s).map fun x => (.num x.1, x.2)

mutual

/-- A value and what follows it. -/
def parseValue : Nat → List UInt8 → Option (Value × List UInt8)
  | 0, _ => none
  | n + 1, s =>
    match skip s with
    | 0x22 :: s => (parseString s).map fun x => (.str x.1, x.2)
    | 0x5B :: s =>
      match skip s with
      | 0x5D :: s => some (.arr .nil, s)
      | s => do
        let (v, s) ← parseValue n s
        let (vs, s) ← parseElems n s
        pure (.arr (.cons v vs), s)
    | 0x7B :: s =>
      match skip s with
      | 0x7D :: s => some (.obj .nil, s)
      | s => do
        let ((k, v), s) ← parseField n s
        let (fs, s) ← parseFields n s
        pure (.obj (.cons k v fs), s)
    | s => parseScalar s

/-- The rest of an array after one of its elements. -/
def parseElems : Nat → List UInt8 → Option (Values × List UInt8)
  | 0, _ => none
  | n + 1, s =>
    match skip s with
    | 0x5D :: s => some (.nil, s)
    | 0x2C :: s => do
      let (v, s) ← parseValue n s
      let (vs, s) ← parseElems n s
      pure (.cons v vs, s)
    | _ => none

/-- One member of an object. -/
def parseField : Nat → List UInt8 → Option ((List UInt8 × Value) × List UInt8)
  | 0, _ => none
  | n + 1, s =>
    match skip s with
    | 0x22 :: s => do
      let (k, s) ← parseString s
      match skip s with
      | 0x3A :: s => do
        let (v, s) ← parseValue n s
        pure ((k, v), s)
      | _ => none
    | _ => none

/-- The rest of an object after one of its members. -/
def parseFields : Nat → List UInt8 → Option (Fields × List UInt8)
  | 0, _ => none
  | n + 1, s =>
    match skip s with
    | 0x7D :: s => some (.nil, s)
    | 0x2C :: s => do
      let ((k, v), s) ← parseField n s
      let (fs, s) ← parseFields n s
      pure (.cons k v fs, s)
    | _ => none

end

theorem parseValue_bracket (n : Nat) (s : List UInt8) : parseValue (n + 1) (0x5B :: s) =
    (match skip s with
    | 0x5D :: s => some (.arr .nil, s)
    | s => do
      let (v, s) ← parseValue n s
      let (vs, s) ← parseElems n s
      pure (.arr (.cons v vs), s)) := by
  rw [parseValue]
  rfl

theorem parseValue_brace (n : Nat) (s : List UInt8) : parseValue (n + 1) (0x7B :: s) =
    (match skip s with
    | 0x7D :: s => some (.obj .nil, s)
    | s => do
      let ((k, v), s) ← parseField n s
      let (fs, s) ← parseFields n s
      pure (.obj (.cons k v fs), s)) := by
  rw [parseValue]
  rfl

/-- A whole text: one value, with white space around it. -/
def parse (s : List UInt8) : Option Value :=
  match parseValue (s.length + 1) s with
  | some (v, rest) => if skip rest = [] then some v else none
  | none => none

end Lib.Json
