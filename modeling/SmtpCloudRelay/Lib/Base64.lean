/-
  BASE64, the standard alphabet with padding: what `base64.StdEncoding` writes and reads.

  Three bytes are four letters of six bits each; a last group of one or two bytes is padded with
  `=`.  The reader takes groups of four letters, padding only in the last one; like Go's it does not
  ask that the bits under the padding are zero.

  * `decode_encode`: reading inverts writing, for every sequence of bytes.
  * `encode_letters`: what is written has letters of the alphabet and `=` only, so that cutting it
    into lines can be undone by dropping the line ends.

  The six bits are numbers below 64, and the arithmetic is that of `Nat`.
-/
import Mathlib.Logic.Basic

namespace Lib.Base64

/-- The letter for six bits. -/
def letter (n : Nat) : UInt8 :=
  if n < 26 then 0x41 + n.toUInt8
  else if n < 52 then 0x47 + n.toUInt8
  else if n < 62 then n.toUInt8 - 4
  else if n = 62 then 0x2B
  else 0x2F

/-- The six bits of a letter. -/
def value? (c : UInt8) : Option Nat :=
  if 0x41 ≤ c ∧ c ≤ 0x5A then some (c.toNat - 0x41)
  else if 0x61 ≤ c ∧ c ≤ 0x7A then some (c.toNat - 0x61 + 26)
  else if 0x30 ≤ c ∧ c ≤ 0x39 then some (c.toNat - 0x30 + 52)
  else if c = 0x2B then some 62
  else if c = 0x2F then some 63
  else none

/-- The padding `=`. -/
def pad : UInt8 := 0x3D

theorem value?_letter (n : Fin 64) : value? (letter n) = some n.1 := by
  revert n
  decide +kernel

theorem letter_ne_pad (n : Fin 64) : letter n ≠ pad := by
  revert n
  decide +kernel

/-- The letters of three bytes. -/
def group (a b c : UInt8) : List UInt8 :=
  [letter (a.toNat / 4), letter (a.toNat % 4 * 16 + b.toNat / 16),
    letter (b.toNat % 16 * 4 + c.toNat / 64), letter (c.toNat % 64)]

/-- `base64.StdEncoding.EncodeToString`. -/
def encode : List UInt8 → List UInt8
  | [] => []
  | [a] => [letter (a.toNat / 4), letter (a.toNat % 4 * 16), pad, pad]
  | [a, b] =>
    [letter (a.toNat / 4), letter (a.toNat % 4 * 16 + b.toNat / 16), letter (b.toNat % 16 * 4), pad]
  | a :: b :: c :: rest => group a b c ++ encode rest

/-- The three bytes of four values. -/
def bytes (x y z w : Nat) : List UInt8 :=
  [(x * 4 + y / 16).toUInt8, (y % 16 * 16 + z / 4).toUInt8, (z % 4 * 64 + w).toUInt8]

/-- A group without padding. -/
def decodeGroup (p q r s : UInt8) : Option (List UInt8) := do
  let x ← value? p
  let y ← value? q
  let z ← value? r
  let w ← value? s
  return bytes x y z w

/-- The last group of a text, which may be padded. -/
def decodeLast (p q r s : UInt8) : Option (List UInt8) :=
  if s = pad then
    if r = pad then do
      let x ← value? p
      let y ← value? q
      return (bytes x y 0 0).take 1
    else do
      let x ← value? p
      let y ← value? q
      let z ← value? r
      return (bytes x y z 0).take 2
  else decodeGroup p q r s

/-- `base64.StdEncoding.Decode`, for a text without line ends. -/
def decode : List UInt8 → Option (List UInt8)
  | [] => some []
  | [p, q, r, s] => decodeLast p q r s
  | p :: q :: r :: s :: rest => do
    let front ← decodeGroup p q r s
    let back ← decode rest
    return front ++ back
  | _ => none

/-! ## There and back -/

section Group

variable (a b c : UInt8)

/-- The four values of three bytes are below 64. -/
theorem values_lt : a.toNat / 4 < 64 ∧ a.toNat % 4 * 16 + b.toNat / 16 < 64 ∧
    b.toNat % 16 * 4 + c.toNat / 64 < 64 ∧ c.toNat % 64 < 64 := by
  have ha := a.toNat_lt
  have hb := b.toNat_lt
  have hc := c.toNat_lt
  refine ⟨?_, ?_, ?_, ?_⟩ <;> omega

theorem value?_letter_of_lt {n : Nat} (h : n < 64) : value? (letter n) = some n :=
  value?_letter ⟨n, h⟩

theorem letter_ne_pad_of_lt {n : Nat} (h : n < 64) : letter n ≠ pad := letter_ne_pad ⟨n, h⟩

theorem toUInt8_eq {n : Nat} {a : UInt8} (h : n = a.toNat) : n.toUInt8 = a := by
  rw [h]
  exact UInt8.ofNat_toNat

/-- **The values of three bytes give the bytes back.** -/
theorem bytes_values : bytes (a.toNat / 4) (a.toNat % 4 * 16 + b.toNat / 16)
    (b.toNat % 16 * 4 + c.toNat / 64) (c.toNat % 64) = [a, b, c] := by
  have ha := a.toNat_lt
  have hb := b.toNat_lt
  have hc := c.toNat_lt
  have h1 : a.toNat / 4 * 4 + (a.toNat % 4 * 16 + b.toNat / 16) / 16 = a.toNat := by omega
  have h2 : (a.toNat % 4 * 16 + b.toNat / 16) % 16 * 16 +
      (b.toNat % 16 * 4 + c.toNat / 64) / 4 = b.toNat := by omega
  have h3 : (b.toNat % 16 * 4 + c.toNat / 64) % 4 * 64 + c.toNat % 64 = c.toNat := by omega
  unfold bytes
  rw [toUInt8_eq h1, toUInt8_eq h2, toUInt8_eq h3]

theorem decodeGroup_group : decodeGroup (letter (a.toNat / 4))
    (letter (a.toNat % 4 * 16 + b.toNat / 16)) (letter (b.toNat % 16 * 4 + c.toNat / 64))
    (letter (c.toNat % 64)) = some [a, b, c] := by
  obtain ⟨h1, h2, h3, h4⟩ := values_lt a b c
  unfold decodeGroup
  rw [value?_letter_of_lt h1, value?_letter_of_lt h2, value?_letter_of_lt h3,
    value?_letter_of_lt h4]
  exact congrArg some (bytes_values a b c)

/-- The last group reads back too, with each amount of padding. -/
theorem decodeLast_three : decodeLast (letter (a.toNat / 4))
    (letter (a.toNat % 4 * 16 + b.toNat / 16)) (letter (b.toNat % 16 * 4 + c.toNat / 64))
    (letter (c.toNat % 64)) = some [a, b, c] := by
  obtain ⟨-, -, -, h4⟩ := values_lt a b c
  unfold decodeLast
  rw [if_neg (letter_ne_pad_of_lt h4)]
  exact decodeGroup_group a b c

theorem decodeLast_two : decodeLast (letter (a.toNat / 4))
    (letter (a.toNat % 4 * 16 + b.toNat / 16)) (letter (b.toNat % 16 * 4)) pad = some [a, b] := by
  obtain ⟨h1, h2, h3, -⟩ := values_lt a b 0
  have h3 : b.toNat % 16 * 4 < 64 := h3
  unfold decodeLast
  rw [if_pos rfl, if_neg (letter_ne_pad_of_lt h3), value?_letter_of_lt h1,
    value?_letter_of_lt h2, value?_letter_of_lt h3]
  exact congrArg (fun l => some (List.take 2 l)) (bytes_values a b 0)

theorem decodeLast_one : decodeLast (letter (a.toNat / 4)) (letter (a.toNat % 4 * 16)) pad pad =
    some [a] := by
  obtain ⟨h1, h2, -, -⟩ := values_lt a 0 0
  have h2 : a.toNat % 4 * 16 < 64 := h2
  unfold decodeLast
  rw [if_pos rfl, if_pos rfl, value?_letter_of_lt h1, value?_letter_of_lt h2]
  exact congrArg (fun l => some (List.take 1 l)) (bytes_values a 0 0)

end Group

/-- A text of at least one byte has at least one group of letters. -/
theorem encode_cons (a : UInt8) (l : List UInt8) : encode (a :: l) ≠ [] := by
  match l with
  | [] => exact List.cons_ne_nil _ _
  | [b] => exact List.cons_ne_nil _ _
  | b :: c :: l => exact List.cons_ne_nil _ _

/-- A group in front of further letters is not the last one. -/
theorem decode_append_group {p q r s : UInt8} {rest : List UInt8} (h : rest ≠ []) :
    decode (p :: q :: r :: s :: rest) = (do
      let front ← decodeGroup p q r s
      let back ← decode rest
      return front ++ back) := by
  cases rest with
  | nil => exact absurd rfl h
  | cons t rest => rfl

/-- **Reading inverts writing.** -/
theorem decode_encode (l : List UInt8) : decode (encode l) = some l := by
  fun_induction encode l with
  | case1 => rfl
  | case2 a => exact decodeLast_one a
  | case3 a b => exact decodeLast_two a b
  | case4 a b c rest ih =>
    cases rest with
    | nil => exact decodeLast_three a b c
    | cons d rest =>
      refine (decode_append_group (encode_cons d rest)).trans ?_
      rw [decodeGroup_group, ih]
      rfl

/-- **What is written has letters and padding only.** -/
theorem encode_letters (l : List UInt8) :
    ∀ x ∈ encode l, x = pad ∨ ∃ n < 64, x = letter n := by
  fun_induction encode l with
  | case1 =>
    intro x hx
    nomatch hx
  | case2 a =>
    obtain ⟨h1, h2, -, -⟩ := values_lt a 0 0
    intro x hx
    simp only [List.mem_cons, List.not_mem_nil, or_false] at hx
    rcases hx with rfl | rfl | rfl | rfl
    · exact Or.inr ⟨_, h1, rfl⟩
    · exact Or.inr ⟨_, h2, rfl⟩
    · exact Or.inl rfl
    · exact Or.inl rfl
  | case3 a b =>
    obtain ⟨h1, h2, h3, -⟩ := values_lt a b 0
    intro x hx
    simp only [List.mem_cons, List.not_mem_nil, or_false] at hx
    rcases hx with rfl | rfl | rfl | rfl
    · exact Or.inr ⟨_, h1, rfl⟩
    · exact Or.inr ⟨_, h2, rfl⟩
    · exact Or.inr ⟨_, h3, rfl⟩
    · exact Or.inl rfl
  | case4 a b c rest ih =>
    obtain ⟨h1, h2, h3, h4⟩ := values_lt a b c
    intro x hx
    rcases List.mem_append.mp hx with hx | hx
    · simp only [group, List.mem_cons, List.not_mem_nil, or_false] at hx
      rcases hx with rfl | rfl | rfl | rfl
      · exact Or.inr ⟨_, h1, rfl⟩
      · exact Or.inr ⟨_, h2, rfl⟩
      · exact Or.inr ⟨_, h3, rfl⟩
      · exact Or.inr ⟨_, h4, rfl⟩
    · exact ih x hx

/-- No letter is a control character, and none is beyond ASCII. -/
theorem encode_visible (l : List UInt8) : ∀ x ∈ encode l, 0x20 < x ∧ x < 0x80 := by
  have hletter : ∀ n : Fin 64, 0x20 < letter n ∧ letter n < 0x80 := by decide +kernel
  intro x hx
  rcases encode_letters l x hx with rfl | ⟨n, hn, rfl⟩
  · decide
  · exact hletter ⟨n, hn⟩

end Lib.Base64
