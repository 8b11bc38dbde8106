/-
  UTF-8 IN ARBITRARY BYTES: cutting a byte string into runes.

  A byte string need not be UTF-8.  `segments` cuts it from the left into well-formed encodings
  of one code point (`isEnc`) and single bytes that start none, which is how the
  decoders of most languages walk over a string; nothing is lost (`segments_bytes`).

  `coerce` writes U+FFFD for every byte that starts no encoding.  The two facts about it that
  matter are that it changes exactly the strings that are not UTF-8 (`coerce_eq_self`) and that
  its result always is UTF-8 (`valid_coerce`).
-/
import Mathlib.Data.List.Infix

namespace Lib

open List

/-- A property of all bytes, checked one by one. -/
theorem forall_byte {p : UInt8 → Prop} [DecidablePred p]
    (h : (List.range 256).all (fun n => decide (p n.toUInt8)) = true) (b : UInt8) : p b := by
  have hb := all_eq_true.mp h b.toNat (mem_range.mpr b.toNat_lt)
  have heq : b.toNat.toUInt8 = b := UInt8.ofNat_toNat
  rw [heq] at hb
  exact of_decide_eq_true hb

namespace Utf8

/-! ## One encoded code point -/

/-- `UTF8-tail = %x80-BF`. -/
def isTail (b : UInt8) : Bool := 0x80 ≤ b && b ≤ 0xBF

/-- The bytes are the encoding of exactly one code point. -/
def isEnc : List UInt8 → Bool
  | [a] => a < 0x80
  | [a, b] => 0xC2 ≤ a && a ≤ 0xDF && isTail b
  | [a, b, c] =>
    isTail c &&
      ((a == 0xE0 && 0xA0 ≤ b && b ≤ 0xBF) ||
       (0xE1 ≤ a && a ≤ 0xEC && isTail b) ||
       (a == 0xED && 0x80 ≤ b && b ≤ 0x9F) ||
       (0xEE ≤ a && a ≤ 0xEF && isTail b))
  | [a, b, c, d] =>
    isTail c && isTail d &&
      ((a == 0xF0 && 0x90 ≤ b && b ≤ 0xBF) ||
       (0xF1 ≤ a && a ≤ 0xF3 && isTail b) ||
       (a == 0xF4 && 0x80 ≤ b && b ≤ 0x8F))
  | _ => false

/-- The encoding of U+FFFD, the replacement character. -/
def replacement : List UInt8 := [0xEF, 0xBF, 0xBD]

theorem isEnc_replacement : isEnc replacement = true := by decide

/-- The UTF-8 encoding of a code point; U+FFFD for one that has none. -/
def encode (c : Nat) : List UInt8 :=
  if c < 0x80 then [UInt8.ofNat c]
  else if c < 0x800 then [UInt8.ofNat (0xC0 + c / 64), UInt8.ofNat (0x80 + c % 64)]
  else if 0xD800 ≤ c ∧ c < 0xE000 then replacement
  else if c < 0x10000 then
    [UInt8.ofNat (0xE0 + c / 4096), UInt8.ofNat (0x80 + c / 64 % 64), UInt8.ofNat (0x80 + c % 64)]
  else if c < 0x110000 then
    [UInt8.ofNat (0xF0 + c / 262144), UInt8.ofNat (0x80 + c / 4096 % 64),
      UInt8.ofNat (0x80 + c / 64 % 64), UInt8.ofNat (0x80 + c % 64)]
  else replacement

/-- The length of the encoding at the front of `s`; `0` when none is there. -/
def headLen (s : List UInt8) : Nat :=
  if isEnc (s.take 1) then 1
  else if isEnc (s.take 2) then 2
  else if isEnc (s.take 3) then 3
  else if isEnc (s.take 4) then 4
  else 0

variable {e s : List UInt8}

theorem isEnc_ne_nil (h : isEnc e = true) : e ≠ [] := by
  rintro rfl
  simp [isEnc] at h

theorem isEnc_length (h : isEnc e = true) : 1 ≤ e.length ∧ e.length ≤ 4 := by
  match e, h with
  | [], h => simp [isEnc] at h
  | [_], _ => simp
  | [_, _], _ => simp
  | [_, _, _], _ => simp
  | [_, _, _, _], _ => simp
  | _ :: _ :: _ :: _ :: _ :: _, h => simp [isEnc] at h

/-- The first byte of an encoding decides its length, so no encoding starts another. -/
theorem isEnc_append (h : isEnc e = true) {t : List UInt8} (ht : t ≠ []) :
    isEnc (e ++ t) = false := by
  obtain ⟨b, t, rfl⟩ := exists_cons_of_ne_nil ht
  match e, h with
  | [], h => simp [isEnc] at h
  | [a], h =>
    simp only [isEnc, decide_eq_true_eq] at h
    match t with
    | [] => simp [isEnc]; grind
    | [_] => simp [isEnc]; grind
    | [_, _] => simp [isEnc]; grind
    | _ :: _ :: _ :: _ => simp [isEnc]
  | [a, a'], h =>
    simp only [isEnc, Bool.and_eq_true, decide_eq_true_eq] at h
    match t with
    | [] => simp [isEnc]; grind
    | [_] => simp [isEnc]; grind
    | _ :: _ :: _ => simp [isEnc]
  | [a, a', a''], h =>
    match t with
    | [] => simp [isEnc, isTail] at h ⊢; grind
    | _ :: _ => simp [isEnc]
  | [_, _, _, _], _ => simp [isEnc]
  | _ :: _ :: _ :: _ :: _ :: _, h => simp [isEnc] at h

/-- `headLen` finds the encoding at the front, whatever follows it. -/
theorem headLen_append (h : isEnc e = true) (s : List UInt8) : headLen (e ++ s) = e.length := by
  -- a proper front part of `e` is no encoding, since `e` is one
  have hshort : ∀ n, n < e.length → isEnc ((e ++ s).take n) = false := by
    intro n hn
    by_contra hne
    have htake : (e ++ s).take n = e.take n := take_append_of_le_length (by omega)
    rw [htake, Bool.not_eq_false] at hne
    have hrest : e.drop n ≠ [] := by
      intro h0
      have := congrArg List.length h0
      rw [length_drop, length_nil] at this
      omega
    have := isEnc_append hne hrest
    rw [take_append_drop, h] at this
    nomatch this
  have hfull : isEnc ((e ++ s).take e.length) = true := by
    rw [take_left]
    exact h
  obtain ⟨h1, h4⟩ := isEnc_length h
  unfold headLen
  rcases (by omega : e.length = 1 ∨ e.length = 2 ∨ e.length = 3 ∨ e.length = 4) with hl | hl | hl | hl
  · rw [hl] at hfull ⊢
    rw [if_pos hfull]
  · rw [hl] at hfull ⊢
    rw [if_neg (by rw [hshort 1 (by omega)]; simp), if_pos hfull]
  · rw [hl] at hfull ⊢
    rw [if_neg (by rw [hshort 1 (by omega)]; simp), if_neg (by rw [hshort 2 (by omega)]; simp),
      if_pos hfull]
  · rw [hl] at hfull ⊢
    rw [if_neg (by rw [hshort 1 (by omega)]; simp), if_neg (by rw [hshort 2 (by omega)]; simp),
      if_neg (by rw [hshort 3 (by omega)]; simp), if_pos hfull]

/-- What `headLen` finds is an encoding of that length. -/
theorem isEnc_headLen {n : Nat} (h : headLen s = n + 1) : isEnc (s.take (n + 1)) = true := by
  unfold headLen at h
  split at h
  · rename_i h1
    exact h ▸ h1
  · split at h
    · rename_i h2
      exact h ▸ h2
    · split at h
      · rename_i h3
        exact h ▸ h3
      · split at h
        · rename_i h4
          exact h ▸ h4
        · nomatch h

/-! ## Cutting a byte string into runes -/

/-- A piece of a byte string: an encoded code point, or a byte that starts none. -/
inductive Seg where
  | rune (enc : List UInt8)
  | bad (b : UInt8)
  deriving DecidableEq

namespace Seg

/-- The bytes of a piece. -/
def bytes : Seg → List UInt8
  | rune e => e
  | bad b => [b]

/-- The piece is an encoded code point. -/
def Ok : Seg → Prop
  | rune e => isEnc e = true
  | bad _ => False

/-- The piece with an invalid byte replaced by U+FFFD. -/
def coerced : Seg → List UInt8
  | rune e => e
  | bad _ => replacement

end Seg

/-- The pieces of `s` after its first `k` bytes, which belong to a piece already emitted. -/
def segmentsFrom : Nat → List UInt8 → List Seg
  | _, [] => []
  | k + 1, _ :: s => segmentsFrom k s
  | 0, b :: s =>
    match headLen (b :: s) with
    | 0 => .bad b :: segmentsFrom 0 s
    | n + 1 => .rune ((b :: s).take (n + 1)) :: segmentsFrom n s

/-- The pieces of a byte string, from the left. -/
def segments (s : List UInt8) : List Seg := segmentsFrom 0 s

theorem segmentsFrom_eq : ∀ (k : Nat) (s : List UInt8), segmentsFrom k s = segments (s.drop k)
  | 0, s => by rw [drop_zero]; rfl
  | _ + 1, [] => rfl
  | k + 1, _ :: s => by
    rw [drop_succ_cons, ← segmentsFrom_eq k s]
    rfl

@[simp] theorem segments_nil : segments [] = [] := rfl

theorem segments_bad {b : UInt8} (h : headLen (b :: s) = 0) :
    segments (b :: s) = .bad b :: segments s := by
  show segmentsFrom 0 (b :: s) = _
  rw [segmentsFrom, h]
  rfl

/-- An encoding at the front is cut off whole. -/
theorem segments_append (h : isEnc e = true) (s : List UInt8) :
    segments (e ++ s) = .rune e :: segments s := by
  obtain ⟨b, e, rfl⟩ := exists_cons_of_ne_nil (isEnc_ne_nil h)
  have hlen : headLen (b :: e ++ s) = e.length + 1 := headLen_append h s
  show segmentsFrom 0 (b :: (e ++ s)) = _
  rw [segmentsFrom]
  rw [cons_append] at hlen
  rw [hlen]
  show Seg.rune ((b :: (e ++ s)).take (e.length + 1)) :: segmentsFrom e.length (e ++ s) = _
  rw [segmentsFrom_eq, drop_left, take_succ_cons, take_left]

/-- The induction that follows the cutting: a bad byte, or a whole encoding, comes off the front. -/
theorem segments_induct {P : List UInt8 → Prop} (hnil : P [])
    (hbad : ∀ b s, headLen (b :: s) = 0 → P s → P (b :: s))
    (hrune : ∀ e s, isEnc e = true → P s → P (e ++ s)) (s : List UInt8) : P s := by
  have haux : ∀ n s, s.length ≤ n → P s := by
    intro n
    induction n with
    | zero =>
      intro s hs
      rw [length_eq_zero_iff.mp (Nat.le_zero.mp hs)]
      exact hnil
    | succ n ih =>
      intro s hs
      cases s with
      | nil => exact hnil
      | cons b s =>
        cases hh : headLen (b :: s) with
        | zero => exact hbad b s hh (ih s (by rw [length_cons] at hs; omega))
        | succ m =>
          have he := isEnc_headLen hh
          rw [← take_append_drop (m + 1) (b :: s)]
          refine hrune _ _ he (ih _ ?_)
          rw [length_drop]
          rw [length_cons] at hs ⊢
          omega
  exact haux s.length s (Nat.le_refl _)

/-- Nothing is lost: the pieces put together are the string. -/
theorem segments_bytes (s : List UInt8) : (segments s).flatMap Seg.bytes = s := by
  induction s using segments_induct with
  | hnil => rfl
  | hbad b s h ih =>
    rw [segments_bad h, flatMap_cons, ih]
    rfl
  | hrune e s h ih =>
    rw [segments_append h, flatMap_cons, ih]
    rfl

/-- Encoded code points written one after the other are cut where they were joined. -/
theorem segments_flatMap {l : List Seg} (h : ∀ g ∈ l, g.Ok) : segments (l.flatMap Seg.bytes) = l := by
  induction l with
  | nil => rfl
  | cons g l ih =>
    have hg := h g (mem_cons_self ..)
    cases g with
    | bad b => exact hg.elim
    | rune e =>
      rw [flatMap_cons]
      show segments (e ++ l.flatMap Seg.bytes) = _
      rw [segments_append hg, ih fun g hm => h g (mem_cons_of_mem _ hm)]

/-- Every piece that is not a bad byte is an encoding. -/
theorem isEnc_of_mem (h : Seg.rune e ∈ segments s) : isEnc e = true := by
  induction s using segments_induct with
  | hnil => nomatch h
  | hbad b s hb ih =>
    rw [segments_bad hb] at h
    rcases mem_cons.mp h with h | h
    · nomatch h
    · exact ih h
  | hrune e' s he ih =>
    rw [segments_append he] at h
    rcases mem_cons.mp h with h | h
    · cases h
      exact he
    · exact ih h

/-- In an encoding the first byte is no tail, and all others are. -/
theorem isTail_of_isEnc {a : UInt8} (h : isEnc (a :: e) = true) :
    isTail a = false ∧ ∀ b ∈ e, isTail b = true := by
  match e, h with
  | [], h =>
    simp only [isEnc, decide_eq_true_eq] at h
    refine ⟨?_, nofun⟩
    simp only [isTail]
    grind
  | [b], h =>
    simp only [isEnc, isTail, Bool.and_eq_true, decide_eq_true_eq] at h ⊢
    simp only [mem_singleton, forall_eq]
    grind
  | [b, c], h =>
    simp only [isEnc, isTail, Bool.and_eq_true, Bool.or_eq_true, decide_eq_true_eq,
      beq_iff_eq] at h ⊢
    simp only [mem_cons, not_mem_nil, or_false, forall_eq_or_imp, forall_eq]
    grind
  | [b, c, d], h =>
    simp only [isEnc, isTail, Bool.and_eq_true, Bool.or_eq_true, decide_eq_true_eq,
      beq_iff_eq] at h ⊢
    simp only [mem_cons, not_mem_nil, or_false, forall_eq_or_imp, forall_eq]
    grind
  | _ :: _ :: _ :: _ :: _, h => simp [isEnc] at h

/-- The bytes of an encoding of several bytes are beyond ASCII. -/
theorem high_of_isEnc {a b : UInt8} (h : isEnc (a :: b :: e) = true) :
    ∀ c ∈ a :: b :: e, 0x80 ≤ c := by
  refine forall_mem_cons.mpr ⟨?_, fun c hc => ?_⟩
  · match e, h with
    | [], h | [_], h | [_, _], h =>
      simp only [isEnc, isTail, Bool.and_eq_true, Bool.or_eq_true, decide_eq_true_eq,
        beq_iff_eq] at h
      grind
  · have htail := (isTail_of_isEnc h).2 c hc
    unfold isTail at htail
    grind

/-- A string may be cut before any byte that is no tail. -/
theorem segments_split {t : List UInt8} (ht : ∀ c ∈ t.head?, isTail c = false) (s : List UInt8) :
    segments (s ++ t) = segments s ++ segments t := by
  induction s using segments_induct with
  | hnil => rfl
  | hrune e s h ih => rw [append_assoc, segments_append h, segments_append h, ih, cons_append]
  | hbad b s h ih =>
    -- a bad byte stays bad: an encoding at the front would need the byte after the cut as a tail
    have hstill : headLen (b :: (s ++ t)) = 0 := by
      cases hn : headLen (b :: (s ++ t)) with
      | zero => rfl
      | succ n =>
        have he : isEnc (b :: (s ++ t).take n) = true := isEnc_headLen hn
        have hshort : ∀ r, (s ++ t).take n ++ r = s → False := by
          intro r hr
          have hfound := headLen_append he r
          rw [cons_append, hr, h] at hfound
          nomatch hfound
        rw [take_append] at he hshort
        cases hrest : t.take (n - s.length) with
        | nil =>
          rw [hrest, append_nil] at hshort
          exact (hshort (s.drop n) (take_append_drop n s)).elim
        | cons c r =>
          rw [hrest] at he
          have htail : isTail c = true := (isTail_of_isEnc he).2 c (by simp)
          cases t with
          | nil => rw [take_nil] at hrest; nomatch hrest
          | cons c' t =>
            cases hk : n - s.length with
            | zero => rw [hk, take_zero] at hrest; nomatch hrest
            | succ k =>
              rw [hk, take_succ_cons] at hrest
              obtain ⟨rfl, -⟩ := List.cons.inj hrest
              rw [ht c' rfl] at htail
              nomatch htail
    rw [cons_append, segments_bad hstill, segments_bad h, ih, cons_append]

/-! ## Valid UTF-8, and replacing what is not -/

/-- The string is UTF-8: it has no bad byte. -/
def Valid (s : List UInt8) : Prop := ∀ g ∈ segments s, g.Ok

instance : DecidablePred Seg.Ok
  | .rune e => inferInstanceAs (Decidable (isEnc e = true))
  | .bad _ => inferInstanceAs (Decidable False)

instance (s : List UInt8) : Decidable (Valid s) :=
  inferInstanceAs (Decidable (∀ g ∈ segments s, g.Ok))

/-- The string with every bad byte replaced by U+FFFD. -/
def coerce (s : List UInt8) : List UInt8 := (segments s).flatMap Seg.coerced

/-- Replacing makes the string two bytes longer for every bad byte. -/
theorem length_coerce (s : List UInt8) :
    (coerce s).length = s.length + 2 * (segments s).countP fun g => !decide g.Ok := by
  unfold coerce
  induction s using segments_induct with
  | hnil => rfl
  | hbad b s h ih =>
    have hb : (!decide (Seg.bad b).Ok) = true := rfl
    rw [segments_bad h, flatMap_cons, length_append, ih, countP_cons, if_pos hb, length_cons]
    show replacement.length + _ = _
    have h3 : replacement.length = 3 := rfl
    omega
  | hrune e s h ih =>
    have he : ¬ (!decide (Seg.rune e).Ok) = true := by
      rw [decide_eq_true (show (Seg.rune e).Ok from h)]
      simp
    rw [segments_append h, flatMap_cons, length_append, ih, countP_cons, if_neg he, length_append]
    show e.length + _ = _
    omega

/-- **Exactly the strings that are UTF-8 survive.** -/
theorem coerce_eq_self : coerce s = s ↔ Valid s := by
  constructor
  · intro h
    have hlen := length_coerce s
    rw [h] at hlen
    have hcount : (segments s).countP (fun g => !decide g.Ok) = 0 := by omega
    intro g hg
    have := (countP_eq_zero.mp hcount) g hg
    simpa using this
  · intro h
    have hco : ∀ g ∈ segments s, g.coerced = g.bytes := by
      intro g hg
      cases g with
      | rune e => rfl
      | bad b => exact (h _ hg).elim
    unfold coerce
    rw [flatMap_congr hco]
    exact segments_bytes s

/-- The pieces of the replaced string are the replaced pieces. -/
theorem segments_coerce (s : List UInt8) :
    segments (coerce s) = (segments s).map fun g => .rune g.coerced := by
  unfold coerce
  induction s using segments_induct with
  | hnil => rfl
  | hbad b s h ih =>
    rw [segments_bad h, flatMap_cons, map_cons, ← ih]
    exact segments_append isEnc_replacement _
  | hrune e s h ih =>
    rw [segments_append h, flatMap_cons, map_cons, ← ih]
    exact segments_append h _

/-- What comes out is UTF-8. -/
theorem valid_coerce (s : List UInt8) : Valid (coerce s) := by
  intro g hg
  rw [segments_coerce] at hg
  obtain ⟨g', hg', rfl⟩ := mem_map.mp hg
  cases g' with
  | rune e => exact isEnc_of_mem hg'
  | bad b => exact isEnc_replacement

end Utf8

end Lib
