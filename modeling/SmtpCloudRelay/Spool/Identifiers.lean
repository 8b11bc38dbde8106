/-
  RECORD IDENTIFIERS: what is drawn and what is accepted.

  `newUUIDv4` stamps six bits of sixteen random bytes and writes them as hexadecimal digits in FIVE
  GROUPS; `validateCanonicalRecordID` looks at one character after the other.  That the two describe
  the same set is shown through the groups:

  1. **Hexadecimal text** — `hexEncode` is injective, and every text of hexadecimal digits of even
     length is written by it (`hexEncode_injective`, `exists_hexEncode`).
  2. **Groups** — the positions that the check treats alike are the groups (`canonical_iff_grouped`).
  3. **Bits** — stamping forgets exactly the six bits outside `randomMask` (`uuidBits_eq_iff`).
-/
import SmtpCloudRelay.Go.MediaType
import SmtpCloudRelay.Spool.PayloadFs

namespace SmtpCloudRelay.Go

open Lib List

/-! ## Hexadecimal text -/

/-- A hexadecimal digit, in lower case. -/
def isHex (c : UInt8) : Bool := (0x30 ≤ c && c ≤ 0x39) || (0x61 ≤ c && c ≤ 0x66)

/-- The number of a hexadecimal digit. -/
def hexValue (c : UInt8) : Nat := if c ≤ 0x39 then c.toNat - 0x30 else c.toNat - 0x57

theorem hexDigit_spec : ∀ n < 16, isHex (hexDigit n) = true ∧ hexValue (hexDigit n) = n := by
  decide

theorem hexValue_spec (c : UInt8) : isHex c = true → hexValue c < 16 ∧ hexDigit (hexValue c) = c :=
  forall_byte (p := fun c => isHex c = true → hexValue c < 16 ∧ hexDigit (hexValue c) = c)
    (by decide +kernel) c

theorem hexDigit_inj {m n : Nat} (hm : m < 16) (hn : n < 16) (h : hexDigit m = hexDigit n) : m = n := by
  rw [← (hexDigit_spec m hm).2, ← (hexDigit_spec n hn).2, h]

theorem hexDigits_byte (b : UInt8) :
    hexDigits 2 b.toNat = [hexDigit (b.toNat / 16), hexDigit (b.toNat % 16)] := by
  have hlt : b.toNat / 16 < 16 := by have := b.toNat_lt; omega
  show [] ++ [hexDigit (b.toNat / 16 % 16)] ++ [hexDigit (b.toNat % 16)] = _
  rw [Nat.mod_eq_of_lt hlt]
  rfl

theorem hexEncode_cons (b : UInt8) (l : List UInt8) :
    hexEncode (b :: l) = hexDigit (b.toNat / 16) :: hexDigit (b.toNat % 16) :: hexEncode l := by
  show hexDigits 2 b.toNat ++ hexEncode l = _
  rw [hexDigits_byte]
  rfl

theorem hexEncode_length (l : List UInt8) : (hexEncode l).length = 2 * l.length := by
  induction l with
  | nil => rfl
  | cons b l ih =>
    rw [hexEncode_cons]
    simp only [length_cons, ih]
    omega

theorem hexEncode_isHex (l : List UInt8) : ∀ c ∈ hexEncode l, isHex c = true := by
  induction l with
  | nil => exact forall_mem_nil _
  | cons b l ih =>
    have hb := b.toNat_lt
    rw [hexEncode_cons]
    refine forall_mem_cons.mpr ⟨(hexDigit_spec _ (by omega)).1,
      forall_mem_cons.mpr ⟨(hexDigit_spec _ (by omega)).1, ih⟩⟩

/-- **Different bytes have different texts.** -/
theorem hexEncode_injective : ∀ {l l' : List UInt8}, hexEncode l = hexEncode l' → l = l'
  | [], [], _ => rfl
  | [], b :: l', h => by rw [hexEncode_cons] at h; nomatch h
  | b :: l, [], h => by rw [hexEncode_cons] at h; nomatch h
  | b :: l, b' :: l', h => by
    have hb := b.toNat_lt
    have hb' := b'.toNat_lt
    rw [hexEncode_cons, hexEncode_cons] at h
    injection h with hhigh h
    injection h with hlow hrest
    have hhigh := hexDigit_inj (by omega) (by omega) hhigh
    have hlow := hexDigit_inj (by omega) (by omega) hlow
    have heq : b = b' := UInt8.toNat_inj.mp (by omega)
    rw [heq, hexEncode_injective hrest]

/-- **Every text of digits is the text of some bytes.** -/
theorem exists_hexEncode : ∀ (k : Nat) {s : GoString}, s.length = 2 * k → (∀ c ∈ s, isHex c = true) →
    ∃ l : List UInt8, l.length = k ∧ hexEncode l = s
  | 0, s, hlen, _ => ⟨[], rfl, (eq_nil_of_length_eq_zero hlen).symm⟩
  | k + 1, [], hlen, _ => by simp at hlen
  | k + 1, [c], hlen, _ => by simp at hlen; omega
  | k + 1, c :: d :: s, hlen, hhex => by
    simp only [length_cons] at hlen
    obtain ⟨hc, hhex⟩ := forall_mem_cons.mp hhex
    obtain ⟨hd, hhex⟩ := forall_mem_cons.mp hhex
    obtain ⟨hc, hceq⟩ := hexValue_spec c hc
    obtain ⟨hd, hdeq⟩ := hexValue_spec d hd
    obtain ⟨l, hl, hs⟩ := exists_hexEncode k (by omega) hhex
    refine ⟨(hexValue c * 16 + hexValue d).toUInt8 :: l, by rw [length_cons, hl], ?_⟩
    have hnat : ((hexValue c * 16 + hexValue d).toUInt8).toNat = hexValue c * 16 + hexValue d := by
      show (UInt8.ofNat _).toNat = _
      rw [UInt8.toNat_ofNat']
      omega
    have hhigh : (hexValue c * 16 + hexValue d) / 16 = hexValue c := by omega
    have hlow : (hexValue c * 16 + hexValue d) % 16 = hexValue d := by omega
    rw [hexEncode_cons, hnat, hhigh, hlow, hceq, hdeq, hs]

end SmtpCloudRelay.Go

namespace SmtpCloudRelay.Spool

open Go Lib

variable {i : Nat} {id : GoString} {l : List UInt8}

section Groups

open List

/-! ## The five groups -/

/-- The groups of an identifier: hexadecimal digits, with the version and the variant in front of the
    third and the fourth. -/
structure Grouped (a b c d e : GoString) : Prop where
  length : a.length = 8 ∧ b.length = 4 ∧ c.length = 4 ∧ d.length = 4 ∧ e.length = 12
  hex : ∀ x ∈ a ++ b ++ c ++ d ++ e, isHex x = true
  version : c.head? = some 0x34
  variant : ∃ v ∈ [0x38, 0x39, 0x61, 0x62], d.head? = some v

/-- Groups, joined by dashes. -/
def joinGroups (a b c d e : GoString) : GoString :=
  a ++ lit "-" ++ b ++ lit "-" ++ c ++ lit "-" ++ d ++ lit "-" ++ e

/-- A position where the check admits any digit. -/
def Ordinary (i : Nat) : Prop := i ≠ 8 ∧ i ≠ 13 ∧ i ≠ 14 ∧ i ≠ 18 ∧ i ≠ 19 ∧ i ≠ 23

theorem canonicalAt_ordinary (h : Ordinary i) (c : UInt8) : canonicalAt i c = isHex c := by
  obtain ⟨h1, h2, h3, h4, h5, h6⟩ := h
  unfold canonicalAt
  rw [if_neg (by omega), if_neg h3, if_neg h5]
  rfl

theorem canonicalFrom_append (i : Nat) (s t : GoString) :
    canonicalFrom i (s ++ t) = (canonicalFrom i s && canonicalFrom (i + s.length) t) := by
  induction s generalizing i with
  | nil => rfl
  | cons c s ih =>
    have hlen : i + (c :: s).length = i + 1 + s.length := by rw [length_cons]; omega
    show (canonicalAt i c && canonicalFrom (i + 1) (s ++ t)) =
      (canonicalAt i c && canonicalFrom (i + 1) s && canonicalFrom (i + (c :: s).length) t)
    rw [ih, hlen, Bool.and_assoc]

/-- In a stretch of ordinary positions the check asks for digits. -/
theorem canonicalFrom_ordinary {s : GoString} (h : (i + s.length ≤ 8 ∨ 8 < i) ∧
    (i + s.length ≤ 13 ∨ 14 < i) ∧ (i + s.length ≤ 18 ∨ 19 < i) ∧ (i + s.length ≤ 23 ∨ 23 < i)) :
    canonicalFrom i s = true ↔ ∀ c ∈ s, isHex c = true := by
  induction s generalizing i with
  | nil => exact ⟨fun _ => forall_mem_nil _, fun _ => rfl⟩
  | cons c s ih =>
    rw [length_cons] at h
    have hrest := ih (i := i + 1) (by omega)
    have hhere : Ordinary i := by unfold Ordinary; omega
    show (canonicalAt i c && canonicalFrom (i + 1) s) = true ↔ _
    rw [canonicalAt_ordinary hhere, Bool.and_eq_true, hrest, forall_mem_cons]

theorem canonicalFrom_group {k n : Nat} {s : GoString} (h : canonicalFrom i s = true)
    (hlen : s.length = k + (1 + n)) (hdash : i + k = 8 ∨ i + k = 13 ∨ i + k = 18 ∨ i + k = 23) :
    ∃ a t, s = a ++ (lit "-" ++ t) ∧ a.length = k ∧ t.length = n ∧
      canonicalFrom i a = true ∧ canonicalFrom (i + k + 1) t = true := by
  have htake : (s.take k).length = k := by rw [length_take]; omega
  have hdrop : (s.drop k).length = 1 + n := by rw [length_drop]; omega
  rw [← take_append_drop k s, canonicalFrom_append, htake, Bool.and_eq_true] at h
  obtain ⟨hgroup, hrest⟩ := h
  cases hs : s.drop k with
  | nil =>
    rw [hs] at hdrop
    simp only [length_nil] at hdrop
    omega
  | cons c t =>
    rw [hs] at hrest hdrop
    rw [length_cons] at hdrop
    obtain ⟨hc, ht⟩ := Bool.and_eq_true_iff.mp hrest
    unfold canonicalAt at hc
    rw [if_pos hdash] at hc
    obtain rfl := of_decide_eq_true hc
    refine ⟨s.take k, t, ?_, htake, by omega, hgroup, ht⟩
    show s = s.take k ++ 0x2D :: t
    rw [← hs, take_append_drop]

/-- **An identifier is canonical exactly if it consists of the five groups.** -/
theorem canonical_iff_grouped :
    Canonical id ↔ ∃ a b c d e, Grouped a b c d e ∧ joinGroups a b c d e = id := by
  constructor
  · intro h
    obtain ⟨a, t, rfl, ha, ht, hda, hdt⟩ := canonicalFrom_group (k := 8) (n := 27) h.chars h.length (by omega)
    obtain ⟨b, t, rfl, hb, ht, hdb, hdt⟩ := canonicalFrom_group (k := 4) (n := 22) hdt ht (by omega)
    obtain ⟨c, t, rfl, hc, ht, hdc, hdt⟩ := canonicalFrom_group (k := 4) (n := 17) hdt ht (by omega)
    obtain ⟨d, e, rfl, hd, he, hdd, hde⟩ := canonicalFrom_group (k := 4) (n := 12) hdt ht (by omega)
    have hhexA := (canonicalFrom_ordinary (by omega)).mp hda
    have hhexB := (canonicalFrom_ordinary (by omega)).mp hdb
    have hhexE := (canonicalFrom_ordinary (by omega)).mp hde
    -- the third and the fourth group begin with a special position
    obtain ⟨v, c, rfl⟩ := exists_cons_of_length_eq_add_one hc
    obtain ⟨u, d, rfl⟩ := exists_cons_of_length_eq_add_one hd
    obtain ⟨hv, hdc⟩ := Bool.and_eq_true_iff.mp hdc
    obtain ⟨hu, hdd⟩ := Bool.and_eq_true_iff.mp hdd
    rw [length_cons] at hc hd
    have hhexC := (canonicalFrom_ordinary (by omega)).mp hdc
    have hhexD := (canonicalFrom_ordinary (by omega)).mp hdd
    have hv : v = 0x34 := of_decide_eq_true hv
    have hu : u ∈ [0x38, 0x39, 0x61, 0x62] := by
      simp only [canonicalAt] at hu
      simpa [or_assoc] using hu
    have hhexV : isHex v = true := by rw [hv]; decide
    have hhexU : isHex u = true := by
      have hall : ∀ x ∈ [0x38, 0x39, 0x61, 0x62], isHex x = true := bytes_of_all (by decide)
      exact hall u hu
    refine ⟨a, b, v :: c, u :: d, e, ⟨⟨ha, hb, by simpa using hc, by simpa using hd, he⟩, ?_, ?_, u, hu, rfl⟩,
      by unfold joinGroups; simp only [append_assoc]⟩
    · simp only [forall_mem_append, forall_mem_cons]
      exact ⟨⟨⟨⟨hhexA, hhexB⟩, hhexV, hhexC⟩, hhexU, hhexD⟩, hhexE⟩
    · rw [hv]
      rfl
  · rintro ⟨a, b, c, d, e, h, rfl⟩
    obtain ⟨ha, hb, hc, hd, he⟩ := h.length
    have hhex := h.hex
    simp only [forall_mem_append] at hhex
    obtain ⟨⟨⟨⟨hhexA, hhexB⟩, hhexC⟩, hhexD⟩, hhexE⟩ := hhex
    have hgroupC : canonicalFrom 14 c = true := by
      obtain ⟨v, c, rfl⟩ := exists_cons_of_length_eq_add_one hc
      obtain rfl : v = 0x34 := Option.some.inj h.version
      rw [length_cons] at hc
      exact Bool.and_eq_true_iff.mpr ⟨rfl, (canonicalFrom_ordinary (by omega)).mpr
        (forall_mem_cons.mp hhexC).2⟩
    have hgroupD : canonicalFrom 19 d = true := by
      obtain ⟨u, d, rfl⟩ := exists_cons_of_length_eq_add_one hd
      obtain ⟨u', hu', heq⟩ := h.variant
      obtain rfl : u = u' := Option.some.inj heq
      have hall : ∀ x ∈ [0x38, 0x39, 0x61, 0x62], canonicalAt 19 x = true := bytes_of_all (by decide)
      rw [length_cons] at hd
      exact Bool.and_eq_true_iff.mpr ⟨hall u hu',
        (canonicalFrom_ordinary (by omega)).mpr
          (forall_mem_cons.mp hhexD).2⟩
    have hgroupA := (canonicalFrom_ordinary (i := 0) (by omega)).mpr hhexA
    have hgroupB := (canonicalFrom_ordinary (i := 9) (by omega)).mpr hhexB
    have hgroupE := (canonicalFrom_ordinary (i := 24) (by omega)).mpr hhexE
    have hdash : (lit "-").length = 1 := rfl
    have hlen : (joinGroups a b c d e).length = 36 := by
      unfold joinGroups
      simp only [length_append, ha, hb, hc, hd, he, hdash]
    have hchars : canonicalFrom 0 (joinGroups a b c d e) = true := by
      unfold joinGroups
      simp only [canonicalFrom_append, length_append, ha, hb, hc, hd, hdash, Nat.zero_add,
        hgroupA, hgroupB, hgroupC, hgroupD, hgroupE, Bool.true_and, Bool.and_true]
      decide
    refine ⟨trimSpace_visible ?_, hlen, hchars⟩
    have hvisible : ∀ x, isHex x = true → 0x20 < x ∧ x < 0x80 := forall_byte (by decide +kernel)
    have hdash : ∀ x ∈ lit "-", 0x20 < x ∧ x < 0x80 := bytes_of_all (by decide)
    unfold joinGroups
    simp only [forall_mem_append]
    exact ⟨⟨⟨⟨⟨⟨⟨⟨fun x hx => hvisible x (hhexA x hx), hdash⟩, fun x hx => hvisible x (hhexB x hx)⟩,
      hdash⟩, fun x hx => hvisible x (hhexC x hx)⟩, hdash⟩, fun x hx => hvisible x (hhexD x hx)⟩, hdash⟩,
      fun x hx => hvisible x (hhexE x hx)⟩

end Groups

/-! ## The random bits -/

theorem version_lt : 6 < 16 := by decide

theorem variant_lt : 8 < 16 := by decide

/-- The bits of the random bytes that `newUUIDv4` keeps. -/
def randomMask : Vector UInt8 16 :=
  ((Vector.replicate 16 0xFF).set 6 0x0F version_lt).set 8 0x3F variant_lt

/-- The bits that it sets. -/
def fixedBits : Vector UInt8 16 :=
  ((Vector.replicate 16 0).set 6 0x40 version_lt).set 8 0x80 variant_lt

/-- The mask keeps 122 bits. -/
example : (randomMask.toList.map fun m => (List.range 8).countP fun k => m.toNat.testBit k).sum = 122 := by
  decide

theorem uuidBits_get (b : Vector UInt8 16) (i : Nat) (h : i < 16) :
    (uuidBits b)[i] = (b[i] &&& randomMask[i]) ||| fixedBits[i] := by
  have hkept : ∀ x : UInt8, x = (x &&& 0xFF) ||| 0 := forall_byte (by decide +kernel)
  unfold uuidBits randomMask fixedBits
  simp only [Vector.getElem_set, Vector.getElem_replicate]
  by_cases h8 : 8 = i
  · subst h8
    rfl
  · rw [if_neg h8, if_neg h8, if_neg h8]
    by_cases h6 : 6 = i
    · subst h6
      rfl
    · rw [if_neg h6, if_neg h6, if_neg h6]
      exact hkept _

/-- The mask takes the stamped bits away again. -/
theorem mask_stamped (i : Nat) (h : i < 16) (x : UInt8) :
    ((x &&& randomMask[i]) ||| fixedBits[i]) &&& randomMask[i] = x &&& randomMask[i] := by
  have hall : ∀ i (h : i < 16), (List.range 256).all (fun n => decide
      (((n.toUInt8 &&& randomMask[i]) ||| fixedBits[i]) &&& randomMask[i] =
        n.toUInt8 &&& randomMask[i])) = true := by
    decide +kernel
  exact forall_byte (p := fun x => ((x &&& randomMask[i]) ||| fixedBits[i]) &&& randomMask[i] =
    x &&& randomMask[i]) (hall i h) x

/-- **Stamping forgets exactly the bits outside the mask.** -/
theorem uuidBits_eq_iff {b b' : Vector UInt8 16} : uuidBits b = uuidBits b' ↔
    ∀ (i : Nat) (h : i < 16), b[i] &&& randomMask[i] = b'[i] &&& randomMask[i] := by
  constructor
  · intro h i hi
    have hget : (uuidBits b)[i] &&& randomMask[i] = (uuidBits b')[i] &&& randomMask[i] := by rw [h]
    rwa [uuidBits_get, uuidBits_get, mask_stamped, mask_stamped] at hget
  · intro h
    apply Vector.ext
    intro i hi
    rw [uuidBits_get, uuidBits_get, h i hi]

/-! ## Drawing and accepting -/

/-- The text of sixteen bytes. -/
def uuidText (l : List UInt8) : GoString :=
  joinGroups (hexEncode (l.take 4)) (hexEncode ((l.drop 4).take 2)) (hexEncode ((l.drop 6).take 2))
    (hexEncode ((l.drop 8).take 2)) (hexEncode (l.drop 10))

theorem newUUIDv4_text (b : Vector UInt8 16) : newUUIDv4 b = uuidText (uuidBits b).toList := rfl

theorem uuidText_append : ∀ {a b c d e : List UInt8}, a.length = 4 → b.length = 2 → c.length = 2 →
    d.length = 2 → uuidText (a ++ (b ++ (c ++ (d ++ e)))) =
      joinGroups (hexEncode a) (hexEncode b) (hexEncode c) (hexEncode d) (hexEncode e)
  | [_, _, _, _], [_, _], [_, _], [_, _], _, _, _, _, _ => rfl

/-- Bytes are the groups that are taken from them. -/
theorem groups_append (l : List UInt8) :
    l.take 4 ++ ((l.drop 4).take 2 ++ ((l.drop 6).take 2 ++ ((l.drop 8).take 2 ++ l.drop 10))) = l := by
  have hnext : ∀ n k, (l.drop n).take k ++ l.drop (n + k) = l.drop n := by
    intro n k
    rw [← List.drop_drop, List.take_append_drop]
  rw [hnext 8 2, hnext 6 2, hnext 4 2, List.take_append_drop]

/-- Groups of the same lengths are determined by the text. -/
theorem joinGroups_inj {a b c d e a' b' c' d' e' : GoString}
    (h : joinGroups a b c d e = joinGroups a' b' c' d' e') (ha : a.length = a'.length)
    (hb : b.length = b'.length) (hc : c.length = c'.length) (hd : d.length = d'.length) :
    a = a' ∧ b = b' ∧ c = c' ∧ d = d' ∧ e = e' := by
  have hdash : ∀ {s t : GoString}, lit "-" ++ s = lit "-" ++ t → s = t :=
    fun h => List.append_cancel_left h
  unfold joinGroups at h
  simp only [List.append_assoc] at h
  obtain ⟨ha, h1⟩ := List.append_inj h ha
  obtain ⟨hb, h2⟩ := List.append_inj (hdash h1) hb
  obtain ⟨hc, h3⟩ := List.append_inj (hdash h2) hc
  obtain ⟨hd, h4⟩ := List.append_inj (hdash h3) hd
  exact ⟨ha, hb, hc, hd, hdash h4⟩

/-- **The text determines the bytes.** -/
theorem uuidText_injective {l' : List UInt8} (hlen : l.length = l'.length)
    (h : uuidText l = uuidText l') : l = l' := by
  obtain ⟨ha, hb, hc, hd, he⟩ := joinGroups_inj h
    (by simp only [hexEncode_length, List.length_take, hlen])
    (by simp only [hexEncode_length, List.length_take, List.length_drop, hlen])
    (by simp only [hexEncode_length, List.length_take, List.length_drop, hlen])
    (by simp only [hexEncode_length, List.length_take, List.length_drop, hlen])
  rw [← groups_append l, ← groups_append l', hexEncode_injective ha, hexEncode_injective hb,
    hexEncode_injective hc, hexEncode_injective hd, hexEncode_injective he]

/-- Two draws agree on the bits that are kept. -/
def SameRandomBits (b b' : Vector UInt8 16) : Prop :=
  ∀ (i : Nat) (h : i < 16), b[i] &&& randomMask[i] = b'[i] &&& randomMask[i]

/-- **Identifiers collide exactly if the 122 random bits do.** -/
theorem newUUIDv4_eq_iff {b b' : Vector UInt8 16} :
    newUUIDv4 b = newUUIDv4 b' ↔ SameRandomBits b b' := by
  unfold SameRandomBits
  rw [← uuidBits_eq_iff]
  constructor
  · intro h
    rw [newUUIDv4_text, newUUIDv4_text] at h
    have hlist := uuidText_injective (by rw [Vector.length_toList, Vector.length_toList]) h
    exact Vector.toList_inj.mp hlist
  · intro h
    rw [newUUIDv4_text, newUUIDv4_text, h]

theorem hexEncode_head {n k : Nat} (h : n < l.length) :
    (hexEncode ((l.drop n).take (k + 1))).head? = some (hexDigit (l[n].toNat / 16)) := by
  rw [List.drop_eq_getElem_cons h, List.take_succ_cons, hexEncode_cons]
  rfl

/-- A byte with the version in its upper half. -/
theorem version_byte : ∀ x : UInt8, hexDigit ((x &&& 0x0F ||| 0x40).toNat / 16) = 0x34 ∧
    (hexDigit (x.toNat / 16) = 0x34 → x &&& 0x0F ||| 0x40 = x) :=
  forall_byte (by decide +kernel)

/-- A byte with the variant in its upper bits. -/
theorem variant_byte : ∀ x : UInt8,
    hexDigit ((x &&& 0x3F ||| 0x80).toNat / 16) ∈ [0x38, 0x39, 0x61, 0x62] ∧
    (hexDigit (x.toNat / 16) ∈ [0x38, 0x39, 0x61, 0x62] → x &&& 0x3F ||| 0x80 = x) :=
  forall_byte (by decide +kernel)

/-- **What is drawn is canonical.** -/
theorem newUUIDv4_canonical (b : Vector UInt8 16) : Canonical (newUUIDv4 b) := by
  have hlen : (uuidBits b).toList.length = 16 := Vector.length_toList
  refine canonical_iff_grouped.mpr ⟨_, _, _, _, _, ⟨?_, ?_, ?_, ?_⟩, (newUUIDv4_text b).symm⟩
  · simp only [hexEncode_length, List.length_take, List.length_drop, hlen]
    decide
  · simp only [List.forall_mem_append]
    exact ⟨⟨⟨⟨hexEncode_isHex _, hexEncode_isHex _⟩, hexEncode_isHex _⟩, hexEncode_isHex _⟩,
      hexEncode_isHex _⟩
  · rw [hexEncode_head (by omega), Vector.getElem_toList, uuidBits_get]
    exact congrArg some (version_byte b[6]).1
  · rw [hexEncode_head (by omega), Vector.getElem_toList, uuidBits_get]
    exact ⟨_, (variant_byte b[8]).1, rfl⟩

/-- Bytes that carry the stamp are not changed by it. -/
theorem newUUIDv4_stamped {v u : UInt8} (hlen : l.length = 16) (h6 : l[6]? = some v)
    (h8 : l[8]? = some u) (hversion : v &&& 0x0F ||| 0x40 = v)
    (hvariant : u &&& 0x3F ||| 0x80 = u) : newUUIDv4 ⟨l.toArray, hlen⟩ = uuidText l := by
  rw [List.getElem?_eq_getElem (by omega)] at h6 h8
  have h6 : (⟨l.toArray, hlen⟩ : Vector UInt8 16)[6] = v := Option.some.inj h6
  have h8 : (⟨l.toArray, hlen⟩ : Vector UInt8 16)[8] = u := Option.some.inj h8
  have hbits : uuidBits ⟨l.toArray, hlen⟩ = ⟨l.toArray, hlen⟩ := by
    unfold uuidBits
    rw [h6, h8, hversion, hvariant, ← h8, ← h6, Vector.set_getElem_self, Vector.set_getElem_self]
  rw [newUUIDv4_text, hbits]
  rfl

/-- **Whatever is canonical can be drawn**: the bytes of its groups already carry the stamp. -/
theorem exists_newUUIDv4 (h : Canonical id) : ∃ b, newUUIDv4 b = id := by
  obtain ⟨a, b, c, d, e, hgroups, rfl⟩ := canonical_iff_grouped.mp h
  obtain ⟨ha, hb, hc, hd, he⟩ := hgroups.length
  have hhex := hgroups.hex
  simp only [List.forall_mem_append] at hhex
  obtain ⟨⟨⟨⟨hhexA, hhexB⟩, hhexC⟩, hhexD⟩, hhexE⟩ := hhex
  obtain ⟨la, hla, rfl⟩ := exists_hexEncode 4 ha hhexA
  obtain ⟨lb, hlb, rfl⟩ := exists_hexEncode 2 hb hhexB
  obtain ⟨lc, hlc, rfl⟩ := exists_hexEncode 2 hc hhexC
  obtain ⟨ld, hld, rfl⟩ := exists_hexEncode 2 hd hhexD
  obtain ⟨le, hle, rfl⟩ := exists_hexEncode 6 he hhexE
  obtain ⟨v, y, rfl⟩ := List.length_eq_two.mp hlc
  obtain ⟨u, z, rfl⟩ := List.length_eq_two.mp hld
  have hversion : v &&& 0x0F ||| 0x40 = v :=
    (version_byte v).2 (Option.some.inj ((congrArg List.head? (hexEncode_cons v [y])).symm.trans
      hgroups.version))
  have hvariant : u &&& 0x3F ||| 0x80 = u := by
    obtain ⟨x, hx, hhead⟩ := hgroups.variant
    rw [hexEncode_cons] at hhead
    obtain rfl := Option.some.inj hhead
    exact (variant_byte u).2 hx
  have hlen : (la ++ (lb ++ ([v, y] ++ ([u, z] ++ le)))).length = 16 := by
    simp only [List.length_append, hla, hlb, hle, List.length_cons, List.length_nil]
  have h6 : (la ++ (lb ++ ([v, y] ++ ([u, z] ++ le))))[6]? = some v := by
    simp [List.getElem?_append, hla, hlb]
  have h8 : (la ++ (lb ++ ([v, y] ++ ([u, z] ++ le))))[8]? = some u := by
    simp [List.getElem?_append, hla, hlb]
  rw [← uuidText_append hla hlb rfl rfl]
  exact ⟨_, newUUIDv4_stamped hlen h6 h8 hversion hvariant⟩

/-! ## The characters of an identifier -/

theorem Canonical.chars_mem (h : Canonical id) : ∀ c ∈ id, isHex c = true ∨ c = 0x2D := by
  obtain ⟨a, b, c, d, e, hgroups, rfl⟩ := canonical_iff_grouped.mp h
  have hdash : ∀ x ∈ lit "-", isHex x = true ∨ x = 0x2D := bytes_of_all (by decide)
  have hhex := hgroups.hex
  unfold joinGroups
  simp only [List.forall_mem_append] at hhex ⊢
  obtain ⟨⟨⟨⟨hhexA, hhexB⟩, hhexC⟩, hhexD⟩, hhexE⟩ := hhex
  exact ⟨⟨⟨⟨⟨⟨⟨⟨fun x hx => Or.inl (hhexA x hx), hdash⟩, fun x hx => Or.inl (hhexB x hx)⟩, hdash⟩,
    fun x hx => Or.inl (hhexC x hx)⟩, hdash⟩, fun x hx => Or.inl (hhexD x hx)⟩, hdash⟩,
    fun x hx => Or.inl (hhexE x hx)⟩

/-- A file name that is one component of a path, and no temporary name of the spool. -/
structure PlainName (name : GoString) : Prop where
  nonempty : name ≠ []
  noSlash : ∀ c ∈ name, c ≠ 0x2F ∧ c ≠ 0
  noDots : name ≠ lit "." ∧ name ≠ lit ".."
  notStage : ∀ recordID suffix, name ≠ stageName recordID suffix
  notPublish : ∀ recordID suffix, name ≠ publishTempName recordID suffix
  notTemp : ∀ suffix, name ≠ lit ".tmp-" ++ suffix

theorem Canonical.plainName (h : Canonical id) : PlainName id := by
  -- none of the special names begins with a digit
  have hdot : ∀ s, id ≠ 0x2E :: s := by
    rintro s rfl
    exact h.head_ne_dot
  have hslash : ∀ c, isHex c = true ∨ c = 0x2D → c ≠ 0x2F ∧ c ≠ 0 := forall_byte (by decide +kernel)
  refine ⟨?_, fun c hc => hslash c (h.chars_mem c hc), ⟨hdot _, hdot _⟩, fun _ _ => hdot _,
    fun _ _ => hdot _, fun _ => hdot _⟩
  rintro rfl
  exact absurd h.length (by decide)

variable [Unicode]

/-- **Drawn identifiers and accepted identifiers coincide.** -/
theorem drawn_ids_are_accepted_ids :
    (∀ id, validateCanonicalRecordID id = .ok () ↔ ∃ random, newUUIDv4 random = id) ∧
    (∀ b b', newUUIDv4 b = newUUIDv4 b' ↔ SameRandomBits b b') ∧
    (∀ id, validateCanonicalRecordID id = .ok () →
      (∀ c ∈ id, isHex c = true ∨ c = 0x2D) ∧ PlainName id) := by
  refine ⟨fun id => ?_, fun b b' => newUUIDv4_eq_iff, fun id h => ?_⟩
  · rw [validateCanonicalRecordID_ok]
    constructor
    · exact exists_newUUIDv4
    · rintro ⟨random, rfl⟩
      exact newUUIDv4_canonical random
  · have hcanon := validateCanonicalRecordID_ok.mp h
    exact ⟨hcanon.chars_mem, hcanon.plainName⟩

end SmtpCloudRelay.Spool
