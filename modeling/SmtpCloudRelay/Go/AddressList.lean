/-
  ADDRESS LISTS in the Internet Message Format, with its obsolete forms.

  A field value is read as a list of addresses, each a mailbox or a group of mailboxes.  The reading
  is a relation between a text and the addresses in it: a text has no reading, one, or several.  The
  obsolete forms are read as well: empty items between commas, white space and comments around each
  word of an address, routes, dots in phrases, control characters and quoted pairs of any ASCII.

  What is used of the grammar is how a list ENDS.  White space and comments end in a blank or in a
  parenthesis, a named mailbox in `>`, a group in `;` and a list whose last item is empty in a comma.
  So a text that ends in `@` and a domain without such bytes ends in a bare address, of that domain.
-/
import SmtpCloudRelay.Go.Mail

namespace SmtpCloudRelay.Go

open List

/-! ## The last separator -/

theorem cutLast_append {sep : UInt8} {s t : GoString} (h : sep ∉ t) :
    cutLast sep (s ++ sep :: t) = some (s, t) := by
  unfold cutLast
  rw [reverse_append, reverse_cons, append_assoc, singleton_append,
    cutByte_append (by rintro b hb rfl; exact h (mem_reverse.mp hb))]
  simp only [Option.map_some, reverse_reverse]

theorem exists_last {sep : UInt8} {s : GoString} (h : sep ∈ s) :
    ∃ x y, s = x ++ sep :: y ∧ sep ∉ y := by
  obtain ⟨x, y, hs, hx⟩ := eq_append_cons_of_mem (mem_reverse.mpr h)
  refine ⟨y.reverse, x.reverse, ?_, fun hy => hx (mem_reverse.mp hy)⟩
  rw [← reverse_reverse s, hs, reverse_append, reverse_cons, append_assoc]
  rfl

/-! ## The grammar -/

/-- `atext`: a printable ASCII character that is not special. -/
def isAtext (b : UInt8) : Bool :=
  0x21 ≤ b && b ≤ 0x7E && !(lit "()<>[]:;@\\,.\"").contains b

/-- `dot-atom-text`. -/
def isDotAtom (s : GoString) : Bool :=
  s.all (fun b => isAtext b || b = 0x2E) && (splitByte 0x2E s).all (· ≠ [])

/-- What encloses a text of its own. -/
inductive Enclosed where
  | comment | quoted | literal

/-- The bytes that do not stand for themselves in such a text. -/
def Enclosed.special : Enclosed → GoString
  | .comment => lit "()\\"
  | .quoted => lit "\"\\"
  | .literal => lit "[]\\"

/-- What stands in a comment, a quoted string or a domain literal: ASCII without NUL and line ends,
    and any ASCII behind a backslash.  Comments nest. -/
inductive Content (k : Enclosed) : GoString → Prop
  | nil : Content k []
  | text {s b} (h : Content k s) (hb : b < 0x80 ∧ b ∉ [0x00, 0x0A, 0x0D] ∧ b ∉ k.special) :
      Content k (s ++ [b])
  | pair {s b} (h : Content k s) (hb : b < 0x80) : Content k (s ++ [0x5C, b])
  | comment {s c} (hk : k = .comment) (h : Content k s) (hc : Content k c) :
      Content k (s ++ 0x28 :: c ++ [0x29])

/-- `[CFWS]`. -/
inductive CFWS : GoString → Prop
  | nil : CFWS []
  | blank {s b} (h : CFWS s) (hb : isBlank b = true) : CFWS (s ++ [b])
  | comment {s c} (h : CFWS s) (hc : Content .comment c) : CFWS (s ++ 0x28 :: c ++ [0x29])

/-- `atom`, without what may stand around it. -/
def Atom (w : GoString) : Prop := w ≠ [] ∧ w.all isAtext = true

instance (w : GoString) : Decidable (Atom w) := inferInstanceAs (Decidable (_ ∧ _))

/-- `word`, without what may stand around it. -/
def Word (w : GoString) : Prop := Atom w ∨ ∃ c, Content .quoted c ∧ w = 0x22 :: c ++ [0x22]

/-- `obs-local-part` and `obs-domain`: items with dots between them, each perhaps between comments;
    and the same without the comments. -/
inductive Dotted (Item : GoString → Prop) : GoString → GoString → Prop
  | one {c1 w c2} (h1 : CFWS c1) (hw : Item w) (h2 : CFWS c2) : Dotted Item (c1 ++ w ++ c2) w
  | more {s u c1 w c2} (h : Dotted Item s u) (h1 : CFWS c1) (hw : Item w) (h2 : CFWS c2) :
      Dotted Item (s ++ 0x2E :: (c1 ++ w ++ c2)) (u ++ 0x2E :: w)

/-- `domain`, and what it is without comments. -/
inductive Domain : GoString → GoString → Prop
  | atoms {t d} (h : Dotted Atom t d) : Domain t d
  | literal {c1 m c2} (h1 : CFWS c1) (hm : Content .literal m) (h2 : CFWS c2) :
      Domain (c1 ++ 0x5B :: (m ++ [0x5D]) ++ c2) (0x5B :: (m ++ [0x5D]))

/-- `addr-spec`, and the address in it. -/
inductive AddrSpec : GoString → GoString → Prop
  | mk {t l u d} (hl : Dotted Word t l) (hd : Domain u d) :
      AddrSpec (t ++ 0x40 :: u) (l ++ 0x40 :: d)

/-- `phrase`. -/
inductive Phrase : GoString → Prop
  | word {c1 w c2} (h1 : CFWS c1) (hw : Word w) (h2 : CFWS c2) : Phrase (c1 ++ w ++ c2)
  | more {p q} (hp : Phrase p) (hq : Phrase q) : Phrase (p ++ q)
  | dot {p c} (hp : Phrase p) (hc : CFWS c) : Phrase (p ++ 0x2E :: c)

/-- Items with commas between them, of which some may be empty. -/
inductive CommaList (Item : GoString → List GoString → Prop) : GoString → List GoString → Prop
  | one {t as} (h : Item t as ∨ CFWS t ∧ as = []) : CommaList Item t as
  | more {s as t bs} (h : CommaList Item s as) (ht : Item t bs ∨ CFWS t ∧ bs = []) :
      CommaList Item (s ++ 0x2C :: t) (as ++ bs)

/-- `obs-domain-list`. -/
inductive Route : GoString → Prop
  | first {c t d} (hc : CommaList (fun _ _ => False) c []) (hd : Domain t d) :
      Route (c ++ 0x40 :: t)
  | comma {r c} (h : Route r) (hc : CFWS c) : Route (r ++ 0x2C :: c)
  | more {r c t d} (h : Route r) (hc : CFWS c) (hd : Domain t d) :
      Route (r ++ 0x2C :: c ++ 0x40 :: t)

/-- `mailbox`, and its address. -/
inductive Mailbox : GoString → List GoString → Prop
  | spec {t a} (h : AddrSpec t a) : Mailbox t [a]
  | named {p r t a c} (hp : CFWS p ∨ Phrase p) (hr : r = [] ∨ ∃ r', Route r' ∧ r = r' ++ [0x3A])
      (h : AddrSpec t a) (hc : CFWS c) : Mailbox (p ++ 0x3C :: (r ++ t) ++ 0x3E :: c) [a]

/-- `address`, and the addresses of its mailboxes. -/
inductive Address : GoString → List GoString → Prop
  | mailbox {t as} (h : Mailbox t as) : Address t as
  | group {p t as c} (hp : Phrase p) (h : CommaList Mailbox t as) (hc : CFWS c) :
      Address (p ++ 0x3A :: t ++ 0x3B :: c) as

/-- `address-list`, and the addresses of its mailboxes. -/
abbrev AddressList := CommaList Address

/-! ## How a text ends -/

/-- The bytes in which comments, named mailboxes, groups and lists with an empty last item end. -/
def closers : GoString := lit " \t),;>"

/-- The text ends in such a byte. -/
def Closed (s : GoString) : Prop := ∃ t b, s = t ++ [b] ∧ b ∈ closers

/-- A domain with no such byte. -/
structure Bare (d : GoString) : Prop where
  nonempty : d ≠ []
  plain : ∀ b ∈ d, b ≠ 0x40 ∧ b ∉ closers

variable {c s t u y l d : GoString}

/-- **What stands before a text without `@`**: nothing that closes, and the last `@` only if the text
    is the domain. -/
theorem Bare.ends {b : UInt8} (hd : Bare d) (h : s ++ 0x40 :: d = u ++ b :: y) (hy : 0x40 ∉ y) :
    b ∉ closers ∧ (b = 0x40 → s = u ∧ d = y) := by
  rcases append_eq_append_iff.mp h with ⟨w, hu, hw⟩ | ⟨w, hs, hw⟩
  · cases w with
    | nil =>
      cases hw
      exact ⟨by decide, fun _ => ⟨by rw [hu, append_nil], rfl⟩⟩
    | cons a w =>
      obtain ⟨-, rfl⟩ := List.cons.inj hw
      have hb := hd.plain b (by simp)
      exact ⟨hb.2, fun he => absurd he hb.1⟩
  · cases w with
    | nil =>
      cases hw
      exact ⟨by decide, fun _ => ⟨by rw [hs, append_nil], rfl⟩⟩
    | cons a w =>
      obtain ⟨-, rfl⟩ := List.cons.inj hw
      exact absurd (by simp) hy

theorem Bare.no_at (h : Bare d) : 0x40 ∉ d := fun hd => (h.plain _ hd).1 rfl

theorem Bare.not_closed (hd : Bare d) : ¬ Closed (s ++ 0x40 :: d) := by
  rintro ⟨t, b, h, hb⟩
  exact (hd.ends h not_mem_nil).1 hb

theorem Closed.append (h : Closed t) (s : GoString) : Closed (s ++ t) := by
  obtain ⟨t, b, rfl, hb⟩ := h
  exact ⟨s ++ t, b, (append_assoc ..).symm, hb⟩

theorem CFWS.closed (h : CFWS c) : c = [] ∨ Closed c := by
  cases h with
  | nil => exact Or.inl rfl
  | @blank s b h hb =>
    refine Or.inr ⟨s, b, rfl, ?_⟩
    rcases Bool.or_eq_true_iff.mp hb with hb | hb <;> (rw [of_decide_eq_true hb]; decide)
  | comment h hc => exact Or.inr ⟨_, 0x29, rfl, by decide⟩

theorem closed_cons {b : UInt8} (hb : b ∈ closers) (hc : CFWS c) : Closed (b :: c) := by
  rcases hc.closed with rfl | hc
  · exact ⟨[], b, rfl, hb⟩
  · exact hc.append [b]

/-- Behind each `@` of the text stands a closer. -/
def Guarded (t : GoString) : Prop := ∀ x y, t = x ++ 0x40 :: y → ∃ b ∈ y, b ∈ closers

theorem guarded_of_not_mem (h : 0x40 ∉ t) : Guarded t := by
  rintro x y rfl
  exact absurd (by simp) h

theorem Guarded.append (hs : Guarded s) (ht : Guarded t) : Guarded (s ++ t) := by
  intro x y h
  rcases append_eq_append_iff.mp h with ⟨w, -, hw⟩ | ⟨w, hw, hy⟩
  · exact ht w y hw
  · cases w with
    | nil => exact ht [] y hy.symm
    | cons b w =>
      obtain ⟨rfl, rfl⟩ := List.cons.inj hy
      obtain ⟨b, hb, hc⟩ := hs x w hw
      exact ⟨b, mem_append_left _ hb, hc⟩

theorem CFWS.guarded (h : CFWS c) : Guarded c := by
  rcases h.closed with rfl | ⟨t, b, rfl, hb⟩
  · exact guarded_of_not_mem not_mem_nil
  · intro x y h
    cases y using List.reverseRecOn with
    | nil =>
      obtain ⟨-, hb'⟩ := append_inj' h rfl
      cases hb'
      exact absurd hb (by decide)
    | append_singleton y b' =>
      rw [← cons_append, ← append_assoc] at h
      obtain ⟨-, hb'⟩ := append_inj' h rfl
      cases hb'
      exact ⟨b, by simp, hb⟩

/-- White space and comments are nothing in a text without closers. -/
theorem CFWS.plain (h : CFWS c) (hno : ∀ b ∈ c, b ∉ closers) : c = [] := by
  refine h.closed.resolve_right ?_
  rintro ⟨t, b, rfl, hb⟩
  exact hno b (by simp) hb

theorem Atom.guarded (h : Atom t) : Guarded t :=
  guarded_of_not_mem fun hat => absurd (all_eq_true.mp h.2 _ hat) (by decide)

theorem Dotted.guarded {v : GoString} (h : Dotted Atom t v) : Guarded t := by
  induction h with
  | one h1 hw h2 => exact (h1.guarded.append hw.guarded).append h2.guarded
  | more h h1 hw h2 ih =>
    rw [append_cons]
    exact (ih.append (guarded_of_not_mem (by decide))).append
      ((h1.guarded.append hw.guarded).append h2.guarded)

theorem Dotted.plain {Item : GoString → Prop} {v : GoString} (h : Dotted Item t v)
    (hno : ∀ b ∈ t, b ∉ closers) : v = t := by
  induction h with
  | one h1 hw h2 =>
    rw [h1.plain fun b hb => hno b (by simp [hb]), h2.plain fun b hb => hno b (by simp [hb])]
    simp
  | more h h1 hw h2 ih =>
    rw [h1.plain fun b hb => hno b (by simp [hb]), h2.plain fun b hb => hno b (by simp [hb]),
      ih fun b hb => hno b (by simp [hb])]
    simp

/-- What a domain means whose text ends in `d`. -/
theorem Domain.ends {v : GoString} (h : Domain t v) (hd : Bare d) :
    (t = d → v = d) ∧ ∀ x, t = x ++ 0x40 :: d → ∃ y, v = y ++ 0x40 :: d := by
  have hno : ∀ b ∈ d, b ∉ closers := fun b hb => (hd.plain b hb).2
  cases h with
  | atoms h =>
    constructor
    · rintro rfl
      exact h.plain hno
    · intro x hx
      obtain ⟨b, hb, hc⟩ := h.guarded x d hx
      exact absurd hc (hno b hb)
  | @literal c1 m c2 h1 hm h2 =>
    constructor
    · rintro rfl
      rw [h1.plain fun b hb => hno b (by simp [hb]), h2.plain fun b hb => hno b (by simp [hb])]
      simp
    · intro x hx
      obtain rfl : c2 = [] := h2.closed.resolve_right fun hc => hd.not_closed (hx ▸ hc.append _)
      rw [append_nil] at hx
      rcases append_eq_append_iff.mp hx with ⟨w, -, hw⟩ | ⟨w, hw, hy⟩
      · exact ⟨w, hw⟩
      · cases w with
        | nil => exact ⟨[], hy.symm⟩
        | cons b w =>
          obtain ⟨rfl, rfl⟩ := List.cons.inj hy
          obtain ⟨b, hb, hc⟩ := h1.guarded x w hw
          exact absurd hc (hno b (mem_append_left _ hb))

/-- **The domain of a bare address**: what its text ends in. -/
theorem AddrSpec.domain {a : GoString} (h : AddrSpec (s ++ 0x40 :: d) a) (hd : Bare d) :
    ∃ x, cutLast 0x40 a = some (x, d) := by
  generalize ht : s ++ 0x40 :: d = t at h
  obtain @⟨t, l, u, e, hl, hdomain⟩ := h
  by_cases hat : 0x40 ∈ u
  · -- the last one is in a literal
    obtain ⟨x, y, rfl, hy⟩ := exists_last hat
    rw [← cons_append, ← append_assoc] at ht
    obtain ⟨-, rfl⟩ := (hd.ends ht hy).2 rfl
    obtain ⟨z, rfl⟩ := (hdomain.ends hd).2 x rfl
    exact ⟨l ++ 0x40 :: z, by rw [← cons_append, ← append_assoc, cutLast_append hy]⟩
  · obtain ⟨-, rfl⟩ := (hd.ends ht hat).2 rfl
    rw [(hdomain.ends hd).1 rfl]
    exact ⟨l, cutLast_append hat⟩

theorem Address.bare {as : List GoString} (h : Address t as) (hopen : ¬ Closed t) :
    ∃ a, AddrSpec t a ∧ as = [a] := by
  cases h with
  | mailbox h =>
    cases h with
    | spec h => exact ⟨_, h, rfl⟩
    | named hp hr h hc => exact absurd ((closed_cons (by decide) hc).append _) hopen
  | group hp h hc => exact absurd ((closed_cons (by decide) hc).append _) hopen

/-- A comma cuts the text before the last `@` into a list with a mailbox and a bare address. -/
def Splits (l d : GoString) : Prop :=
  ∃ s t as a, l = s ++ 0x2C :: t ∧ AddressList s as ∧ as ≠ [] ∧ AddrSpec (t ++ 0x40 :: d) a

/-- **The readings of a text that ends in a bare domain**: unless a comma splits it, there is one
    mailbox, in that domain. -/
theorem AddressList.single {as : List GoString} (h : AddressList (l ++ 0x40 :: d) as) (hd : Bare d)
    (hsplit : ¬ Splits l d) : ∃ a x, as = [a] ∧ cutLast 0x40 a = some (x, d) := by
  have hopen : ¬ Closed (l ++ 0x40 :: d) := hd.not_closed
  generalize hv : l ++ 0x40 :: d = v at h hopen
  cases h with
  | one h =>
    rcases h with h | ⟨hc, -⟩
    · obtain ⟨a, ha, rfl⟩ := h.bare hopen
      rw [← hv] at ha
      obtain ⟨x, hx⟩ := ha.domain hd
      exact ⟨a, x, rfl, hx⟩
    · have hnil := hc.closed.resolve_right hopen
      simp [hnil] at hv
  | @more s as t bs hs ht =>
    have hopen' : ¬ Closed (0x2C :: t) := fun hc => hopen (hc.append s)
    rcases ht with ht | ⟨hc, -⟩
    · obtain ⟨a, ha, rfl⟩ := ht.bare fun hc => hopen' (hc.append [0x2C])
      -- the last `@` is in the last address
      have hmem : 0x40 ∈ t := by
        cases ha
        simp
      obtain ⟨x, y, rfl, hy⟩ := exists_last hmem
      rw [← cons_append, ← append_assoc] at hv
      obtain ⟨rfl, rfl⟩ := (hd.ends hv hy).2 rfl
      by_cases has : as = []
      · obtain ⟨z, hz⟩ := ha.domain hd
        exact ⟨a, z, by rw [has]; rfl, hz⟩
      · exact absurd ⟨s, x, as, a, rfl, hs, has, ha⟩ hsplit
    · exact absurd (closed_cons (by decide) hc) hopen'

end SmtpCloudRelay.Go
