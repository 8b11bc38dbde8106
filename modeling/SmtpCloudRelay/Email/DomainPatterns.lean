/-
  DOMAIN PATTERNS: what `NewSenderPolicy` compiles, and which domains it then accepts.

  A pattern is compiled into a matcher once (trimmed, put in lower case, checked label by label) and a
  domain is compared with it for every message.  The two sides normalize DIFFERENTLY:

  * a compiled domain consists of `a-z`, `0-9`, `-` and dots; the checks let nothing else through;
  * the domain of a message is any text, in lower case;
  * `exactDomainMatcher` compares them with `strings.EqualFold`, which knows more than ASCII: the LONG S
    (U+017F) folds with `s` and is a lower-case letter, so it stays in a domain and matches an `s`.

  The Kelvin sign (U+212A) folds with `k` as well, but it is an upper-case letter and does not survive
  `strings.ToLower`.  So the long s is the only look-alike (`equalFoldRunes_iff`), and
  `patterns_mean_what_they_say_iff` says exactly which domains slip through.
-/
import SmtpCloudRelay.Email.SenderPolicy
import SmtpCloudRelay.Go.MediaType
import SmtpCloudRelay.Lib.Checks

namespace SmtpCloudRelay

open Go Lib List Utf8

/-! ## Comparing by simple folding -/

/-- U+017F, the long s. -/
def longS : List UInt8 := [0xC5, 0xBF]

/-- U+212A, the Kelvin sign. -/
def kelvinSign : List UInt8 := [0xE2, 0x84, 0xAA]

section Folding

variable (sameFold : List UInt8 → List UInt8 → Bool)

/-- A character beyond ASCII folds with an ASCII one: there are two of them. -/
def foldsWith (e : List UInt8) (b : UInt8) : Bool :=
  (e = longS && lowerByte b = 0x73) || (e = kelvinSign && lowerByte b = 0x6B)

/-- Two characters fold with each other; `sameFold` decides for two beyond ASCII. -/
def foldRunes : List UInt8 → List UInt8 → Bool
  | [a], [b] => lowerByte a = lowerByte b
  | [a], e => foldsWith e a
  | e, [b] => foldsWith e b
  | e, e' => sameFold e e'

/-- Character by character. -/
def foldAll : List Seg → List Seg → Bool
  | [], [] => true
  | g :: l, g' :: l' => foldRunes sameFold g.coerced g'.coerced && foldAll l l'
  | _, _ => false

/-- `strings.EqualFold`. -/
def equalFoldRunes (s t : GoString) : Bool := foldAll sameFold (segments s) (segments t)

/-- **The two comparisons agree** where no character beyond ASCII folds with the second text. -/
theorem equalFoldRunes_eq (s : GoString) {t : GoString}
    (ht : ∀ c ∈ t, c < 0x80 ∧ lowerByte c ≠ 0x73 ∧ lowerByte c ≠ 0x6B) :
    equalFoldRunes sameFold s t = equalFold s t := by
  have hcut := segments_ascii (fun b hb => (ht b hb).1) []
  rw [append_nil, segments_nil, append_nil] at hcut
  unfold equalFoldRunes
  rw [hcut]
  clear hcut
  have hhigh : ∀ {b c : UInt8} {s t : GoString}, 0x80 ≤ b → c < 0x80 →
      equalFold (b :: s) (c :: t) = false := by
    intro b c s t hb hc
    refine decide_eq_false fun h => ?_
    have heq := (List.cons.inj h).1
    unfold lowerByte at heq
    grind
  induction s using segments_induct generalizing t with
  | hnil => cases t <;> rfl
  | hbad b s hb ih =>
    rw [segments_bad hb]
    cases t with
    | nil => rfl
    | cons c t =>
      obtain ⟨hc, -⟩ := forall_mem_cons.mp ht
      have hfolds : foldsWith replacement c = false := by
        simp [foldsWith, hc.2]
      have hb : 0x80 ≤ b := by
        refine UInt8.not_lt.mp fun hlt => ?_
        have hlen := headLen_append (e := [b]) (decide_eq_true hlt) s
        nomatch hb.symm.trans hlen
      rw [hhigh hb hc.1]
      exact Bool.and_eq_false_iff.mpr (.inl hfolds)
  | hrune e s he ih =>
    rw [segments_append he]
    cases t with
    | nil =>
      obtain ⟨b, e, rfl⟩ := exists_cons_of_ne_nil (isEnc_ne_nil he)
      rfl
    | cons c t =>
      obtain ⟨hc, ht⟩ := forall_mem_cons.mp ht
      match e, he with
      | [b], he =>
        have hih := ih ht
        show (decide (lowerByte b = lowerByte c) && _) = decide (_ :: _ = _ :: _)
        rw [hih]
        simp [equalFold]
      | a :: b :: e, he =>
        have hfolds : foldsWith (a :: b :: e) c = false := by
          simp [foldsWith, hc.2]
        rw [cons_append, hhigh (high_of_isEnc he a (mem_cons_self ..)) hc.1]
        exact Bool.and_eq_false_iff.mpr (.inl hfolds)

end Folding

/-! ## Compiling a pattern -/

/-- `senderDomainMatcher`. -/
inductive SenderDomainMatcher where
  | exact (domain : GoString)
  | regex (accepts : GoString → Bool)
  | glob (suffix : GoString)

/-- A byte of a domain label. -/
def isLabelByte (b : UInt8) : Bool :=
  (0x61 ≤ b && b ≤ 0x7A) || (0x30 ≤ b && b ≤ 0x39) || b = 0x2D

/-- A character of a domain label. -/
def isLabelRune : Seg → Bool
  | .rune [b] => isLabelByte b
  | _ => false

section Compile

variable [Unicode] (sameFold : List UInt8 → List UInt8 → Bool)
  (compileRegexp : GoString → Except GoError (GoString → Bool))

/-- `strconv.QuoteRune`, the verb `%q` of a character. -/
def quoteRune (g : Seg) : GoString :=
  lit "'" ++ (if g.coerced = lit "'" then lit "\\'" else if g.coerced = lit "\"" then lit "\""
    else quoteSeg (.rune g.coerced)) ++ lit "'"

/-- `validateDomainLabel`. -/
def validateDomainLabel (label : GoString) : Except GoError Unit := do
  failIf (label = []) (.errorf "domain label cannot be empty")
  failIf (label.head? = some 0x2D ∨ label.getLast? = some 0x2D)
    (.new (lit "domain label " ++ quote label ++ lit " cannot start or end with '-'"))
  match (segments label).find? fun g => !isLabelRune g with
  | none => return ()
  | some g => .error (.new (lit "domain label " ++ quote label ++ lit " contains unsupported character " ++
      quoteRune g))

/-- `normalizeExactDomain`. -/
def normalizeExactDomain (domain : GoString) : Except GoError GoString := do
  let domain := toLower (trimSpace domain)
  failIf (domain = []) (.errorf "domain cannot be empty")
  failIf (0x2A ∈ domain) (.errorf "exact domain cannot contain wildcard")
  failIf (0x3A ∈ domain) (.errorf "exact domain cannot contain matcher prefix syntax")
  failIf ((splitByte 0x2E domain).length < 2) (.errorf "domain must contain at least one dot")
  (splitByte 0x2E domain).forM validateDomainLabel
  return domain

/-- `compileSingleLabelGlob`. -/
def compileSingleLabelGlob (pattern : GoString) : Except GoError GoString := do
  let pattern := toLower (trimSpace pattern)
  failIf (pattern = []) (.errorf "glob pattern cannot be empty")
  failIf (¬ lit "*." <+: pattern) (.errorf "glob pattern must start with *.")
  failIf (pattern.count 0x2A ≠ 1) (.errorf "glob pattern may contain only one wildcard")
  let suffix := pattern.drop 2
  failIf (suffix = []) (.errorf "glob pattern suffix cannot be empty")
  let _ ← normalizeExactDomain suffix
  return suffix

/-- `compileSenderDomainMatcher`; a blank pattern has no matcher. -/
def compileSenderDomainMatcher (raw : GoString) : Except GoError (Option SenderDomainMatcher) :=
  let raw := trimSpace raw
  if raw = [] then .ok none
  else if lit "re:" <+: toLower raw then do
    let expr := trimSpace (raw.drop 3)
    failIf (expr = []) (.errorf "sender allowed domain regex cannot be empty")
    let accepts ← (compileRegexp (lit "(?i)^(?:" ++ expr ++ lit ")$")).mapError
      (.wrap (lit "compile sender allowed domain regex " ++ quote raw ++ lit ": "))
    return some (.regex accepts)
  else if lit "glob:" <+: toLower raw then do
    let suffix ← (compileSingleLabelGlob (trimSpace (raw.drop 5))).mapError
      (.wrap (lit "compile sender allowed domain glob " ++ quote raw ++ lit ": "))
    return some (.glob suffix)
  else do
    let domain ← (normalizeExactDomain raw).mapError
      (.wrap (lit "compile sender allowed exact domain " ++ quote raw ++ lit ": "))
    return some (.exact domain)

/-- `singleLabelGlobMatcher.Match`. -/
def matchGlob (suffix domain : GoString) : Bool :=
  let domain := toLower (trimSpace domain)
  if domain = [] || equalFoldRunes sameFold domain suffix then false
  else if (splitByte 0x2E domain).length ≠ (splitByte 0x2E suffix).length + 1 then false
  else (lit ".").intercalate (splitByte 0x2E domain).tail = suffix

/-- `senderDomainMatcher.Match`. -/
def SenderDomainMatcher.accepts : SenderDomainMatcher → GoString → Bool
  | .exact domain, d => equalFoldRunes sameFold d domain
  | .regex accepts, d => accepts d
  | .glob suffix, d => matchGlob sameFold suffix d

/-- The matchers of all patterns, in order. -/
def compileAll : List GoString → Except GoError (List SenderDomainMatcher)
  | [] => .ok []
  | pattern :: patterns => do
    let matcher ← compileSenderDomainMatcher compileRegexp pattern
    let matchers ← compileAll patterns
    return matcher.toList ++ matchers

/-- `NewSenderPolicy`. -/
def newSenderPolicy (mode : GoString) (patterns : List GoString) : Except GoError SenderPolicy :=
  let compiled (m : SenderPolicyMode) : Except GoError SenderPolicy := do
    let matchers ← compileAll compileRegexp patterns
    return ⟨m, matchers.map (SenderDomainMatcher.accepts sameFold)⟩
  if toLower (trimSpace mode) = lit "rewrite" then compiled .rewrite
  else if toLower (trimSpace mode) = lit "strict" then compiled .strict
  else .error (.new (lit "unsupported sender policy mode " ++ quote mode))

end Compile

/-! ## What the patterns say -/

section Meaning

variable [Unicode]

/-- A pattern with the prefix `re:`. -/
def IsRegex (p : GoString) : Prop := lit "re:" <+: toLower (trimSpace p)

/-- A bare domain. -/
def IsBare (p : GoString) : Prop :=
  trimSpace p ≠ [] ∧ ¬ IsRegex p ∧ ¬ lit "glob:" <+: toLower (trimSpace p)

/-- A pattern `glob:*.s`. -/
def IsGlob (p s : GoString) : Prop :=
  ¬ IsRegex p ∧ lit "glob:" <+: toLower (trimSpace p) ∧
    toLower (trimSpace ((trimSpace p).drop 5)) = lit "*." ++ s

theorem IsGlob.not_blank {p s : GoString} (h : IsGlob p s) : trimSpace p ≠ [] := by
  intro hblank
  have hstart := h.2.1
  rw [hblank] at hstart
  have hstart : lit "glob:" <+: [] := hstart
  exact absurd hstart (by decide)

/-- The domain is one label in front of the suffix of a glob pattern. -/
def GlobAllows (patterns : List GoString) (d : GoString) : Prop :=
  ∃ p ∈ patterns, ∃ s label, IsGlob p s ∧ 0x2E ∉ label ∧ d = label ++ lit "." ++ s

/-- **What the patterns say**: there is none, or the domain is one of them, or below one of them. -/
def DomainAllowed (patterns : List GoString) (d : GoString) : Prop :=
  (∀ p ∈ patterns, trimSpace p = []) ∨ (∃ p ∈ patterns, IsBare p ∧ toLower (trimSpace p) = d) ∨
    GlobAllows patterns d

end Meaning

/-- A character of a domain, with an `s` for the long s. -/
def plainSeg (g : Seg) : List UInt8 := if g = .rune longS then [0x73] else g.bytes

/-- A domain with an `s` for every long s. -/
def plainS (d : GoString) : GoString := (segments d).flatMap plainSeg

/-! ## Labels -/

theorem splitByte_ne_nil (sep : UInt8) (s : GoString) : splitByte sep s ≠ [] := by
  induction s with
  | nil => exact cons_ne_nil _ _
  | cons b s ih =>
    unfold splitByte
    split
    · exact cons_ne_nil _ _
    · split <;> exact cons_ne_nil _ _

/-- A byte that is no separator belongs to the first label. -/
theorem splitByte_cons_ne {sep b : UInt8} (h : b ≠ sep) (s : GoString) :
    ∃ part parts, splitByte sep s = part :: parts ∧ splitByte sep (b :: s) = (b :: part) :: parts := by
  obtain ⟨part, parts, hs⟩ := exists_cons_of_ne_nil (splitByte_ne_nil sep s)
  refine ⟨part, parts, hs, ?_⟩
  rw [splitByte, if_neg h, hs]

theorem splitByte_cons_self (sep : UInt8) (s : GoString) : splitByte sep (sep :: s) = [] :: splitByte sep s :=
  if_pos rfl

/-- The text is its labels, with separators between them. -/
theorem intercalate_splitByte (sep : UInt8) (s : GoString) : [sep].intercalate (splitByte sep s) = s := by
  induction s with
  | nil => rfl
  | cons b s ih =>
    by_cases hb : b = sep
    · subst hb
      obtain ⟨part, parts, hs⟩ := exists_cons_of_ne_nil (splitByte_ne_nil b s)
      rw [splitByte_cons_self, hs, intercalate_cons_cons, ← hs, ih]
      rfl
    · obtain ⟨part, parts, hs, hbs⟩ := splitByte_cons_ne hb s
      rw [hs] at ih
      rw [hbs]
      cases parts with
      | nil =>
        rw [intercalate_singleton] at ih ⊢
        rw [ih]
      | cons q parts =>
        rw [intercalate_cons_cons] at ih ⊢
        rw [← ih]
        rfl

theorem mem_intercalate {sep : GoString} {parts : List GoString} {b : UInt8}
    (h : b ∈ sep.intercalate parts) : (∃ part ∈ parts, b ∈ part) ∨ b ∈ sep := by
  induction parts with
  | nil => nomatch h
  | cons part parts ih =>
    cases parts with
    | nil =>
      rw [intercalate_singleton] at h
      exact Or.inl ⟨part, mem_singleton.mpr rfl, h⟩
    | cons next parts =>
      rw [intercalate_cons_cons, append_assoc] at h
      rcases mem_append.mp h with h | h
      · exact Or.inl ⟨part, mem_cons_self .., h⟩
      · rcases mem_append.mp h with h | h
        · exact Or.inr h
        · rcases ih h with ⟨q, hq, hb⟩ | hb
          · exact Or.inl ⟨q, mem_cons_of_mem _ hq, hb⟩
          · exact Or.inr hb

/-- No label holds a separator. -/
theorem not_mem_of_splitByte {sep : UInt8} {s : GoString} : ∀ part ∈ splitByte sep s, sep ∉ part := by
  induction s with
  | nil => exact forall_mem_singleton.mpr not_mem_nil
  | cons b s ih =>
    by_cases hb : b = sep
    · subst hb
      rw [splitByte_cons_self]
      exact forall_mem_cons.mpr ⟨not_mem_nil, ih⟩
    · obtain ⟨part, parts, hs, hbs⟩ := splitByte_cons_ne hb s
      rw [hs] at ih
      obtain ⟨hpart, hparts⟩ := forall_mem_cons.mp ih
      rw [hbs]
      refine forall_mem_cons.mpr ⟨?_, hparts⟩
      rw [mem_cons, not_or]
      exact ⟨fun h => hb h.symm, hpart⟩

theorem splitByte_append {sep : UInt8} {label : GoString} (h : sep ∉ label) (s : GoString) :
    splitByte sep (label ++ sep :: s) = label :: splitByte sep s := by
  induction label with
  | nil => exact splitByte_cons_self sep s
  | cons b label ih =>
    rw [mem_cons, not_or] at h
    obtain ⟨part, parts, hs, hbs⟩ := splitByte_cons_ne (Ne.symm h.1) (label ++ sep :: s)
    rw [ih h.2] at hs
    cases hs
    exact hbs

theorem splitByte_length (sep : UInt8) (s : GoString) : (splitByte sep s).length = s.count sep + 1 := by
  induction s with
  | nil => rfl
  | cons b s ih =>
    by_cases hb : b = sep
    · subst hb
      rw [splitByte_cons_self, length_cons, ih, count_cons_self]
    · obtain ⟨part, parts, hs, hbs⟩ := splitByte_cons_ne hb s
      rw [hs] at ih
      rw [hbs, length_cons, count_cons_of_ne hb, ← ih, length_cons]

/-! ## Folding keeps the dots -/

section Dots

variable {sameFold : List UInt8 → List UInt8 → Bool}

theorem count_dot_segments (s : GoString) :
    s.count 0x2E = (segments s).countP fun g => g.coerced = [0x2E] := by
  induction s using segments_induct with
  | hnil => rfl
  | hbad b s h ih =>
    have hb : b ≠ 0x2E := by
      rintro rfl
      have hlen : headLen ([0x2E] ++ s) = 1 := headLen_append (by decide) s
      exact absurd (h.symm.trans hlen) (by decide)
    rw [count_cons_of_ne hb, segments_bad h, ih]
    rfl
  | hrune e s h ih =>
    rw [count_append, segments_append h, countP_cons, ih, Nat.add_comm]
    congr 1
    match e, h with
    | [b], _ => simp [Seg.coerced, count_singleton]
    | a :: b :: e, h =>
      have hnone : (0x2E : UInt8) ∉ a :: b :: e := fun hmem =>
        absurd (high_of_isEnc h _ hmem) (by decide)
      rw [count_eq_zero.mpr hnone]
      simp [Seg.coerced]

theorem foldRunes_dot {e e' : List UInt8} (h : foldRunes sameFold e e' = true) :
    e = [0x2E] ↔ e' = [0x2E] := by
  have hdot : ∀ b, lowerByte b = 0x2E → b = 0x2E := forall_byte (by decide +kernel)
  -- what folds with a character beyond ASCII is a letter
  have hletter : ∀ e b, foldsWith e b = true → b ≠ 0x2E := by
    rintro e b hfold rfl
    simp [foldsWith, show lowerByte 0x2E = 0x2E from rfl] at hfold
  unfold foldRunes at h
  split at h
  · next a b =>
    have h := of_decide_eq_true h
    constructor
    · intro ha
      cases ha
      rw [hdot b h.symm]
    · intro hb
      cases hb
      rw [hdot a h]
  · next a e' hne =>
    constructor
    · intro ha
      cases ha
      exact absurd rfl (hletter _ _ h)
    · intro he
      exact absurd he (hne _)
  · next e b hne =>
    constructor
    · intro he
      exact absurd he (hne _)
    · intro hb
      cases hb
      exact absurd rfl (hletter _ _ h)
  · rename_i hne hne' _
    exact ⟨fun he => (hne _ he).elim, fun he => (hne' _ he).elim⟩

theorem foldAll_dots {l l' : List Seg} (h : foldAll sameFold l l' = true) :
    (l.countP fun g => g.coerced = [0x2E]) = l'.countP fun g => g.coerced = [0x2E] := by
  induction l generalizing l' with
  | nil =>
    cases l' with
    | nil => rfl
    | cons g' l' => nomatch h
  | cons g l ih =>
    cases l' with
    | nil => nomatch h
    | cons g' l' =>
      obtain ⟨hg, hl⟩ := Bool.and_eq_true_iff.mp h
      rw [countP_cons, countP_cons, ih hl]
      simp only [foldRunes_dot hg]

/-- **Strings that fold with each other have as many labels.** -/
theorem splitByte_length_of_fold {s t : GoString} (h : equalFoldRunes sameFold s t = true) :
    (splitByte 0x2E s).length = (splitByte 0x2E t).length := by
  rw [splitByte_length, splitByte_length, count_dot_segments, count_dot_segments, foldAll_dots h]

end Dots

/-! ## Domains in lower case -/

/-- What Unicode says of lower case beyond ASCII: a character becomes a character, and the Kelvin sign
    becomes a `k`. -/
class Unicode.LowerLaws [Unicode] : Prop where
  lower_enc : ∀ e, isEnc e = true → 2 ≤ e.length → isEnc (Unicode.lower e) = true
  lower_kelvin : Unicode.lower kelvinSign = [0x6B]

section Lower

variable [Unicode] [Unicode.LowerLaws] {sameFold : List UInt8 → List UInt8 → Bool}

/-- A character that lower case leaves alone. -/
structure IsLowered (g : Seg) : Prop where
  ok : g.Ok
  byte : ∀ b, g = .rune [b] → lowerByte b = b
  not_kelvin : g ≠ .rune kelvinSign

theorem isEnc_lowerSeg {s : GoString} {g : Seg} (hg : g ∈ segments s) :
    isEnc (lowerSeg g) = true := by
  match g, hg with
  | .bad b, _ => exact isEnc_replacement
  | .rune [], hg => exact absurd rfl (isEnc_ne_nil (isEnc_of_mem hg))
  | .rune [b], hg =>
    have hascii : ∀ b : UInt8, b < 0x80 → lowerByte b < 0x80 := forall_byte (by decide +kernel)
    have hb : b < 0x80 := of_decide_eq_true (isEnc_of_mem hg)
    exact decide_eq_true (hascii b hb)
  | .rune (a :: b :: e), hg =>
    exact Unicode.LowerLaws.lower_enc _ (isEnc_of_mem hg) (by simp)

/-- **The characters of a text in lower case.** -/
theorem isLowered_of_toLower {d : GoString} (h : toLower d = d) : ∀ g ∈ segments d, IsLowered g := by
  -- in lower case, each piece becomes the piece that was there
  have hfixed : ∀ g ∈ segments d, g = .rune (lowerSeg g) := by
    unfold toLower at h
    split at h
    · next hascii =>
      have hbytes : ∀ b ∈ d, b < 0x80 := fun b hb => of_decide_eq_true (all_eq_true.mp hascii b hb)
      have hcut := segments_ascii hbytes []
      rw [append_nil, segments_nil, append_nil] at hcut
      intro g hg
      rw [hcut] at hg
      obtain ⟨b, hb, rfl⟩ := mem_map.mp hg
      have hlower : lowerByte b = b := map_inj_left.mp (h.trans (map_id d).symm) b hb
      show Seg.rune [b] = .rune [lowerByte b]
      rw [hlower]
    · have hok : ∀ g ∈ (segments d).map fun g => Seg.rune (lowerSeg g), g.Ok := by
        intro g hg
        obtain ⟨g', hg', rfl⟩ := mem_map.mp hg
        exact isEnc_lowerSeg hg'
      have hcut := segments_flatMap hok
      rw [flatMap_map] at hcut
      have hcut : segments ((segments d).flatMap lowerSeg) = _ := hcut
      rw [h] at hcut
      intro g hg
      exact (map_inj_left.mp (hcut.symm.trans (map_id _).symm) g hg).symm
  intro g hg
  have hg' := hfixed g hg
  refine ⟨?_, ?_, ?_⟩
  · rw [hg']
    exact isEnc_lowerSeg hg
  · rintro b rfl
    have heq : [b] = [lowerByte b] := Seg.rune.inj hg'
    exact (List.cons.inj heq).1.symm
  · rintro rfl
    have heq : kelvinSign = Unicode.lower kelvinSign := Seg.rune.inj hg'
    rw [Unicode.LowerLaws.lower_kelvin] at heq
    exact absurd heq (by decide)

/-- A text that a compiled domain may be: lower-case ASCII. -/
def IsPlainText (q : GoString) : Prop := ∀ b ∈ q, b < 0x80 ∧ lowerByte b = b

omit [Unicode] [Unicode.LowerLaws] in
theorem foldRunes_plain {g : Seg} (hg : IsLowered g) {c : UInt8} (hc : c < 0x80 ∧ lowerByte c = c) :
    foldRunes sameFold g.coerced [c] = true ↔ plainSeg g = [c] := by
  match g, hg with
  | .bad b, hg => exact hg.ok.elim
  | .rune [], hg => exact absurd rfl (isEnc_ne_nil hg.ok)
  | .rune [b], hg =>
    have hplain : plainSeg (.rune [b]) = [b] := if_neg (by simp [longS])
    rw [hplain]
    show decide (lowerByte b = lowerByte c) = true ↔ _
    rw [decide_eq_true_eq, hg.byte b rfl, hc.2]
    exact ⟨fun h => by rw [h], fun h => (List.cons.inj h).1⟩
  | .rune (a :: b :: e), hg =>
    show foldsWith (a :: b :: e) c = true ↔ _
    have hkelvin : a :: b :: e ≠ kelvinSign := fun h => hg.not_kelvin (congrArg _ h)
    unfold foldsWith plainSeg
    by_cases hlong : a :: b :: e = longS
    · rw [if_pos (congrArg _ hlong)]
      simp [hlong, hc.2, show longS ≠ kelvinSign by decide, eq_comm]
    · rw [if_neg fun h => hlong (Seg.rune.inj h)]
      simp [hlong, hkelvin, Seg.bytes]

omit [Unicode] [Unicode.LowerLaws] in
/-- A piece is one byte, or begins beyond ASCII. -/
theorem plainSeg_cases {g : Seg} (hg : IsLowered g) :
    (∃ c, plainSeg g = [c]) ∨ ∃ c e, plainSeg g = c :: e ∧ 0x80 ≤ c := by
  match g, hg with
  | .bad b, hg => exact hg.ok.elim
  | .rune [], hg => exact absurd rfl (isEnc_ne_nil hg.ok)
  | .rune [b], hg => exact Or.inl ⟨b, if_neg (by simp [longS])⟩
  | .rune (a :: b :: e), hg =>
    unfold plainSeg
    split
    · exact Or.inl ⟨_, rfl⟩
    · exact Or.inr ⟨a, b :: e, rfl, high_of_isEnc hg.ok a (mem_cons_self ..)⟩

omit [Unicode] [Unicode.LowerLaws] in
/-- **Against a compiled domain, folding sees an `s` for every long s, and nothing else.** -/
theorem foldAll_plain {l : List Seg} (hl : ∀ g ∈ l, IsLowered g) {q : GoString} (hq : IsPlainText q) :
    foldAll sameFold l (q.map fun b => .rune [b]) = true ↔ l.flatMap plainSeg = q := by
  induction l generalizing q with
  | nil =>
    cases q with
    | nil => exact ⟨fun _ => rfl, fun _ => rfl⟩
    | cons c q => exact ⟨nofun, nofun⟩
  | cons g l ih =>
    obtain ⟨hg, hl⟩ := forall_mem_cons.mp hl
    rw [flatMap_cons]
    cases q with
    | nil =>
      refine ⟨nofun, fun h => ?_⟩
      have hnil := (append_eq_nil_iff.mp h).1
      rcases plainSeg_cases hg with ⟨c, hc⟩ | ⟨c, e, hc, -⟩ <;> rw [hc] at hnil <;> nomatch hnil
    | cons c q =>
      obtain ⟨hc, hq⟩ := forall_mem_cons.mp hq
      show (foldRunes sameFold g.coerced [c] && foldAll sameFold l (q.map fun b => .rune [b])) = true ↔ _
      rw [Bool.and_eq_true, foldRunes_plain hg hc, ih hl hq]
      constructor
      · rintro ⟨hhead, htail⟩
        rw [hhead, htail]
        rfl
      · intro h
        rcases plainSeg_cases hg with ⟨x, hx⟩ | ⟨x, e, hx, hhigh⟩
        · rw [hx] at h ⊢
          obtain ⟨rfl, htail⟩ := List.cons.inj h
          exact ⟨rfl, htail⟩
        · rw [hx] at h
          obtain ⟨rfl, -⟩ := List.cons.inj h
          exact absurd hc.1 (by grind)

/-- **The long s is the only look-alike.** -/
theorem equalFoldRunes_iff {d q : GoString} (hd : toLower d = d) (hq : IsPlainText q) :
    equalFoldRunes sameFold d q = true ↔ plainS d = q := by
  have hcut := segments_ascii (fun b hb => (hq b hb).1) []
  rw [append_nil, segments_nil, append_nil] at hcut
  unfold equalFoldRunes
  rw [hcut]
  exact foldAll_plain (isLowered_of_toLower hd) hq

omit [Unicode] [Unicode.LowerLaws] in
/-- A domain without a long s stays as it is. -/
theorem plainS_eq_self {d : GoString} (h : .rune longS ∉ segments d) : plainS d = d := by
  have hcongr : (segments d).flatMap plainSeg = (segments d).flatMap Seg.bytes :=
    flatMap_congr fun g hg => if_neg fun (hlong : g = .rune longS) => h (hlong ▸ hg)
  unfold plainS
  rw [hcongr, segments_bytes]

omit [Unicode] [Unicode.LowerLaws] in
/-- A compiled domain has no long s. -/
theorem not_mem_longS {q : GoString} (hq : IsPlainText q) : .rune longS ∉ segments q := by
  have hcut := segments_ascii (fun b hb => (hq b hb).1) []
  rw [append_nil, segments_nil, append_nil] at hcut
  rw [hcut]
  intro h
  obtain ⟨b, -, heq⟩ := mem_map.mp h
  nomatch heq

/-! ## The matchers -/

omit [Unicode.LowerLaws] in
/-- **A glob accepts the domains with one label in front of its suffix.** -/
theorem matchGlob_iff {suffix d : GoString} (htrim : trimSpace d = d) (hlower : toLower d = d)
    (hlabels : [] ∉ splitByte 0x2E d) :
    matchGlob sameFold suffix d = true ↔ ∃ label, 0x2E ∉ label ∧ d = label ++ lit "." ++ suffix := by
  have hne : d ≠ [] := by
    rintro rfl
    exact hlabels (mem_singleton.mpr rfl)
  unfold matchGlob
  dsimp only
  rw [htrim, hlower]
  constructor
  · intro h
    split at h
    · nomatch h
    · split at h
      · nomatch h
      · next hlen =>
        have h := of_decide_eq_true h
        obtain ⟨label, rest, hd⟩ := exists_cons_of_ne_nil (splitByte_ne_nil 0x2E d)
        have hjoin := intercalate_splitByte 0x2E d
        rw [hd] at hlen hjoin h
        obtain ⟨part, parts, hs⟩ := exists_cons_of_ne_nil (splitByte_ne_nil 0x2E suffix)
        cases rest with
        | nil =>
          rw [hs] at hlen
          exact absurd hlen (by simp)
        | cons next rest =>
          rw [intercalate_cons_cons] at hjoin
          refine ⟨label, not_mem_of_splitByte label (hd ▸ mem_cons_self ..), ?_⟩
          rw [← hjoin, ← h]
          rfl
  · rintro ⟨label, hlabel, hd⟩
    have hsplit : splitByte 0x2E d = label :: splitByte 0x2E suffix := by
      rw [hd, append_assoc]
      exact splitByte_append hlabel suffix
    have hfold : equalFoldRunes sameFold d suffix = false := by
      rw [Bool.eq_false_iff]
      intro hfold
      have hlen := splitByte_length_of_fold hfold
      rw [hsplit, length_cons] at hlen
      omega
    rw [if_neg (by simp [hne, hfold]), hsplit, if_neg (by simp)]
    exact decide_eq_true (intercalate_splitByte 0x2E suffix)

end Lower

/-! ## What is compiled -/

section Compiled

variable [Unicode] {sameFold : List UInt8 → List UInt8 → Bool}
  {compileRegexp : GoString → Except GoError (GoString → Bool)}

theorem validateDomainLabel_ok {label : GoString} (h : validateDomainLabel label = .ok ()) :
    ∀ b ∈ label, isLabelByte b = true := by
  obtain ⟨-, h⟩ := failIf_bind_eq_ok.mp h
  obtain ⟨-, h⟩ := failIf_bind_eq_ok.mp h
  split at h
  · next hfind =>
    intro b hb
    rw [← segments_bytes label] at hb
    obtain ⟨g, hg, hb⟩ := mem_flatMap.mp hb
    have hrune : isLabelRune g = true := by simpa using find?_eq_none.mp hfind g hg
    unfold isLabelRune at hrune
    split at hrune
    · cases mem_singleton.mp hb
      exact hrune
    · nomatch hrune
  · nomatch h

/-- **A domain that is accepted is plain.** -/
theorem normalizeExactDomain_ok {domain q : GoString} (h : normalizeExactDomain domain = .ok q) :
    q = toLower (trimSpace domain) ∧ IsPlainText q := by
  obtain ⟨-, h⟩ := failIf_bind_eq_ok.mp h
  obtain ⟨-, h⟩ := failIf_bind_eq_ok.mp h
  obtain ⟨-, h⟩ := failIf_bind_eq_ok.mp h
  obtain ⟨-, h⟩ := failIf_bind_eq_ok.mp h
  obtain ⟨u, hlabels, h⟩ := bind_eq_ok.mp h
  cases h
  have hlabels := forM_ok hlabels
  refine ⟨rfl, fun b hb => ?_⟩
  have hplain : ∀ b, isLabelByte b = true ∨ b = 0x2E → b < 0x80 ∧ lowerByte b = b :=
    forall_byte (by decide +kernel)
  refine hplain b ?_
  rw [← intercalate_splitByte 0x2E (toLower (trimSpace domain))] at hb
  rcases mem_intercalate hb with ⟨label, hlabel, hb⟩ | hb
  · exact Or.inl (validateDomainLabel_ok (hlabels label hlabel) b hb)
  · exact Or.inr (mem_singleton.mp hb)

theorem compileSingleLabelGlob_ok {pattern suffix : GoString}
    (h : compileSingleLabelGlob pattern = .ok suffix) : toLower (trimSpace pattern) = lit "*." ++ suffix := by
  obtain ⟨-, h⟩ := failIf_bind_eq_ok.mp h
  obtain ⟨hstart, h⟩ := failIf_bind_eq_ok.mp h
  obtain ⟨-, h⟩ := failIf_bind_eq_ok.mp h
  obtain ⟨-, h⟩ := failIf_bind_eq_ok.mp h
  obtain ⟨u, -, h⟩ := bind_eq_ok.mp h
  cases h
  obtain ⟨rest, hrest⟩ := not_not.mp hstart
  rw [← hrest]
  rfl

/-- What a pattern is compiled to, if it is no regular expression. -/
inductive Compiled (p : GoString) : Option SenderDomainMatcher → Prop where
  | blank (h : trimSpace p = []) : Compiled p none
  | exact (h : IsBare p) (hplain : IsPlainText (toLower (trimSpace p))) :
      Compiled p (some (.exact (toLower (trimSpace p))))
  | glob {s : GoString} (h : IsGlob p s) : Compiled p (some (.glob s))

theorem compiled_of_ok {p : GoString} (hre : ¬ IsRegex p) {m : Option SenderDomainMatcher}
    (h : compileSenderDomainMatcher compileRegexp p = .ok m) : Compiled p m := by
  unfold compileSenderDomainMatcher at h
  dsimp only at h
  split at h
  · next hblank =>
    cases h
    exact .blank hblank
  · next hne =>
    have hregex : ¬ lit "re:" <+: toLower (trimSpace p) := hre
    rw [if_neg hregex] at h
    split at h
    · next hglob =>
      obtain ⟨suffix, hsuffix, h⟩ := bind_eq_ok.mp h
      cases h
      have hstart := compileSingleLabelGlob_ok (mapError_ok hsuffix)
      rw [trimSpace_trimSpace] at hstart
      exact .glob ⟨hre, hglob, hstart⟩
    · next hglob =>
      obtain ⟨domain, hdomain, h⟩ := bind_eq_ok.mp h
      cases h
      obtain ⟨rfl, hplain⟩ := normalizeExactDomain_ok (mapError_ok hdomain)
      rw [trimSpace_trimSpace] at hplain ⊢
      exact .exact ⟨hne, hre, hglob⟩ hplain

/-- The matchers are those of the patterns. -/
theorem compileAll_ok {patterns : List GoString} (hre : ∀ p ∈ patterns, ¬ IsRegex p)
    {matchers : List SenderDomainMatcher} (h : compileAll compileRegexp patterns = .ok matchers) :
    (∀ m ∈ matchers, ∃ p ∈ patterns, Compiled p (some m)) ∧
      ∀ p ∈ patterns, ∃ o, Compiled p o ∧ ∀ m ∈ o, m ∈ matchers := by
  induction patterns generalizing matchers with
  | nil =>
    cases h
    exact ⟨forall_mem_nil _, forall_mem_nil _⟩
  | cons p patterns ih =>
    obtain ⟨hp, hps⟩ := forall_mem_cons.mp hre
    obtain ⟨o, ho, h⟩ := bind_eq_ok.mp h
    obtain ⟨rest, hrest, h⟩ := bind_eq_ok.mp h
    cases h
    have hcompiled := compiled_of_ok hp ho
    obtain ⟨hfrom, hto⟩ := ih hps hrest
    refine ⟨fun m hm => ?_, forall_mem_cons.mpr ⟨⟨o, hcompiled, fun m hm => ?_⟩, fun q hq => ?_⟩⟩
    · rcases mem_append.mp hm with hm | hm
      · obtain rfl := Option.mem_toList.mp hm
        exact ⟨p, mem_cons_self .., hcompiled⟩
      · obtain ⟨q, hq, hm⟩ := hfrom m hm
        exact ⟨q, mem_cons_of_mem _ hq, hm⟩
    · exact mem_append_left _ (Option.mem_toList.mpr hm)
    · obtain ⟨o', ho', hmem⟩ := hto q hq
      exact ⟨o', ho', fun m hm => mem_append_right _ (hmem m hm)⟩

end Compiled

/-! ## What is accepted -/

section Accepted

variable [Unicode] [Unicode.LowerLaws] {sameFold : List UInt8 → List UInt8 → Bool}
  {compileRegexp : GoString → Except GoError (GoString → Bool)} {mode d : GoString}
  {patterns : List GoString} {policy : SenderPolicy}

/-- A domain as `senderDomain` gives it, with labels. -/
structure IsDomain (d : GoString) : Prop where
  trimmed : trimSpace d = d
  lowered : toLower d = d
  labels : [] ∉ splitByte 0x2E d

omit [Unicode.LowerLaws] in
theorem newSenderPolicy_ok (h : newSenderPolicy sameFold compileRegexp mode patterns = .ok policy) :
    ∃ matchers, compileAll compileRegexp patterns = .ok matchers ∧
      policy.matchers = matchers.map (SenderDomainMatcher.accepts sameFold) := by
  have hcompiled : ∀ m, (do
      let matchers ← compileAll compileRegexp patterns
      return (⟨m, matchers.map (SenderDomainMatcher.accepts sameFold)⟩ : SenderPolicy)) = .ok policy →
      ∃ matchers, compileAll compileRegexp patterns = .ok matchers ∧
        policy.matchers = matchers.map (SenderDomainMatcher.accepts sameFold) := by
    intro m hm
    obtain ⟨matchers, hmatchers, hm⟩ := bind_eq_ok.mp hm
    cases hm
    exact ⟨matchers, hmatchers, rfl⟩
  unfold newSenderPolicy at h
  dsimp only at h
  split at h
  · exact hcompiled _ h
  · split at h
    · exact hcompiled _ h
    · nomatch h

/-- **What the policy accepts**: like what the patterns say, but with an `s` for every long s. -/
theorem allowedDomain_iff (h : newSenderPolicy sameFold compileRegexp mode patterns = .ok policy)
    (hre : ∀ p ∈ patterns, ¬ IsRegex p) (hd : IsDomain d) :
    policy.allowedDomain d = true ↔ (∀ p ∈ patterns, trimSpace p = []) ∨
      (∃ p ∈ patterns, IsBare p ∧ toLower (trimSpace p) = plainS d) ∨ GlobAllows patterns d := by
  obtain ⟨matchers, hmatchers, hpolicy⟩ := newSenderPolicy_ok h
  obtain ⟨hfrom, hto⟩ := compileAll_ok hre hmatchers
  have hallowed : policy.allowedDomain d = true ↔ matchers = [] ∨ ∃ m ∈ matchers, m.accepts sameFold d = true := by
    unfold SenderPolicy.allowedDomain
    rw [hpolicy]
    simp
  have hnone : matchers = [] ↔ ∀ p ∈ patterns, trimSpace p = [] := by
    constructor
    · rintro rfl p hp
      obtain ⟨o, ho, hmem⟩ := hto p hp
      cases ho with
      | blank hblank => exact hblank
      | exact _ _ | glob _ => nomatch hmem _ rfl
    · intro hblank
      refine eq_nil_iff_forall_not_mem.mpr fun m hm => ?_
      obtain ⟨p, hp, hcompiled⟩ := hfrom m hm
      have hp := hblank p hp
      cases hcompiled with
      | exact hbare _ => exact hbare.1 hp
      | glob hglob => exact hglob.not_blank hp
  rw [hallowed, hnone]
  refine or_congr_right ?_
  constructor
  · rintro ⟨m, hm, haccepts⟩
    obtain ⟨p, hp, hcompiled⟩ := hfrom m hm
    cases hcompiled with
    | exact hbare hplain =>
      exact Or.inl ⟨p, hp, hbare, ((equalFoldRunes_iff hd.lowered hplain).mp haccepts).symm⟩
    | glob hglob =>
      obtain ⟨label, hlabel, heq⟩ := (matchGlob_iff hd.trimmed hd.lowered hd.labels).mp haccepts
      exact Or.inr ⟨p, hp, _, label, hglob, hlabel, heq⟩
  · rintro (⟨p, hp, hbare, heq⟩ | ⟨p, hp, s, label, hglob, hlabel, heq⟩)
    · obtain ⟨o, ho, hmem⟩ := hto p hp
      cases ho with
      | blank hblank => exact absurd hblank hbare.1
      | exact _ hplain =>
        exact ⟨_, hmem _ rfl, (equalFoldRunes_iff hd.lowered hplain).mpr heq.symm⟩
      | glob hglob => exact absurd hglob.2.1 hbare.2.2
    · obtain ⟨o, ho, hmem⟩ := hto p hp
      cases ho with
      | blank hblank => exact absurd hblank hglob.not_blank
      | exact hbare _ => exact absurd hglob.2.1 hbare.2.2
      | glob hglob' =>
        obtain rfl := append_cancel_left (hglob.2.2.symm.trans hglob'.2.2)
        exact ⟨_, hmem _ rfl, (matchGlob_iff hd.trimmed hd.lowered hd.labels).mpr ⟨label, hlabel, heq⟩⟩

/-- **Patterns mean what they say exactly for the domains** that have no long s, or are no bare domain
    with an `s` for it, or are allowed by a glob. -/
theorem patterns_mean_what_they_say_iff
    (h : newSenderPolicy sameFold compileRegexp mode patterns = .ok policy)
    (hre : ∀ p ∈ patterns, ¬ IsRegex p) (hd : IsDomain d) :
    (policy.allowedDomain d = true ↔ DomainAllowed patterns d) ↔
      (.rune longS ∈ segments d → ∀ p ∈ patterns, IsBare p → toLower (trimSpace p) = plainS d →
        GlobAllows patterns d) := by
  rw [allowedDomain_iff h hre hd]
  obtain ⟨matchers, hmatchers, -⟩ := newSenderPolicy_ok h
  -- a bare pattern has no long s, so it is no domain with one
  have hbare : .rune longS ∈ segments d → ∀ p ∈ patterns, IsBare p → toLower (trimSpace p) ≠ d := by
    rintro hlong p hp hbare rfl
    obtain ⟨o, ho, -⟩ := (compileAll_ok hre hmatchers).2 p hp
    cases ho with
    | blank hblank => exact hbare.1 hblank
    | exact _ hplain => exact not_mem_longS hplain hlong
    | glob hglob => exact hbare.2.2 hglob.2.1
  constructor
  · intro hiff hlong p hp hp' heq
    rcases hiff.mp (Or.inr (Or.inl ⟨p, hp, hp', heq⟩)) with hblank | ⟨q, hq, hq', heq'⟩ | hglob
    · exact absurd (hblank p hp) hp'.1
    · exact absurd heq' (hbare hlong q hq hq')
    · exact hglob
  · intro hcond
    by_cases hlong : .rune longS ∈ segments d
    · constructor
      · rintro (hblank | ⟨p, hp, hp', heq⟩ | hglob)
        · exact Or.inl hblank
        · exact Or.inr (Or.inr (hcond hlong p hp hp' heq))
        · exact Or.inr (Or.inr hglob)
      · rintro (hblank | ⟨p, hp, hp', heq⟩ | hglob)
        · exact Or.inl hblank
        · exact absurd heq (hbare hlong p hp hp')
        · exact Or.inr (Or.inr hglob)
    · rw [plainS_eq_self hlong]
      exact Iff.rfl

end Accepted

section Cases

/-- Tables that know the Kelvin sign. -/
@[reducible] def Unicode.kelvin : Unicode := ⟨fun e => if e = kelvinSign then [0x6B] else e, fun _ => false⟩

theorem Unicode.lowerLaws_kelvin : @Unicode.LowerLaws Unicode.kelvin := by
  refine @Unicode.LowerLaws.mk Unicode.kelvin (fun e he _ => ?_) (if_pos rfl)
  show isEnc (if e = kelvinSign then [0x6B] else e) = true
  split
  · decide
  · exact he

/-- Two patterns: one domain, and the domains below another. -/
def samplePatterns : List GoString := [lit "Sales.example.com", lit "glob:*.example.org"]

/-- Their policy. -/
def samplePolicy : SenderPolicy :=
  letI := Unicode.kelvin
  ⟨.strict, [SenderDomainMatcher.accepts (fun e e' => e = e') (.exact (lit "sales.example.com")),
    SenderDomainMatcher.accepts (fun e e' => e = e') (.glob (lit "example.org"))]⟩

theorem samplePolicy_compiled :
    letI := Unicode.kelvin
    newSenderPolicy (fun e e' => e = e') (fun _ => .error (.errorf "regexp")) (lit "strict")
      samplePatterns = .ok samplePolicy := by
  rfl

/-- The domain with a long s for its first letter. -/
def lookAlike : GoString := longS ++ lit "ales.example.com"

/-- A domain below the second. -/
theorem patterns_mean_glob :
    letI := Unicode.kelvin
    samplePolicy.allowedDomain (lit "a.example.org") = true ∧
      DomainAllowed samplePatterns (lit "a.example.org") := by
  let _ := Unicode.kelvin
  have _ := Unicode.lowerLaws_kelvin
  have hallowed : samplePolicy.allowedDomain (lit "a.example.org") = true := by decide +kernel
  have hre : ∀ p ∈ samplePatterns, ¬ IsRegex p := by
    unfold IsRegex
    decide +kernel
  have hd : IsDomain (lit "a.example.org") := ⟨by decide +kernel, by decide +kernel, by decide +kernel⟩
  have hiff := (patterns_mean_what_they_say_iff samplePolicy_compiled hre hd).mpr
    (fun hlong => absurd hlong (by decide +kernel))
  exact ⟨hallowed, hiff.mp hallowed⟩

/-- **A look-alike of the first is accepted**, although no pattern says so. -/
theorem lookAlike_accepted :
    letI := Unicode.kelvin
    newSenderPolicy (fun e e' => e = e') (fun _ => .error (.errorf "regexp")) (lit "strict")
        samplePatterns = .ok samplePolicy ∧
      (∀ p ∈ samplePatterns, ¬ IsRegex p) ∧ IsDomain lookAlike ∧
      samplePolicy.allowedDomain lookAlike = true ∧ ¬ DomainAllowed samplePatterns lookAlike := by
  let _ := Unicode.kelvin
  have _ := Unicode.lowerLaws_kelvin
  have hre : ∀ p ∈ samplePatterns, ¬ IsRegex p := by
    unfold IsRegex
    decide +kernel
  have hd : IsDomain lookAlike := ⟨by decide +kernel, by decide +kernel, by decide +kernel⟩
  refine ⟨samplePolicy_compiled, hre, hd, by decide +kernel, ?_⟩
  rintro (hblank | ⟨p, hp, -, heq⟩ | ⟨p, hp, s, label, hglob, hlabel, heq⟩)
  · exact absurd (hblank (lit "Sales.example.com") (mem_cons_self ..)) (by decide +kernel)
  · have hnone : ∀ p ∈ samplePatterns, toLower (trimSpace p) ≠ lookAlike := by decide +kernel
    exact hnone p hp heq
  · have hsuffix : ∀ p ∈ samplePatterns, lit "glob:" <+: toLower (trimSpace p) →
        toLower (trimSpace ((trimSpace p).drop 5)) = lit "*." ++ lit "example.org" := by
      decide +kernel
    obtain rfl := append_cancel_left (hglob.2.2.symm.trans (hsuffix p hp hglob.2.1))
    have hmatch : matchGlob (fun e e' => e = e') (lit "example.org") lookAlike = true :=
      (matchGlob_iff hd.trimmed hd.lowered hd.labels).mpr ⟨label, hlabel, heq⟩
    exact absurd hmatch (by decide +kernel)

end Cases

end SmtpCloudRelay
