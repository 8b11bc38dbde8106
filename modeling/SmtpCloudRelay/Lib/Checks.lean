/-
  CHECKS, one after the other.

  A validating function is a sequence of tests, each with the error it answers.  `failIf` is one
  test; the sequence is the bind of `Except`.  What such a function lets through is read off with
  `bind_eq_ok` and `failIf_bind_eq_ok`, one test at a time, without unfolding the function again.
-/
import Mathlib.Logic.Basic

namespace Lib

variable {ε α β : Type}

/-- One test: answer the error when the condition holds. -/
def failIf (c : Prop) [Decidable c] (e : ε) : Except ε Unit := if c then .error e else .ok ()

variable {f : α → Except ε β} {c : Prop} {e : ε} {P : ε → Prop}

theorem bind_eq_ok {x : Except ε α} {b : β} : (x >>= f) = .ok b ↔ ∃ a, x = .ok a ∧ f a = .ok b := by
  cases x with
  | error e =>
    constructor
    · intro h
      nomatch h
    · rintro ⟨a, h, -⟩
      nomatch h
  | ok a =>
    constructor
    · intro h
      exact ⟨a, rfl, h⟩
    · rintro ⟨a', h, hf⟩
      cases h
      exact hf

theorem failIf_eq_ok [Decidable c] {u : Unit} : failIf c e = .ok u ↔ ¬ c := by
  unfold failIf
  by_cases h : c
  · simp [h]
  · simp [h]

/-- A sequence that starts with a test succeeds when the test does not fire and the rest
    succeeds. -/
theorem failIf_bind_eq_ok [Decidable c] {f : Unit → Except ε β} {b : β} :
    (failIf c e >>= f) = .ok b ↔ ¬ c ∧ f () = .ok b := by
  rw [bind_eq_ok]
  constructor
  · rintro ⟨u, hu, hf⟩
    exact ⟨failIf_eq_ok.mp hu, hf⟩
  · rintro ⟨hc, hf⟩
    exact ⟨(), failIf_eq_ok.mpr hc, hf⟩

/-- Whatever `x` fails with, it is a `P`. -/
def FailsWith (P : ε → Prop) (x : Except ε α) : Prop := ∀ e, x = .error e → P e

theorem failsWith_ok {a : α} : FailsWith P (.ok a) := nofun

theorem failsWith_error : FailsWith P (.error e : Except ε α) ↔ P e := by
  constructor
  · exact fun h => h e rfl
  · rintro h _ ⟨⟩
    exact h

theorem FailsWith.failIf [Decidable c] (h : P e) : FailsWith P (failIf c e) := by
  unfold Lib.failIf
  split
  · exact failsWith_error.mpr h
  · exact failsWith_ok

theorem FailsWith.bind {x : Except ε α} (hx : FailsWith P x) (hf : ∀ a, FailsWith P (f a)) :
    FailsWith P (x >>= f) := by
  cases x with
  | ok a => exact hf a
  | error e => exact failsWith_error.mpr (failsWith_error.mp hx)

/-- Where each element that passes is mapped to `g` of it, a list that passes is mapped to `g` of
    it. -/
theorem mapM_eq_ok {g : α → β} (hf : ∀ a b, f a = .ok b → b = g a) {xs : List α} {ys : List β}
    (h : xs.mapM f = .ok ys) : ys = xs.map g := by
  induction xs generalizing ys with
  | nil =>
    cases h
    rfl
  | cons a xs ih =>
    rw [List.mapM_cons] at h
    obtain ⟨b, hb, h⟩ := bind_eq_ok.mp h
    obtain ⟨bs, hbs, h⟩ := bind_eq_ok.mp h
    cases h
    rw [hf a b hb, ih hbs]
    rfl

/-- In a list that passes, each element passes. -/
theorem forall_of_mapM_eq_ok {xs : List α} {ys : List β} (h : xs.mapM f = .ok ys) :
    ∀ a ∈ xs, ∃ b, f a = .ok b := by
  induction xs generalizing ys with
  | nil => exact nofun
  | cons a xs ih =>
    rw [List.mapM_cons] at h
    obtain ⟨b, hb, h⟩ := bind_eq_ok.mp h
    obtain ⟨bs, hbs, -⟩ := bind_eq_ok.mp h
    intro a' ha'
    rcases List.mem_cons.mp ha' with rfl | ha'
    · exact ⟨b, hb⟩
    · exact ih hbs a' ha'

theorem forM_ok {f : α → Except ε Unit} {l : List α} (h : l.forM f = .ok ()) :
    ∀ a ∈ l, f a = .ok () := by
  induction l with
  | nil => exact List.forall_mem_nil _
  | cons a l ih =>
    obtain ⟨u, ha, hl⟩ := bind_eq_ok.mp h
    exact List.forall_mem_cons.mpr ⟨ha, ih hl⟩

theorem mapError_ok {ε' : Type} {x : Except ε α} {f : ε → ε'} {a : α} (h : x.mapError f = .ok a) :
    x = .ok a := by
  cases x with
  | error e => nomatch h
  | ok b =>
    cases h
    rfl

end Lib
