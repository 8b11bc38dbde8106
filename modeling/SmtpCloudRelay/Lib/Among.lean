/-
  A PROGRAM AMONG OTHERS: its own moves, and between them any steps of the others.

  The others are given by a relation `Env` on worlds, so that nothing is said about how many they are
  or what they are in the middle of.  `Among E Env p w tr p' w'` is a run, finished or not, of `p`:
  the events `tr` are its own, in order, and `p'` is what is left of it.

  * `Among.safe` is the rule for invariants: a program that keeps to a protocol keeps every property
    of knowledge, trace and world that the others keep and that one allowed step keeps.
  * `Among.split` cuts a run at one of its events, so that what follows an event can be looked at on
    its own.
-/
import SmtpCloudRelay.Lib.Prog
import Mathlib.Data.List.Basic

namespace Lib

open List

namespace Prog

variable {S : Sig} {C W K α β σ : Type} (E : Exec S C W) (Env : W → W → Prop)

/-- A run of `p` among others: `tr` are its events, `p'` is what is left of it. -/
inductive Among (p : Prog S α) (w : W) : List (Event S C W) → Prog S α → W → Prop where
  | start : Among p w [] p w
  | others {tr : List (Event S C W)} {p' : Prog S α} {w1 w2 : W} (h : Among p w tr p' w1)
      (henv : Env w1 w2) : Among p w tr p' w2
  | move {tr : List (Event S C W)} {p1 p2 : Prog S α} {w1 w2 : W} {ev : Option (Event S C W)}
      (h : Among p w tr p1 w1) (hmove : Move E p1 w1 ev p2 w2) :
      Among p w (tr ++ ev.toList) p2 w2

variable {E Env}

variable {p : Prog S α} {w w' : W} {tr : List (Event S C W)}

theorem Among.trans {p1 p2 : Prog S α} {w1 w2 : W} {tr1 tr2 : List (Event S C W)}
    (h1 : Among E Env p w tr1 p1 w1) (h2 : Among E Env p1 w1 tr2 p2 w2) :
    Among E Env p w (tr1 ++ tr2) p2 w2 := by
  induction h2 with
  | start =>
    rw [append_nil]
    exact h1
  | others _ henv ih => exact .others ih henv
  | move _ hmove ih =>
    rw [← append_assoc]
    exact .move ih hmove

/-- The first part of a program runs, then what follows it is left. -/
theorem Runs.among {a : α} (h : Runs E p w tr a w') (f : α → Prog S β) :
    Among E Env (p.bind f) w tr (f a) w' := by
  revert f
  induction h with
  | ret a w => exact fun f => .start
  | @step o k w w1 w' c r tr a hE hk ih =>
    intro f
    have hmove : Move E ((Prog.step o k).bind f) w (some ⟨o, c, r, w, w1⟩) ((k r).bind f) w1 :=
      .step hE
    exact (Among.move .start hmove).trans (ih f)
  | @loop _ _ body s k w w' tr a hk ih =>
    intro f
    have hround : Move E ((Prog.loop body s k).bind f) w none ((unroll body s k).bind f) w := by
      rw [unroll_bind]
      exact .loop
    exact (Among.move .start hround).trans (ih f)

/-- A round of a `for` that goes on leads from the head of the loop to the head of the loop. -/
theorem Runs.among_round {ε : Type} {body : σ → Act S ε (σ ⊕ β)} {s s' : σ}
    (h : Runs E (body s) w tr (.ok (.inl s')) w') :
    Among E Env (Act.forever body s) w tr (Act.forever body s') w' := by
  have hhead : Move E (Act.forever body s) w none
      (unroll (fun s => Prog.bind (body s) Act.round) s Prog.ret) w := .loop
  have hround : Runs E (Prog.bind (body s) Act.round) w (tr ++ []) (.inl s') w' :=
    Runs.bind h (.ret _ w')
  rw [append_nil] at hround
  exact (Among.move .start hhead).trans (hround.among _)

/-- **The rule for invariants.**  A program that keeps to a protocol keeps whatever the others keep
    and one allowed step keeps. -/
theorem Among.safe {L : Proto S K} {Q : α → K → Prop} {R : K → List (Event S C W) → W → Prop}
    {p' : Prog S α} {κ : K} (hp : p.Safe L Q κ) (hstart : R κ [] w)
    (henv : ∀ κ tr w1 w2, R κ tr w1 → Env w1 w2 → R κ tr w2)
    (hstep : ∀ κ tr o c r w1 w2, R κ tr w1 → L.ok κ o → E o c w1 = some (r, w2) →
      ∃ κ', L.next κ o r κ' ∧ R κ' (tr ++ [⟨o, c, r, w1, w2⟩]) w2) (h : Among E Env p w tr p' w') :
    ∃ κ', p'.Safe L Q κ' ∧ R κ' tr w' := by
  induction h with
  | start => exact ⟨κ, hp, hstart⟩
  | others _ hothers ih =>
    obtain ⟨κ', hp', hR⟩ := ih
    exact ⟨κ', hp', henv _ _ _ _ hR hothers⟩
  | move _ hmove ih =>
    obtain ⟨κ', hp', hR⟩ := ih
    rcases Safe.move hp' hmove with ⟨rfl, rfl, hp''⟩ | ⟨o, c, r, rfl, hE, hok, hp''⟩
    · rw [Option.toList_none, append_nil]
      exact ⟨κ', hp'', hR⟩
    · obtain ⟨κ'', hnext, hR'⟩ := hstep _ _ _ _ _ _ _ hR hok hE
      exact ⟨κ'', hp'' κ'' hnext, hR'⟩

/-- **A run, cut at one of its events.** -/
theorem Among.split {p' : Prog S α} (h : Among E Env p w tr p' w') {i : Nat} {ev : Event S C W}
    (hi : tr[i]? = some ev) :
    ∃ p1 w1 p2 w2, Among E Env p w (tr.take i) p1 w1 ∧ Move E p1 w1 (some ev) p2 w2 ∧
      Among E Env p2 w2 (tr.drop (i + 1)) p' w' := by
  induction h with
  | start => nomatch hi
  | others _ henv ih =>
    obtain ⟨p1, w1, p2, w2, hbefore, hmove, hafter⟩ := ih hi
    exact ⟨p1, w1, p2, w2, hbefore, hmove, .others hafter henv⟩
  | @move tr p3 p4 w3 w4 ev' hrun hmove' ih =>
    by_cases hlt : i < tr.length
    · -- the event lies in the part before the last move
      rw [getElem?_append_left hlt] at hi
      obtain ⟨p1, w1, p2, w2, hbefore, hmove, hafter⟩ := ih hi
      refine ⟨p1, w1, p2, w2, ?_, hmove, ?_⟩
      · rw [take_append_of_le_length (Nat.le_of_lt hlt)]
        exact hbefore
      · rw [drop_append_of_le_length hlt]
        exact .move hafter hmove'
    · -- it is the event of the last move
      have hle : tr.length ≤ i := Nat.le_of_not_lt hlt
      rw [getElem?_append_right hle] at hi
      cases ev' with
      | none => nomatch hi
      | some ev' =>
        have hzero : i - tr.length = 0 := by
          have hbound : i - tr.length < [ev'].length := (List.getElem?_eq_some_iff.mp hi).1
          simpa using hbound
        obtain rfl : i = tr.length := by omega
        rw [hzero] at hi
        obtain rfl : ev' = ev := Option.some.inj hi
        refine ⟨p3, w3, p4, w4, ?_, hmove', ?_⟩
        · rw [take_append_of_le_length (Nat.le_refl _), take_length]
          exact hrun
        · rw [drop_eq_nil_of_le (by simp)]
          exact .start

end Prog

end Lib
