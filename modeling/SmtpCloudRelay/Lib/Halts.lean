/-
  TERMINATION OF PROGRAMS OF ATOMIC STEPS.

  `Halts E A p w` says that `p`, started in world `w`, comes to an end WHATEVER the outside chooses,
  as long as every event of the run is one of `A`: there is no infinite sequence of such events.  It
  is an inductive predicate, so a proof of it is a bound on the tree of all those runs.

  The rules follow the program: a program without loops halts (`Straight.halts`), a sequence halts
  when its second part halts wherever the first part can end (`Halts.bind`), and an unbounded `for`
  halts when its rounds do and a measure drops from round to round (`Halts.forever`).

  For a complete run of such a `for`, `Runs.forever_inv` splits off its first round.
-/
import SmtpCloudRelay.Lib.Spec

namespace Lib

namespace Prog

variable {S : Sig} {C W α β σ : Type} {E : Exec S C W} {A : Event S C W → Prop}

/-- Every run of the program whose events are all in `A` comes to an end. -/
inductive Halts (E : Exec S C W) (A : Event S C W → Prop) : {α : Type} → Prog S α → W → Prop where
  | ret {α : Type} (a : α) (w : W) : Halts E A (.ret a) w
  | step {α : Type} {o : S.Op} {k : S.Res o → Prog S α} {w : W}
      (h : ∀ c r w1, E o c w = some (r, w1) → A ⟨o, c, r, w, w1⟩ → Halts E A (k r) w1) :
      Halts E A (.step o k) w
  | loop {α σ β : Type} {body : σ → Prog S (σ ⊕ β)} {s : σ} {k : β → Prog S α} {w : W}
      (h : Halts E A (unroll body s k) w) : Halts E A (.loop body s k) w

/-- The rule of sequencing. -/
theorem Halts.bind {p : Prog S α} {f : α → Prog S β} {w : W} (hp : Halts E A p w)
    (hf : ∀ tr a w', Runs E p w tr a w' → (∀ ev ∈ tr, A ev) → Halts E A (f a) w') :
    Halts E A (p.bind f) w := by
  induction hp with
  | ret a w => exact hf [] a w (.ret a w) nofun
  | @step o k w h ih =>
    refine .step fun c r w1 hE hA => ih c r w1 hE hA fun tr a w' hr htr => ?_
    exact hf (⟨o, c, r, w, w1⟩ :: tr) a w' (.step hE hr) (List.forall_mem_cons.mpr ⟨hA, htr⟩)
  | @loop _ _ body s k w h ih =>
    refine .loop ?_
    rw [← unroll_bind]
    exact ih fun tr a w' hr htr => hf tr a w' (.loop hr) htr

/-- A program without loops halts. -/
theorem Straight.halts {p : Prog S α} (hp : p.Straight) (w : W) : Halts E A p w := by
  induction p generalizing w with
  | ret a => exact .ret a w
  | step o k ih => exact .step fun c r w1 _ _ => ih r (hp r) w1
  | loop body s k _ _ => exact hp.elim

theorem Straight.bind {p : Prog S α} {f : α → Prog S β} (hp : p.Straight)
    (hf : ∀ a, (f a).Straight) : (p.bind f).Straight := by
  induction p with
  | ret a => exact hf a
  | step o k ih => exact fun r => ih r (hp r) hf
  | loop body s k _ _ => exact hp.elim

end Prog

namespace Act

variable {S : Sig} {C W ε ε' α β σ : Type} {E : Exec S C W} {A : Event S C W → Prop}

/-- A fallible program without loops. -/
abbrev Straight (p : Act S ε α) : Prop := Prog.Straight p

theorem straight_lift (f : ε' → ε) (x : Except ε' α) : (lift f x : Act S ε α).Straight := by
  cases x with
  | ok a | error e => trivial

theorem Straight.bind {p : Act S ε α} {f : α → Act S ε β} (hp : p.Straight)
    (hf : ∀ a, (f a).Straight) : (p >>= f).Straight := by
  refine Prog.Straight.bind hp fun x => ?_
  cases x with
  | ok a => exact hf a
  | error e => trivial

theorem Straight.mapError {f : ε → ε'} {p : Act S ε α} (hp : p.Straight) :
    (p.mapError f).Straight :=
  Prog.Straight.bind hp (straight_lift f)

theorem Straight.attempt {p : Act S ε α} (hp : p.Straight) :
    (p.attempt : Act S ε' (Except ε α)).Straight :=
  Prog.Straight.bind hp fun _ => trivial

/-- Termination of a fallible program. -/
abbrev Halts (E : Exec S C W) (A : Event S C W → Prop) (p : Act S ε α) (w : W) : Prop :=
  Prog.Halts E A p w

/-- The rule of sequencing, for a first part that may fail. -/
theorem Halts.bind {p : Act S ε α} {f : α → Act S ε β} {w : W} (hp : p.Halts E A w)
    (hf : ∀ tr a w', Prog.Runs E p w tr (.ok a) w' → (∀ ev ∈ tr, A ev) → (f a).Halts E A w') :
    (p >>= f).Halts E A w := by
  refine Prog.Halts.bind hp fun tr x w' hr htr => ?_
  cases x with
  | ok a => exact hf tr a w' hr htr
  | error e => exact .ret _ _

end Act

/-! ## Unbounded loops -/

namespace Prog

variable {S : Sig} {C W ε α β σ : Type} {E : Exec S C W} {A : Event S C W → Prop}
variable {body : σ → Act S ε (σ ⊕ β)} {s : σ} {w w' : W} {tr : List (Event S C W)}

/-- What a round of a `for` leads to. -/
def roundEnd : Except ε (σ ⊕ β) → σ ⊕ Except ε β
  | .ok (.inl s) => .inl s
  | .ok (.inr b) => .inr (.ok b)
  | .error e => .inr (.error e)

/-- A round runs as the body does. -/
theorem Runs.round_inv {x : σ ⊕ Except ε β} (h : Runs E (Prog.bind (body s) Act.round) w tr x w') :
    ∃ y, x = roundEnd y ∧ Runs E (body s) w tr y w' := by
  obtain ⟨y, tr1, tr2, w1, rfl, hy, hret⟩ := h.bind_inv
  rcases y with e | s' | b
  all_goals
    obtain ⟨rfl, rfl, rfl⟩ := hret.ret_inv
    exact ⟨_, rfl, by simpa using hy⟩

/-- **The first round of a `for`**: it goes on in the loop, or it is the last. -/
theorem Runs.forever_inv {out : Except ε β} (h : Runs E (Act.forever body s) w tr out w') :
    (∃ s' tr1 tr2 w1, tr = tr1 ++ tr2 ∧ Runs E (body s) w tr1 (.ok (.inl s')) w1 ∧
      Runs E (Act.forever body s') w1 tr2 out w') ∨
    (∃ b, out = .ok b ∧ Runs E (body s) w tr (.ok (.inr b)) w') ∨
    ∃ e, out = .error e ∧ Runs E (body s) w tr (.error e) w' := by
  cases h with
  | loop h =>
    rw [unroll_eq] at h
    obtain ⟨x, tr1, tr2, w1, rfl, hround, hrest⟩ := h.bind_inv
    obtain ⟨y, rfl, hy⟩ := hround.round_inv
    rcases y with e | s' | b
    · obtain ⟨rfl, rfl, rfl⟩ := hrest.ret_inv
      exact Or.inr (Or.inr ⟨e, rfl, by simpa using hy⟩)
    · exact Or.inl ⟨s', tr1, tr2, w1, rfl, hy, hrest⟩
    · obtain ⟨rfl, rfl, rfl⟩ := hrest.ret_inv
      exact Or.inr (Or.inl ⟨b, rfl, by simpa using hy⟩)

/-- **The rule of an unbounded `for`**: its rounds halt, and from round to round an invariant holds
    and a measure drops. -/
theorem Halts.forever (I : σ → W → Prop) (μ : σ → W → Nat)
    (hbody : ∀ s w, I s w → (body s).Halts E A w)
    (hround : ∀ s w tr s' w', I s w → Runs E (body s) w tr (.ok (.inl s')) w' →
      (∀ ev ∈ tr, A ev) → I s' w' ∧ μ s' w' < μ s w) (hI : I s w) :
    (Act.forever body s).Halts E A w := by
  induction hn : μ s w using Nat.strongRecOn generalizing s w with
  | _ n ih =>
    refine .loop ?_
    rw [unroll_eq]
    have hfirst : Halts E A (Prog.bind (body s) Act.round) w := by
      refine Prog.Halts.bind (hbody s w hI) fun tr x w' _ _ => ?_
      rcases x with e | s' | b <;> exact .ret _ _
    refine hfirst.bind fun tr x w' hr htr => ?_
    obtain ⟨y, rfl, hy⟩ := hr.round_inv
    rcases y with e | s' | b
    · exact .ret _ _
    · obtain ⟨hI', hlt⟩ := hround s w tr s' w' hI hy htr
      exact ih _ (hn ▸ hlt) hI' rfl
    · exact .ret _ _

end Prog

end Lib
