/-
  PROGRAMS OF ATOMIC STEPS, and the logic the development reasons about them with.

  A program is the tree of the steps it may take: it has returned (`ret`), or it is about to take
  ONE atomic step of its signature and goes on as the step's answer tells it (`step`), or it is a
  LOOP that runs its body until the body says it is done (`loop`, an unbounded `for`).  What a step
  does is not part of the program: an ENVIRONMENT `Exec S C W` says, for every CHOICE `c : C` the
  outside world may make (a fault, a clock reading, a random number, the outcome of a commit), what
  the step answers and how it changes the world `W`.  So one program text has

  * its complete runs `Runs`, each with the trace of events that produced it (a failure pattern is a
    trace), for a program that runs alone;
  * its moves `Move`, one atomic step each, for a program among others: the rest of a program is
    again a program, others may move in between, and a crash just drops it.

  Reasoning goes through a PROTOCOL `Proto S K`: what the program knows is a state `κ : K`, `ok κ o`
  are the steps it may take when it knows `κ`, and `next κ o r κ'` how an answer changes what it
  knows.  `p.Safe L Q κ` says that `p`, started with knowledge `κ`, follows the protocol `L` and
  returns only in `Q`.  A protocol mentions no world; `Runs.safe` and `Safe.move` carry the
  statement over to any environment in which the protocol's knowledge stays true.

  Fallible programs are `Act`: programs that answer `Except`, with the monad that Go's
  `if err != nil { return err }` is.
-/
import Mathlib.Logic.Relation

namespace Lib

/-! ## Signatures, programs, and how they compose -/

/-- A signature of atomic steps: the steps there are, and what each of them answers. -/
structure Sig where
  /-- The atomic steps. -/
  Op : Type
  /-- The type of a step's answer. -/
  Res : Op → Type

/-- A program over the steps of `S` with results of a given type. -/
inductive Prog (S : Sig) : Type → Type 1 where
  | ret {α : Type} (a : α) : Prog S α
  | step {α : Type} (o : S.Op) (k : S.Res o → Prog S α) : Prog S α
  | loop {α σ β : Type} (body : σ → Prog S (σ ⊕ β)) (s : σ) (k : β → Prog S α) : Prog S α

namespace Prog

variable {S : Sig} {α β γ σ : Type}

/-- Run `p`, then `f` on its result. -/
def bind {α β : Type} : Prog S α → (α → Prog S β) → Prog S β
  | ret a, f => f a
  | step o k, f => step o fun r => (k r).bind f
  | loop body s k, f => loop body s fun b => (k b).bind f

/-- A loop after one more round has been unrolled. -/
def unroll (body : σ → Prog S (σ ⊕ β)) (s : σ) (k : β → Prog S α) : Prog S α :=
  (body s).bind fun
    | .inl s' => loop body s' k
    | .inr b => k b

theorem bind_assoc (p : Prog S α) (f : α → Prog S β) (g : β → Prog S γ) :
    (p.bind f).bind g = p.bind fun a => (f a).bind g := by
  induction p with
  | ret a => rfl
  | step o k ih => exact congrArg (step o) (funext fun r => ih r f)
  | loop body s k _ ih => exact congrArg (loop body s) (funext fun b => ih b f)

theorem bind_ret (p : Prog S α) : p.bind ret = p := by
  induction p with
  | ret a => rfl
  | step o k ih => exact congrArg (step o) (funext ih)
  | loop body s k _ ih => exact congrArg (loop body s) (funext ih)

/-- Continuing after a loop is continuing after its last round. -/
theorem unroll_bind (body : σ → Prog S (σ ⊕ β)) (s : σ) (k : β → Prog S α) (f : α → Prog S γ) :
    (unroll body s k).bind f = unroll body s fun b => (k b).bind f := by
  unfold unroll
  rw [bind_assoc]
  congr 1
  funext x
  cases x <;> rfl

end Prog

/-- A fallible program: it answers a result or an error. -/
def Act (S : Sig) (ε α : Type) : Type 1 := Prog S (Except ε α)

namespace Act

variable {S : Sig} {ε ε' α β σ : Type}

/-- Go on with a result, stop with an error. -/
def andThen (f : α → Act S ε β) : Except ε α → Prog S (Except ε β)
  | .ok a => f a
  | .error e => .ret (.error e)

instance : Monad (Act S ε) where
  pure a := Prog.ret (.ok a)
  bind p f := Prog.bind p (andThen f)

theorem bind_def (p : Act S ε α) (f : α → Act S ε β) : p >>= f = Prog.bind p (andThen f) := rfl

theorem pure_def (a : α) : (pure a : Act S ε α) = Prog.ret (.ok a) := rfl

/-- One step as a fallible program that does not fail. -/
def op (o : S.Op) : Act S ε (S.Res o) := .step o fun r => .ret (.ok r)

/-- Stop with an error. -/
def fail (e : ε) : Act S ε α := .ret (.error e)

/-- Hand on a fallible answer, its error changed by `f`. -/
def lift (f : ε' → ε) : Except ε' α → Act S ε α
  | .ok a => pure a
  | .error e => fail (f e)

/-- Run `p` and hand its outcome on, error or not. -/
def attempt (p : Act S ε α) : Act S ε' (Except ε α) := Prog.bind p fun x => .ret (.ok x)

/-- Run `p`; change its error by `f`. -/
def mapError (f : ε → ε') (p : Act S ε α) : Act S ε' α := Prog.bind p (lift f)

/-- Run `p` and ignore how it ends. -/
def ignore (p : Act S ε α) : Act S ε' Unit := Prog.bind p fun _ => .ret (.ok ())

/-- Run `p`; when it fails, run `clean` and fail as `p` did. -/
def onFail (p : Act S ε α) (clean : Act S ε' Unit) : Act S ε α :=
  Prog.bind p fun
    | .ok a => .ret (.ok a)
    | .error e => Prog.bind clean fun _ => .ret (.error e)

/-- One round of an unbounded `for`: go round again, or leave with a result or an error. -/
def round : Except ε (σ ⊕ β) → Prog S (σ ⊕ Except ε β)
  | .ok (.inl s) => .ret (.inl s)
  | .ok (.inr b) => .ret (.inr (.ok b))
  | .error e => .ret (.inr (.error e))

/-- An unbounded `for` around a fallible body. -/
def forever (body : σ → Act S ε (σ ⊕ β)) (s : σ) : Act S ε β :=
  Prog.loop (fun s => Prog.bind (body s) round) s Prog.ret

/-- A program that never returns. -/
def diverge : Act S ε α := forever (fun _ => pure (.inl ())) ()

end Act

/-! ## Protocols -/

/-- A protocol with knowledge `K`: the steps that may be taken, and what their answers teach. -/
structure Proto (S : Sig) (K : Type) where
  /-- The steps allowed with the knowledge `κ`. -/
  ok : K → S.Op → Prop
  /-- The knowledge after an answer. -/
  next : K → (o : S.Op) → S.Res o → K → Prop

/-- The protocol that allows the steps in `P` and learns nothing. -/
def Proto.only {S : Sig} (P : S.Op → Prop) : Proto S Unit where
  ok _ o := P o
  next _ _ _ _ := True

namespace Prog

variable {S : Sig} {K α β γ σ : Type} {L : Proto S K}

/-- `p`, with knowledge `κ`, keeps to the protocol and returns only in `Q`; a loop does so by an
    invariant of its rounds. -/
def Safe (L : Proto S K) {α : Type} (Q : α → K → Prop) : Prog S α → K → Prop
  | ret a, κ => Q a κ
  | step o k, κ => L.ok κ o ∧ ∀ r κ', L.next κ o r κ' → (k r).Safe L Q κ'
  | loop (σ := σ) body s k, κ => ∃ I : σ → K → Prop, I s κ ∧ ∀ s κ, I s κ →
      (body s).Safe L (fun x κ' => match x with
        | .inl s' => I s' κ'
        | .inr b => (k b).Safe L Q κ') κ

variable {Q : α → K → Prop} {p : Prog S α} {κ : K}

theorem Safe.mono {Q' : α → K → Prop} (hQ : ∀ a κ, Q a κ → Q' a κ) (h : p.Safe L Q κ) :
    p.Safe L Q' κ := by
  induction p generalizing κ with
  | ret a => exact hQ _ _ h
  | step o k ih => exact ⟨h.1, fun r κ' hn => ih r hQ (h.2 r κ' hn)⟩
  | loop body s k ihb ihk =>
    obtain ⟨I, hI, hb⟩ := h
    refine ⟨I, hI, fun s κ hs => ihb s ?_ (hb s κ hs)⟩
    intro x κ' hx
    cases x with
    | inl s' => exact hx
    | inr b => exact ihk b hQ hx

/-- The rule of sequencing. -/
theorem Safe.bind {f : α → Prog S β} {Q : β → K → Prop}
    (h : p.Safe L (fun a κ' => (f a).Safe L Q κ') κ) : (p.bind f).Safe L Q κ := by
  induction p generalizing κ with
  | ret a => exact h
  | step o k ih => exact ⟨h.1, fun r κ' hn => ih r (h.2 r κ' hn)⟩
  | loop body s k _ ihk =>
    obtain ⟨I, hI, hb⟩ := h
    refine ⟨I, hI, fun s κ hs => (hb s κ hs).mono ?_⟩
    intro x κ' hx
    cases x with
    | inl s' => exact hx
    | inr b => exact ihk b hx

/-- A protocol that knows more: a program that keeps to it keeps to the one that forgets. -/
theorem Safe.project {K' : Type} {L' : Proto S K'} (f : K → K')
    (hok : ∀ κ o, L.ok κ o → L'.ok (f κ) o)
    (hnext : ∀ κ o r κ'', L.ok κ o → L'.next (f κ) o r κ'' → ∃ κ', L.next κ o r κ' ∧ f κ' = κ'')
    {Q' : α → K' → Prop} (hQ : ∀ a κ, Q a κ → Q' a (f κ)) (h : p.Safe L Q κ) :
    p.Safe L' Q' (f κ) := by
  induction p generalizing κ with
  | ret a => exact hQ a κ h
  | step o k ih =>
    refine ⟨hok κ o h.1, fun r κ'' hn => ?_⟩
    obtain ⟨κ', hn', rfl⟩ := hnext κ o r κ'' h.1 hn
    exact ih r hQ (h.2 r κ' hn')
  | loop body s k ihb ihk =>
    obtain ⟨I, hI, hb⟩ := h
    refine ⟨fun s κ'' => ∃ κ, f κ = κ'' ∧ I s κ, ⟨κ, rfl, hI⟩, ?_⟩
    rintro s _ ⟨κ, rfl, hs⟩
    refine ihb s ?_ (hb s κ hs)
    intro x κ' hx
    cases x with
    | inl s' => exact ⟨κ', rfl, hx⟩
    | inr b => exact ihk b hQ hx

/-- A safe loop is safe after one more round has been unrolled. -/
theorem Safe.unroll {body : σ → Prog S (σ ⊕ β)} {s : σ} {k : β → Prog S α}
    (h : (loop body s k).Safe L Q κ) : (Prog.unroll body s k).Safe L Q κ := by
  obtain ⟨I, hI, hb⟩ := h
  refine Safe.bind ((hb s κ hI).mono ?_)
  intro x κ' hx
  cases x with
  | inl s' => exact ⟨I, hx, hb⟩
  | inr b => exact hx

end Prog

namespace Act

variable {S : Sig} {K ε ε' α β σ : Type} {L : Proto S K}

/-- Safety of a fallible program. -/
abbrev Safe (L : Proto S K) (Q : Except ε α → K → Prop) (p : Act S ε α) (κ : K) : Prop :=
  Prog.Safe L Q p κ

variable {p : Act S ε α} {κ : K} {Q : Except ε β → K → Prop}

theorem Safe.mono {Q Q' : Except ε α → K → Prop} (hQ : ∀ a κ, Q a κ → Q' a κ) (h : p.Safe L Q κ) :
    p.Safe L Q' κ :=
  Prog.Safe.mono hQ h

/-- The rule of sequencing: what the first part establishes is what the second starts from, and
    an error of the first is an error of the whole. -/
theorem Safe.bind {P : Except ε α → K → Prop} {f : α → Act S ε β} (hp : p.Safe L P κ)
    (hok : ∀ a κ', P (.ok a) κ' → (f a).Safe L Q κ')
    (herr : ∀ e κ', P (.error e) κ' → Q (.error e) κ') : (p >>= f).Safe L Q κ := by
  refine Prog.Safe.bind (Prog.Safe.mono ?_ hp)
  intro x κ' hx
  cases x with
  | ok a => exact hok a κ' hx
  | error e => exact herr e κ' hx

theorem Safe.op_bind {o : S.Op} {f : S.Res o → Act S ε β} (hok : L.ok κ o)
    (h : ∀ r κ', L.next κ o r κ' → (f r).Safe L Q κ') : (op o >>= f).Safe L Q κ :=
  ⟨hok, h⟩

theorem Safe.lift {f : ε' → ε} {x : Except ε' α} {Q : Except ε α → K → Prop}
    (hok : ∀ a, x = .ok a → Q (.ok a) κ) (herr : ∀ e, x = .error e → Q (.error (f e)) κ) :
    (lift f x : Act S ε α).Safe L Q κ := by
  cases x with
  | ok a => exact hok a rfl
  | error e => exact herr e rfl

theorem Safe.lift_bind {f : ε' → ε} {x : Except ε' α} {g : α → Act S ε β}
    (hok : ∀ a, x = .ok a → (g a).Safe L Q κ) (herr : ∀ e, x = .error e → Q (.error (f e)) κ) :
    (Act.lift f x >>= g).Safe L Q κ := by
  cases x with
  | ok a => exact hok a rfl
  | error e => exact herr e rfl

theorem Safe.attempt {P : Except ε α → K → Prop} {Q : Except ε' (Except ε α) → K → Prop}
    (hp : p.Safe L P κ) (h : ∀ x κ', P x κ' → Q (.ok x) κ') :
    (p.attempt : Act S ε' (Except ε α)).Safe L Q κ :=
  Prog.Safe.bind (Prog.Safe.mono h hp)

theorem Safe.mapError {P : Except ε α → K → Prop} {Q : Except ε' α → K → Prop} {f : ε → ε'}
    (hp : p.Safe L P κ) (hok : ∀ a κ', P (.ok a) κ' → Q (.ok a) κ')
    (herr : ∀ e κ', P (.error e) κ' → Q (.error (f e)) κ') : (p.mapError f).Safe L Q κ := by
  refine Prog.Safe.bind (Prog.Safe.mono ?_ hp)
  intro x κ' hx
  cases x with
  | ok a => exact hok a κ' hx
  | error e => exact herr e κ' hx

theorem Safe.ignore {P : Except ε α → K → Prop} {Q : Except ε' Unit → K → Prop} (hp : p.Safe L P κ)
    (h : ∀ x κ', P x κ' → Q (.ok ()) κ') : (p.ignore : Act S ε' Unit).Safe L Q κ :=
  Prog.Safe.bind (Prog.Safe.mono h hp)

/-- The rule of `onFail`: the clean-up runs exactly in the failing case. -/
theorem Safe.onFail {P : Except ε α → K → Prop} {Q : Except ε α → K → Prop} {clean : Act S ε' Unit}
    (hp : p.Safe L P κ) (hok : ∀ a κ', P (.ok a) κ' → Q (.ok a) κ')
    (herr : ∀ e κ', P (.error e) κ' → clean.Safe L (fun _ κ'' => Q (.error e) κ'') κ') :
    (p.onFail clean).Safe L Q κ := by
  refine Prog.Safe.bind (Prog.Safe.mono ?_ hp)
  intro x κ' hx
  cases x with
  | ok a => exact hok a κ' hx
  | error e => exact Prog.Safe.bind (herr e κ' hx)

/-- What a round of a `for` has to establish: the invariant for the next round, or the result. -/
def AfterRound (I : σ → K → Prop) (Q : Except ε β → K → Prop) : Except ε (σ ⊕ β) → K → Prop
  | .ok (.inl s), κ => I s κ
  | .ok (.inr b), κ => Q (.ok b) κ
  | .error e, κ => Q (.error e) κ

/-- The rule of an unbounded `for`. -/
theorem Safe.forever {body : σ → Act S ε (σ ⊕ β)} {s : σ} (I : σ → K → Prop) (hI : I s κ)
    (hb : ∀ s κ, I s κ → (body s).Safe L (AfterRound I Q) κ) : (forever body s).Safe L Q κ := by
  refine ⟨I, hI, fun s κ hs => Prog.Safe.bind (Prog.Safe.mono ?_ (hb s κ hs))⟩
  intro x κ' hx
  rcases x with e | s' | b <;> exact hx

/-- A program that never returns establishes anything. -/
theorem Safe.diverge : (diverge : Act S ε β).Safe L Q κ :=
  Safe.forever (fun _ _ => True) trivial fun _ _ _ => trivial

end Act

/-! ## The steps a program may take at all -/

namespace Prog

variable {S : Sig} {K α β σ : Type} {P P' : S.Op → Prop}

/-- Every step of `p`, whatever the answers, is one of `P`. -/
def Uses (P : S.Op → Prop) (p : Prog S α) : Prop := p.Safe (.only P) (fun _ _ => True) ()

/-- A program that takes only steps which the protocol allows and learns nothing from keeps to the
    protocol, and learns nothing. -/
theorem Safe.of_only {L : Proto S K} {Q : α → Unit → Prop} {p : Prog S α} {κ : K}
    (hp : p.Safe (.only P) Q ()) (hP : ∀ o, P o → L.ok κ o ∧ ∀ r κ', L.next κ o r κ' → κ' = κ) :
    p.Safe L (fun a κ' => κ' = κ ∧ Q a ()) κ := by
  induction p with
  | ret a => exact ⟨rfl, hp⟩
  | step o k ih =>
    refine ⟨(hP o hp.1).1, fun r κ' hn => ?_⟩
    cases (hP o hp.1).2 r κ' hn
    exact ih r (hp.2 r () trivial)
  | loop body s k ihb ihk =>
    obtain ⟨I, hI, hb⟩ := hp
    refine ⟨fun s κ' => κ' = κ ∧ I s (), ⟨rfl, hI⟩, ?_⟩
    rintro s κ' ⟨rfl, hs⟩
    refine Safe.mono ?_ (ihb s (hb s () hs))
    rintro x κ'' ⟨rfl, hx⟩
    cases x with
    | inl s' => exact ⟨rfl, hx⟩
    | inr b => exact ihk b hx

end Prog

namespace Act

variable {S : Sig} {K ε ε' α β σ : Type} {P P' : S.Op → Prop}

/-- The steps of a fallible program. -/
abbrev Uses (P : S.Op → Prop) (p : Act S ε α) : Prop := Prog.Uses P p

variable {p : Act S ε α}

theorem Uses.mono (hP : ∀ o, P o → P' o) (hp : p.Uses P) : p.Uses P' :=
  Prog.Safe.mono (fun _ _ _ => trivial)
    (Prog.Safe.of_only hp fun o ho => ⟨hP o ho, fun _ _ _ => rfl⟩)

theorem Uses.safe {L : Proto S K} {Q : Except ε α → K → Prop} {κ : K} (hp : p.Uses P)
    (hP : ∀ o, P o → L.ok κ o ∧ ∀ r κ', L.next κ o r κ' → κ' = κ) (hQ : ∀ a, Q a κ) :
    p.Safe L Q κ := by
  refine Prog.Safe.mono ?_ (Prog.Safe.of_only hp hP)
  rintro a κ' ⟨rfl, -⟩
  exact hQ a

theorem uses_pure (a : α) : (pure a : Act S ε α).Uses P := trivial

theorem uses_fail (e : ε) : (fail e : Act S ε α).Uses P := trivial

theorem uses_step {o : S.Op} {k : S.Res o → Act S ε α} (ho : P o) (hk : ∀ r, (k r).Uses P) :
    (Prog.step o k : Act S ε α).Uses P :=
  ⟨ho, fun r _ _ => hk r⟩

theorem uses_lift (f : ε' → ε) (x : Except ε' α) : (lift f x : Act S ε α).Uses P := by
  cases x with
  | ok a | error e => trivial

theorem Uses.bind {f : α → Act S ε β} (hp : p.Uses P) (hf : ∀ a, (f a).Uses P) : (p >>= f).Uses P :=
  Safe.bind hp (fun a _ _ => hf a) (fun _ _ _ => trivial)

theorem Uses.mapError {f : ε → ε'} (hp : p.Uses P) : (p.mapError f).Uses P :=
  Safe.mapError hp (fun _ _ _ => trivial) (fun _ _ _ => trivial)

theorem Uses.attempt (hp : p.Uses P) : (p.attempt : Act S ε' (Except ε α)).Uses P :=
  Safe.attempt hp (fun _ _ _ => trivial)

theorem Uses.ignore (hp : p.Uses P) : (p.ignore : Act S ε' Unit).Uses P :=
  Safe.ignore hp (fun _ _ _ => trivial)

theorem Uses.onFail {clean : Act S ε' Unit} (hp : p.Uses P) (hc : clean.Uses P) :
    (p.onFail clean).Uses P :=
  Safe.onFail hp (fun _ _ _ => trivial) (fun _ _ _ => hc)

theorem Uses.forever {body : σ → Act S ε (σ ⊕ β)} {s : σ} (hb : ∀ s, (body s).Uses P) :
    (forever body s).Uses P := by
  refine Safe.forever (fun _ _ => True) trivial fun s κ _ => Safe.mono ?_ (hb s)
  intro x κ' _
  rcases x with e | s' | b <;> trivial

end Act

/-! ## Environments, traces and complete runs -/

/-- What the outside world does: for a choice `c`, the answer to step `o` and the world after it
    (`none` where the world cannot make that choice). -/
abbrev Exec (S : Sig) (C W : Type) := (o : S.Op) → C → W → Option (S.Res o × W)

/-- A step that was taken: the choice made, the answer, and the worlds around it. -/
structure Event (S : Sig) (C W : Type) where
  op : S.Op
  choice : C
  res : S.Res op
  pre : W
  post : W

namespace Prog

variable {S : Sig} {C W : Type} {K α β γ σ : Type} (E : Exec S C W)

/-- `Runs E p w tr a w'`: from world `w`, along the events `tr`, `p` returns `a` in world `w'`. -/
inductive Runs : {α : Type} → Prog S α → W → List (Event S C W) → α → W → Prop where
  | ret {α : Type} (a : α) (w : W) : Runs (ret a) w [] a w
  | step {α : Type} {o : S.Op} {k : S.Res o → Prog S α} {w w1 w' : W} {c : C} {r : S.Res o}
      {tr : List (Event S C W)} {a : α} (h : E o c w = some (r, w1))
      (hk : Runs (k r) w1 tr a w') : Runs (.step o k) w (⟨o, c, r, w, w1⟩ :: tr) a w'
  | loop {α σ β : Type} {body : σ → Prog S (σ ⊕ β)} {s : σ} {k : β → Prog S α} {w w' : W}
      {tr : List (Event S C W)} {a : α} (h : Runs (unroll body s k) w tr a w') :
      Runs (.loop body s k) w tr a w'

/-- The run of `p` in which the outside chooses `ch o` at every step `o`; `fuel` bounds the number
    of steps and rounds. -/
def run (ch : S.Op → C) {α : Type} : Nat → Prog S α → W → Option (α × List (Event S C W) × W)
  | 0, _, _ => none
  | _ + 1, ret a, w => some (a, [], w)
  | fuel + 1, step o k, w =>
    match E o (ch o) w with
    | some (r, w1) =>
      (run ch fuel (k r) w1).map fun x => (x.1, ⟨o, ch o, r, w, w1⟩ :: x.2.1, x.2.2)
    | none => none
  | fuel + 1, loop body s k, w => run ch fuel (unroll body s k) w

/-- The run of `p` in which the outside looks at the world before it chooses. -/
def runIn (ch : W → S.Op → C) {α : Type} : Nat → Prog S α → W → Option (α × List (Event S C W) × W)
  | 0, _, _ => none
  | _ + 1, ret a, w => some (a, [], w)
  | fuel + 1, step o k, w =>
    match E o (ch w o) w with
    | some (r, w1) =>
      (runIn ch fuel (k r) w1).map fun x => (x.1, ⟨o, ch w o, r, w, w1⟩ :: x.2.1, x.2.2)
    | none => none
  | fuel + 1, loop body s k, w => runIn ch fuel (unroll body s k) w

/-- An outside that does not look. -/
theorem run_eq_runIn (ch : S.Op → C) (fuel : Nat) (p : Prog S α) (w : W) :
    run E ch fuel p w = runIn E (fun _ => ch) fuel p w := by
  induction fuel generalizing p w with
  | zero => rfl
  | succ fuel ih =>
    cases p with
    | ret a => rfl
    | step o k =>
      cases hE : E o (ch o) w with
      | none => simp only [run, runIn, hE]
      | some x => simp only [run, runIn, hE, ih]
    | loop body s k => exact ih _ _

variable {E}

variable {p p' : Prog S α} {w w' : W} {tr : List (Event S C W)} {a : α} {b : β}
  {ev : Option (Event S C W)}

/-- A computed run is a run. -/
theorem runs_of_runIn {ch : W → S.Op → C} {fuel : Nat}
    (h : runIn E ch fuel p w = some (a, tr, w')) : Runs E p w tr a w' := by
  induction fuel generalizing p w tr with
  | zero => nomatch h
  | succ fuel ih =>
    match p, h with
    | ret a, h =>
      simp only [runIn, Option.some.injEq, Prod.mk.injEq] at h
      obtain ⟨rfl, rfl, rfl⟩ := h
      exact .ret _ _
    | step o k, h =>
      cases hE : E o (ch w o) w with
      | none => simp [runIn, hE] at h
      | some x =>
        obtain ⟨r, w1⟩ := x
        simp only [runIn, hE, Option.map_eq_some_iff, Prod.mk.injEq] at h
        obtain ⟨⟨a', tr', w''⟩, hrun, rfl, rfl, rfl⟩ := h
        exact .step hE (ih hrun)
    | loop body s k, h => exact .loop (ih h)

theorem runs_of_run {ch : S.Op → C} {fuel : Nat} (h : run E ch fuel p w = some (a, tr, w')) :
    Runs E p w tr a w' := by
  rw [run_eq_runIn] at h
  exact runs_of_runIn h

/-- A computed run whose outcome passes a test. -/
theorem exists_runs_of_runIn (ch : W → S.Op → C) (fuel : Nat) (p : Prog S α) (w : W)
    (T : α × List (Event S C W) × W → Bool) (h : (runIn E ch fuel p w).any T = true) :
    ∃ a tr w', Runs E p w tr a w' ∧ T (a, tr, w') = true := by
  cases hr : runIn E ch fuel p w with
  | none =>
    rw [hr] at h
    nomatch h
  | some x =>
    rw [hr] at h
    exact ⟨x.1, x.2.1, x.2.2, runs_of_runIn hr, h⟩

theorem exists_runs_of_run (ch : S.Op → C) (fuel : Nat) (p : Prog S α) (w : W)
    (T : α × List (Event S C W) × W → Bool) (h : (run E ch fuel p w).any T = true) :
    ∃ a tr w', Runs E p w tr a w' ∧ T (a, tr, w') = true := by
  rw [run_eq_runIn] at h
  exact exists_runs_of_runIn _ fuel p w T h

/-- A run of the first part, then of the second, is a run of the sequence. -/
theorem Runs.bind {w1 : W} {tr1 tr2 : List (Event S C W)} (h1 : Runs E p w tr1 a w1)
    {f : α → Prog S β} (h2 : Runs E (f a) w1 tr2 b w') : Runs E (p.bind f) w (tr1 ++ tr2) b w' := by
  induction h1 with
  | ret a w => exact h2
  | step hE hk ih => exact .step hE (ih h2)
  | loop h ih =>
    refine .loop ?_
    rw [← unroll_bind]
    exact ih h2

/-- A run of a sequence is a run of its first part, then of its second. -/
theorem Runs.bind_inv {f : α → Prog S β} (h : Runs E (p.bind f) w tr b w') :
    ∃ a tr1 tr2 w1, tr = tr1 ++ tr2 ∧ Runs E p w tr1 a w1 ∧ Runs E (f a) w1 tr2 b w' := by
  -- on the run of the whole: a loop in the first part is unrolled, and reassociated
  generalize hq : p.bind f = q at h
  induction h generalizing p with
  | ret b w =>
    cases p with
    | ret a =>
      have hf : f a = .ret b := hq
      exact ⟨a, [], [], w, rfl, .ret a w, hf ▸ .ret b w⟩
    | step o k | loop body s k => nomatch hq
  | @step o k w w1 w' c r tr b hE hk ih =>
    cases p with
    | ret a =>
      have hf : f a = .step o k := hq
      exact ⟨a, [], _, w, rfl, .ret a w, hf ▸ .step hE hk⟩
    | step o' k' =>
      cases hq
      obtain ⟨a, tr1, tr2, w2, rfl, h1, h2⟩ := ih rfl
      exact ⟨a, _ :: tr1, tr2, w2, rfl, .step hE h1, h2⟩
    | loop body s k => nomatch hq
  | @loop σ δ body s k w w' tr b hk ih =>
    cases p with
    | ret a =>
      have hf : f a = .loop body s k := hq
      exact ⟨a, [], _, w, rfl, .ret a w, hf ▸ .loop hk⟩
    | step o k => nomatch hq
    | loop body' s' k' =>
      cases hq
      obtain ⟨a, tr1, tr2, w2, rfl, h1, h2⟩ := ih (unroll_bind _ _ _ _)
      exact ⟨a, tr1, tr2, w2, rfl, .loop h1, h2⟩

/-- The same for fallible programs, where an error of the first part ends the whole. -/
theorem Runs.act_bind_inv {ε : Type} {p : Act S ε α} {f : α → Act S ε β} {out : Except ε β}
    (h : Runs E (p >>= f : Act S ε β) w tr out w') :
    (∃ a tr1 tr2 w1, tr = tr1 ++ tr2 ∧ Runs E p w tr1 (.ok a) w1 ∧ Runs E (f a) w1 tr2 out w') ∨
    (∃ e, out = .error e ∧ Runs E p w tr (.error e) w') := by
  obtain ⟨x, tr1, tr2, w1, rfl, h1, h2⟩ := Runs.bind_inv h
  cases x with
  | ok a => exact Or.inl ⟨a, tr1, tr2, w1, rfl, h1, h2⟩
  | error e =>
    cases h2 with
    | ret _ _ => exact Or.inr ⟨e, rfl, by simpa using h1⟩

/-- A sequence that succeeds has succeeded in both parts. -/
theorem Runs.act_bind_ok {ε : Type} {p : Act S ε α} {f : α → Act S ε β}
    (h : Runs E (p >>= f : Act S ε β) w tr (.ok b) w') :
    ∃ a tr1 tr2 w1, tr = tr1 ++ tr2 ∧ Runs E p w tr1 (.ok a) w1 ∧
      Runs E (f a) w1 tr2 (.ok b) w' := by
  rcases h.act_bind_inv with h | ⟨e, hx, -⟩
  · exact h
  · nomatch hx

/-- An event of a sequence belongs to its first part or to its second. -/
theorem Runs.mem_bind {ε : Type} {p : Act S ε α} {f : α → Act S ε β} {out : Except ε β}
    (h : Runs E (p >>= f : Act S ε β) w tr out w') {ev : Event S C W} (hev : ev ∈ tr) :
    (∃ tr1 tr2 x w1, tr = tr1 ++ tr2 ∧ ev ∈ tr1 ∧ Runs E p w tr1 x w1) ∨
    (∃ tr1 tr2 a w1, tr = tr1 ++ tr2 ∧ ev ∈ tr2 ∧ Runs E p w tr1 (.ok a) w1 ∧
      Runs E (f a) w1 tr2 out w') := by
  rcases h.act_bind_inv with ⟨a, tr1, tr2, w1, rfl, h1, h2⟩ | ⟨e, rfl, h1⟩
  · rcases List.mem_append.mp hev with hev | hev
    · exact Or.inl ⟨tr1, tr2, _, w1, rfl, hev, h1⟩
    · exact Or.inr ⟨tr1, tr2, a, w1, rfl, hev, h1, h2⟩
  · exact Or.inl ⟨tr, [], _, w', by simp, hev, h1⟩

theorem Runs.ret_inv {b : α} (h : Runs E (.ret a) w tr b w') : b = a ∧ tr = [] ∧ w' = w := by
  cases h
  exact ⟨rfl, rfl, rfl⟩

theorem Runs.step_inv {o : S.Op} {k : S.Res o → Prog S α} (h : Runs E (.step o k) w tr a w') :
    ∃ c r w1 tr', tr = ⟨o, c, r, w, w1⟩ :: tr' ∧ E o c w = some (r, w1) ∧
      Runs E (k r) w1 tr' a w' := by
  cases h with
  | step hE hk => exact ⟨_, _, _, _, rfl, hE, hk⟩

/-- All that one operation does is the operation. -/
theorem Runs.mem_step {o : S.Op} {f : S.Res o → α} (h : Runs E (.step o fun r => .ret (f r)) w tr a w')
    {ev : Event S C W} (hev : ev ∈ tr) : ev.op = o := by
  obtain ⟨c, r, w1, tr', rfl, -, hret⟩ := h.step_inv
  obtain ⟨-, rfl, -⟩ := hret.ret_inv
  rw [List.mem_singleton.mp hev]

/-- After a check comes the rest, unless the check fails. -/
theorem Runs.lift_bind_inv {ε ε' : Type} {f : ε' → ε} {x : Except ε' α} {g : α → Act S ε β}
    {out : Except ε β} (h : Runs E (Act.lift f x >>= g : Act S ε β) w tr out w') :
    (∃ a, x = .ok a ∧ Runs E (g a) w tr out w') ∨
    (∃ e, x = .error e ∧ out = .error (f e) ∧ tr = [] ∧ w' = w) := by
  cases x with
  | ok a => exact Or.inl ⟨a, rfl, h⟩
  | error e =>
    obtain ⟨rfl, rfl, rfl⟩ := Runs.ret_inv h
    exact Or.inr ⟨e, rfl, rfl, rfl, rfl⟩

theorem Runs.attempt {ε ε' : Type} {p : Act S ε α} {x : Except ε α} (h : Runs E p w tr x w') :
    Runs E (p.attempt : Act S ε' (Except ε α)) w tr (.ok x) w' := by
  have hall : Runs E (p.attempt : Act S ε' (Except ε α)) w (tr ++ []) (.ok x) w' :=
    Runs.bind h (.ret _ w')
  rwa [List.append_nil] at hall

/-- An attempt runs as the program does, and does not fail. -/
theorem Runs.attempt_inv {ε ε' : Type} {p : Act S ε α} {out : Except ε' (Except ε α)}
    (h : Runs E p.attempt w tr out w') : ∃ x, out = .ok x ∧ Runs E p w tr x w' := by
  obtain ⟨x, tr1, tr2, w1, rfl, h1, h2⟩ := Runs.bind_inv h
  obtain ⟨rfl, rfl, rfl⟩ := h2.ret_inv
  exact ⟨x, rfl, by simpa using h1⟩

/-- A program runs the same whatever becomes of its error. -/
theorem Runs.mapError_inv {ε ε' : Type} {f : ε → ε'} {p : Act S ε α} {out : Except ε' α}
    (h : Runs E (p.mapError f) w tr out w') : ∃ x, Runs E p w tr x w' ∧ out = x.mapError f := by
  obtain ⟨x, tr1, tr2, w1, rfl, h1, h2⟩ := Runs.bind_inv h
  cases x with
  | ok a =>
    obtain ⟨rfl, rfl, rfl⟩ := Runs.ret_inv h2
    exact ⟨.ok a, by simpa using h1, rfl⟩
  | error e =>
    obtain ⟨rfl, rfl, rfl⟩ := Runs.ret_inv h2
    exact ⟨.error e, by simpa using h1, rfl⟩

/-- The same for a program whose result is changed. -/
theorem Runs.map_inv {ε : Type} {f : α → β} {p : Act S ε α} {out : Except ε β}
    (h : Runs E (p >>= fun a => pure (f a) : Act S ε β) w tr out w') :
    ∃ x, Runs E p w tr x w' ∧ out = x.map f := by
  rcases h.act_bind_inv with ⟨a, tr1, tr2, w1, rfl, h1, h2⟩ | ⟨e, rfl, h1⟩
  · obtain ⟨rfl, rfl, rfl⟩ := Runs.ret_inv h2
    exact ⟨.ok a, by simpa using h1, rfl⟩
  · exact ⟨.error e, h1, rfl⟩

/-- A program that succeeds is not cleaned up after; one that fails is, and its error stays. -/
theorem Runs.onFail_inv {ε ε' : Type} {p : Act S ε α} {clean : Act S ε' Unit} {out : Except ε α}
    (h : Runs E (p.onFail clean) w tr out w') : (∃ a, out = .ok a ∧ Runs E p w tr (.ok a) w') ∨
    (∃ e tr1 tr2 w1 x, out = .error e ∧ tr = tr1 ++ tr2 ∧ Runs E p w tr1 (.error e) w1 ∧
      Runs E clean w1 tr2 x w') := by
  obtain ⟨x, tr1, tr2, w1, rfl, h1, h2⟩ := Runs.bind_inv h
  cases x with
  | ok a =>
    obtain ⟨rfl, rfl, rfl⟩ := Runs.ret_inv h2
    exact Or.inl ⟨a, rfl, by simpa using h1⟩
  | error e =>
    obtain ⟨x, tr3, tr4, w2, rfl, h3, h4⟩ := Runs.bind_inv h2
    obtain ⟨rfl, rfl, rfl⟩ := h4.ret_inv
    exact Or.inr ⟨e, tr1, tr3, w1, x, rfl, by simp, h1, h3⟩

/-- Every event of a run is an answer of the environment. -/
theorem Runs.valid (h : Runs E p w tr a w') :
    ∀ ev ∈ tr, E ev.op ev.choice ev.pre = some (ev.res, ev.post) := by
  induction h with
  | ret a w => intro ev hev; nomatch hev
  | step hE hk ih =>
    intro ev hev
    rcases List.mem_cons.mp hev with rfl | hev
    · exact hE
    · exact ih ev hev
  | loop h ih => exact ih

/-- A relation that every event of a trace respects holds between the two ends of the run. -/
theorem Runs.induct (h : Runs E p w tr a w') (I : W → W → Prop) (hrefl : ∀ w, I w w)
    (htrans : ∀ a b c, I a b → I b c → I a c) (hstep : ∀ ev ∈ tr, I ev.pre ev.post) : I w w' := by
  induction h with
  | ret a w => exact hrefl w
  | step hE hk ih =>
    refine htrans _ _ _ (hstep _ (List.mem_cons_self ..)) (ih ?_)
    exact fun ev hev => hstep ev (List.mem_cons_of_mem _ hev)
  | loop h ih => exact ih hstep

/-- **A safe program alone**: where the protocol's knowledge stays true of the world (`R`), every
    run ends in `Q` and every event on the way was allowed. -/
theorem Runs.safe {L : Proto S K} {R : K → W → Prop} {Q : α → K → Prop} {κ : K}
    (hsim : ∀ κ o c w r w', R κ w → L.ok κ o → E o c w = some (r, w') →
      ∃ κ', L.next κ o r κ' ∧ R κ' w') (h : Runs E p w tr a w') (hp : p.Safe L Q κ) (hκ : R κ w) :
    (∃ κ', Q a κ' ∧ R κ' w') ∧ ∀ ev ∈ tr, ∃ κ, R κ ev.pre ∧ L.ok κ ev.op := by
  induction h generalizing κ with
  | ret a w => exact ⟨⟨κ, hp, hκ⟩, nofun⟩
  | step hE hk ih =>
    obtain ⟨κ', hn, hκ'⟩ := hsim _ _ _ _ _ _ hκ hp.1 hE
    obtain ⟨hend, hevs⟩ := ih (hp.2 _ _ hn) hκ'
    refine ⟨hend, fun ev hev => ?_⟩
    rcases List.mem_cons.mp hev with rfl | hev
    · exact ⟨κ, hκ, hp.1⟩
    · exact hevs ev hev
  | loop h ih => exact ih hp.unroll hκ

/-- The events of a run are steps that the program may take. -/
theorem Runs.uses {P : S.Op → Prop} (h : Runs E p w tr a w') (hp : p.Uses P) :
    ∀ ev ∈ tr, P ev.op := by
  obtain ⟨-, hevs⟩ := Runs.safe (R := fun _ _ => True)
    (fun _ _ _ _ _ _ _ _ _ => ⟨(), trivial, trivial⟩) h hp trivial
  exact fun ev hev => (hevs ev hev).elim fun _ hk => hk.2

/-! ## Among others: one move at a time -/

variable (E)

/-- One move of a running program: an atomic step, with its event, or a silent new round. -/
inductive Move : Prog S α → W → Option (Event S C W) → Prog S α → W → Prop where
  | step {o : S.Op} {k : S.Res o → Prog S α} {w w' : W} {c : C} {r : S.Res o}
      (h : E o c w = some (r, w')) : Move (.step o k) w (some ⟨o, c, r, w, w'⟩) (k r) w'
  | loop {σ β : Type} {body : σ → Prog S (σ ⊕ β)} {s : σ} {k : β → Prog S α} {w : W} :
      Move (.loop body s k) w none (unroll body s k) w

/-- Any number of moves. -/
def Moves : Prog S α × W → Prog S α × W → Prop :=
  Relation.ReflTransGen fun x y => ∃ ev, Move E x.1 x.2 ev y.1 y.2

variable {E}

/-- A run of the first part of a program moves the program to its second part. -/
theorem Runs.moves (h : Runs E p w tr a w') (f : α → Prog S β) :
    Moves E (p.bind f, w) (f a, w') := by
  revert f
  induction h with
  | ret a w => exact fun f => .refl
  | @step o k w w1 w' c r tr a hE hk ih =>
    intro f
    have hmove : Move E ((Prog.step o k).bind f) w (some ⟨o, c, r, w, w1⟩) ((k r).bind f) w1 :=
      .step hE
    exact .head ⟨_, hmove⟩ (ih f)
  | @loop _ _ body s k w w' tr a hk ih =>
    intro f
    have hround : Move E ((Prog.loop body s k).bind f) w none ((unroll body s k).bind f) w := by
      rw [unroll_bind]
      exact .loop
    exact .head ⟨_, hround⟩ (ih f)

/-- A complete run moves the program to its result. -/
theorem Runs.moves_ret (h : Runs E p w tr a w') : Moves E (p, w) (Prog.ret a, w') := by
  have hmoves := h.moves Prog.ret
  rwa [bind_ret] at hmoves

/-- A round of a `for` that goes on leads from the head of the loop to the head of the loop. -/
theorem Runs.forever_round {ε : Type} {body : σ → Act S ε (σ ⊕ β)} {s s' : σ}
    (h : Runs E (body s) w tr (.ok (.inl s')) w') :
    Moves E (Act.forever body s, w) (Act.forever body s', w') := by
  have hhead : Move E (Act.forever body s) w none
      (unroll (fun s => Prog.bind (body s) Act.round) s Prog.ret) w := .loop
  have hround : Runs E (Prog.bind (body s) Act.round) w (tr ++ []) (.inl s') w' :=
    Runs.bind h (.ret _ w')
  exact .head (b := (unroll (fun s => Prog.bind (body s) Act.round) s Prog.ret, w)) ⟨none, hhead⟩
    (hround.moves _)

/-- **A safe program among others** takes only allowed steps, and what is left of it is safe with
    whatever the answer teaches. -/
theorem Safe.move {L : Proto S K} {Q : α → K → Prop} {κ : K} (hp : p.Safe L Q κ)
    (h : Move E p w ev p' w') : (ev = none ∧ w' = w ∧ p'.Safe L Q κ) ∨
    ∃ o c r, ev = some ⟨o, c, r, w, w'⟩ ∧ E o c w = some (r, w') ∧ L.ok κ o ∧
      ∀ κ', L.next κ o r κ' → p'.Safe L Q κ' := by
  cases h with
  | step hE => exact Or.inr ⟨_, _, _, rfl, hE, hp.1, fun κ' hn => hp.2 _ κ' hn⟩
  | loop => exact Or.inl ⟨rfl, rfl, hp.unroll⟩

/-- A program without loops. -/
def Straight : Prog S α → Prop
  | ret _ => True
  | step _ k => ∀ r, (k r).Straight
  | loop _ _ _ => False

/-- It makes no silent moves, and what is left of it has no loops either. -/
theorem Straight.move (hp : p.Straight) (h : Move E p w ev p' w') : p'.Straight ∧ ev ≠ none := by
  cases h with
  | step hE => exact ⟨hp _, nofun⟩
  | loop => exact hp.elim

/-- What is left of a program takes only the steps that the program may take. -/
theorem Uses.move {P : S.Op → Prop} (hp : p.Uses P) (h : Move E p w ev p' w') :
    p'.Uses P ∧ (w' = w ∨ ∃ o c r, P o ∧ E o c w = some (r, w')) := by
  rcases Safe.move hp h with ⟨-, rfl, hp'⟩ | ⟨o, c, r, -, hE, ho, hp'⟩
  · exact ⟨hp', Or.inl rfl⟩
  · exact ⟨hp' () trivial, Or.inr ⟨o, c, r, ho, hE⟩⟩

end Prog

end Lib
