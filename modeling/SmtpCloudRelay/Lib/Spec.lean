/-
  SPECIFICATIONS OF FALLIBLE PROGRAMS: what is known when they succeed.

  Most of what there is to say about a program that may fail at every step is what holds when it does
  NOT fail.  `Gives Q` is the postcondition that speaks about success only; with it the rule of
  sequencing has one premise for each part (`Safe.gives_bind`), and a clean-up that runs on failure
  has to be allowed and nothing else (`Safe.gives_onFail`).

  A program that only asks has a second description: its value `eval` when every question is answered
  by a fixed table.  It is what every run returns that was answered by the table (`Runs.eval`), and
  such a run exists (`exists_runs_of_eval`).

  The last sections carry statements over to runs: of which only some choices are allowed
  (`Runs.safe_allowed`), and runs that have not ended yet (`Moves.safe`); and they find the round of a
  loop that an event belongs to (`Runs.mem_forever`).
-/
import SmtpCloudRelay.Lib.Prog

namespace Lib

open List

namespace Act

variable {S : Sig} {K ε ε' α β : Type} {L : Proto S K}

/-! ## Success -/

/-- `Q` of the result, when there is one. -/
def Gives (Q : α → K → Prop) : Except ε α → K → Prop
  | .ok a, κ => Q a κ
  | .error _, _ => True

variable {p : Act S ε α} {κ : K}

theorem Safe.gives_mono {P Q : α → K → Prop} (h : ∀ a κ', P a κ' → Q a κ')
    (hp : p.Safe L (Gives P) κ) : p.Safe L (Gives Q) κ := by
  refine Safe.mono ?_ hp
  intro out κ' hout
  cases out with
  | ok a => exact h a κ' hout
  | error e => trivial

/-- The rule of sequencing, for success. -/
theorem Safe.gives_bind {P : α → K → Prop} {Q : β → K → Prop} {f : α → Act S ε β}
    (hp : p.Safe L (Gives P) κ) (hf : ∀ a κ', P a κ' → (f a).Safe L (Gives Q) κ') :
    (p >>= f).Safe L (Gives Q) κ :=
  Safe.bind hp hf fun _ _ _ => trivial

theorem Safe.gives_mapError {Q : α → K → Prop} {f : ε → ε'} (hp : p.Safe L (Gives Q) κ) :
    (p.mapError f).Safe L (Gives Q) κ :=
  Safe.mapError hp (fun _ _ h => h) fun _ _ _ => trivial

theorem Safe.gives_onFail {Q : α → K → Prop} {clean : Act S ε' Unit} (hp : p.Safe L (Gives Q) κ)
    (hc : ∀ κ', clean.Safe L (fun _ _ => True) κ') : (p.onFail clean).Safe L (Gives Q) κ :=
  Safe.onFail hp (fun _ _ h => h) fun _ κ' _ => hc κ'

/-- An attempt, and then the rest with its outcome. -/
theorem Safe.gives_attempt_bind {P : Except ε α → K → Prop} {Q : β → K → Prop}
    {f : Except ε α → Act S ε' β} (hp : p.Safe L P κ)
    (hf : ∀ x κ', P x κ' → (f x).Safe L (Gives Q) κ') :
    ((p.attempt : Act S ε' (Except ε α)) >>= f).Safe L (Gives Q) κ := by
  refine Safe.gives_bind (P := P) (Safe.attempt hp fun x κ' h => h) hf

/-- A check that passes leaves things as they are. -/
theorem Safe.gives_lift_bind {f : ε' → ε} {x : Except ε' α} {g : α → Act S ε β} {Q : β → K → Prop}
    (h : ∀ a, x = .ok a → (g a).Safe L (Gives Q) κ) : (Act.lift f x >>= g).Safe L (Gives Q) κ :=
  Safe.lift_bind h fun _ _ => trivial

end Act

namespace Prog

variable {S : Sig} {K α : Type} {L : Proto S K} {P : S.Op → Prop}

/-- A program whose steps are allowed with any knowledge keeps every property of the knowledge that
    its steps keep. -/
theorem Uses.keeps {p : Prog S α} (hp : p.Uses P) {I : K → Prop} (hok : ∀ κ o, P o → I κ → L.ok κ o)
    (hI : ∀ κ o r κ', P o → I κ → L.next κ o r κ' → I κ') {κ : K} (hκ : I κ) :
    p.Safe L (fun _ κ' => I κ') κ := by
  have hgen : ∀ {Q : α → Unit → Prop} {κ : K}, p.Safe (.only P) Q () → I κ →
      p.Safe L (fun a κ' => I κ' ∧ Q a ()) κ := by
    clear hp hκ
    induction p with
    | ret a => exact fun hQ hκ => ⟨hκ, hQ⟩
    | step o k ih =>
      intro Q κ hp hκ
      refine ⟨hok κ o hp.1 hκ, fun r κ' hn => ?_⟩
      exact ih r (hp.2 r () trivial) (hI κ o r κ' hp.1 hκ hn)
    | loop body s k ihb ihk =>
      rintro Q κ ⟨J, hJ, hb⟩ hκ
      refine ⟨fun s κ' => I κ' ∧ J s (), ⟨hκ, hJ⟩, ?_⟩
      rintro s κ' ⟨hκ', hs⟩
      refine Safe.mono ?_ (ihb s (hb s () hs) hκ')
      rintro x κ'' ⟨hκ'', hx⟩
      cases x with
      | inl s' => exact ⟨hκ'', hx⟩
      | inr b => exact ihk b hx hκ''
  exact Safe.mono (fun _ _ h => h.1) (hgen hp hκ)

/-! ## The value of a program that only asks -/

/-- The value of a program without loops when its steps are answered by a table. -/
def eval (ans : (o : S.Op) → Option (S.Res o)) {α : Type} : Prog S α → Option α
  | ret a => some a
  | step o k => (ans o).bind fun r => (k r).eval ans
  | loop _ _ _ => none

theorem eval_bind (ans : (o : S.Op) → Option (S.Res o)) {β : Type} (p : Prog S α)
    (f : α → Prog S β) : (p.bind f).eval ans = (p.eval ans).bind fun a => (f a).eval ans := by
  induction p with
  | ret a => rfl
  | step o k ih =>
    show (ans o).bind (fun r => ((k r).bind f).eval ans) = _
    rw [show (step o k).eval ans = (ans o).bind fun r => (k r).eval ans from rfl, Option.bind_assoc]
    exact congrArg _ (funext fun r => ih r f)
  | loop body s k _ _ => rfl

/-- The value depends on the answers to the program's own questions only. -/
theorem Uses.eval_congr {ans ans' : (o : S.Op) → Option (S.Res o)} {p : Prog S α} (hp : p.Uses P)
    (h : ∀ o, P o → ans o = ans' o) : p.eval ans = p.eval ans' := by
  have hgen : ∀ {Q : α → Unit → Prop}, p.Safe (.only P) Q () → p.eval ans = p.eval ans' := by
    clear hp
    induction p with
    | ret a => exact fun _ => rfl
    | step o k ih =>
      intro Q hp
      show (ans o).bind _ = (ans' o).bind _
      rw [h o hp.1]
      exact congrArg _ (funext fun r => ih r (hp.2 r () trivial))
    | loop body s k _ _ => exact fun _ => rfl
  exact hgen hp

theorem eval_bind_of {ans : (o : S.Op) → Option (S.Res o)} {β : Type} {p : Prog S α} {a : α}
    (h : p.eval ans = some a) (f : α → Prog S β) : (p.bind f).eval ans = (f a).eval ans := by
  rw [eval_bind, h]
  rfl

theorem eval_bind_of_none {ans : (o : S.Op) → Option (S.Res o)} {β : Type} {p : Prog S α}
    (h : p.eval ans = none) (f : α → Prog S β) : (p.bind f).eval ans = none := by
  rw [eval_bind, h]
  rfl

end Prog

namespace Act

variable {S : Sig} {K ε ε' α β : Type} {L : Proto S K}

/-- The value of a fallible program. -/
abbrev eval (ans : (o : S.Op) → Option (S.Res o)) (p : Act S ε α) : Option (Except ε α) :=
  Prog.eval ans p

section Eval

variable {ans : (o : S.Op) → Option (S.Res o)}

/-- When the first part succeeds, the value is that of the second. -/
theorem eval_bind_ok {p : Act S ε α} {f : α → Act S ε β} {a : α} (h : p.eval ans = some (.ok a)) :
    (p >>= f).eval ans = (f a).eval ans :=
  Prog.eval_bind_of h (andThen f)

theorem eval_bind_error {p : Act S ε α} {f : α → Act S ε β} {e : ε}
    (h : p.eval ans = some (.error e)) : (p >>= f).eval ans = some (.error e) :=
  Prog.eval_bind_of h (andThen f)

theorem eval_mapError_ok {f : ε → ε'} {p : Act S ε α} {a : α} (h : p.eval ans = some (.ok a)) :
    (p.mapError f).eval ans = some (.ok a) :=
  Prog.eval_bind_of h (lift f)

theorem eval_mapError_error {f : ε → ε'} {p : Act S ε α} {e : ε}
    (h : p.eval ans = some (.error e)) : (p.mapError f).eval ans = some (.error (f e)) :=
  Prog.eval_bind_of h (lift f)

theorem eval_bind_none {p : Act S ε α} {f : α → Act S ε β} (h : p.eval ans = none) :
    (p >>= f).eval ans = none :=
  Prog.eval_bind_of_none h (andThen f)

theorem eval_mapError_none {f : ε → ε'} {p : Act S ε α} (h : p.eval ans = none) :
    (p.mapError f).eval ans = none :=
  Prog.eval_bind_of_none h (lift f)

end Eval

end Act

/-! ## Runs -/

namespace Prog

variable {S : Sig} {C W K α : Type} {E : Exec S C W} {L : Proto S K} {R : K → W → Prop}
variable {Q : α → K → Prop}

variable {p : Prog S α} {w w' : W} {tr : List (Event S C W)} {a : α}

/-- A run that was answered by a table returns the value. -/
theorem Runs.eval {ans : (o : S.Op) → Option (S.Res o)} (h : Runs E p w tr a w')
    (hp : p.Straight) (hans : ∀ ev ∈ tr, ans ev.op = some ev.res) : p.eval ans = some a := by
  induction h with
  | ret a w => rfl
  | @step o k w w1 w' c r tr a hE hk ih =>
    have hr : ans o = some r := hans _ (mem_cons_self ..)
    show (ans o).bind _ = _
    rw [hr]
    exact ih (hp r) fun ev hev => hans ev (mem_cons_of_mem _ hev)
  | loop h ih => exact hp.elim

/-- A run that is answered by a table, where the table's answers are possible and change nothing. -/
theorem exists_runs_of_eval {ans : (o : S.Op) → Option (S.Res o)} {ch : S.Op → C}
    (hans : ∀ o r, ans o = some r → E o (ch o) w = some (r, w)) (h : p.eval ans = some a) :
    ∃ tr, Runs E p w tr a w ∧ ∀ ev ∈ tr, ev.choice = ch ev.op := by
  induction p with
  | ret b =>
    cases h
    exact ⟨[], .ret _ w, nofun⟩
  | step o k ih =>
    obtain ⟨r, hr, hk⟩ := Option.bind_eq_some_iff.mp (show (ans o).bind _ = _ from h)
    obtain ⟨tr, hrun, htr⟩ := ih r hk
    refine ⟨_, .step (hans o r hr) hrun, fun ev hev => ?_⟩
    rcases mem_cons.mp hev with rfl | hev
    · rfl
    · exact htr ev hev
  | loop body s k _ _ => nomatch h

/-- **A safe program alone, with an outside that makes only some choices.** -/
theorem Runs.safe_allowed {A : S.Op → C → Prop}
    (hsim : ∀ κ o c w r w', R κ w → L.ok κ o → A o c → E o c w = some (r, w') →
      ∃ κ', L.next κ o r κ' ∧ R κ' w') {κ : K} (h : Runs E p w tr a w')
    (hA : ∀ ev ∈ tr, A ev.op ev.choice) (hp : p.Safe L Q κ) (hκ : R κ w) :
    ∃ κ', Q a κ' ∧ R κ' w' := by
  induction h generalizing κ with
  | ret a w => exact ⟨κ, hp, hκ⟩
  | step hE hk ih =>
    obtain ⟨κ', hn, hκ'⟩ := hsim _ _ _ _ _ _ hκ hp.1 (hA _ (mem_cons_self ..)) hE
    exact ih (fun ev hev => hA ev (mem_cons_of_mem _ hev)) (hp.2 _ _ hn) hκ'
  | loop h ih => exact ih hA hp.unroll hκ

/-- **A safe program that has been stopped anywhere.** -/
theorem Moves.safe
    (hsim : ∀ κ o c w r w', R κ w → L.ok κ o → E o c w = some (r, w') →
      ∃ κ', L.next κ o r κ' ∧ R κ' w')
    {x y : Prog S α × W} (h : Moves E x y) {κ : K} (hp : x.1.Safe L Q κ) (hκ : R κ x.2) :
    ∃ κ', y.1.Safe L Q κ' ∧ R κ' y.2 := by
  induction h with
  | refl => exact ⟨κ, hp, hκ⟩
  | @tail y z _ hmove ih =>
    obtain ⟨κ1, hp1, hκ1⟩ := ih
    obtain ⟨ev, hmove⟩ := hmove
    rcases Safe.move hp1 hmove with ⟨-, hw, hp2⟩ | ⟨o, c, r, -, hE, hok, hp2⟩
    · rw [hw]
      exact ⟨κ1, hp2, hκ1⟩
    · obtain ⟨κ2, hn, hκ2⟩ := hsim _ _ _ _ _ _ hκ1 hok hE
      exact ⟨κ2, hp2 κ2 hn, hκ2⟩

/-! ## Rounds of a loop -/

variable {σ β : Type}

/-- What a loop does after a round. -/
def afterRound (body : σ → Prog S (σ ⊕ β)) : σ ⊕ β → Prog S β
  | .inl s => loop body s ret
  | .inr b => ret b

theorem unroll_eq (body : σ → Prog S (σ ⊕ β)) (s : σ) :
    unroll body s ret = (body s).bind (afterRound body) := by
  unfold unroll
  congr 1
  funext x
  cases x <;> rfl

/-- An event of a loop belongs to a round of it: to the round `q` that is going on, or to a later one. -/
theorem Runs.mem_rounds {body : σ → Prog S (σ ⊕ β)} {q : Prog S (σ ⊕ β)} {b : β}
    (h : Runs E (q.bind (afterRound body)) w tr b w') {ev : Event S C W} (hev : ev ∈ tr) :
    (∃ tr1 tr2 x w1, tr = tr1 ++ tr2 ∧ ev ∈ tr1 ∧ Runs E q w tr1 x w1) ∨
    ∃ s tr1 tr2 tr3 x w1 w2, tr = tr1 ++ (tr2 ++ tr3) ∧ ev ∈ tr2 ∧ Runs E (body s) w1 tr2 x w2 := by
  -- on the run of the whole; `q` is what is left of the round
  generalize hp : q.bind (afterRound body) = p at h
  induction h generalizing q with
  | ret b w => nomatch hev
  | @step o k w w1 w' c r tr b hE hk ih =>
    cases q with
    | ret x =>
      cases x with
      | inl s | inr b => nomatch hp
    | loop body' s' k' => nomatch hp
    | step o' k' =>
      cases hp
      rcases mem_cons.mp hev with rfl | hev
      · obtain ⟨x, tr1, tr2, w2, rfl, h1, -⟩ := hk.bind_inv
        exact Or.inl ⟨_ :: tr1, tr2, x, w2, rfl, mem_cons_self .., .step hE h1⟩
      · rcases ih hev rfl with ⟨tr1, tr2, x, w2, rfl, hev, h1⟩ |
          ⟨s, tr1, tr2, tr3, x, w2, w3, rfl, hev, h1⟩
        · exact Or.inl ⟨_ :: tr1, tr2, x, w2, rfl, mem_cons_of_mem _ hev, .step hE h1⟩
        · exact Or.inr ⟨s, _ :: tr1, tr2, tr3, x, w2, w3, rfl, hev, h1⟩
  | @loop σ' β' body' s' k' w w' tr b hk ih =>
    cases q with
    | ret x =>
      cases x with
      | inr b => nomatch hp
      | inl s =>
        -- the next round begins
        cases hp
        rcases ih hev (unroll_eq body s).symm with ⟨tr1, tr2, x, w2, rfl, hev, h1⟩ | hlater
        · exact Or.inr ⟨s, [], tr1, tr2, x, w, w2, rfl, hev, h1⟩
        · exact Or.inr hlater
    | step o k => nomatch hp
    | loop body1 s1 k1 =>
      cases hp
      rcases ih hev (unroll_bind _ _ _ _) with ⟨tr1, tr2, x, w2, rfl, hev, h1⟩ | hlater
      · exact Or.inl ⟨tr1, tr2, x, w2, rfl, hev, .loop h1⟩
      · exact Or.inr hlater

/-- **An event of an unbounded `for` belongs to a run of its body.** -/
theorem Runs.mem_forever {ε : Type} {body : σ → Act S ε (σ ⊕ β)} {s : σ} {out : Except ε β}
    (h : Runs E (Act.forever body s) w tr out w') {ev : Event S C W} (hev : ev ∈ tr) :
    ∃ s' tr1 tr2 tr3 x w1 w2, tr = tr1 ++ (tr2 ++ tr3) ∧ ev ∈ tr2 ∧ Runs E (body s') w1 tr2 x w2 := by
  have hround : ∀ {s' : σ} {w1 w2 : W} {tr2 : List (Event S C W)} {x : σ ⊕ Except ε β},
      Runs E (Prog.bind (body s') Act.round) w1 tr2 x w2 → ∃ y, Runs E (body s') w1 tr2 y w2 := by
    intro s' w1 w2 tr2 x hx
    obtain ⟨y, tr3, tr4, w3, rfl, hy, hret⟩ := hx.bind_inv
    rcases y with e | s' | b
    all_goals
      obtain ⟨-, rfl, rfl⟩ := hret.ret_inv
      exact ⟨_, by simpa using hy⟩
  rcases Runs.mem_rounds (q := Prog.ret (.inl s)) h hev with ⟨tr1, tr2, x, w1, -, hev, hret⟩ |
    ⟨s', tr1, tr2, tr3, x, w1, w2, rfl, hev, hx⟩
  · obtain ⟨-, rfl, -⟩ := hret.ret_inv
    nomatch hev
  · obtain ⟨y, hy⟩ := hround hx
    exact ⟨s', tr1, tr2, tr3, y, w1, w2, rfl, hev, hy⟩

end Prog

end Lib
