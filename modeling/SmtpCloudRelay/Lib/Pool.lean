/-
  POOLS OF PROGRAMS: any number of programs of one kind that share a world.

  A thread of a pool is a program with a TAG (what it was started for) and the trace of the events it
  has taken so far.  A new thread may start at any moment, and one move of the pool is one move of
  one thread, so every interleaving is a run.  A thread that has returned stays in the pool as its
  result, so that a statement can speak about what it answered.

  A protocol whose knowledge is COMPUTED from the answers (`Rules`) makes the knowledge of a thread a
  function of its trace.  Three rules carry statements about one program over to all pools:

  * `Pool.safe`: every thread keeps to its protocol, with what its own trace has taught it;
  * `Pool.knows_of_step`: what one answer keeps true of a thread's knowledge is always true of it;
  * `Pool.accounts`: a resource of the world that every step changes by what the stepping thread then
    holds more or less, is at every moment the sum of what the threads hold.

  A list of plays gives a run that can be computed (`reaches_of_play`).
-/
import SmtpCloudRelay.Lib.Prog
import Mathlib.Algebra.BigOperators.Group.List.Basic
import Mathlib.Algebra.Order.Ring.Nat

namespace Lib

open List

/-! ## Protocols whose knowledge is computed -/

/-- A protocol with a first knowledge, in which an answer determines the next one. -/
structure Rules (S : Sig) (K : Type) where
  /-- What is known at the start. -/
  init : K
  /-- The steps allowed with the knowledge `κ`. -/
  ok : K → S.Op → Prop
  /-- The knowledge after an answer. -/
  after : K → (o : S.Op) → S.Res o → K

namespace Rules

variable {S : Sig} {K C W : Type} (L : Rules S K)

/-- The rules as a protocol. -/
def proto : Proto S K where
  ok := L.ok
  next κ o r κ' := κ' = L.after κ o r

/-- What a trace teaches. -/
def knows (tr : List (Event S C W)) : K := tr.foldl (fun κ ev => L.after κ ev.op ev.res) L.init

@[simp] theorem knows_nil : L.knows ([] : List (Event S C W)) = L.init := rfl

@[simp] theorem knows_concat (tr : List (Event S C W)) (ev : Event S C W) :
    L.knows (tr ++ [ev]) = L.after (L.knows tr) ev.op ev.res := by
  unfold knows
  rw [foldl_append]
  rfl

end Rules

/-! ## Pools -/

/-- A thread: what it was started for, what is left of its program, and what it has done. -/
structure Thread (S : Sig) (C W T α : Type) where
  tag : T
  prog : Prog S α
  trace : List (Event S C W)

/-- The threads and the world they share. -/
structure Pool (S : Sig) (C W T α : Type) where
  world : W
  threads : List (Thread S C W T α)

namespace Pool

variable {S : Sig} {C W T α K : Type} (E : Exec S C W) (start : T → Prog S α)

/-- A thread starts, or one of them makes a move. -/
inductive Step : Pool S C W T α → Pool S C W T α → Prop where
  | spawn {w : W} {ts : List (Thread S C W T α)} (t : T) :
      Step ⟨w, ts⟩ ⟨w, ⟨t, start t, []⟩ :: ts⟩
  | move {w w' : W} {l r : List (Thread S C W T α)} {t : T} {p p' : Prog S α}
      {tr : List (Event S C W)} {ev : Option (Event S C W)} (h : Prog.Move E p w ev p' w') :
      Step ⟨w, l ++ ⟨t, p, tr⟩ :: r⟩ ⟨w', l ++ ⟨t, p', tr ++ ev.toList⟩ :: r⟩

/-- The pools that a world without threads gets to. -/
abbrev Reaches (w : W) : Pool S C W T α → Prop := Relation.ReflTransGen (Step E start) ⟨w, []⟩

variable {E start} {L : T → Rules S K} {Q : T → α → K → Prop} {w0 : W}

variable {w w' : W} {t : T} {tr : List (Event S C W)} {ts : List (Thread S C W T α)}
  {th : Thread S C W T α} {P : Pool S C W T α} {m : K → Nat} {c : C}

/-- A thread of a pool that is left alone. -/
theorem reaches_moves {p p' : Prog S α} (h : Reaches E start w0 ⟨w, ⟨t, p, tr⟩ :: ts⟩)
    (hmoves : Prog.Moves E (p, w) (p', w')) :
    ∃ tr', Reaches E start w0 ⟨w', ⟨t, p', tr'⟩ :: ts⟩ := by
  generalize hx : (p, w) = x at hmoves
  generalize hy : (p', w') = y at hmoves
  induction hmoves generalizing p' w' with
  | refl =>
    obtain ⟨rfl, rfl⟩ := Prod.mk.inj (hx.trans hy.symm)
    exact ⟨tr, h⟩
  | @tail b c hto hmove ih =>
    obtain ⟨tr1, h1⟩ := ih rfl
    obtain ⟨ev, hmove⟩ := hmove
    rw [← hy] at hmove
    exact ⟨_, .tail h1 (.move (l := []) hmove)⟩

/-- **A call that runs to its end** while the other threads wait. -/
theorem reaches_run {a : α} (h : Reaches E start w0 ⟨w, ts⟩)
    (hrun : Prog.Runs E (start t) w tr a w') :
    ∃ tr', Reaches E start w0 ⟨w', ⟨t, .ret a, tr'⟩ :: ts⟩ :=
  reaches_moves (.tail h (.spawn t)) hrun.moves_ret

/-- What a thread may still do is safe, given what its trace has taught it. -/
def Keeps (L : T → Rules S K) (Q : T → α → K → Prop) (th : Thread S C W T α) : Prop :=
  th.prog.Safe (L th.tag).proto (Q th.tag) ((L th.tag).knows th.trace)

/-- A move of a thread that keeps to its rules: silent, or one step that the rules allow; what is
    left keeps to them. -/
theorem Keeps.move {p p' : Prog S α} {ev : Option (Event S C W)} (hp : Keeps L Q ⟨t, p, tr⟩)
    (h : Prog.Move E p w ev p' w') : Keeps L Q ⟨t, p', tr ++ ev.toList⟩ ∧
    ((ev = none ∧ w' = w) ∨ ∃ o c r, ev = some ⟨o, c, r, w, w'⟩ ∧ E o c w = some (r, w') ∧
      (L t).ok ((L t).knows tr) o ∧
      (L t).knows (tr ++ ev.toList) = (L t).after ((L t).knows tr) o r) := by
  rcases Prog.Safe.move hp h with ⟨rfl, rfl, hp'⟩ | ⟨o, c, r, rfl, hE, hok, hp'⟩
  · refine ⟨?_, Or.inl ⟨rfl, rfl⟩⟩
    show p'.Safe _ _ ((L t).knows (tr ++ []))
    rw [append_nil]
    exact hp'
  · have hknows : (L t).knows (tr ++ [⟨o, c, r, w, w'⟩]) = (L t).after ((L t).knows tr) o r :=
      (L t).knows_concat tr _
    refine ⟨?_, Or.inr ⟨o, c, r, rfl, hE, hok, hknows⟩⟩
    show p'.Safe _ _ ((L t).knows (tr ++ [_]))
    rw [hknows]
    exact hp' _ rfl

/-- A property of all the threads of a pool, after one of them has moved. -/
theorem forall_moved {I I' : Thread S C W T α → Prop} {l r : List (Thread S C W T α)}
    {th' : Thread S C W T α} (h : ∀ x ∈ l ++ th :: r, I x) (hothers : ∀ x, I x → I' x)
    (hmoved : I th → I' th') : ∀ x ∈ l ++ th' :: r, I' x := by
  intro x hx
  rcases mem_append.mp hx with hx | hx
  · exact hothers x (h x (mem_append_left _ hx))
  · rcases mem_cons.mp hx with rfl | hx
    · exact hmoved (h th (mem_append_right _ (mem_cons_self ..)))
    · exact hothers x (h x (mem_append_right _ (mem_cons_of_mem _ hx)))

/-- What a thread starts with and keeps with every move of its own, every thread of a pool has. -/
theorem forall_threads {I : Thread S C W T α → Prop} (hspawn : ∀ t, I ⟨t, start t, []⟩)
    (hmove : ∀ {t p p' tr w ev w'}, I ⟨t, p, tr⟩ → Prog.Move E p w ev p' w' →
      I ⟨t, p', tr ++ ev.toList⟩) {P : Pool S C W T α} (h : Reaches E start w0 P) :
    ∀ th ∈ P.threads, I th := by
  induction h with
  | refl => exact nofun
  | tail _ hstep ih =>
    cases hstep with
    | spawn t =>
      intro th hth
      rcases mem_cons.mp hth with rfl | hth
      · exact hspawn t
      · exact ih th hth
    | move hmoved => exact forall_moved ih (fun _ h => h) fun h => hmove h hmoved

/-- **Every thread of a pool keeps to its rules.** -/
theorem safe (hstart : ∀ t, (start t).Safe (L t).proto (Q t) (L t).init)
    (h : Reaches E start w0 P) : ∀ th ∈ P.threads, Keeps L Q th :=
  forall_threads hstart (fun hp hmove => (hp.move hmove).1) h

/-- **What every answer keeps**, every thread knows. -/
theorem knows_of_step {J : T → K → Prop} (hstart : ∀ t, (start t).Safe (L t).proto (Q t) (L t).init)
    (hinit : ∀ t, J t (L t).init)
    (hstep : ∀ t κ o r, J t κ → (L t).ok κ o → J t ((L t).after κ o r)) (h : Reaches E start w0 P) :
    ∀ th ∈ P.threads, J th.tag ((L th.tag).knows th.trace) := by
  have hall : ∀ th ∈ P.threads, Keeps L Q th ∧ J th.tag ((L th.tag).knows th.trace) := by
    refine forall_threads (fun t => ⟨hstart t, hinit t⟩) ?_ h
    rintro t p p' tr w ev w' ⟨hp, hJ⟩ hmove
    obtain ⟨hp', ⟨rfl, rfl⟩ | ⟨o, c, r, rfl, -, hok, hknows⟩⟩ := hp.move hmove
    · refine ⟨hp', ?_⟩
      rw [Option.toList_none, append_nil]
      exact hJ
    · refine ⟨hp', ?_⟩
      dsimp only
      rw [hknows]
      exact hstep t _ o r hJ hok
  exact fun th hth => (hall th hth).2

/-- What the threads hold together, by what each of them knows. -/
def holds (L : T → Rules S K) (m : K → Nat) (ts : List (Thread S C W T α)) : Nat :=
  (ts.map fun th => m ((L th.tag).knows th.trace)).sum

theorem holds_cons (m : K → Nat) (th : Thread S C W T α) (ts : List (Thread S C W T α)) :
    holds L m (th :: ts) = m ((L th.tag).knows th.trace) + holds L m ts := sum_cons

theorem holds_append (m : K → Nat) (l r : List (Thread S C W T α)) :
    holds L m (l ++ r) = holds L m l + holds L m r := by
  unfold holds
  rw [map_append, sum_append]

/-- One thread holds no more than all of them. -/
theorem le_holds (m : K → Nat) (h : th ∈ ts) : m ((L th.tag).knows th.trace) ≤ holds L m ts := by
  obtain ⟨l, r, rfl⟩ := append_of_mem h
  rw [holds_append, holds_cons]
  omega

/-- When the threads hold one together, no two of them hold any. -/
theorem holds_pairwise (h : holds L m ts ≤ 1) : ts.Pairwise fun th th' =>
      m ((L th.tag).knows th.trace) = 0 ∨ m ((L th'.tag).knows th'.trace) = 0 := by
  induction ts with
  | nil => exact .nil
  | cons th ts ih =>
    rw [holds_cons] at h
    refine .cons (fun th' hth' => ?_) (ih (by omega))
    have hle : m ((L th'.tag).knows th'.trace) ≤ holds L m ts := le_holds m hth'
    omega

/-- **Accounting.**  When every allowed step changes the difference of two quantities of the world by
    what the stepping thread then holds more or less, the difference is always what the threads
    hold. -/
theorem accounts_diff {g d : W → Nat} (hstart : ∀ t, (start t).Safe (L t).proto (Q t) (L t).init)
    (hzero : g w0 = d w0) (hinit : ∀ t, m (L t).init = 0)
    (hstep : ∀ t κ o c w r w', (L t).ok κ o → E o c w = some (r, w') →
      g w' + d w + m κ = g w + d w' + m ((L t).after κ o r)) (h : Reaches E start w0 P) :
    g P.world = d P.world + holds L m P.threads := by
  induction h with
  | refl => exact hzero
  | tail hreach hmoved ih =>
    have hsafe := safe hstart hreach
    cases hmoved with
    | spawn t =>
      rw [holds_cons, Rules.knows_nil, hinit, Nat.zero_add]
      exact ih
    | @move w w' l r t p p' tr ev hmove =>
      obtain ⟨-, hmoved⟩ := (hsafe _ (mem_append_right _ (mem_cons_self ..))).move hmove
      dsimp only at ih ⊢
      rw [holds_append, holds_cons] at ih ⊢
      dsimp only at ih ⊢
      rcases hmoved with ⟨rfl, rfl⟩ | ⟨o, c, res, rfl, hE, hok, hknows⟩
      · rw [Option.toList_none, append_nil]
        exact ih
      · have hchange := hstep t _ o c w res w' hok hE
        rw [hknows]
        omega

/-- The same for one quantity. -/
theorem accounts {g : W → Nat} (hstart : ∀ t, (start t).Safe (L t).proto (Q t) (L t).init)
    (hzero : g w0 = 0) (hinit : ∀ t, m (L t).init = 0)
    (hstep : ∀ t κ o c w r w', (L t).ok κ o → E o c w = some (r, w') →
      g w' + m κ = g w + m ((L t).after κ o r)) (h : Reaches E start w0 P) :
    g P.world = holds L m P.threads := by
  have hdiff := accounts_diff (d := fun _ => 0) hstart hzero hinit
    (fun t κ o c w r w' hok hE => hstep t κ o c w r w' hok hE) h
  rwa [Nat.zero_add] at hdiff

/-! ## Computed runs of a pool -/

/-- One move of a thread, with the choice given. -/
def moveOne (E : Exec S C W) (w : W) (c : C) (th : Thread S C W T α) :
    Option (W × Thread S C W T α) :=
  match th.prog with
  | .ret _ => none
  | .step o k =>
    (E o c w).map fun x => (x.2, ⟨th.tag, k x.1, th.trace ++ [⟨o, c, x.1, w, x.2⟩]⟩)
  | .loop body s k => some (w, ⟨th.tag, Prog.unroll body s k, th.trace⟩)

/-- One move of the thread at a position. -/
def moveAt (E : Exec S C W) (w : W) (c : C) :
    Nat → List (Thread S C W T α) → Option (W × List (Thread S C W T α))
  | _, [] => none
  | 0, th :: ts => (moveOne E w c th).map fun x => (x.1, x.2 :: ts)
  | i + 1, th :: ts => (moveAt E w c i ts).map fun x => (x.1, th :: x.2)

theorem moveOne_inv {th' : Thread S C W T α} (h : moveOne E w c th = some (w', th')) :
    ∃ ev, Prog.Move E th.prog w ev th'.prog w' ∧
      th' = ⟨th.tag, th'.prog, th.trace ++ ev.toList⟩ := by
  obtain ⟨t, p, tr⟩ := th
  cases p with
  | ret a => exact nomatch h
  | step o k =>
    obtain ⟨⟨res, w1⟩, hE, hx⟩ := Option.map_eq_some_iff.mp h
    cases hx
    exact ⟨_, .step hE, rfl⟩
  | loop body s k =>
    cases h
    exact ⟨none, .loop, by rw [Option.toList_none, append_nil]⟩

theorem moveAt_inv {i : Nat} {ts' : List (Thread S C W T α)}
    (h : moveAt E w c i ts = some (w', ts')) :
    ∃ l th th' r, ts = l ++ th :: r ∧ ts' = l ++ th' :: r ∧ ts[i]? = some th ∧
      moveOne E w c th = some (w', th') := by
  induction ts generalizing i ts' with
  | nil =>
    cases i with
    | zero | succ i => nomatch h
  | cons th ts ih =>
    cases i with
    | zero =>
      obtain ⟨⟨w1, th1⟩, hone, hx⟩ := Option.map_eq_some_iff.mp h
      cases hx
      exact ⟨[], th, th1, ts, rfl, rfl, rfl, hone⟩
    | succ i =>
      obtain ⟨⟨w1, ts1⟩, hi, hx⟩ := Option.map_eq_some_iff.mp h
      cases hx
      obtain ⟨l, x, x', r, rfl, rfl, hget, hone⟩ := ih hi
      exact ⟨th :: l, x, x', r, rfl, rfl, hget, hone⟩

theorem step_of_moveAt {i : Nat} {ts' : List (Thread S C W T α)}
    (h : moveAt E w c i ts = some (w', ts')) : Step E start ⟨w, ts⟩ ⟨w', ts'⟩ := by
  obtain ⟨l, th, th', r, rfl, rfl, -, hone⟩ := moveAt_inv h
  obtain ⟨ev, hmove, hth'⟩ := moveOne_inv hone
  rw [hth']
  exact .move hmove

/-- A thread starts, or the one at a position moves. -/
inductive Play (T C : Type) where
  | spawn (t : T)
  | move (i : Nat) (c : C)

/-- The pool after a list of plays. -/
def play (E : Exec S C W) (start : T → Prog S α) :
    List (Play T C) → Pool S C W T α → Option (Pool S C W T α)
  | [], P => some P
  | .spawn t :: ps, P => play E start ps ⟨P.world, ⟨t, start t, []⟩ :: P.threads⟩
  | .move i c :: ps, P =>
    (moveAt E P.world c i P.threads).bind fun x => play E start ps ⟨x.1, x.2⟩

/-- **A computed run is a run.** -/
theorem reaches_of_play {ps : List (Play T C)} {P' : Pool S C W T α} (h : Reaches E start w0 P)
    (hp : play E start ps P = some P') : Reaches E start w0 P' := by
  induction ps generalizing P with
  | nil =>
    cases hp
    exact h
  | cons p ps ih =>
    cases p with
    | spawn t => exact ih (.tail h (.spawn t)) hp
    | move i c =>
      obtain ⟨⟨w, ts⟩, hmove, hrest⟩ := Option.bind_eq_some_iff.mp hp
      exact ih (.tail h (step_of_moveAt hmove)) hrest

end Pool

end Lib
