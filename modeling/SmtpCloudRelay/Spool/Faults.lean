/-
  ONE STEP FAILS: the file operations when a single step of a call goes wrong.

  A step WORKS when it does what it is asked to.  Two answers are not failures although they are
  errors: that something is not there when it is looked at or unlinked and is indeed not there, and
  that a staged payload cannot be renamed to `payloads/` because that is another file system.

  What a failing step does to a call depends on when it comes.  A call is
  EXPOSED while a directory of the call's own has just been made in `staging/` or in `payloads/` and is still
  being opened, given its mode and synced, or the payload has been put in place.  A `Fate` is the phase
  of a call in which nothing has failed so far, or whether the call was exposed when a step failed.
  After that, no step fails any more.

  The protocol `faults` follows the view of the tree and the mark.  For every file operation that is
  called while the call is not exposed there is one specification (`Ends`): how it ends when it
  succeeds, and what it leaves when a step of it fails.  What it leaves is small and holds only
  directories and regular files (`Tame`), and so a clean-up in which no step fails removes it
  (`discardEntry_cleans`).
-/
import SmtpCloudRelay.Spool.Publication

namespace SmtpCloudRelay.Spool

open Go Lib Act View Watch List

/-! ## Steps that work, and steps that fail -/

/-- A step does what it is asked to, in the tree `v`. -/
def works (v : View GoString) : (o : Op) → o.Res → Bool
  | .fs (.stat p), .error .enoent => (v p).isNone
  | .fs (.unlink d n), .error .enoent => (v (d ++ [n])).isNone
  | .fs (.rename sd _ dd _), .error .exdev => decide (sd = stagingRoot ∧ dd = payloadsRoot)
  | .fs _, .error _ => false
  | .suffix, .error _ => false
  | .openRoot, .error _ => false
  | _, _ => true

/-- A step of a run fails. -/
def failed (ev : SpoolEvent) : Bool := !works ev.pre.files.get ev.op ev.res

/-- At most one step fails. -/
def OneFails (tr : Trace) : Prop :=
  tr.Pairwise fun ev ev' => failed ev = true → failed ev' = false

instance {tr : Trace} : Decidable (OneFails tr) :=
  inferInstanceAs (Decidable (List.Pairwise _ tr))

/-! ## Exposure and fate -/

/-- Where a call that saves a payload is: so many steps before a directory that it has made in one of
    the roots is settled, or past the publication. -/
inductive Exposure where
  | settling (left : Nat)
  | published
  deriving DecidableEq

namespace Exposure

/-- The call's directories are settled, and nothing is published. -/
abbrev settled : Exposure := .settling 0

/-- The call has something that its clean-up does not know. -/
def exposed : Exposure → Bool
  | .settling 0 => false
  | _ => true

/-- The phase after a step that worked. -/
def after (id : GoString) : Exposure → (o : Op) → o.Res → Exposure
  | .published, _, _ => .published
  | .settling left, .fs (.mkdir d _), .ok _ =>
    if d = stagingRoot ∨ d = payloadsRoot then .settling 4 else .settling (left - 1)
  | .settling left, .fs (.rename _ _ dd dn), .ok _ =>
    if dd ++ [dn] = payloadDir id then .published else .settling (left - 1)
  | .settling left, _, _ => .settling (left - 1)

/-- The phase after some steps. -/
def run (id : GoString) (ph : Exposure) (tr : Trace) : Exposure :=
  tr.foldl (fun ph ev => ph.after id ev.op ev.res) ph

end Exposure

/-- A call in which nothing has failed so far, or one that was exposed or not when a step failed. -/
inductive Fate where
  | running (ph : Exposure)
  | struck (exposed : Bool)

namespace Fate

/-- The mark after a step; a second failure does not happen. -/
def next (id : GoString) (v : View GoString) (o : Op) (r : o.Res) : Fate → Option Fate
  | .running ph =>
    some (if works v o r then .running (ph.after id o r) else .struck ph.exposed)
  | .struck b => if works v o r then some (.struck b) else none

/-- The mark after some steps. -/
def run (id : GoString) : Fate → Trace → Option Fate
  | m, [] => some m
  | m, ev :: tr => (m.next id ev.pre.files.get ev.op ev.res).bind fun m' => run id m' tr

end Fate

theorem failed_eq_false {ev : SpoolEvent} :
    failed ev = false ↔ works ev.pre.files.get ev.op ev.res = true := by
  unfold failed
  rw [Bool.not_eq_false']

theorem failed_eq_true {ev : SpoolEvent} :
    failed ev = true ↔ works ev.pre.files.get ev.op ev.res = false := by
  unfold failed
  rw [Bool.not_eq_true']

variable {b : Bool} {tr : Trace} {ε' : Type} {o : Op} {r : o.Res} {v : View GoString}
  {c : Call GoString} {n : GoString} {data : List UInt8} {k : Nat}

theorem Fate.run_struck {id : GoString} (h : ∀ ev ∈ tr, failed ev = false) :
    Fate.run id (.struck b) tr = some (.struck b) := by
  induction tr with
  | nil => rfl
  | cons ev tr ih =>
    obtain ⟨hev, htr⟩ := forall_mem_cons.mp h
    show (Fate.next id _ ev.op ev.res (.struck b)).bind _ = _
    rw [Fate.next, if_pos (failed_eq_false.mp hev)]
    exact ih htr

/-- **The mark tells when a step failed**, if one did. -/
theorem Fate.run_running (id : GoString) (ph : Exposure) (h : OneFails tr) :
    (Fate.run id (.running ph) tr = some (.running (ph.run id tr)) ∧ ∀ ev ∈ tr, failed ev = false) ∨
    ∃ pre ev post, tr = pre ++ ev :: post ∧ failed ev = true ∧
      (∀ ev' ∈ pre ++ post, failed ev' = false) ∧
      Fate.run id (.running ph) tr = some (.struck (ph.run id pre).exposed) := by
  induction tr generalizing ph with
  | nil => exact Or.inl ⟨rfl, fun ev hev => nomatch hev⟩
  | cons ev tr ih =>
    obtain ⟨hev, htr⟩ := pairwise_cons.mp h
    have hrun : Fate.run id (.running ph) (ev :: tr) =
        Fate.run id (if works ev.pre.files.get ev.op ev.res then
          .running (ph.after id ev.op ev.res) else .struck ph.exposed) tr := rfl
    cases hw : works ev.pre.files.get ev.op ev.res with
    | true =>
      rw [hw, if_pos rfl] at hrun
      have hno : failed ev = false := failed_eq_false.mpr hw
      rcases ih (ph.after id ev.op ev.res) htr with ⟨hm, hnone⟩ |
        ⟨pre, ev', post, rfl, hfail, hnone, hm⟩
      · exact Or.inl ⟨hrun.trans hm, forall_mem_cons.mpr ⟨hno, hnone⟩⟩
      · exact Or.inr ⟨ev :: pre, ev', post, rfl, hfail, forall_mem_cons.mpr ⟨hno, hnone⟩,
          hrun.trans hm⟩
    | false =>
      rw [hw, if_neg nofun] at hrun
      have hfail : failed ev = true := failed_eq_true.mpr hw
      have hnone : ∀ ev' ∈ tr, failed ev' = false := fun ev' hev' => hev ev' hev' hfail
      exact Or.inr ⟨[], ev, tr, rfl, hfail, hnone, hrun.trans (Fate.run_struck hnone)⟩

/-! ## The protocol -/

/-- The whole tree is watched, and nothing is demanded. -/
def whole : Watch := ⟨fun _ => True, fun _ _ => True, fun _ => True⟩

theorem whole_seen (p : Path) : Files.Seen whole.region p := fun _ _ => trivial

theorem whole_of (t : Files GoString) : t.on whole.region = t.get :=
  funext fun _ => Files.on_of trivial

/-- The steps of a call that saves `id`, of which at most one fails. -/
def faults (id : GoString) : Proto spoolSig (Known whole.region × Fate) where
  ok _ o := Confined whole.region o
  next x o r x' := whole.step x.1 o r x'.1 ∧ x.2.next id x.1.1 o r = some x'.2

/-- **A run of which the mark is known.** -/
theorem runs_marked [Unicode] {id : GoString} {α : Type} {p : Prog spoolSig α}
    {Q : α → Known whole.region × Fate → Prop} {W W' : World} {a : α} {m m' : Fate}
    (h : Prog.Runs exec p W tr a W') (hm : Fate.run id m tr = some m')
    (hp : p.Safe (faults id) Q (Known.of _ W.files, m)) : Q a (Known.of _ W'.files, m') := by
  induction h generalizing m with
  | ret a w =>
    cases hm
    exact hp
  | @step o k w w1 w' c r tr a hE hk ih =>
    obtain ⟨m1, hm1, hm⟩ := Option.bind_eq_some_iff.mp hm
    refine ih hm (hp.2 r (Known.of _ w1.files, m1) ⟨?_, ?_⟩)
    · have hok : whole.proto.ok (Known.of whole.region w.files) o := ⟨hp.1, fun _ _ _ _ => trivial⟩
      obtain ⟨κ', hstep, hκ', -⟩ := (whole.shows_of (W := w) trivial).step hok trivial hE
      have hsame : κ' = Known.of _ w1.files := Subtype.ext hκ'.symm
      rw [hsame] at hstep
      exact hstep
    · have hget : (Known.of whole.region w.files).1 = w.files.get := whole_of _
      rw [hget]
      exact hm1
  | loop h ih => exact ih hm hp.unroll

/-! ## How a part of a call ends -/

namespace Fate

/-- Nothing has failed and the call is not exposed, or a step has failed before. -/
def Calm (m : Fate) : Prop := m = .running .settled ∨ ∃ b, m = .struck b

/-- The fate after a part that did not expose the call. -/
def Later (m m' : Fate) : Prop := m' = m ∨ (m = .running .settled ∧ m' = .struck false)

variable {m m' m'' : Fate}

theorem Later.calm (h : Later m m') (hm : m.Calm) : m'.Calm := by
  rcases h with rfl | ⟨-, rfl⟩
  · exact hm
  · exact Or.inr ⟨false, rfl⟩

theorem Later.trans (h : Later m m') (h' : Later m' m'') : Later m m'' := by
  rcases h with rfl | ⟨rfl, rfl⟩
  · exact h'
  · rcases h' with rfl | ⟨hx, -⟩
    · exact Or.inr ⟨rfl, rfl⟩
    · nomatch hx

/-- Before a failure nothing had failed. -/
theorem Later.running (h : Later m m') (hm : m' = .running .settled) : m = .running .settled := by
  rcases h with rfl | ⟨-, rfl⟩
  · exact hm
  · nomatch hm

end Fate

open Fate

variable {α β ε : Type} {id : GoString} {κ : Known whole.region} {m : Fate}

/-- How a part of a call ends that began with fate `m`: it succeeds with `Q`, or a step of it fails
    and leaves `P`. -/
def Ends (m : Fate) (Q : α → Known whole.region → Prop) (P : Known whole.region → Prop) :
    Except ε α → Known whole.region × Fate → Prop
  | .ok a, x => Later m x.2 ∧ Q a x.1
  | .error _, x => m = .running .settled ∧ x.2 = .struck false ∧ P x.1

variable {Q : α → Known whole.region → Prop} {P : Known whole.region → Prop} {p : Act spoolSig ε α}
  {f : α → Act spoolSig ε β}

theorem Ends.mono {Q' : α → Known whole.region → Prop} {P' : Known whole.region → Prop}
    (hQ : ∀ a κ', Q a κ' → Q' a κ') (hP : ∀ κ', P κ' → P' κ')
    (hp : p.Safe (faults id) (Ends m Q P) (κ, m)) : p.Safe (faults id) (Ends m Q' P') (κ, m) := by
  refine Safe.mono ?_ hp
  intro out x h
  cases out with
  | ok a => exact ⟨h.1, hQ a _ h.2⟩
  | error e => exact ⟨h.1, h.2.1, hP _ h.2.2⟩

/-- The rule of sequencing. -/
theorem Ends.bind {Q' : β → Known whole.region → Prop} {P' : Known whole.region → Prop}
    (hm : m.Calm) (hp : p.Safe (faults id) (Ends m Q P) (κ, m)) (hP : ∀ κ', P κ' → P' κ')
    (hf : ∀ a κ' m', m'.Calm → Q a κ' → (f a).Safe (faults id) (Ends m' Q' P') (κ', m')) :
    (p >>= f).Safe (faults id) (Ends m Q' P') (κ, m) := by
  refine Safe.bind hp ?_ ?_
  · rintro a ⟨κ', m'⟩ ⟨hl, hQ⟩
    refine Safe.mono ?_ (hf a κ' m' (hl.calm hm) hQ)
    intro out x h
    cases out with
    | ok b => exact ⟨hl.trans h.1, h.2⟩
    | error e => exact ⟨hl.running h.1, h.2⟩
  · rintro e x ⟨hrun, hx, h⟩
    exact ⟨hrun, hx, hP _ h⟩

theorem Ends.mapError {f : ε → ε'} (hp : p.Safe (faults id) (Ends m Q P) (κ, m)) :
    (p.mapError f).Safe (faults id) (Ends m Q P) (κ, m) :=
  Safe.mapError hp (fun _ _ h => h) fun _ _ h => h

/-- The rule of a deferred clean-up, which runs after the step that failed. -/
theorem Ends.onFail {R : Known whole.region → Prop} {clean : Act spoolSig ε' Unit}
    (hp : p.Safe (faults id) (Ends m Q P) (κ, m))
    (hc : ∀ κ', P κ' → clean.Safe (faults id) (fun _ x => x.2 = .struck false ∧ R x.1)
      (κ', .struck false)) : (p.onFail clean).Safe (faults id) (Ends m Q R) (κ, m) := by
  refine Safe.onFail hp (fun _ _ h => h) ?_
  rintro e ⟨κ', m'⟩ ⟨hrun, hx, h⟩
  obtain rfl : m' = .struck false := hx
  exact Safe.mono (fun _ _ hx => ⟨hrun, hx⟩) (hc κ' h)

/-- How a part of a call ends after the step that failed: it succeeds. -/
def Cleans (b : Bool) (Q : α → Known whole.region → Prop) :
    Except ε α → Known whole.region × Fate → Prop
  | .ok a, x => x.2 = .struck b ∧ Q a x.1
  | .error _, _ => False

theorem Ends.cleans (hp : p.Safe (faults id) (Ends (.struck b) Q P) (κ, .struck b)) :
    p.Safe (faults id) (Cleans b Q) (κ, .struck b) := by
  refine Safe.mono ?_ hp
  intro out x h
  cases out with
  | ok a =>
    obtain ⟨hx | ⟨hx, -⟩, hQ⟩ := h
    · exact ⟨hx, hQ⟩
    · nomatch hx
  | error e => nomatch h.1

theorem Cleans.mono {Q' : α → Known whole.region → Prop} (hQ : ∀ a κ', Q a κ' → Q' a κ')
    (hp : p.Safe (faults id) (Cleans b Q) (κ, .struck b)) :
    p.Safe (faults id) (Cleans b Q') (κ, .struck b) := by
  refine Safe.mono ?_ hp
  intro out x h
  cases out with
  | ok a => exact ⟨h.1, hQ a _ h.2⟩
  | error e => exact h

theorem Cleans.bind {Q' : β → Known whole.region → Prop}
    (hp : p.Safe (faults id) (Cleans b Q) (κ, .struck b))
    (hf : ∀ a κ', Q a κ' → (f a).Safe (faults id) (Cleans b Q') (κ', .struck b)) :
    (p >>= f).Safe (faults id) (Cleans b Q') (κ, .struck b) := by
  refine Safe.bind hp ?_ fun _ _ h => h
  rintro a ⟨κ', m'⟩ ⟨hx, hQ⟩
  obtain rfl : m' = .struck b := hx
  exact hf a κ' hQ

theorem Cleans.mapError {f : ε → ε'} (hp : p.Safe (faults id) (Cleans b Q) (κ, .struck b)) :
    (p.mapError f).Safe (faults id) (Cleans b Q) (κ, .struck b) :=
  Safe.mapError hp (fun _ _ h => h) fun _ _ h => h

theorem Cleans.ignore (hp : p.Safe (faults id) (Cleans b Q) (κ, .struck b)) :
    (p.ignore : Act spoolSig ε' Unit).Safe (faults id) (Cleans b fun _ κ' => ∃ a, Q a κ')
      (κ, .struck b) := by
  refine Safe.ignore hp ?_
  intro out x h
  cases out with
  | ok a => exact ⟨h.1, a, h.2⟩
  | error e => exact h.elim

/-! ## Single steps -/

/-- A step that does not expose a call. -/
def Routine (id : GoString) (o : Op) : Prop := ∀ r, Exposure.after id .settled o r = .settled

theorem next_running {ph : Exposure} {m' : Fate} (h : (Fate.running ph).next id v o r = some m') :
    (works v o r = true ∧ m' = .running (ph.after id o r)) ∨
    (works v o r = false ∧ m' = .struck ph.exposed) := by
  have h := Option.some.inj h
  cases hw : works v o r with
  | true =>
    rw [hw, if_pos rfl] at h
    exact Or.inl ⟨rfl, h.symm⟩
  | false =>
    rw [hw, if_neg nofun] at h
    exact Or.inr ⟨rfl, h.symm⟩

theorem next_struck {m' : Fate} (h : (Fate.struck b).next id v o r = some m') :
    works v o r = true ∧ m' = .struck b := by
  rw [Fate.next] at h
  cases hw : works v o r with
  | true =>
    rw [hw, if_pos rfl] at h
    exact ⟨rfl, (Option.some.inj h).symm⟩
  | false =>
    rw [hw, if_neg nofun] at h
    nomatch h

/-- What a step does to the fate of a call that is not exposed. -/
theorem next_of_calm {m' : Fate} (hm : m.Calm) (ho : Routine id o) (h : m.next id v o r = some m') :
    (works v o r = true ∧ m' = m) ∨
    (works v o r = false ∧ m = .running .settled ∧ m' = .struck false) := by
  rcases hm with rfl | ⟨b, rfl⟩
  · rcases next_running h with ⟨hw, hm'⟩ | ⟨hw, hm'⟩
    · rw [ho r] at hm'
      exact Or.inl ⟨hw, hm'⟩
    · exact Or.inr ⟨hw, rfl, hm'⟩
  · exact Or.inl (next_struck h)

/-- A step of the file system, with everything that is known of it. -/
theorem sys_marks (hm : m.Calm) (hc : Routine id (.fs c)) :
    (sys c).Safe (faults id) (fun r x => whole.step κ (.fs c) r x.1 ∧
      ((works κ.1 (.fs c) r = true ∧ x.2 = m) ∨
        (works κ.1 (.fs c) r = false ∧ m = .running .settled ∧ x.2 = .struck false))) (κ, m) :=
  ⟨fun _ _ => trivial, fun _ _ h => ⟨h.1, next_of_calm hm hc h.2⟩⟩

theorem works_ok (v : View GoString) (c : Call GoString) (a : c.Answer) :
    works v (.fs c) (.ok a) = true := by
  cases c <;> rfl

/-- A call of which every error is a failure. -/
def Strict (v : View GoString) (c : Call GoString) : Prop := ∀ e, works v (.fs c) (.error e) = false

theorem sys_ends {Q : c.Answer → Known whole.region → Prop} (hm : m.Calm) (hc : Routine id (.fs c))
    (hs : Strict κ.1 c) (hQ : ∀ a κ', whole.step κ (.fs c) (.ok a) κ' → Q a κ')
    (hP : ∀ e κ', whole.step κ (.fs c) (.error e) κ' → P κ') :
    (sys c).Safe (faults id) (Ends m Q P) (κ, m) := by
  refine Safe.mono ?_ (sys_marks hm hc)
  rintro r ⟨κ', m'⟩ ⟨hstep, hfate⟩
  cases r with
  | ok a =>
    rcases hfate with ⟨-, rfl⟩ | ⟨hw, -⟩
    · exact ⟨Or.inl rfl, hQ a κ' hstep⟩
    · nomatch hw.symm.trans (works_ok κ.1 c a)
  | error e =>
    rcases hfate with ⟨hw, -⟩ | ⟨-, hrun, hx⟩
    · nomatch (hs e).symm.trans hw
    · exact ⟨hrun, hx, hP e κ' hstep⟩

/-- A part of a call that leaves the tree as it is. -/
abbrev Still (id : GoString) (κ : Known whole.region) (m : Fate) (p : Act spoolSig ε α) : Prop :=
  p.Safe (faults id) (Ends m (fun _ κ' => κ' = κ) fun κ' => κ' = κ) (κ, m)

/-- A call that looks, or acts on something else than the tree. -/
def Calls (c : Call GoString) : Prop :=
  match c with
  | .openDir _ | .readDir _ | .readFile _ | .quiet _ => True
  | _ => False

theorem calls_quiet (h : Calls c) : Confined NoRegion (.fs c) := by
  cases c with
  | openDir p | readDir p | readFile p | quiet p => exact fun q hq => nomatch hq
  | _ => nomatch h

theorem calls_routine (h : Calls c) : Routine id (.fs c) := by
  cases c with
  | openDir p | readDir p | readFile p | quiet p => exact fun r => rfl
  | _ => nomatch h

theorem calls_strict (h : Calls c) (v : View GoString) : Strict v c := by
  cases c with
  | openDir p | readDir p | readFile p | quiet p => exact fun e => rfl
  | _ => nomatch h

theorem look_ends {Q : c.Answer → Prop} (hm : m.Calm) (hc : Calls c)
    (hQ : ∀ a, whole.step κ (.fs c) (.ok a) κ → Q a) :
    (sys c).Safe (faults id) (Ends m (fun a κ' => κ' = κ ∧ Q a) fun κ' => κ' = κ) (κ, m) := by
  refine sys_ends hm (calls_routine hc) (calls_strict hc _) (fun a κ' h => ?_) fun e κ' h =>
    step_quiet h (calls_quiet hc)
  obtain rfl : κ' = κ := step_quiet h (calls_quiet hc)
  exact ⟨rfl, hQ a h⟩

theorem sys_still (hm : m.Calm) (hc : Calls c) : Still id κ m (sys c) := by
  have h : (sys c).Safe (faults id) (Ends m (fun _ κ' => κ' = κ ∧ True) fun κ' => κ' = κ) (κ, m) :=
    look_ends hm hc fun _ _ => trivial
  exact Ends.mono (fun _ _ h => h.1) (fun _ h => h) h

theorem sysOr_still {before : GoString} (hm : m.Calm) (hc : Calls c) :
    Still id κ m (sysOr before c) :=
  Ends.mapError (sys_still hm hc)

theorem sysRaw_still (hm : m.Calm) (hc : Calls c) : Still id κ m (sysRaw c) :=
  Ends.mapError (sys_still hm hc)

/-- Such a part, and then the rest. -/
theorem Still.bind {Q : β → Known whole.region → Prop} (hm : m.Calm) (hp : Still id κ m p)
    (hP : P κ) (hf : ∀ a m', m'.Calm → (f a).Safe (faults id) (Ends m' Q P) (κ, m')) :
    (p >>= f).Safe (faults id) (Ends m Q P) (κ, m) := by
  refine Ends.bind hm hp ?_ ?_
  · rintro κ' rfl
    exact hP
  · rintro a κ' m' hm' rfl
    exact hf a m' hm'

/-- Such a part after the step that failed, and then the rest. -/
theorem Still.cleans_bind {Q : β → Known whole.region → Prop} (hp : Still id κ (.struck b) p)
    (hf : ∀ a, (f a).Safe (faults id) (Cleans b Q) (κ, .struck b)) :
    (p >>= f).Safe (faults id) (Cleans b Q) (κ, .struck b) := by
  refine Cleans.bind (Ends.cleans hp) ?_
  rintro a κ' rfl
  exact hf a

theorem calm_struck (b : Bool) : (Fate.struck b).Calm := Or.inr ⟨b, rfl⟩

theorem newSuffix_still (hm : m.Calm) : Still id κ m newSuffix := by
  refine ⟨trivial, fun r x h => ?_⟩
  obtain ⟨κ', m'⟩ := x
  obtain rfl : κ' = κ := h.1.2
  have ho : Routine id .suffix := fun r => rfl
  cases r with
  | ok a =>
    rcases next_of_calm hm ho h.2 with ⟨-, hx⟩ | ⟨hw, -⟩
    · exact ⟨Or.inl hx, rfl⟩
    · nomatch hw
  | error e =>
    rcases next_of_calm hm ho h.2 with ⟨hw, -⟩ | ⟨-, hrun, hx⟩
    · nomatch hw
    · exact ⟨hrun, hx, rfl⟩

theorem openRootOr_still {before : GoString} (hm : m.Calm) : Still id κ m (openRootOr before) := by
  have hroot : Still id κ m (.step .openRoot .ret : Task Unit) := by
    refine ⟨trivial, fun r x h => ?_⟩
    obtain ⟨κ', m'⟩ := x
    obtain rfl : κ' = κ := h.1.2
    have ho : Routine id .openRoot := fun r => rfl
    cases r with
    | ok a =>
      rcases next_of_calm hm ho h.2 with ⟨-, hx⟩ | ⟨hw, -⟩
      · exact ⟨Or.inl hx, rfl⟩
      · nomatch hw
    | error e =>
      rcases next_of_calm hm ho h.2 with ⟨hw, -⟩ | ⟨-, hrun, hx⟩
      · nomatch hw
      · exact ⟨hrun, hx, rfl⟩
  exact Ends.mapError hroot

theorem syncFD_still {root : Root} {p : Path} (hm : m.Calm) : Still id κ m (syncFD root p) :=
  sysOr_still hm trivial

/-! ## Looking -/

/-- What an answer of `entryModeAt` tells: what is there, or that a step has failed. -/
def Looked (m : Fate) (κ : Known whole.region) (p : Path) :
    Except ε (Option Kind) → Known whole.region × Fate → Prop
  | .ok (some k), x => x = (κ, m) ∧ ∃ node, κ.1 p = some node ∧ node.kind = k
  | .ok none, x => (x = (κ, m) ∧ κ.1 p = none) ∨ (m = .running .settled ∧ x = (κ, .struck false))
  | .error _, x => m = .running .settled ∧ x = (κ, .struck false)

theorem entryModeAt_looked {p : Path} (hm : m.Calm) :
    (entryModeAt p).Safe (faults id) (Looked m κ p) (κ, m) := by
  have hq : Confined NoRegion (.fs (.stat p)) := fun q hq => nomatch hq
  have hc : Routine id (.fs (.stat p)) := fun r => rfl
  have hstat : ((sys (.stat p)).attempt : Task _).Safe (faults id) (fun r x => ∃ y, r = .ok y ∧
      whole.step κ (.fs (.stat p)) y x.1 ∧ ((works κ.1 (.fs (.stat p)) y = true ∧ x.2 = m) ∨
        (works κ.1 (.fs (.stat p)) y = false ∧ m = .running .settled ∧ x.2 = .struck false)))
      (κ, m) :=
    Safe.attempt (sys_marks hm hc) fun y x h => ⟨y, rfl, h⟩
  refine Safe.bind hstat ?_ fun e x h => ?_
  · rintro r ⟨κ', m'⟩ ⟨y, hy, hstep, hfate⟩
    cases hy
    obtain rfl : κ' = κ := step_quiet hstep hq
    cases r with
    | ok k =>
      rcases hfate with ⟨-, rfl⟩ | ⟨hw, -⟩
      · exact ⟨rfl, step_stat hstep trivial⟩
      · nomatch hw
    | error e =>
      rcases hfate with ⟨hw, rfl⟩ | ⟨hw, hrun, rfl⟩
      · cases e with
        | enoent => exact Or.inl ⟨rfl, Option.isNone_iff_eq_none.mp hw⟩
        | _ => nomatch hw
      · cases e with
        | enoent => exact Or.inr ⟨hrun, rfl⟩
        | _ => exact ⟨hrun, rfl⟩
  · obtain ⟨y, hy, -⟩ := h
    nomatch hy

/-- There is no temporary file in a directory. -/
def NoTemp (v : View GoString) (d : Path) : Prop := ∀ suffix, v (d ++ [lit ".tmp-" ++ suffix]) = none

/-- Where there is no temporary file, the first name that is tried is free. -/
theorem uniqueTempName_ends {d : Path} {left : Nat} (hm : m.Calm) (hno : NoTemp κ.1 d) :
    (uniqueTempName d (left + 1)).Safe (faults id)
      (Ends m (fun tmp κ' => κ' = κ ∧ κ.1 (d ++ [tmp]) = none) fun κ' => κ' = κ) (κ, m) := by
  refine Still.bind hm (newSuffix_still hm) rfl fun suffix m1 hm1 => ?_
  have hnone : κ.1 (d ++ [lit ".tmp-" ++ suffix]) = none := hno suffix
  generalize lit ".tmp-" ++ suffix = tmp at hnone
  have hq : Confined NoRegion (.fs (.stat (d ++ [tmp]))) := fun q hq => nomatch hq
  have hc : Routine id (.fs (.stat (d ++ [tmp]))) := fun r => rfl
  have hstat : ((sys (.stat (d ++ [tmp]))).attempt : Task _).Safe (faults id)
      (fun r x => ∃ e, r = .ok (.error e) ∧ x.1 = κ ∧ ((e = .enoent ∧ x.2 = m1) ∨
        (e ≠ .enoent ∧ m1 = .running .settled ∧ x.2 = .struck false))) (κ, m1) := by
    refine Safe.attempt (sys_marks hm1 hc) ?_
    rintro y ⟨κ', m'⟩ ⟨hstep, hfate⟩
    obtain rfl : κ' = κ := step_quiet hstep hq
    cases y with
    | ok k =>
      obtain ⟨node, hnode, -⟩ := step_stat hstep trivial
      nomatch hnone.symm.trans hnode
    | error e =>
      refine ⟨e, rfl, rfl, ?_⟩
      rcases hfate with ⟨hw, hx⟩ | ⟨hw, hrun, hx⟩
      · cases e with
        | enoent => exact Or.inl ⟨rfl, hx⟩
        | _ => nomatch hw
      · refine Or.inr ⟨?_, hrun, hx⟩
        rintro rfl
        rw [works, hnone] at hw
        nomatch hw
  refine Safe.bind hstat ?_ fun e x h => ?_
  · rintro r ⟨κ', m'⟩ ⟨e, hr, hκ, hcase⟩
    cases hr
    obtain rfl : κ' = κ := hκ
    rcases hcase with ⟨rfl, hx⟩ | ⟨hne, hrun, hx⟩
    · exact ⟨Or.inl hx, rfl, hnone⟩
    · cases e with
      | enoent => exact (hne rfl).elim
      | _ => exact ⟨hrun, hx, rfl⟩
  · obtain ⟨_, hx, -⟩ := h
    nomatch hx

/-! ## Making directories and files -/

/-- A directory inside a staging or publish directory. -/
def Deep (d : Path) : Prop := 2 ≤ d.length

instance {d : Path} : Decidable (Deep d) := inferInstanceAs (Decidable (2 ≤ d.length))

theorem Deep.append {d : Path} (h : Deep d) (n : GoString) : Deep (d ++ [n]) := by
  unfold Deep at h ⊢
  rw [length_append]
  omega

theorem routine_mkdir {d : Path} (hd : Deep d) : Routine id (.fs (.mkdir d n)) := by
  intro r
  cases r with
  | error e => rfl
  | ok u =>
    refine if_neg ?_
    rintro (rfl | rfl)
    · exact absurd hd (by decide)
    · exact absurd hd (by decide)

theorem routine_rename {sd dd : Path} {sn dn : GoString} (hd : Deep dd) :
    Routine id (.fs (.rename sd sn dd dn)) := by
  intro r
  cases r with
  | error e => rfl
  | ok u =>
    refine if_neg fun hx => ?_
    have hlen := congrArg List.length hx
    rw [length_append, payloadDir, length_append] at hlen
    unfold Deep at hd
    simp only [length_cons, length_nil, payloadsRoot] at hlen
    omega

theorem strict_rename {sd dd : Path} {sn dn : GoString} (hs : Deep sd) :
    Strict v (.rename sd sn dd dn) := by
  intro e
  cases e with
  | exdev =>
    refine decide_eq_false ?_
    rintro ⟨rfl, -⟩
    exact absurd hs (by decide)
  | _ => rfl

theorem settleDirectoryAt_still {root : Root} {d : Path} {name : GoString} (hm : m.Calm) :
    Still id κ m (settleDirectoryAt root d name) :=
  Still.bind hm (sysOr_still hm trivial) rfl fun _ _ hm1 =>
    Still.bind hm1 (sysOr_still hm1 trivial) rfl fun _ _ hm2 =>
      Still.bind hm2 (syncFD_still hm2) rfl fun _ _ hm3 => syncFD_still hm3

variable {root : Root} {d : Path} {name : GoString}

/-- A directory that could not be made is empty, or not there. -/
theorem createDirectoryAt_ends (hm : m.Calm) (hd : Deep d) :
    (createDirectoryAt root d name).Safe (faults id) (Ends m
      (fun _ κ' => κ.1.sub (d ++ [name]) = nothing ∧
        κ'.1 = κ.1.graft (d ++ [name]) (leaf .dir))
      fun κ' => κ' = κ ∨ κ'.1 = κ.1.graft (d ++ [name]) (leaf .dir)) (κ, m) := by
  have hmkdir : (sys (.mkdir d name)).Safe (faults id) (Ends m
      (fun _ κ' => κ.1.sub (d ++ [name]) = nothing ∧
        κ'.1 = κ.1.graft (d ++ [name]) (leaf .dir)) fun κ' => κ' = κ) (κ, m) := by
    refine sys_ends hm (routine_mkdir hd) (fun e => rfl) (fun a κ' h => ?_) fun e κ' h => ?_
    · exact step_made h (whole_seen _)
    · rcases step_mkdir h (whole_seen _) with ⟨hx, -⟩ | ⟨-, hκ⟩
      · nomatch hx
      · exact hκ
  refine Ends.bind hm (Ends.mapError hmkdir) (fun κ' h => Or.inl h) ?_
  rintro _ κ1 m1 hm1 hmade
  refine Ends.mono ?_ ?_ (settleDirectoryAt_still hm1)
  · rintro _ κ' rfl
    exact hmade
  · rintro κ' rfl
    exact Or.inr hmade.2

/-- What a temporary file can be. -/
def TempPart (part : View GoString) : Prop :=
  part = nothing ∨ ∃ data, part = leaf (.file data)

/-- A temporary file is unlinked, or was never made. -/
theorem unlink_cleans {tmp : GoString} {part : View GoString}
    (hpart : TempPart part) (hnone : κ.1.sub (d ++ [tmp]) = nothing) (κ' : Known whole.region)
    (hκ' : κ'.1 = κ.1.graft (d ++ [tmp]) part) :
    (sys (.unlink d tmp)).Safe (faults id) (fun _ x => x.2 = .struck false ∧ x.1 = κ)
      (κ', .struck false) := by
  have hc : Routine id (.fs (.unlink d tmp)) := fun r => rfl
  refine Safe.mono ?_ (sys_marks (Or.inr ⟨false, rfl⟩) hc)
  rintro r ⟨κ'', m''⟩ ⟨hstep, ⟨hw, hx⟩ | ⟨-, hx, -⟩⟩
  · refine ⟨hx, Subtype.ext ?_⟩
    cases r with
    | ok u =>
      rw [step_unlink hstep (whole_seen _), hκ', graft_graft, graft_of_sub hnone]
    | error e =>
      -- nothing to unlink: the file had not been made
      have hmissing : e = .enoent ∧ κ'.1 (d ++ [tmp]) = none := by
        cases e with
        | enoent => exact ⟨rfl, Option.isNone_iff_eq_none.mp hw⟩
        | _ => nomatch hw
      obtain ⟨rfl, hmissing⟩ := hmissing
      have hsame : κ'' = κ' := by
        obtain ⟨cc, t, t', -, ht, hp, ht'⟩ := hstep
        rcases step_changing ht hp ht' with ⟨hx, -⟩ | ⟨-, hκ⟩
        · nomatch hx
        · exact hκ
      rw [hsame, hκ']
      rcases hpart with rfl | ⟨data, rfl⟩
      · exact graft_of_sub hnone
      · rw [hκ', graft_self] at hmissing
        nomatch hmissing
  · nomatch hx

/-- What a write that stops half-way leaves. -/
theorem step_wrote {old : List UInt8} {e : Errno} {κ' : Known whole.region}
    (h : whole.step κ (.fs (.write d n data)) (.error e) κ')
    (hold : κ.1.sub (d ++ [n]) = leaf (.file old)) :
    ∃ part, κ'.1 = κ.1.graft (d ++ [n]) (leaf (.file part)) := by
  obtain ⟨cc, t, t', -, ht, hp, ht'⟩ := h
  rcases Call.writing_cases hp with ⟨hx, -⟩ | ⟨-, rfl | ⟨part, happ⟩⟩
  · nomatch hx
  · refine ⟨old, ?_⟩
    rw [← ht', ht, graft_of_sub hold]
  · refine ⟨old ++ part, ?_⟩
    rw [← ht] at hold ⊢
    rw [← ht']
    exact Files.on_write happ (whole_seen _) hold

/-- What is there when a step fails is the temporary file. -/
theorem writeTemp_ends {tmp : GoString} (hm : m.Calm) (hd : Deep d)
    (hnone : κ.1.sub (d ++ [tmp]) = nothing) :
    (writeTemp root d tmp name data).Safe (faults id) (Ends m
      (fun _ κ' => κ'.1 = κ.1.graft (d ++ [name]) (leaf (.file data)))
      fun κ' => ∃ part, TempPart part ∧ κ'.1 = κ.1.graft (d ++ [tmp]) part) (κ, m) := by
  have hcreate : (sys (.create d tmp)).Safe (faults id) (Ends m
      (fun _ κ' => κ'.1 = κ.1.graft (d ++ [tmp]) (leaf (.file []))) fun κ' => κ' = κ) (κ, m) := by
    refine sys_ends hm (fun r => rfl) (fun e => rfl) (fun a κ' h => ?_) fun e κ' h => ?_
    · exact (step_create h (whole_seen _)).2
    · obtain ⟨cc, t, t', -, ht, hp, ht'⟩ := h
      rcases step_changing ht hp ht' with ⟨hx, -⟩ | ⟨-, hκ⟩
      · nomatch hx
      · exact hκ
  refine Ends.bind hm (Ends.mapError hcreate) ?_ ?_
  · rintro κ' rfl
    exact ⟨nothing, Or.inl rfl, (graft_of_sub hnone).symm⟩
  intro _ κ1 m1 hm1 hκ1
  have hfile : κ1.1.sub (d ++ [tmp]) = leaf (.file []) := by rw [hκ1, sub_graft]
  have hwrite : (sys (.write d tmp data)).Safe (faults id) (Ends m1
      (fun _ κ' => κ'.1 = κ.1.graft (d ++ [tmp]) (leaf (.file data)))
      fun κ' => ∃ part, TempPart part ∧ κ'.1 = κ.1.graft (d ++ [tmp]) part) (κ1, m1) := by
    refine sys_ends hm1 (fun r => rfl) (fun e => rfl) (fun a κ' h => ?_) fun e κ' h => ?_
    · rw [step_write h (whole_seen _) hfile, hκ1, graft_graft, nil_append]
    · obtain ⟨part, hpart⟩ := step_wrote h hfile
      rw [hκ1, graft_graft] at hpart
      exact ⟨_, Or.inr ⟨part, rfl⟩, hpart⟩
  refine Ends.bind hm1 (Ends.mapError hwrite) (fun κ' h => h) ?_
  intro _ κ2 m2 hm2 hκ2
  have hleft : ∃ part, TempPart part ∧ κ2.1 = κ.1.graft (d ++ [tmp]) part :=
    ⟨_, Or.inr ⟨data, rfl⟩, hκ2⟩
  refine Still.bind hm2 (sysOr_still hm2 trivial) hleft fun _ m3 hm3 => ?_
  refine Still.bind hm3 (sysOr_still hm3 trivial) hleft fun _ m4 hm4 => ?_
  refine Still.bind hm4 (sysOr_still hm4 trivial) hleft fun _ m5 hm5 => ?_
  have hrename : (sys (.rename d tmp d name)).Safe (faults id) (Ends m5
      (fun _ κ' => κ'.1 = κ.1.graft (d ++ [name]) (leaf (.file data)))
      fun κ' => κ' = κ2) (κ2, m5) := by
    refine sys_ends hm5 (routine_rename hd) (strict_rename hd) (fun a κ' h => ?_) fun e κ' h => ?_
    · rcases step_rename h (whole_seen _) (whole_seen _) with
        ⟨-, -, ⟨heq, hκ'⟩ | ⟨-, hκ'⟩⟩ | ⟨⟨e, he⟩, -⟩
      · rw [hκ', hκ2, heq]
      · rw [hκ', hκ2, sub_graft, graft_graft, graft_of_sub hnone]
      · nomatch he
    · rcases step_rename h (whole_seen _) (whole_seen _) with ⟨hx, -⟩ | ⟨-, hκ⟩
      · nomatch hx
      · exact hκ
  refine Ends.mono (fun _ κ' h => h) ?_ (Ends.mapError hrename)
  rintro κ' rfl
  exact hleft

/-- Nothing is seen below a path where nothing is. -/
theorem sub_of_none {p : Path} (h : κ.1 p = none) : κ.1.sub p = nothing := by
  obtain ⟨t, ht⟩ := κ.2
  rw [← ht] at h ⊢
  exact Files.sub_on_none (whole_seen p) h

/-- A file that could not be written is there as a whole, or not at all. -/
theorem writeRegularFileAt_ends (hm : m.Calm) (hd : Deep d) (hno : NoTemp κ.1 d) :
    (writeRegularFileAt root d name data).Safe (faults id) (Ends m
      (fun _ κ' => κ'.1 = κ.1.graft (d ++ [name]) (leaf (.file data)))
      fun κ' => κ' = κ ∨ κ'.1 = κ.1.graft (d ++ [name]) (leaf (.file data))) (κ, m) := by
  refine Ends.bind hm (Ends.mapError (uniqueTempName_ends hm hno)) (fun κ' h => Or.inl h) ?_
  rintro tmp κ0 m0 hm0 ⟨rfl, hnone⟩
  have hsub := sub_of_none hnone
  refine Ends.bind hm0 (Ends.onFail (writeTemp_ends hm0 hd hsub) ?_) (fun κ' h => Or.inl h) ?_
  · rintro κ' ⟨part, hpart, hκ'⟩
    exact unlink_cleans hpart hsub κ' hκ'
  · intro _ κ1 m1 hm1 hκ1
    refine Ends.mono ?_ ?_ (syncFD_still hm1)
    · rintro _ κ' rfl
      exact hκ1
    · rintro κ' rfl
      exact Or.inr hκ1

/-! ## Removing trees -/

/-- A tree that holds only directories and regular files. -/
def Tame (v : View GoString) : Prop := ∀ q node, v q = some node → node.kind ≠ .other

/-- A part of such a tree, of which some things may be missing, is such a tree. -/
theorem Tame.part {v' : View GoString} (h : Tame v) (hv : ∀ q, v' q = v q ∨ v' q = none) :
    Tame v' := by
  intro q node hnode
  rcases hv q with hx | hx
  · exact h q node (hx ▸ hnode)
  · nomatch hx.symm.trans hnode

theorem Tame.entry (h : Tame v) (n : GoString) : Tame (v.sub [n]) := fun q => h ([n] ++ q)

theorem tame_nothing : Tame nothing := fun _ _ hx => nomatch hx

theorem tame_leaf {node : Node} (h : node.kind ≠ .other) : Tame (leaf node) := by
  intro q node' hx
  cases q with
  | nil =>
    cases hx
    exact h
  | cons n q => nomatch hx

theorem tame_dir : Tame (leaf .dir) := tame_leaf nofun

theorem tame_file (data : List UInt8) : Tame (leaf (.file data)) := tame_leaf nofun

/-- A tame tree with another one in the place of an entry. -/
theorem Tame.graft {u : View GoString} (h : Tame v) (hu : Tame u) : Tame (v.graft [n] u) := by
  intro q node hx
  by_cases hn : [n] <+: q
  · obtain ⟨y, rfl⟩ := hn
    rw [graft_append] at hx
    exact hu y node hx
  · rw [graft_other hn] at hx
    exact h q node hx

/-- The rule for a loop over a list. -/
theorem forEach_ends {f : α → Task Unit} {as : List α} {P : Known whole.region → Prop}
    (I : List α → Known whole.region → Prop) (hm : m.Calm) (hstart : I [] κ)
    (hstep : ∀ done a rest κ' m', as = done ++ a :: rest → m'.Calm → I done κ' →
      (f a).Safe (faults id) (Ends m' (fun _ κ'' => I (done ++ [a]) κ'') P) (κ', m')) :
    (forEach f as).Safe (faults id) (Ends m (fun _ κ' => I as κ') P) (κ, m) := by
  refine Safe.mono ?_ (forEach_safe (L := faults id)
    (F := fun _ x => m = .running .settled ∧ x.2 = .struck false ∧ P x.1)
    (fun done x => Later m x.2 ∧ I done x.1) ⟨Or.inl rfl, hstart⟩ ?_)
  · intro out x h
    cases out with
    | ok u | error e => exact h
  · rintro done a rest ⟨κ', m'⟩ has ⟨hl, hI⟩
    refine Safe.mono ?_ (hstep done a rest κ' m' has (hl.calm hm) hI)
    intro out x h
    cases out with
    | ok u => exact ⟨hl.trans h.1, h.2⟩
    | error e => exact ⟨hl.running h.1, h.2⟩

theorem forEach_cleans {f : α → Task Unit} {as : List α} (I : List α → Known whole.region → Prop)
    (hstart : I [] κ) (hstep : ∀ done a rest κ', as = done ++ a :: rest → I done κ' →
      (f a).Safe (faults id) (Cleans b fun _ κ'' => I (done ++ [a]) κ'') (κ', .struck b)) :
    (forEach f as).Safe (faults id) (Cleans b fun _ κ' => I as κ') (κ, .struck b) := by
  refine Safe.mono ?_ (forEach_safe (L := faults id) (F := fun _ _ => False)
    (fun done x => x.2 = .struck b ∧ I done x.1) ⟨rfl, hstart⟩ ?_)
  · intro out x h
    cases out with
    | ok u | error e => exact h
  · rintro done a rest ⟨κ', m'⟩ has ⟨hx, hI⟩
    obtain rfl : m' = .struck b := hx
    refine Safe.mono ?_ (hstep done a rest κ' has hI)
    intro out x h
    cases out with
    | ok u | error e => exact h

theorem readDirectoryEntriesFD_ends {p : Path} (hm : m.Calm) :
    (readDirectoryEntriesFD p).Safe (faults id) (Ends m (fun l κ' => κ' = κ ∧
      κ.1 p = some .dir ∧ l.Nodup ∧ ∀ n, n ∈ l ↔ κ.1 (p ++ [n]) ≠ none) fun κ' => κ' = κ) (κ, m) := by
  refine Still.bind hm (sysRaw_still hm trivial) rfl fun _ m1 hm1 => Ends.mapError ?_
  exact look_ends (c := .readDir p) hm1 trivial fun l h => step_readDir h (whole_seen p)

/-- An entry that is not there has nothing below it. -/
theorem below_none {p : Path} (h : κ.1 (p ++ [n]) = none) (q : Path) :
    κ.1 (p ++ n :: q) = none := by
  obtain ⟨t, ht⟩ := κ.2
  rw [← ht] at h ⊢
  exact Files.on_entry_none (whole_seen p) h q

theorem removeEntry_cleans {contents : Path → Task Unit} (ht : Tame (κ.1.sub (d ++ [name])))
    (hcontents : κ.1 (d ++ [name]) ≠ none → (contents (d ++ [name])).Safe (faults id) (Cleans b
      fun _ κ' => κ'.1 = κ.1.graft (d ++ [name]) (leaf .dir)) (κ, .struck b)) :
    (removeEntry root contents d name).Safe (faults id) (Cleans b
      fun _ κ' => κ'.1 = κ.1.graft (d ++ [name]) nothing) (κ, .struck b) := by
  have hm := calm_struck b
  have hlook : ((entryModeAt (d ++ [name])).mapError
      (.wrap (about root "stat spool entry" (d ++ [name]))) : Task (Option Kind)).Safe (faults id)
      (Looked (.struck b) κ (d ++ [name])) (κ, .struck b) := by
    refine Safe.mapError (entryModeAt_looked hm) (fun _ _ h => h) ?_
    rintro e x ⟨hx, -⟩
    nomatch hx
  refine Safe.bind hlook ?_ fun e x h => nomatch h.1
  intro mode x h
  cases mode with
  | none =>
    rcases h with ⟨rfl, hnone⟩ | ⟨hx, -⟩
    · exact ⟨rfl, (graft_of_sub (sub_of_none hnone)).symm⟩
    · nomatch hx
  | some kind =>
    obtain ⟨rfl, node, hnode, rfl⟩ := h
    have hplain : node.kind ≠ .other := by
      exact ht [] node ((sub_nil ..).trans hnode)
    have hthere : κ.1 (d ++ [name]) ≠ none := by
      rw [hnode]
      nofun
    cases hk : node.kind with
    | dir =>
      refine Still.cleans_bind (sysOr_still hm trivial) fun _ => ?_
      refine Cleans.bind (hcontents hthere) fun _ κ1 hκ1 => ?_
      refine Still.cleans_bind (sysOr_still hm trivial) fun _ => ?_
      refine Cleans.mapError (Ends.cleans (P := fun _ => True) ?_)
      refine sys_ends (c := .rmdir d name) hm (fun r => rfl) (fun e => rfl) (fun a κ2 h => ?_)
        fun _ _ _ => trivial
      rw [step_rmdir h (whole_seen _), hκ1, graft_graft]
    | reg =>
      have hstrict : Strict κ.1 (.unlink d name) := by
        intro e
        cases e with
        | enoent =>
          rw [works, hnode]
          rfl
        | _ => rfl
      refine Cleans.mapError (Ends.cleans (P := fun _ => True) ?_)
      exact sys_ends (c := .unlink d name) hm (fun r => rfl) hstrict (fun a κ1 h => step_unlink h (whole_seen _))
        fun _ _ _ => trivial
    | other => exact absurd hk hplain

/-- **A tame directory is emptied**, when no step fails. -/
theorem removeTreeContents_cleans {depth : Nat} {p : Path} (ht : Tame (κ.1.sub p)) :
    (removeTreeContents root depth p).Safe (faults id) (Cleans b
      fun _ κ' => κ'.1 = κ.1.graft p (leaf .dir)) (κ, .struck b) := by
  induction depth generalizing p κ with
  | zero => exact Safe.diverge
  | succ depth ih =>
    refine Cleans.bind (Cleans.mapError (Ends.cleans (readDirectoryEntriesFD_ends (calm_struck b)))) ?_
    rintro l κ0 ⟨rfl, hdir, -, hmem⟩
    have hroot : κ0.1.sub p [] = some .dir := (sub_nil ..).trans hdir
    -- the entries removed so far are missing below the directory
    have hloop : (forEach (removeEntry root (removeTreeContents root depth) p) l).Safe (faults id)
        (Cleans b fun _ κ' => κ'.1 = κ0.1.graft p ((κ0.1.sub p).keep (· ∉ l))) (κ0, .struck b) := by
      refine forEach_cleans (fun done κ' => κ'.1 = κ0.1.graft p ((κ0.1.sub p).keep (· ∉ done))) ?_ ?_
      · rw [keep_all hroot fun n q _ => not_mem_nil, graft_sub]
      · intro done n rest κ' hl hκ'
        have hentry : Tame (κ'.1.sub (p ++ [n])) := by
          refine (ht.entry n).part fun q => ?_
          rw [hκ', sub_graft_below]
          by_cases hdone : n ∈ done
          · exact Or.inr (keep_neg (fun hx => hx hdone) q)
          · exact Or.inl (keep_pos (N := (· ∉ done)) hdone q)
        refine Cleans.mono ?_ (removeEntry_cleans hentry fun _ => ih hentry)
        intro _ κ'' hκ''
        rw [hκ'', hκ', graft_below, keep_remove]
        congr 1
        exact keep_congr fun m => by simp
    refine Cleans.mono ?_ hloop
    intro _ κ' hκ'
    rw [hκ', keep_none]
    intro n q hn
    have hnone : κ0.1 (p ++ [n]) = none := by
      by_contra hne
      exact hn ((hmem n).mpr hne)
    exact below_none hnone q

/-- **A deferred clean-up removes a tame entry.** -/
theorem discardEntry_cleans (ht : Tame (κ.1.sub (d ++ [name]))) :
    (discardEntry root d name).Safe (faults id) (Cleans b
      fun _ κ' => κ'.1 = κ.1.graft (d ++ [name]) nothing) (κ, .struck b) := by
  have hremove : (removeEntryTreeAt root d name).Safe (faults id) (Cleans b
      fun _ κ' => κ'.1 = κ.1.graft (d ++ [name]) nothing) (κ, .struck b) :=
    removeEntry_cleans ht fun _ => removeTreeContents_cleans ht
  refine Cleans.bind (Cleans.ignore hremove) ?_
  rintro _ κ1 ⟨_, hκ1⟩
  refine Cleans.mono ?_ (Cleans.ignore (Ends.cleans (syncFD_still (calm_struck b))))
  rintro _ κ2 ⟨_, rfl⟩
  exact hκ1

end SmtpCloudRelay.Spool
