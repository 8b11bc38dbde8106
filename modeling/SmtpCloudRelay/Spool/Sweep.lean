/-
  QUARANTINING ORPHANS: what the sweep over `payloads/` does to the tree, also when steps of it go wrong.

  An orphan is an entry of `payloads/` whose name is not the id of a record.  The sweep moves it to a
  name of `payload-orphans/` that is free, by a rename or, across file systems, by a copy that is followed
  by a removal, and it stops at the first orphan that it cannot move.  The orphans before that one have
  moved as a whole (`Moved`); it has moved itself, or stays where it is, or is there twice, as a copy among
  the orphans and as what is left of the source — or it is lost: the removal of the source stopped
  half-way, and then the clean-up removed the copy as well (`copyAndRemoveOrphan`).

  The last end is visible in the trace.  A small automaton reads the steps (`Loss`): an entry of a source
  is gone and its directory is not, A STEP FAILS, and then an entry among the orphans goes as well.  A
  sweep destroys nothing EXACTLY IF the automaton does not get there (`quarantineOrphans_sound_iff`), and
  one that succeeds has moved every orphan and nothing else (`Swept`).
-/
import SmtpCloudRelay.Spool.Crash

namespace SmtpCloudRelay.Spool

open Go Lib Act View List Watch
open Prog (Runs)

/-- The tree of a world. -/
def World.tree (W : World) : View GoString := fun q => W.files.get q

/-! ## The removals in a trace -/

/-- The entry that a step has removed. -/
def removed : (o : Op) → o.Res → Option Path
  | .fs (.unlink d n), .ok _ => some (d ++ [n])
  | .fs (.rmdir d n), .ok _ => some (d ++ [n])
  | _, _ => none

/-- A step at which a removal stops: a call that fails, or a look at what is neither a file nor a
    directory. -/
def stops : (o : Op) → o.Res → Bool
  | .fs (.stat _), .ok .other => true
  | .fs _, .error _ => true
  | _, _ => false

/-- What has been removed without a copy of it being safe. -/
inductive Loss where
  | nothing
  /-- An entry of the directory `payloads/<name>`. -/
  | source (name : GoString)
  /-- The same, and a step has failed since. -/
  | failed (name : GoString)
  /-- And then an entry among the orphans. -/
  | both
  deriving DecidableEq

namespace Loss

/-- A removal: the source counts as incomplete until its directory is removed as well. -/
def next : Loss → Path → Loss
  | .nothing, root :: name :: _ :: _ => if [root] = payloadsRoot then .source name else .nothing
  | .nothing, _ => .nothing
  | .source name, p => if p = payloadsRoot ++ [name] then .nothing else .source name
  | .failed name, p =>
    if p = payloadsRoot ++ [name] then .nothing
    else if orphanRoot <+: p then .both
    else .failed name
  | .both, _ => .both

/-- A step that fails: it matters while a source is incomplete. -/
def fail : Loss → Loss
  | .source name => .failed name
  | l => l

/-- One event. -/
def after (l : Loss) (ev : SpoolEvent) : Loss :=
  match removed ev.op ev.res with
  | some p => l.next p
  | none => if stops ev.op ev.res then l.fail else l

/-- A whole trace. -/
def run (l : Loss) (tr : Trace) : Loss := tr.foldl after l

/-- The removal of this source has begun. -/
def Begun (name : GoString) (l : Loss) : Prop := l = .source name ∨ l = .failed name

variable {l : Loss} {name : GoString} {p : Path} {tr : Trace}

theorem run_append (l : Loss) (tr tr' : Trace) :
    l.run (tr ++ tr') = (l.run tr).run tr' := foldl_append ..

theorem after_none {ev : SpoolEvent} (h : removed ev.op ev.res = none) :
    l.after ev = l ∨ l.after ev = l.fail := by
  unfold after
  rw [h]
  dsimp only
  split
  · exact Or.inr rfl
  · exact Or.inl rfl

theorem after_some {ev : SpoolEvent} (h : removed ev.op ev.res = some p) :
    l.after ev = l.next p := by
  unfold after
  rw [h]

theorem run_idle (hfail : l.fail = l)
    (h : ∀ ev ∈ tr, ∀ p, removed ev.op ev.res = some p → l.next p = l) : l.run tr = l := by
  induction tr with
  | nil => rfl
  | cons ev tr ih =>
    have hone : l.after ev = l := by
      cases hr : removed ev.op ev.res with
      | none => exact (after_none hr).elim id fun h => h.trans hfail
      | some p => rw [after_some hr, h ev (mem_cons_self ..) p hr]
    show (l.after ev).run tr = l
    rw [hone]
    exact ih fun ev' hev => h ev' (mem_cons_of_mem _ hev)

theorem next_orphans (h : orphanRoot <+: p) : Loss.nothing.next p = .nothing := by
  obtain ⟨q, rfl⟩ := h
  have hne : [lit "payload-orphans"] ≠ payloadsRoot := by decide
  match q with
  | [] => rfl
  | [_] => rfl
  | name :: _ :: _ =>
    show (if [lit "payload-orphans"] = payloadsRoot then Loss.source name else .nothing) = .nothing
    exact if_neg hne

theorem not_orphans (q : Path) : ¬ orphanRoot <+: payloadsRoot ++ q := by
  rintro ⟨r, hr⟩
  have hne : lit "payload-orphans" ≠ lit "payloads" := by decide
  exact hne (List.cons.inj hr).1

theorem next_copy (h : orphanRoot <+: p) : (Loss.failed name).next p = .both := by
  have hne : p ≠ payloadsRoot ++ [name] := by
    rintro rfl
    exact not_orphans [name] h
  exact (if_neg hne).trans (if_pos h)

/-- Once the removal of a source has failed, the first removal among the orphans decides. -/
theorem run_copy (h : ∀ ev ∈ tr, ∀ p, removed ev.op ev.res = some p → orphanRoot <+: p)
    (hsome : ∃ ev ∈ tr, removed ev.op ev.res ≠ none) : (Loss.failed name).run tr = .both := by
  induction tr with
  | nil =>
    obtain ⟨ev, hev, -⟩ := hsome
    nomatch hev
  | cons ev tr ih =>
    show ((Loss.failed name).after ev).run tr = .both
    cases hr : removed ev.op ev.res with
    | none =>
      have hsame : (Loss.failed name).after ev = .failed name := (after_none hr).elim id id
      rw [hsame]
      refine ih (fun ev' hev => h ev' (mem_cons_of_mem _ hev)) ?_
      obtain ⟨ev', hev', hne⟩ := hsome
      rcases mem_cons.mp hev' with rfl | hev'
      · exact absurd hr hne
      · exact ⟨ev', hev', hne⟩
    | some p =>
      rw [after_some hr, next_copy (h ev (mem_cons_self ..) p hr)]
      exact run_idle rfl fun _ _ _ _ => rfl

theorem next_inside {n : GoString} (h : Below (payloadsRoot ++ [name] ++ [n]) p) :
    Loss.nothing.next p = .source name ∧ ∀ l, Begun name l → Begun name (l.next p) := by
  obtain ⟨q, rfl⟩ := h
  have hne : payloadsRoot ++ [name] ++ [n] ++ q ≠ payloadsRoot ++ [name] := by
    intro heq
    have hlen := congrArg List.length heq
    simp at hlen
  constructor
  · show (if [lit "payloads"] = payloadsRoot then Loss.source name else .nothing) = .source name
    exact if_pos rfl
  · rintro l (rfl | rfl)
    · exact Or.inl (if_neg hne)
    · refine Or.inr ((if_neg hne).trans (if_neg ?_))
      rw [append_assoc, append_assoc]
      exact not_orphans _

theorem Begun.fail (h : Begun name l) : l.fail = .failed name := by
  rcases h with rfl | rfl <;> rfl

/-- With its directory the source is gone. -/
theorem next_whole (h : l = .nothing ∨ Begun name l) : l.next (payloadsRoot ++ [name]) = .nothing := by
  rcases h with rfl | rfl | rfl
  · rfl
  · exact if_pos rfl
  · exact if_pos rfl

end Loss

/-! ## What a removal leaves -/

section Removal

variable {W W' : World} {tr : Trace} {root : Root}
variable {d D : Path} {name : GoString}

/-- A step that only looks at the tree or removes an entry. -/
def Cuts : Op → Prop
  | .fs (.stat _) => True
  | .fs (.openDir _) => True
  | .fs (.readDir _) => True
  | .fs (.quiet _) => True
  | .fs (.unlink _ _) => True
  | .fs (.rmdir _ _) => True
  | _ => False

theorem removeEntry_cuts {contents : Path → Task Unit} (hc : (contents (d ++ [name])).Uses Cuts) :
    (removeEntry root contents d name).Uses Cuts := by
  refine Uses.bind (entryModeAt_uses trivial).mapError fun mode => ?_
  rcases mode with _ | k
  · exact uses_pure _
  cases k with
  | dir =>
    exact (sysOr_uses trivial).bind fun _ => hc.bind fun _ =>
      (sysOr_uses trivial).bind fun _ => sysOr_uses trivial
  | reg => exact sysOr_uses trivial
  | other => exact uses_fail _

theorem removeTreeContents_cuts (depth : Nat) (p : Path) :
    (removeTreeContents root depth p).Uses Cuts := by
  induction depth generalizing p with
  | zero => exact Safe.diverge
  | succ depth ih =>
    refine Uses.bind (Uses.mapError ?_) fun entries => forEach_uses fun n _ => removeEntry_cuts (ih _)
    exact Uses.bind (Uses.mapError (uses_step trivial fun r => trivial)) fun _ =>
      Uses.mapError (uses_step trivial fun r => trivial)

theorem removeEntryTreeAt_cuts : (removeEntryTreeAt root d name).Uses Cuts :=
  removeEntry_cuts (removeTreeContents_cuts _ _)

theorem discardEntry_cuts : (discardEntry root d name).Uses Cuts :=
  removeEntryTreeAt_cuts.ignore.bind fun _ => (sysOr_uses trivial).ignore

/-- Such a step removes one entry that was there, or changes nothing. -/
theorem Cuts.step [Unicode] {o : Op} {r : o.Res} {c : Choice} (ho : Cuts o) (h : exec o c W = some (r, W')) :
    (removed o r = none ∧ W'.tree = W.tree) ∨
    ∃ p, removed o r = some p ∧ W.tree p ≠ none ∧ ∀ q, W'.tree q = if p = q then none else W.tree q := by
  cases o with
  | fs call =>
    obtain ⟨cc, files, rfl, hp, rfl⟩ := exec_fs h
    have hquiet : files = W.files → ∀ q, World.tree { W with files := files } q = W.tree q := by
      rintro rfl q
      rfl
    cases call with
    | stat p | openDir p => exact Or.inl ⟨rfl, funext (hquiet (Call.looking_cases hp).1)⟩
    | readDir p => exact Or.inl ⟨rfl, funext (hquiet (Call.listing_cases hp).1)⟩
    | quiet p => exact Or.inl ⟨rfl, funext (hquiet (Call.looking_cases hp).1)⟩
    | unlink d n =>
      rcases Call.changing_cases hp with ⟨rfl, hx⟩ | ⟨⟨e, rfl⟩, hx⟩
      · exact Or.inr ⟨d ++ [n], rfl, Files.unlink_ok hx⟩
      · exact Or.inl ⟨rfl, funext (hquiet hx)⟩
    | rmdir d n =>
      rcases Call.changing_cases hp with ⟨rfl, hx⟩ | ⟨⟨e, rfl⟩, hx⟩
      · exact Or.inr ⟨d ++ [n], rfl, Files.rmdir_ok hx⟩
      · exact Or.inl ⟨rfl, funext (hquiet hx)⟩
    | _ => exact ho.elim
  | _ => exact ho.elim

variable {α : Type} {a : α} {tr' : Trace} {out : Except GoError Unit}

/-- **A run of such steps** only takes away: it removes an entry that was there, or changes nothing. -/
theorem cuts_run [Unicode] {p : Prog spoolSig α} (h : Runs exec p W tr a W') (hp : p.Uses Cuts) :
    (∀ q, W.tree q = none → W'.tree q = none) ∧
    (((∀ ev ∈ tr, removed ev.op ev.res = none) ∧ W'.tree = W.tree) ∨
      ∃ ev ∈ tr, ∃ q, removed ev.op ev.res = some q ∧ W.tree q ≠ none ∧ W'.tree q = none) := by
  have hops := h.uses hp
  clear hp
  induction h with
  | ret a w => exact ⟨fun q hq => hq, Or.inl ⟨forall_mem_nil _, rfl⟩⟩
  | loop h ih => exact ih hops
  | @step o k w w1 w' c r tr a hE hk ih =>
    have ho : Cuts o := hops _ (mem_cons_self ..)
    obtain ⟨hless, hcase⟩ := ih fun ev hev => hops ev (mem_cons_of_mem _ hev)
    rcases ho.step hE with ⟨hr, hsame⟩ | ⟨q, hr, hwas, hget⟩
    · rw [hsame] at hless hcase
      refine ⟨hless, hcase.imp (fun hnone => ⟨?_, hnone.2⟩) ?_⟩
      · intro ev hev
        rcases mem_cons.mp hev with rfl | hev
        · exact hr
        · exact hnone.1 ev hev
      · rintro ⟨ev, hev, hq⟩
        exact ⟨ev, mem_cons_of_mem _ hev, hq⟩
    · refine ⟨fun x hx => hless x ?_, Or.inr ⟨_, mem_cons_self .., q, hr, hwas, hless q ?_⟩⟩
      · rw [hget]
        split
        · rfl
        · exact hx
      · rw [hget, if_pos rfl]

/-- Whatever the event removes is below `D`, and not `D` itself. -/
def Inside (D : Path) (ev : SpoolEvent) : Prop :=
  ∀ p, removed ev.op ev.res = some p → ∃ n, Below (D ++ [n]) p

theorem removed_touched {R : Path → Prop} {o : Op} {r : o.Res} {p : Path} (h : Confined R o)
    (hr : removed o r = some p) : R p := by
  cases o with
  | fs c =>
    cases c with
    | unlink d n | rmdir d n =>
      cases r with
      | ok u => exact h p (Option.some.inj hr)
      | error e => nomatch hr
    | _ => nomatch hr
  | _ => nomatch hr

theorem inside_of [Unicode] {p : Prog spoolSig α} (h : Runs exec p W tr a W')
    (hp : p.Uses (Confined fun q => ∃ n, Below (D ++ [n]) q)) : ∀ ev ∈ tr, Inside D ev :=
  fun ev hev _ hq => removed_touched (h.uses hp ev hev) hq

/-- How the removal of a directory ends: it stops half-way, or removes the directory last. -/
inductive RemovalEnd (D : Path) (tr : Trace) :
    Except GoError Unit → Prop where
  | stopped (e : GoError) : (∀ ev ∈ tr, Inside D ev) → RemovalEnd D tr (.error e)
  | whole (tr' : Trace) (ev : SpoolEvent) :
      tr = tr' ++ [ev] → removed ev.op ev.res = some D → (∀ ev ∈ tr', Inside D ev) →
      RemovalEnd D tr (.ok ())

theorem RemovalEnd.append (h : ∀ ev ∈ tr, Inside D ev) (hend : RemovalEnd D tr' out) :
    RemovalEnd D (tr ++ tr') out := by
  cases hend with
  | stopped e h' => exact .stopped e fun ev hev => (mem_append.mp hev).elim (h ev) (h' ev)
  | whole tr1 ev heq hr h' =>
    refine .whole (tr ++ tr1) ev (by rw [heq, append_assoc]) hr fun ev hev => ?_
    exact (mem_append.mp hev).elim (h ev) (h' ev)

/-- A part before the removal of the directory itself. -/
theorem RemovalEnd.bind [Unicode] {p : Task α} {f : α → Task Unit}
    (h : Runs exec (p >>= f : Task Unit) W tr out W')
    (hp : p.Uses (Confined fun q => ∃ n, Below (D ++ [n]) q))
    (hf : ∀ a W1 tr2, Runs exec (f a) W1 tr2 out W' → RemovalEnd D tr2 out) :
    RemovalEnd D tr out := by
  rcases h.act_bind_inv with ⟨a, tr1, tr2, W1, rfl, h1, h2⟩ | ⟨e, rfl, h1⟩
  · exact (hf a W1 tr2 h2).append (inside_of h1 hp)
  · exact .stopped e (inside_of h1 hp)

theorem rmdir_end [Unicode] {before : GoString}
    (h : Runs exec (sysOr before (.rmdir d name)) W tr out W') :
    RemovalEnd (d ++ [name]) tr out := by
  obtain ⟨x, hx, rfl⟩ := h.mapError_inv
  obtain ⟨c, r, W1, tr', rfl, hE, hret⟩ := hx.step_inv
  obtain ⟨rfl, rfl, rfl⟩ := hret.ret_inv
  cases x with
  | ok u => exact .whole [] _ rfl rfl (forall_mem_nil _)
  | error e =>
    refine .stopped _ fun ev hev p hp => ?_
    obtain rfl := mem_singleton.mp hev
    nomatch hp

/-! ## Runs on an honest file system -/

theorem honest_shows {κ : Known honest.region} (h : honest.Shows κ W) : κ.1 = W.tree := by
  funext q
  rw [← h.1]
  exact Files.on_of trivial

theorem known_tree (W : World) : (Known.of honest.region W.files).1 = W.tree :=
  honest_shows (shows_of honest trivial)

/-- What holds of a program under the watch holds of its runs. -/
theorem honest_run [Unicode] {p : Prog spoolSig α} {Q : α → Known honest.region → Prop}
    (h : Runs exec p W tr a W') (hh : HonestFiles tr)
    (hp : p.Safe honest.proto Q (Known.of honest.region W.files)) : ∃ κ, Q a κ ∧ κ.1 = W'.tree := by
  obtain ⟨κ, hQ, hshows⟩ := runs_shown (w := honest) h hh hp (shows_of honest trivial)
  exact ⟨κ, hQ, honest_shows hshows⟩

theorem tree_frame [Unicode] {R : Path → Prop} {p : Prog spoolSig α} (h : Runs exec p W tr a W')
    (hp : p.Uses (Confined R)) {q : Path} (hq : ¬ R q) : W'.tree q = W.tree q := runs_frame hp h hq

theorem tree_same [Unicode] {p : Prog spoolSig α} (h : Runs exec p W tr a W')
    (hp : p.Uses (Confined NoRegion)) : W'.tree = W.tree :=
  funext fun _ => tree_frame h hp fun hq => hq

theorem HonestFiles.left (h : HonestFiles (tr ++ tr')) :
    HonestFiles tr := fun ev hev => h ev (mem_append_left _ hev)

theorem HonestFiles.right (h : HonestFiles (tr ++ tr')) :
    HonestFiles tr' := fun ev hev => h ev (mem_append_right _ hev)

/-- **Removing a directory**: its own entry is the last that goes. -/
theorem removeEntryTreeAt_end [Unicode] (h : Runs exec (removeEntryTreeAt root d name) W tr out W')
    (hh : HonestFiles tr) (hdir : W.tree (d ++ [name]) = some .dir) :
    RemovalEnd (d ++ [name]) tr out := by
  rcases h.act_bind_inv with ⟨mode, tr1, tr2, W1, rfl, h1, h2⟩ | ⟨e, rfl, h1⟩
  · refine RemovalEnd.append (inside_of h1 entryModeAt_confined.mapError) ?_
    obtain ⟨κ, ⟨-, hmode⟩, -⟩ := honest_run h1 hh.left
      (entryModeAt_gives trivial).gives_mapError
    rw [known_tree] at hmode
    rcases mode with _ | k
    · nomatch (hmode honest_honest).symm.trans hdir
    obtain ⟨node, hnode, rfl⟩ := hmode
    obtain rfl : node = .dir := Option.some.inj (hnode.symm.trans hdir)
    refine RemovalEnd.bind h2 openDir_confined fun _ W2 tr3 h3 => ?_
    refine RemovalEnd.bind h3 (removeTreeContents_confined (fun n q hq => ⟨n, hq⟩) _)
      fun _ W3 tr4 h4 => ?_
    exact RemovalEnd.bind h4 quiet_confined fun _ W4 tr5 h5 => rmdir_end h5
  · exact .stopped e (inside_of h1 entryModeAt_confined.mapError)

/-! ## Where a removal stops -/

theorem removed_of_stops {o : Op} {r : o.Res} (h : stops o r = true) : removed o r = none := by
  cases o with
  | fs c =>
    cases r with
    | ok x =>
      cases c with
      | stat p => rfl
      | _ => nomatch h
    | error e => cases c <;> rfl
  | _ => rfl

/-- Remembers whether the last step has stopped. -/
def lastStops : Proto spoolSig Bool := ⟨fun _ _ => True, fun _ o r κ' => κ' = stops o r⟩

theorem lastStops_run [Unicode] {p : Prog spoolSig α} {Q : α → Bool → Prop} {κ : Bool}
    (h : Runs exec p W tr a W') (hp : p.Safe lastStops Q κ) :
    Q a (tr.foldl (fun _ ev => stops ev.op ev.res) κ) := by
  induction h generalizing κ with
  | ret a w => exact hp
  | step hE hk ih => exact ih (hp.2 _ _ rfl)
  | loop h ih => exact ih hp.unroll

/-- An error comes from the last step. -/
def Blames {ε β : Type} (x : Except ε β) (κ : Bool) : Prop := ∀ e, x = .error e → κ = true

/-- Every error does. -/
def Blamed {ε : Type} (p : Act spoolSig ε α) : Prop := ∀ κ, p.Safe lastStops Blames κ

theorem Blamed.bind {β : Type} {p : Task α} {f : α → Task β} (hp : Blamed p)
    (hf : ∀ a, Blamed (f a)) : Blamed (p >>= f) := fun κ =>
  Safe.bind (hp κ) (fun a κ' _ => hf a κ') fun e _ h _ _ => h e rfl

theorem blamed_call {ε : Type} (f : Errno → ε) (c : Call GoString) : Blamed ((sys c).mapError f) := by
  intro κ
  refine ⟨trivial, ?_⟩
  rintro r κ' rfl
  cases r with
  | ok a => exact fun _ h => nomatch h
  | error e => cases c <;> exact fun _ _ => rfl

/-- A look at what is neither a file nor a directory counts as well. -/
theorem entryModeAt_blamed (f : GoError → GoError) (p : Path) (κ : Bool) :
    ((entryModeAt p).mapError f).Safe lastStops
      (fun x κ' => Blames x κ' ∧ (x = .ok (some .other) → κ' = true)) κ := by
  refine ⟨trivial, ?_⟩
  rintro r κ' rfl
  rcases r with e | k
  · cases e with
    | enoent => exact ⟨fun _ h => (nomatch h), nofun⟩
    | _ => exact ⟨fun _ _ => rfl, fun _ => rfl⟩
  · refine ⟨fun _ h => (nomatch h), ?_⟩
    rintro ⟨⟩
    rfl

theorem removeEntry_blamed {contents : Path → Task Unit} (hc : Blamed (contents (d ++ [name]))) :
    Blamed (removeEntry root contents d name) := by
  intro κ
  refine Safe.bind (entryModeAt_blamed _ _ κ) (fun mode κ' h => ?_) fun e _ h _ _ => h.1 e rfl
  rcases mode with _ | k
  · exact fun _ h => nomatch h
  cases k with
  | dir =>
    have hdir : Blamed (do
        sysOr (about root "open spool directory" (d ++ [name])) (.openDir (d ++ [name]))
        contents (d ++ [name])
        sysOr (about root "close spool directory" (d ++ [name])) (.quiet (d ++ [name]))
        sysOr (about root "remove spool directory" (d ++ [name])) (.rmdir d name) : Task Unit) :=
      (blamed_call _ _).bind fun _ => hc.bind fun _ => (blamed_call _ _).bind fun _ => blamed_call _ _
    exact hdir κ'
  | reg =>
    have hreg : Blamed (sysOr (about root "remove spool file" (d ++ [name])) (.unlink d name)) :=
      blamed_call _ _
    exact hreg κ'
  | other => exact fun _ _ => h.2 rfl

theorem removeTreeContents_blamed (depth : Nat) (p : Path) : Blamed (removeTreeContents root depth p) := by
  induction depth generalizing p with
  | zero => exact fun κ => Safe.diverge
  | succ depth ih =>
    have hread : Blamed (readDirectoryEntriesFD p) := (blamed_call _ _).bind fun _ => blamed_call _ _
    refine Blamed.bind (fun κ => Safe.mapError (hread κ) (fun _ _ _ _ h => nomatch h)
      fun e _ h _ _ => h e rfl) fun entries => ?_
    induction entries with
    | nil => exact fun _ _ h => nomatch h
    | cons n entries ihe => exact (removeEntry_blamed (ih _)).bind fun _ => ihe

/-- **A removal that fails has stopped at its last step.** -/
theorem removeEntryTreeAt_stops [Unicode] {e : GoError}
    (h : Runs exec (removeEntryTreeAt root d name) W tr (.error e) W') :
    ∃ tr' ev, tr = tr' ++ [ev] ∧ stops ev.op ev.res = true := by
  have hlast := lastStops_run h (removeEntry_blamed (removeTreeContents_blamed _ _) false) e rfl
  rcases eq_nil_or_concat tr with rfl | ⟨tr', ev, rfl⟩
  · nomatch hlast
  · rw [concat_eq_append, foldl_append] at hlast
    exact ⟨tr', ev, concat_eq_append, hlast⟩

end Removal

/-! ## One orphan -/

section Move

variable {s : PayloadStore} {name target : GoString}

theorem orphans_apart (target name : GoString) : Apart (orphanRoot ++ [target]) (payloadsRoot ++ [name]) := by
  have hroots : Apart orphanRoot payloadsRoot := by
    constructor <;> decide
  exact hroots.below (prefix_append _ _) (prefix_append _ _)

/-- The name that is chosen is free, and it begins with the name of the orphan. -/
theorem uniqueQuarantineNameAt_gives {κ : Known honest.region} {d : Path} :
    (uniqueQuarantineNameAt d name).Safe honest.proto (Gives fun target κ' =>
      κ' = κ ∧ κ.1 (d ++ [target]) = none ∧ name <+: target) κ := by
  refine Safe.forever (fun st κ' => κ' = κ ∧ name <+: st.1) ⟨rfl, prefix_refl _⟩ ?_
  rintro ⟨candidate, n⟩ κ' ⟨rfl, hcandidate⟩
  have hq : Confined NoRegion (.fs (.stat (d ++ [candidate]))) := fun q hq => nomatch hq
  -- one round goes on with the next candidate, or ends with one that is not there
  refine Safe.mono (Q := Gives fun x κ1 => κ1 = κ' ∧ (∀ st, x = .inl st → name <+: st.1) ∧
    ∀ target, x = .inr target → κ'.1 (d ++ [target]) = none ∧ name <+: target) ?_
      (Safe.gives_attempt_bind (P := honest.step κ' (.fs (.stat (d ++ [candidate]))))
        ⟨ok_of_quiet hq, fun r κ1 h => h⟩ ?_)
  · intro out κ1 h
    rcases out with e | st | target
    · trivial
    · exact ⟨h.1, h.2.1 st rfl⟩
    · exact ⟨h.1, h.2.2 target rfl⟩
  · intro found κ1 h
    have hsame : κ1 = κ' := step_quiet h hq
    cases found with
    | ok k =>
      refine ⟨hsame, ?_, fun target hx => nomatch hx⟩
      rintro st ⟨⟩
      exact (prefix_append _ _).trans (prefix_append _ _)
    | error e =>
      cases e with
      | enoent =>
        refine ⟨hsame, fun st hx => (nomatch hx), ?_⟩
        rintro target ⟨⟩
        exact ⟨step_missing honest_honest h trivial, hcandidate⟩
      | _ => trivial

/-- The tree once `payloads/<name>` has become `payload-orphans/<target>`. -/
def movedOrphan (name target : GoString) (v : View GoString) : View GoString :=
  (v.graft (payloadsRoot ++ [name]) nothing).graft (orphanRoot ++ [target])
    (v.sub (payloadsRoot ++ [name]))

/-- A moved entry does not show at other entries of `payloads/`. -/
theorem movedOrphan_sub_payload {n : GoString} (h : n ≠ name) (target : GoString)
    (v : View GoString) :
    (movedOrphan name target v).sub (payloadsRoot ++ [n]) = v.sub (payloadsRoot ++ [n]) := by
  unfold movedOrphan
  rw [sub_graft_apart (orphans_apart target n), sub_graft_apart (apart_of_ne h.symm)]

theorem movedOrphan_other {v : View GoString} {q : Path} (hp : ¬ Below (payloadsRoot ++ [name]) q)
    (ho : ¬ Below (orphanRoot ++ [target]) q) : movedOrphan name target v q = v q := by
  unfold movedOrphan
  rw [graft_other ho, graft_other hp]

/-- Everything is as it was, but for the orphan and for the name it is to get. -/
def Elsewhere (name target : GoString) (v v' : View GoString) : Prop :=
  ∀ q, ¬ Below (payloadsRoot ++ [name]) q → ¬ Below (orphanRoot ++ [target]) q → v' q = v q

/-- How the move of an orphan ends. -/
inductive MoveEnd (name target : GoString) (v v' : View GoString) :
    Except GoError Unit → Loss → Prop where
  /-- It has the new name. -/
  | moved : v' = movedOrphan name target v → MoveEnd name target v v' (.ok ()) .nothing
  /-- It is where it was; what there is under the new name is of no use. -/
  | stayed (e : GoError) : (∀ q, ¬ Below (orphanRoot ++ [target]) q → v' q = v q) →
      MoveEnd name target v v' (.error e) .nothing
  /-- The copy is complete, the source is not. -/
  | copied (e : GoError) : Elsewhere name target v v' →
      v'.sub (orphanRoot ++ [target]) = v.sub (payloadsRoot ++ [name]) →
      MoveEnd name target v v' (.error e) (.failed name)
  /-- Neither is complete. -/
  | lost (e : GoError) (p q : Path) : Elsewhere name target v v' →
      v (payloadsRoot ++ [name] ++ p) ≠ none → v' (payloadsRoot ++ [name] ++ p) = none →
      v (payloadsRoot ++ [name] ++ q) ≠ none → v' (orphanRoot ++ [target] ++ q) = none →
      MoveEnd name target v v' (.error e) .both

variable {out : Except GoError Unit}

theorem MoveEnd.mapError {v v' : View GoString} {l : Loss} (h : MoveEnd name target v v' out l)
    (f : GoError → GoError) : MoveEnd name target v v' (out.mapError f) l := by
  cases h with
  | moved h => exact .moved h
  | stayed e h => exact .stayed (f e) h
  | copied e h h' => exact .copied (f e) h h'
  | lost e p q h h1 h2 h3 h4 => exact .lost (f e) p q h h1 h2 h3 h4

variable [Unicode] {W W' : World} {tr : Trace}

/-- Removals among the orphans, while no source is incomplete. -/
theorem loss_orphans {α : Type} {p : Prog spoolSig α} {a : α} (h : Runs exec p W tr a W')
    (hp : p.Uses (Confined (Below (orphanRoot ++ [target])))) : Loss.nothing.run tr = .nothing := by
  refine Loss.run_idle rfl fun ev hev q hq => Loss.next_orphans ?_
  exact (prefix_append _ _).trans (removed_touched (h.uses hp ev hev) hq)

/-- Steps that change nothing remove nothing. -/
theorem loss_quiet {α : Type} {p : Prog spoolSig α} {a : α}
    (h : Runs exec p W tr a W') (hp : p.Uses (Confined NoRegion)) :
    Loss.nothing.run tr = .nothing :=
  Loss.run_idle rfl fun ev hev _ hq => (removed_touched (h.uses hp ev hev) hq).elim

/-- Renaming removes nothing. -/
theorem loss_rename {sd dd : Path} {sn dn : GoString}
    (h : Runs exec (renameDirectoryAt sd sn dd dn) W tr out W') :
    Loss.nothing.run tr = .nothing := by
  have hspares : (renameDirectoryAt sd sn dd dn).Uses fun o => ∀ r, removed o r = none := by
    refine Uses.bind (Uses.mapError (uses_step (fun r => rfl) fun r => trivial)) fun mode => ?_
    cases mode with
    | dir => exact Uses.mapError (uses_step (fun r => rfl) fun r => trivial)
    | _ => exact uses_fail _
  exact Loss.run_idle rfl fun ev hev q hq => nomatch (h.uses hspares ev hev ev.res).symm.trans hq

omit [Unicode] in
theorem begun_inside {l : Loss} (hl : l.Begun name)
    (h : ∀ ev ∈ tr, Inside (payloadsRoot ++ [name]) ev) : (l.run tr).Begun name := by
  induction tr generalizing l with
  | nil => exact hl
  | cons ev tr ih =>
    refine ih (l := l.after ev) ?_ fun ev' hev => h ev' (mem_cons_of_mem _ hev)
    cases hr : removed ev.op ev.res with
    | none =>
      rcases Loss.after_none (l := l) hr with hsame | hfail
      · rw [hsame]
        exact hl
      · rw [hfail, hl.fail]
        exact Or.inr rfl
    | some p =>
      obtain ⟨n, hn⟩ := h ev (mem_cons_self ..) p hr
      rw [Loss.after_some hr]
      exact (Loss.next_inside hn).2 l hl

omit [Unicode] in
/-- Removals inside a source that is complete: none, or the source is incomplete. -/
theorem loss_inside (h : ∀ ev ∈ tr, Inside (payloadsRoot ++ [name]) ev) :
    ((∀ ev ∈ tr, removed ev.op ev.res = none) ∧ Loss.nothing.run tr = .nothing) ∨
    (Loss.nothing.run tr).Begun name := by
  induction tr with
  | nil => exact Or.inl ⟨forall_mem_nil _, rfl⟩
  | cons ev tr ih =>
    have htail := fun ev' hev => h ev' (mem_cons_of_mem ev hev)
    cases hr : removed ev.op ev.res with
    | none =>
      have hsame : Loss.nothing.after ev = .nothing := (Loss.after_none hr).elim id id
      show (_ ∧ (Loss.nothing.after ev).run tr = _) ∨ ((Loss.nothing.after ev).run tr).Begun name
      rw [hsame]
      exact (ih htail).imp_left fun hn => ⟨forall_mem_cons.mpr ⟨hr, hn.1⟩, hn.2⟩
    | some p =>
      obtain ⟨n, hn⟩ := h ev (mem_cons_self ..) p hr
      refine Or.inr (begun_inside (l := Loss.nothing.after ev) ?_ htail)
      rw [Loss.after_some hr]
      exact Or.inl (Loss.next_inside hn).1

omit [Unicode] in
theorem loss_removed (hend : RemovalEnd (payloadsRoot ++ [name]) tr (.ok ())) :
    Loss.nothing.run tr = .nothing := by
  cases hend with
  | whole tr' ev heq hr hinside =>
    rw [heq, Loss.run_append]
    show (Loss.run .nothing tr').after ev = .nothing
    rw [Loss.after_some hr]
    exact Loss.next_whole ((loss_inside hinside).imp_left And.right)

theorem loss_stopped {e : GoError}
    (h : Runs exec (removeEntryTreeAt s.root payloadsRoot name) W tr (.error e) W')
    (hh : HonestFiles tr) (hdir : W.tree (payloadsRoot ++ [name]) = some .dir) :
    (Loss.nothing.run tr = .nothing ∧ W'.tree = W.tree) ∨
    (Loss.nothing.run tr = .failed name ∧ ∃ q, W.tree (payloadsRoot ++ [name] ++ q) ≠ none ∧
      W'.tree (payloadsRoot ++ [name] ++ q) = none) := by
  cases removeEntryTreeAt_end h hh hdir with
  | stopped _ hinside =>
    obtain ⟨-, ⟨hnone, hsame⟩ | ⟨ev, hev, p, hp, hwas, hgone⟩⟩ := cuts_run h removeEntryTreeAt_cuts
    · refine Or.inl ⟨Loss.run_idle rfl fun ev hev p hp => ?_, hsame⟩
      nomatch (hnone ev hev).symm.trans hp
    · obtain ⟨n, hn⟩ := hinside ev hev p hp
      obtain ⟨q, rfl⟩ := (prefix_append _ _).trans hn
      refine Or.inr ⟨?_, q, hwas, hgone⟩
      -- the last step has failed, and so the removal was begun before it
      obtain ⟨tr', last, rfl, hlast⟩ := removeEntryTreeAt_stops h
      have hquiet := removed_of_stops hlast
      rcases loss_inside fun ev hev => hinside ev (mem_append_left _ hev) with ⟨hnone, -⟩ | hbegun
      · rcases mem_append.mp hev with hev | hev
        · nomatch (hnone ev hev).symm.trans hp
        · obtain rfl := mem_singleton.mp hev
          nomatch hquiet.symm.trans hp
      · rw [Loss.run_append, ← hbegun.fail]
        show (Loss.nothing.run tr').after last = _
        unfold Loss.after
        rw [hquiet]
        exact if_pos hlast

/-- The clean-up of the copy, after the removal of the source has failed. -/
theorem loss_copy (name : GoString) {x : Except GoError Unit}
    (h : Runs exec (discardEntry s.root orphanRoot target) W tr x W') :
    ((Loss.failed name).run tr = .failed name ∧ W'.tree = W.tree) ∨
    ((Loss.failed name).run tr = .both ∧ ∃ q, W.tree (orphanRoot ++ [target] ++ q) ≠ none ∧
      W'.tree (orphanRoot ++ [target] ++ q) = none) := by
  have hbelow : ∀ ev ∈ tr, ∀ p, removed ev.op ev.res = some p → Below (orphanRoot ++ [target]) p :=
    fun ev hev p hp => removed_touched (h.uses (discardEntry_confined fun q hq => hq) ev hev) hp
  obtain ⟨-, ⟨hnone, hsame⟩ | ⟨ev, hev, p, hp, hwas, hgone⟩⟩ := cuts_run h discardEntry_cuts
  · exact Or.inl ⟨Loss.run_idle rfl fun ev hev p hp => (nomatch (hnone ev hev).symm.trans hp), hsame⟩
  · obtain ⟨q, rfl⟩ := hbelow ev hev p hp
    refine Or.inr ⟨Loss.run_copy (fun ev' hev' p' hp' => ?_)
      ⟨ev, hev, by rw [hp]; exact Option.some_ne_none _⟩, q, hwas, hgone⟩
    exact (prefix_append _ _).trans (hbelow ev' hev' p' hp')

/-- **Removing the source and, if that fails, the copy.** -/
theorem removeOrphan_end {v : View GoString}
    (h : Runs exec ((removeEntryTreeAt s.root payloadsRoot name).onFail
      (discardEntry s.root orphanRoot target)) W tr out W') (hh : HonestFiles tr)
    (hdir : v (payloadsRoot ++ [name]) = some .dir)
    (hcopy : W.tree = v.graft (orphanRoot ++ [target]) (v.sub (payloadsRoot ++ [name]))) :
    MoveEnd name target v W'.tree out (Loss.nothing.run tr) := by
  have hap := orphans_apart target name
  have hother : ∀ q, ¬ Below (orphanRoot ++ [target]) q → W.tree q = v q := fun q hq => by
    rw [hcopy]
    exact graft_other hq
  have hsource : ∀ q, W.tree (payloadsRoot ++ [name] ++ q) = v (payloadsRoot ++ [name] ++ q) :=
    fun q => hother _ (hap.symm.not_below (prefix_append _ _))
  have htarget : ∀ q, W.tree (orphanRoot ++ [target] ++ q) = v (payloadsRoot ++ [name] ++ q) := by
    have hsub : W.tree.sub (orphanRoot ++ [target]) = v.sub (payloadsRoot ++ [name]) := by
      rw [hcopy, sub_graft]
    exact fun q => congrFun hsub q
  have hdir' : W.tree (payloadsRoot ++ [name]) = some .dir := by
    rw [hother _ (hap.symm.not_below (prefix_refl _))]
    exact hdir
  rcases h.onFail_inv with ⟨u, rfl, h1⟩ | ⟨e, tr1, tr2, W1, x, rfl, rfl, h1, h2⟩
  · obtain ⟨κ, hκ, htree⟩ := honest_run h1 hh
      (removeEntryTreeAt_gives honest_honest (free_honest _))
    rw [loss_removed (removeEntryTreeAt_end h1 hh hdir')]
    have hgraft : W'.tree = W.tree.graft (payloadsRoot ++ [name]) nothing := by
      rw [← htree, ← known_tree]
      exact hκ
    refine .moved ?_
    rw [hgraft, hcopy, graft_apart hap]
    rfl
  · have hconf : (discardEntry s.root orphanRoot target).Uses
        (Confined (Below (orphanRoot ++ [target]))) := discardEntry_confined fun q hq => hq
    have hconf1 : (removeEntryTreeAt s.root payloadsRoot name).Uses
        (Confined (Below (payloadsRoot ++ [name]))) := removeEntryTreeAt_confined fun q hq => hq
    have helse : Elsewhere name target v W'.tree := fun q hp ho => by
      rw [tree_frame h2 hconf ho, tree_frame h1 hconf1 hp, hother q ho]
    have hkept : ∀ q, W1.tree (orphanRoot ++ [target] ++ q) = v (payloadsRoot ++ [name] ++ q) :=
      fun q => (tree_frame h1 hconf1 (hap.not_below (prefix_append _ _))).trans (htarget q)
    rw [Loss.run_append]
    rcases loss_stopped h1 hh.left hdir' with ⟨hloss, hsame⟩ | ⟨hloss, p, hwas, hgone⟩
    · -- nothing of the source is gone
      rw [hloss, loss_orphans h2 hconf]
      refine .stayed e fun q hq => ?_
      rw [tree_frame h2 hconf hq, hsame, hother q hq]
    · rw [hsource] at hwas
      rcases loss_copy name h2 with ⟨hloss', hsame⟩ | ⟨hloss', q, hwas', hgone'⟩
      · rw [hloss, hloss']
        refine .copied e helse ?_
        rw [hsame]
        exact funext hkept
      · rw [hloss, hloss']
        rw [hkept] at hwas'
        refine .lost e p q helse hwas ?_ hwas' hgone'
        rw [tree_frame h2 hconf (hap.symm.not_below (prefix_append _ _))]
        exact hgone

/-- **Moving an orphan**, by a rename or by a copy. -/
theorem moveOrphan_end (h : Runs exec (s.moveOrphan name target) W tr out W')
    (hh : HonestFiles tr) (hdir : W.tree (payloadsRoot ++ [name]) = some .dir) :
    MoveEnd name target W.tree W'.tree out (Loss.nothing.run tr) := by
  have hap := orphans_apart target name
  rcases h.act_bind_inv with ⟨moved, tr1, tr2, W1, rfl, h1, h2⟩ | ⟨e, rfl, h1⟩
  · obtain ⟨x, hx, h1⟩ := h1.attempt_inv
    obtain rfl := Except.ok.inj hx
    obtain ⟨κ, hκ, htree⟩ := honest_run h1 hh.left (renameDirectoryAt_safe
      (free_honest _).seen (free_honest _).seen fun _ _ _ => trivial)
    rw [Loss.run_append, loss_rename h1]
    cases moved with
    | ok u =>
      obtain ⟨rfl, rfl, rfl⟩ := h2.ret_inv
      obtain ⟨-, -, ⟨heq, -⟩ | ⟨-, hκ⟩⟩ := hκ
      · exact absurd (heq ▸ prefix_refl _) hap.1
      · rw [htree, known_tree] at hκ
        exact .moved hκ
    | error e =>
      have hsame : W1.tree = W.tree := by
        rw [← htree, ← known_tree]
        exact congrArg Subtype.val hκ
      dsimp only at h2
      split at h2
      · obtain ⟨out', hcopy, rfl⟩ := h2.mapError_inv
        refine MoveEnd.mapError ?_ _
        rw [← hsame] at hdir ⊢
        have hconf : (copyDirectoryTreeAt s.root payloadsRoot name orphanRoot target).Uses
            (Confined (Below (orphanRoot ++ [target]))) :=
          copyTree_confined (fun q hq => hq) (copyEntries_confined (fun q hq => hq) _)
        rcases hcopy.act_bind_inv with ⟨u, tr3, tr4, W2, rfl, h3, h4⟩ | ⟨e', rfl, h3⟩
        · obtain ⟨κ2, hκ2, htree2⟩ := honest_run h3 hh.right.left (copyDirectoryTreeAt_gives
            (free_honest _).seen (free_honest _) hap.symm)
          rw [Loss.run_append, loss_orphans h3 hconf]
          refine removeOrphan_end h4 hh.right.right hdir ?_
          rw [← htree2, ← known_tree]
          exact hκ2
        · rw [loss_orphans h3 hconf]
          exact .stayed e' fun q hq => tree_frame h3 hconf hq
      · obtain ⟨rfl, rfl, rfl⟩ := h2.ret_inv
        exact .stayed _ fun q _ => congrFun hsame q
  · obtain ⟨x, hx, -⟩ := h1.attempt_inv
    nomatch hx

end Move

/-! ## The sweep -/

section Sweep

variable {s : PayloadStore} {validIDs : List GoString} {v v1 v' : View GoString}
variable {moves : List (GoString × GoString)} {name target n t : GoString}

/-- An orphan, and a name that is free and begins with its own. -/
structure Chosen (validIDs : List GoString) (v : View GoString) (name target : GoString) : Prop where
  canonical : Canonical name
  orphan : name ∉ validIDs
  dir : v (payloadsRoot ++ [name]) = some .dir
  free : v (orphanRoot ++ [target]) = none
  start : name <+: target

/-- These orphans have got these names, and nothing else has changed. -/
structure Moved (validIDs : List GoString) (moves : List (GoString × GoString))
    (v v' : View GoString) : Prop where
  chosen : ∀ m ∈ moves, Chosen validIDs v m.1 m.2
  targets : (moves.map Prod.snd).Nodup
  gone : ∀ m ∈ moves, v'.sub (payloadsRoot ++ [m.1]) = nothing
  there : ∀ m ∈ moves, v'.sub (orphanRoot ++ [m.2]) = v.sub (payloadsRoot ++ [m.1])
  kept : ∀ q, (∀ m ∈ moves, ¬ Below (payloadsRoot ++ [m.1]) q) →
    (∀ m ∈ moves, ¬ Below (orphanRoot ++ [m.2]) q) → v' q = v q

namespace Moved

theorem nil (v : View GoString) : Moved validIDs [] v v :=
  ⟨forall_mem_nil _, nodup_nil, forall_mem_nil _, forall_mem_nil _, fun _ _ _ => rfl⟩

/-- What has not moved is where it was. -/
theorem payload_kept (h : Moved validIDs moves v v') (hn : n ∉ moves.map Prod.fst) :
    v'.sub (payloadsRoot ++ [n]) = v.sub (payloadsRoot ++ [n]) := by
  funext q
  refine h.kept _ (fun m hm => ?_) fun m hm => ?_
  · have hne : n ≠ m.1 := fun heq => hn (heq ▸ mem_map_of_mem hm)
    exact (apart_of_ne hne).not_below (prefix_append _ _)
  · exact (orphans_apart m.2 n).symm.not_below (prefix_append _ _)

/-- The other names among the orphans are what they were. -/
theorem orphan_kept (h : Moved validIDs moves v v') (ht : t ∉ moves.map Prod.snd) :
    v'.sub (orphanRoot ++ [t]) = v.sub (orphanRoot ++ [t]) := by
  funext q
  refine h.kept _ (fun m hm => ?_) fun m hm => ?_
  · exact (orphans_apart t m.1).not_below (prefix_append _ _)
  · have hne : t ≠ m.2 := fun heq => ht (heq ▸ mem_map_of_mem hm)
    exact (apart_of_ne hne).not_below (prefix_append _ _)

theorem payload_at (h : Moved validIDs moves v v') (hn : n ∉ moves.map Prod.fst) :
    v' (payloadsRoot ++ [n]) = v (payloadsRoot ++ [n]) :=
  (root_of_sub (h.payload_kept hn)).trans (sub_nil ..)

theorem orphan_at (h : Moved validIDs moves v v') (ht : t ∉ moves.map Prod.snd) :
    v' (orphanRoot ++ [t]) = v (orphanRoot ++ [t]) :=
  (root_of_sub (h.orphan_kept ht)).trans (sub_nil ..)

/-- What is there has not moved. -/
theorem not_moved (h : Moved validIDs moves v v') (hn : v' (payloadsRoot ++ [n]) ≠ none) :
    n ∉ moves.map Prod.fst := by
  intro hmem
  obtain ⟨m, hm, rfl⟩ := mem_map.mp hmem
  exact hn (root_of_sub (h.gone m hm))

/-- A name that is free is none of the new ones. -/
theorem not_target (h : Moved validIDs moves v v') (ht : v' (orphanRoot ++ [t]) = none) :
    t ∉ moves.map Prod.snd := by
  intro hmem
  obtain ⟨m, hm, rfl⟩ := mem_map.mp hmem
  have hdir : v' (orphanRoot ++ [m.2]) = some .dir := by
    rw [root_of_sub (h.there m hm), sub_nil]
    exact (h.chosen m hm).dir
  nomatch hdir.symm.trans ht

/-- What can be chosen now could have been chosen before. -/
theorem chosen_before (h : Moved validIDs moves v v') (hc : Chosen validIDs v' name target) :
    Chosen validIDs v name target where
  canonical := hc.canonical
  orphan := hc.orphan
  dir := by
    rw [← h.payload_at (h.not_moved (by rw [hc.dir]; exact Option.some_ne_none _))]
    exact hc.dir
  free := by
    rw [← h.orphan_at (h.not_target hc.free)]
    exact hc.free
  start := hc.start

theorem snoc (h : Moved validIDs moves v v1) (hc : Chosen validIDs v1 name target) :
    Moved validIDs (moves ++ [(name, target)]) v (movedOrphan name target v1) := by
  have hname : name ∉ moves.map Prod.fst :=
    h.not_moved (by rw [hc.dir]; exact Option.some_ne_none _)
  have htarget : target ∉ moves.map Prod.snd := h.not_target hc.free
  have hsub : (movedOrphan name target v1).sub (orphanRoot ++ [target]) =
      v1.sub (payloadsRoot ++ [name]) := sub_graft _ _ _
  have hgone : (movedOrphan name target v1).sub (payloadsRoot ++ [name]) = nothing := by
    unfold movedOrphan
    rw [sub_graft_apart (orphans_apart target name), sub_graft]
  have hlast : ∀ {P : GoString × GoString → Prop}, (∀ m ∈ moves, P m) → P (name, target) →
      ∀ m ∈ moves ++ [(name, target)], P m := by
    intro P hall hone m hm
    rcases mem_append.mp hm with hm | hm
    · exact hall m hm
    · obtain rfl := mem_singleton.mp hm
      exact hone
  refine ⟨hlast h.chosen (h.chosen_before hc), ?_, hlast (fun m hm => ?_) hgone,
    hlast (fun m hm => ?_) ?_, fun q hp ho => ?_⟩
  · rw [map_append]
    exact List.Nodup.append h.targets (nodup_singleton _) (by simpa using htarget)
  · have hne : m.1 ≠ name := fun heq => hname (heq ▸ mem_map_of_mem hm)
    rw [movedOrphan_sub_payload hne]
    exact h.gone m hm
  · have hne : m.2 ≠ target := fun heq => htarget (heq ▸ mem_map_of_mem hm)
    rw [← h.there m hm]
    funext q
    exact movedOrphan_other ((orphans_apart m.2 name).not_below (prefix_append _ _))
      ((apart_of_ne hne).not_below (prefix_append _ _))
  · rw [hsub]
    exact h.payload_kept hname
  · have hother := movedOrphan_other (v := v1) (hp _ (mem_append_right _ (mem_singleton.mpr rfl)))
      (ho _ (mem_append_right _ (mem_singleton.mpr rfl)))
    rw [hother]
    exact h.kept q (fun m hm => hp m (mem_append_left _ hm))
      fun m hm => ho m (mem_append_left _ hm)

end Moved

/-- What the orphan at which the sweep stopped has come to. -/
inductive Stopped (validIDs : List GoString) (v v' : View GoString) : Loss → Prop where
  /-- Nothing has changed but what is below a name that was free. -/
  | unmoved : (∀ q, (∀ t, v (orphanRoot ++ [t]) = none → ¬ Below (orphanRoot ++ [t]) q) →
      v' q = v q) → Stopped validIDs v v' .nothing
  | copied (name target : GoString) : Chosen validIDs v name target → Elsewhere name target v v' →
      v'.sub (orphanRoot ++ [target]) = v.sub (payloadsRoot ++ [name]) →
      Stopped validIDs v v' (.failed name)
  | lost (name target : GoString) (p q : Path) : Chosen validIDs v name target →
      Elsewhere name target v v' →
      v (payloadsRoot ++ [name] ++ p) ≠ none → v' (payloadsRoot ++ [name] ++ p) = none →
      v (payloadsRoot ++ [name] ++ q) ≠ none → v' (orphanRoot ++ [target] ++ q) = none →
      Stopped validIDs v v' .both

theorem Stopped.refl (v : View GoString) : Stopped validIDs v v .nothing := .unmoved fun _ _ => rfl

/-- The path that the sweep returns for a new name. -/
def quarantinePath (s : PayloadStore) (target : GoString) : GoString :=
  pathText s.root (orphanRoot ++ [target])

/-- How one round ends. -/
inductive RoundEnds (s : PayloadStore) (validIDs : List GoString) (name : GoString)
    (v v' : View GoString) : Except GoError (Option GoString) → Loss → Prop where
  | kept : name ∈ validIDs ∧ v (payloadsRoot ++ [name]) = some .dir → v' = v →
      RoundEnds s validIDs name v v' (.ok none) .nothing
  | moved (target : GoString) (out : Except GoError (Option GoString)) :
      Chosen validIDs v name target → v' = movedOrphan name target v →
      (∀ x, out = .ok x → x = some (quarantinePath s target)) →
      RoundEnds s validIDs name v v' out .nothing
  | stopped (e : GoError) (l : Loss) : Stopped validIDs v v' l →
      RoundEnds s validIDs name v v' (.error e) l

variable {W W' : World} {tr : Trace}

/-- A round that has stopped before anything was changed. -/
theorem RoundEnds.quiet [Unicode] {α : Type} {p : Task α} {e : GoError}
    (h : Runs exec p W tr (.error e) W') (hp : p.Uses (Confined NoRegion)) :
    RoundEnds s validIDs name W.tree W'.tree (.error e) (Loss.nothing.run tr) := by
  rw [loss_quiet h hp, tree_same h hp]
  exact .stopped e _ (.refl _)

theorem moveAndSync_end [Unicode] {out : Except GoError (Option GoString)}
    (hchosen : Chosen validIDs W.tree name target) (h : Runs exec (do
      s.moveOrphan name target
      syncFD s.root payloadsRoot
      syncFD s.root orphanRoot
      pure (some (quarantinePath s target)) : Task (Option GoString)) W tr out W')
    (hh : HonestFiles tr) :
    RoundEnds s validIDs name W.tree W'.tree out (Loss.nothing.run tr) := by
  rcases h.act_bind_inv with ⟨u, tr1, tr2, W1, rfl, h1, h2⟩ | ⟨e, rfl, h1⟩
  · have hmove := moveOrphan_end h1 hh.left hchosen.dir
    rw [Loss.run_append]
    generalize Loss.nothing.run tr1 = l at hmove ⊢
    cases hmove with
    | moved hmoved =>
      have hquiet : Uses (Confined NoRegion) (do
          syncFD s.root payloadsRoot
          syncFD s.root orphanRoot
          pure (some (quarantinePath s target)) : Task (Option GoString)) :=
        syncFD_confined.bind fun _ => syncFD_confined.bind fun _ => uses_pure _
      obtain ⟨κ, hκ, -⟩ := honest_run (Q := Gives fun x _ => x = some (quarantinePath s target))
        h2 hh.right (quiet_bind syncFD_confined fun _ =>
          quiet_bind syncFD_confined fun _ => rfl)
      rw [loss_quiet h2 hquiet, tree_same h2 hquiet]
      refine .moved target out hchosen hmoved ?_
      rintro x rfl
      exact hκ
  · have hmove := moveOrphan_end h1 hh hchosen.dir
    generalize Loss.nothing.run tr = l at hmove ⊢
    cases hmove with
    | stayed _ hsame => exact .stopped e _ (.unmoved fun q hq => hsame q (hq target hchosen.free))
    | copied _ helse hcopy => exact .stopped e _ (.copied name target hchosen helse hcopy)
    | lost _ p q helse h1 h2 h3 h4 => exact .stopped e _ (.lost name target p q hchosen helse h1 h2 h3 h4)

/-- **One round of the sweep.** -/
theorem quarantineEntry_end [Unicode] {out : Except GoError (Option GoString)}
    (h : Runs exec (s.quarantineEntry validIDs name) W tr out W') (hh : HonestFiles tr) :
    RoundEnds s validIDs name W.tree W'.tree out (Loss.nothing.run tr) := by
  rcases h.lift_bind_inv with ⟨u, hid, h⟩ | ⟨e, -, rfl, rfl, rfl⟩
  swap
  · exact .stopped _ _ (.refl _)
  have hcanon : Canonical name := by
    cases hv : validateCanonicalRecordID name with
    | ok u => exact validateCanonicalRecordID_ok.mp hv
    | error e =>
      rw [hv] at hid
      nomatch hid
  rcases h.act_bind_inv with ⟨mode, tr1, tr2, W1, rfl, h1, h2⟩ | ⟨e, rfl, h1⟩
  swap
  · exact .quiet h1 entryModeAt_confined.mapError
  obtain ⟨κ, ⟨-, hmode⟩, -⟩ := honest_run h1 hh.left
    (entryModeAt_gives trivial).gives_mapError
  rw [known_tree] at hmode
  rw [Loss.run_append, loss_quiet h1 entryModeAt_confined.mapError]
  rw [← tree_same h1 entryModeAt_confined.mapError] at hmode ⊢
  rcases mode with _ | k
  · obtain ⟨rfl, rfl, rfl⟩ := h2.ret_inv
    exact .stopped _ _ (.refl _)
  obtain ⟨node, hnode, hkind⟩ := hmode
  cases k with
  | reg | other =>
    obtain ⟨rfl, rfl, rfl⟩ := h2.ret_inv
    exact .stopped _ _ (.refl _)
  | dir =>
    rw [kind_dir hkind] at hnode
    dsimp only at h2
    split at h2
    · rename_i hmem
      obtain ⟨rfl, rfl, rfl⟩ := h2.ret_inv
      exact .kept ⟨hmem, hnode⟩ rfl
    · rename_i hmem
      rcases h2.act_bind_inv with ⟨target, tr3, tr4, W2, rfl, h3, h4⟩ | ⟨e, rfl, h3⟩
      swap
      · exact .quiet h3 uniqueQuarantineNameAt_confined.mapError
      obtain ⟨κ2, ⟨-, hfree, hstart⟩, -⟩ := honest_run h3 hh.right.left
        uniqueQuarantineNameAt_gives.gives_mapError
      rw [known_tree] at hfree
      rw [Loss.run_append, loss_quiet h3 uniqueQuarantineNameAt_confined.mapError]
      rw [← tree_same h3 uniqueQuarantineNameAt_confined.mapError] at hnode hfree ⊢
      exact moveAndSync_end ⟨hcanon, hmem, hnode, hfree, hstart⟩ h4 hh.right.right

/-- How the sweep ends, given what had moved before. -/
inductive SweepEnds (s : PayloadStore) (validIDs names : List GoString)
    (moves : List (GoString × GoString)) (v v' : View GoString) :
    Except GoError (List GoString) → Loss → Prop where
  | done (more : List (GoString × GoString)) : Moved validIDs (moves ++ more) v v' →
      (∀ n ∈ names, (n ∈ validIDs ∧ v (payloadsRoot ++ [n]) = some .dir) ∨ n ∈ more.map Prod.fst) →
      SweepEnds s validIDs names moves v v' (.ok (more.map fun m => quarantinePath s m.2)) .nothing
  | stopped (more : List (GoString × GoString)) (v1 : View GoString) (e : GoError) (l : Loss) :
      Moved validIDs (moves ++ more) v v1 → Stopped validIDs v1 v' l →
      SweepEnds s validIDs names moves v v' (.error e) l

variable {names : List GoString} {out : Except GoError (List GoString)}

theorem SweepEnds.cons_kept {l : Loss}
    (hmem : name ∈ validIDs ∧ v (payloadsRoot ++ [name]) = some .dir)
    (h : SweepEnds s validIDs names moves v v' out l) :
    SweepEnds s validIDs (name :: names) moves v v' out l := by
  cases h with
  | done more hmoved hall => exact .done more hmoved (forall_mem_cons.mpr ⟨Or.inl hmem, hall⟩)
  | stopped more v1 e l hmoved hstopped => exact .stopped more v1 e l hmoved hstopped

/-- An orphan that is moved, and then the others. -/
theorem SweepEnds.cons_moved {l : Loss}
    (h : SweepEnds s validIDs names (moves ++ [(name, target)]) v v' out l) :
    SweepEnds s validIDs (name :: names) moves v v'
      (out.map ([quarantinePath s target] ++ ·)) l := by
  cases h with
  | done more hmoved hall =>
    rw [append_assoc] at hmoved
    refine .done ((name, target) :: more) hmoved (forall_mem_cons.mpr ⟨?_, fun n hn => ?_⟩)
    · exact Or.inr (mem_cons_self ..)
    · exact (hall n hn).imp_right (mem_cons_of_mem _)
  | stopped more v1 e l hmoved hstopped =>
    rw [append_assoc] at hmoved
    exact .stopped _ v1 e l hmoved hstopped

/-- **The loop**: what has moved so far is kept from round to round. -/
theorem quarantineEntries_end [Unicode] (h : Runs exec (s.quarantineEntries validIDs names) W tr out W')
    (hh : HonestFiles tr) (hmoved : Moved validIDs moves v W.tree) :
    SweepEnds s validIDs names moves v W'.tree out (Loss.nothing.run tr) := by
  induction names generalizing W tr out moves with
  | nil =>
    obtain ⟨rfl, rfl, rfl⟩ := h.ret_inv
    exact .done [] (by rwa [append_nil]) (forall_mem_nil _)
  | cons name names ih =>
    rcases h.act_bind_inv with ⟨x, tr1, tr2, W1, rfl, h1, h2⟩ | ⟨e, rfl, h1⟩
    · have hround := quarantineEntry_end h1 hh.left
      obtain ⟨rest, hrest, rfl⟩ := h2.map_inv
      rw [Loss.run_append]
      generalize Loss.nothing.run tr1 = l at hround ⊢
      cases hround with
      | kept hmem hsame =>
        have hends := ih hrest hh.right (hsame ▸ hmoved)
        have hid : rest.map ((none : Option GoString).toList ++ ·) = rest := congrFun Except.map_id rest
        rw [hid]
        refine hends.cons_kept ⟨hmem.1, ?_⟩
        rw [← hmoved.payload_at (hmoved.not_moved (by rw [hmem.2]; exact Option.some_ne_none _))]
        exact hmem.2
      | moved target _ hchosen hsame hx =>
        have hends := ih hrest hh.right (hsame ▸ hmoved.snoc hchosen)
        rw [hx x rfl]
        exact hends.cons_moved
    · have hround := quarantineEntry_end h1 hh
      generalize Loss.nothing.run tr = l at hround ⊢
      cases hround with
      | moved target _ hchosen hsame hx =>
        exact .stopped [(name, target)] _ e _ (hsame ▸ hmoved.snoc hchosen) (.refl _)
      | stopped _ _ hstopped =>
        exact .stopped [] _ e _ (by rwa [append_nil]) hstopped

/-! ## Nothing is destroyed -/

/-- **The sweep destroys nothing.** -/
structure SweepSound (s : PayloadStore) (validIDs : List GoString) (v v' : View GoString)
    (out : Except GoError (List GoString)) : Prop where
  /-- Every payload directory is where it was, or as a whole under a new name that begins with its own. -/
  complete : ∀ n, v (payloadsRoot ++ [n]) = some .dir →
    v'.sub (payloadsRoot ++ [n]) = v.sub (payloadsRoot ++ [n]) ∨
    ∃ t, n <+: t ∧ v (orphanRoot ++ [t]) = none ∧
      v'.sub (orphanRoot ++ [t]) = v.sub (payloadsRoot ++ [n])
  /-- The orphans of earlier sweeps are what they were. -/
  orphans : ∀ t, v (orphanRoot ++ [t]) ≠ none → v'.sub (orphanRoot ++ [t]) = v.sub (orphanRoot ++ [t])
  /-- The directory of a record is where it was. -/
  valid : ∀ n ∈ validIDs, v'.sub (payloadsRoot ++ [n]) = v.sub (payloadsRoot ++ [n])
  /-- A sweep that succeeds leaves the directories of records, and returns where the others are. -/
  success : ∀ paths, out = .ok paths →
    (∀ n, v' (payloadsRoot ++ [n]) = some .dir ↔ v (payloadsRoot ++ [n]) = some .dir ∧ n ∈ validIDs) ∧
    paths.Nodup ∧
    ∃ moves : List (GoString × GoString), paths = moves.map (fun m => quarantinePath s m.2) ∧
      (∀ n, n ∈ moves.map Prod.fst ↔ v (payloadsRoot ++ [n]) = some .dir ∧ n ∉ validIDs) ∧
      ∀ m ∈ moves, v'.sub (orphanRoot ++ [m.2]) = v.sub (payloadsRoot ++ [m.1])

theorem quarantinePath_injective (s : PayloadStore) : Function.Injective (quarantinePath s) := by
  intro t t' h
  unfold quarantinePath pathText at h
  cases hroot : s.root.twice with
  | false =>
    rw [hroot] at h
    exact append_cancel_left h
  | true =>
    rw [hroot] at h
    have hlen := congrArg List.length h
    simp [orphanRoot] at hlen
    exact (append_inj' h (by omega)).2

section Kept

variable {l : Loss}

/-- The names that were taken are what they were, however the sweep has stopped. -/
theorem Stopped.orphan_kept (h : Stopped validIDs v v' l) (ht : v (orphanRoot ++ [t]) ≠ none) :
    v'.sub (orphanRoot ++ [t]) = v.sub (orphanRoot ++ [t]) := by
  have hfree : ∀ {t'}, v (orphanRoot ++ [t']) = none → ∀ q, ¬ Below (orphanRoot ++ [t'])
      (orphanRoot ++ [t] ++ q) := by
    intro t' ht' q
    have hne : t ≠ t' := by
      rintro rfl
      exact ht ht'
    exact (apart_of_ne hne).not_below (prefix_append _ _)
  have helse : ∀ {name target}, Chosen validIDs v name target → Elsewhere name target v v' →
      v'.sub (orphanRoot ++ [t]) = v.sub (orphanRoot ++ [t]) := fun hc he => funext fun q =>
    he _ ((orphans_apart t _).not_below (prefix_append _ _)) (hfree hc.free q)
  cases h with
  | unmoved hsame => exact funext fun q => hsame _ fun t' ht' => hfree ht' q
  | copied name target hc he _ | lost name target p q hc he _ _ _ _ => exact helse hc he

/-- So are the payload directories, but for the orphan at which it has stopped. -/
theorem Stopped.payload_kept (h : Stopped validIDs v v' l) :
    v'.sub (payloadsRoot ++ [n]) = v.sub (payloadsRoot ++ [n]) ∨
    ∃ target, Chosen validIDs v n target ∧
      (l ≠ .both → v'.sub (orphanRoot ++ [target]) = v.sub (payloadsRoot ++ [n])) := by
  have helse : ∀ {name target}, n ≠ name → Elsewhere name target v v' →
      v'.sub (payloadsRoot ++ [n]) = v.sub (payloadsRoot ++ [n]) := fun hne he => funext fun q =>
    he _ ((apart_of_ne hne).not_below (prefix_append _ _))
      ((orphans_apart _ n).symm.not_below (prefix_append _ _))
  cases h with
  | unmoved hsame =>
    refine Or.inl (funext fun q => hsame _ fun t _ => ?_)
    exact (orphans_apart t n).symm.not_below (prefix_append _ _)
  | copied name target hc he hcopy =>
    by_cases hn : n = name
    · subst hn
      exact Or.inr ⟨target, hc, fun _ => hcopy⟩
    · exact Or.inl (helse hn he)
  | lost name target p q hc he _ _ _ _ =>
    by_cases hn : n = name
    · subst hn
      exact Or.inr ⟨target, hc, fun hl => absurd rfl hl⟩
    · exact Or.inl (helse hn he)

/-- A moved orphan stays where it is. -/
theorem Moved.there_kept (h : Moved validIDs moves v v1) (hs : Stopped validIDs v1 v' l)
    {m : GoString × GoString} (hm : m ∈ moves) :
    v'.sub (orphanRoot ++ [m.2]) = v.sub (payloadsRoot ++ [m.1]) := by
  rw [← h.there m hm]
  refine hs.orphan_kept fun hnone => ?_
  exact h.not_target hnone (mem_map_of_mem hm)

/-- **Every payload directory is somewhere**, unless the last orphan is lost. -/
theorem Moved.complete (h : Moved validIDs moves v v1) (hs : Stopped validIDs v1 v' l)
    (hl : l ≠ .both) (n : GoString) :
    v'.sub (payloadsRoot ++ [n]) = v.sub (payloadsRoot ++ [n]) ∨
    ∃ t, n <+: t ∧ v (orphanRoot ++ [t]) = none ∧
      v'.sub (orphanRoot ++ [t]) = v.sub (payloadsRoot ++ [n]) := by
  by_cases hn : n ∈ moves.map Prod.fst
  · obtain ⟨m, hm, rfl⟩ := mem_map.mp hn
    have hc := h.chosen m hm
    exact Or.inr ⟨m.2, hc.start, hc.free, h.there_kept hs hm⟩
  · rw [← h.payload_kept hn]
    rcases hs.payload_kept (n := n) with hsame | ⟨target, hc, hcopy⟩
    · exact Or.inl hsame
    · exact Or.inr ⟨target, hc.start, (h.chosen_before hc).free, hcopy hl⟩

theorem Moved.orphans (h : Moved validIDs moves v v1) (hs : Stopped validIDs v1 v' l)
    (ht : v (orphanRoot ++ [t]) ≠ none) : v'.sub (orphanRoot ++ [t]) = v.sub (orphanRoot ++ [t]) := by
  have hnot : t ∉ moves.map Prod.snd := by
    intro hmem
    obtain ⟨m, hm, rfl⟩ := mem_map.mp hmem
    exact ht (h.chosen m hm).free
  rw [← h.orphan_kept hnot]
  refine hs.orphan_kept ?_
  rw [h.orphan_at hnot]
  exact ht

theorem Moved.valid (h : Moved validIDs moves v v1) (hs : Stopped validIDs v1 v' l)
    (hn : n ∈ validIDs) : v'.sub (payloadsRoot ++ [n]) = v.sub (payloadsRoot ++ [n]) := by
  have hnot : n ∉ moves.map Prod.fst := by
    intro hmem
    obtain ⟨m, hm, rfl⟩ := mem_map.mp hmem
    exact (h.chosen m hm).orphan hn
  rw [← h.payload_kept hnot]
  rcases hs.payload_kept (n := n) with hsame | ⟨target, hc, -⟩
  · exact hsame
  · exact absurd hn hc.orphan

/-- **A lost orphan is nowhere**: not where it was, and under no new name of its own. -/
theorem Moved.lost (h : Moved validIDs moves v v1) (hs : Stopped validIDs v1 v' .both) :
    ∃ n, v (payloadsRoot ++ [n]) = some .dir ∧
      v'.sub (payloadsRoot ++ [n]) ≠ v.sub (payloadsRoot ++ [n]) ∧
      ∀ t, n <+: t → v (orphanRoot ++ [t]) = none →
        v'.sub (orphanRoot ++ [t]) ≠ v.sub (payloadsRoot ++ [n]) := by
  cases hs with
  | lost name target p q hc he hwas hgone hwas' hgone' =>
    have hnot : name ∉ moves.map Prod.fst :=
      h.not_moved (by rw [hc.dir]; exact Option.some_ne_none _)
    have hsub := h.payload_kept hnot
    refine ⟨name, (h.chosen_before hc).dir, fun heq => ?_, fun t hstart hfree heq => ?_⟩
    · rw [← hsub] at heq
      exact hwas ((congrFun heq p).symm.trans hgone)
    · rw [← hsub] at heq
      by_cases ht : t = target
      · subst ht
        exact hwas' ((congrFun heq q).symm.trans hgone')
      -- another name: it belongs to another orphan, or nothing has it
      have hnew : t ∉ moves.map Prod.snd := by
        intro hmem
        obtain ⟨m, hm, rfl⟩ := mem_map.mp hmem
        have hm' := h.chosen m hm
        have hlen : m.1.length = name.length := hm'.canonical.length.trans hc.canonical.length.symm
        have hsame : m.1 = name :=
          (prefix_of_prefix_length_le hm'.start hstart hlen.le).eq_of_length hlen
        exact hnot (hsame ▸ mem_map_of_mem hm)
      have hnone : v' (orphanRoot ++ [t]) = none := by
        rw [he _ ((orphans_apart t name).not_below (prefix_refl _))
          ((apart_of_ne ht).not_below (prefix_refl _)), h.orphan_at hnew]
        exact hfree
      have hdir := root_of_sub heq
      rw [sub_nil, hnone, hc.dir] at hdir
      nomatch hdir

end Kept

/-- A sweep that succeeds leaves the directories of records. -/
theorem Moved.left (h : Moved validIDs moves v v')
    (hnames : ∀ n, v (payloadsRoot ++ [n]) ≠ none → n ∈ names)
    (hall : ∀ n ∈ names, (n ∈ validIDs ∧ v (payloadsRoot ++ [n]) = some .dir) ∨
      n ∈ moves.map Prod.fst) :
    (∀ n, v' (payloadsRoot ++ [n]) = some .dir ↔ v (payloadsRoot ++ [n]) = some .dir ∧ n ∈ validIDs) ∧
    ∀ n, n ∈ moves.map Prod.fst ↔ v (payloadsRoot ++ [n]) = some .dir ∧ n ∉ validIDs := by
  have hmoved : ∀ n ∈ moves.map Prod.fst, v (payloadsRoot ++ [n]) = some .dir ∧ n ∉ validIDs := by
    intro n hn
    obtain ⟨m, hm, rfl⟩ := mem_map.mp hn
    exact ⟨(h.chosen m hm).dir, (h.chosen m hm).orphan⟩
  have hdir : ∀ {n}, v (payloadsRoot ++ [n]) = some .dir → n ∈ names := fun hn =>
    hnames _ (by rw [hn]; exact Option.some_ne_none _)
  refine ⟨fun n => ⟨fun hn => ?_, fun hn => ?_⟩, fun n => ⟨hmoved n, fun hn => ?_⟩⟩
  · have hnot := h.not_moved (n := n) (by rw [hn]; exact Option.some_ne_none _)
    rw [h.payload_at hnot] at hn
    exact ⟨hn, ((hall n (hdir hn)).resolve_right hnot).1⟩
  · rw [h.payload_at fun hmem => (hmoved n hmem).2 hn.2]
    exact hn.1
  · exact (hall n (hdir hn.1)).resolve_left fun hv => hn.2 hv.1

/-- What a sweep that succeeds has done to the tree. -/
structure Swept (validIDs : List GoString) (v v' : View GoString) : Prop where
  /-- Only directories were met. -/
  entries : ∀ n, v (payloadsRoot ++ [n]) ≠ none → v (payloadsRoot ++ [n]) = some .dir
  /-- An orphan is gone, and it is among the orphans as it was. -/
  orphans : ∀ n, v (payloadsRoot ++ [n]) ≠ none → n ∉ validIDs →
    v'.sub (payloadsRoot ++ [n]) = nothing ∧
    ∃ target, v'.sub (orphanRoot ++ [target]) = v.sub (payloadsRoot ++ [n])
  /-- Everything else is as it was. -/
  kept : ∀ q, (∀ n, v (payloadsRoot ++ [n]) ≠ none → n ∉ validIDs → ¬ Below (payloadsRoot ++ [n]) q) →
    (∀ target, v (orphanRoot ++ [target]) = none → ¬ Below (orphanRoot ++ [target]) q) → v' q = v q

/-- **A sweep that succeeds moves the orphans and nothing else.** -/
theorem SweepEnds.swept {paths : List GoString} {l : Loss}
    (hnames : ∀ n, v (payloadsRoot ++ [n]) ≠ none → n ∈ names)
    (h : SweepEnds s validIDs names [] v v' (.ok paths) l) : Swept validIDs v v' := by
  cases h with
  | done more hmoved hall =>
    refine ⟨fun n hn => ?_, fun n hn hno => ?_, fun q hp ho => ?_⟩
    · rcases hall n (hnames n hn) with hv | hmem
      · exact hv.2
      · obtain ⟨m, hm, rfl⟩ := mem_map.mp hmem
        exact (hmoved.chosen m hm).dir
    · have hmem := (hall n (hnames n hn)).resolve_left fun hv => hno hv.1
      obtain ⟨m, hm, rfl⟩ := mem_map.mp hmem
      exact ⟨hmoved.gone m hm, m.2, hmoved.there m hm⟩
    · refine hmoved.kept q (fun m hm => ?_) fun m hm => ho m.2 (hmoved.chosen m hm).free
      have hc := hmoved.chosen m hm
      exact hp m.1 (by rw [hc.dir]; exact Option.some_ne_none _) hc.orphan

/-- **However the sweep ends**, it has destroyed nothing unless an orphan and its copy are lost. -/
theorem SweepEnds.sound_iff {l : Loss} (hnames : ∀ n, v (payloadsRoot ++ [n]) ≠ none → n ∈ names)
    (h : SweepEnds s validIDs names [] v v' out l) :
    SweepSound s validIDs v v' out ↔ l ≠ .both := by
  cases h with
  | done more hmoved hall =>
    have hs : Stopped validIDs v' v' .nothing := .refl v'
    obtain ⟨hleft, hmoves⟩ := hmoved.left hnames hall
    refine ⟨fun _ hl => (nomatch hl), fun hl => ⟨fun n _ => hmoved.complete hs hl n,
      fun t ht => hmoved.orphans hs ht, fun n hn => hmoved.valid hs hn, ?_⟩⟩
    rintro paths ⟨⟩
    refine ⟨hleft, ?_, more, rfl, hmoves, hmoved.there⟩
    have hnodup := hmoved.targets.map (quarantinePath_injective s)
    rw [map_map] at hnodup
    exact hnodup
  | stopped more v1 e l hmoved hs =>
    refine ⟨fun hsound hl => ?_, fun hl => ⟨fun n _ => hmoved.complete hs hl n,
      fun t ht => hmoved.orphans hs ht, fun n hn => hmoved.valid hs hn, fun _ h => nomatch h⟩⟩
    subst hl
    obtain ⟨n, hdir, hsource, hnowhere⟩ := hmoved.lost hs
    rcases hsound.complete n hdir with hsame | ⟨t, hstart, hfree, hcopy⟩
    · exact hsource hsame
    · exact hnowhere t hstart hfree hcopy

/-- How the whole call ends: the names are the entries of `payloads/`. -/
theorem quarantineOrphans_end [Unicode] (h : Runs exec (s.quarantineOrphans validIDs) W tr out W')
    (hh : HonestFiles tr) : ∃ names, (∀ n, W.tree (payloadsRoot ++ [n]) ≠ none → n ∈ names) ∧
      SweepEnds s validIDs names [] W.tree W'.tree out (Loss.nothing.run tr) := by
  -- the steps before the loop change nothing, and the call may end at each of them
  have hfirst : ∀ {α : Type} {p : Task α} {f : α → Task (List GoString)} {W1 : World}
      {tr : Trace},
      Runs exec (p >>= f : Task (List GoString)) W1 tr out W' → HonestFiles tr →
      p.Uses (Confined NoRegion) → W1.tree = W.tree →
      (∀ a W2 tr1 tr2, Runs exec p W1 tr1 (.ok a) W2 → HonestFiles tr1 →
        Runs exec (f a) W2 tr2 out W' → HonestFiles tr2 → W2.tree = W.tree →
        ∃ names, (∀ n, W.tree (payloadsRoot ++ [n]) ≠ none → n ∈ names) ∧
          SweepEnds s validIDs names [] W.tree W'.tree out (Loss.nothing.run tr2)) →
      ∃ names, (∀ n, W.tree (payloadsRoot ++ [n]) ≠ none → n ∈ names) ∧
        SweepEnds s validIDs names [] W.tree W'.tree out (Loss.nothing.run tr) := by
    intro α p f W1 tr h hh hp hsame hrest
    rcases h.act_bind_inv with ⟨a, tr1, tr2, W2, rfl, h1, h2⟩ | ⟨e, rfl, h1⟩
    · rw [Loss.run_append, loss_quiet h1 hp]
      exact hrest a W2 tr1 tr2 h1 hh.left h2 hh.right ((tree_same h1 hp).trans hsame)
    · refine ⟨W.files.children payloadsRoot, fun n hn => Files.mem_children.mpr hn, ?_⟩
      rw [loss_quiet h1 hp, (tree_same h1 hp).trans hsame]
      exact .stopped [] _ e _ (Moved.nil _) (.refl _)
  refine hfirst h hh openRootOr_confined rfl fun _ W1 _ tr1 _ _ h1 hh1 hsame1 => ?_
  refine hfirst h1 hh1 openDir_confined hsame1 fun _ W2 _ tr2 _ _ h2 hh2 hsame2 => ?_
  refine hfirst h2 hh2 openDir_confined hsame2 fun _ W3 _ tr3 _ _ h3 hh3 hsame3 => ?_
  refine hfirst h3 hh3 readDirectoryEntriesFD_confined.mapError hsame3
    fun names W4 tr' tr4 hread hhread h4 hh4 hsame4 => ⟨names, fun n hn => ?_, ?_⟩
  · obtain ⟨κ, ⟨-, -, -, hnames⟩, -⟩ := honest_run hread hhread
      (readDirectoryEntriesFD_gives fun q _ => trivial).gives_mapError
    rw [known_tree, hsame3] at hnames
    exact (hnames n).mpr hn
  · rw [← hsame4]
    exact quarantineEntries_end h4 hh4 (Moved.nil _)

/-- **Quarantining orphans destroys nothing exactly if** no step fails while a source is removed in part,
    or nothing is removed from a copy after that. -/
theorem quarantineOrphans_sound_iff [Unicode] {out : Except GoError (List GoString)}
    (h : Runs exec (s.quarantineOrphans validIDs) W tr out W') (hh : HonestFiles tr) :
    SweepSound s validIDs W.tree W'.tree out ↔ Loss.nothing.run tr ≠ .both := by
  obtain ⟨names, hnames, hends⟩ := quarantineOrphans_end h hh
  exact hends.sound_iff hnames

/-! ## Sweeps across file systems -/

/-- The orphans are on another file system, and the payload directory itself can be removed or not. -/
def acrossDevices (removable : Bool) : Op → Choice
  | .fs (.rename sd _ _ _) => .call (if sd = payloadsRoot then .fault .exdev else .go)
  | .fs (.rmdir d _) =>
    .call (if d = payloadsRoot ∧ removable = false then .fault (.other (lit "input/output error")) else .go)
  | o => calm (.error .canceled) (.error .canceled) o

/-- The payload of the sample message, in a fresh spool. -/
def publishSample : Task Unit :=
  let _ := Unicode.ascii
  do
    sampleStore.payloads.newPayloadStore
    sampleStore.payloads.save sampleID sampleMessage

/-- A sweep over that payload, which has no record. -/
def sweepPasses (removable : Bool) (T : World → Trace → Except GoError (List GoString) → World → Bool)
    (x : Except GoError Unit × Trace × World) : Bool :=
  let _ := Unicode.ascii
  (Prog.run exec (acrossDevices removable) 200 (sampleStore.payloads.quarantineOrphans []) x.2.2).any
    fun y => (y.2.1.all fun ev => honestChoice ev.choice) && T x.2.2 y.2.1 y.1 y.2.2

theorem exists_sweep (removable : Bool) (T : World → Trace → Except GoError (List GoString) → World → Bool)
    (h : letI := Unicode.ascii
      (Prog.run exec (calm (.error .canceled) (.error .canceled)) 200 publishSample
        (sampleWorld ⟨[], nodup_nil⟩)).any (sweepPasses removable T) = true) :
    letI := Unicode.ascii
    ∃ (W W' : World) (tr : Trace) (out : Except GoError (List GoString)),
      Runs exec (sampleStore.payloads.quarantineOrphans []) W tr out W' ∧ HonestFiles tr ∧
      T W tr out W' = true := by
  let _ := Unicode.ascii
  obtain ⟨a, tr0, W, -, hW⟩ := Prog.exists_runs_of_run (E := exec)
    (calm (.error .canceled) (.error .canceled)) 200 publishSample
    (sampleWorld ⟨[], nodup_nil⟩) (sweepPasses removable T) h
  have hW : (Prog.run exec (acrossDevices removable) 200 (sampleStore.payloads.quarantineOrphans [])
    W).any (fun y => (y.2.1.all fun ev => honestChoice ev.choice) && T W y.2.1 y.1 y.2.2) = true := hW
  obtain ⟨out, tr, W', hrun, hT⟩ := Prog.exists_runs_of_run (E := exec) (acrossDevices removable) 200
    (sampleStore.payloads.quarantineOrphans []) W _ hW
  obtain ⟨hhonest, hT⟩ := Bool.and_eq_true_iff.mp hT
  exact ⟨W, W', tr, out, hrun, honestFiles_of hhonest, hT⟩

/-- **A sweep that copies**: it succeeds, and nothing is destroyed. -/
theorem quarantineOrphans_sound_copied :
    letI := Unicode.ascii
    ∃ (W W' : World) (tr : Trace) (paths : List GoString),
      Runs exec (sampleStore.payloads.quarantineOrphans []) W tr (.ok paths) W' ∧
      HonestFiles tr ∧ paths = [lit "/spool/payload-orphans/" ++ sampleID] ∧
      SweepSound sampleStore.payloads [] W.tree W'.tree (.ok paths) := by
  let _ := Unicode.ascii
  obtain ⟨W, W', tr, out, hrun, hhonest, hT⟩ := exists_sweep true (fun _ tr out _ =>
    out.toOption == some [lit "/spool/payload-orphans/" ++ sampleID] &&
      decide (Loss.nothing.run tr ≠ .both)) (by decide +kernel)
  obtain ⟨hout, hloss⟩ := Bool.and_eq_true_iff.mp hT
  cases out with
  | error e => nomatch hout
  | ok paths =>
    have hpaths : paths = [lit "/spool/payload-orphans/" ++ sampleID] :=
      Option.some.inj (eq_of_beq hout)
    exact ⟨W, W', tr, paths, hrun, hhonest, hpaths,
      (quarantineOrphans_sound_iff hrun hhonest).mpr (of_decide_eq_true hloss)⟩

/-- **A payload that is lost**: its directory cannot be removed after everything in it, and then the copy
    is removed.  The message is neither in `payloads/` nor under any name in `payload-orphans/`. -/
theorem quarantineOrphans_loses_payload :
    letI := Unicode.ascii
    ∃ (W W' : World) (tr : Trace) (e : GoError),
      Runs exec (sampleStore.payloads.quarantineOrphans []) W tr (.error e) W' ∧
      HonestFiles tr ∧ W.tree (payloadsRoot ++ [sampleID]) = some .dir ∧
      W'.tree.sub (payloadsRoot ++ [sampleID]) ≠ W.tree.sub (payloadsRoot ++ [sampleID]) ∧
      ∀ t, W'.tree.sub (orphanRoot ++ [t]) ≠ W.tree.sub (payloadsRoot ++ [sampleID]) := by
  let _ := Unicode.ascii
  let file := payloadsRoot ++ [sampleID] ++ [messageFileName]
  obtain ⟨W, W', tr, out, hrun, hhonest, hT⟩ := exists_sweep false (fun W _ out W' =>
    out.toOption.isNone && (decide (W.files.get (payloadsRoot ++ [sampleID]) = some .dir) &&
      ((W.files.get file).isSome && ((W'.files.get file).isNone &&
        (W'.files.children orphanRoot).isEmpty)))) (by decide +kernel)
  obtain ⟨hout, hT⟩ := Bool.and_eq_true_iff.mp hT
  obtain ⟨hdir, hT⟩ := Bool.and_eq_true_iff.mp hT
  obtain ⟨hwas, hT⟩ := Bool.and_eq_true_iff.mp hT
  obtain ⟨hgone, hempty⟩ := Bool.and_eq_true_iff.mp hT
  have hdir : W.tree (payloadsRoot ++ [sampleID]) = some .dir := of_decide_eq_true hdir
  cases out with
  | ok paths => nomatch hout
  | error e =>
    refine ⟨W, W', tr, e, hrun, hhonest, hdir, fun heq => ?_, fun t heq => ?_⟩
    · have hfile := congrFun heq [messageFileName]
      have hnone : W'.tree file = none := Option.isNone_iff_eq_none.mp hgone
      have hthere : W.tree file ≠ none := Option.isSome_iff_ne_none.mp hwas
      exact hthere (hfile.symm.trans hnone)
    · have hnone : W'.tree (orphanRoot ++ [t]) = none :=
        Files.children_eq_nil.mp (List.isEmpty_iff.mp hempty) t
      have hroot := root_of_sub heq
      rw [sub_nil, hnone, hdir] at hroot
      nomatch hroot

end Sweep

end SmtpCloudRelay.Spool
