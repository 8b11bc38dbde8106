/-
  WHAT THE FILE OPERATIONS DO, seen through a window.

  A program of the payload store works in a REGION of the tree, and a WATCH looks at that region while
  it works: it knows the view of the tree there, it may assume that the outside makes only certain
  choices, and it demands that a property of the view is kept by every single step.  The watch is a
  protocol, so what it says about a program holds of the program alone, of the program among others
  that stay out of the region, and of the program stopped at any point.

  The specifications below are the effects of the file operations as equations between views, for the
  case that they succeed:
  * `createDirectoryAt_gives`, `createUniqueDirectoryAt_gives`: an empty directory where nothing was;
  * `writeRegularFileAt_gives`: the file, and the temporary file is gone again;
  * `copyEntries_gives`: the target is what the source is, by induction on the depth and, for one
    directory, over its entries;
  * `removeEntry_gives`: nothing is left, provided that "no such file" is only said when it is true.
-/
import SmtpCloudRelay.Lib.View
import SmtpCloudRelay.Lib.Spec
import SmtpCloudRelay.Spool.Footprint

namespace SmtpCloudRelay.Spool

open Go Lib Act View Files List

/-- What can be known of a tree inside a region. -/
abbrev Known (R : Path → Prop) := {v : View GoString // ∃ t : Files GoString, t.on R = v}

/-- The view of a tree. -/
noncomputable def Known.of (R : Path → Prop) (t : Files GoString) : Known R := ⟨t.on R, t, rfl⟩

/-- A window on the tree: the region it shows, the choices the outside may make, and what every step
    has to keep. -/
structure Watch where
  region : Path → Prop
  allows : Op → Choice → Prop
  keeps : View GoString → Prop

namespace Watch

variable (w : Watch)

/-- How a step changes the view. -/
def step (κ : Known w.region) : (o : Op) → o.Res → Known w.region → Prop
  | .fs c, r, κ' => ∃ cc t t', w.allows (.fs c) (.call cc) ∧ t.on w.region = κ.1 ∧
      c.perform t cc = some (r, t') ∧ t'.on w.region = κ'.1
  | o, r, κ' => (∃ ch, w.allows o ch ∧ answer o ch = some r) ∧ κ' = κ

/-- The protocol of a watch: stay in the region, and keep what has to be kept. -/
def proto : Proto spoolSig (Known w.region) where
  ok κ o := Confined w.region o ∧ ∀ r κ', w.step κ o r κ' → w.keeps κ.1 → w.keeps κ'.1
  next := w.step

variable {w} {κ κ' : Known w.region}

/-! ## Steps that change nothing, and steps that change little -/

variable {o : Op} {r : o.Res} {D p sd source target : Path} {c : Call GoString} {data : List UInt8}
  {n sn : GoString} {u : Unit} {W : World}

/-- A step changes nothing outside what it is confined to. -/
theorem step_frame (h : w.step κ o r κ') {R : Path → Prop} (hc : Confined R o) {q : Path}
    (hq : ¬ R q) : κ'.1 q = κ.1 q := by
  cases o with
  | fs c =>
    obtain ⟨cc, t, t', -, ht, hp, ht'⟩ := h
    have hget := Call.perform_frame hp fun hx => hq (hc q hx)
    rw [← ht, ← ht', Files.on, Files.on, hget]
  | suffix | openRoot => rw [h.2]
  | _ => exact hc.elim

theorem step_quiet (h : w.step κ o r κ') (hc : Confined NoRegion o) : κ' = κ :=
  Subtype.ext (funext fun _ => step_frame h hc fun hq => hq)

/-- What is below `D` is in the window, and no business of what has to be kept. -/
structure Free (w : Watch) (D : Path) : Prop where
  seen : Files.Seen w.region D
  keep : ∀ v v' : View GoString, (∀ q, ¬ Below D q → v' q = v q) → w.keeps v → w.keeps v'

theorem Free.append (h : w.Free D) (q : Path) : w.Free (D ++ q) where
  seen := h.seen.append q
  keep v v' hv := h.keep v v' fun x hx => hv x fun hq => hx ((prefix_append D q).trans hq)

theorem ok_of_quiet (hc : Confined NoRegion o) : w.proto.ok κ o := by
  refine ⟨Confined.mono (fun q hq => hq.elim) o hc, fun r κ' h hk => ?_⟩
  rw [step_quiet h hc]
  exact hk

theorem ok_of_free (hD : w.Free D) (hc : Confined (Below D) o) : w.proto.ok κ o :=
  ⟨Confined.mono hD.seen o hc, fun _ κ' h => hD.keep κ.1 κ'.1 fun _ hq => step_frame h hc hq⟩

variable {α β : Type}

theorem quiet {p : Task α} (hp : p.Uses (Confined NoRegion)) {Q : Except GoError α → _ → Prop}
    (hQ : ∀ out, Q out κ) : p.Safe w.proto Q κ :=
  hp.safe (fun _ ho => ⟨ok_of_quiet ho, fun _ _ h => step_quiet h ho⟩) hQ

theorem quiet_gives {p : Task α} (hp : p.Uses (Confined NoRegion)) {Q : α → Known w.region → Prop}
    (hQ : ∀ a, Q a κ) : p.Safe w.proto (Gives Q) κ := by
  refine quiet hp fun out => ?_
  cases out with
  | ok a => exact hQ a
  | error e => trivial

theorem quiet_bind {p : Task α} {f : α → Task β} (hp : p.Uses (Confined NoRegion))
    {Q : β → Known w.region → Prop} (hf : ∀ a, (f a).Safe w.proto (Gives Q) κ) :
    (p >>= f).Safe w.proto (Gives Q) κ := by
  have hquiet : p.Safe w.proto (Gives fun _ κ' => κ' = κ) κ := quiet_gives hp fun _ => rfl
  refine hquiet.gives_bind ?_
  rintro a κ' rfl
  exact hf a

/-- A program that changes things below `D` only. -/
theorem within (hD : w.Free D) {ε : Type} {p : Act spoolSig ε α}
    (hp : p.Uses (Confined (Below D))) :
    p.Safe w.proto (fun _ κ' => ∀ q, ¬ Below D q → κ'.1 q = κ.1 q) κ :=
  Prog.Uses.keeps hp (fun _ _ ho _ => ok_of_free hD ho)
    (fun _ _ _ _ ho hκ h q hq => (step_frame h ho hq).trans (hκ q hq)) fun _ _ => rfl

theorem cleans (hD : w.Free D) {ε : Type} {p : Act spoolSig ε α}
    (hp : p.Uses (Confined (Below D))) : p.Safe w.proto (fun _ _ => True) κ :=
  Safe.mono (fun _ _ _ => trivial) (within hD hp)

/-! ## Single calls -/

theorem sysOr_gives {before : GoString} {Q : c.Answer → Known w.region → Prop}
    (hok : w.proto.ok κ (.fs c)) (h : ∀ a κ', w.step κ (.fs c) (.ok a) κ' → Q a κ') :
    (sysOr before c).Safe w.proto (Gives Q) κ := by
  have hsys : (sys c).Safe w.proto (Gives Q) κ := by
    refine ⟨hok, fun r κ' hstep => ?_⟩
    cases r with
    | ok a => exact h a κ' hstep
    | error e => trivial
  exact hsys.gives_mapError

theorem sysRaw_gives {Q : c.Answer → Known w.region → Prop} (hok : w.proto.ok κ (.fs c))
    (h : ∀ a κ', w.step κ (.fs c) (.ok a) κ' → Q a κ') : (sysRaw c).Safe w.proto (Gives Q) κ := by
  have hsys : (sys c).Safe w.proto (Gives Q) κ := by
    refine ⟨hok, fun r κ' hstep => ?_⟩
    cases r with
    | ok a => exact h a κ' hstep
    | error e => trivial
  exact hsys.gives_mapError

theorem step_stat {k : Kind} (h : w.step κ (.fs (.stat p)) (.ok k) κ') (hR : w.region p) :
    ∃ node, κ.1 p = some node ∧ node.kind = k := by
  obtain ⟨cc, t, t', -, ht, hp, -⟩ := h
  obtain ⟨-, hr | ⟨e, he⟩⟩ := Call.looking_cases hp
  · rw [← ht, on_of hR]
    split at hr
    · rename_i node hnode
      exact ⟨node, hnode, Except.ok.inj (Option.some.inj hr)⟩
    · nomatch hr
  · nomatch he

theorem step_readFile (h : w.step κ (.fs (.readFile p)) (.ok (some data)) κ') (hR : w.region p) :
    κ.1 p = some (.file data) := by
  obtain ⟨cc, t, t', -, ht, hp, -⟩ := h
  obtain ⟨-, hr | ⟨e, he⟩⟩ := Call.looking_cases hp
  · rw [← ht, on_of hR]
    unfold Call.reads at hr
    split at hr
    · rename_i data' hdata
      rw [hdata, Option.some.inj (Except.ok.inj (Option.some.inj hr))]
    all_goals nomatch hr
  · nomatch he

theorem step_readDir {l : List GoString} (h : w.step κ (.fs (.readDir p)) (.ok l) κ')
    (hR : Files.Seen w.region p) :
    κ.1 p = some .dir ∧ l.Nodup ∧ ∀ n, n ∈ l ↔ κ.1 (p ++ [n]) ≠ none := by
  obtain ⟨cc, t, t', -, ht, hp, -⟩ := h
  obtain ⟨-, ⟨l', hl, hdir, hperm⟩ | ⟨e, he⟩⟩ := Call.listing_cases hp
  · cases hl
    rw [← ht, on_of hR.self]
    refine ⟨hdir, hperm.nodup_iff.mpr (children_nodup t p), fun n => ?_⟩
    rw [hperm.mem_iff, mem_children_on hR]
  · nomatch he

/-- The outside says "no such file" only when it is true. -/
def Honest (w : Watch) : Prop := ∀ c, ¬ w.allows (.fs c) (.call (.fault .enoent))

theorem step_missing (hw : w.Honest) (h : w.step κ (.fs (.stat p)) (.error .enoent) κ')
    (hR : w.region p) : κ.1 p = none := by
  obtain ⟨cc, t, t', hcc, ht, hp, -⟩ := h
  rw [← ht, on_of hR]
  cases cc with
  | go =>
    cases hget : t.get p with
    | none => rfl
    | some k =>
      have hx : Call.perform (.stat p) t .go = some (.ok k.kind, t) := by
        simp only [Call.perform, Call.looking, hget, Option.map_some]
      rw [hp] at hx
      cases hx
  | fault e =>
    cases hp
    exact (hw _ hcc).elim
  | wrote k e | names l => nomatch hp

/-- A call that changes the tree or fails without effect. -/
theorem step_changing {t t' : Files GoString} {x : Except Errno (Files GoString)}
    {r : Except Errno Unit} {cc : Call.Choice GoString} (ht : t.on w.region = κ.1)
    (hp : Call.changing t x cc = some (r, t')) (ht' : t'.on w.region = κ'.1) :
    (r = .ok () ∧ x = .ok t') ∨ ((∃ e, r = .error e) ∧ κ' = κ) := by
  refine (Call.changing_cases hp).imp_right ?_
  rintro ⟨hr, rfl⟩
  exact ⟨hr, Subtype.ext (ht'.symm.trans ht)⟩

theorem step_mkdir {d : Path} {r : Except Errno Unit} (h : w.step κ (.fs (.mkdir d n)) r κ')
    (hR : Files.Seen w.region (d ++ [n])) : (r = .ok () ∧ κ.1.sub (d ++ [n]) = nothing ∧
      κ'.1 = κ.1.graft (d ++ [n]) (leaf .dir)) ∨ ((∃ e, r = .error e) ∧ κ' = κ) := by
  obtain ⟨cc, t, t', -, ht, hp, ht'⟩ := h
  refine (step_changing ht hp ht').imp_left ?_
  rintro ⟨hr, hx⟩
  rw [← ht, ← ht']
  exact ⟨hr, on_make hx hR⟩

theorem step_made {d : Path} (h : w.step κ (.fs (.mkdir d n)) (.ok u) κ')
    (hR : Files.Seen w.region (d ++ [n])) :
    κ.1.sub (d ++ [n]) = nothing ∧ κ'.1 = κ.1.graft (d ++ [n]) (leaf .dir) := by
  rcases step_mkdir h hR with ⟨-, hmade⟩ | ⟨⟨e, he⟩, -⟩
  · exact hmade
  · nomatch he

theorem step_create {d : Path} (h : w.step κ (.fs (.create d n)) (.ok u) κ')
    (hR : Files.Seen w.region (d ++ [n])) :
    κ.1.sub (d ++ [n]) = nothing ∧ κ'.1 = κ.1.graft (d ++ [n]) (leaf (.file [])) := by
  obtain ⟨cc, t, t', -, ht, hp, ht'⟩ := h
  rcases step_changing ht hp ht' with ⟨-, hx⟩ | ⟨⟨e, he⟩, -⟩
  · rw [← ht, ← ht']
    exact on_make hx hR
  · nomatch he

theorem step_write {d : Path} {old : List UInt8} (h : w.step κ (.fs (.write d n data)) (.ok u) κ')
    (hR : Files.Seen w.region (d ++ [n])) (hold : κ.1.sub (d ++ [n]) = leaf (.file old)) :
    κ'.1 = κ.1.graft (d ++ [n]) (leaf (.file (old ++ data))) := by
  obtain ⟨cc, t, t', -, ht, hp, ht'⟩ := h
  rcases Call.writing_cases hp with ⟨-, hx⟩ | ⟨⟨e, he⟩, -⟩
  · rw [← ht] at hold ⊢
    rw [← ht']
    exact on_write hx hR hold
  · nomatch he

/-- What a rename does to a view. -/
def Renamed (src dst : Path) (v v' : View GoString) : Prop :=
  v src ≠ none ∧ ((src = dst ∧ v' = v) ∨
    (Apart src dst ∧ v' = (v.graft src nothing).graft dst (v.sub src)))

theorem step_rename {dd : Path} {dn : GoString} {r : Except Errno Unit}
    (h : w.step κ (.fs (.rename sd sn dd dn)) r κ') (hs : Files.Seen w.region (sd ++ [sn]))
    (hd : Files.Seen w.region (dd ++ [dn])) :
    (r = .ok () ∧ Renamed (sd ++ [sn]) (dd ++ [dn]) κ.1 κ'.1) ∨
    ((∃ e, r = .error e) ∧ κ' = κ) := by
  obtain ⟨cc, t, t', -, ht, hp, ht'⟩ := h
  refine (step_changing ht hp ht').imp_left ?_
  rintro ⟨hr, hx⟩
  obtain ⟨hsrc, hcase⟩ := on_rename hx hs hd
  refine ⟨hr, ?_⟩
  rw [← ht, ← ht']
  exact ⟨hsrc, hcase.imp_left fun h => ⟨h.1, by rw [h.2]⟩⟩

theorem step_unlink {d : Path} (h : w.step κ (.fs (.unlink d n)) (.ok u) κ')
    (hR : Files.Seen w.region (d ++ [n])) : κ'.1 = κ.1.graft (d ++ [n]) nothing := by
  obtain ⟨cc, t, t', -, ht, hp, ht'⟩ := h
  rcases step_changing ht hp ht' with ⟨-, hx⟩ | ⟨⟨e, he⟩, -⟩
  · rw [← ht, ← ht']
    exact on_remove (unlink_ok hx).2 hR
  · nomatch he

theorem step_rmdir {d : Path} (h : w.step κ (.fs (.rmdir d n)) (.ok u) κ')
    (hR : Files.Seen w.region (d ++ [n])) : κ'.1 = κ.1.graft (d ++ [n]) nothing := by
  obtain ⟨cc, t, t', -, ht, hp, ht'⟩ := h
  rcases step_changing ht hp ht' with ⟨-, hx⟩ | ⟨⟨e, he⟩, -⟩
  · rw [← ht, ← ht']
    exact on_remove (rmdir_ok hx).2 hR
  · nomatch he

/-! ## Making directories and files -/

variable {root : Root} {d : Path} {name : GoString}

theorem confined_entry (h : ∀ q, c.Touches q → p = q) : Confined (Below p) (.fs c) := by
  intro q hq
  rw [h q hq]

theorem createDirectoryAt_gives (hf : w.Free (d ++ [name])) :
    (createDirectoryAt root d name).Safe w.proto (Gives fun _ κ' =>
      κ.1.sub (d ++ [name]) = nothing ∧
      κ'.1 = κ.1.graft (d ++ [name]) (leaf .dir)) κ := by
  have hok : w.proto.ok κ (.fs (.mkdir d name)) :=
    ok_of_free hf (confined_entry (c := .mkdir d name) fun q hq => hq)
  refine Safe.gives_bind (sysOr_gives hok fun a κ' h => step_made h hf.seen) fun a κ' hmade => ?_
  exact quiet_gives settleDirectoryAt_confined fun _ => hmade

theorem createUniqueDirectoryAt_gives {nameOf : GoString → GoString} {noSuffix exhausted : GoString}
    (hf : ∀ suffix, w.Free (d ++ [nameOf suffix])) (left : Nat) :
    (createUniqueDirectoryAt root d nameOf noSuffix exhausted left).Safe w.proto
      (Gives fun name κ' => ∃ suffix, name = nameOf suffix ∧
        κ.1.sub (d ++ [name]) = nothing ∧
        κ'.1 = κ.1.graft (d ++ [name]) (leaf .dir)) κ := by
  induction left with
  | zero => trivial
  | succ left ih =>
    refine quiet_bind newSuffix_confined.mapError fun suffix => ?_
    have hok : w.proto.ok κ (.fs (.mkdir d (nameOf suffix))) :=
      ok_of_free (hf suffix) (confined_entry (c := .mkdir d (nameOf suffix)) fun q hq => hq)
    refine Safe.gives_attempt_bind ⟨hok, fun r κ' h => step_mkdir h (hf suffix).seen⟩ ?_
    rintro made κ' (⟨rfl, hmade⟩ | ⟨⟨e, rfl⟩, rfl⟩)
    · refine quiet_bind settleDirectoryAt_confined fun _ => ?_
      exact ⟨suffix, rfl, hmade⟩
    · cases e with
      | eexist => exact ih
      | _ => trivial

theorem ok_of_free2 {D' : Path} (hD : w.Free D) (hD' : w.Free D')
    (hc : Confined (fun q => Below D q ∨ Below D' q) o) : w.proto.ok κ o := by
  refine ⟨Confined.mono (fun q hq => hq.elim (hD.seen q) (hD'.seen q)) o hc, fun r κ' h hk => ?_⟩
  -- first what happens below one, then what happens below the other
  have hone := hD.keep κ.1 (fun q => if Below D q then κ'.1 q else κ.1 q) (fun q hq => if_neg hq) hk
  refine hD'.keep _ κ'.1 (fun q hq => ?_) hone
  by_cases hDq : Below D q
  · exact (if_pos hDq).symm
  · rw [if_neg hDq]
    exact step_frame h hc fun hx => hx.elim hDq hq

/-- A file of its own is written and then renamed over the name. -/
theorem writeTemp_gives {tmp : GoString} (ht : w.Free (d ++ [tmp])) (hn : w.Free (d ++ [name])) :
    (writeTemp root d tmp name data).Safe w.proto (Gives fun _ κ' =>
      κ'.1 = κ.1.graft (d ++ [name]) (leaf (.file data))) κ := by
  have hcreate : w.proto.ok κ (.fs (.create d tmp)) :=
    ok_of_free ht (confined_entry (c := .create d tmp) fun q hq => hq)
  refine Safe.gives_bind (sysOr_gives hcreate fun a κ' h => step_create h ht.seen) ?_
  rintro _ κ1 ⟨hnone, hκ1⟩
  have hfile : κ1.1.sub (d ++ [tmp]) = leaf (.file []) := by rw [hκ1, sub_graft]
  have hwrite : w.proto.ok κ1 (.fs (.write d tmp data)) :=
    ok_of_free ht (confined_entry (c := .write d tmp data) fun q hq => hq)
  refine Safe.gives_bind (sysOr_gives hwrite fun a κ' h => step_write h ht.seen hfile) ?_
  rintro _ κ2 hκ2
  rw [hκ1, graft_graft, nil_append] at hκ2
  refine quiet_bind quiet_confined fun _ => quiet_bind quiet_confined fun _ =>
    quiet_bind quiet_confined fun _ => ?_
  have hrename : w.proto.ok κ2 (.fs (.rename d tmp d name)) :=
    ok_of_free2 ht hn (fun q (hq : Call.Touches (.rename d tmp d name) q) => hq)
  refine sysOr_gives hrename fun a κ3 h => ?_
  rcases step_rename h ht.seen hn.seen with ⟨-, -, ⟨heq, hκ3⟩ | ⟨hap, hκ3⟩⟩ | ⟨⟨e, he⟩, -⟩
  · rw [hκ3, hκ2, heq]
  · rw [hκ3, hκ2, sub_graft, graft_graft, graft_of_sub hnone]
  · nomatch he

theorem writeRegularFileAt_gives (hf : ∀ n, w.Free (d ++ [n])) :
    (writeRegularFileAt root d name data).Safe w.proto (Gives fun _ κ' =>
      κ'.1 = κ.1.graft (d ++ [name]) (leaf (.file data))) κ := by
  refine quiet_bind (uniqueTempName_confined _).mapError fun tmp => ?_
  have hunlink : ∀ κ', (sys (.unlink d tmp)).Safe w.proto (fun _ _ => True) κ' := fun κ' =>
    ⟨ok_of_free (hf tmp) (confined_entry (c := .unlink d tmp) fun q hq => hq), fun _ _ _ => trivial⟩
  refine Safe.gives_bind ((writeTemp_gives (hf tmp) (hf name)).gives_onFail hunlink) ?_
  intro _ κ' hκ'
  exact quiet syncFD_confined fun out => by
    cases out with
    | ok a => exact hκ'
    | error e => trivial

/-! ## Looking -/

/-- What an answer of `entryModeAt` says about the view. -/
def Mode (w : Watch) (v : View GoString) (p : Path) : Option Kind → Prop
  | some k => ∃ node, v p = some node ∧ node.kind = k
  | none => w.Honest → v p = none

theorem entryModeAt_gives (hR : w.region p) :
    (entryModeAt p).Safe w.proto (Gives fun mode κ' => κ' = κ ∧ w.Mode κ.1 p mode) κ := by
  have hq : Confined NoRegion (.fs (.stat p)) := fun q hq => nomatch hq
  refine Safe.gives_attempt_bind (P := w.step κ (.fs (.stat p)))
    ⟨ok_of_quiet hq, fun r κ' h => h⟩ ?_
  intro mode κ' h
  obtain rfl : κ' = κ := step_quiet h hq
  cases mode with
  | ok k => exact ⟨rfl, step_stat h hR⟩
  | error e =>
    cases e with
    | enoent => exact ⟨rfl, fun hw => step_missing hw h hR⟩
    | _ => trivial

theorem readRegularFileAtNoFollow_gives (hR : w.region p) :
    (readRegularFileAtNoFollow p).Safe w.proto (Gives fun data κ' =>
      κ' = κ ∧ κ.1 p = some (.file data)) κ := by
  have hq : Confined NoRegion (.fs (.readFile p)) := fun q hq => nomatch hq
  refine Safe.gives_bind (sysRaw_gives (ok_of_quiet hq) fun a κ' h => h) ?_
  intro data κ' h
  obtain rfl : κ' = κ := step_quiet h hq
  rcases data with _ | data
  · trivial
  · exact ⟨rfl, step_readFile h hR⟩

theorem readDirectoryEntriesFD_gives (hR : Files.Seen w.region p) :
    (readDirectoryEntriesFD p).Safe w.proto (Gives fun l κ' =>
      κ' = κ ∧ κ.1 p = some .dir ∧ l.Nodup ∧ ∀ n, n ∈ l ↔ κ.1 (p ++ [n]) ≠ none) κ := by
  have hq : Confined NoRegion (.fs (.readDir p)) := fun q hq => nomatch hq
  refine quiet_bind (sysRaw_confined (c := .quiet p) fun q hq => nomatch hq) fun _ => ?_
  refine sysRaw_gives (ok_of_quiet hq) fun l κ' h => ?_
  exact ⟨step_quiet h hq, step_readDir h hR⟩

/-- The rule for a loop over a list: an invariant of what has been done. -/
theorem forEach_gives {f : α → Task Unit} {as : List α} (I : List α → Known w.region → Prop)
    (hstart : I [] κ) (hstep : ∀ done a rest κ', as = done ++ a :: rest → I done κ' →
      (f a).Safe w.proto (Gives fun _ κ'' => I (done ++ [a]) κ'') κ') :
    (forEach f as).Safe w.proto (Gives fun _ κ' => I as κ') κ := by
  have hloop := forEach_safe (L := w.proto) (f := f) (F := fun _ _ => True) I hstart
    fun done a rest κ' has hI => Safe.mono ?_ (hstep done a rest κ' has hI)
  · refine Safe.mono ?_ hloop
    intro out κ' h
    cases out with
    | ok u => exact h
    | error e => trivial
  · intro out κ'' h
    cases out with
    | ok u => exact h
    | error e => trivial

/-! ## Copying trees -/

/-- The kind of a node tells a directory. -/
theorem kind_dir {k : Node} (h : k.kind = .dir) : k = .dir := by
  cases k with
  | dir => rfl
  | _ => nomatch h

/-- What copying a directory with all its entries does, given what copying its entries does. -/
theorem copyTree_gives {entries : Path → Path → Task Unit} {td : Path} {tn : GoString}
    (ht : w.Free (td ++ [tn])) (hap : Apart (td ++ [tn]) (sd ++ [sn]))
    (hentries : ∀ κ1 : Known w.region, κ1.1.sub (td ++ [tn]) = leaf .dir →
      (entries (sd ++ [sn]) (td ++ [tn])).Safe w.proto (Gives fun _ κ' =>
        κ'.1 = κ1.1.graft (td ++ [tn]) (κ1.1.sub (sd ++ [sn]))) κ1) :
    (copyTree root entries sd sn td tn).Safe w.proto (Gives fun _ κ' =>
      κ'.1 = κ.1.graft (td ++ [tn]) (κ.1.sub (sd ++ [sn]))) κ := by
  refine Safe.gives_bind (createDirectoryAt_gives ht) ?_
  rintro _ κ1 ⟨-, hκ1⟩
  refine Safe.gives_onFail ?_ fun κ2 => cleans ht (discardEntry_confined fun q hq => hq)
  refine quiet_bind openDir_confined fun _ => ?_
  have hleaf : κ1.1.sub (td ++ [tn]) = leaf .dir := by rw [hκ1, sub_graft]
  refine Safe.gives_bind (hentries κ1 hleaf) fun _ κ2 hκ2 => ?_
  rw [hκ1, graft_graft, sub_graft_apart hap] at hκ2
  exact quiet_gives syncFD_confined fun _ => hκ2

/-- What copying one entry has to do, whatever kind it is. -/
theorem copyEntry_gives {entries : Path → Path → Task Unit} (hs : Files.Seen w.region source)
    (ht : w.Free target) (hap : Apart source target)
    (hentries : ∀ κ1 : Known w.region, κ1.1.sub (target ++ [name]) = leaf .dir →
      (entries (source ++ [name]) (target ++ [name])).Safe w.proto (Gives fun _ κ' =>
        κ'.1 = κ1.1.graft (target ++ [name]) (κ1.1.sub (source ++ [name]))) κ1) :
    (copyEntry root entries source target name).Safe w.proto (Gives fun _ κ' =>
      κ'.1 = κ.1.graft (target ++ [name]) (κ.1.sub (source ++ [name]))) κ := by
  have hsrc : Files.Seen w.region (source ++ [name]) := hs.append [name]
  have hap' : Apart (target ++ [name]) (source ++ [name]) :=
    hap.symm.below (prefix_append _ _) (prefix_append _ _)
  refine Safe.gives_bind (entryModeAt_gives hsrc.self).gives_mapError ?_
  rintro mode κ' ⟨rfl, hmode⟩
  rcases mode with _ | k
  · trivial
  cases k with
  | dir => exact copyTree_gives (ht.append [name]) hap' hentries
  | reg =>
    refine Safe.gives_bind (readRegularFileAtNoFollow_gives hsrc.self).gives_mapError ?_
    rintro data κ1 ⟨rfl, hdata⟩
    obtain ⟨t, ht1⟩ := κ1.2
    have hleaf : κ1.1.sub (source ++ [name]) = leaf (.file data) := by
      rw [← ht1] at hdata ⊢
      exact sub_on_leaf hsrc hdata nofun
    rw [hleaf]
    exact writeRegularFileAt_gives fun n => ht.append [n]
  | other => trivial

/-- **A copied directory is what the source is.** -/
theorem copyEntries_gives (depth : Nat) (hs : Files.Seen w.region source) (ht : w.Free target)
    (hap : Apart source target) (hempty : κ.1.sub target = leaf .dir) :
    (copyEntries root depth source target).Safe w.proto (Gives fun _ κ' =>
      κ'.1 = κ.1.graft target (κ.1.sub source)) κ := by
  induction depth generalizing source target κ with
  | zero => exact Safe.diverge
  | succ depth ih =>
    refine Safe.gives_bind (readDirectoryEntriesFD_gives hs).gives_mapError ?_
    rintro l κ0 ⟨rfl, hdir, -, hmem⟩
    have hbelow : ∀ n q, κ0.1 (source ++ n :: q) ≠ none → n ∈ l := by
      intro n q hq
      rw [hmem]
      intro hnone
      obtain ⟨t, ht0⟩ := κ0.2
      rw [← ht0] at hnone hq
      exact hq (on_entry_none hs hnone q)
    -- the entries copied so far, and nothing else, are below the target
    have hloop : (forEach (copyEntry root (copyEntries root depth) source target) l).Safe w.proto
        (Gives fun _ κ' => κ'.1 = κ0.1.graft target ((κ0.1.sub source).keep (· ∈ l))) κ0 := by
      refine forEach_gives
        (fun done κ' => κ'.1 = κ0.1.graft target ((κ0.1.sub source).keep (· ∈ done))) ?_ ?_
      · rw [keep_none fun n q hn => (not_mem_nil hn).elim, graft_of_sub hempty]
      · intro done n rest κ' hl hκ'
        have hsub : κ'.1.sub source = κ0.1.sub source := by rw [hκ', sub_graft_apart hap.symm]
        have hap' : Apart (source ++ [n]) (target ++ [n]) :=
          hap.below (prefix_append _ _) (prefix_append _ _)
        refine (copyEntry_gives hs ht hap fun κ1 hκ1 =>
          ih (hs.append [n]) (ht.append [n]) hap' hκ1).gives_mono fun _ κ'' hκ'' => ?_
        rw [hκ'', ← sub_sub, hsub, hκ', graft_below, keep_insert]
        congr 1
        exact keep_congr fun m => by simp
    refine hloop.gives_mono fun _ κ' hκ' => ?_
    rw [hκ', keep_all ((sub_nil ..).trans hdir) hbelow]

theorem copyDirectoryContentsAt_gives (hs : Files.Seen w.region source) (ht : w.Free target)
    (hap : Apart source target) (hempty : κ.1.sub target = leaf .dir) :
    (copyDirectoryContentsAt root source target).Safe w.proto (Gives fun _ κ' =>
      κ'.1 = κ.1.graft target (κ.1.sub source)) κ :=
  quiet_bind openDir_confined fun _ => quiet_bind openDir_confined fun _ =>
    copyEntries_gives _ hs ht hap hempty

theorem copyDirectoryTreeAt_gives {td : Path} {tn : GoString}
    (hs : Files.Seen w.region (sd ++ [sn])) (ht : w.Free (td ++ [tn]))
    (hap : Apart (sd ++ [sn]) (td ++ [tn])) :
    (copyDirectoryTreeAt root sd sn td tn).Safe w.proto (Gives fun _ κ' =>
      κ'.1 = κ.1.graft (td ++ [tn]) (κ.1.sub (sd ++ [sn]))) κ :=
  copyTree_gives ht hap.symm fun _ hκ1 => copyEntries_gives _ hs ht hap hκ1

/-! ## Removing trees -/

/-- What removing an entry leaves, given what removing a directory's contents leaves. -/
theorem removeEntry_gives (hw : w.Honest) (hf : w.Free (d ++ [name])) {contents : Path → Task Unit}
    (hcontents : ∀ κ1 : Known w.region, (contents (d ++ [name])).Safe w.proto (Gives fun _ κ' =>
      κ'.1 = κ1.1.graft (d ++ [name]) (leaf .dir)) κ1) :
    (removeEntry root contents d name).Safe w.proto (Gives fun _ κ' =>
      κ'.1 = κ.1.graft (d ++ [name]) nothing) κ := by
  refine Safe.gives_bind (entryModeAt_gives hf.seen.self).gives_mapError ?_
  rintro mode κ0 ⟨rfl, hmode⟩
  rcases mode with _ | k
  · obtain ⟨t, ht⟩ := κ0.2
    have hnone := hmode hw
    have hsub : κ0.1.sub (d ++ [name]) = nothing := by
      rw [← ht] at hnone ⊢
      exact sub_on_none hf.seen hnone
    exact (graft_of_sub hsub).symm
  cases k with
  | dir =>
    refine quiet_bind openDir_confined fun _ => ?_
    refine Safe.gives_bind (hcontents κ0) fun _ κ1 hκ1 => ?_
    refine quiet_bind quiet_confined fun _ => ?_
    have hok : w.proto.ok κ1 (.fs (.rmdir d name)) :=
      ok_of_free hf (confined_entry (c := .rmdir d name) fun q hq => hq)
    refine sysOr_gives hok fun a κ2 h => ?_
    rw [step_rmdir h hf.seen, hκ1, graft_graft]
  | reg =>
    have hok : w.proto.ok κ0 (.fs (.unlink d name)) :=
      ok_of_free hf (confined_entry (c := .unlink d name) fun q hq => hq)
    exact sysOr_gives hok fun a κ1 h => step_unlink h hf.seen
  | other => trivial

/-- **What is removed is gone.** -/
theorem removeTreeContents_gives (hw : w.Honest) (hf : w.Free p) (depth : Nat) :
    (removeTreeContents root depth p).Safe w.proto (Gives fun _ κ' =>
      κ'.1 = κ.1.graft p (leaf .dir)) κ := by
  induction depth generalizing p κ with
  | zero => exact Safe.diverge
  | succ depth ih =>
    refine Safe.gives_bind (readDirectoryEntriesFD_gives hf.seen).gives_mapError ?_
    rintro l κ0 ⟨rfl, hdir, -, hmem⟩
    have hroot : κ0.1.sub p [] = some .dir := (sub_nil ..).trans hdir
    -- the entries removed so far are missing below the directory
    have hloop : (forEach (removeEntry root (removeTreeContents root depth) p) l).Safe w.proto
        (Gives fun _ κ' => κ'.1 = κ0.1.graft p ((κ0.1.sub p).keep (· ∉ l))) κ0 := by
      refine forEach_gives (fun done κ' => κ'.1 = κ0.1.graft p ((κ0.1.sub p).keep (· ∉ done))) ?_ ?_
      · rw [keep_all hroot fun n q _ => not_mem_nil, graft_sub]
      · intro done n rest κ' hl hκ'
        refine (removeEntry_gives hw (hf.append [n]) fun κ1 => ih (hf.append [n])).gives_mono ?_
        intro _ κ'' hκ''
        rw [hκ'', hκ', graft_below, keep_remove]
        congr 1
        exact keep_congr fun m => by simp
    refine hloop.gives_mono fun _ κ' hκ' => ?_
    rw [hκ', keep_none]
    intro n q hn
    have hnone : κ0.1 (p ++ [n]) = none := by
      by_contra hne
      exact hn ((hmem n).mpr hne)
    obtain ⟨t, ht⟩ := κ0.2
    rw [sub_apply, ← ht]
    rw [← ht] at hnone
    exact on_entry_none hf.seen hnone q

theorem removeEntryTreeAt_gives (hw : w.Honest) (hf : w.Free (d ++ [name])) :
    (removeEntryTreeAt root d name).Safe w.proto (Gives fun _ κ' =>
      κ'.1 = κ.1.graft (d ++ [name]) nothing) κ :=
  removeEntry_gives hw hf fun _ => removeTreeContents_gives hw hf _

/-! ## A watch on the world -/

/-- The watch shows the world as it is, and what has to be kept is there. -/
def Shows (w : Watch) (κ : Known w.region) (W : World) : Prop :=
  W.files.on w.region = κ.1 ∧ w.keeps κ.1

theorem shows_of (w : Watch) (h : w.keeps (W.files.on w.region)) :
    w.Shows (Known.of w.region W.files) W := ⟨rfl, h⟩

/-- **What happens in the world is what the watch sees.** -/
theorem Shows.step [Unicode] {c : Choice} {W' : World} (hκ : w.Shows κ W) (hok : w.proto.ok κ o)
    (hc : w.allows o c) (hE : exec o c W = some (r, W')) :
    ∃ κ' : Known w.region, w.proto.next κ o r κ' ∧ w.Shows κ' W' := by
  obtain ⟨κ', hstep, hview⟩ : ∃ κ' : Known w.region, w.step κ o r κ' ∧
      W'.files.on w.region = κ'.1 := by
    have hother : o.isFs = false → o.isTx = false →
        answer o c = some r ∧ W'.files.on w.region = κ.1 := by
      intro hfs htx
      obtain ⟨ha, -, rfl⟩ := exec_other hE hfs htx
      rw [remember_files]
      exact ⟨ha, hκ.1⟩
    cases o with
    | fs call =>
      obtain ⟨cc, files, rfl, hp, rfl⟩ := exec_fs hE
      exact ⟨Known.of _ files, ⟨cc, W.files, files, hc, hκ.1, hp, rfl⟩, rfl⟩
    | suffix | openRoot =>
      obtain ⟨ha, hview⟩ := hother rfl rfl
      exact ⟨κ, ⟨⟨c, hc, ha⟩, rfl⟩, hview⟩
    | _ => exact hok.1.elim
  exact ⟨κ', hstep, hview, hok.2 r κ' hstep hκ.2⟩

/-- **A run under a watch.** -/
theorem runs_shown [Unicode] {p : Prog spoolSig α} {Q : α → Known w.region → Prop} {W' : World}
    {tr : Trace} {a : α} (h : Prog.Runs exec p W tr a W') (hA : ∀ ev ∈ tr, w.allows ev.op ev.choice)
    (hp : p.Safe w.proto Q κ) (hκ : w.Shows κ W) : ∃ κ', Q a κ' ∧ w.Shows κ' W' :=
  h.safe_allowed (fun _ _ _ _ _ _ hκ hok hc hE => hκ.step hok hc hE) hA hp hκ

end Watch

end SmtpCloudRelay.Spool
