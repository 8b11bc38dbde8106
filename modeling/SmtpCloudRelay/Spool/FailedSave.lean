/-
  A SAVE THAT FAILS: what it leaves behind when one of its steps goes wrong.

  `Save` works in a staging directory of its own and, across file systems, in a publish directory of
  its own, and removes them when it fails.  So a step that fails inside these directories leaves
  nothing (`saveStaged_left`).  Two kinds of steps are outside this protection, and they are those at
  which the call is exposed:

  * the open, the chmod and the two fsyncs that follow the mkdir of such a directory.  The function
    that makes the directory gives up without removing it, and the deferred clean-up is not yet there;
  * the fsyncs after the rename that puts the payload in place.  `Save` reports an error and removes
    the staging or publish directory, which is not there any more, and the payload stays.

  `save_leaves_nothing_iff` says that these are all.
-/
import SmtpCloudRelay.Spool.Faults

namespace SmtpCloudRelay.Spool

open Go Lib Act Fate View List Watch

variable {α β ε : Type} {id : GoString} {κ : Known whole.region} {m : Fate}
variable {root : Root} {d : Path} {name : GoString}

/-! ## Copying trees -/

/-- Whatever remains of an entry that could not be copied. -/
def Rest (κ : Known whole.region) (p : Path) (κ' : Known whole.region) : Prop :=
  ∃ v, Tame v ∧ κ'.1 = κ.1.graft p v

variable {p source target : Path} {k : Nat} {v : View GoString}

theorem Rest.of_nothing (h : κ.1.sub p = nothing) : Rest κ p κ :=
  ⟨nothing, tame_nothing, (graft_of_sub h).symm⟩

/-- Where nothing was before, it can be removed, and then nothing is left. -/
theorem Rest.cleaned {κ1 κ2 : Known whole.region} {u : View GoString} (h : Rest κ1 p κ2)
    (hκ1 : κ1.1 = κ.1.graft p u) (hfree : κ.1.sub p = nothing) :
    Tame (κ2.1.sub p) ∧ κ2.1.graft p nothing = κ.1 := by
  obtain ⟨v, hv, hκ2⟩ := h
  rw [hκ2, sub_graft, graft_graft, hκ1, graft_graft]
  exact ⟨hv, graft_of_sub hfree⟩

/-- A deferred clean-up of a tame entry, and what it leaves. -/
theorem discardEntry_left {b : Bool} {R : Known whole.region × Fate → Prop}
    (ht : Tame (κ.1.sub (d ++ [name])))
    (hR : ∀ κ', κ'.1 = κ.1.graft (d ++ [name]) nothing → R (κ', .struck b)) :
    (discardEntry root d name).Safe (faults id) (fun _ x => R x) (κ, .struck b) := by
  refine Safe.mono ?_ (discardEntry_cleans ht)
  rintro (e | u) ⟨κ', m'⟩ h
  · exact h.elim
  · obtain ⟨rfl, hκ'⟩ := h
    exact hR κ' hκ'

/-- A directory that could not be copied is removed again. -/
theorem copyTree_ends {entries : Path → Path → Task Unit} {sd td : Path} {sn tn : GoString}
    (hm : m.Calm) (htd : Deep td) (hfree : κ.1.sub (td ++ [tn]) = nothing)
    (hap : Apart (td ++ [tn]) (sd ++ [sn])) (hsource : Tame (κ.1.sub (sd ++ [sn])))
    (hentries : ∀ κ1 m1, m1.Calm → κ1.1.sub (td ++ [tn]) = leaf .dir →
      κ1.1.sub (sd ++ [sn]) = κ.1.sub (sd ++ [sn]) →
      (entries (sd ++ [sn]) (td ++ [tn])).Safe (faults id) (Ends m1
        (fun _ κ' => κ'.1 = κ1.1.graft (td ++ [tn]) (κ1.1.sub (sd ++ [sn])))
        (Rest κ1 (td ++ [tn]))) (κ1, m1)) :
    (copyTree root entries sd sn td tn).Safe (faults id) (Ends m
      (fun _ κ' => κ'.1 = κ.1.graft (td ++ [tn]) (κ.1.sub (sd ++ [sn])))
      (Rest κ (td ++ [tn]))) (κ, m) := by
  refine Ends.bind hm (createDirectoryAt_ends hm htd) ?_ ?_
  · rintro κ' (rfl | hκ')
    · exact Rest.of_nothing hfree
    · exact ⟨_, tame_dir, hκ'⟩
  rintro _ κ1 m1 hm1 ⟨-, hκ1⟩
  have hleaf : κ1.1.sub (td ++ [tn]) = leaf .dir := by rw [hκ1, sub_graft]
  have hsrc : κ1.1.sub (sd ++ [sn]) = κ.1.sub (sd ++ [sn]) := by rw [hκ1, sub_graft_apart hap]
  have hinto : (copyInto root entries (sd ++ [sn]) (td ++ [tn])).Safe (faults id) (Ends m1
      (fun _ κ' => κ'.1 = κ1.1.graft (td ++ [tn]) (κ1.1.sub (sd ++ [sn])))
      fun κ' => Tame (κ'.1.sub (td ++ [tn])) ∧
        κ'.1.graft (td ++ [tn]) nothing = κ.1) (κ1, m1) := by
    have hleft : ∀ κ' : Known whole.region, Rest κ1 (td ++ [tn]) κ' →
        Tame (κ'.1.sub (td ++ [tn])) ∧ κ'.1.graft (td ++ [tn]) nothing = κ.1 :=
      fun κ' h => h.cleaned hκ1 hfree
    refine Still.bind hm1 (sysOr_still hm1 trivial) ?_ fun _ m2 hm2 => ?_
    · exact hleft κ1 ⟨_, tame_dir, (graft_of_sub hleaf).symm⟩
    refine Ends.bind hm2 (hentries κ1 m2 hm2 hleaf hsrc) hleft fun _ κ2 m3 hm3 hκ2 => ?_
    refine Ends.mono ?_ ?_ (syncFD_still hm3)
    · rintro _ κ' rfl
      exact hκ2
    · rintro κ' rfl
      exact hleft κ' ⟨_, hsrc.symm ▸ hsource, hκ2⟩
  have hclean : ∀ κ' : Known whole.region, Tame (κ'.1.sub (td ++ [tn])) ∧
      κ'.1.graft (td ++ [tn]) nothing = κ.1 → (discardEntry root td tn).Safe (faults id)
        (fun _ x => x.2 = .struck false ∧ x.1 = κ) (κ', .struck false) := by
    rintro κ' ⟨ht, hκ'⟩
    exact discardEntry_left ht fun κ'' h => ⟨rfl, Subtype.ext (h.trans hκ')⟩
  refine Ends.mono ?_ ?_ (Ends.onFail (R := (· = κ)) hinto hclean)
  · intro _ κ' hκ'
    rw [hκ', hκ1, graft_graft, sub_graft_apart hap]
  · rintro κ' rfl
    exact Rest.of_nothing hfree

/-- A directory tree as the spool writes it: tame, and without temporary files. -/
structure Finished (v : View GoString) : Prop where
  tame : Tame v
  noTemp : ∀ q suffix, v (q ++ [lit ".tmp-" ++ suffix]) = none

theorem Finished.entry (h : Finished v) (n : GoString) : Finished (v.sub [n]) where
  tame := h.tame.entry n
  noTemp q suffix := by
    have hx := h.noTemp ([n] ++ q) suffix
    rwa [append_assoc] at hx

theorem step_readFile_file {data : List UInt8} {a : Option (List UInt8)} {κ' : Known whole.region}
    (h : whole.step κ (.fs (.readFile p)) (.ok a) κ') (hdata : κ.1 p = some (.file data)) :
    a = some data := by
  obtain ⟨cc, t, t', -, ht, hp, -⟩ := h
  rw [← ht, Files.on_of trivial] at hdata
  obtain ⟨-, hr | ⟨e, he⟩⟩ := Call.looking_cases hp
  · rw [hdata] at hr
    exact (Except.ok.inj (Option.some.inj hr)).symm
  · nomatch he

theorem readRegularFileAtNoFollow_ends {data : List UInt8} (hm : m.Calm)
    (hdata : κ.1 p = some (.file data)) :
    (readRegularFileAtNoFollow p).Safe (faults id) (Ends m (fun a κ' => κ' = κ ∧ a = data)
      fun κ' => κ' = κ) (κ, m) := by
  have hread : (sys (.readFile p)).Safe (faults id) (Ends m
      (fun a κ' => κ' = κ ∧ a = some data) fun κ' => κ' = κ) (κ, m) :=
    look_ends (c := .readFile p) hm trivial fun a h => step_readFile_file h hdata
  refine Ends.bind hm (Ends.mapError hread) (fun _ h => h) ?_
  rintro a κ' m' hm' ⟨rfl, rfl⟩
  exact ⟨Or.inl rfl, rfl, rfl⟩

/-- An entry that could not be copied is there as a whole, or as an empty directory, or not at all. -/
theorem copyEntry_ends {entries : Path → Path → Task Unit} (hm : m.Calm) (ht : Deep target)
    (hap : Apart source target)
    (hfree : κ.1.sub (target ++ [name]) = nothing) (hno : NoTemp κ.1 target)
    (hsource : Tame (κ.1.sub (source ++ [name]))) (hthere : κ.1 (source ++ [name]) ≠ none)
    (hentries : ∀ κ1 m1, m1.Calm → κ1.1.sub (target ++ [name]) = leaf .dir →
      κ1.1.sub (source ++ [name]) = κ.1.sub (source ++ [name]) →
      (entries (source ++ [name]) (target ++ [name])).Safe (faults id) (Ends m1
        (fun _ κ' => κ'.1 = κ1.1.graft (target ++ [name]) (κ1.1.sub (source ++ [name])))
        (Rest κ1 (target ++ [name]))) (κ1, m1)) :
    (copyEntry root entries source target name).Safe (faults id) (Ends m
      (fun _ κ' => κ'.1 = κ.1.graft (target ++ [name]) (κ.1.sub (source ++ [name])))
      (Rest κ (target ++ [name]))) (κ, m) := by
  have hap' : Apart (target ++ [name]) (source ++ [name]) :=
    hap.symm.below (prefix_append _ _) (prefix_append _ _)
  have hlook : ((entryModeAt (source ++ [name])).mapError
      (.wrap (about root "stat spool entry" (source ++ [name]))) : Task (Option Kind)).Safe (faults id)
      (Looked m κ (source ++ [name])) (κ, m) :=
    Safe.mapError (entryModeAt_looked hm) (fun _ _ h => h) fun _ _ h => h
  refine Safe.bind hlook ?_ ?_
  · intro mode x h
    cases mode with
    | none =>
      -- the entry is there: a step has failed
      rcases h with ⟨rfl, hnone⟩ | ⟨hrun, rfl⟩
      · exact absurd hnone hthere
      · exact ⟨hrun, rfl, Rest.of_nothing hfree⟩
    | some kind =>
      obtain ⟨rfl, node, hnode, rfl⟩ := h
      have hplain : node.kind ≠ .other := by
        exact hsource [] node ((sub_nil ..).trans hnode)
      cases hkind : node.kind with
      | dir => exact copyTree_ends hm ht hfree hap' hsource hentries
      | reg =>
        obtain ⟨data, rfl⟩ : ∃ data, node = .file data := by
          cases node with
          | file data => exact ⟨data, rfl⟩
          | _ => nomatch hkind
        have hleaf : κ.1.sub (source ++ [name]) = leaf (.file data) := by
          obtain ⟨t, ht⟩ := κ.2
          rw [← ht] at hnode ⊢
          exact Files.sub_on_leaf (whole_seen _) hnode nofun
        refine Ends.bind hm (Ends.mapError (readRegularFileAtNoFollow_ends hm hnode)) ?_ ?_
        · rintro κ' rfl
          exact Rest.of_nothing hfree
        rintro _ κ1 m1 hm1 ⟨rfl, rfl⟩
        refine Ends.mono ?_ ?_ (writeRegularFileAt_ends hm1 ht hno)
        · intro _ κ' hκ'
          rw [hκ', hleaf]
        · rintro κ' (rfl | hκ')
          · exact Rest.of_nothing hfree
          · exact ⟨_, tame_file _, hκ'⟩
      | other => exact absurd hkind hplain
  · rintro e x ⟨hrun, rfl⟩
    exact ⟨hrun, rfl, Rest.of_nothing hfree⟩

/-- **A copy that stops half-way leaves a tame tree.** -/
theorem copyEntries_ends {depth : Nat} (hm : m.Calm) (ht : Deep target)
    (hap : Apart source target) (hempty : κ.1.sub target = leaf .dir)
    (hsource : Finished (κ.1.sub source)) :
    (copyEntries root depth source target).Safe (faults id) (Ends m
      (fun _ κ' => κ'.1 = κ.1.graft target (κ.1.sub source)) (Rest κ target)) (κ, m) := by
  induction depth generalizing source target κ m with
  | zero => exact Safe.diverge
  | succ depth ih =>
    have hstart : Rest κ target κ := ⟨_, tame_dir, (graft_of_sub hempty).symm⟩
    refine Ends.bind hm (Ends.mapError (readDirectoryEntriesFD_ends hm)) ?_ ?_
    · rintro κ' rfl
      exact hstart
    rintro l κ0 m0 hm0 ⟨rfl, hdir, hnodup, hmem⟩
    have hbelow : ∀ n q, κ0.1.sub source (n :: q) ≠ none → n ∈ l := by
      intro n q hq
      rw [hmem]
      exact fun hnone => hq (below_none hnone q)
    have hroot : κ0.1.sub source [] = some .dir := (sub_nil ..).trans hdir
    -- the entries copied so far, and nothing else, are below the target
    refine Ends.mono ?_ (fun _ h => h) (forEach_ends (P := Rest κ0 target)
      (fun done κ' => κ'.1 = κ0.1.graft target ((κ0.1.sub source).keep (· ∈ done))) hm0 ?_ ?_)
    · intro _ κ' hκ'
      rw [hκ', keep_all hroot hbelow]
    · rw [keep_none fun n q hn => (not_mem_nil hn).elim, graft_of_sub hempty]
    · intro done n rest κ' m' hl hm' hκ'
      have hn : n ∈ l := by
        rw [hl]
        exact mem_append_right _ (mem_cons_self ..)
      have hnew : n ∉ done := by
        rw [hl] at hnodup
        exact fun hx => disjoint_of_nodup_append hnodup hx (mem_cons_self ..)
      have hsub : κ'.1.sub source = κ0.1.sub source := by
        rw [hκ', sub_graft_apart hap.symm]
      have hentry : κ'.1.sub (source ++ [n]) = (κ0.1.sub source).sub [n] := by
        rw [← sub_sub, hsub]
      have hfree : κ'.1.sub (target ++ [n]) = nothing := by
        rw [hκ', sub_graft_below]
        exact sub_keep hnew
      have hno : NoTemp κ'.1 target := by
        intro suffix
        rw [hκ', graft_append]
        by_cases hx : lit ".tmp-" ++ suffix ∈ done
        · rw [keep_pos (N := (· ∈ done)) hx]
          exact hsource.noTemp [] suffix
        · exact keep_neg hx []
      have hthere : κ'.1 (source ++ [n]) ≠ none := by
        have hx := congrFun hsub [n]
        rw [sub_apply, sub_apply] at hx
        rw [hx]
        exact (hmem n).mp hn
      have hap' : Apart (source ++ [n]) (target ++ [n]) :=
        hap.below (prefix_append _ _) (prefix_append _ _)
      have hfinished : Finished (κ'.1.sub (source ++ [n])) := by
        rw [hentry]
        exact hsource.entry n
      refine Ends.mono ?_ ?_ (copyEntry_ends hm' ht hap hfree hno
        hfinished.tame hthere ?_)
      · intro _ κ'' hκ''
        rw [hκ'', hentry, hκ', graft_below, keep_insert]
        congr 1
        exact keep_congr fun m => by simp
      · rintro κ'' ⟨v, hv, hκ''⟩
        rw [hκ', graft_below] at hκ''
        refine ⟨_, Tame.graft (Tame.part hsource.tame ?_) hv, hκ''⟩
        intro q
        cases q with
        | nil => exact Or.inl hroot.symm
        | cons x q =>
          by_cases hx : x ∈ done
          · exact Or.inl (keep_pos (N := (· ∈ done)) hx q)
          · exact Or.inr (keep_neg hx q)
      · intro κ1 m1 hm1 hleaf hsame
        refine ih hm1 (ht.append n) hap' hleaf ?_
        rw [hsame]
        exact hfinished

theorem copyDirectoryContentsAt_ends (hm : m.Calm) (ht : Deep target)
    (hap : Apart source target) (hempty : κ.1.sub target = leaf .dir)
    (hsource : Finished (κ.1.sub source)) :
    (copyDirectoryContentsAt root source target).Safe (faults id) (Ends m
      (fun _ κ' => κ'.1 = κ.1.graft target (κ.1.sub source)) (Rest κ target)) (κ, m) := by
  have hstart : Rest κ target κ := ⟨_, tame_dir, (graft_of_sub hempty).symm⟩
  refine Still.bind hm (sysOr_still hm trivial) hstart fun _ m1 hm1 => ?_
  refine Still.bind hm1 (sysOr_still hm1 trivial) hstart fun _ m2 hm2 => ?_
  exact copyEntries_ends hm2 ht hap hempty hsource

/-! ## Staging -/

/-- A name that no temporary file has. -/
def Lasting (n : GoString) : Prop := ∀ suffix, n ≠ lit ".tmp-" ++ suffix

theorem lasting_of_head {b : UInt8} {n : GoString} (h : b ≠ 0x2E) : Lasting (b :: n) := by
  intro suffix hx
  exact h (List.cons.inj hx).1

theorem lasting_message : Lasting messageFileName := lasting_of_head (by decide)

theorem lasting_attachments : Lasting attachmentsDirName := lasting_of_head (by decide)

/-- The name of an attachment begins with a digit. -/
theorem lasting_attachmentName (i : Nat) : Lasting (attachmentName i) := by
  unfold attachmentName
  cases hd : Json.digits i with
  | nil => exact absurd hd (Json.digits_ne_nil i)
  | cons b n =>
    refine lasting_of_head ?_
    have hb : Json.isDigit b = true := Json.isDigit_digits i b (hd ▸ mem_cons_self ..)
    rintro rfl
    exact absurd hb (by decide)

theorem finished_dir : Finished (leaf .dir) where
  tame := tame_dir
  noTemp q suffix := by
    cases q with
    | nil | cons n q => rfl

theorem finished_file (data : List UInt8) : Finished (leaf (.file data)) where
  tame := tame_file data
  noTemp q suffix := by
    cases q with
    | nil | cons n q => rfl

theorem Finished.graft {u : View GoString} {n : GoString} (h : Finished v)
    (hu : Finished u) (hn : Lasting n) : Finished (v.graft [n] u) where
  tame := h.tame.graft hu.tame
  noTemp q suffix := by
    by_cases hq : [n] <+: q ++ [lit ".tmp-" ++ suffix]
    · cases q with
      | nil =>
        obtain ⟨y, hy⟩ := hq
        exact absurd (List.cons.inj hy).1 (hn suffix)
      | cons x q =>
        obtain ⟨y, hy⟩ := hq
        obtain ⟨rfl, -⟩ := List.cons.inj hy
        have hx := graft_append v u [n] (q ++ [lit ".tmp-" ++ suffix])
        exact hx.trans (hu.noTemp q suffix)
    · rw [graft_other hq]
      exact h.noTemp q suffix

theorem finished_attachmentFiles {i : Nat} {as : List Attachment} (h : Finished v) :
    Finished (attachmentFiles i as v) := by
  induction as generalizing i v with
  | nil => exact h
  | cons a as ih => exact ih (h.graft (finished_file _) (lasting_attachmentName i))

theorem finished_staged (as : List Attachment) : Finished (stagedAttachments as) := by
  cases as with
  | nil => exact finished_dir
  | cons a as =>
    exact finished_dir.graft (finished_attachmentFiles finished_dir) lasting_attachments

/-- A payload has no temporary files. -/
theorem finished_payload (msg : Message) : Finished (payloadView msg) :=
  (finished_staged _).graft (finished_file _) lasting_message

theorem Finished.noTempIn (h : Finished (κ.1.sub d)) : NoTemp κ.1 d :=
  fun suffix => h.noTemp [] suffix

/-- What is left of a tame directory when writing an entry of it fails. -/
theorem rest_of_written {u : View GoString} {κ' : Known whole.region}
    (hd : Tame (κ.1.sub d)) (hu : Tame u)
    (h : κ' = κ ∨ κ'.1 = κ.1.graft (d ++ [name]) u) : Rest κ d κ' := by
  rcases h with rfl | h
  · exact ⟨_, hd, (graft_sub _ _).symm⟩
  · rw [graft_append_path] at h
    exact ⟨_, hd.graft hu, h⟩

section Save

variable {s : PayloadStore}

theorem writeAttachments_ends (hm : m.Calm) (hdeep : Deep d) (hd : Finished (κ.1.sub d)) (i : Nat)
    (as : List Attachment) :
    (s.writeAttachments d i as).Safe (faults id) (Ends m
      (fun _ κ' => κ'.1 = κ.1.graft d (attachmentFiles i as (κ.1.sub d))) (Rest κ d)) (κ, m) := by
  induction as generalizing i κ m with
  | nil => exact ⟨Or.inl rfl, (graft_sub κ.1 d).symm⟩
  | cons a as ih =>
    refine Ends.bind hm (writeRegularFileAt_ends hm hdeep hd.noTempIn)
      (fun κ' => rest_of_written hd.tame (tame_file _)) fun _ κ1 m1 hm1 hκ1 => ?_
    have hsub : κ1.1.sub d = (κ.1.sub d).graft [attachmentName i] (leaf (.file a.data)) := by
      rw [hκ1, sub_graft_above]
    have hd1 : Finished (κ1.1.sub d) := by
      rw [hsub]
      exact hd.graft (finished_file _) (lasting_attachmentName i)
    refine Ends.mono ?_ ?_ (ih hm1 hd1 (i + 1))
    · intro _ κ2 hκ2
      rw [hκ2, hsub, hκ1, graft_above]
      rfl
    · rintro κ2 ⟨v, hv, hκ2⟩
      rw [hκ1, graft_above] at hκ2
      exact ⟨v, hv, hκ2⟩

theorem stageAttachments_ends {stage : Path} (hm : m.Calm) (hdeep : Deep stage)
    (hempty : κ.1.sub stage = leaf .dir) (as : List Attachment) :
    (s.stageAttachments stage as).Safe (faults id) (Ends m
      (fun _ κ' => κ'.1 = κ.1.graft stage (stagedAttachments as)) (Rest κ stage)) (κ, m) := by
  have hdir : Tame (κ.1.sub stage) := by
    rw [hempty]
    exact tame_dir
  cases as with
  | nil => exact ⟨Or.inl rfl, (graft_of_sub hempty).symm⟩
  | cons a as =>
    refine Ends.bind hm (createDirectoryAt_ends hm hdeep)
      (fun κ' => rest_of_written hdir (tame_dir)) ?_
    rintro _ κ1 m1 hm1 ⟨-, hκ1⟩
    have hsub : κ1.1.sub (stage ++ [attachmentsDirName]) = leaf .dir := by
      rw [hκ1, sub_graft]
    refine Ends.bind hm1 (writeAttachments_ends hm1 (hdeep.append _) (hsub ▸ finished_dir) 0
      (a :: as)) ?_ fun _ κ2 m2 hm2 hκ2 => ?_
    · rintro κ' ⟨v, hv, hκ'⟩
      rw [hκ1, graft_graft] at hκ'
      exact rest_of_written hdir hv (Or.inr hκ')
    rw [hsub, hκ1, graft_graft] at hκ2
    have hleft : Rest κ stage κ2 :=
      rest_of_written hdir (finished_attachmentFiles finished_dir).tame (Or.inr hκ2)
    refine Still.bind hm2 (syncFD_still hm2) hleft fun _ m3 hm3 => ?_
    refine Ends.mono ?_ ?_ (sysOr_still (c := .quiet _) hm3 trivial)
    · rintro _ κ' rfl
      rw [hκ2, graft_append_path, hempty]
      rfl
    · rintro κ' rfl
      exact hleft

/-! ## Directories in the roots -/

/-- How a part ends that settles a directory in one of the roots: if a step of it fails, the call was
    exposed. -/
def RootSettled (κ : Known whole.region) (left : Nat) :
    Except ε α → Known whole.region × Fate → Prop
  | .ok _, x => x = (κ, .running (.settling left))
  | .error _, x => x = (κ, .struck true)

theorem settling_step {before : GoString} {c : Call GoString} (hc : Calls c) (left : Nat) :
    (sysOr before c).Safe (faults id) (RootSettled κ left) (κ, .running (.settling (left + 1))) := by
  have hafter : ∀ r, Exposure.after id (.settling (left + 1)) (.fs c) r = .settling left := by
    cases c with
    | openDir p | readDir p | readFile p | quiet p => exact fun r => rfl
    | _ => nomatch hc
  have hsys : (sys c).Safe (faults id) (RootSettled κ left) (κ, .running (.settling (left + 1))) := by
    refine ⟨fun _ _ => trivial, ?_⟩
    rintro r ⟨κ', m'⟩ ⟨hstep, hnext⟩
    obtain rfl : κ' = κ := step_quiet hstep (calls_quiet hc)
    rcases next_running hnext with ⟨hw, rfl⟩ | ⟨hw, rfl⟩
    · rw [hafter]
      cases r with
      | ok a => exact rfl
      | error e => nomatch (calls_strict hc _ e).symm.trans hw
    · cases r with
      | ok a => nomatch hw.symm.trans (works_ok _ c a)
      | error e => exact rfl
  exact Safe.mapError hsys (fun _ _ h => h) fun _ _ h => h

theorem RootSettled.bind {left left' : Nat} {p : Task α} {f : α → Task β}
    (hp : p.Safe (faults id) (RootSettled κ left) (κ, m))
    (hf : ∀ a, (f a).Safe (faults id) (RootSettled κ left') (κ, .running (.settling left))) :
    (p >>= f).Safe (faults id) (RootSettled κ left') (κ, m) := by
  refine Safe.bind hp ?_ fun _ _ h => h
  rintro a x rfl
  exact hf a

theorem settleDirectoryAt_settled :
    (settleDirectoryAt root d name).Safe (faults id) (RootSettled κ 0) (κ, .running (.settling 4)) :=
  RootSettled.bind (settling_step (c := .openDir _) trivial 3) fun _ =>
    RootSettled.bind (settling_step (c := .quiet _) trivial 2) fun _ =>
      RootSettled.bind (settling_step (c := .quiet _) trivial 1) fun _ =>
        settling_step (c := .quiet _) trivial 0

/-- How making a directory of the call's own in one of the roots ends. -/
def Made (m : Fate) (κ : Known whole.region) (d : Path) (nameOf : GoString → GoString) :
    Except GoError GoString → Known whole.region × Fate → Prop
  | .ok n, x => Later m x.2 ∧ ∃ suffix, n = nameOf suffix ∧ κ.1.sub (d ++ [n]) = nothing ∧
      x.1.1 = κ.1.graft (d ++ [n]) (leaf .dir)
  | .error _, x => m = .running .settled ∧ ((x.2 = .struck false ∧ x.1 = κ) ∨
      (x.2 = .struck true ∧ ∃ suffix, κ.1.sub (d ++ [nameOf suffix]) = nothing ∧
        x.1.1 = κ.1.graft (d ++ [nameOf suffix]) (leaf .dir)))

/-- How a mkdir in one of the roots ends. -/
def RootMade (m : Fate) (κ : Known whole.region) (p : Path) :
    Except Errno Unit → Known whole.region × Fate → Prop
  | .ok _, x => κ.1.sub p = nothing ∧ x.1.1 = κ.1.graft p (leaf .dir) ∧
      ((m = .running .settled ∧ x.2 = .running (.settling 4)) ∨ ∃ b, m = .struck b ∧ x.2 = m)
  | .error _, x => m = .running .settled ∧ x = (κ, .struck false)

theorem mkdir_rootMade (hroot : d = stagingRoot ∨ d = payloadsRoot) (hm : m.Calm) :
    (sys (.mkdir d name)).Safe (faults id) (RootMade m κ (d ++ [name])) (κ, m) := by
  refine ⟨fun _ _ => trivial, ?_⟩
  rintro r ⟨κ', m'⟩ ⟨hstep, hnext⟩
  rcases step_mkdir hstep (whole_seen _) with ⟨rfl, hnone, hκ⟩ | ⟨⟨e, rfl⟩, hκ⟩
  · refine ⟨hnone, hκ, ?_⟩
    rcases hm with rfl | ⟨b, rfl⟩
    · rcases next_running hnext with ⟨-, hx⟩ | ⟨hw, -⟩
      · exact Or.inl ⟨rfl, hx.trans (congrArg Fate.running (if_pos hroot))⟩
      · nomatch hw
    · exact Or.inr ⟨b, rfl, (next_struck hnext).2⟩
  · obtain rfl : κ' = κ := hκ
    rcases hm with rfl | ⟨b, rfl⟩
    · rcases next_running hnext with ⟨hw, -⟩ | ⟨-, hx⟩
      · nomatch hw
      · exact ⟨rfl, Prod.ext rfl hx⟩
    · nomatch (next_struck hnext).1

/-- The first name is free, unless a step fails. -/
theorem createUniqueDirectoryAt_made {nameOf : GoString → GoString} {noSuffix exhausted : GoString}
    (hroot : d = stagingRoot ∨ d = payloadsRoot) (hm : m.Calm) (left : Nat) :
    (createUniqueDirectoryAt root d nameOf noSuffix exhausted (left + 2)).Safe (faults id)
      (Made m κ d nameOf) (κ, m) := by
  -- one attempt; when the name is taken, that was the step that fails
  have hattempt : ∀ {m : Fate} {left : Nat}, m.Calm →
      (m = .running .settled → (createUniqueDirectoryAt root d nameOf noSuffix exhausted left).Safe
        (faults id) (Made (.struck false) κ d nameOf) (κ, .struck false)) →
      (createUniqueDirectoryAt root d nameOf noSuffix exhausted (left + 1)).Safe (faults id)
        (Made m κ d nameOf) (κ, m) := by
    intro m left hm hagain
    refine Safe.bind (Ends.mapError (newSuffix_still hm)) ?_ ?_
    · rintro suffix ⟨κ1, m1⟩ ⟨hl, hκ⟩
      obtain rfl : κ1 = κ := hκ
      have hm1 : m1.Calm := hl.calm hm
      have hmade : ((sys (.mkdir d (nameOf suffix))).attempt : Task _).Safe (faults id)
          (fun out x => ∃ r, out = .ok r ∧ RootMade m1 κ1 (d ++ [nameOf suffix]) r x) (κ1, m1) :=
        Safe.attempt (mkdir_rootMade hroot hm1) fun r x h => ⟨r, rfl, h⟩
      refine Safe.bind hmade ?_ ?_
      · rintro r ⟨κ2, m2⟩ ⟨r', hr, h⟩
        cases hr
        cases r with
        | ok u =>
          obtain ⟨hnone, hκ2, ⟨hrun, hx⟩ | ⟨b, hb, hx⟩⟩ := h
          · -- the directory is made, and the call is exposed
            obtain rfl : m2 = .running (.settling 4) := hx
            refine Safe.bind settleDirectoryAt_settled ?_ ?_
            · rintro u x rfl
              exact ⟨Or.inl (hl.running hrun).symm, suffix, rfl, hnone, hκ2⟩
            · rintro e x rfl
              exact ⟨hl.running hrun, Or.inr ⟨rfl, suffix, hnone, hκ2⟩⟩
          · obtain rfl : m2 = m1 := hx
            refine Safe.bind (settleDirectoryAt_still hm1) ?_ ?_
            · rintro u ⟨κ3, m3⟩ ⟨hl3, hκ3⟩
              obtain rfl : κ3 = κ2 := hκ3
              exact ⟨hl.trans hl3, suffix, rfl, hnone, hκ2⟩
            · rintro e x ⟨hrun, -⟩
              nomatch hb.symm.trans hrun
        | error e =>
          obtain ⟨hrun, hx⟩ := h
          cases hx
          have hfirst := hl.running hrun
          cases e with
          | eexist =>
            refine Safe.mono ?_ (hagain hfirst)
            intro out x h
            cases out with
            | ok n =>
              obtain ⟨hx | ⟨hx, -⟩, hmade⟩ := h
              · exact ⟨Or.inr ⟨hfirst, hx⟩, hmade⟩
              · nomatch hx
            | error e => nomatch h.1
          | _ => exact ⟨hfirst, Or.inl ⟨rfl, rfl⟩⟩
      · rintro e x ⟨r, hx, -⟩
        nomatch hx
    · rintro e x ⟨hrun, hx, hκ⟩
      exact ⟨hrun, Or.inl ⟨hx, hκ⟩⟩
  exact hattempt hm fun _ => hattempt (calm_struck false) nofun

/-! ## Publishing -/

/-- The payload is in place, or a step has failed before. -/
def Published (m : Fate) : Prop := m = .running .published ∨ ∃ b, m = .struck b

/-- How the rename that puts the payload in place ends. -/
def PlaceRenamed (m : Fate) (κ : Known whole.region) (id : GoString) (sd : Path) (sn : GoString) :
    Except GoError Unit → Known whole.region × Fate → Prop
  | .ok _, x => Renamed (sd ++ [sn]) (payloadDir id) κ.1 x.1.1 ∧ Published x.2
  | .error e, x => x.1 = κ ∧ Later m x.2 ∧ ((sd = stagingRoot ∧ isCrossDeviceError e = true) ∨
      (m = .running .settled ∧ x.2 = .struck false))

theorem statDir_ends {p : Path} (hm : m.Calm) (hdir : κ.1 p = some .dir) :
    (sysRaw (.stat p)).Safe (faults id) (Ends m (fun k κ' => κ' = κ ∧ k = Kind.dir)
      fun κ' => κ' = κ) (κ, m) := by
  have hq : Confined NoRegion (.fs (.stat p)) := fun q hq => nomatch hq
  have hs : Strict κ.1 (.stat p) := by
    intro e
    cases e with
    | enoent =>
      rw [works, hdir]
      rfl
    | _ => rfl
  refine Ends.mapError (sys_ends hm (fun r => rfl) hs (fun k κ' h => ?_) fun e κ' h =>
    step_quiet h hq)
  obtain ⟨node, hnode, hk⟩ := step_stat h trivial
  cases hdir.symm.trans hnode
  exact ⟨step_quiet h hq, hk.symm⟩

theorem renameDirectoryAt_place {sd : Path} {sn : GoString} (hm : m.Calm)
    (hdir : κ.1 (sd ++ [sn]) = some .dir) :
    (renameDirectoryAt sd sn payloadsRoot id).Safe (faults id) (PlaceRenamed m κ id sd sn) (κ, m) := by
  refine Safe.bind (statDir_ends hm hdir) ?_ ?_
  · rintro k ⟨κ1, m1⟩ ⟨hl, hκ1, rfl⟩
    obtain rfl : κ1 = κ := hκ1
    have hm1 : m1.Calm := hl.calm hm
    have hrename : (sys (.rename sd sn payloadsRoot id)).Safe (faults id) (fun r x => match r with
        | .ok _ => Renamed (sd ++ [sn]) (payloadDir id) κ1.1 x.1.1 ∧ Published x.2
        | .error e => x.1 = κ1 ∧ ((x.2 = m1 ∧ sd = stagingRoot ∧ e = .exdev) ∨
            (m1 = .running .settled ∧ x.2 = .struck false))) (κ1, m1) := by
      refine ⟨fun _ _ => trivial, ?_⟩
      rintro r ⟨κ', m'⟩ ⟨hstep, hnext⟩
      rcases step_rename hstep (whole_seen _) (whole_seen _) with ⟨rfl, hren⟩ | ⟨⟨e, rfl⟩, hκ⟩
      · refine ⟨hren, ?_⟩
        rcases hm1 with rfl | ⟨b, rfl⟩
        · rcases next_running hnext with ⟨-, hx⟩ | ⟨hw, -⟩
          · exact Or.inl (hx.trans (congrArg Fate.running (if_pos rfl)))
          · nomatch hw
        · exact Or.inr ⟨b, (next_struck hnext).2⟩
      · have hcross : works κ1.1 (.fs (.rename sd sn payloadsRoot id)) (.error e) = true →
            sd = stagingRoot ∧ e = .exdev := by
          intro hw
          cases e with
          | exdev => exact ⟨(of_decide_eq_true hw).1, rfl⟩
          | _ => nomatch hw
        refine ⟨hκ, ?_⟩
        rcases hm1 with rfl | ⟨b, rfl⟩
        · rcases next_running hnext with ⟨hw, hx⟩ | ⟨-, hx⟩
          · exact Or.inl ⟨hx, hcross hw⟩
          · exact Or.inr ⟨rfl, hx⟩
        · obtain ⟨hw, hx⟩ := next_struck hnext
          exact Or.inl ⟨hx, hcross hw⟩
    refine Safe.mapError hrename (fun u x h => h) ?_
    · rintro e x ⟨hκ, ⟨hx, hsd, rfl⟩ | ⟨hrun, hx⟩⟩
      · exact ⟨hκ, hx ▸ hl, Or.inl ⟨hsd, rfl⟩⟩
      · have hfirst := hl.running hrun
        exact ⟨hκ, Or.inr ⟨hfirst, hx⟩, Or.inr ⟨hfirst, hx⟩⟩
  · rintro e x ⟨hrun, hx, hκ⟩
    exact ⟨hκ, Or.inr ⟨hrun, hx⟩, Or.inr ⟨hrun, hx⟩⟩

/-- How a part ends that comes after the publication: if a step of it fails, the call was exposed. -/
def AfterPlace (κ : Known whole.region) : Except ε α → Known whole.region × Fate → Prop
  | .ok _, x => x.1 = κ ∧ Published x.2
  | .error _, x => x = (κ, .struck true)

theorem syncFD_afterPlace {p : Path} (hm : Published m) :
    (syncFD root p).Safe (faults id) (AfterPlace κ) (κ, m) := by
  have hsys : (sys (.quiet p)).Safe (faults id) (AfterPlace κ) (κ, m) := by
    refine ⟨fun _ _ => trivial, ?_⟩
    rintro r ⟨κ', m'⟩ ⟨hstep, hnext⟩
    obtain rfl : κ' = κ := step_quiet hstep (calls_quiet (c := .quiet p) trivial)
    rcases hm with rfl | ⟨b, rfl⟩
    · rcases next_running hnext with ⟨hw, hx⟩ | ⟨hw, rfl⟩
      · cases r with
        | ok u => exact ⟨rfl, Or.inl hx⟩
        | error e => nomatch hw
      · cases r with
        | ok u => nomatch hw
        | error e => exact rfl
    · obtain ⟨hw, hx⟩ := next_struck hnext
      cases r with
      | ok u => exact ⟨rfl, Or.inr ⟨b, hx⟩⟩
      | error e => nomatch hw
  exact Safe.mapError hsys (fun _ _ h => h) fun _ _ h => h

/-- Something is in `payloads/` that was not there. -/
def NewPayload (κ κ' : Known whole.region) : Prop :=
  ∃ n, κ.1 (payloadsRoot ++ [n]) = none ∧ κ'.1 (payloadsRoot ++ [n]) ≠ none

/-- What a failed publication leaves: all is as before, or something is in `payloads/` and the call was
    exposed. -/
def Unpublished (m : Fate) (κ : Known whole.region) (stage : GoString) (x : Known whole.region × Fate) :
    Prop :=
  (m = .running .settled ∧ x = (κ, .struck false)) ∨
  (x.2 = .struck true ∧ Tame (x.1.1.sub (stagingRoot ++ [stage])) ∧ NewPayload κ x.1)

/-- A directory that was renamed is in place, and nothing is where it was. -/
theorem renamed_place {src dst : Path} {v v' : View GoString} (h : Renamed src dst v v')
    (hne : v dst = none) : Apart src dst ∧ v'.sub dst = v.sub src ∧ v'.sub src = nothing ∧
      (∀ q, Apart src q → Apart dst q → v'.sub q = v.sub q) := by
  obtain ⟨hsrc, ⟨rfl, -⟩ | ⟨hap, rfl⟩⟩ := h
  · exact absurd hne hsrc
  · refine ⟨hap, sub_graft _ _ _, ?_, fun q hs hd => ?_⟩
    · rw [sub_graft_apart hap.symm, sub_graft]
    · rw [sub_graft_apart hd, sub_graft_apart hs]

/-- How a part of the call ends: what it leaves matters when it fails. -/
def Leaves (R : Known whole.region × Fate → Prop) : Except ε α → Known whole.region × Fate → Prop
  | .ok _, _ => True
  | .error _, x => R x

theorem AfterPlace.leaves {R : Known whole.region × Fate → Prop} (h : R (κ, .struck true))
    (out : Except ε α) (x : Known whole.region × Fate) (hx : AfterPlace κ out x) : Leaves R out x := by
  cases out with
  | ok a => trivial
  | error e =>
    obtain rfl : x = (κ, .struck true) := hx
    exact h

variable {stage : GoString} {msg : Message}

/-- What happens in `staging/` does not show in `payloads/`. -/
theorem graft_stage (v u : View GoString) (stage n : GoString) :
    v.graft (stagingRoot ++ [stage]) u (payloadsRoot ++ [n]) = v (payloadsRoot ++ [n]) :=
  graft_other (staging_apart stage n).1

theorem newPayload_of_place {κ' : Known whole.region} (hnone : κ.1 (payloadDir id) = none)
    (hplace : κ'.1.sub (payloadDir id) = payloadView msg) : NewPayload κ κ' := by
  refine ⟨id, hnone, ?_⟩
  show κ'.1 (payloadDir id) ≠ none
  rw [root_of_sub hplace, payloadView_nil]
  nofun

theorem deep_entry (d n : GoString) : Deep ([d] ++ [n]) := Nat.le_refl 2

/-- What a failed `publishTemp` leaves: the publish directory, or the payload in place. -/
def TempLeft (m : Fate) (κ : Known whole.region) (id stage temp : GoString) (msg : Message)
    (x : Known whole.region × Fate) : Prop :=
  (m = .running .settled ∧ x.2 = .struck false ∧ Rest κ (payloadsRoot ++ [temp]) x.1) ∨
  (x.2 = .struck true ∧ x.1.1.sub (payloadsRoot ++ [temp]) = nothing ∧
    x.1.1.sub (stagingRoot ++ [stage]) = payloadView msg ∧
    x.1.1.sub (payloadDir id) = payloadView msg)

theorem publishTemp_left {temp : GoString} (hm : m.Calm)
    (hfull : κ.1.sub (stagingRoot ++ [stage]) = payloadView msg)
    (hempty : κ.1.sub (payloadsRoot ++ [temp]) = leaf .dir) (hnone : κ.1 (payloadDir id) = none) :
    (s.publishTemp stage temp id).Safe (faults id) (Leaves (TempLeft m κ id stage temp msg)) (κ, m) := by
  have hap : Apart (stagingRoot ++ [stage]) (payloadsRoot ++ [temp]) := staging_apart stage temp
  have hsource : Finished (κ.1.sub (stagingRoot ++ [stage])) := by
    rw [hfull]
    exact finished_payload msg
  refine Safe.bind (copyDirectoryContentsAt_ends hm (deep_entry _ _) hap hempty hsource) ?_ ?_
  · rintro _ ⟨κ1, m1⟩ ⟨hl, hκ1⟩
    have hκ1 : κ1.1 = κ.1.graft (payloadsRoot ++ [temp]) (payloadView msg) := hκ1.trans (by rw [hfull])
    have hm1 : m1.Calm := hl.calm hm
    have htemp : κ1.1.sub (payloadsRoot ++ [temp]) = payloadView msg := by rw [hκ1, sub_graft]
    have hdir : κ1.1 (payloadsRoot ++ [temp]) = some .dir := by
      rw [hκ1, graft_self, payloadView_nil]
    -- the publish directory is another entry than the payload
    have hother : Apart (payloadsRoot ++ [temp]) (payloadDir id) := by
      refine apart_of_ne ?_
      rintro rfl
      nomatch hnone.symm.trans (root_of_sub hempty)
    have hnone1 : κ1.1 (payloadDir id) = none := by
      rw [hκ1, graft_other hother.1]
      exact hnone
    refine Safe.bind (renameDirectoryAt_place hm1 hdir) ?_ ?_
    · rintro _ ⟨κ2, m2⟩ ⟨hren, hpub⟩
      obtain ⟨-, hplace, hgone, helse⟩ := renamed_place hren hnone1
      refine Safe.mono (AfterPlace.leaves ?_) (syncFD_afterPlace hpub)
      refine Or.inr ⟨rfl, hgone, ?_, hplace.trans htemp⟩
      have hstaged := helse (stagingRoot ++ [stage]) hap.symm (staging_apart stage id).symm
      exact hstaged.trans (by rw [hκ1, sub_graft_apart hap.symm, hfull])
    · rintro e ⟨κ2, m2⟩ ⟨hκ2, -, ⟨hx, -⟩ | ⟨hrun, hx⟩⟩
      · exact absurd hx (by decide)
      · obtain rfl : κ2 = κ1 := hκ2
        exact Or.inl ⟨hl.running hrun, hx, _, (finished_payload msg).tame, hκ1⟩
  · rintro e x ⟨hrun, hx, hrest⟩
    exact Or.inl ⟨hrun, hx, hrest⟩

/-- A program that is confined to the tree may go on whatever has happened. -/
theorem safe_of_confined {p : Act spoolSig ε α} (hp : p.Uses (Confined whole.region))
    (x : Known whole.region × Fate) : p.Safe (faults id) (fun _ _ => True) x :=
  Prog.Uses.keeps hp (fun _ _ ho _ => ho) (fun _ _ _ _ _ _ _ => trivial) trivial

/-- The publish directory of a payload is not the payload. -/
theorem publishTempName_ne (id suffix : GoString) : publishTempName id suffix ≠ id := by
  intro h
  have hlen := congrArg List.length h
  simp only [publishTempName, length_append] at hlen
  have htext : 0 < (lit ".publish-").length := by decide
  omega

theorem publishViaPayloadTemp_unpublished (hm : m.Calm)
    (hfull : κ.1.sub (stagingRoot ++ [stage]) = payloadView msg)
    (hnone : κ.1 (payloadDir id) = none) :
    (s.publishViaPayloadTemp stage id).Safe (faults id) (Leaves (Unpublished m κ stage)) (κ, m) := by
  have htame : Tame (payloadView msg) := (finished_payload msg).tame
  refine Safe.bind (createUniqueDirectoryAt_made (Or.inr rfl) hm 14) ?_ ?_
  · rintro _ ⟨κ1, m1⟩ ⟨hl, suffix, rfl, hfree, hκ1⟩
    have hκ1 : κ1.1 = κ.1.graft (payloadsRoot ++ [publishTempName id suffix]) (leaf .dir) := hκ1
    have hap : Apart (stagingRoot ++ [stage]) (payloadsRoot ++ [publishTempName id suffix]) :=
      staging_apart stage _
    have hother : Apart (payloadsRoot ++ [publishTempName id suffix]) (payloadDir id) :=
      apart_of_ne (publishTempName_ne id suffix)
    have hnone1 : κ1.1 (payloadDir id) = none := by
      rw [hκ1, graft_other hother.1]
      exact hnone
    have hfull1 : κ1.1.sub (stagingRoot ++ [stage]) = payloadView msg := by
      rw [hκ1, sub_graft_apart hap.symm, hfull]
    have hempty : κ1.1.sub (payloadsRoot ++ [publishTempName id suffix]) = leaf .dir := by
      rw [hκ1, sub_graft]
    have hpublish : (s.publishTemp stage (publishTempName id suffix) id).Safe (faults id)
        (Leaves (TempLeft m1 κ1 id stage (publishTempName id suffix) msg)) (κ1, m1) :=
      publishTemp_left (hl.calm hm) hfull1 hempty hnone1
    refine Safe.bind (Safe.onFail (Q := Leaves (Unpublished m κ stage)) hpublish
      (fun _ _ _ => trivial) ?_) ?_ fun _ _ h => h
    · -- the clean-up of the publish directory
      rintro e ⟨κ2, m2⟩ (⟨hrun, hx, hrest⟩ | ⟨hx, hgone, hstaged, hplace⟩)
      · obtain rfl : m2 = .struck false := hx
        obtain ⟨ht, hκ2⟩ := hrest.cleaned hκ1 hfree
        refine discardEntry_left ht fun κ3 hκ3 => Or.inl ⟨hl.running hrun, ?_⟩
        exact Prod.ext (Subtype.ext (hκ3.trans hκ2)) rfl
      · obtain rfl : m2 = .struck true := hx
        have ht : Tame (κ2.1.sub (payloadsRoot ++ [publishTempName id suffix])) := by
          rw [hgone]
          exact tame_nothing
        refine discardEntry_left ht fun κ3 hκ3 => ?_
        have hsame : κ3.1 = κ2.1 := hκ3.trans (graft_of_sub hgone)
        refine Or.inr ⟨rfl, ?_, newPayload_of_place hnone (hsame ▸ hplace)⟩
        rw [hsame, hstaged]
        exact htame
    · -- the staging directory is given up; this cannot fail
      rintro _ ⟨κ2, m2⟩ -
      refine Safe.bind (P := fun out _ => out = .ok ()) ?_ ?_ fun e _ h => nomatch h
      · exact Safe.ignore (safe_of_confined (removeEntryTreeAt_confined fun _ _ => trivial) _)
          fun _ _ _ => rfl
      · rintro _ ⟨κ3, m3⟩ -
        exact Safe.ignore (safe_of_confined syncFD_confined _) fun _ _ _ => trivial
  · rintro e ⟨κ1, m1⟩ ⟨hrun, ⟨hx, hκ1⟩ | ⟨hx, suffix, hfree, hκ1⟩⟩
    · exact Or.inl ⟨hrun, Prod.ext hκ1 hx⟩
    · have hκ1 : κ1.1 = κ.1.graft (payloadsRoot ++ [publishTempName id suffix]) (leaf .dir) := hκ1
      refine Or.inr ⟨hx, ?_, publishTempName id suffix, ?_, ?_⟩
      · have hap : Apart (payloadsRoot ++ [publishTempName id suffix]) (stagingRoot ++ [stage]) :=
          (staging_apart stage _).symm
        show Tame (κ1.1.sub _)
        rw [hκ1, sub_graft_apart hap, hfull]
        exact htame
      · exact root_of_sub hfree
      · show κ1.1 _ ≠ none
        rw [hκ1, graft_self]
        nofun

/-- **A publication that fails leaves all as it was, unless the call was exposed.** -/
theorem publish_unpublished (hm : m.Calm)
    (hfull : κ.1.sub (stagingRoot ++ [stage]) = payloadView msg)
    (hnone : κ.1 (payloadDir id) = none) :
    (s.publish stage id).Safe (faults id) (Leaves (Unpublished m κ stage)) (κ, m) := by
  have hdir : κ.1 (stagingRoot ++ [stage]) = some .dir :=
    (root_of_sub hfull).trans (payloadView_nil msg)
  have hrenamed : ((renameDirectoryAt stagingRoot stage payloadsRoot id).attempt : Task _).Safe
      (faults id) (fun out x => ∃ r, out = .ok r ∧ PlaceRenamed m κ id stagingRoot stage r x) (κ, m) :=
    Safe.attempt (renameDirectoryAt_place hm hdir) fun r x h => ⟨r, rfl, h⟩
  refine Safe.bind hrenamed ?_ ?_
  · rintro r ⟨κ1, m1⟩ ⟨r', hr, h⟩
    cases hr
    cases r with
    | ok u =>
      obtain ⟨hren, hpub⟩ := h
      obtain ⟨-, hplace, hgone, -⟩ := renamed_place hren hnone
      have hexposed : Unpublished m κ stage (κ1, .struck true) := by
        refine Or.inr ⟨rfl, ?_, newPayload_of_place hnone (hplace.trans hfull)⟩
        show Tame (κ1.1.sub _)
        rw [hgone]
        exact tame_nothing
      refine Safe.bind (syncFD_afterPlace hpub) ?_ ?_
      · rintro _ ⟨κ2, m2⟩ ⟨hκ2, hpub2⟩
        obtain rfl : κ2 = κ1 := hκ2
        exact Safe.mono (AfterPlace.leaves hexposed) (syncFD_afterPlace hpub2)
      · rintro e x rfl
        exact hexposed
    | error e =>
      obtain ⟨hκ1, hl, hcase⟩ := h
      obtain rfl : κ1 = κ := hκ1
      show Safe _ _ (if isCrossDeviceError e then _ else _) _
      split
      · refine Safe.mapError (publishViaPayloadTemp_unpublished (hl.calm hm) hfull hnone)
          (fun _ _ h => h) ?_
        rintro e' x (⟨hrun, hx⟩ | hleft)
        · exact Or.inl ⟨hl.running hrun, hx⟩
        · exact Or.inr hleft
      · rename_i hcross
        rcases hcase with ⟨-, hx⟩ | ⟨hrun, hx⟩
        · exact absurd hx hcross
        · exact Or.inl ⟨hrun, Prod.ext rfl hx⟩
  · rintro e x ⟨r, hx, -⟩
    nomatch hx

/-! ## Saving -/

/-- What a failed `saveStaged` leaves: part of the staging directory, or something in `payloads/`. -/
def StageLeft (m : Fate) (κ : Known whole.region) (stage : GoString)
    (x : Known whole.region × Fate) : Prop :=
  (m = .running .settled ∧ x.2 = .struck false ∧ Rest κ (stagingRoot ++ [stage]) x.1) ∨
  (x.2 = .struck true ∧ Tame (x.1.1.sub (stagingRoot ++ [stage])) ∧ NewPayload κ x.1)

theorem saveStaged_left (hm : m.Calm) (hempty : κ.1.sub (stagingRoot ++ [stage]) = leaf .dir)
    (hnone : κ.1 (payloadDir id) = none) :
    (s.saveStaged stage id msg).Safe (faults id) (Leaves (StageLeft m κ stage)) (κ, m) := by
  have hdeep : Deep (stagingRoot ++ [stage]) := deep_entry _ _
  refine Safe.bind (stageAttachments_ends hm hdeep hempty msg.attachments) ?_ fun e x h => Or.inl h
  rintro _ ⟨κ1, m1⟩ ⟨hl1, hκ1⟩
  have hκ1 : κ1.1 = κ.1.graft (stagingRoot ++ [stage]) (stagedAttachments msg.attachments) := hκ1
  have hstaged : Finished (κ1.1.sub (stagingRoot ++ [stage])) := by
    rw [hκ1, sub_graft]
    exact finished_staged _
  have hm1 : m1.Calm := hl1.calm hm
  -- what is below the staging directory counts from where the call began
  have hrest : ∀ κ' : Known whole.region, Rest κ1 (stagingRoot ++ [stage]) κ' →
      Rest κ (stagingRoot ++ [stage]) κ' := by
    rintro κ' ⟨v, hv, hκ'⟩
    rw [hκ1, graft_graft] at hκ'
    exact ⟨v, hv, hκ'⟩
  refine Safe.bind (writeRegularFileAt_ends hm1 hdeep hstaged.noTempIn) ?_ ?_
  · rintro _ ⟨κ2, m2⟩ ⟨hl2, hκ2⟩
    have hκ2 : κ2.1 = κ.1.graft (stagingRoot ++ [stage]) (payloadView msg) := by
      refine Eq.trans hκ2 ?_
      rw [hκ1, graft_below]
      rfl
    have hfull : Rest κ (stagingRoot ++ [stage]) κ2 := ⟨_, (finished_payload msg).tame, hκ2⟩
    have hm2 : m2.Calm := hl2.calm hm1
    refine Safe.bind (syncFD_still hm2) ?_ ?_
    · rintro _ ⟨κ3, m3⟩ ⟨hl3, hκ3⟩
      obtain rfl : κ3 = κ2 := hκ3
      have hl : Later m m3 := (hl1.trans hl2).trans hl3
      have hap : Apart (stagingRoot ++ [stage]) (payloadDir id) := staging_apart stage id
      have hnone3 : κ3.1 (payloadDir id) = none := by
        rw [hκ2, graft_other hap.1]
        exact hnone
      have hsub : κ3.1.sub (stagingRoot ++ [stage]) = payloadView msg := by rw [hκ2, sub_graft]
      refine Safe.mono ?_ (publish_unpublished (hl.calm hm) hsub hnone3)
      intro out x h
      cases out with
      | ok u => trivial
      | error e =>
        rcases h with ⟨hrun, rfl⟩ | ⟨hx, htame, n, hn, hnew⟩
        · exact Or.inl ⟨hl.running hrun, rfl, hfull⟩
        · refine Or.inr ⟨hx, htame, n, ?_, hnew⟩
          rwa [hκ2, graft_stage] at hn
    · rintro e ⟨κ3, m3⟩ ⟨hrun, hx, hκ3⟩
      obtain rfl : κ3 = κ2 := hκ3
      exact Or.inl ⟨(hl1.trans hl2).running hrun, hx, hfull⟩
  · rintro e x ⟨hrun, hx, hleft⟩
    refine Or.inl ⟨hl1.running hrun, hx, hrest _ ?_⟩
    exact rest_of_written hstaged.tame (tame_file _) hleft

/-- Something is in one of the roots that was not there. -/
def NewEntry (κ κ' : Known whole.region) : Prop :=
  ∃ d n, (d = stagingRoot ∨ d = payloadsRoot) ∧ κ.1 (d ++ [n]) = none ∧ κ'.1 (d ++ [n]) ≠ none

/-- What a failed `Save` leaves: all is as before; or the call was exposed, and there is something
    new. -/
def SaveLeft (κ : Known whole.region) (x : Known whole.region × Fate) : Prop :=
  (x.2 ≠ .struck true ∧ x.1 = κ) ∨ (x.2 = .struck true ∧ NewEntry κ x.1)

theorem saveNew_left (hm : m.Calm) (hnone : κ.1 (payloadDir id) = none) :
    (s.saveNew id msg).Safe (faults id) (Leaves (SaveLeft κ)) (κ, m) := by
  refine Safe.bind (createUniqueDirectoryAt_made (Or.inl rfl) hm 14) ?_ ?_
  · rintro _ ⟨κ1, m1⟩ ⟨hl, suffix, rfl, hfree, hκ1⟩
    have hκ1 : κ1.1 = κ.1.graft (stagingRoot ++ [stageName id suffix]) (leaf .dir) := hκ1
    have hempty : κ1.1.sub (stagingRoot ++ [stageName id suffix]) = leaf .dir := by
      rw [hκ1, sub_graft]
    have hother : ∀ n, κ1.1 (payloadsRoot ++ [n]) = κ.1 (payloadsRoot ++ [n]) := by
      intro n
      rw [hκ1, graft_stage]
    have hnone1 : κ1.1 (payloadDir id) = none := (hother id).trans hnone
    refine Safe.onFail (saveStaged_left (hl.calm hm) hempty hnone1) (fun _ _ _ => trivial) ?_
    rintro e ⟨κ2, m2⟩ (⟨hrun, hx, hrest⟩ | ⟨hx, ht, n, hn, hnew⟩)
    · obtain rfl : m2 = .struck false := hx
      obtain ⟨ht, hκ2⟩ := hrest.cleaned hκ1 hfree
      exact discardEntry_left ht fun κ3 hκ3 =>
        Or.inl ⟨nofun, Subtype.ext (hκ3.trans hκ2)⟩
    · obtain rfl : m2 = .struck true := hx
      refine discardEntry_left ht fun κ3 hκ3 => ?_
      refine Or.inr ⟨rfl, payloadsRoot, n, Or.inr rfl, (hother n).symm.trans hn, ?_⟩
      rw [hκ3, graft_stage]
      exact hnew
  · rintro e ⟨κ1, m1⟩ ⟨hrun, ⟨hx, hκ1⟩ | ⟨hx, suffix, hfree, hκ1⟩⟩
    · refine Or.inl ⟨?_, hκ1⟩
      rw [hx]
      nofun
    · have hκ1 : κ1.1 = κ.1.graft (stagingRoot ++ [stageName id suffix]) (leaf .dir) := hκ1
      refine Or.inr ⟨hx, stagingRoot, stageName id suffix, Or.inl rfl, ?_, ?_⟩
      · exact root_of_sub hfree
      · show κ1.1 _ ≠ none
        rw [hκ1, graft_self]
        nofun

variable [Unicode]

theorem save_left (hnone : κ.1 (payloadDir (trimSpace id)) = none) :
    (s.save id msg).Safe (faults (trimSpace id)) (Leaves (SaveLeft κ)) (κ, .running .settled) := by
  have hstruck : ∀ {m : Fate} (e : GoError) (x : Known whole.region × Fate),
      Ends (α := Unit) m (fun _ κ' => κ' = κ) (fun κ' => κ' = κ) (.error e) x → SaveLeft κ x := by
    rintro m e x ⟨-, hx, hκ⟩
    refine Or.inl ⟨?_, hκ⟩
    rw [hx]
    nofun
  -- the steps before the look at the target
  have hbefore : ∀ {m : Fate} {p : Task Unit} {f : Unit → Task Unit}, m.Calm →
      Still (trimSpace id) κ m p → (∀ m', m'.Calm → (f ()).Safe (faults (trimSpace id))
        (Leaves (SaveLeft κ)) (κ, m')) →
      (p >>= f).Safe (faults (trimSpace id)) (Leaves (SaveLeft κ)) (κ, m) := by
    intro m p f hm hp hf
    refine Safe.bind hp ?_ hstruck
    rintro _ ⟨κ', m'⟩ ⟨hl, hκ⟩
    obtain rfl : κ' = κ := hκ
    exact hf m' (hl.calm hm)
  refine Safe.lift_bind (fun _ _ => ?_) fun e _ => ?_
  · have hm : (Fate.running .settled).Calm := Or.inl rfl
    refine hbefore hm (openRootOr_still hm) fun m1 hm1 => ?_
    refine hbefore hm1 (sysOr_still (c := .openDir _) hm1 trivial) fun m2 hm2 => ?_
    refine hbefore hm2 (sysOr_still (c := .openDir _) hm2 trivial) fun m3 hm3 => ?_
    have hlook : ((entryModeAt (payloadDir (trimSpace id))).mapError
        (.wrap (about s.root "stat payload target" (payloadDir (trimSpace id)))) :
          Task (Option Kind)).Safe (faults (trimSpace id))
        (Looked m3 κ (payloadDir (trimSpace id))) (κ, m3) :=
      Safe.mapError (entryModeAt_looked hm3) (fun _ _ h => h) fun _ _ h => h
    refine Safe.bind hlook ?_ ?_
    · intro mode x h
      cases mode with
      | none =>
        rcases h with ⟨rfl, -⟩ | ⟨-, rfl⟩
        · exact saveNew_left hm3 hnone
        · exact saveNew_left (calm_struck false) hnone
      | some k =>
        obtain ⟨-, node, hnode, -⟩ := h
        nomatch hnone.symm.trans hnode
    · rintro e x ⟨hrun, rfl⟩
      exact hstruck e _ ⟨hrun, rfl, rfl⟩
  · exact Or.inl ⟨nofun, rfl⟩

end Save

/-! ## What a failed save leaves behind -/

/-- Everything in `payloads/` and in `staging/` is as before. -/
def LeavesNothing (W W' : World) : Prop :=
  ∀ q, payloadsRoot <+: q ∨ stagingRoot <+: q → W'.files.get q = W.files.get q

/-- A step fails while the call is exposed. -/
def FailsExposed (id : GoString) (tr : Trace) : Prop :=
  ∃ pre ev post, tr = pre ++ ev :: post ∧ failed ev = true ∧
    (Exposure.settled.run id pre).exposed = true

instance (id : GoString) (tr : Trace) : Decidable (FailsExposed id tr) :=
  decidable_of_iff (∃ i < tr.length, tr[i]?.any failed = true ∧
      (Exposure.settled.run id (tr.take i)).exposed = true) <| by
    constructor
    · rintro ⟨i, hi, hfail, hexp⟩
      rw [getElem?_eq_getElem hi] at hfail
      refine ⟨_, _, tr.drop (i + 1), ?_, hfail, hexp⟩
      rw [getElem_cons_drop, take_append_drop]
    · rintro ⟨pre, ev, post, rfl, hfail, hexp⟩
      exact ⟨pre.length, by simp, by simpa using hfail, by simpa using hexp⟩

theorem failed_unique {pre pre' post post' : Trace}
    {ev ev' : SpoolEvent} (h : pre ++ ev :: post = pre' ++ ev' :: post')
    (hnone : ∀ e ∈ pre ++ post, failed e = false) (hev' : failed ev' = true) : pre' = pre := by
  rcases append_eq_append_iff.mp h with ⟨as, rfl, has⟩ | ⟨as, rfl, has⟩
  · cases as with
    | nil => exact append_nil _
    | cons x as =>
      have hmem : ev' ∈ post := by
        rw [(List.cons.inj has).2]
        exact mem_append_right _ (mem_cons_self ..)
      nomatch hev'.symm.trans (hnone ev' (mem_append_right _ hmem))
  · cases as with
    | nil => exact (append_nil _).symm
    | cons x as =>
      obtain ⟨rfl, -⟩ := List.cons.inj has
      have hmem : ev' ∈ pre' ++ ev' :: as := mem_append_right _ (mem_cons_self ..)
      nomatch hev'.symm.trans (hnone ev' (mem_append_left _ hmem))

/-- **A failed `Save` leaves nothing behind, unless the step that failed came while the call was
    exposed.** -/
theorem save_leaves_nothing_iff [Unicode] {s : PayloadStore} {id : GoString} {msg : Message}
    {W W' : World} {tr : Trace} {e : GoError}
    (h : Prog.Runs exec (s.save id msg) W tr (.error e) W')
    (hnone : W.files.get (payloadDir (trimSpace id)) = none) (hone : OneFails tr) :
    LeavesNothing W W' ↔ ¬ FailsExposed (trimSpace id) tr := by
  have hview : (Known.of whole.region W.files).1 = W.files.get := whole_of _
  have hview' : (Known.of whole.region W'.files).1 = W'.files.get := whole_of _
  have hsafe : (s.save id msg).Safe (faults (trimSpace id)) (Leaves (SaveLeft (Known.of _ W.files)))
      (Known.of _ W.files, .running .settled) :=
    save_left (show (Known.of whole.region W.files).1 _ = none from hview ▸ hnone)
  have hsame : Known.of whole.region W'.files = Known.of _ W.files → LeavesNothing W W' := by
    intro hx q hq
    rw [← hview, ← hview', hx]
  have hnew : NewEntry (Known.of _ W.files) (Known.of _ W'.files) → ¬ LeavesNothing W W' := by
    rintro ⟨d, n, hd, hbefore, hafter⟩ hno
    rw [hview] at hbefore
    rw [hview'] at hafter
    refine hafter ((hno _ ?_).trans hbefore)
    rcases hd with rfl | rfl
    · exact Or.inr (prefix_append _ _)
    · exact Or.inl (prefix_append _ _)
  rcases Fate.run_running (trimSpace id) .settled hone with ⟨hrun, hnofail⟩ |
    ⟨pre, ev, post, rfl, hfail, honly, hrun⟩
  · -- no step fails
    have hno : ¬ FailsExposed (trimSpace id) tr := by
      rintro ⟨pre, ev, post, rfl, hfail, -⟩
      nomatch hfail.symm.trans (hnofail ev (mem_append_right _ (mem_cons_self ..)))
    rcases runs_marked h hrun hsafe with ⟨-, hκ⟩ | ⟨hx, -⟩
    · exact iff_of_true (hsame hκ) hno
    · nomatch hx
  · have hleft := runs_marked h hrun hsafe
    cases hexp : (Exposure.settled.run (trimSpace id) pre).exposed with
    | false =>
      rcases hleft with ⟨-, hκ⟩ | ⟨hx, -⟩
      · refine iff_of_true (hsame hκ) ?_
        rintro ⟨pre', ev', post', heq, hfail', hexp'⟩
        rw [failed_unique heq honly hfail'] at hexp'
        nomatch hexp.symm.trans hexp'
      · rw [hexp] at hx
        nomatch hx
    | true =>
      rcases hleft with ⟨hx, -⟩ | ⟨-, hentry⟩
      · exact absurd (congrArg Fate.struck hexp) hx
      · exact iff_of_false (hnew hentry) fun hno => hno ⟨pre, ev, post, rfl, hfail, hexp⟩

/-! ## Saves that leave something behind -/

/-- The error of a disk. -/
def inputOutputError : Errno := .other (lit "input/output error")

/-- All goes well until a directory is synced, or given its mode, at that moment. -/
def failingSync (moment : World → Path → Bool) (W : World) (o : Op) : Choice :=
  match o with
  | .fs (.quiet p) => .call (if moment W p then .fault inputOutputError else .go)
  | o => calm (.error .canceled) (.error .canceled) o

/-- The payload of a message is in place. -/
def isPlaced (W : World) (p : Path) : Bool :=
  decide (p = payloadsRoot) && (W.files.get (payloadDir sampleID)).isSome

/-- A staging directory has just been made. -/
def isStaged (W : World) (p : Path) : Bool :=
  decide (p = stagingRoot) && decide (W.files.children stagingRoot ≠ [])

/-- A save of the sample message that fails because of one step. -/
def saveFails (moment : World → Path → Bool) (T : Trace → World → Bool)
    (x : Except GoError Unit × Trace × World) : Bool :=
  let _ := Unicode.ascii
  let save := sampleStore.payloads.save sampleID sampleMessage
  (x.2.2.files.get (payloadDir sampleID)).isNone && (x.2.2.files.children stagingRoot).isEmpty &&
    (Prog.runIn exec (failingSync moment) 100 save x.2.2).any fun y =>
      y.1.toOption.isNone && decide (OneFails y.2.1) && T y.2.1 y.2.2

/-- Such a save in a fresh spool. -/
def saveFailsFresh (moment : World → Path → Bool) (T : Trace → World → Bool) : Bool :=
  let _ := Unicode.ascii
  (Prog.run exec (calm (.error .canceled) (.error .canceled)) 100 sampleStore.newSpoolStore
    (sampleWorld ⟨[], nodup_nil⟩)).any (saveFails moment T)

theorem exists_failed_save (moment : World → Path → Bool) (T : Trace → World → Bool)
    (h : saveFailsFresh moment T = true) :
    letI := Unicode.ascii
    ∃ (W W' : World) (tr : Trace) (e : GoError),
      Prog.Runs exec (sampleStore.payloads.save sampleID sampleMessage) W tr (.error e) W' ∧
      W.files.get (payloadDir sampleID) = none ∧ W.files.children stagingRoot = [] ∧
      OneFails tr ∧ T tr W' = true := by
  let _ := Unicode.ascii
  have h : (Prog.run exec (calm (.error .canceled) (.error .canceled)) 100 sampleStore.newSpoolStore
    (sampleWorld ⟨[], nodup_nil⟩)).any (saveFails moment T) = true := h
  obtain ⟨a, tr0, W, -, hW⟩ := Prog.exists_runs_of_run (E := exec)
    (calm (.error .canceled) (.error .canceled)) 100 sampleStore.newSpoolStore
    (sampleWorld ⟨[], nodup_nil⟩) (saveFails moment T) h
  obtain ⟨hbefore, hsave⟩ := Bool.and_eq_true_iff.mp hW
  obtain ⟨hnone, hempty⟩ := Bool.and_eq_true_iff.mp hbefore
  obtain ⟨out, tr, W', hrun, htest⟩ := Prog.exists_runs_of_runIn (E := exec)
    (failingSync moment) 100 (sampleStore.payloads.save sampleID sampleMessage) W _ hsave
  obtain ⟨hcase, hT⟩ := Bool.and_eq_true_iff.mp htest
  obtain ⟨herror, hone⟩ := Bool.and_eq_true_iff.mp hcase
  cases out with
  | ok u => nomatch herror
  | error e =>
    exact ⟨W, W', tr, e, hrun, Option.isNone_iff_eq_none.mp hnone, List.isEmpty_iff.mp hempty,
      of_decide_eq_true hone, hT⟩

/-- A file of the staged payload is being written. -/
def isFile (W : World) (p : Path) : Bool := (W.files.get p).any fun node => decide (node.kind = .reg)

/-- **A save that fails when its manifest is synced** was not exposed, and leaves nothing. -/
theorem save_leaves_nothing_manifest :
    letI := Unicode.ascii
    ∃ (W W' : World) (tr : Trace) (e : GoError),
      Prog.Runs exec (sampleStore.payloads.save sampleID sampleMessage) W tr (.error e) W' ∧
      W.files.get (payloadDir sampleID) = none ∧ OneFails tr ∧ ¬ FailsExposed sampleID tr ∧
      LeavesNothing W W' := by
  let _ := Unicode.ascii
  obtain ⟨W, W', tr, e, hrun, hnone, -, hone, hT⟩ := exists_failed_save isFile
    (fun tr _ => decide (¬ FailsExposed sampleID tr)) (by decide +kernel)
  have hexposed : ¬ FailsExposed sampleID tr := of_decide_eq_true hT
  have hid : trimSpace sampleID = sampleID := by decide +kernel
  have hiff := save_leaves_nothing_iff hrun (hid.symm ▸ hnone) hone
  rw [hid] at hiff
  exact ⟨W, W', tr, e, hrun, hnone, hone, hexposed, hiff.mpr hexposed⟩

/-- **Two saves that fail at an fsync**: when that of `payloads/` after the rename fails, the payload is
    in place all the same; and when that of `staging/` after the mkdir fails, the directory that was
    made stays there. -/
theorem failed_save_leaves_entries :
    letI := Unicode.ascii
    (∃ (W W' : World) (tr : Trace) (e : GoError),
      Prog.Runs exec (sampleStore.payloads.save sampleID sampleMessage) W tr (.error e) W' ∧
      W.files.get (payloadDir sampleID) = none ∧ OneFails tr ∧
      W'.files.get (payloadDir sampleID) = some .dir) ∧
    ∃ (W W' : World) (tr : Trace) (e : GoError),
      Prog.Runs exec (sampleStore.payloads.save sampleID sampleMessage) W tr (.error e) W' ∧
      W.files.get (payloadDir sampleID) = none ∧ OneFails tr ∧
      W.files.children stagingRoot = [] ∧ W'.files.children stagingRoot ≠ [] := by
  let _ := Unicode.ascii
  constructor
  · obtain ⟨W, W', tr, e, hrun, hnone, -, hone, hplace⟩ := exists_failed_save isPlaced
      (fun _ W' => decide (W'.files.get (payloadDir sampleID) = some .dir)) (by decide +kernel)
    exact ⟨W, W', tr, e, hrun, hnone, hone, of_decide_eq_true hplace⟩
  · obtain ⟨W, W', tr, e, hrun, hnone, hempty, hone, hstaged⟩ := exists_failed_save isStaged
      (fun _ W' => decide (W'.files.children stagingRoot ≠ [])) (by decide +kernel)
    exact ⟨W, W', tr, e, hrun, hnone, hone, hempty, of_decide_eq_true hstaged⟩

end SmtpCloudRelay.Spool
