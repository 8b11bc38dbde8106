/-
  A CRASH DURING `Save`, and the start after it.

  `Save` builds a payload elsewhere and puts it in place with one rename, so whatever the process had
  done when it stopped, `payloads/<id>` is not there or it is complete: that is `allOrNothing`, a watch
  that demands this of every single step.  The next start removes everything that was left half-built
  (`newPayloadStore_gives`: `staging/` is empty, no publish directory is left) and does not touch a
  payload.  Then `Load` finds no payload, or the whole of it.

  One assumption is made about the file system at the start: it says "no such file" only of files that do
  not exist.  A lie about that would make the cleaning skip an entry.
-/
import SmtpCloudRelay.Spool.RoundTrip

namespace SmtpCloudRelay.Spool

open Go Lib Act View List Watch

/-! ## Stopped anywhere -/

/-- The payload of a record is not there, or it is complete. -/
def allOrNothing (id : GoString) (msg : Message) : Watch where
  region _ := True
  allows _ _ := True
  keeps v := v.sub (payloadDir id) = nothing ∨ v.sub (payloadDir id) = payloadView msg

/-- A directory that is apart from the payload may change as it likes. -/
theorem free_allOrNothing {id : GoString} {msg : Message} {D : Path} (h : Apart D (payloadDir id)) :
    (allOrNothing id msg).Free D where
  seen q _ := trivial
  keep v v' hv hkeep := by
    have hsub : v'.sub (payloadDir id) = v.sub (payloadDir id) :=
      funext fun q => hv _ (h.symm.not_below (prefix_append _ _))
    show v'.sub (payloadDir id) = _ ∨ v'.sub (payloadDir id) = _
    rw [hsub]
    exact hkeep

/-- No record has the name of a publish directory. -/
theorem Canonical.ne_publishTemp {id : GoString} (h : Canonical id) (rest : GoString) :
    publishTempStart ++ rest ≠ id := by
  rintro rfl
  exact h.head_ne_dot

theorem forSave_allOrNothing {id : GoString} (hid : Canonical id) (msg : Message) :
    (allOrNothing id msg).ForSave id msg where
  stage suffix := free_allOrNothing (staging_apart _ id)
  temp suffix := by
    refine free_allOrNothing (apart_of_ne ?_)
    have hname : publishTempName id suffix = publishTempStart ++ (id ++ lit "-" ++ suffix) := by
      simp [publishTempName, publishTempStart]
    rw [hname]
    exact hid.ne_publishTemp _
  place q _ := trivial
  whole v _ := Or.inr (sub_graft _ _ _)

section Crash

variable [Unicode] {s : PayloadStore} {id : GoString} {msg : Message} {W W1 : World}
variable {p : Task Unit}

/-- **Wherever `Save` is stopped, the payload is not there or it is complete**; it is complete when
    `Save` has returned without an error. -/
theorem save_stopped (hnone : W.files.get (payloadDir (trimSpace id)) = none)
    (h : Prog.Moves exec (s.save id msg, W) (p, W1)) :
    (W1.files.get (payloadDir (trimSpace id)) = none ∨ CompleteAt W1.files (trimSpace id) msg) ∧
    (p = Prog.ret (.ok ()) → CompleteAt W1.files (trimSpace id) msg) := by
  have hstart : (allOrNothing (trimSpace id) msg).keeps (W.files.on fun _ => True) := by
    refine Or.inl (Files.sub_on_none (fun q _ => trivial) ?_)
    rw [Files.on_of trivial]
    exact hnone
  obtain ⟨κ, hp, hview, hkeep⟩ := Prog.Moves.safe
    (fun κ o c W r W' hκ hok hE => Shows.step hκ hok trivial hE) h
    (save_gives fun hid => forSave_allOrNothing hid msg) (shows_of _ hstart)
  have hget : ∀ q, W1.files.get (payloadDir (trimSpace id) ++ q) =
      κ.1.sub (payloadDir (trimSpace id)) q := by
    intro q
    rw [sub_apply, ← hview]
    exact (Files.on_of trivial).symm
  constructor
  · rcases hkeep with hkeep | hkeep
    · have hnil := hget []
      rw [append_nil, hkeep] at hnil
      exact Or.inl hnil
    · exact Or.inr fun q => by rw [hget, hkeep]
  · rintro rfl q
    exact (hget q).trans (congrFun hp q)

end Crash

/-! ## The next start -/

/-- The whole tree, with a file system that says "no such file" only when it is true. -/
def honest : Watch where
  region _ := True
  allows _ c := c ≠ .call (.fault .enoent)
  keeps _ := True

theorem honest_honest : honest.Honest := fun _ h => h rfl

theorem free_honest (D : Path) : honest.Free D := ⟨fun _ _ => trivial, fun _ _ _ _ => trivial⟩

section Start

variable {s : PayloadStore} {κ : Known honest.region}

/-- A loop that removes entries of a directory removes them, and nothing else. -/
theorem cleanupTemps_gives (temps : List GoString) :
    (forEach s.cleanupTemp temps).Safe honest.proto (Gives fun _ κ' =>
      (∀ n ∈ temps, κ'.1.sub (payloadsRoot ++ [n]) = nothing) ∧
      ∀ q, (∀ n ∈ temps, ¬ Below (payloadsRoot ++ [n]) q) → κ'.1 q = κ.1 q) κ := by
  refine forEach_gives (fun done κ' =>
    (∀ n ∈ done, κ'.1.sub (payloadsRoot ++ [n]) = nothing) ∧
    ∀ q, (∀ n ∈ done, ¬ Below (payloadsRoot ++ [n]) q) → κ'.1 q = κ.1 q)
    ⟨fun n hn => (nomatch hn), fun q _ => rfl⟩ ?_
  rintro done name rest κ1 - ⟨hgone, hrest⟩
  refine (removeEntryTreeAt_gives honest_honest (free_honest _)).gives_mapError.gives_mono ?_
  intro _ κ2 hκ2
  constructor
  · intro n hn
    by_cases heq : n = name
    · rw [hκ2, heq, sub_graft]
    · have hdone : n ∈ done := by
        rcases mem_append.mp hn with hn | hn
        · exact hn
        · exact absurd (mem_singleton.mp hn) heq
      rw [hκ2, sub_graft_apart (apart_of_ne (Ne.symm heq)), hgone n hdone]
  · intro q hq
    have hname : ¬ Below (payloadsRoot ++ [name]) q := hq name (by simp)
    rw [hκ2, graft_other hname]
    exact hrest q fun n hn => hq n (mem_append_left _ hn)

/-- What a start leaves of earlier processes: `payloads/` without publish directories. -/
structure Cleaned (v : View GoString) : Prop where
  payloads : v payloadsRoot = some .dir
  temps : ∀ rest q, v (payloadsRoot ++ (publishTempStart ++ rest) :: q) = none

theorem cleanupPayloadTemps_gives :
    s.cleanupPayloadTemps.Safe honest.proto (Gives fun _ κ' => Cleaned κ'.1 ∧
      κ'.1.sub stagingRoot = κ.1.sub stagingRoot) κ := by
  refine Safe.gives_bind (readDirectoryEntriesFD_gives fun q _ => trivial).gives_mapError ?_
  rintro l κ0 ⟨rfl, hdir, -, hmem⟩
  refine Safe.gives_bind (cleanupTemps_gives _) ?_
  rintro _ κ1 ⟨hgone, hrest⟩
  have hend : Cleaned κ1.1 ∧ κ1.1.sub stagingRoot = κ0.1.sub stagingRoot := by
    refine ⟨⟨?_, fun rest q => ?_⟩, ?_⟩
    · rw [hrest payloadsRoot fun n _ hn => absurd hn.length_le (by simp)]
      exact hdir
    · by_cases hname : publishTempStart ++ rest ∈ l
      · have htemp : publishTempStart ++ rest ∈
            l.filter fun name => publishTempStart.isPrefixOf name := by
          rw [mem_filter]
          exact ⟨hname, isPrefixOf_iff_prefix.mpr (prefix_append _ _)⟩
        have hq := congrFun (hgone _ htemp) q
        rwa [sub_apply, append_assoc] at hq
      · -- it was not there before the loop, and the loop touches other entries
        rw [hmem, not_not] at hname
        rw [hrest]
        · obtain ⟨t, ht⟩ := κ0.2
          rw [← ht] at hname ⊢
          exact Files.on_entry_none (fun q _ => trivial) hname q
        · intro n hn hbelow
          have hpre : [n] <+: (publishTempStart ++ rest) :: q :=
            (prefix_append_right_inj payloadsRoot).mp hbelow
          obtain ⟨rfl, -⟩ := cons_prefix_cons.mp hpre
          exact (hmem _).mp (mem_of_mem_filter hn) hname
    · funext q
      refine hrest _ fun n _ hbelow => ?_
      exact roots_apart.not_below (prefix_append _ q)
        ((prefix_append _ _).trans hbelow)
  split
  · exact hend
  · exact quiet_gives syncFD_confined fun _ => hend

/-- **After a start, `staging/` is empty and no publish directory is left.** -/
theorem newPayloadStore_gives :
    s.newPayloadStore.Safe honest.proto (Gives fun _ κ' => Cleaned κ'.1 ∧
      κ'.1.sub stagingRoot = leaf .dir) κ := by
  have hensure : ∀ {name : GoString} {rest : Task Unit} {κ : Known honest.region},
      (∀ κ', rest.Safe honest.proto (Gives fun _ κ' => Cleaned κ'.1 ∧
        κ'.1.sub stagingRoot = leaf .dir) κ') →
      (ensureDirectoryAt s.root [] name >>= fun _ => rest).Safe honest.proto (Gives fun _ κ' =>
        Cleaned κ'.1 ∧ κ'.1.sub stagingRoot = leaf .dir) κ := by
    intro name rest κ hrest
    have hconfined : (ensureDirectoryAt s.root [] name).Uses (Confined (Below [])) :=
      ensureDirectoryAt_confined nil_prefix
    have hdir : (ensureDirectoryAt s.root [] name).Safe honest.proto (Gives fun _ _ => True) κ := by
      refine Safe.mono ?_ (cleans (free_honest []) hconfined)
      intro out κ' _
      cases out with
      | ok u | error e => trivial
    exact hdir.gives_bind fun _ κ' _ => hrest κ'
  refine Safe.gives_lift_bind fun _ _ => quiet_bind openRootOr_confined fun _ => ?_
  refine hensure fun κ1 => hensure fun κ2 => hensure fun κ3 => ?_
  refine Safe.gives_bind (removeTreeContents_gives honest_honest (free_honest _)
    _).gives_mapError fun _ κ4 hκ4 => ?_
  refine quiet_bind syncFD_confined fun _ => ?_
  refine cleanupPayloadTemps_gives.gives_mono ?_
  rintro _ κ5 ⟨hcleaned, hstaging⟩
  exact ⟨hcleaned, by rw [hstaging, hκ4, sub_graft]⟩

end Start

/-- No published payload is in the region of the start-up cleaning. -/
theorem Canonical.not_startRegion {id : GoString} (hid : Canonical id) (q : Path) :
    ¬ StartRegion (payloadDir id ++ q) := by
  have hlen : (payloadDir id ++ q).length = 2 + q.length := by simp [payloadDir, payloadsRoot]; omega
  rintro (hstaging | ⟨rest, htemp⟩ | hroot | hroot)
  · exact roots_apart.not_below hstaging (append_assoc .. ▸ prefix_append _ _)
  · refine (apart_of_ne (hid.ne_publishTemp rest)).not_below htemp (prefix_append _ _)
  · rw [hroot] at hlen
    simp [payloadsRoot] at hlen
    omega
  · rw [hroot] at hlen
    simp [orphanRoot] at hlen
    omega

section Restart

variable {s : PayloadStore} {id : GoString} {msg : Message} {W W' : World}
variable {tr : Trace}

/-- The file system says "no such file" only when it is true. -/
def HonestFiles (tr : Trace) : Prop :=
  ∀ ev ∈ tr, ev.choice ≠ .call (.fault .enoent)

/-- **A start cleans up**, and it leaves every payload as it was. -/
theorem newPayloadStore_runs [Unicode] (h : Prog.Runs exec s.newPayloadStore W tr (.ok ()) W')
    (hhonest : HonestFiles tr) :
    W'.files.get payloadsRoot = some .dir ∧ (∀ n, W'.files.get (stagingRoot ++ [n]) = none) ∧
    (∀ rest, W'.files.get (payloadsRoot ++ [publishTempStart ++ rest]) = none) ∧
    ∀ id q, Canonical id → W'.files.get (payloadDir id ++ q) = W.files.get (payloadDir id ++ q) := by
  obtain ⟨κ, ⟨⟨hroot, htemps⟩, hstaging⟩, hview, -⟩ := runs_shown (w := honest) h hhonest
    newPayloadStore_gives (shows_of honest trivial)
  have hget : ∀ q, W'.files.get q = κ.1 q := by
    intro q
    rw [← hview]
    exact (Files.on_of trivial).symm
  refine ⟨?_, fun n => ?_, fun rest => ?_, fun id q hid => ?_⟩
  · rw [hget, hroot]
  · rw [hget]
    exact congrFun hstaging [n]
  · rw [hget]
    exact htemps rest []
  · exact runs_frame PayloadStore.newPayloadStore_confined h (hid.not_startRegion q)

/-- **Publication is all or nothing, and the two ways of publishing agree.**  `Save` of an id without a
    payload is stopped anywhere, and the store is started again: `Load` reports a missing payload or
    returns all of the message, nothing half-built is left, and a `Save` that succeeded has left the one
    directory `payloadView msg`, on whichever way it was put in place. -/
theorem save_all_or_nothing [Unicode] {W1 W2 : World} {p : Task Unit} (hid : Canonical (trimSpace id))
    (hfits : Fits msg) (hnone : W.files.get (payloadDir (trimSpace id)) = none)
    (hstopped : Prog.Moves exec (s.save id msg, W) (p, W1))
    (hstart : Prog.Runs exec s.newPayloadStore W1 tr (.ok ()) W2) (hhonest : HonestFiles tr) :
    (LoadsAs s W2 id (.error (missingPayload s (trimSpace id))) ∨
      LoadsAs s W2 id (.ok (storedMessage msg))) ∧
    (∀ n, W2.files.get (stagingRoot ++ [n]) = none) ∧
    (∀ rest, W2.files.get (payloadsRoot ++ [publishTempStart ++ rest]) = none) ∧
    (p = Prog.ret (.ok ()) → LoadsAs s W2 id (.ok (storedMessage msg)) ∧
      ∀ q, W1.files.get (payloadDir (trimSpace id) ++ q) = payloadView msg q) ∧
    (trimSpace msg.envelopeFrom = msg.envelopeFrom → trimSpace msg.headerFrom = msg.headerFrom →
      (∀ text ∈ messageTexts msg, Utf8.Valid text) → storedMessage msg = msg) := by
  obtain ⟨hroot, hstaging, htemps, hkept⟩ := newPayloadStore_runs hstart hhonest
  have hsaved := save_stopped hnone hstopped
  have hcomplete : CompleteAt W1.files (trimSpace id) msg →
      LoadsAs s W2 id (.ok (storedMessage msg)) := fun h =>
    load_complete hid (fun q => (hkept _ q hid).trans (h q)) hfits
  refine ⟨?_, hstaging, htemps, ?_, fun hfrom hheader => (storedMessage_eq_self hfrom hheader).mpr⟩
  · rcases hsaved.1 with habsent | h
    · refine Or.inl (load_missing hid hroot ?_)
      have hsame := hkept (trimSpace id) [] hid
      rw [append_nil] at hsame
      exact hsame.trans habsent
    · exact Or.inr (hcomplete h)
  · intro hp
    exact ⟨hcomplete (hsaved.2 hp), hsaved.2 hp⟩

/-- Staging is on another file system: nothing can be renamed out of it. -/
def crossDevice : Op → Choice
  | .fs (.rename sd _ _ _) => if sd = stagingRoot then .call (.fault .exdev) else .call .go
  | o => calm (.error .canceled) (.error .canceled) o

/-- A choice that is no lie about a missing file. -/
def honestChoice : Choice → Bool
  | .call (.fault .enoent) => false
  | _ => true

theorem honestFiles_of {tr : Trace}
    (h : tr.all (fun ev => honestChoice ev.choice) = true) : HonestFiles tr := by
  intro ev hev hx
  have hev' := all_eq_true.mp h ev hev
  rw [hx] at hev'
  nomatch hev'

/-- **A message published by copying**, and a start after it: the message is there. -/
theorem save_all_or_nothing_copied :
    letI := Unicode.ascii
    ∃ W W1 W2, W.files.get (payloadDir sampleID) = none ∧
      Prog.Moves exec (sampleStore.payloads.save sampleID withAttachment, W)
        (Prog.ret (.ok ()), W1) ∧
      (∃ tr, Prog.Runs exec sampleStore.payloads.newPayloadStore W1 tr (.ok ()) W2) ∧
      LoadsAs sampleStore.payloads W2 sampleID (.ok (storedMessage withAttachment)) ∧
      ∀ n, W2.files.get (stagingRoot ++ [n]) = none := by
  let _ := Unicode.ascii
  obtain ⟨out, tr, W2, hrun, hT⟩ := Prog.exists_runs_of_run (E := exec) crossDevice 400
    (do
      sampleStore.payloads.newPayloadStore
      sampleStore.payloads.save sampleID withAttachment
      sampleStore.payloads.newPayloadStore : Task Unit) (sampleWorld ⟨[], nodup_nil⟩)
    (fun x => x.1.toBool && x.2.1.all fun ev => honestChoice ev.choice) (by decide +kernel)
  obtain ⟨hok, hall⟩ := Bool.and_eq_true_iff.mp hT
  have hhonest := honestFiles_of hall
  rcases hrun.act_bind_inv with ⟨_, tr1, tr', W, rfl, hfirst, hrest⟩ | ⟨e, rfl, -⟩
  · rcases hrest.act_bind_inv with ⟨_, tr2, tr3, W1, rfl, hsave, hstart⟩ | ⟨e, rfl, -⟩
    · cases out with
      | error e => nomatch hok
      | ok u =>
        have hnone : W.files.get (payloadDir sampleID) = none := by
          have hkept := (newPayloadStore_runs hfirst fun ev hev => hhonest ev (by simp [hev])).2.2.2
            sampleID [] ⟨by decide, by decide, by decide⟩
          rw [append_nil] at hkept
          exact hkept.trans (by decide)
        have hend := save_all_or_nothing ⟨by decide, by decide, by decide⟩ (by decide) hnone
          hsave.moves_ret hstart fun ev hev => hhonest ev (by simp [hev])
        exact ⟨W, W1, W2, hnone, hsave.moves_ret, ⟨tr3, hstart⟩, (hend.2.2.2.1 rfl).1, hend.2.1⟩
    · nomatch hok
  · nomatch hok

end Restart

end SmtpCloudRelay.Spool
