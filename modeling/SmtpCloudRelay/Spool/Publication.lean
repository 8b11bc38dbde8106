/-
  PUBLICATION OF A PAYLOAD: what `Save` makes, and that it makes it at once.

  A complete payload is the directory `payloadView msg`: the manifest, and the attachment files if there
  are any.  Two ways lead there, a rename of the staged directory and, across file systems, a copy of it
  to a publish directory that is renamed then; both end with the SAME tree in place (`save_gives`).

  The last rename is the only step of `Save` that touches `payloads/<id>`, so at every moment the payload
  is what it was before or the complete one.  This is what a watch with `Whole` demands of every step,
  and `save_gives` holds of it.
-/
import SmtpCloudRelay.Spool.Watch

namespace SmtpCloudRelay.Spool

open Go Lib Act View

/-! ## A complete payload -/

/-- The files of the attachments from number `i` on, added to a directory. -/
def attachmentFiles : Nat → List Attachment → View GoString → View GoString
  | _, [], v => v
  | i, a :: as, v =>
    attachmentFiles (i + 1) as (v.graft [attachmentName i] (leaf (.file a.data)))

/-- A payload directory before the manifest is written. -/
def stagedAttachments : List Attachment → View GoString
  | [] => leaf .dir
  | as => (leaf .dir).graft [attachmentsDirName] (attachmentFiles 0 as (leaf .dir))

/-- The directory of a complete payload. -/
def payloadView (msg : Message) : View GoString :=
  (stagedAttachments msg.attachments).graft [messageFileName]
    (leaf (.file (Manifest.ofMessage msg).marshal))

theorem stagedAttachments_nil (as : List Attachment) : stagedAttachments as [] = some .dir := by
  cases as with
  | nil => rfl
  | cons a as => exact graft_other (by simp)

theorem payloadView_nil (msg : Message) : payloadView msg [] = some .dir := by
  have hgraft : payloadView msg [] = stagedAttachments msg.attachments [] := graft_other (by simp)
  rw [hgraft, stagedAttachments_nil]

/-! ## Renaming -/

namespace Watch

variable {w : Watch} {κ : Known w.region} {root : Root}

/-- A rename is allowed when what has to be kept survives it. -/
theorem ok_of_rename {sd dd : Path} {sn dn : GoString} (hs : Files.Seen w.region (sd ++ [sn]))
    (hd : Files.Seen w.region (dd ++ [dn]))
    (hkeep : ∀ κ' : Known w.region, Renamed (sd ++ [sn]) (dd ++ [dn]) κ.1 κ'.1 → w.keeps κ.1 →
      w.keeps κ'.1) : w.proto.ok κ (.fs (.rename sd sn dd dn)) := by
  refine ⟨?_, fun r κ' h hk => ?_⟩
  · rintro q (hq | hq)
    · exact hs q hq
    · exact hd q hq
  · rcases step_rename h hs hd with ⟨-, hren⟩ | ⟨-, rfl⟩
    · exact hkeep κ' hren hk
    · exact hk

/-- How a rename of a directory ends: it is done, or nothing has changed. -/
def DirectoryRenamed (src dst : Path) (κ : Known w.region) (out : Except GoError Unit)
    (κ' : Known w.region) : Prop :=
  match out with
  | .ok _ => κ.1 src = some .dir ∧ Renamed src dst κ.1 κ'.1
  | .error _ => κ' = κ

theorem renameDirectoryAt_safe {sd dd : Path} {sn dn : GoString}
    (hs : Files.Seen w.region (sd ++ [sn])) (hd : Files.Seen w.region (dd ++ [dn]))
    (hkeep : ∀ κ' : Known w.region, Renamed (sd ++ [sn]) (dd ++ [dn]) κ.1 κ'.1 → w.keeps κ.1 →
      w.keeps κ'.1) :
    (renameDirectoryAt sd sn dd dn).Safe w.proto
      (DirectoryRenamed (sd ++ [sn]) (dd ++ [dn]) κ) κ := by
  have hq : Confined NoRegion (.fs (.stat (sd ++ [sn]))) := fun q hq => nomatch hq
  have hstat : (sysRaw (.stat (sd ++ [sn]))).Safe w.proto (fun out κ' => κ' = κ ∧
      ∀ k : Kind, out = .ok k → ∃ node, κ.1 (sd ++ [sn]) = some node ∧ node.kind = k) κ := by
    refine Safe.mapError (P := w.step κ (.fs (.stat (sd ++ [sn]))))
      ⟨ok_of_quiet hq, fun r κ' h => h⟩ ?_ ?_
    · intro k κ' h
      refine ⟨step_quiet h hq, fun k' hk => ?_⟩
      cases hk
      exact step_stat h hs.self
    · intro e κ' h
      exact ⟨step_quiet h hq, fun k hk => nomatch hk⟩
  refine Safe.bind hstat ?_ fun e κ' h => h.1
  rintro k κ' ⟨rfl, hk⟩
  obtain ⟨node, hnode, hkind⟩ := hk k rfl
  cases k with
  | dir =>
    refine Safe.mapError (P := w.step κ' (.fs (.rename sd sn dd dn)))
      ⟨ok_of_rename hs hd hkeep, fun r κ'' h => h⟩ ?_ ?_
    · intro u κ'' h
      rcases step_rename h hs hd with ⟨-, hren⟩ | ⟨⟨e, he⟩, -⟩
      · rw [kind_dir hkind] at hnode
        exact ⟨hnode, hren⟩
      · nomatch he
    · intro e κ'' h
      rcases step_rename h hs hd with ⟨hr, -⟩ | ⟨-, rfl⟩
      · nomatch hr
      · exact rfl
  | reg | other => exact rfl

/-! ## Staging -/

variable {s : PayloadStore}

theorem writeAttachments_gives {d : Path} (hf : ∀ n, w.Free (d ++ [n])) (i : Nat)
    (as : List Attachment) :
    (s.writeAttachments d i as).Safe w.proto (Gives fun _ κ' =>
      κ'.1 = κ.1.graft d (attachmentFiles i as (κ.1.sub d))) κ := by
  induction as generalizing i κ with
  | nil => exact (graft_sub κ.1 d).symm
  | cons a as ih =>
    refine Safe.gives_bind (writeRegularFileAt_gives hf) fun _ κ1 hκ1 => ?_
    refine (ih (i + 1)).gives_mono fun _ κ2 hκ2 => ?_
    rw [hκ2, hκ1, graft_above, sub_graft_above]
    rfl

theorem stageAttachments_gives {stage : Path} (hf : w.Free stage)
    (hempty : κ.1.sub stage = leaf .dir) (as : List Attachment) :
    (s.stageAttachments stage as).Safe w.proto (Gives fun _ κ' =>
      κ'.1 = κ.1.graft stage (stagedAttachments as)) κ := by
  cases as with
  | nil => exact (graft_of_sub hempty).symm
  | cons a as =>
    refine Safe.gives_bind (createDirectoryAt_gives (hf.append [attachmentsDirName])) ?_
    rintro _ κ1 ⟨-, hκ1⟩
    refine Safe.gives_bind (writeAttachments_gives (fun n => ?_) 0 (a :: as)) fun _ κ2 hκ2 => ?_
    · rw [List.append_assoc]
      exact hf.append _
    rw [hκ1, graft_graft, sub_graft, graft_append_path, hempty] at hκ2
    refine quiet_bind syncFD_confined fun _ => quiet_gives quiet_confined fun _ => ?_
    exact hκ2

/-- Everything that `Save` stages is in the staged directory. -/
theorem stage_gives {stage : Path} (hf : w.Free stage) (hempty : κ.1.sub stage = leaf .dir)
    (msg : Message) {rest : Task Unit} {Q : Unit → Known w.region → Prop}
    (hrest : ∀ κ' : Known w.region, κ'.1.sub stage = payloadView msg →
      rest.Safe w.proto (Gives Q) κ') :
    (do
      s.stageAttachments stage msg.attachments
      writeRegularFileAt s.root stage messageFileName (Manifest.ofMessage msg).marshal
      syncFD s.root stage
      rest : Task Unit).Safe w.proto (Gives Q) κ := by
  refine Safe.gives_bind (stageAttachments_gives hf hempty _) fun _ κ1 hκ1 => ?_
  refine Safe.gives_bind (writeRegularFileAt_gives fun n => hf.append [n]) fun _ κ2 hκ2 => ?_
  refine quiet_bind syncFD_confined fun _ => hrest κ2 ?_
  rw [hκ2, hκ1, graft_below, sub_graft]
  rfl

/-! ## Publishing -/

/-- What a watch has to see and to allow for the message to be saved under `id`. -/
structure ForSave (w : Watch) (id : GoString) (msg : Message) : Prop where
  stage : ∀ suffix, w.Free (stagingRoot ++ [stageName id suffix])
  temp : ∀ suffix, w.Free (payloadsRoot ++ [publishTempName id suffix])
  place : Files.Seen w.region (payloadDir id)
  whole : ∀ v : View GoString, w.keeps v → w.keeps (v.graft (payloadDir id) (payloadView msg))

/-- The rename that puts a finished directory in place. -/
theorem ForSave.rename {id : GoString} {msg : Message} (h : w.ForSave id msg) {src : Path}
    (hsrc : w.Free src) (hfull : κ.1.sub src = payloadView msg) (κ' : Known w.region)
    (hren : Renamed src (payloadDir id) κ.1 κ'.1) (hk : w.keeps κ.1) : w.keeps κ'.1 := by
  obtain ⟨-, ⟨-, hκ'⟩ | ⟨-, hκ'⟩⟩ := hren
  · rw [hκ']
    exact hk
  · rw [hκ', hfull]
    exact h.whole _ (hsrc.keep κ.1 _ (fun q hq => graft_other hq) hk)

/-- A directory that was renamed is in place. -/
theorem renamed_sub {src dst : Path} {v v' u : View GoString} (h : Renamed src dst v v')
    (hfull : v.sub src = u) : v'.sub dst = u := by
  obtain ⟨-, ⟨rfl, rfl⟩ | ⟨-, rfl⟩⟩ := h
  · exact hfull
  · rw [sub_graft]
    exact hfull

variable {id stage : GoString} {msg : Message}

/-- The payload in place stays in place while things elsewhere are cleaned up. -/
theorem within_gives {D : Path} (hD : w.Free D) (hap : Apart D (payloadDir id))
    {p : Task Unit} (hp : p.Uses (Confined (Below D)))
    (hplace : κ.1.sub (payloadDir id) = payloadView msg) :
    p.Safe w.proto (Gives fun _ κ' => κ'.1.sub (payloadDir id) = payloadView msg) κ := by
  refine Safe.mono ?_ (within hD hp)
  intro out κ' hframe
  cases out with
  | error e => trivial
  | ok u =>
    show κ'.1.sub (payloadDir id) = _
    rw [← hplace]
    funext q
    exact hframe _ (hap.symm.not_below (List.prefix_append _ _))

theorem roots_apart : Apart stagingRoot payloadsRoot := by
  constructor <;> decide

theorem staging_apart (stage id : GoString) : Apart (stagingRoot ++ [stage]) (payloadDir id) :=
  roots_apart.below (List.prefix_append _ _) (List.prefix_append _ _)

theorem publishViaPayloadTemp_gives (h : w.ForSave id msg)
    (hstage : w.Free (stagingRoot ++ [stage]))
    (hfull : κ.1.sub (stagingRoot ++ [stage]) = payloadView msg) :
    (s.publishViaPayloadTemp stage id).Safe w.proto (Gives fun _ κ' =>
      κ'.1.sub (payloadDir id) = payloadView msg) κ := by
  refine Safe.gives_bind (createUniqueDirectoryAt_gives h.temp 16) ?_
  rintro _ κ1 ⟨suffix, rfl, -, hκ1⟩
  have htemp := h.temp suffix
  have hap : Apart (stagingRoot ++ [stage]) (payloadsRoot ++ [publishTempName id suffix]) :=
    staging_apart stage _
  have hempty : κ1.1.sub (payloadsRoot ++ [publishTempName id suffix]) = leaf .dir := by
    rw [hκ1, sub_graft]
  have hstaged : κ1.1.sub (stagingRoot ++ [stage]) = payloadView msg := by
    rw [hκ1, sub_graft_apart hap.symm, hfull]
  refine Safe.gives_bind (Safe.gives_onFail ?_ fun κ' =>
    cleans htemp (discardEntry_confined fun q hq => hq)) fun _ κ2 hκ2 =>
      within_gives hstage (staging_apart stage id) (discardEntry_confined fun q hq => hq) hκ2
  refine Safe.gives_bind (copyDirectoryContentsAt_gives hstage.seen htemp hap hempty) ?_
  intro _ κ2 hκ2
  have hcopied : κ2.1.sub (payloadsRoot ++ [publishTempName id suffix]) = payloadView msg := by
    rw [hκ2, sub_graft, hstaged]
  refine Safe.bind (renameDirectoryAt_safe htemp.seen h.place (h.rename htemp hcopied)) ?_
    fun _ _ _ => trivial
  rintro _ κ3 ⟨-, hren⟩
  exact quiet_gives syncFD_confined fun _ => renamed_sub hren hcopied

/-- **Both ways of publishing put the same directory in place.** -/
theorem publish_gives (h : w.ForSave id msg) (hstage : w.Free (stagingRoot ++ [stage]))
    (hfull : κ.1.sub (stagingRoot ++ [stage]) = payloadView msg) :
    (s.publish stage id).Safe w.proto (Gives fun _ κ' =>
      κ'.1.sub (payloadDir id) = payloadView msg) κ := by
  refine Safe.gives_attempt_bind
    (renameDirectoryAt_safe hstage.seen h.place (h.rename hstage hfull)) ?_
  intro renamed κ' hren
  cases renamed with
  | ok u =>
    have hplace : κ'.1.sub (payloadDir id) = payloadView msg := renamed_sub hren.2 hfull
    exact quiet_bind syncFD_confined fun _ => quiet_gives syncFD_confined fun _ => hplace
  | error e =>
    obtain rfl : κ' = κ := hren
    show Safe _ _ (if isCrossDeviceError e then _ else _) _
    split
    · exact (publishViaPayloadTemp_gives h hstage hfull).gives_mapError
    · trivial

variable [Unicode]

/-- **What `Save` leaves when it succeeds is the complete payload**, and every single step of it keeps
    what the watch demands. -/
theorem save_gives (h : Canonical (trimSpace id) → w.ForSave (trimSpace id) msg) :
    (s.save id msg).Safe w.proto (Gives fun _ κ' =>
      κ'.1.sub (payloadDir (trimSpace id)) = payloadView msg) κ := by
  refine Safe.gives_lift_bind fun _ hid => ?_
  have hsave := h (validateCanonicalRecordID_ok.mp hid)
  refine quiet_bind openRootOr_confined fun _ => quiet_bind openDir_confined fun _ =>
    quiet_bind openDir_confined fun _ => quiet_bind entryModeAt_confined.mapError fun mode => ?_
  rcases mode with _ | k
  · refine Safe.gives_bind (createUniqueDirectoryAt_gives hsave.stage 16) ?_
    rintro _ κ1 ⟨suffix, rfl, -, hκ1⟩
    have hstage := hsave.stage suffix
    refine Safe.gives_onFail (stage_gives hstage ?_ msg fun κ2 hκ2 =>
      publish_gives hsave hstage hκ2) fun κ' => cleans hstage (discardEntry_confined fun q hq => hq)
    rw [hκ1, sub_graft]
  · cases k with
    | dir | reg | other => trivial

end Watch

end SmtpCloudRelay.Spool
