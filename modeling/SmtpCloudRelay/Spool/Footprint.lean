/-
  FOOTPRINTS: which part of the tree a program of the payload store can change.

  `Confined R` are the steps that leave every path outside `R` as it is.  Each program of the payload
  store is confined to a region that its arguments determine, whatever the outside answers, and the
  regions are what keeps the parts of the relay out of each other's way:

  * loading is confined to nothing;
  * saving `id` to its own staging and publish directories and to `payloads/<id>`;
  * removing `id` to `payloads/<id>`;
  * the start-up cleaning to `staging/`, to publish directories and to the three roots themselves;
  * quarantining to `payload-orphans/` and to payloads whose id is not in the given list.
-/
import SmtpCloudRelay.Spool.Store

namespace SmtpCloudRelay.Spool

open Go Lib Act List

/-- A step of the payload store that changes no path outside `R`. -/
def Confined (R : Path → Prop) : Op → Prop
  | .fs c => ∀ q, c.Touches q → R q
  | .suffix => True
  | .openRoot => True
  | _ => False

theorem Confined.mono {R R' : Path → Prop} (hR : ∀ q, R q → R' q) (o : Op) (h : Confined R o) :
    Confined R' o := by
  cases o with
  | fs c => exact fun q hq => hR q (h q hq)
  | _ => exact h

theorem Confined.isTx {R : Path → Prop} {o : Op} (h : Confined R o) : o.isTx = false := by
  cases o with
  | tx t => nomatch h
  | _ => rfl

theorem Confined.isCall {R : Path → Prop} {o : Op} (h : Confined R o) : o.isCall = false := by
  cases o with
  | submit msg id | poll id op => nomatch h
  | _ => rfl

/-- At or below a path. -/
abbrev Below (p q : Path) : Prop := p <+: q

variable {R : Path → Prop} {root : Root}

/-! ## Single calls -/

variable {c : Call GoString} {P : Op → Prop} {before name : GoString} {p d : Path}

theorem sys_confined (h : ∀ q, c.Touches q → R q) : (sys c).Uses (Confined R) :=
  uses_step h fun _ => trivial

theorem sysRaw_confined (h : ∀ q, c.Touches q → R q) : (sysRaw c).Uses (Confined R) :=
  (sys_confined h).mapError

theorem sysOr_uses (h : P (.fs c)) : (sysOr before c).Uses P :=
  Uses.mapError (uses_step h fun _ => trivial)

theorem sysOr_confined (h : ∀ q, c.Touches q → R q) : (sysOr before c).Uses (Confined R) :=
  sysOr_uses h

theorem newSuffix_confined : newSuffix.Uses (Confined R) := uses_step trivial fun _ => trivial

theorem openRootOr_confined : (openRootOr before).Uses (Confined R) :=
  Uses.mapError (uses_step trivial fun _ => trivial)

theorem check_uses (x : Except GoError Unit) : (check x).Uses P := uses_lift _ x

theorem syncFD_confined : (syncFD root p).Uses (Confined R) :=
  sysOr_confined nofun

theorem openDir_confined : (sysOr before (.openDir p)).Uses (Confined R) :=
  sysOr_confined nofun

theorem quiet_confined : (sysOr before (.quiet p)).Uses (Confined R) :=
  sysOr_confined nofun

theorem openDirectoryAtNoFollow_confined : (openDirectoryAtNoFollow p).Uses (Confined R) :=
  sysRaw_confined nofun

theorem forEach_uses {α : Type} {f : α → Task Unit} {as : List α} (hf : ∀ a ∈ as, (f a).Uses P) :
    (forEach f as).Uses P := by
  induction as with
  | nil => exact uses_pure _
  | cons a as ih =>
    refine Uses.bind (hf a (mem_cons_self ..)) fun _ => ih ?_
    exact fun a' ha' => hf a' (mem_cons_of_mem _ ha')

/-! ## Making directories and files -/

/-- The rule for a loop over a list: an invariant of what has been done, and what holds when a round
    fails. -/
theorem forEach_safe {K : Type} {L : Proto spoolSig K} {α : Type} {f : α → Task Unit} {as : List α}
    {κ : K} (I : List α → K → Prop) {F : GoError → K → Prop} (hstart : I [] κ)
    (hstep : ∀ done a rest κ', as = done ++ a :: rest → I done κ' →
      (f a).Safe L (fun out κ'' => match out with
        | .ok _ => I (done ++ [a]) κ''
        | .error e => F e κ'') κ') :
    (forEach f as).Safe L (fun out κ' => match out with
      | .ok _ => I as κ'
      | .error e => F e κ') κ := by
  -- on the rounds that are left
  have hgen : ∀ rest done κ', as = done ++ rest → I done κ' →
      (forEach f rest).Safe L (fun out κ'' => match out with
        | .ok _ => I as κ''
        | .error e => F e κ'') κ' := by
    intro rest
    induction rest with
    | nil =>
      intro done κ' has hI
      rw [append_nil] at has
      rw [has]
      exact hI
    | cons a rest ih =>
      intro done κ' has hI
      refine Safe.bind (hstep done a rest κ' has hI) (fun _ κ'' hI' => ?_) fun _ _ h => h
      exact ih (done ++ [a]) κ'' (by rw [has, append_assoc, singleton_append]) hI'
  exact hgen as [] κ rfl hstart

theorem settleDirectoryAt_confined : (settleDirectoryAt root d name).Uses (Confined R) :=
  openDir_confined.bind fun _ => quiet_confined.bind fun _ => syncFD_confined.bind fun _ =>
    syncFD_confined

theorem createDirectoryAt_confined (h : R (d ++ [name])) :
    (createDirectoryAt root d name).Uses (Confined R) := by
  refine Uses.bind (sysOr_confined ?_) fun _ => settleDirectoryAt_confined
  rintro q rfl
  exact h

theorem ensureDirectoryAt_confined (h : R (d ++ [name])) :
    (ensureDirectoryAt root d name).Uses (Confined R) := by
  refine Uses.bind (sys_confined ?_).attempt fun made => ?_
  · rintro q rfl
    exact h
  · rcases made with e | u
    · cases e with
      | eexist =>
        exact openDir_confined.bind fun _ => quiet_confined.bind fun _ => syncFD_confined
      | _ => exact uses_fail _
    · exact settleDirectoryAt_confined

/-- A program that makes a directory of its own with a random name answers such a name. -/
def NamedBy (nameOf : GoString → GoString) (out : Except GoError GoString) (_ : Unit) : Prop :=
  ∀ name, out = .ok name → ∃ suffix, name = nameOf suffix

theorem createUniqueDirectoryAt_confined {nameOf : GoString → GoString}
    {noSuffix exhausted : GoString} (h : ∀ suffix, R (d ++ [nameOf suffix])) (left : Nat) :
    (createUniqueDirectoryAt root d nameOf noSuffix exhausted left).Safe (.only (Confined R))
      (NamedBy nameOf) () := by
  have herr : ∀ e κ, NamedBy nameOf (.error e) κ := fun e κ name hname => nomatch hname
  induction left with
  | zero => exact herr _ _
  | succ left ih =>
    refine Safe.bind newSuffix_confined.mapError (fun suffix _ _ => ?_) fun e κ _ => herr e κ
    refine Safe.bind (sys_confined ?_).attempt (fun made _ _ => ?_) fun e κ _ => herr e κ
    · rintro q rfl
      exact h suffix
    · rcases made with e | u
      · cases e with
        | eexist => exact ih
        | _ => exact herr _ _
      · refine Safe.bind settleDirectoryAt_confined (fun _ _ _ => ?_) fun e κ _ => herr e κ
        intro name hname
        exact ⟨suffix, (Except.ok.inj hname).symm⟩

theorem uniqueTempName_confined (left : Nat) : (uniqueTempName d left).Uses (Confined R) := by
  induction left with
  | zero => exact uses_fail _
  | succ left ih =>
    refine Uses.bind newSuffix_confined fun suffix => ?_
    refine Uses.bind (sys_confined nofun).attempt fun found => ?_
    rcases found with e | k
    · cases e with
      | enoent => exact uses_pure _
      | _ => exact uses_fail _
    · exact ih

theorem writeRegularFileAt_confined {data : List UInt8} (h : ∀ n q, Below (d ++ [n]) q → R q) :
    (writeRegularFileAt root d name data).Uses (Confined R) := by
  refine Uses.bind (uniqueTempName_confined _).mapError fun tmp => ?_
  refine Uses.bind (Uses.onFail ?_ ?_) fun _ => syncFD_confined
  · refine Uses.bind (sysOr_confined ?_) fun _ => ?_
    · rintro q rfl
      exact h tmp _ (prefix_refl _)
    refine Uses.bind (sysOr_confined ?_) fun _ => ?_
    · rintro q rfl
      exact h tmp _ (prefix_refl _)
    refine quiet_confined.bind fun _ => quiet_confined.bind fun _ => quiet_confined.bind fun _ => ?_
    refine sysOr_confined ?_
    rintro q (hq | hq)
    · exact h tmp q hq
    · exact h name q hq
  · refine sys_confined ?_
    rintro q rfl
    exact h tmp _ (prefix_refl _)

/-! ## Reading -/

theorem readRegularFileAtNoFollow_confined : (readRegularFileAtNoFollow p).Uses (Confined R) := by
  refine Uses.bind (sysRaw_confined nofun) fun data => ?_
  rcases data with _ | bytes
  · exact uses_fail _
  · exact uses_pure _

theorem readDirectoryEntriesFD_confined : (readDirectoryEntriesFD p).Uses (Confined R) :=
  Uses.bind (sysRaw_confined nofun) fun _ => sysRaw_confined nofun

theorem entryModeAt_uses (h : P (.fs (.stat p))) : (entryModeAt p).Uses P := by
  refine Uses.bind (Uses.attempt (uses_step h fun r => trivial)) fun mode => ?_
  rcases mode with e | k
  · cases e with
    | enoent => exact uses_pure _
    | _ => exact uses_fail _
  · exact uses_pure _

theorem entryModeAt_confined : (entryModeAt p).Uses (Confined R) :=
  entryModeAt_uses nofun

/-! ## Removing and copying trees -/

/-- Removing an entry is confined to what is at and below it. -/
theorem removeEntry_confined {contents : Path → Task Unit} (h : R (d ++ [name]))
    (hc : (contents (d ++ [name])).Uses (Confined R)) :
    (removeEntry root contents d name).Uses (Confined R) := by
  refine Uses.bind entryModeAt_confined.mapError fun mode => ?_
  rcases mode with _ | k
  · exact uses_pure _
  cases k with
  | dir =>
    refine openDir_confined.bind fun _ => hc.bind fun _ => quiet_confined.bind fun _ => ?_
    refine sysOr_confined ?_
    rintro q rfl
    exact h
  | reg =>
    refine sysOr_confined ?_
    rintro q rfl
    exact h
  | other => exact uses_fail _

/-- Removing the contents of a directory is confined to what is below its entries. -/
theorem removeTreeContents_confined (h : ∀ n q, Below (p ++ [n]) q → R q) (depth : Nat) :
    (removeTreeContents root depth p).Uses (Confined R) := by
  induction depth generalizing p with
  | zero => exact Safe.diverge
  | succ depth ih =>
    refine Uses.bind readDirectoryEntriesFD_confined.mapError fun entries => ?_
    refine forEach_uses fun name _ => removeEntry_confined (h name _ (prefix_refl _)) (ih ?_)
    exact fun n q hq => h name q ((prefix_append _ _).trans hq)

theorem removeEntryTreeAt_confined (h : ∀ q, Below (d ++ [name]) q → R q) :
    (removeEntryTreeAt root d name).Uses (Confined R) :=
  removeEntry_confined (h _ (prefix_refl _)) (removeTreeContents_confined
    (fun _ q hq => h q ((prefix_append _ _).trans hq)) _)

theorem discardEntry_confined (h : ∀ q, Below (d ++ [name]) q → R q) :
    (discardEntry root d name).Uses (Confined R) :=
  (removeEntryTreeAt_confined h).ignore.bind fun _ => syncFD_confined.ignore

theorem copyTree_confined {entries : Path → Path → Task Unit} {sd td : Path} {sn tn : GoString}
    (h : ∀ q, Below (td ++ [tn]) q → R q)
    (hc : (entries (sd ++ [sn]) (td ++ [tn])).Uses (Confined R)) :
    (copyTree root entries sd sn td tn).Uses (Confined R) := by
  refine Uses.bind (createDirectoryAt_confined (h _ (prefix_refl _))) fun _ => ?_
  refine Uses.onFail ?_ (discardEntry_confined h)
  exact openDir_confined.bind fun _ => hc.bind fun _ => syncFD_confined

/-- Copying is confined to what is below the target. -/
theorem copyEntries_confined {source target : Path} (h : ∀ q, Below target q → R q) (depth : Nat) :
    (copyEntries root depth source target).Uses (Confined R) := by
  induction depth generalizing source target with
  | zero => exact Safe.diverge
  | succ depth ih =>
    have hbelow : ∀ n q, Below (target ++ [n]) q → R q :=
      fun n q hq => h q ((prefix_append _ _).trans hq)
    refine Uses.bind readDirectoryEntriesFD_confined.mapError fun entries => ?_
    refine forEach_uses fun name _ => ?_
    refine Uses.bind entryModeAt_confined.mapError fun mode => ?_
    rcases mode with _ | k
    · exact uses_fail _
    cases k with
    | dir => exact copyTree_confined (hbelow name) (ih (hbelow name))
    | reg =>
      refine Uses.bind readRegularFileAtNoFollow_confined.mapError fun data => ?_
      exact writeRegularFileAt_confined hbelow
    | other => exact uses_fail _

theorem copyDirectoryContentsAt_confined {source target : Path} (h : ∀ q, Below target q → R q) :
    (copyDirectoryContentsAt root source target).Uses (Confined R) :=
  openDir_confined.bind fun _ => openDir_confined.bind fun _ => copyEntries_confined h _

theorem renameDirectoryAt_confined {sd dd : Path} {sn dn : GoString}
    (hs : ∀ q, Below (sd ++ [sn]) q → R q) (hd : ∀ q, Below (dd ++ [dn]) q → R q) :
    (renameDirectoryAt sd sn dd dn).Uses (Confined R) := by
  refine Uses.bind (sysRaw_confined nofun) fun mode => ?_
  cases mode with
  | dir =>
    refine sysRaw_confined ?_
    rintro q (hq | hq)
    · exact hs q hq
    · exact hd q hq
  | _ => exact uses_fail _

theorem uniqueQuarantineNameAt_confined : (uniqueQuarantineNameAt d name).Uses (Confined R) := by
  refine Uses.forever fun st => ?_
  refine Uses.bind (sys_confined nofun).attempt fun found => ?_
  rcases found with e | k
  · cases e with
    | enoent => exact uses_pure _
    | _ => exact uses_fail _
  · exact uses_pure _

/-! ## The payload store -/

/-- What saving `id` may change. -/
def SaveRegion (id : GoString) (q : Path) : Prop :=
  (∃ suffix, Below (stagingRoot ++ [stageName id suffix]) q) ∨
  (∃ suffix, Below (payloadsRoot ++ [publishTempName id suffix]) q) ∨ Below (payloadDir id) q

/-- What the start-up cleaning may change. -/
def StartRegion (q : Path) : Prop :=
  Below stagingRoot q ∨ (∃ rest, Below (payloadsRoot ++ [publishTempStart ++ rest]) q) ∨
    q = payloadsRoot ∨ q = orphanRoot

/-- What quarantining may change, for the ids that have a record. -/
def QuarantineRegion (validIDs : List GoString) (q : Path) : Prop :=
  Below orphanRoot q ∨ ∃ name, name ∉ validIDs ∧ Below (payloadsRoot ++ [name]) q

/-- Nothing at all. -/
def NoRegion (_ : Path) : Prop := False

namespace PayloadStore

variable {s : PayloadStore}

theorem writeAttachments_confined {d : Path} (h : ∀ n q, Below (d ++ [n]) q → R q) (i : Nat)
    (as : List Attachment) : (s.writeAttachments d i as).Uses (Confined R) := by
  induction as generalizing i with
  | nil => exact uses_pure _
  | cons a as ih => exact (writeRegularFileAt_confined h).bind fun _ => ih (i + 1)

theorem stageAttachments_confined {stage : Path} (h : ∀ q, Below stage q → R q)
    (as : List Attachment) : (s.stageAttachments stage as).Uses (Confined R) := by
  cases as with
  | nil => exact uses_pure _
  | cons a as =>
    refine Uses.bind (createDirectoryAt_confined (h _ (prefix_append _ _))) fun _ => ?_
    refine Uses.bind (writeAttachments_confined ?_ 0 _) fun _ => ?_
    · exact fun n q hq =>
        h q ((prefix_append _ _).trans ((prefix_append _ _).trans hq))
    · exact syncFD_confined.bind fun _ => quiet_confined

theorem publishViaPayloadTemp_confined {stage id : GoString}
    (hstage : ∀ q, Below (stagingRoot ++ [stage]) q → SaveRegion id q) :
    (s.publishViaPayloadTemp stage id).Uses (Confined (SaveRegion id)) := by
  refine Safe.bind (createUniqueDirectoryAt_confined (fun suffix => ?_) 16) ?_ fun _ _ _ => trivial
  · exact Or.inr (Or.inl ⟨suffix, prefix_refl _⟩)
  rintro temp _ htemp
  obtain ⟨suffix, rfl⟩ := htemp temp rfl
  have htemp : ∀ q, Below (payloadsRoot ++ [publishTempName id suffix]) q → SaveRegion id q :=
    fun q hq => Or.inr (Or.inl ⟨suffix, hq⟩)
  refine Uses.bind (Uses.onFail ?_ (discardEntry_confined htemp)) fun _ =>
    discardEntry_confined hstage
  refine Uses.bind (copyDirectoryContentsAt_confined htemp) fun _ => ?_
  refine Uses.bind (renameDirectoryAt_confined htemp ?_) fun _ => syncFD_confined
  exact fun q hq => Or.inr (Or.inr hq)

theorem publish_confined {stage id : GoString}
    (hstage : ∀ q, Below (stagingRoot ++ [stage]) q → SaveRegion id q) :
    (s.publish stage id).Uses (Confined (SaveRegion id)) := by
  refine Uses.bind (renameDirectoryAt_confined hstage ?_).attempt fun renamed => ?_
  · exact fun q hq => Or.inr (Or.inr hq)
  rcases renamed with e | u
  · show Uses _ (if isCrossDeviceError e then _ else _)
    split
    · exact (publishViaPayloadTemp_confined hstage).mapError
    · exact uses_fail _
  · exact syncFD_confined.bind fun _ => syncFD_confined

variable [Unicode]

/-- **Saving a message changes only the directories of its id.** -/
theorem save_confined (id : GoString) (msg : Message) :
    (s.save id msg).Uses (Confined (SaveRegion (trimSpace id))) := by
  refine (check_uses _).bind fun _ => openRootOr_confined.bind fun _ =>
    openDir_confined.bind fun _ => openDir_confined.bind fun _ => ?_
  refine Uses.bind entryModeAt_confined.mapError fun mode => ?_
  rcases mode with _ | k
  · refine Safe.bind (createUniqueDirectoryAt_confined (fun suffix => ?_) 16) ?_
      fun _ _ _ => trivial
    · exact Or.inl ⟨suffix, prefix_refl _⟩
    rintro stage _ hstage
    obtain ⟨suffix, rfl⟩ := hstage stage rfl
    have hstage : ∀ q, Below (stagingRoot ++ [stageName (trimSpace id) suffix]) q →
        SaveRegion (trimSpace id) q := fun q hq => Or.inl ⟨suffix, hq⟩
    refine Uses.onFail ?_ (discardEntry_confined hstage)
    refine Uses.bind (stageAttachments_confined hstage _) fun _ => ?_
    refine Uses.bind (writeRegularFileAt_confined ?_) fun _ => ?_
    · exact fun n q hq => hstage q ((prefix_append _ _).trans hq)
    · exact syncFD_confined.bind fun _ => publish_confined hstage
  · cases k with
    | dir | _ => exact uses_fail _

theorem loadAttachments_confined (id : GoString) (i : Nat) (refs : List AttachmentRef) :
    (s.loadAttachments id i refs).Uses (Confined NoRegion) := by
  induction refs generalizing i with
  | nil => exact uses_pure _
  | cons ref refs ih =>
    refine (check_uses _).bind fun _ => ?_
    refine Uses.bind readRegularFileAtNoFollow_confined.mapError fun data => ?_
    refine (check_uses _).bind fun _ => (check_uses _).bind fun _ => ?_
    exact Uses.bind (ih (i + 1)) fun rest => uses_pure _

/-- **Loading a message changes nothing.** -/
theorem load_confined (id : GoString) : (s.load id).Uses (Confined NoRegion) := by
  refine (check_uses _).bind fun _ => openRootOr_confined.bind fun _ =>
    openDir_confined.bind fun _ => ?_
  refine Uses.bind openDirectoryAtNoFollow_confined.mapError fun _ => ?_
  refine Uses.bind readRegularFileAtNoFollow_confined.mapError fun data => ?_
  cases Manifest.unmarshal data with
  | none => exact uses_fail _
  | some m =>
    refine Uses.bind ?_ fun _ => Uses.bind (loadAttachments_confined _ 0 _) fun _ => uses_pure _
    cases hm : m.attachments with
    | nil => exact uses_pure _
    | cons ref refs => exact openDirectoryAtNoFollow_confined.mapError

/-- **Removing a message changes only its payload directory.** -/
theorem remove_confined (id : GoString) :
    (s.remove id).Uses (Confined (Below (payloadDir (trimSpace id)))) :=
  (check_uses _).bind fun _ => openRootOr_confined.bind fun _ => openDir_confined.bind fun _ =>
    Uses.bind (removeEntryTreeAt_confined fun _ hq => hq) fun _ => syncFD_confined

omit [Unicode] in
theorem moveOrphan_confined {validIDs : List GoString} {name target : GoString}
    (h : name ∉ validIDs) : (s.moveOrphan name target).Uses (Confined (QuarantineRegion validIDs)) := by
  have hname : ∀ q, Below (payloadsRoot ++ [name]) q → QuarantineRegion validIDs q :=
    fun q hq => Or.inr ⟨name, h, hq⟩
  have htarget : ∀ q, Below (orphanRoot ++ [target]) q → QuarantineRegion validIDs q :=
    fun q hq => Or.inl ((prefix_append _ _).trans hq)
  refine Uses.bind (renameDirectoryAt_confined hname htarget).attempt fun moved => ?_
  rcases moved with e | u
  · show Uses _ (if isCrossDeviceError e then _ else _)
    split
    · refine Uses.mapError (Uses.bind (copyTree_confined htarget ?_) fun _ => ?_)
      · exact copyEntries_confined htarget _
      · exact (removeEntryTreeAt_confined hname).onFail (discardEntry_confined htarget)
    · exact uses_fail _
  · exact uses_pure _

theorem quarantineEntry_confined (validIDs : List GoString) (name : GoString) :
    (s.quarantineEntry validIDs name).Uses (Confined (QuarantineRegion validIDs)) := by
  refine (check_uses _).bind fun _ => Uses.bind entryModeAt_confined.mapError fun mode => ?_
  rcases mode with _ | k
  · exact uses_fail _
  cases k with
  | dir =>
    show Uses _ (if name ∈ validIDs then _ else _)
    split
    · exact uses_pure _
    · rename_i hname
      refine Uses.bind uniqueQuarantineNameAt_confined.mapError fun target => ?_
      refine (moveOrphan_confined hname).bind fun _ => ?_
      exact syncFD_confined.bind fun _ => syncFD_confined.bind fun _ => uses_pure _
  | _ => exact uses_fail _

/-- **Quarantining leaves the payloads of the given ids alone.** -/
theorem quarantineOrphans_confined (validIDs : List GoString) :
    (s.quarantineOrphans validIDs).Uses (Confined (QuarantineRegion validIDs)) := by
  have hentries : ∀ names, (s.quarantineEntries validIDs names).Uses
      (Confined (QuarantineRegion validIDs)) := by
    intro names
    induction names with
    | nil => exact uses_pure _
    | cons name names ih =>
      exact (quarantineEntry_confined validIDs name).bind fun _ => ih.bind fun _ => uses_pure _
  refine openRootOr_confined.bind fun _ => openDir_confined.bind fun _ =>
    openDir_confined.bind fun _ => ?_
  exact Uses.bind readDirectoryEntriesFD_confined.mapError hentries

omit [Unicode] in
theorem cleanupPayloadTemps_confined : s.cleanupPayloadTemps.Uses (Confined StartRegion) := by
  refine Uses.bind readDirectoryEntriesFD_confined.mapError fun entries => ?_
  refine Uses.bind (forEach_uses fun name hname => ?_) fun _ => ?_
  · -- the name has the prefix of publish directories
    obtain ⟨rest, rfl⟩ := isPrefixOf_iff_prefix.mp (of_mem_filter hname)
    exact (removeEntryTreeAt_confined fun q hq => Or.inr (Or.inl ⟨rest, hq⟩)).mapError
  · split
    · exact uses_pure _
    · exact syncFD_confined

omit [Unicode] in
/-- **Starting up leaves every published payload alone.** -/
theorem newPayloadStore_confined : s.newPayloadStore.Uses (Confined StartRegion) := by
  refine (check_uses _).bind fun _ => openRootOr_confined.bind fun _ => ?_
  refine (ensureDirectoryAt_confined (Or.inr (Or.inr (Or.inl rfl)))).bind fun _ => ?_
  refine (ensureDirectoryAt_confined (Or.inr (Or.inr (Or.inr rfl)))).bind fun _ => ?_
  refine (ensureDirectoryAt_confined (Or.inl (prefix_refl _))).bind fun _ => ?_
  refine Uses.bind (removeTreeContents_confined
    (fun n q hq => Or.inl ((prefix_append _ _).trans hq)) _).mapError fun _ => ?_
  exact syncFD_confined.bind fun _ => cleanupPayloadTemps_confined

end PayloadStore

/-! ## Steps and runs -/

section Frame

variable [Unicode]

/-- A confined step changes nothing outside its region. -/
theorem exec_frame {o : Op} {c : Choice} {W W' : World} {r : o.Res} (ho : Confined R o)
    (hE : exec o c W = some (r, W')) {q : Path} (hq : ¬ R q) : W'.files.get q = W.files.get q := by
  cases o with
  | fs call =>
    obtain ⟨cc, files, -, hp, rfl⟩ := exec_fs hE
    exact Call.perform_frame hp fun hx => hq (ho q hx)
  | suffix | openRoot => rw [exec_files hE rfl]
  | _ => exact ho.elim

/-- **A run of a confined program changes nothing outside its region.** -/
theorem runs_frame {α : Type} {p : Prog spoolSig α} (hp : p.Uses (Confined R)) {W W' : World}
    {tr : Trace} {a : α} (h : Prog.Runs exec p W tr a W') {q : Path}
    (hq : ¬ R q) : W'.files.get q = W.files.get q := by
  refine h.induct (fun W W' => W'.files.get q = W.files.get q) (fun _ => rfl)
    (fun _ _ _ h1 h2 => h2.trans h1) fun ev hev => ?_
  exact exec_frame (h.uses hp ev hev) (h.valid ev hev) hq

end Frame

end SmtpCloudRelay.Spool
