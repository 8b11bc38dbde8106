/-
  THE ROUND TRIP of a message through the payload store.

  What `Save` leaves when it succeeds is the directory `payloadView msg`, and `Load` of such a directory
  meets no problem: every reference it decodes is the one that was written, and every attachment has the
  recorded length and digest.  So `Load` answers the message that was STORED:

  * `load_complete`: without faults, a complete payload is loaded as `storedMessage msg`;
  * `load_missing`: a payload that is not there is reported as a missing directory.

  The stored message is the saved one exactly when all texts of the message are UTF-8.  The parser copies
  the bytes of a body without looking at its charset, so this is not always so: a Latin-1 subject comes
  back with U+FFFD in it, and no error is reported.
-/
import SmtpCloudRelay.Spool.Loading

namespace SmtpCloudRelay.Spool

open Go Lib Act View List
open Prog (Runs)

/-! ## The files of a complete payload -/

/-- The directory itself is not touched by its files. -/
theorem attachmentFiles_nil (i : Nat) (as : List Attachment) (v : View GoString) :
    attachmentFiles i as v [] = v [] := by
  induction as generalizing i v with
  | nil => rfl
  | cons a as ih =>
    rw [attachmentFiles, ih]
    exact graft_other (by simp)

/-- Later files have other names. -/
theorem attachmentFiles_earlier {i j : Nat} (h : j < i) (as : List Attachment) (v : View GoString) :
    attachmentFiles i as v [attachmentName j] = v [attachmentName j] := by
  induction as generalizing i v with
  | nil => rfl
  | cons a as ih =>
    rw [attachmentFiles, ih (by omega)]
    refine graft_other fun hpre => ?_
    have hname : attachmentName i = attachmentName j := by
      simpa only [cons_prefix_cons, nil_prefix, and_true] using hpre
    have hij := attachmentName_injective hname
    omega

theorem attachmentFiles_get (i k : Nat) (as : List Attachment) (v : View GoString) {a : Attachment}
    (h : as[k]? = some a) : attachmentFiles i as v [attachmentName (i + k)] = some (.file a.data) := by
  induction as generalizing i k v with
  | nil => nomatch h
  | cons b as ih =>
    rw [attachmentFiles]
    cases k with
    | zero =>
      cases h
      have hlater := attachmentFiles_earlier (show i < i + 1 by omega) as
        (v.graft [attachmentName i] (leaf (.file a.data)))
      rw [graft_self] at hlater
      exact hlater
    | succ k =>
      rw [show i + (k + 1) = i + 1 + k by omega]
      exact ih (i + 1) k _ h

theorem payloadView_manifest (msg : Message) :
    payloadView msg [messageFileName] = some (.file (Manifest.ofMessage msg).marshal) :=
  graft_self _ _ _

theorem payloadView_attachments {msg : Message} (q : Path) (h : msg.attachments ≠ []) :
    payloadView msg (attachmentsDirName :: q) =
      attachmentFiles 0 msg.attachments (leaf .dir) q := by
  have hne : ¬ [messageFileName] <+: attachmentsDirName :: q := by
    rw [cons_prefix_cons]
    exact fun hx => absurd hx.1 (by decide)
  have hgraft : payloadView msg (attachmentsDirName :: q) =
      stagedAttachments msg.attachments (attachmentsDirName :: q) := graft_other hne
  rw [hgraft]
  cases hmsg : msg.attachments with
  | nil => exact absurd hmsg h
  | cons a as => exact graft_append _ _ [attachmentsDirName] q

/-! ## Loading a complete payload -/

/-- The message fits into memory: the length of every attachment is an `int`. -/
def Fits (msg : Message) : Prop := ∀ a ∈ msg.attachments, (a.data.length : Int) ≤ maxDuration

instance (msg : Message) : Decidable (Fits msg) :=
  inferInstanceAs (Decidable (∀ a ∈ msg.attachments, (a.data.length : Int) ≤ maxDuration))

theorem mem_attachmentRefs {i : Nat} {as : List Attachment} {r : AttachmentRef}
    (h : r ∈ attachmentRefs i as) : ∃ j, ∃ a ∈ as, r = attachmentRef j a := by
  induction as generalizing i with
  | nil => nomatch h
  | cons a as ih =>
    rcases mem_cons.mp h with rfl | h
    · exact ⟨i, a, mem_cons_self .., rfl⟩
    · obtain ⟨j, b, hb, hr⟩ := ih h
      exact ⟨j, b, mem_cons_of_mem _ hb, hr⟩

theorem digestMatches_self [Unicode] (data : List UInt8) :
    digestMatches data (hexEncode (Sha256.sum256 data)) = true := by
  unfold digestMatches
  rw [trimSpace_visible (visible_hexEncode _)]
  exact decide_eq_true rfl

section Complete

variable {t : Files GoString} {id : GoString} {msg : Message}

/-- The payload of `msg` is complete in the tree. -/
def CompleteAt (t : Files GoString) (id : GoString) (msg : Message) : Prop :=
  ∀ q, t.get (payloadDir id ++ q) = payloadView msg q

theorem CompleteAt.dir (h : CompleteAt t id msg) : t.get (payloadDir id) = some .dir := by
  have hnil := h []
  rwa [append_nil, payloadView_nil] at hnil

theorem CompleteAt.payloads (h : CompleteAt t id msg) : t.get payloadsRoot = some .dir :=
  Files.get_parent (n := id) fun hnone => nomatch h.dir.symm.trans hnone

theorem CompleteAt.manifest (h : CompleteAt t id msg) :
    t.get (manifestPath id) = some (.file (Manifest.ofMessage msg).marshal) :=
  (h [messageFileName]).trans (payloadView_manifest msg)

theorem CompleteAt.attachments (h : CompleteAt t id msg) (hne : msg.attachments ≠ []) :
    t.get (payloadDir id ++ [attachmentsDirName]) = some .dir := by
  rw [h, payloadView_attachments [] hne, attachmentFiles_nil]
  rfl

theorem CompleteAt.attachment (h : CompleteAt t id msg) {k : Nat} {a : Attachment}
    (hk : msg.attachments[k]? = some a) : t.get (attachmentFile id k) = some (.file a.data) := by
  have hne : msg.attachments ≠ [] := by
    rintro hnil
    rw [hnil] at hk
    nomatch hk
  have hget := h [attachmentsDirName, attachmentName k]
  rw [payloadView_attachments _ hne] at hget
  have hfile := attachmentFiles_get 0 k msg.attachments (leaf .dir) hk
  rw [Nat.zero_add] at hfile
  rw [show attachmentFile id k = payloadDir id ++ [attachmentsDirName, attachmentName k] by
    simp [attachmentFile], hget, hfile]

theorem bytesAt_file {p : Path} {data : List UInt8} (h : t.get p = some (.file data)) :
    bytesAt t p = data := by
  unfold bytesAt
  rw [h]

theorem wrongFile_file {p : Path} {data : List UInt8} (h : t.get p = some (.file data)) :
    wrongFile t noFaults p = none := by
  unfold wrongFile noFaults
  rw [h]

theorem wrongDir_dir {p : Path} (h : t.get p = some .dir) : wrongDir t noFaults p = none := by
  unfold wrongDir noFaults
  rw [h]

/-- The manifest is read as it was written, with its texts coerced. -/
theorem CompleteAt.manifestAt (h : CompleteAt t id msg) (hfits : Fits msg) :
    manifestAt t id = some (Manifest.ofMessage msg).coerced := by
  unfold Spool.manifestAt
  rw [bytesAt_file h.manifest]
  refine Manifest.unmarshal_marshal fun r hr => ?_
  obtain ⟨j, a, ha, rfl⟩ := mem_attachmentRefs hr
  exact ⟨Int.natCast_nonneg _, hfits a ha⟩

/-- The attachments are read as they were written. -/
theorem attachmentsAt_complete {i : Nat} {as : List Attachment}
    (h : ∀ k a, as[k]? = some a → t.get (attachmentFile id (i + k)) = some (.file a.data)) :
    attachmentsAt t id i ((attachmentRefs i as).map AttachmentRef.coerced) =
      as.map storedAttachment := by
  induction as generalizing i with
  | nil => rfl
  | cons a as ih =>
    have htail : ∀ k b, as[k]? = some b →
        t.get (attachmentFile id (i + 1 + k)) = some (.file b.data) := by
      intro k b hb
      rw [show i + 1 + k = i + (k + 1) by omega]
      exact h (k + 1) b hb
    have hfile : bytesAt t (attachmentFile id i) = a.data := bytesAt_file (h 0 a rfl)
    show ⟨_, _, bytesAt t (attachmentFile id i)⟩ :: attachmentsAt t id (i + 1) _ = _
    rw [ih htail, hfile, attachmentRef_coerced]
    rfl

/-- **A complete payload is the stored message.** -/
theorem CompleteAt.messageAt (h : CompleteAt t id msg) (hfits : Fits msg) :
    messageAt t id = storedMessage msg := by
  have hattachments : attachmentsAt t id 0 ((attachmentRefs 0 msg.attachments).map
      AttachmentRef.coerced) = msg.attachments.map storedAttachment :=
    attachmentsAt_complete fun k a hk => by
      rw [Nat.zero_add]
      exact h.attachment hk
  unfold Spool.messageAt
  rw [h.manifestAt hfits]
  show (Manifest.ofMessage msg).coerced.message (attachmentsAt t id 0
    ((attachmentRefs 0 msg.attachments).map AttachmentRef.coerced)) = _
  rw [hattachments]
  rfl

variable [Unicode]

theorem attachmentProblem_complete {i : Nat} {as : List Attachment}
    (h : ∀ k a, as[k]? = some a → t.get (attachmentFile id (i + k)) = some (.file a.data)) :
    attachmentProblem t noFaults id i ((attachmentRefs i as).map AttachmentRef.coerced) = none := by
  induction as generalizing i with
  | nil => rfl
  | cons a as ih =>
    have htail : ∀ k b, as[k]? = some b →
        t.get (attachmentFile id (i + 1 + k)) = some (.file b.data) := by
      intro k b hb
      rw [show i + 1 + k = i + (k + 1) by omega]
      exact h (k + 1) b hb
    have hfile : t.get (attachmentFile id i) = some (.file a.data) := h 0 a rfl
    show attachmentProblem t noFaults id i ((attachmentRef i a).coerced :: _) = _
    rw [attachmentProblem, validateAttachmentRef_ok.mp (attachmentRef_valid i a),
      wrongFile_file hfile, bytesAt_file hfile, ih htail,
      attachmentRef_coerced]
    simp [attachmentRef, digestMatches_self, problemIf]

/-- **A complete payload has no problem.** -/
theorem CompleteAt.firstProblem (h : CompleteAt t id msg) (hfits : Fits msg) :
    firstProblem t noFaults id = none := by
  have hdir : attachmentsDirProblem t noFaults id (Manifest.ofMessage msg).coerced.attachments =
      none := by
    show attachmentsDirProblem t noFaults id
      ((attachmentRefs 0 msg.attachments).map AttachmentRef.coerced) = none
    cases hmsg : msg.attachments with
    | nil => rfl
    | cons a as =>
      show Option.map _ (wrongDir t noFaults _) = none
      rw [wrongDir_dir (h.attachments (by rw [hmsg]; simp))]
      rfl
  have hattachments : attachmentProblem t noFaults id 0
      (Manifest.ofMessage msg).coerced.attachments = none := by
    refine attachmentProblem_complete fun k a hk => ?_
    rw [Nat.zero_add]
    exact h.attachment hk
  unfold Spool.firstProblem
  rw [wrongDir_dir h.payloads, wrongDir_dir h.dir, wrongFile_file h.manifest, h.manifestAt hfits]
  show (Option.or none (Option.or none (Option.or none (Option.or none
    ((attachmentsDirProblem _ _ _ _).or _))))) = none
  rw [hdir, hattachments]
  rfl

end Complete

/-! ## Loading without faults -/

section Loads

variable [Unicode] {s : PayloadStore} {id : GoString} {msg : Message} {W W' : World}
variable {tr : Trace}

/-- Nothing goes wrong with the questions of these events. -/
def Faultless (tr : Trace) : Prop :=
  ∀ ev ∈ tr, ev.choice = noFaults.choice ev.op

omit [Unicode] in
theorem chosen_none_ne (o : Op) (x : GoString × Errno) : chosen o none ≠ chosen o (some x) := by
  intro h
  cases o with
  | openRoot | _ => nomatch h

/-- Without faults, `Load` returns `out`, and it does return. -/
def LoadsAs (s : PayloadStore) (W : World) (id : GoString) (out : Except GoError Message) : Prop :=
  (∃ tr, Runs exec (s.load id) W tr out W ∧ Faultless tr) ∧
  ∀ tr out' W', Runs exec (s.load id) W tr out' W' → Faultless tr → out' = out ∧ W' = W

theorem LoadsAs.unique {out out' : Except GoError Message} (h : LoadsAs s W id out)
    (h' : LoadsAs s W id out') : out = out' := by
  obtain ⟨tr, hrun, htr⟩ := h.1
  exact (h'.2 tr out W hrun htr).1

theorem load_of_canonical (hid : Canonical (trimSpace id)) : s.load id = s.loadFrom (trimSpace id) := by
  unfold PayloadStore.load
  rw [validateCanonicalRecordID_ok.mpr hid]
  rfl

/-- A run without faults is answered by the tree. -/
theorem faultless_answers {α : Type} {p : Prog spoolSig α} {Q : α → List (Option Path) → Prop} {a : α}
    (h : Runs exec p W tr a W') (hp : p.Safe askOnce Q []) (htr : Faultless tr) :
    W' = W ∧ ∀ ev ∈ tr, answers W.files noFaults ev.op = some ev.res := by
  obtain ⟨hW, f, hf, -, -⟩ := runs_faults h hp
  refine ⟨hW, fun ev hev => ?_⟩
  obtain ⟨q, hq, hc, ha⟩ := hf ev hev
  have hnone : f q = none := by
    cases hx : f q with
    | none => rfl
    | some x =>
      have hchoice : chosen ev.op none = chosen ev.op (some x) := by
        rw [← hx, ← hc, htr ev hev, Faults.choice, hq]
        rfl
      exact absurd hchoice (chosen_none_ne ev.op x)
  rw [hnone] at ha
  rw [answers, hq]
  exact ha

/-- The value of the program is what it returns. -/
theorem loadsAs_of_eval {out : Except GoError Message} (hid : Canonical (trimSpace id))
    (heval : (s.loadFrom (trimSpace id)).eval (answers W.files noFaults) = some out) :
    LoadsAs s W id out := by
  have hans : ∀ o r, answers W.files noFaults o = some r →
      exec o (noFaults.choice o) W = some (r, W) := by
    intro o r hr
    obtain ⟨q, hq, hE⟩ := exec_answers rfl hr
    rw [Faults.choice, hq]
    exact hE
  unfold LoadsAs
  rw [load_of_canonical hid]
  refine ⟨Prog.exists_runs_of_eval hans heval, fun tr out' W' hrun htr => ?_⟩
  obtain ⟨hW, hevs⟩ := faultless_answers hrun (loadFrom_once _) htr
  have heval' := hrun.eval (loadFrom_straight s _) hevs
  exact ⟨Option.some.inj (heval'.symm.trans heval), hW⟩

/-- **A complete payload is loaded as the stored message.** -/
theorem load_complete (hid : Canonical (trimSpace id)) (h : CompleteAt W.files (trimSpace id) msg)
    (hfits : Fits msg) : LoadsAs s W id (.ok (storedMessage msg)) := by
  refine loadsAs_of_eval hid ?_
  rw [← h.messageAt hfits]
  exact (settles_loadFrom _).fine (h.firstProblem hfits)

/-- The error for a payload that is not there. -/
def missingPayload (s : PayloadStore) (id : GoString) : GoError :=
  .payloadCorruption id (pathText s.root (payloadDir id)) (.errorf "payload directory is missing")

/-- **A payload that is not there is reported as a missing directory.** -/
theorem load_missing (hid : Canonical (trimSpace id)) (hroot : W.files.get payloadsRoot = some .dir)
    (hnone : W.files.get (payloadDir (trimSpace id)) = none) :
    LoadsAs s W id (.error (missingPayload s (trimSpace id))) := by
  refine loadsAs_of_eval hid ?_
  have hdir := eval_sys (answers_openDir (t := W.files) (f := noFaults) (payloadDir (trimSpace id)))
  have hlook : lookDir W.files noFaults (payloadDir (trimSpace id)) = .error .enoent := by
    simp [lookDir, noFaults, Files.notDir, hnone]
  rw [hlook] at hdir
  refine (eval_bind_ok (settles_openRoot.fine rfl)).trans ?_
  refine (eval_bind_ok ((settles_openPayloads payloadsRoot).fine ?_)).trans ?_
  · rw [wrongDir_dir hroot]
    rfl
  · exact eval_bind_error (eval_mapError_error (eval_mapError_error hdir))

end Loads

/-! ## Saving, then loading -/

/-- The whole tree, without any demand. -/
def Watch.all : Watch where
  region _ := True
  allows _ _ := True
  keeps _ := True

theorem Watch.free_all (D : Path) : Watch.all.Free D := ⟨fun _ _ => trivial, fun _ _ _ _ => trivial⟩

theorem Watch.forSave_all (id : GoString) (msg : Message) : Watch.all.ForSave id msg where
  stage _ := free_all _
  temp _ := free_all _
  place := (free_all _).seen
  whole _ _ := trivial

section SaveLoad

variable {s : PayloadStore} {id : GoString} {msg : Message} {W W' : World}
variable {tr : Trace}

/-- **`Save` that succeeds leaves the complete payload**, under a canonical id. -/
theorem save_complete [Unicode] (h : Runs exec (s.save id msg) W tr (.ok ()) W') :
    Canonical (trimSpace id) ∧ CompleteAt W'.files (trimSpace id) msg := by
  constructor
  · rcases h.lift_bind_inv with ⟨_, hid, -⟩ | ⟨e, -, hout, -, -⟩
    · exact validateCanonicalRecordID_ok.mp hid
    · nomatch hout
  · obtain ⟨κ, hview, hshows⟩ := Watch.runs_shown h (fun ev _ => trivial)
      (Watch.save_gives fun _ => Watch.forSave_all _ msg) (Watch.shows_of Watch.all trivial)
    intro q
    have hq := congrFun hview q
    rw [sub_apply, ← hshows.1, Files.on_of trivial] at hq
    exact hq

/-- **The round trip**: after a `Save` that succeeded, `Load` returns the message itself exactly when
    all its texts are UTF-8. -/
theorem save_load_iff_utf8 [Unicode] (hfrom : trimSpace msg.envelopeFrom = msg.envelopeFrom)
    (hheader : trimSpace msg.headerFrom = msg.headerFrom) (hfits : Fits msg)
    (hsave : Runs exec (s.save id msg) W tr (.ok ()) W') :
    LoadsAs s W' id (.ok msg) ↔ ∀ text ∈ messageTexts msg, Utf8.Valid text := by
  obtain ⟨hid, hcomplete⟩ := save_complete hsave
  have hloads : LoadsAs s W' id (.ok (storedMessage msg)) := load_complete hid hcomplete hfits
  rw [← storedMessage_eq_self hfrom hheader]
  constructor
  · intro h
    exact Except.ok.inj (hloads.unique h)
  · intro h
    rwa [h] at hloads

theorem exists_saved (msg : Message) (h : letI := Unicode.ascii
      (Prog.run exec (calm (.error .canceled) (.error .canceled)) 200 (do
        sampleStore.payloads.newPayloadStore
        sampleStore.payloads.save sampleID msg : Task Unit) (sampleWorld ⟨[], nodup_nil⟩)).any
          (fun x => x.1.toBool) = true) :
    letI := Unicode.ascii
    ∃ W tr W', Runs exec (sampleStore.payloads.save sampleID msg) W tr (.ok ()) W' := by
  let _ := Unicode.ascii
  obtain ⟨out, tr, W', hrun, hout⟩ := Prog.exists_runs_of_run _ _ _ _ _ h
  rcases hrun.act_bind_inv with ⟨_, tr1, tr2, W, -, -, hsave⟩ | ⟨e, rfl, -⟩
  · cases out with
    | ok u => exact ⟨W, tr2, W', hsave⟩
    | error e => nomatch hout
  · nomatch hout

/-- A message with a binary attachment. -/
def withAttachment : Message :=
  { sampleMessage with attachments := [⟨lit "a.bin", lit "application/octet-stream", [0xFF, 0x00]⟩] }

/-- A message with the subject `é`, in Latin-1. -/
def latin1 : Message := { sampleMessage with subject := [0xE9] }

/-- **UTF-8 texts and a binary attachment** come back as they were. -/
theorem save_load_attachment :
    letI := Unicode.ascii
    ∃ W tr W', Runs exec (sampleStore.payloads.save sampleID withAttachment) W tr (.ok ()) W' ∧
      LoadsAs sampleStore.payloads W' sampleID (.ok withAttachment) := by
  let _ := Unicode.ascii
  obtain ⟨W, tr, W', hsave⟩ := exists_saved withAttachment (by decide +kernel)
  refine ⟨W, tr, W', hsave, (save_load_iff_utf8 (by decide) (by decide) ?_ hsave).mpr ?_⟩
  · decide
  · intro text htext
    have hall : ∀ text ∈ messageTexts withAttachment, Utf8.coerce text = text := by decide
    exact Utf8.coerce_eq_self.mp (hall text htext)

/-- **A Latin-1 subject** comes back as U+FFFD, and nothing reports it. -/
theorem save_load_latin1 :
    letI := Unicode.ascii
    ∃ W tr W', Runs exec (sampleStore.payloads.save sampleID latin1) W tr (.ok ()) W' ∧
      LoadsAs sampleStore.payloads W' sampleID
        (.ok { latin1 with subject := [0xEF, 0xBF, 0xBD] }) ∧
      ¬ LoadsAs sampleStore.payloads W' sampleID (.ok latin1) := by
  let _ := Unicode.ascii
  obtain ⟨W, tr, W', hsave⟩ := exists_saved latin1 (by decide +kernel)
  obtain ⟨hid, hcomplete⟩ := save_complete hsave
  have hloads : LoadsAs sampleStore.payloads W' sampleID (.ok (storedMessage latin1)) :=
    load_complete hid hcomplete (by decide)
  have hstored : storedMessage latin1 = { latin1 with subject := [0xEF, 0xBF, 0xBD] } := by decide
  rw [hstored] at hloads
  refine ⟨W, tr, W', hsave, hloads, fun h => ?_⟩
  exact absurd (hloads.unique h) (by decide)

end SaveLoad

end SmtpCloudRelay.Spool
