/-
  CORRUPTION: which problems of a payload are held against its record.

  A record is dead-lettered for its payload when `Load` fails with a `PayloadCorruptionError`, so what is
  reported as corruption has to be corruption: a problem of the record's own files (`Problem.Corrupt`), and
  neither trouble with the spool root or `payloads/` nor an input error.

  * What `Load` reports is the FIRST problem, and with one exception it reports it as what it is
    (`loadReports_iff`).  The exception is a special file in the place of the manifest or of an
    attachment that cannot even be opened.  A UNIX socket answers ENXIO: that is a wrong file type, but
    the code has seen an error number only, and takes it for trouble with the disk.  A FIFO keeps the
    open waiting, and `Load` with it.
  * What `Load` returns has been checked against the manifest, and nothing else was read.
  * `ClaimReady` and `Recover` dead-letter a record only after such a report (`claimReady_found`).
-/
import SmtpCloudRelay.Spool.Lifecycle
import SmtpCloudRelay.Spool.RoundTrip

namespace SmtpCloudRelay.Spool

open Go Lib Act
open Prog (Runs)

/-! ## The faults of a run -/

/-- The faults `f` are what went wrong in these events. -/
def Describes (f : Faults) (tr : Trace) : Prop := ∀ ev ∈ tr, ev.choice = f.choice ev.op

theorem Fails.reports {α : Type} {out : Except GoError α} {P : Prop} (h : Fails out P) :
    ReportsCorruption out ↔ P := by
  obtain ⟨e, rfl, he⟩ := h
  rw [← he]
  constructor
  · rintro ⟨e', he', h⟩
    cases he'
    exact h
  · exact fun h => ⟨e, rfl, h⟩

/-- Choices that are the same have the same answer. -/
theorem answered_congr {t : Files GoString} {o : Op} {x y : Option (GoString × Errno)}
    (h : chosen o x = chosen o y) : answered t x o = answered t y o := by
  cases o with
  | openRoot => exact congrArg (answer .openRoot) h
  | fs c =>
    have hcall : callChoice x = callChoice y := Choice.call.inj h
    cases c with
    | openDir p | readFile p =>
      show Option.map _ (Call.perform _ _ (callChoice x)) = _
      rw [hcall]
      rfl
    | _ => rfl
  | _ => rfl

/-! ## The problems -/

section Problems

variable {t : Files GoString} {f : Faults} {id : GoString} {path : Path}

/-- The first problem is a special file that cannot be opened. -/
def Shut (t : Files GoString) (f : Faults) (id : GoString) : Prop :=
  ∃ path w, firstProblem t f id = some (.file path w) ∧ shut t f path

/-- What cannot be opened is of the wrong file type. -/
theorem wrongFile_of_shut (h : shut t f path) : wrongFile t f path = some .fileType := by
  unfold wrongFile
  rcases h with ⟨hf, hget⟩ | ⟨hf, e, hget, -⟩
  · rw [hf, hget]
  · rw [hf, hget]

theorem problemIf_ne_file {b : Bool} {pr : Problem} {w : Wrong}
    (hpr : pr.isFile = false) : problemIf b pr ≠ some (.file path w) := by
  unfold problemIf
  split
  · exact fun h => Problem.ne_file hpr path w (Option.some.inj h)
  · nofun

theorem wrongFile_of_map {path' : Path} {w : Wrong}
    (h : (wrongFile t f path').map (Problem.file path') = some (Problem.file path w)) :
    wrongFile t f path = some w := by
  obtain ⟨w', hw', hx⟩ := Option.map_eq_some_iff.mp h
  cases hx
  exact hw'

theorem attachmentProblem_file {i : Nat} {refs : List AttachmentRef} {w : Wrong}
    (h : attachmentProblem t f id i refs = some (.file path w)) : wrongFile t f path = some w := by
  induction refs generalizing i with
  | nil => cases h
  | cons ref refs ih =>
    simp only [attachmentProblem, Option.or_eq_some_iff] at h
    rcases h with h | ⟨-, h | ⟨-, h | ⟨-, h | ⟨-, h⟩⟩⟩⟩
    · exact absurd h (problemIf_ne_file rfl)
    · exact wrongFile_of_map h
    · exact absurd h (problemIf_ne_file rfl)
    · exact absurd h (problemIf_ne_file rfl)
    · exact ih h

/-- The problem with a file is what is wrong with the file. -/
theorem firstProblem_file {w : Wrong} (h : firstProblem t f id = some (.file path w)) :
    wrongFile t f path = some w := by
  have hdir : ∀ {x : Option Wrong} {g : Wrong → Problem}, (∀ w', (g w').isFile = false) →
      x.map g ≠ some (.file path w) := by
    intro x g hg hx
    obtain ⟨w', -, hw'⟩ := Option.map_eq_some_iff.mp hx
    exact Problem.ne_file (hg w') path w hw'
  simp only [firstProblem, Option.or_eq_some_iff] at h
  rcases h with h | ⟨-, h | ⟨-, h | ⟨-, h | ⟨-, h⟩⟩⟩⟩
  · exact absurd h (problemIf_ne_file rfl)
  · exact absurd h (hdir fun _ => rfl)
  · exact absurd h (hdir fun _ => rfl)
  · exact wrongFile_of_map h
  · -- behind the manifest
    cases hm : manifestAt t id with
    | none =>
      rw [hm] at h
      nomatch h
    | some m =>
      rw [hm] at h
      simp only [manifestProblem, Option.or_eq_some_iff] at h
      rcases h with h | ⟨-, h⟩
      · unfold attachmentsDirProblem at h
        split at h
        · nomatch h
        · exact absurd h (hdir fun _ => rfl)
      · exact attachmentProblem_file h

/-- Attachment `i` of the message is what the manifest says: the bytes of its own file, of the recorded
    length and with the recorded digest. -/
def IntactAttachment (t : Files GoString) (id : GoString) (i : Nat) (ref : AttachmentRef) : Prop :=
  wellFormedRef i ref = true ∧
  ∃ data, t.get (attachmentFile id i) = some (.file data) ∧ (data.length : Int) = ref.sizeBytes ∧
    digestMatches data ref.sha256 = true

theorem problemIf_eq_none {b : Bool} {pr : Problem} : problemIf b pr = none ↔ b = false := by
  unfold problemIf
  cases b <;> simp

theorem wrongFile_eq_none (h : wrongFile t f path = none) :
    ∃ data, t.get path = some (.file data) := by
  unfold wrongFile at h
  split at h
  · nomatch h
  · split at h
    · rename_i data hdata
      exact ⟨data, hdata⟩
    all_goals nomatch h

theorem attachmentProblem_eq_none {i : Nat} {refs : List AttachmentRef}
    (h : attachmentProblem t f id i refs = none) :
    ∀ k ref, refs[k]? = some ref → IntactAttachment t id (i + k) ref := by
  induction refs generalizing i with
  | nil =>
    intro k ref hk
    cases hk
  | cons ref refs ih =>
    simp only [attachmentProblem, Option.or_eq_none_iff, problemIf_eq_none,
      Option.map_eq_none_iff] at h
    obtain ⟨hvalid, hfile, hsize, hdigest, hrest⟩ := h
    obtain ⟨data, hdata⟩ := wrongFile_eq_none hfile
    rw [bytesAt_file hdata] at hsize hdigest
    rintro (_ | k) ref' hk
    · cases hk
      exact ⟨by simpa using hvalid, data, hdata, by simpa using hsize, by simpa using hdigest⟩
    · rw [show i + (k + 1) = i + 1 + k by omega]
      exact ih hrest k ref' hk

theorem attachmentsAt_getElem? (i k : Nat) (refs : List AttachmentRef) :
    (attachmentsAt t id i refs)[k]? = refs[k]?.map fun ref =>
      ⟨ref.filename, ref.contentType, bytesAt t (attachmentFile id (i + k))⟩ := by
  induction refs generalizing i k with
  | nil => rfl
  | cons ref refs ih =>
    cases k with
    | zero => rfl
    | succ k =>
      rw [show i + (k + 1) = i + 1 + k by omega]
      exact ih (i + 1) k

/-- The message was made from the manifest and from files that the manifest describes. -/
def Intact (t : Files GoString) (id : GoString) (msg : Message) : Prop :=
  ∃ m, manifestAt t id = some m ∧ msg.attachments.length = m.attachments.length ∧
    ∀ i ref, m.attachments[i]? = some ref → IntactAttachment t id i ref ∧
      msg.attachments[i]? = some ⟨ref.filename, ref.contentType, bytesAt t (attachmentFile id i)⟩

theorem length_attachmentsAt (i : Nat) (refs : List AttachmentRef) :
    (attachmentsAt t id i refs).length = refs.length := by
  induction refs generalizing i with
  | nil => rfl
  | cons ref refs ih => exact congrArg (· + 1) (ih (i + 1))

/-- **A payload without a problem is intact.** -/
theorem intact_of_noProblem (h : firstProblem t f id = none) : Intact t id (messageAt t id) := by
  simp only [firstProblem, Option.or_eq_none_iff] at h
  obtain ⟨-, -, -, -, h⟩ := h
  unfold messageAt
  cases hm : manifestAt t id with
  | none =>
    rw [hm] at h
    nomatch h
  | some m =>
    rw [hm] at h
    simp only [manifestProblem, Option.or_eq_none_iff] at h
    refine ⟨m, hm, length_attachmentsAt 0 m.attachments, fun i ref hi => ?_⟩
    have hintact := attachmentProblem_eq_none h.2 i ref hi
    have hget : (attachmentsAt t id 0 m.attachments)[i]? = _ :=
      attachmentsAt_getElem? 0 i m.attachments
    rw [Nat.zero_add] at hintact hget
    rw [hi] at hget
    exact ⟨hintact, hget⟩

end Problems

/-! ## What `Load` returns -/

section Load

variable [Unicode] {s : PayloadStore} {id : GoString} {W W' : World} {tr : Trace}
variable {out : Except GoError Message} {f : Faults}

/-- **Whatever describes the faults of a run decides how it ends.** -/
theorem loadFrom_described (h : Runs exec (s.loadFrom id) W tr out W') (hf : Describes f tr) :
    Loaded W.files f id out := by
  obtain ⟨-, f', hf', -, -⟩ := runs_faults h (loadFrom_once id)
  refine loaded_of_eval (h.eval (loadFrom_straight s id) fun ev hev => ?_)
  obtain ⟨q, hq, hc, ha⟩ := hf' ev hev
  have hchoice : chosen ev.op (f' q) = chosen ev.op (f q) := by
    rw [← hc, hf ev hev, Faults.choice, hq]
    rfl
  rw [answers, hq, Option.bind_some, ← answered_congr hchoice]
  exact ha

/-- `Load`, with the faults `f`, returns, and what it returns is a corruption. -/
def LoadReports (s : PayloadStore) (id : GoString) (W : World) (f : Faults) : Prop :=
  ∃ tr out W', Runs exec (s.load id) W tr out W' ∧ Describes f tr ∧ ReportsCorruption out

/-- **What `Load` returns and reports** is a problem that is reported, and does not keep it waiting. -/
theorem loadReports_iff (hid : Canonical (trimSpace id)) : LoadReports s id W f ↔
    ∃ pr, firstProblem W.files f (trimSpace id) = some pr ∧ pr.Reported W.files f ∧
      ¬ pr.Waits W.files f := by
  unfold LoadReports
  rw [load_of_canonical hid]
  constructor
  · rintro ⟨tr, out, W', hrun, hf, hr⟩
    have hloaded := loadFrom_described hrun hf
    unfold Loaded at hloaded
    split at hloaded
    · rename_i pr hpr
      exact ⟨pr, hpr, hloaded.2.reports.mp hr, hloaded.1⟩
    · obtain ⟨e, he, -⟩ := hr
      nomatch hloaded.symm.trans he
  · rintro ⟨pr, hpr, hreported, hwaits⟩
    have hnone : ∀ pr', firstProblem W.files f (trimSpace id) = some pr' → ¬ pr'.Waits W.files f :=
      fun pr' hpr' => Option.some.inj (hpr.symm.trans hpr') ▸ hwaits
    obtain ⟨tr, out, hrun, hf, hloaded⟩ := exists_loadFrom_run s hnone
    unfold Loaded at hloaded
    rw [hpr] at hloaded
    exact ⟨tr, out, W, hrun, hf, hloaded.2.reports.mpr hreported⟩

/-- **`Load` reports corruption exactly for a corrupt payload, unless the first problem cannot be
    opened.** -/
theorem loadReports_corrupt_iff (hid : Canonical (trimSpace id)) :
    (LoadReports s id W f ↔ ∃ pr, firstProblem W.files f (trimSpace id) = some pr ∧ pr.Corrupt) ↔
      ¬ Shut W.files f (trimSpace id) := by
  rw [loadReports_iff hid]
  constructor
  · -- a file that cannot be opened is corrupt, and is not reported
    rintro hiff ⟨path, w, hpr, hshut⟩
    have hw := firstProblem_file hpr
    rw [wrongFile_of_shut hshut] at hw
    cases hw
    obtain ⟨pr, hpr', hreported, -⟩ := hiff.mpr ⟨_, hpr, trivial⟩
    cases hpr.symm.trans hpr'
    exact hreported.2 path .fileType rfl hshut
  · intro hno
    have hshut : ∀ {pr path w}, firstProblem W.files f (trimSpace id) = some pr →
        pr = .file path w → ¬ shut W.files f path := by
      rintro _ path w hpr rfl hshut
      exact hno ⟨path, w, hpr, hshut⟩
    constructor
    · rintro ⟨pr, hpr, hreported, -⟩
      exact ⟨pr, hpr, hreported.1⟩
    · rintro ⟨pr, hpr, hc⟩
      refine ⟨pr, hpr, ⟨hc, fun path w hx => hshut hpr hx⟩, ?_⟩
      rintro ⟨path, w, hx, hwaits⟩
      exact hshut hpr hx (Or.inl hwaits)

/-- The questions of `Load`: the root, `payloads/`, and what is in the directory of the record. -/
inductive AsksOf (id : GoString) : Op → Prop
  | root : AsksOf id .openRoot
  | payloads : AsksOf id (.fs (.openDir payloadsRoot))
  | directory : AsksOf id (.fs (.openDir (payloadDir id)))
  | attachments : AsksOf id (.fs (.openDir (payloadDir id ++ [attachmentsDirName])))
  | manifest : AsksOf id (.fs (.readFile (manifestPath id)))
  | attachment (i : Nat) : AsksOf id (.fs (.readFile (attachmentFile id i)))

omit [Unicode] in
theorem openDir_asks {p : Path} (h : AsksOf id (.fs (.openDir p))) :
    (sys (.openDir p)).Uses (AsksOf id) := uses_step h fun _ => trivial

omit [Unicode] in
theorem readRegular_asks {p : Path} (h : AsksOf id (.fs (.readFile p))) :
    (readRegularFileAtNoFollow p).Uses (AsksOf id) := by
  refine Uses.bind (Uses.mapError (uses_step h fun _ => trivial)) fun data => ?_
  cases data with
  | none => exact uses_fail _
  | some bytes => exact uses_pure _

theorem loadAttachments_asks (i : Nat) (refs : List AttachmentRef) :
    (s.loadAttachments id i refs).Uses (AsksOf id) := by
  induction refs generalizing i with
  | nil => exact uses_pure _
  | cons ref refs ih =>
    refine (check_uses _).bind fun _ => ?_
    refine Uses.bind (readRegular_asks (.attachment i)).mapError fun data => ?_
    refine (check_uses _).bind fun _ => (check_uses _).bind fun _ => ?_
    exact (ih (i + 1)).bind fun _ => uses_pure _

/-- **Loading asks about the record's own files and no other.** -/
theorem loadFrom_asks (id : GoString) : (s.loadFrom id).Uses (AsksOf id) := by
  refine Uses.bind (Uses.mapError (uses_step .root fun _ => trivial)) fun _ => ?_
  refine (openDir_asks .payloads).mapError.bind fun _ => ?_
  refine (openDir_asks .directory).mapError.mapError.bind fun _ => ?_
  refine Uses.bind (readRegular_asks .manifest).mapError fun data => ?_
  cases Manifest.unmarshal data with
  | none => exact uses_fail _
  | some m =>
    have hopen : (s.openAttachments id m.attachments).Uses (AsksOf id) := by
      cases m.attachments with
      | nil => exact uses_pure _
      | cons ref refs => exact (openDir_asks .attachments).mapError.mapError
    exact hopen.bind fun _ => (loadAttachments_asks 0 _).bind fun _ => uses_pure _

/-- The step reads no file but the manifest and the attachments of the record. -/
def ReadsOnly (id : GoString) (o : Op) : Prop :=
  ∀ path, o = .fs (.readFile path) → path = manifestPath id ∨ ∃ i, path = attachmentFile id i

omit [Unicode] in
theorem AsksOf.readsOnly {o : Op} (h : AsksOf id o) : ReadsOnly id o := by
  rintro path rfl
  cases h with
  | manifest => exact Or.inl rfl
  | attachment i => exact Or.inr ⟨i, rfl⟩

end Load

/-! ## Who is dead-lettered -/

section Found

variable [Unicode] {s : SpoolStore} {w w' : World} {tr : Trace}

/-- A step whose UPDATE, if it is one, puts a record back into the queue. -/
def Requeues (o : Op) : Prop :=
  ∀ st (rec : Record), o = .tx (.update st rec) → rec.state = .queued

theorem requeueClaimedRecord_queued (m : Metadata) : (requeueClaimedRecord m).Uses Requeues := by
  refine Uses.bind ⟨(fun st rec h => nomatch h), fun _ _ _ => trivial⟩ fun now => Uses.mapError ?_
  refine (check_uses _).bind fun _ => (check_uses _).bind fun _ => ⟨?_, fun _ _ _ => trivial⟩
  rintro st rec ⟨⟩
  rfl

variable {ev : SpoolEvent} {st : State} {rec : Record}

/-- A claimed record is dead-lettered after a failed load of its payload. -/
theorem settleClaim_found {m : Metadata} {loaded : Except GoError Message} {w1 w2 : World}
    {trLoad trS : Trace} {out : Except GoError (Unit ⊕ Option Record)}
    (hload : Runs exec (s.payloads.load m.id) w trLoad loaded w1)
    (hS : Runs exec (SpoolStore.settleClaim m loaded) w1 trS out w2) (hev : ev ∈ trS)
    (hop : ev.op = .tx (.update st rec)) (hdead : rec.state = .deadLetter) :
    FoundCorrupt s (trLoad ++ trS) ev rec.id := by
  cases loaded with
  | ok msg =>
    obtain ⟨-, rfl, -⟩ := hS.ret_inv
    cases hev
  | error e =>
    rw [SpoolStore.settleClaim, onLoadError] at hS
    cases hc : (classifyPayloadLoadError m.id e).asRecordCorruptionError with
    | none =>
      rw [hc] at hS
      have hqueued := hS.uses (Uses.bind (requeueClaimedRecord_queued m) fun _ => uses_fail _)
        ev hev st rec hop
      rw [hdead] at hqueued
      cases hqueued
    | some c =>
      rw [hc] at hS
      have hid : rec.id = m.id := hS.uses (Uses.bind (deadLetterCorruptRecord_updates m c)
        fun _ => uses_pure _) ev hev st rec hop
      have hun := (runs_life (A := fun _ _ => True) hload (load_unclassified s m.id)).1
      rw [hid]
      exact ⟨[], trLoad, trS, w, w1, e, rfl, hev, hload,
        isPayloadCorruption_of_classified (failsWith_error.mp hun) hc⟩

theorem claimRound_found {now : Int} {out : Except GoError (Unit ⊕ Option Record)}
    (h : Runs exec (s.claimRound now) w tr out w') (hev : ev ∈ tr)
    (hop : ev.op = .tx (.update st rec)) (hdead : rec.state = .deadLetter) :
    FoundCorrupt s tr ev rec.id := by
  rcases h.mem_bind hev with ⟨tr1, tr2, x, w1, rfl, hev1, h1⟩ |
    ⟨tr1, tr2, claimed, w1, rfl, hev, -, h⟩
  · nomatch (h1.mem_step hev1).symm.trans hop
  cases claimed with
  | none =>
    obtain ⟨-, rfl, -⟩ := h.ret_inv
    nomatch hev
  | some m =>
    rcases h.mem_bind hev with ⟨trLoad, tr', x, w2, rfl, hevL, hL⟩ |
      ⟨trLoad, tr', loaded, w2, rfl, hev', hL, h'⟩
    · obtain ⟨_, -, hload⟩ := hL.attempt_inv
      exact absurd hop (confined_no_tx hload (PayloadStore.load_confined m.id) ev hevL _)
    obtain ⟨_, ⟨⟩, hload⟩ := hL.attempt_inv
    have hfound := (settleClaim_found hload h' hev' hop hdead).append tr1 []
    rwa [List.append_nil] at hfound

/-- **`ClaimReady` dead-letters only records whose payload it has found corrupt.** -/
theorem claimReady_found {now : Int} {out : Except GoError (Option Record)}
    (h : Runs exec (s.claimReady now) w tr out w') (hev : ev ∈ tr)
    (hop : ev.op = .tx (.update st rec)) (hdead : rec.state = .deadLetter) :
    FoundCorrupt s tr ev rec.id := by
  rcases h.mem_bind hev with ⟨tr1, tr2, x, w1, rfl, hev1, h1⟩ | ⟨tr1, tr2, _, w1, rfl, hev, -, h⟩
  · nomatch (h1.mem_step hev1).symm.trans hop
  obtain ⟨_, tr3, tr4, tr5, x, w2, w3, rfl, hev, hround⟩ := h.mem_forever hev
  have hfound := (claimRound_found hround hev hop hdead).append (tr1 ++ tr3) tr5
  rwa [List.append_assoc] at hfound

/-- Before the event, loading the payload of `id` met a corruption of the record's own files. -/
def FoundProblem (s : SpoolStore) (tr : Trace) (ev : SpoolEvent) (id : GoString) : Prop :=
  ∃ tr1 trLoad tr2 w1 w2 e f pr, tr = tr1 ++ trLoad ++ tr2 ∧ ev ∈ tr2 ∧
    Runs exec (s.payloads.load id) w1 trLoad (.error e) w2 ∧ Describes f trLoad ∧
    firstProblem w1.files f (trimSpace id) = some pr ∧ pr.Corrupt

/-- An id that is not valid is no corruption. -/
theorem load_invalid {p : PayloadStore} {id : GoString} {out : Except GoError Message}
    (h : Runs exec (p.load id) w tr out w') (hr : ReportsCorruption out) :
    Canonical (trimSpace id) := by
  rcases h.lift_bind_inv with ⟨_, hid, -⟩ | ⟨e', hinvalid, hout, -, -⟩
  · exact validateCanonicalRecordID_ok.mp hid
  · obtain ⟨e, he, hcorrupt⟩ := hr
    have hno : FailsWith (fun e => e.isPayloadCorruption = false)
        (validateCanonicalRecordID (trimSpace id)) :=
      FailsWith.bind (.failIf rfl) fun _ => FailsWith.bind (.failIf rfl) fun _ => .failIf rfl
    cases hout.symm.trans he
    exact nomatch hcorrupt.symm.trans (hno e' hinvalid)

theorem FoundCorrupt.problem {id : GoString} (h : FoundCorrupt s tr ev id) :
    FoundProblem s tr ev id := by
  obtain ⟨tr1, trLoad, tr2, w1, w2, e, rfl, hev, hload, he⟩ := h
  have hid : Canonical (trimSpace id) := load_invalid hload ⟨e, rfl, he⟩
  have hfrom := hload
  rw [load_of_canonical hid] at hfrom
  obtain ⟨-, f, hf, -, hloaded⟩ := loadFrom_run hfrom
  unfold Loaded at hloaded
  cases hpr : firstProblem w1.files f (trimSpace id) with
  | none =>
    rw [hpr] at hloaded
    nomatch hloaded
  | some pr =>
    rw [hpr] at hloaded
    have hreported := hloaded.2.reports.mp ⟨e, rfl, he⟩
    exact ⟨tr1, trLoad, tr2, w1, w2, e, f, pr, rfl, hev, hload, hf, hpr, hreported.1⟩

/-- **Corruption is reported exactly for a corrupt payload, unless a special file cannot be opened**;
    and it is what is dead-lettered.  For every tree and all faults:
    * `Load` returns a corruption exactly when the first problem is one, if and only if that problem is
      not a special file that cannot be opened;
    and for every run of `Load` and all faults that describe it:
    * no other problem is ever reported as corruption;
    * what is returned is intact, and only the record's own files were read;
    and every record that `ClaimReady` or `Recover` dead-letters had such a problem. -/
theorem corruption_reported_iff :
    (∀ (p : PayloadStore) id W f, Canonical (trimSpace id) →
      ((LoadReports p id W f ↔
          ∃ pr, firstProblem W.files f (trimSpace id) = some pr ∧ pr.Corrupt) ↔
        ¬ Shut W.files f (trimSpace id))) ∧
    (∀ (p : PayloadStore) id W tr out W', Runs exec (p.load id) W tr out W' →
      (¬ Canonical (trimSpace id) → ¬ ReportsCorruption out) ∧ (Canonical (trimSpace id) →
      (∃ f, Describes f tr) ∧ ∀ f, Describes f tr →
        (ReportsCorruption out →
          ∃ pr, firstProblem W.files f (trimSpace id) = some pr ∧ pr.Corrupt) ∧
        (∀ msg, out = .ok msg → firstProblem W.files f (trimSpace id) = none ∧
          Intact W.files (trimSpace id) msg ∧ ∀ ev ∈ tr, ReadsOnly (trimSpace id) ev.op))) ∧
    (∀ (s : SpoolStore) now W tr out W', Runs exec (s.claimReady now) W tr out W' →
      ∀ ev ∈ tr, ∀ st rec, ev.op = .tx (.update st rec) → rec.state = .deadLetter →
        FoundProblem s tr ev rec.id) ∧
    (∀ (s : SpoolStore) now W tr out W', Runs exec (s.recover now) W tr out W' →
      ∀ ev ∈ tr, ∀ st rec, ev.op = .tx (.update st rec) → rec.state = .deadLetter →
        FoundProblem s tr ev rec.id) := by
  refine ⟨fun p id W f hid => loadReports_corrupt_iff hid, ?_, ?_, ?_⟩
  · intro p id W tr out W' h
    refine ⟨fun hinvalid hr => hinvalid (load_invalid h hr), fun hid => ?_⟩
    rw [load_of_canonical hid] at h
    obtain ⟨-, f0, hf0, -, -⟩ := loadFrom_run h
    refine ⟨⟨f0, hf0⟩, fun f hf => ?_⟩
    have hloaded := loadFrom_described h hf
    unfold Loaded at hloaded
    cases hpr : firstProblem W.files f (trimSpace id) with
    | none =>
      rw [hpr] at hloaded
      refine ⟨?_, ?_⟩
      · rintro ⟨e, he, -⟩
        nomatch hloaded.symm.trans he
      · rintro msg rfl
        cases hloaded
        exact ⟨rfl, intact_of_noProblem hpr,
          fun ev hev => (h.uses (loadFrom_asks _) ev hev).readsOnly⟩
    | some pr =>
      rw [hpr] at hloaded
      refine ⟨fun hr => ⟨pr, rfl, (hloaded.2.reports.mp hr).1⟩, ?_⟩
      rintro msg rfl
      obtain ⟨-, e, he, -⟩ := hloaded
      nomatch he
  · intro s now W tr out W' h ev hev st rec hop hdead
    exact (claimReady_found h hev hop hdead).problem
  · intro s now W tr out W' h ev hev st rec hop _
    exact (recover_found h hev hop).problem

end Found

/-! ## Small cases -/

section Cases

/-- `payloads/` with the directory of one record in it. -/
def recordFiles : Files GoString :=
  (((sampleWorld ⟨[], List.nodup_nil⟩).files.put [] (lit "payloads") .dir (by decide)
    (by decide)).put payloadsRoot sampleID .dir (by decide) (by decide))

/-- There is no directory in the place of the manifest. -/
theorem recordFiles_manifest {k : Node} (h : recordFiles.get (manifestPath sampleID) = some .dir) :
    k = .dir := absurd h (by decide)

/-- A special file in the place of the manifest. -/
def specialFiles (opening : Opening) : Files GoString :=
  recordFiles.put (payloadDir sampleID) messageFileName (.special opening) (by decide)
    recordFiles_manifest

/-- A world with these files and no records. -/
def worldOf (files : Files GoString) : World := ⟨files, ⟨[], List.nodup_nil⟩, [], []⟩

/-- **A payload directory without a manifest** is reported as corrupt. -/
theorem corruption_reported_no_manifest :
    letI := Unicode.ascii
    firstProblem recordFiles noFaults sampleID = some (.file (manifestPath sampleID) .missing) ∧
      LoadReports sampleStore.payloads sampleID (worldOf recordFiles) noFaults := by
  let _ := Unicode.ascii
  have hid : Canonical (trimSpace sampleID) := ⟨by decide, by decide, by decide⟩
  have hfirst : firstProblem recordFiles noFaults (trimSpace sampleID) =
      some (.file (manifestPath sampleID) .missing) := by decide
  refine ⟨hfirst, ?_⟩
  refine ((corruption_reported_iff.1 sampleStore.payloads sampleID (worldOf recordFiles) noFaults
    hid).mpr ?_).mpr ⟨_, hfirst, trivial⟩
  rintro ⟨path, w, hx, hshut⟩
  cases hfirst.symm.trans hx
  have hnone : recordFiles.get (manifestPath sampleID) = none := by decide
  rcases hshut with h | ⟨-, e, h, -⟩
  · nomatch hnone.symm.trans h.2
  · nomatch hnone.symm.trans h

/-- A special file that cannot be opened is a wrong file type, and is not reported. -/
theorem special_not_reported [Unicode] {opening : Opening}
    (h : opening = .refuses .enxio ∨ opening = .waits) :
    firstProblem (specialFiles opening) noFaults sampleID =
        some (.file (manifestPath sampleID) .fileType) ∧
      ¬ LoadReports sampleStore.payloads sampleID (worldOf (specialFiles opening)) noFaults := by
  have hid : Canonical (trimSpace sampleID) := ⟨by decide, by decide, by decide⟩
  have hfirst : firstProblem (specialFiles opening) noFaults (trimSpace sampleID) =
      some (.file (manifestPath sampleID) .fileType) := by
    rcases h with rfl | rfl
    · decide
    · decide
  have hget : (specialFiles opening).get (manifestPath sampleID) = some (.special opening) := rfl
  refine ⟨hfirst, fun hreports => ?_⟩
  obtain ⟨pr, hpr, hreported, -⟩ := (loadReports_iff hid).mp hreports
  cases hfirst.symm.trans hpr
  refine hreported.2 (manifestPath sampleID) .fileType rfl ?_
  rcases h with rfl | rfl
  · exact Or.inr ⟨rfl, .enxio, hget, .enxio, rfl⟩
  · exact Or.inl ⟨rfl, hget⟩

/-- **A UNIX socket or a FIFO in the place of the manifest**: `Load` does not report it, and in the
    second case does not return at all. -/
theorem corruption_not_reported_special :
    letI := Unicode.ascii
    (firstProblem (specialFiles (.refuses .enxio)) noFaults sampleID =
        some (.file (manifestPath sampleID) .fileType) ∧
      ¬ LoadReports sampleStore.payloads sampleID (worldOf (specialFiles (.refuses .enxio))) noFaults) ∧
    firstProblem (specialFiles .waits) noFaults sampleID =
        some (.file (manifestPath sampleID) .fileType) ∧
      ¬ LoadReports sampleStore.payloads sampleID (worldOf (specialFiles .waits)) noFaults := by
  let _ := Unicode.ascii
  exact ⟨special_not_reported (Or.inl rfl), special_not_reported (Or.inr rfl)⟩

end Cases

end SmtpCloudRelay.Spool
