/-
  LOADING A PAYLOAD, as a function of what is on disk and of what goes wrong.

  `Load` only asks: it opens three directories and reads files, each at a path of its own.  So a run of
  it is determined by the tree and by the error numbers with which the outside makes questions fail,
  one for each path (`Faults`): `loadFrom_run` finds the faults of a run, and the outcome of the run is
  the program's value for the answers of tree and faults.  All that is proved about loading is proved
  about this value, one question after the other (`Settles`):

  * the FIRST PROBLEM on the way from the spool root to the last attachment decides the outcome
    (`firstProblem`, `settles_loadFrom`), and whether it is reported as corruption of the record;
  * without a problem, the outcome is the message that the tree holds (`messageAt`).
-/
import SmtpCloudRelay.Spool.Publication
import SmtpCloudRelay.Spool.Stored
import SmtpCloudRelay.Lib.Halts

namespace SmtpCloudRelay.Spool

open Go Lib Act List

/-! ## What goes wrong -/

/-- What `Load` asks about: `none` for the spool root, or the path of a directory or a file. -/
def asked : Op → Option (Option Path)
  | .openRoot => some none
  | .fs (.openDir p) => some (some p)
  | .fs (.readFile p) => some (some p)
  | _ => none

/-- What goes wrong with each question: an error number (and, for the root, the text before it). -/
abbrev Faults := Option Path → Option (GoString × Errno)

/-- Nothing goes wrong. -/
def noFaults : Faults := fun _ => none

/-- The choice of the outside for a system call. -/
def callChoice : Option (GoString × Errno) → Call.Choice GoString
  | none => .go
  | some (_, e) => .fault e

/-- The choice of the outside for a question. -/
def chosen : Op → Option (GoString × Errno) → Choice
  | .openRoot, none => .opened
  | .openRoot, some (before, e) => .notOpened before e
  | _, x => .call (callChoice x)

/-- The answer to a question. -/
def answered (t : Files GoString) (x : Option (GoString × Errno)) : (o : Op) → Option o.Res
  | .openRoot => answer .openRoot (chosen .openRoot x)
  | .fs (.openDir p) => ((Call.openDir p).perform t (callChoice x)).map (·.1)
  | .fs (.readFile p) => ((Call.readFile p).perform t (callChoice x)).map (·.1)
  | _ => none

/-- The answers to all questions. -/
def answers (t : Files GoString) (f : Faults) (o : Op) : Option o.Res :=
  (asked o).bind fun q => answered t (f q) o

/-! ## A run has faults -/

/-- The protocol of asking every question at most once: the knowledge is what was asked. -/
def askOnce : Proto spoolSig (List (Option Path)) where
  ok κ o := ∃ q, asked o = some q ∧ q ∉ κ
  next κ o _ κ' := ∀ q, asked o = some q → κ' = q :: κ

section Runs

variable [Unicode] {α : Type}

omit [Unicode] in
theorem looking_chosen {β : Type} {t t' : Files GoString} {x : Option (Except Errno β)}
    {r : Except Errno β} {cc : Call.Choice GoString} (h : Call.looking t x cc = some (r, t')) :
    t' = t ∧ ∃ y, cc = callChoice y := by
  refine ⟨(Call.looking_cases h).1, ?_⟩
  cases cc with
  | go => exact ⟨none, rfl⟩
  | fault e => exact ⟨some ([], e), rfl⟩
  | wrote k e | names l => nomatch h

/-- A question changes nothing, and its answer is determined by what goes wrong with it. -/
theorem exec_asked {o : Op} {q : Option Path} (ho : asked o = some q) {c : Choice} {W W' : World}
    {r : o.Res} (h : exec o c W = some (r, W')) :
    W' = W ∧ ∃ x, c = chosen o x ∧ answered W.files x o = some r := by
  cases o with
  | openRoot =>
    obtain ⟨ha, -, rfl⟩ := exec_other h rfl rfl
    refine ⟨rfl, ?_⟩
    cases c with
    | opened => exact ⟨none, rfl, ha⟩
    | notOpened before e => exact ⟨some (before, e), rfl, ha⟩
    | _ => nomatch ha
  | fs call =>
    obtain ⟨cc, files, rfl, hp, rfl⟩ := exec_fs h
    cases call with
    | openDir p | readFile p =>
      obtain ⟨rfl, x, rfl⟩ := looking_chosen hp
      refine ⟨rfl, x, rfl, ?_⟩
      show Option.map _ (Call.perform _ _ _) = _
      rw [hp]
      rfl
    | _ => nomatch ho
  | _ => nomatch ho

/-- The answer that the table has is an answer of the outside. -/
theorem exec_answers {t : Files GoString} {f : Faults} {o : Op} {r : o.Res} {W : World}
    (hW : W.files = t) (h : answers t f o = some r) :
    ∃ q, asked o = some q ∧ exec o (chosen o (f q)) W = some (r, W) := by
  subst hW
  obtain ⟨q, hq, hr⟩ := Option.bind_eq_some_iff.mp h
  refine ⟨q, hq, ?_⟩
  cases o with
  | openRoot =>
    cases hx : f q with
    | none | some x =>
      rw [hx] at hr
      cases hr
      rfl
  | fs call =>
    cases call with
    | openDir p | readFile p =>
      -- the call only looks, so that the tree after it is the tree
      obtain ⟨⟨r', t'⟩, hp, rfl⟩ := Option.map_eq_some_iff.mp hr
      obtain rfl := (Call.looking_cases hp).1
      show (Call.perform _ _ _).map _ = _
      rw [hp]
      rfl
    | _ => nomatch hq
  | _ => nomatch hq

/-- The events of a run are answered by the table of the tree and the faults `f`. -/
def Follows (f : Faults) (t : Files GoString) (ev : SpoolEvent) : Prop :=
  ∃ q, asked ev.op = some q ∧ ev.choice = chosen ev.op (f q) ∧ answered t (f q) ev.op = some ev.res

/-- **A run that asks every question at most once has faults**: one table answers all of it. -/
theorem runs_faults {p : Prog spoolSig α} {Q : α → List (Option Path) → Prop} {W W' : World}
    {tr : Trace} {a : α} {κ : List (Option Path)}
    (h : Prog.Runs exec p W tr a W') (hp : p.Safe askOnce Q κ) :
    W' = W ∧ ∃ f : Faults, (∀ ev ∈ tr, Follows f W.files ev) ∧
      (∀ ev ∈ tr, ∀ q, asked ev.op = some q → q ∉ κ) ∧
      ∀ q x, f q = some x → ∃ ev ∈ tr, asked ev.op = some q ∧ ev.choice = chosen ev.op (some x) := by
  classical
  induction h generalizing κ with
  | ret a w =>
    exact ⟨rfl, noFaults, fun ev hev => (nomatch hev), fun ev hev => (nomatch hev),
      fun q x hx => nomatch hx⟩
  | @step o k w w1 w' c r tr a hE hk ih =>
    obtain ⟨⟨q, hq, hqκ⟩, hrest⟩ := hp
    obtain ⟨rfl, x, rfl, hr⟩ := exec_asked hq hE
    have hnext : askOnce.next κ o r (q :: κ) := by
      intro q' hq'
      rw [hq] at hq'
      rw [Option.some.inj hq']
    obtain ⟨hw, f, hf, hfresh, hcause⟩ := ih (hrest r _ hnext)
    refine ⟨hw, Function.update f q x, ?_, ?_, ?_⟩
    · intro ev hev
      rcases mem_cons.mp hev with rfl | hev
      · exact ⟨q, hq, by rw [Function.update_self], by rw [Function.update_self]; exact hr⟩
      · obtain ⟨q', hq', hc, ha⟩ := hf ev hev
        have hne : q' ≠ q := by
          rintro rfl
          exact hfresh ev hev q' hq' (mem_cons_self ..)
        exact ⟨q', hq', by rw [Function.update_of_ne hne]; exact hc,
          by rw [Function.update_of_ne hne]; exact ha⟩
    · intro ev hev q' hq'
      rcases mem_cons.mp hev with rfl | hev
      · rw [show q' = q from Option.some.inj (hq'.symm.trans hq)]
        exact hqκ
      · exact fun hmem => hfresh ev hev q' hq' (mem_cons_of_mem _ hmem)
    · intro q' y hy
      by_cases hne : q' = q
      · subst hne
        rw [Function.update_self] at hy
        subst hy
        exact ⟨_, mem_cons_self .., hq, rfl⟩
      · rw [Function.update_of_ne hne] at hy
        obtain ⟨ev, hev, hask, hchoice⟩ := hcause q' y hy
        exact ⟨ev, mem_cons_of_mem _ hev, hask, hchoice⟩
  | loop h ih => exact ih hp.unroll

end Runs

/-! ## What may be wrong with a payload -/

/-- What may be wrong with an entry. -/
inductive Wrong where
  | missing
  | symlink
  | fileType
  | io (e : Errno)
  deriving DecidableEq

/-- What an error number says about the entry that was to be opened. -/
def told : Errno → Wrong
  | .enoent => .missing
  | .eloop => .symlink
  | .enotdir => .fileType
  | e => .io e

/-- What is wrong with an entry that should be a directory. -/
def wrongDir (t : Files GoString) (f : Faults) (p : Path) : Option Wrong :=
  match f (some p) with
  | some (_, e) => some (told e)
  | none =>
    match t.get p with
    | some .dir => none
    | none => some .missing
    | some .symlink => some .symlink
    | some _ => some .fileType

/-- What is wrong with an entry that should be a regular file. -/
def wrongFile (t : Files GoString) (f : Faults) (p : Path) : Option Wrong :=
  match f (some p) with
  | some (_, e) => some (told e)
  | none =>
    match t.get p with
    | some (.file _) => none
    | none => some .missing
    | some .symlink => some .symlink
    | some _ => some .fileType

/-- The first problem that there is with a payload, on the way from the spool root to the last
    attachment. -/
inductive Problem where
  /-- The spool root cannot be opened. -/
  | root
  /-- The directory `payloads/` cannot be opened. -/
  | payloads (w : Wrong)
  /-- A directory of the record. -/
  | directory (p : Path) (w : Wrong)
  /-- A file of the record. -/
  | file (p : Path) (w : Wrong)
  /-- The manifest is not the JSON of one. -/
  | manifest
  /-- The path, the size or the digest of reference `i` is malformed. -/
  | reference (i : Nat)
  /-- The length of attachment `i` is not the recorded one. -/
  | size (i : Nat)
  /-- The digest of attachment `i` is not the recorded one. -/
  | digest (i : Nat)
  deriving DecidableEq

/-- A problem with a file of the record. -/
def Problem.isFile : Problem → Bool
  | .file _ _ => true
  | _ => false

theorem Problem.ne_file {pr : Problem} (h : pr.isFile = false) (p : Path) (w : Wrong) :
    pr ≠ .file p w := by
  rintro rfl
  nomatch h

/-- The file of the manifest. -/
def manifestPath (id : GoString) : Path := payloadDir id ++ [messageFileName]

/-- The file of attachment `i`. -/
def attachmentFile (id : GoString) (i : Nat) : Path :=
  payloadDir id ++ [attachmentsDirName] ++ [attachmentName i]

/-- The bytes of a file. -/
def bytesAt (t : Files GoString) (p : Path) : List UInt8 :=
  match t.get p with
  | some (.file data) => data
  | _ => []

/-- The recorded digest is the digest of the bytes. -/
def digestMatches (data : List UInt8) (sha256 : GoString) : Bool :=
  equalFold (hexEncode (Sha256.sum256 data)) (trimSpace sha256)

/-- A reference of attachment `i` as it should be, but for white space around its texts: the path
    `attachments/<i>.bin`, a size, and the 64 hexadecimal digits of a digest. -/
def wellFormedRef (i : Nat) (ref : AttachmentRef) : Bool :=
  trimSpace ref.path = lit "attachments/" ++ Json.digits i ++ lit ".bin" && 0 ≤ ref.sizeBytes &&
    (trimSpace ref.sha256).length = 64 &&
    (trimSpace ref.sha256).all fun b => b ∈ lit "0123456789abcdefABCDEF"

/-- A problem, if the test says so. -/
def problemIf (b : Bool) (p : Problem) : Option Problem := if b then some p else none

/-- The first problem with the attachments, from number `i` on. -/
def attachmentProblem (t : Files GoString) (f : Faults) (id : GoString) :
    Nat → List AttachmentRef → Option Problem
  | _, [] => none
  | i, ref :: refs =>
    (problemIf (wellFormedRef i ref).not (.reference i)).or <|
    ((wrongFile t f (attachmentFile id i)).map (.file (attachmentFile id i))).or <|
    (problemIf ((bytesAt t (attachmentFile id i)).length ≠ ref.sizeBytes) (.size i)).or <|
    (problemIf (digestMatches (bytesAt t (attachmentFile id i)) ref.sha256).not (.digest i)).or <|
    attachmentProblem t f id (i + 1) refs

/-- The problem with the directory of the attachments, which is opened when there are any. -/
def attachmentsDirProblem (t : Files GoString) (f : Faults) (id : GoString)
    (refs : List AttachmentRef) : Option Problem :=
  match refs with
  | [] => none
  | _ => (wrongDir t f (payloadDir id ++ [attachmentsDirName])).map
      (.directory (payloadDir id ++ [attachmentsDirName]))

/-- The first problem with what the manifest says. -/
def manifestProblem (t : Files GoString) (f : Faults) (id : GoString) :
    Option Manifest → Option Problem
  | none => some .manifest
  | some m => (attachmentsDirProblem t f id m.attachments).or
      (attachmentProblem t f id 0 m.attachments)

/-- The manifest of a payload, read from the tree. -/
def manifestAt (t : Files GoString) (id : GoString) : Option Manifest :=
  Manifest.unmarshal (bytesAt t (manifestPath id))

/-- **The first problem with the payload of a record.** -/
def firstProblem (t : Files GoString) (f : Faults) (id : GoString) : Option Problem :=
  (problemIf (f none).isSome .root).or <|
  ((wrongDir t f payloadsRoot).map .payloads).or <|
  ((wrongDir t f (payloadDir id)).map (.directory (payloadDir id))).or <|
  ((wrongFile t f (manifestPath id)).map (.file (manifestPath id))).or <|
  manifestProblem t f id (manifestAt t id)

/-- The attachments of a payload, read from the tree. -/
def attachmentsAt (t : Files GoString) (id : GoString) : Nat → List AttachmentRef → List Attachment
  | _, [] => []
  | i, ref :: refs =>
    ⟨ref.filename, ref.contentType, bytesAt t (attachmentFile id i)⟩ ::
      attachmentsAt t id (i + 1) refs

/-- The message of a payload, read from the tree; the zero message without a manifest. -/
def messageAt (t : Files GoString) (id : GoString) : Message :=
  match manifestAt t id with
  | some m => m.message (attachmentsAt t id 0 m.attachments)
  | none => .zero

/-! ## What `Load` makes of it -/

/-- The problems that are corruption of the record's own files. -/
def Problem.Corrupt : Problem → Prop
  | .root => False
  | .payloads _ => False
  | .directory _ (.io _) => False
  | .file _ (.io _) => False
  | _ => True

/-- A special file that keeps whoever opens it waiting. -/
def waits (t : Files GoString) (f : Faults) (p : Path) : Prop :=
  f (some p) = none ∧ t.get p = some (.special .waits)

/-- A special file that cannot be opened: it refuses, with an error number of its own, or keeps whoever
    opens it waiting. -/
def shut (t : Files GoString) (f : Faults) (p : Path) : Prop :=
  waits t f p ∨
    f (some p) = none ∧ ∃ e, t.get p = some (.special (.refuses e)) ∧ ∃ e', told e = .io e'

/-- The problem is a file that keeps `Load` waiting. -/
def Problem.Waits (t : Files GoString) (f : Faults) (p : Problem) : Prop :=
  ∃ path w, p = .file path w ∧ waits t f path

/-- The problems that `Load` reports as corruption. -/
def Problem.Reported (t : Files GoString) (f : Faults) (p : Problem) : Prop :=
  p.Corrupt ∧ ∀ path w, p = .file path w → ¬ shut t f path

/-- The error is a `PayloadCorruptionError`. -/
def ReportsCorruption {α : Type} (out : Except GoError α) : Prop :=
  ∃ e, out = .error e ∧ e.isPayloadCorruption = true

/-- An error, and whether it is reported as corruption. -/
def Fails {α : Type} (out : Except GoError α) (corrupt : Prop) : Prop :=
  ∃ e, out = .error e ∧ (e.isPayloadCorruption = true ↔ corrupt)

section Values

variable {t : Files GoString} {f : Faults} {id path : GoString} {missing : String}

theorem classify_errno (e : Errno) :
    (PayloadStore.classifyRecordPathError id path missing (.errno e)).isPayloadCorruption = true ↔
      ∀ e', told e ≠ .io e' := by
  cases e with
  | enoent | eloop | enotdir => exact ⟨fun _ e' he => (nomatch he), fun _ => rfl⟩
  | _ => exact ⟨nofun, fun h => absurd rfl (h _)⟩

theorem eval_sys_none {c : Call GoString} (h : answers t f (.fs c) = none) :
    (sys c).eval (answers t f) = none := by
  show (answers t f (.fs c)).bind _ = _
  rw [h]
  rfl

theorem eval_sys {c : Call GoString} {r : Except Errno c.Answer} (h : answers t f (.fs c) = some r) :
    (sys c).eval (answers t f) = some r := by
  show (answers t f (.fs c)).bind _ = _
  rw [h]
  rfl

/-- What opening a directory answers. -/
def lookDir (t : Files GoString) (f : Faults) (p : Path) : Except Errno Unit :=
  match f (some p) with
  | some (_, e) => .error e
  | none => if t.get p = some .dir then .ok () else .error (t.notDir p)

theorem answers_openDir (p : Path) : answers t f (.fs (.openDir p)) = some (lookDir t f p) := by
  show answered t (f (some p)) (.fs (.openDir p)) = _
  unfold lookDir
  cases f (some p) with
  | none | some x => rfl

/-- The question whether a directory can be opened. -/
theorem lookDir_cases (t : Files GoString) (f : Faults) (p : Path) :
    (wrongDir t f p = none → lookDir t f p = .ok ()) ∧
    ∀ w, wrongDir t f p = some w → ∃ e, lookDir t f p = .error e ∧
      ((∀ e', told e ≠ .io e') ↔ ∀ e', w ≠ .io e') := by
  unfold lookDir wrongDir
  cases f (some p) with
  | some x =>
    refine ⟨nofun, ?_⟩
    rintro w ⟨⟩
    exact ⟨x.2, rfl, Iff.rfl⟩
  | none =>
    have htold : ∀ e', told .enotdir ≠ .io e' := fun e' he => nomatch he
    dsimp only
    cases hget : t.get p with
    | none =>
      refine ⟨nofun, ?_⟩
      rintro w ⟨⟩
      refine ⟨.enoent, ?_, fun _ e' he => (nomatch he), fun _ e' he => (nomatch he)⟩
      simp [Files.notDir, hget]
    | some k =>
      cases k with
      | dir => exact ⟨fun _ => if_pos rfl, fun w hw => nomatch hw⟩
      | symlink | file data | special refusal =>
        refine ⟨nofun, ?_⟩
        rintro w ⟨⟩
        exact ⟨.enotdir, by simp [Files.notDir, hget], fun _ e' he => (nomatch he), fun _ => htold⟩

theorem answers_readFile (p : Path) :
    answers t f (.fs (.readFile p)) = match f (some p) with
      | some (_, e) => some (.error e)
      | none => Call.reads (t.get p) := by
  show answered t (f (some p)) (.fs (.readFile p)) = _
  cases f (some p) with
  | none =>
    show ((Call.reads (t.get p)).map (·, t)).map (·.1) = _
    rw [Option.map_map]
    exact Option.map_id' ..
  | some x => rfl

theorem eval_readRegular {p : Path} {r : Except Errno (Option (List UInt8))}
    (h : answers t f (.fs (.readFile p)) = some r) :
    (readRegularFileAtNoFollow p).eval (answers t f) = some (match r with
      | .ok (some data) => .ok data
      | .ok none => .error .unexpectedFileType
      | .error e => .error (.errno e)) := by
  cases r with
  | error e => exact eval_bind_error (eval_mapError_error (eval_sys h))
  | ok data =>
    refine (eval_bind_ok (eval_mapError_ok (eval_sys h))).trans ?_
    cases data with
    | none | some data => rfl

theorem directory_reported {p : Path} {w : Wrong} :
    (Problem.directory p w).Reported t f ↔ ∀ e', w ≠ .io e' := by
  constructor
  · rintro ⟨hc, -⟩ e' rfl
    exact hc
  · intro h
    refine ⟨?_, fun path w hx => nomatch hx⟩
    cases w with
    | io e => exact absurd rfl (h e)
    | _ => trivial

theorem file_reported {p : Path} {w : Wrong} :
    (Problem.file p w).Reported t f ↔ (∀ e', w ≠ .io e') ∧ ¬ shut t f p := by
  constructor
  · rintro ⟨hc, hr⟩
    refine ⟨?_, hr p w rfl⟩
    rintro e' rfl
    exact hc
  · rintro ⟨h, hr⟩
    refine ⟨?_, ?_⟩
    · cases w with
      | io e => exact absurd rfl (h e)
      | _ => trivial
    · rintro path w' ⟨⟩
      exact hr

/-- A problem that is no missing or unreadable entry is always reported. -/
theorem reported_of_content {pr : Problem} (hc : pr.Corrupt) (hf : pr.isFile = false) :
    pr.Reported t f :=
  ⟨hc, fun path w hx => absurd hx (Problem.ne_file hf path w)⟩

/-- The value of a program that has met a problem: an error, reported as corruption or not as the
    problem is; or none, when it waits for ever. -/
inductive Meets (t : Files GoString) (f : Faults) (pr : Problem) {α : Type} :
    Option (Except GoError α) → Prop where
  | fails {e : GoError} (h : ¬ pr.Waits t f) (he : e.isPayloadCorruption = true ↔ pr.Reported t f) :
      Meets t f pr (some (.error e))
  | waits (h : pr.Waits t f) : Meets t f pr none

/-- A problem that is not about a file ends in an error. -/
theorem Meets.error {α : Type} {pr : Problem} {e : GoError} (hf : pr.isFile = false)
    (he : e.isPayloadCorruption = true ↔ pr.Reported t f) :
    Meets t f pr (some (.error e : Except GoError α)) :=
  .fails (fun ⟨path, w, hx, _⟩ => Problem.ne_file hf path w hx) he

/-- The value of a program is `a` when there is no problem, and what meeting the problem makes of it
    when there is one. -/
structure Settles (t : Files GoString) (f : Faults) {α : Type} (p : Task α) (pr : Option Problem)
    (a : α) : Prop where
  fine : pr = none → p.eval (answers t f) = some (.ok a)
  fails : ∀ x, pr = some x → Meets t f x (p.eval (answers t f))

theorem settles_pure {α : Type} (a : α) : Settles t f (pure a) none a :=
  ⟨fun _ => rfl, fun _ h => nomatch h⟩

/-- One part after the other: the problems of the first come first. -/
theorem Settles.bind {α β : Type} {p : Task α} {g : α → Task β} {pr1 pr2 : Option Problem} {a : α}
    {b : β} (hp : Settles t f p pr1 a) (hg : Settles t f (g a) pr2 b) :
    Settles t f (p >>= g) (pr1.or pr2) b := by
  cases pr1 with
  | none =>
    have heval : (p >>= g).eval (answers t f) = (g a).eval (answers t f) :=
      eval_bind_ok (hp.fine rfl)
    exact ⟨fun h => heval.trans (hg.fine h), fun x h => by rw [heval]; exact hg.fails x h⟩
  | some y =>
    refine ⟨nofun, ?_⟩
    rintro x ⟨⟩
    have hmeets := hp.fails y rfl
    generalize hv : p.eval (answers t f) = v at hmeets
    cases hmeets with
    | fails h he =>
      rw [eval_bind_error hv]
      exact .fails h he
    | waits h =>
      rw [eval_bind_none hv]
      exact .waits h

theorem Settles.map {α β : Type} {p : Task α} {pr : Option Problem} {a : α} (hp : Settles t f p pr a)
    (g : α → β) : Settles t f (p >>= fun a => pure (g a)) pr (g a) := by
  have h := hp.bind (g := fun a => pure (g a)) (settles_pure (g a))
  rwa [Option.or_none] at h

/-- A check of the contents, which fails with a corruption. -/
theorem settles_check {x : Except GoError Unit} {b : Bool} (pr : Problem) (hc : pr.Corrupt)
    (hf : pr.isFile = false) (hfine : b = false → x = .ok ())
    (hbad : b = true → ReportsCorruption x) : Settles t f (check x) (problemIf b pr) () := by
  cases b with
  | false =>
    rw [hfine rfl]
    exact ⟨fun _ => rfl, fun x h => nomatch h⟩
  | true =>
    obtain ⟨e, rfl, he⟩ := hbad rfl
    refine ⟨nofun, ?_⟩
    rintro y ⟨⟩
    exact .error hf ⟨fun _ => reported_of_content hc hf, fun _ => he⟩

theorem settles_content {b : Bool} (pr : Problem) {e : GoError} (hc : pr.Corrupt)
    (hf : pr.isFile = false) (he : e.isPayloadCorruption = true) {P : Prop} [Decidable P]
    (hb : b = true ↔ P) : Settles t f (check (failIf P e)) (problemIf b pr) () := by
  refine settles_check pr hc hf (fun h => ?_) fun h => ⟨e, ?_, he⟩
  · exact failIf_eq_ok.mpr fun hP => by rw [hb.mpr hP] at h; nomatch h
  · unfold failIf
    rw [if_pos (hb.mp h)]

theorem settles_openRoot {before : GoString} :
    Settles t f (openRootOr before) (problemIf (f none).isSome .root) () := by
  have hval : ∀ x, answered t (f none) .openRoot = some x →
      (openRootOr before).eval (answers t f) = (Act.mapError (.wrap before)
        (Prog.ret x : Task Unit)).eval (answers t f) := by
    intro x hx
    show (answered t (f none) .openRoot).bind _ = _
    rw [hx]
    rfl
  cases hf : f none with
  | none =>
    refine ⟨fun _ => ?_, fun x h => nomatch h⟩
    rw [hval (.ok ()) (by rw [hf]; rfl)]
    rfl
  | some y =>
    refine ⟨nofun, ?_⟩
    rintro x ⟨⟩
    rw [hval (.error (.wrap y.1 (.errno y.2))) (by rw [hf]; rfl)]
    exact .error rfl ⟨nofun, fun h => h.1.elim⟩

theorem settles_openPayloads {before : GoString} (p : Path) :
    Settles t f (sysOr before (.openDir p)) ((wrongDir t f p).map .payloads) () := by
  obtain ⟨hok, hbad⟩ := lookDir_cases t f p
  have hask := eval_sys (answers_openDir (t := t) (f := f) p)
  cases hw : wrongDir t f p with
  | none =>
    rw [hok hw] at hask
    exact ⟨fun _ => eval_mapError_ok hask, fun x h => nomatch h⟩
  | some w =>
    refine ⟨nofun, ?_⟩
    rintro x ⟨⟩
    obtain ⟨e, he, -⟩ := hbad w hw
    rw [he] at hask
    rw [show (sysOr before (.openDir p)).eval (answers t f) = _ from eval_mapError_error hask]
    exact .error rfl ⟨nofun, fun h => h.1.elim⟩

theorem settles_openEntry (p : Path) :
    Settles t f ((openDirectoryAtNoFollow p).mapError
      (PayloadStore.classifyRecordPathError id path missing))
      ((wrongDir t f p).map (.directory p)) () := by
  obtain ⟨hok, hbad⟩ := lookDir_cases t f p
  have hask := eval_sys (answers_openDir (t := t) (f := f) p)
  cases hw : wrongDir t f p with
  | none =>
    rw [hok hw] at hask
    exact ⟨fun _ => eval_mapError_ok (eval_mapError_ok hask), fun x h => nomatch h⟩
  | some w =>
    refine ⟨nofun, ?_⟩
    rintro x ⟨⟩
    obtain ⟨e, he, htold⟩ := hbad w hw
    rw [he] at hask
    rw [eval_mapError_error (p := openDirectoryAtNoFollow p) (eval_mapError_error hask)]
    exact .error rfl
      ((classify_errno e).trans (htold.trans directory_reported.symm))

/-- An entry that is no special file, or one that opens. -/
theorem not_shut {p : Path} {k : Option Node} (hget : t.get p = k)
    (hk : ∀ o, k = some (.special o) → o = .opens) : ¬ shut t f p := by
  rintro (⟨-, he⟩ | ⟨-, e, he, -⟩)
  · nomatch hk _ (hget.symm.trans he)
  · nomatch hk _ (hget.symm.trans he)

theorem settles_readEntry (p : Path) :
    Settles t f ((readRegularFileAtNoFollow p).mapError
      (PayloadStore.classifyRecordPathError id path missing))
      ((wrongFile t f p).map (.file p)) (bytesAt t p) := by
  have hread := answers_readFile (t := t) (f := f) p
  -- an entry of the wrong kind, told by its error or by its type
  have hwrong : ∀ (w : Wrong) (e : GoError), wrongFile t f p = some w → ¬ waits t f p →
      (readRegularFileAtNoFollow p).eval (answers t f) = some (.error e) →
      ((PayloadStore.classifyRecordPathError id path missing e).isPayloadCorruption = true ↔
        (∀ e', w ≠ .io e') ∧ ¬ shut t f p) →
      Settles t f ((readRegularFileAtNoFollow p).mapError
        (PayloadStore.classifyRecordPathError id path missing))
        ((wrongFile t f p).map (.file p)) (bytesAt t p) := by
    intro w e hw hwaits heval hiff
    rw [hw]
    refine ⟨nofun, ?_⟩
    rintro x ⟨⟩
    rw [eval_mapError_error heval]
    exact .fails (fun ⟨_, _, hx, h⟩ => hwaits ((Problem.file.inj hx).1 ▸ h))
      (hiff.trans file_reported.symm)
  -- an entry that is not shut, and reported
  have hopen : ∀ (w : Wrong) (e : GoError), wrongFile t f p = some w → ¬ shut t f p →
      (∀ e', w ≠ .io e') → (readRegularFileAtNoFollow p).eval (answers t f) = some (.error e) →
      (PayloadStore.classifyRecordPathError id path missing e).isPayloadCorruption = true →
      Settles t f ((readRegularFileAtNoFollow p).mapError
        (PayloadStore.classifyRecordPathError id path missing))
        ((wrongFile t f p).map (.file p)) (bytesAt t p) :=
    fun w e hw hshut hio heval he => hwrong w e hw (fun h => hshut (Or.inl h)) heval
      ⟨fun _ => ⟨hio, hshut⟩, fun _ => he⟩
  cases hf : f (some p) with
  | some x =>
    rw [hf] at hread
    have hshut : ¬ shut t f p := by
      rintro (h | h)
      · nomatch hf.symm.trans h.1
      · nomatch hf.symm.trans h.1
    exact hwrong (told x.2) (.errno x.2) (by unfold wrongFile; rw [hf]) (fun h => hshut (Or.inl h))
      (eval_readRegular hread) ((classify_errno x.2).trans ⟨fun h => ⟨h, hshut⟩, fun h => h.1⟩)
  | none =>
    rw [hf] at hread
    cases hget : t.get p with
    | none =>
      rw [hget] at hread
      exact hopen .missing _ (by unfold wrongFile; rw [hf, hget]) (not_shut hget fun o ho => nomatch ho)
        (fun e' he => nomatch he) (eval_readRegular hread) rfl
    | some k =>
      rw [hget] at hread
      cases k with
      | file data =>
        have hbytes : bytesAt t p = data := by unfold bytesAt; rw [hget]
        have hfine : wrongFile t f p = none := by unfold wrongFile; rw [hf, hget]
        rw [hfine, hbytes]
        exact ⟨fun _ => eval_mapError_ok (eval_readRegular hread), fun x h => nomatch h⟩
      | dir =>
        exact hopen .fileType _ (by unfold wrongFile; rw [hf, hget])
          (not_shut hget fun o ho => nomatch ho) (fun e' he => nomatch he) (eval_readRegular hread) rfl
      | symlink =>
        exact hopen .symlink _ (by unfold wrongFile; rw [hf, hget])
          (not_shut hget fun o ho => nomatch ho) (fun e' he => nomatch he) (eval_readRegular hread) rfl
      | special opening =>
        have hw : wrongFile t f p = some .fileType := by unfold wrongFile; rw [hf, hget]
        cases opening with
        | opens =>
          refine hopen .fileType _ hw (not_shut hget fun o ho => ?_) (fun e' he => nomatch he)
            (eval_readRegular hread) rfl
          cases ho
          rfl
        | refuses e =>
          have hwaits : ¬ waits t f p := fun h => nomatch hget.symm.trans h.2
          refine hwrong .fileType _ hw hwaits (eval_readRegular hread)
            ((classify_errno e).trans ⟨fun h => ⟨fun e' he => (nomatch he), ?_⟩, fun h e' he => ?_⟩)
          · rintro (hx | ⟨-, e1, he1, e', he'⟩)
            · exact hwaits hx
            · cases hget.symm.trans he1
              exact h e' he'
          · exact h.2 (Or.inr ⟨hf, e, hget, e', he⟩)
        | waits =>
          -- the open is not answered
          have hnone : (readRegularFileAtNoFollow p).eval (answers t f) = none :=
            eval_bind_none (eval_mapError_none (eval_sys_none hread))
          rw [hw]
          refine ⟨nofun, ?_⟩
          rintro x ⟨⟩
          rw [eval_mapError_none hnone]
          exact .waits ⟨p, _, rfl, hf, hget⟩

/-- A text is decoded to so many bytes exactly if it consists of twice as many hexadecimal digits. -/
theorem hexDecode_length : ∀ (s : GoString) (n : Nat), (hexDecode s).map List.length = some n ↔
    s.length = 2 * n ∧ ∀ b ∈ s, (Json.hexValue b).isSome = true
  | [], n => by
    simp only [hexDecode, Option.map_some, Option.some.injEq, length_nil]
    exact ⟨fun h => ⟨by omega, forall_mem_nil _⟩, fun h => by omega⟩
  | [a], n => by
    constructor
    · intro h
      cases h
    · intro h
      have hlen : 1 = 2 * n := h.1
      omega
  | a :: b :: s, n => by
    have ih := hexDecode_length s (n - 1)
    rw [hexDecode, forall_mem_cons, forall_mem_cons, length_cons, length_cons]
    cases Json.hexValue a with
    | none => simp
    | some x =>
      cases Json.hexValue b with
      | none => simp
      | some y =>
        cases hs : hexDecode s with
        | none =>
          rw [hs] at ih
          simp only [Option.map_none, reduceCtorEq, false_iff] at ih ⊢
          exact fun h => ih ⟨by omega, h.2.2.2⟩
        | some bs =>
          rw [hs] at ih
          simp only [Option.map_some, Option.some.injEq, length_cons, Option.isSome_some, true_and] at ih ⊢
          constructor
          · rintro rfl
            have := ih.mp rfl
            exact ⟨by omega, this.2⟩
          · rintro ⟨hlen, hall⟩
            have := ih.mpr ⟨by omega, hall⟩
            omega

theorem hexDigit_iff : ∀ b : UInt8, b ∈ lit "0123456789abcdefABCDEF" ↔ (Json.hexValue b).isSome = true :=
  forall_byte (by decide +kernel)

variable [Unicode] {s : PayloadStore}

theorem validateAttachmentRef_ok {i : Nat} {ref : AttachmentRef} :
    validateAttachmentRef i ref = .ok () ↔ wellFormedRef i ref = true := by
  unfold validateAttachmentRef wellFormedRef
  simp only [failIf_bind_eq_ok, failIf_eq_ok, hexDecode_length, hexDigit_iff, not_not, Int.not_lt, Bool.and_eq_true,
    decide_eq_true_eq, all_eq_true, and_assoc]
  rfl

theorem settles_reference {i : Nat} {ref : AttachmentRef} :
    Settles t f (check ((validateAttachmentRef i ref).mapError (.payloadCorruption id path)))
      (problemIf (wellFormedRef i ref).not (.reference i)) () := by
  refine settles_check _ trivial rfl (fun h => ?_) fun h => ?_
  · rw [validateAttachmentRef_ok.mpr (by simpa using h)]
    rfl
  · cases hv : validateAttachmentRef i ref with
    | ok u =>
      rw [validateAttachmentRef_ok.mp hv] at h
      nomatch h
    | error e => exact ⟨_, rfl, rfl⟩

/-- **The attachments**, one after the other. -/
theorem settles_attachments (i : Nat) (refs : List AttachmentRef) :
    Settles t f (s.loadAttachments id i refs) (attachmentProblem t f id i refs)
      (attachmentsAt t id i refs) := by
  induction refs generalizing i with
  | nil => exact settles_pure []
  | cons ref refs ih =>
    refine settles_reference.bind ((settles_readEntry (attachmentFile id i)).bind ?_)
    refine Settles.bind (settles_content (.size i) trivial rfl rfl ?_) ?_
    · exact decide_eq_true_iff
    refine Settles.bind (settles_content (.digest i) trivial rfl rfl ?_) ?_
    · unfold digestMatches
      rw [Bool.not_eq_true']
    exact (ih (i + 1)).map _

theorem settles_manifest (id : GoString) :
    Settles t f (match Manifest.unmarshal (bytesAt t (manifestPath id)) with
      | some m => s.loadManifest id m
      | none => .fail (.payloadCorruption id (pathText s.root (manifestPath id))
          (.wrap (lit "decode payload manifest: ")
            (.foreign .plain (s.jsonError (bytesAt t (manifestPath id)))))))
      (manifestProblem t f id (manifestAt t id)) (messageAt t id) := by
  unfold messageAt manifestAt
  cases Manifest.unmarshal (bytesAt t (manifestPath id)) with
  | none =>
    refine ⟨nofun, ?_⟩
    rintro x ⟨⟩
    exact .error rfl ⟨fun _ => reported_of_content trivial rfl, fun _ => rfl⟩
  | some m =>
    have hdir : Settles t f (s.openAttachments id m.attachments)
        (attachmentsDirProblem t f id m.attachments) () := by
      cases hm : m.attachments with
      | nil => exact settles_pure ()
      | cons ref refs => exact settles_openEntry _
    exact hdir.bind ((settles_attachments 0 m.attachments).map _)

/-- **Loading settles on the first problem, or on the message.** -/
theorem settles_loadFrom (id : GoString) :
    Settles t f (s.loadFrom id) (firstProblem t f id) (messageAt t id) :=
  settles_openRoot.bind <| (settles_openPayloads payloadsRoot).bind <|
    (settles_openEntry (payloadDir id)).bind <| (settles_readEntry (manifestPath id)).bind
      (settles_manifest id)

end Values

/-! ## Every run of `Load` -/

section LoadRuns

variable {q : Option Path} {κ : List (Option Path)}

/-- One question, whatever is done with its answer. -/
theorem ask_safe {o : Op} (ho : asked o = some q) (hq : q ∉ κ) {α : Type}
    {k : o.Res → Except GoError α} :
    Act.Safe askOnce (fun _ κ' => κ' = q :: κ) (.step o fun r => .ret (k r) : Task α) κ :=
  ⟨⟨q, ho, hq⟩, fun _ _ hn => hn q ho⟩

theorem ask_mapError {α ε : Type} {p : Act spoolSig ε α} {g : ε → GoError}
    (hp : p.Safe askOnce (fun _ κ' => κ' = q :: κ) κ) :
    (p.mapError g).Safe askOnce (fun _ κ' => κ' = q :: κ) κ :=
  Safe.mapError hp (fun _ _ h => h) fun _ _ h => h

theorem openRootOr_once {before : GoString} (h : none ∉ κ) :
    (openRootOr before).Safe askOnce (fun _ κ' => κ' = none :: κ) κ :=
  ask_mapError (ask_safe rfl h)

theorem sys_once {c : Call GoString} (hc : asked (.fs c) = some q) (h : q ∉ κ) :
    (sys c).Safe askOnce (fun _ κ' => κ' = q :: κ) κ :=
  ⟨⟨q, hc, h⟩, fun _ _ hn => hn q hc⟩

theorem openDir_once {p : Path} (h : some p ∉ κ) :
    (sys (.openDir p)).Safe askOnce (fun _ κ' => κ' = some p :: κ) κ := sys_once rfl h

theorem readRegular_once {p : Path} (h : some p ∉ κ) :
    (readRegularFileAtNoFollow p).Safe askOnce (fun _ κ' => κ' = some p :: κ) κ := by
  refine Safe.bind (ask_mapError (sys_once rfl h)) ?_ fun _ _ h => h
  rintro data κ' rfl
  cases data with
  | none | some bytes => exact rfl

theorem attachmentName_injective {i j : Nat} (h : attachmentName i = attachmentName j) : i = j := by
  have hdigits : Json.digits i = Json.digits j := append_cancel_right h
  have hnum := congrArg Json.ofDigits hdigits
  rwa [Json.ofDigits_digits, Json.ofDigits_digits] at hnum

theorem attachmentFile_injective {id : GoString} {i j : Nat}
    (h : attachmentFile id i = attachmentFile id j) : i = j := by
  have hname : [attachmentName i] = [attachmentName j] := append_cancel_left h
  exact attachmentName_injective (List.cons.inj hname).1

variable [Unicode] {s : PayloadStore} {id : GoString}

theorem loadAttachments_once (i : Nat) (refs : List AttachmentRef)
    (h : ∀ j, i ≤ j → some (attachmentFile id j) ∉ κ) :
    (s.loadAttachments id i refs).Safe askOnce (fun _ _ => True) κ := by
  induction refs generalizing i κ with
  | nil => trivial
  | cons ref refs ih =>
    refine Safe.lift_bind (fun _ _ => ?_) fun _ _ => trivial
    refine Safe.bind (ask_mapError (readRegular_once (h i (Nat.le_refl i)))) ?_ fun _ _ _ => trivial
    rintro data _ rfl
    refine Safe.lift_bind (fun _ _ => ?_) fun _ _ => trivial
    refine Safe.lift_bind (fun _ _ => ?_) fun _ _ => trivial
    refine Safe.bind (ih (i + 1) fun j hj => ?_) (fun _ _ _ => trivial) fun _ _ _ => trivial
    rw [mem_cons, not_or]
    refine ⟨fun heq => ?_, h j (by omega)⟩
    have hji : j = i := attachmentFile_injective (Option.some.inj heq)
    omega

omit [Unicode] in
/-- The files of a record are no other questions of `Load`. -/
theorem attachment_not_asked (id : GoString) (j : Nat) (κ : List (Option Path))
    (hκ : ∀ q ∈ κ, ∀ p, q = some p → p.length ≤ 3) : some (attachmentFile id j) ∉ κ := by
  intro hmem
  have hlen := hκ _ hmem _ rfl
  have h4 : (attachmentFile id j).length = 4 := rfl
  omega

theorem loadManifest_once (m : Manifest) (hdir : some (payloadDir id ++ [attachmentsDirName]) ∉ κ)
    (hκ : ∀ q ∈ κ, ∀ p, q = some p → p.length ≤ 3) :
    (s.loadManifest id m).Safe askOnce (fun _ _ => True) κ := by
  have hopen : (s.openAttachments id m.attachments).Safe askOnce
      (fun _ κ' => ∀ q ∈ κ', ∀ p, q = some p → p.length ≤ 3) κ := by
    cases m.attachments with
    | nil => exact hκ
    | cons ref refs =>
      refine Act.Safe.mono ?_ (ask_mapError (ask_mapError (openDir_once hdir)))
      rintro _ _ rfl q hq p rfl
      rcases mem_cons.mp hq with hp | hq
      · rw [Option.some.inj hp]
        exact Nat.le_refl 3
      · exact hκ _ hq p rfl
  refine Safe.bind hopen (fun _ κ' hκ' => ?_) fun _ _ _ => trivial
  exact Safe.bind (loadAttachments_once 0 _ fun j _ => attachment_not_asked id j κ' hκ')
    (fun _ _ _ => trivial) fun _ _ _ => trivial

theorem loadFrom_once (id : GoString) : (s.loadFrom id).Safe askOnce (fun _ _ => True) [] := by
  refine Safe.bind (openRootOr_once not_mem_nil) ?_ fun _ _ _ => trivial
  rintro _ _ rfl
  refine Safe.bind (ask_mapError (openDir_once ?_)) ?_ fun _ _ _ => trivial
  · simp
  rintro _ _ rfl
  refine Safe.bind (ask_mapError (ask_mapError (openDir_once ?_))) ?_ fun _ _ _ => trivial
  · simp [payloadDir, payloadsRoot]
  rintro _ _ rfl
  refine Safe.bind (ask_mapError (readRegular_once ?_)) ?_ fun _ _ _ => trivial
  · simp [payloadDir, payloadsRoot]
  rintro data _ rfl
  show Prog.Safe askOnce _ (match Manifest.unmarshal data with
    | some m => s.loadManifest id m
    | none => _) _
  cases Manifest.unmarshal data with
  | none => trivial
  | some m =>
    refine loadManifest_once m ?_ ?_
    · have hne : attachmentsDirName ≠ messageFileName := by decide
      simp [payloadDir, payloadsRoot, hne]
    · simp [payloadDir, payloadsRoot]

/-- What a run of `Load` returns, given the first problem. -/
def Loaded (t : Files GoString) (f : Faults) (id : GoString) (out : Except GoError Message) : Prop :=
  match firstProblem t f id with
  | some pr => ¬ pr.Waits t f ∧ Fails out (pr.Reported t f)
  | none => out = .ok (messageAt t id)

theorem loaded_of_eval {t : Files GoString} {f : Faults} {out : Except GoError Message}
    (h : (s.loadFrom id).eval (answers t f) = some out) : Loaded t f id out := by
  have hsettles := settles_loadFrom (s := s) (t := t) (f := f) id
  unfold Loaded
  cases hpr : firstProblem t f id with
  | none => exact Option.some.inj (h.symm.trans (hsettles.fine hpr))
  | some pr =>
    have hmeets := hsettles.fails pr hpr
    rw [h] at hmeets
    cases hmeets with
    | fails hwaits he => exact ⟨hwaits, _, rfl, he⟩

/-- `Load` answers, unless the first problem keeps it waiting. -/
theorem exists_eval {t : Files GoString} {f : Faults}
    (h : ∀ pr, firstProblem t f id = some pr → ¬ pr.Waits t f) :
    ∃ out, (s.loadFrom id).eval (answers t f) = some out := by
  have hsettles := settles_loadFrom (s := s) (t := t) (f := f) id
  cases hpr : firstProblem t f id with
  | none => exact ⟨_, hsettles.fine hpr⟩
  | some pr =>
    have hmeets := hsettles.fails pr hpr
    generalize (s.loadFrom id).eval (answers t f) = v at hmeets ⊢
    cases hmeets with
    | fails hwaits he => exact ⟨_, rfl⟩
    | waits hwaits => exact absurd hwaits (h pr hpr)

omit [Unicode] in
theorem readRegular_straight (p : Path) : (readRegularFileAtNoFollow p).Straight := by
  have hread : (sysRaw (.readFile p)).Straight :=
    Act.Straight.mapError (p := sys (.readFile p)) fun _ => trivial
  refine hread.bind fun data => ?_
  cases data with
  | none | some bytes => trivial

theorem loadAttachments_straight (s : PayloadStore) (id : GoString) (i : Nat)
    (refs : List AttachmentRef) : (s.loadAttachments id i refs).Straight := by
  induction refs generalizing i with
  | nil => trivial
  | cons ref refs ih =>
    refine (Act.straight_lift _ _).bind fun _ => ?_
    refine (readRegular_straight _).mapError.bind fun data => ?_
    refine (Act.straight_lift _ _).bind fun _ => (Act.straight_lift _ _).bind fun _ => ?_
    exact (ih (i + 1)).bind fun _ => trivial

/-- Loading a payload has no loops. -/
theorem loadFrom_straight (s : PayloadStore) (id : GoString) : (s.loadFrom id).Straight := by
  have hsys : ∀ {ε : Type} (c : Call GoString) (f : Errno → ε), ((sys c).mapError f).Straight :=
    fun c f => Act.Straight.mapError (p := sys c) fun _ => trivial
  refine (Act.Straight.mapError (p := (.step .openRoot .ret : Task Unit)) fun _ => trivial).bind
    fun _ => ?_
  refine (hsys _ _).bind fun _ => (hsys _ _).mapError.bind fun _ => ?_
  refine (readRegular_straight _).mapError.bind fun data => ?_
  cases Manifest.unmarshal data with
  | none => trivial
  | some m =>
    have hopen : (s.openAttachments id m.attachments).Straight := by
      cases m.attachments with
      | nil => trivial
      | cons ref refs => exact (hsys _ _).mapError
    exact hopen.bind fun _ => (loadAttachments_straight s _ 0 _).bind fun _ => trivial

/-- The choices of the outside that make these faults happen. -/
def Faults.choice (f : Faults) (o : Op) : Choice := chosen o ((asked o).bind f)

/-- **A run of `Load`** changes nothing, has faults, and returns what the first problem says. -/
theorem loadFrom_run {W W' : World} {tr : Trace}
    {out : Except GoError Message} (h : Prog.Runs exec (s.loadFrom id) W tr out W') :
    W' = W ∧ ∃ f : Faults, (∀ ev ∈ tr, ev.choice = f.choice ev.op) ∧
      (∀ q x, f q = some x →
        ∃ ev ∈ tr, asked ev.op = some q ∧ ev.choice = chosen ev.op (some x)) ∧
      Loaded W.files f id out := by
  obtain ⟨hW, f, hf, -, hcause⟩ := runs_faults h (loadFrom_once id)
  refine ⟨hW, f, ?_, hcause, ?_⟩
  · intro ev hev
    obtain ⟨q, hq, hc, -⟩ := hf ev hev
    rw [hc, Faults.choice, hq]
    rfl
  · refine loaded_of_eval (h.eval (loadFrom_straight s id) fun ev hev => ?_)
    obtain ⟨q, hq, -, ha⟩ := hf ev hev
    rw [answers, hq]
    exact ha

/-- For all faults there is a run of `Load` that has them, if it does not wait. -/
theorem exists_loadFrom_run (s : PayloadStore) {id : GoString} {W : World} {f : Faults}
    (h : ∀ pr, firstProblem W.files f id = some pr → ¬ pr.Waits W.files f) :
    ∃ tr out, Prog.Runs exec (s.loadFrom id) W tr out W ∧ (∀ ev ∈ tr, ev.choice = f.choice ev.op) ∧
      Loaded W.files f id out := by
  obtain ⟨out, heval⟩ := exists_eval (s := s) h
  have hans : ∀ o r, answers W.files f o = some r → exec o (f.choice o) W = some (r, W) := by
    intro o r hr
    obtain ⟨q, hq, hE⟩ := exec_answers rfl hr
    rw [Faults.choice, hq]
    exact hE
  obtain ⟨tr, hrun, htr⟩ := Prog.exists_runs_of_eval hans heval
  exact ⟨tr, out, hrun, htr, loaded_of_eval heval⟩

end LoadRuns

end SmtpCloudRelay.Spool
