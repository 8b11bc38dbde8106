/-
  `Recover` AGAINST ITS SPECIFICATION.

  A process that starts finds rows that a former one has left working or submitted, payloads that may
  be missing or corrupt, and entries of `payloads/` that belong to no row.  `Recover` settles all of
  it in three passes:

    1. one transaction puts the working rows back into the queue, and lists them, the submitted rows
       and all ids (`Recovered`);
    2. for each listed row the payload is loaded: the row stays, or it becomes a dead letter
       (`recoverRecords_runs`, by induction over the list);
    3. the entries of `payloads/` without a row are moved away (`Swept`).

  What a payload IS is said by the tree alone: how loading ends when no system call fails (`LoadsAs`).
  A run in which calls fail may end differently, but not with another verdict: a load that succeeds,
  or that reports a corruption, does so rightly (`load_verdict`).  The one thing to assume is that an
  error number that is no fact about the tree is never ENOENT, ELOOP or ENOTDIR (`TrueErrors`).

  `recover_passed` is the one inversion of a run; the specification (`RecoverySpec`) is read off from
  what the passes have done, field by field.
-/
import Mathlib.Data.List.Forall2
import SmtpCloudRelay.Spool.Claim
import SmtpCloudRelay.Spool.Corruption
import SmtpCloudRelay.Spool.Sweep

namespace SmtpCloudRelay.Spool

open Go Lib Lib.Prog List

/-! ## A verdict of `Load` is about the tree -/

/-- A system call that fails for a reason of its own does not say that an entry is missing, a symbolic
    link, or no directory. -/
def TrueErrors (tr : Trace) : Prop :=
  ∀ ev ∈ tr, ∀ e, ev.choice = .call (.fault e) → told e = .io e

theorem TrueErrors.left {tr tr' : Trace} (h : TrueErrors (tr ++ tr')) : TrueErrors tr :=
  fun ev hev => h ev (mem_append_left _ hev)

theorem TrueErrors.right {tr tr' : Trace} (h : TrueErrors (tr ++ tr')) : TrueErrors tr' :=
  fun ev hev => h ev (mem_append_right _ hev)

theorem TrueErrors.honest {tr : Trace} (h : TrueErrors tr) : HonestFiles tr :=
  fun ev hev hc => nomatch h ev hev .enoent hc

/-- Faults that say nothing about the tree. -/
def Faults.Plain (f : Faults) : Prop := ∀ p before e, f (some p) = some (before, e) → told e = .io e

/-- What is found with faults is also found without them, if it is nothing or a corruption; and the
    file it is about, if it is one, is not at fault. -/
def Stands (f : Faults) (x y : Option Problem) : Prop :=
  (x = none → y = none) ∧
  ∀ pr, x = some pr → pr.Corrupt → y = some pr ∧ ∀ path w, pr = .file path w → f (some path) = none

section Verdict

variable {t : Files GoString} {f : Faults} {p : Path} {make : Wrong → Problem}

theorem Stands.nothing : Stands f none none := ⟨fun _ => rfl, fun _ h => nomatch h⟩

theorem Stands.found {pr : Problem} (h : pr.isFile = false) :
    Stands f (some pr) (some pr) := by
  refine ⟨nofun, fun pr' hpr _ => ⟨hpr, fun path w heq => ?_⟩⟩
  obtain rfl : pr = pr' := Option.some.inj hpr
  exact absurd heq (Problem.ne_file h path w)

theorem Stands.test {b : Bool} {pr : Problem} (h : pr.isFile = false) :
    Stands f (problemIf b pr) (problemIf b pr) := by
  cases b with
  | false => exact Stands.nothing
  | true => exact Stands.found h

theorem Stands.or {a a' b b' : Option Problem} (h : Stands f a a') (h' : Stands f b b') :
    Stands f (a.or b) (a'.or b') := by
  cases a with
  | none =>
    rw [h.1 rfl]
    exact h'
  | some pr =>
    refine ⟨nofun, fun pr' hpr hc => ?_⟩
    obtain rfl : pr = pr' := Option.some.inj hpr
    obtain ⟨ha', hfile⟩ := h.2 pr rfl hc
    rw [ha']
    exact ⟨rfl, hfile⟩

/-- What is found by asking about a path: a call that fails is no corruption. -/
theorem Stands.asked {x y : Option Wrong} (hf : f.Plain) (hio : ∀ e, ¬ (make (.io e)).Corrupt)
    (hpath : ∀ w path w', make w = .file path w' → path = p)
    (hsome : ∀ q, f (some p) = some q → x = some (told q.2)) (hnone : f (some p) = none → x = y) :
    Stands f (x.map make) (y.map make) := by
  cases hfp : f (some p) with
  | none =>
    obtain rfl := hnone hfp
    refine ⟨id, fun pr hpr _ => ⟨hpr, fun path w' hfile => ?_⟩⟩
    obtain ⟨w, -, rfl⟩ := Option.map_eq_some_iff.mp hpr
    rw [hpath w path w' hfile]
    exact hfp
  | some q =>
    rw [hsome q hfp, hf p q.1 q.2 hfp]
    refine ⟨nofun, fun pr hpr hc => ?_⟩
    obtain rfl : make (.io q.2) = pr := Option.some.inj hpr
    exact absurd hc (hio q.2)

theorem wrongDir_stands (hf : f.Plain) (hio : ∀ e, ¬ (make (.io e)).Corrupt)
    (hdir : ∀ w, (make w).isFile = false) :
    Stands f ((wrongDir t f p).map make) ((wrongDir t noFaults p).map make) := by
  refine Stands.asked (p := p) hf hio (fun w path w' h => absurd h (Problem.ne_file (hdir w) path w'))
    (fun q hq => ?_) fun hq => ?_
  · unfold wrongDir
    rw [hq]
  · unfold wrongDir
    rw [hq]
    rfl

theorem wrongFile_stands (hf : f.Plain) :
    Stands f ((wrongFile t f p).map (.file p)) ((wrongFile t noFaults p).map (.file p)) := by
  refine Stands.asked hf (fun e h => (h : False)) (fun w path w' h => (Problem.file.inj h).1.symm)
    (fun q hq => ?_) fun hq => ?_
  · unfold wrongFile
    rw [hq]
  · unfold wrongFile
    rw [hq]
    rfl

variable {id : GoString}

theorem attachmentProblem_stands (hf : f.Plain) (i : Nat) (refs : List AttachmentRef) :
    Stands f (attachmentProblem t f id i refs) (attachmentProblem t noFaults id i refs) := by
  induction refs generalizing i with
  | nil => exact Stands.nothing
  | cons ref refs ih =>
    refine (Stands.test rfl).or ((wrongFile_stands hf).or ?_)
    exact (Stands.test rfl).or
      ((Stands.test rfl).or (ih (i + 1)))

/-- **The first problem with faults, if it is a corruption or none at all, is the first problem.** -/
theorem firstProblem_stands (hf : f.Plain) (id : GoString) :
    Stands f (firstProblem t f id) (firstProblem t noFaults id) := by
  have hroot : Stands f (problemIf (f none).isSome .root)
      (problemIf (noFaults none).isSome .root) := by
    refine ⟨fun _ => rfl, fun pr hpr hc => ?_⟩
    unfold problemIf at hpr
    split at hpr
    · obtain rfl := Option.some.inj hpr
      exact False.elim hc
    · nomatch hpr
  have hpayloads : Stands f ((wrongDir t f payloadsRoot).map .payloads)
      ((wrongDir t noFaults payloadsRoot).map .payloads) :=
    wrongDir_stands hf (fun _ h => h) fun _ => rfl
  have hdirectory : ∀ p, Stands f ((wrongDir t f p).map (.directory p))
      ((wrongDir t noFaults p).map (.directory p)) :=
    fun p => wrongDir_stands hf (fun _ h => h) fun _ => rfl
  have hmanifest : Stands f (manifestProblem t f id (manifestAt t id))
      (manifestProblem t noFaults id (manifestAt t id)) := by
    cases manifestAt t id with
    | none => exact Stands.found rfl
    | some m =>
      refine Stands.or ?_ (attachmentProblem_stands hf 0 _)
      unfold attachmentsDirProblem
      cases m.attachments with
      | nil => exact Stands.nothing
      | cons ref refs => exact hdirectory _
  exact hroot.or (hpayloads.or ((hdirectory _).or ((wrongFile_stands hf).or hmanifest)))

variable [Unicode] {s : PayloadStore}

/-- How a load ends is decided by the tree, when nothing goes wrong. -/
theorem loadsAs_iff_eval {W : World} {out : Except GoError Message} (hid : Canonical id) :
    LoadsAs s W id out ↔ (s.loadFrom id).eval (answers W.files noFaults) = some out := by
  have htrim : trimSpace id = id := hid.trimmed
  have hof : ∀ {out}, (s.loadFrom id).eval (answers W.files noFaults) = some out →
      LoadsAs s W id out := by
    intro out heval
    refine loadsAs_of_eval (htrim.symm ▸ hid) ?_
    rw [htrim]
    exact heval
  refine ⟨fun h => ?_, hof⟩
  obtain ⟨tr, hrun, htr⟩ := h.1
  rw [load_of_canonical (htrim.symm ▸ hid), htrim] at hrun
  exact hrun.eval (loadFrom_straight s id) (faultless_answers hrun (loadFrom_once id) htr).2

/-- The payload of the record loads, as this message. -/
def PayloadLoads (s : SpoolStore) (W : World) (id : GoString) (msg : Message) : Prop :=
  LoadsAs s.payloads W id (.ok msg)

/-- The payload of the record is corrupt. -/
def PayloadCorrupt (s : SpoolStore) (W : World) (id : GoString) : Prop :=
  ∃ e, LoadsAs s.payloads W id (.error e) ∧ e.isPayloadCorruption = true

/-- **A verdict of `Load` is right**: whatever calls fail, a load that succeeds and a load that reports
    a corruption say what a load without failures says. -/
theorem load_verdict {s : SpoolStore} {W W' : World} {tr : Trace} {out : Except GoError Message}
    (h : Runs exec (s.payloads.load id) W tr out W') (htrue : TrueErrors tr) (hid : Canonical id) :
    W' = W ∧ (∀ msg, out = .ok msg → PayloadLoads s W id msg) ∧
      ∀ e, out = .error e → e.isPayloadCorruption = true → PayloadCorrupt s W id := by
  have htrim : trimSpace id = id := hid.trimmed
  rw [load_of_canonical (htrim.symm ▸ hid), htrim] at h
  obtain ⟨rfl, f, -, hcause, hloaded⟩ := loadFrom_run h
  have hplain : f.Plain := by
    intro p before e hfp
    obtain ⟨ev, hev, hasked, hchoice⟩ := hcause _ _ hfp
    refine htrue ev hev e (hchoice.trans ?_)
    cases hop : ev.op with
    | openRoot =>
      rw [hop] at hasked
      nomatch hasked
    | _ => rfl
  have hstands := firstProblem_stands (t := W'.files) hplain id
  have hsettles := settles_loadFrom (s := s.payloads) (t := W'.files) (f := noFaults) id
  unfold Loaded at hloaded
  refine ⟨rfl, fun msg hmsg => ?_, fun e he hcorrupt => ?_⟩
  · subst hmsg
    cases hpr : firstProblem W'.files f id with
    | some pr =>
      rw [hpr] at hloaded
      obtain ⟨-, e, he, -⟩ := hloaded
      nomatch he
    | none =>
      rw [hpr] at hloaded
      refine (loadsAs_iff_eval hid).mpr ?_
      rw [hsettles.fine (hstands.1 hpr), hloaded]
  · subst he
    cases hpr : firstProblem W'.files f id with
    | none =>
      rw [hpr] at hloaded
      nomatch hloaded
    | some pr =>
      rw [hpr] at hloaded
      obtain ⟨hwaits, e0, he0, hiff⟩ := hloaded
      cases he0
      have hreported := hiff.mp hcorrupt
      obtain ⟨hpr', hfile⟩ := hstands.2 pr hpr hreported.1
      have hmeets := hsettles.fails pr hpr'
      generalize heval : (s.payloads.loadFrom id).eval (answers W'.files noFaults) = v at hmeets
      cases hmeets with
      | fails _ hiff' =>
        refine ⟨_, (loadsAs_iff_eval hid).mpr heval, hiff'.mpr ⟨hreported.1, fun path w heq => ?_⟩⟩
        rintro (h | h)
        · exact hreported.2 path w heq (Or.inl ⟨hfile path w heq, h.2⟩)
        · exact hreported.2 path w heq (Or.inr ⟨hfile path w heq, h.2⟩)
      | waits h =>
        obtain ⟨path, w, heq, h⟩ := h
        exact absurd ⟨path, w, heq, hfile path w heq, h.2⟩ hwaits

end Verdict

/-! ## The records of the snapshot -/

section Records

variable [Unicode] {s : SpoolStore} {W0 W W1 W' : World} {tr : Trace} {m : Metadata}

/-- What a payload is depends on the tree only. -/
theorem LoadsAs.of_files {p : PayloadStore} {id : GoString} {out : Except GoError Message}
    (h : LoadsAs p W1 id out) (hid : Canonical id) (hfiles : W1.files = W.files) :
    LoadsAs p W id out := by
  have heval := (loadsAs_iff_eval hid).mp h
  rw [hfiles] at heval
  exact (loadsAs_iff_eval hid).mpr heval

/-- What has become of a record of the snapshot: its payload loads and its row is as it was, or its
    payload is corrupt and it is a dead letter. -/
inductive Resolved (s : SpoolStore) (W : World) (before after : Records) (m : Metadata) :
    Record ⊕ Record → Prop where
  | kept (msg : Message) (hload : PayloadLoads s W m.id msg)
      (hrow : after.find m.id = before.find m.id) :
      Resolved s W before after m (.inl { m.toRecord with message := msg })
  | dead (cause : GoError) (time : Int) (row' : Row) (hload : PayloadCorrupt s W m.id)
      (hrow : after.find m.id = some row')
      (hcols : row'.toColumns = (m.corrupted cause time).columns) :
      Resolved s W before after m (.inr (m.corrupted cause time))

/-- It depends on the row before and after. -/
theorem Resolved.congr {before before' after after' : Records} {x : Record ⊕ Record}
    (h : Resolved s W before after m x) (hbefore : before.find m.id = before'.find m.id)
    (hafter : after'.find m.id = after.find m.id) : Resolved s W before' after' m x := by
  cases h with
  | kept msg hload hrow => exact .kept msg hload (hafter.trans (hrow.trans hbefore))
  | dead cause time row' hload hrow hcols => exact .dead cause time row' hload (hafter.trans hrow) hcols

/-- What is on either side. -/
def either {α : Type} : α ⊕ α → α
  | .inl a => a
  | .inr a => a

/-- The record that is returned has the id of the metadata. -/
theorem Resolved.either_id {before after : Records} {x : Record ⊕ Record}
    (h : Resolved s W before after m x) : (either x).id = m.id := by
  cases h with
  | kept msg hload hrow => rfl
  | dead cause time row' hload hrow hcols => exact corrupted_id m cause time

/-- `deadLetterCorruptRecord` that succeeds has rewritten the row of the record, and no other. -/
theorem deadLetterCorruptRecord_applied {cause : GoError} {rec : Record}
    (h : Runs exec (deadLetterCorruptRecord m cause) W tr (.ok rec) W') :
    W'.files = W.files ∧ (∀ id, id ≠ m.id → W'.rows.find id = W.rows.find id) ∧
      ∃ time, ∃ row' : Row, rec = m.corrupted cause time ∧ W'.rows.find m.id = some row' ∧
        row'.toColumns = (m.corrupted cause time).columns := by
  obtain ⟨time, ev, tr1, rfl, hstore⟩ := readClock_works h
  have hstore : Runs exec (updateRecord m.state (m.corrupted cause time) >>= fun _ =>
      pure (m.corrupted cause time) : Task Record) W tr1 (.ok rec) W' := hstore
  rcases hstore.act_bind_inv with ⟨_, tr2, tr3, W2, rfl, hupdate, hret⟩ | ⟨_, hx, -⟩
  · obtain ⟨hrec, -, rfl⟩ := hret.ret_inv
    obtain ⟨-, hfiles, -, row, row', hrow, -, hcols, hrows⟩ := updateRecord_applied hupdate
    rw [corrupted_id] at hrow
    have hid : row.id = m.id := find_id hrow
    have hid' : row'.id = m.id := by
      rw [hcols]
      exact corrupted_id m cause time
    refine ⟨hfiles, fun id hne => ?_, time, row', Except.ok.inj hrec, ?_, hcols⟩
    · rw [hrows, Table.find_replace, if_neg fun heq => hne (heq.trans hid')]
    · rw [hrows, ← hid]
      exact find_replace_self (hid.symm ▸ hrow) (hid'.trans hid.symm)
  · nomatch hx

/-- **One record is resolved**, and no other row is touched. -/
theorem settleRecovered_runs {what : String} {loaded : Except GoError Message}
    {x : Record ⊕ Record} (h : Runs exec (SpoolStore.settleRecovered what m loaded) W tr (.ok x) W')
    (hun : ∀ e, loaded = .error e → Unclassified e)
    (hloads : ∀ msg, loaded = .ok msg → PayloadLoads s W0 m.id msg)
    (hcorrupt : ∀ e, loaded = .error e → e.isPayloadCorruption = true → PayloadCorrupt s W0 m.id) :
    W'.files = W.files ∧ (∀ id, id ≠ m.id → W'.rows.find id = W.rows.find id) ∧
      Resolved s W0 W.rows W'.rows m x := by
  cases loaded with
  | ok msg =>
    obtain ⟨hx, -, rfl⟩ := h.ret_inv
    cases hx
    exact ⟨rfl, fun _ _ => rfl, .kept msg (hloads msg rfl) rfl⟩
  | error e =>
    rw [SpoolStore.settleRecovered, onLoadError_eq (hun e rfl)] at h
    by_cases hc : e.isPayloadCorruption = true
    · rw [if_pos hc] at h
      rcases h.act_bind_inv with ⟨rec, tr1, tr2, W1, rfl, hdead, hret⟩ | ⟨_, hx, -⟩
      · obtain ⟨hx, -, rfl⟩ := hret.ret_inv
        cases hx
        obtain ⟨hfiles, hothers, time, row', rfl, hrow, hcols⟩ :=
          deadLetterCorruptRecord_applied hdead
        exact ⟨hfiles, hothers, .dead _ time row' (hcorrupt e rfl hc) hrow hcols⟩
      · cases hx
    · rw [if_neg hc] at h
      obtain ⟨hx, -⟩ := h.ret_inv
      cases hx

/-- **The loop over the records**: each is resolved, and no other row is touched.  The list has no id
    twice, so that what is done for one record stays while the others are resolved. -/
theorem recoverRecords_runs {what : String} {ms : List Metadata} {xs : List (Record ⊕ Record)}
    (h : Runs exec (s.recoverRecords what ms) W tr (.ok xs) W') (htrue : TrueErrors tr)
    (hids : ∀ m ∈ ms, Canonical m.id) (hnodup : (ms.map (·.id)).Nodup) (hfiles : W.files = W0.files) :
    W'.files = W0.files ∧ (∀ id, id ∉ ms.map (·.id) → W'.rows.find id = W.rows.find id) ∧
      List.Forall₂ (Resolved s W0 W.rows W'.rows) ms xs := by
  induction ms generalizing W tr xs with
  | nil =>
    obtain ⟨hx, -, rfl⟩ := h.ret_inv
    cases hx
    exact ⟨hfiles, fun _ _ => rfl, .nil⟩
  | cons m ms ih =>
    obtain ⟨hid, hids⟩ := forall_mem_cons.mp hids
    rw [map_cons, nodup_cons] at hnodup
    obtain ⟨loaded, trLoad, tr2, W1, rfl, hload, h2⟩ := h.act_bind_ok
    obtain ⟨_, hx, hload⟩ := hload.attempt_inv
    cases hx
    obtain ⟨x, trSettle, tr3, W2, rfl, hsettle, h3⟩ := h2.act_bind_ok
    obtain ⟨xs', trRest, tr4, W3, rfl, hrest, hret⟩ := h3.act_bind_ok
    obtain ⟨hx, -, rfl⟩ := hret.ret_inv
    cases hx
    have hun := (runs_life (A := fun _ _ => True) hload (load_unclassified s m.id)).1
    obtain ⟨rfl, hloads, hcorrupt⟩ := load_verdict hload htrue.left hid
    obtain ⟨hfiles1, hothers1, hresolved⟩ := settleRecovered_runs hsettle (fun e he => hun e he)
      (fun msg hmsg => (hloads msg hmsg).of_files hid hfiles) fun e he hc => by
        obtain ⟨e', hload, hc'⟩ := hcorrupt e he hc
        exact ⟨e', hload.of_files hid hfiles, hc'⟩
    obtain ⟨hfiles2, hothers2, hall⟩ := ih hrest htrue.right.right.left hids hnodup.2
      (hfiles1.trans hfiles)
    refine ⟨hfiles2, fun id hout => ?_, .cons (hresolved.congr rfl (hothers2 m.id hnodup.1)) ?_⟩
    · rw [map_cons, mem_cons, not_or] at hout
      exact (hothers2 id hout.2).trans (hothers1 id hout.1)
    · have hne : ∀ m' ∈ ms, m'.id ≠ m.id := fun m' hm' heq =>
        hnodup.1 (heq ▸ mem_map_of_mem hm')
      refine ((List.forall₂_and_left _ _).mpr ⟨hne, hall⟩).imp fun m' x' h' => ?_
      exact h'.2.congr (hothers1 m'.id h'.1) rfl

end Records

/-! ## What becomes of the rows -/

section Rows

variable {row row' : Row} {now stamp time : Int} {cause : GoError}

/-- The row is queued, to be tried at `now`; the attempt and the last error are as they were, and
    nothing of the provider is left. -/
structure Requeued (now : Int) (row row' : Row) : Prop where
  state : row'.state = .queued
  next : row'.nextAttemptAtMS = timeToMillis now
  attempt : row'.attempt = row.attempt
  lastError : row'.scanLastError = row.scanLastError
  provider : row'.operationID = none ∧ row'.operationLocation = none ∧
    row'.providerMessageID = none ∧ row'.firstSubmittedAtMS = none
  created : row'.createdAtMS = row.createdAtMS

theorem requeued_of_columns (h : row'.toColumns = requeueSet now stamp row.toColumns) :
    Requeued now row row' := by
  refine ⟨?_, ?_, ?_, ?_, ?_, ?_⟩
  · rw [h]
    rfl
  · rw [h]
    rfl
  · rw [h]
    rfl
  · rw [h]
    rfl
  · rw [h]
    exact ⟨rfl, rfl, rfl, rfl⟩
  · rw [h]
    rfl

/-- The row is a dead letter, and what the provider has said of it is still there. -/
structure DeadWithProvider (row row' : Row) : Prop where
  state : row'.state = .deadLetter
  attempt : row'.attempt = row.attempt
  operationID : scanText row'.operationID = scanText row.operationID
  operationLocation : scanText row'.operationLocation = scanText row.operationLocation
  providerMessageID : scanText row'.providerMessageID = scanText row.providerMessageID
  firstSubmittedAt : row'.firstSubmittedAtMS = row.firstSubmittedAtMS

/-- A text that was read is read again as it is. -/
theorem scanText_again (s : Option GoString) : scanText (nullIfEmpty (scanText s)) = scanText s := by
  rw [scanText_nullIfEmpty]
  unfold scanText
  rw [trimSpace_trimSpace]

theorem deadWithProvider_corrupted [Unicode] (hstate : row.state = .submitted)
    (h : row'.toColumns = (row.metadata.corrupted cause time).columns) : DeadWithProvider row row' := by
  have hrec : row.metadata.corrupted cause time =
      ({ row.metadata with
        state := .deadLetter
        lastError := some ⟨cause.error, spoolProviderName, false, time⟩
        updatedAt := time : Metadata }).toRecord := by
    unfold Metadata.corrupted
    exact if_pos hstate
  rw [hrec] at h
  refine ⟨?_, ?_, ?_, ?_, ?_, ?_⟩
  · rw [h]
    rfl
  · rw [h]
    rfl
  · rw [h]
    exact scanText_again _
  · rw [h]
    exact scanText_again _
  · rw [h]
    exact scanText_again _
  · rw [h]
    exact nullIfZeroTime_scan row.check.first

end Rows

/-! ## The lists of the snapshot -/

section Lists

variable {α β : Type} {R : α → β → Prop} {l : List α} {l' : List β}

theorem exists_of_mem (h : List.Forall₂ R l l') {a : α} (ha : a ∈ l) : ∃ b ∈ l', R a b := by
  induction h with
  | nil => nomatch ha
  | cons hab _ ih =>
    rcases mem_cons.mp ha with rfl | ha
    · exact ⟨_, mem_cons_self .., hab⟩
    · obtain ⟨b, hb, hR⟩ := ih ha
      exact ⟨b, mem_cons_of_mem _ hb, hR⟩

/-- The left ones and the right ones of a list are, in another order, all of it. -/
theorem perm_left_right (l : List (α ⊕ α)) :
    (l.filterMap Sum.getLeft? ++ l.filterMap Sum.getRight?).Perm (l.map either) := by
  induction l with
  | nil => exact List.Perm.refl _
  | cons x l ih =>
    cases x with
    | inl a => exact ih.cons a
    | inr a => exact perm_middle.trans (ih.cons a)

variable [Unicode] {t t' : Records} {now : Int} {clock : Nat → Int} {snap : Snapshot}

theorem requeueAll_ids {i : Nat} {ms out : List Metadata}
    (h : requeueAll now clock i ms t = .ok (out, t')) : out.map (·.id) = ms.map (·.id) := by
  induction ms generalizing i t out with
  | nil =>
    cases h
    rfl
  | cons m ms ih =>
    unfold requeueAll at h
    cases hu : updateWhere t m.id .working (requeueSet now (clock i)) with
    | error e =>
      rw [hu] at h
      cases h
    | ok x =>
      obtain ⟨n, t1⟩ := x
      rw [hu] at h
      dsimp only at h
      cases hrest : requeueAll now clock (i + 1) ms t1 with
      | error e =>
        rw [hrest] at h
        cases h
      | ok y =>
        rw [hrest] at h
        cases h
        exact congrArg (m.id :: ·) (ih hrest)

/-- **What the snapshot lists**: the working rows and the submitted rows, each once, in a table whose
    ids are canonical. -/
theorem recoverBody_lists (h : recoverBody now clock t = .ok (snap, t')) :
    CanonicalIDs t ∧ snap.requeued.map (·.id) = (selectState t .working).map (·.id) ∧
      snap.submitted = (selectState t .submitted).map (·.metadata) := by
  unfold recoverBody at h
  obtain ⟨working, hworking, h⟩ := bind_eq_ok.mp h
  obtain ⟨submitted, hsubmitted, h⟩ := bind_eq_ok.mp h
  obtain ⟨validIDs, hvalid, h⟩ := bind_eq_ok.mp h
  obtain ⟨⟨requeued, t1⟩, hrequeue, h⟩ := bind_eq_ok.mp h
  cases h
  have hscan : ∀ (row : Row) m, scanMetadata row = .ok m → m = row.metadata :=
    fun row m hm => (scanMetadata_ok hm).1
  refine ⟨fun id row hrow => ?_, ?_, mapM_eq_ok hscan hsubmitted⟩
  · obtain ⟨_, hid⟩ := forall_of_mapM_eq_ok hvalid row
      (Table.mem_iff.mpr ((find_id hrow).symm ▸ hrow))
    rw [← find_id hrow]
    cases hv : validateCanonicalRecordID row.id with
    | error e =>
      rw [hv] at hid
      nomatch hid
    | ok _ => exact validateCanonicalRecordID_ok.mp hv
  · rw [requeueAll_ids hrequeue, mapM_eq_ok hscan hworking, map_map]
    rfl

end Lists

/-! ## The passes of `Recover` -/

section Passes

variable [Unicode] {s : SpoolStore} {W W1 W' : World} {tr : Trace} {now : Int} {snap : Snapshot}
  {xs ys : List (Record ⊕ Record)}

/-- A program of the payload store does not touch the table. -/
theorem confined_rows {α : Type} {R : Path → Prop} {p : Task α} {out : Except GoError α}
    (h : Runs exec p W tr out W') (hp : p.Uses (Confined R)) : W'.rows = W.rows := by
  refine h.induct (fun W W' => W'.rows = W.rows) (fun _ => rfl) (fun _ _ _ h1 h2 => h2.trans h1)
    fun ev hev => ?_
  exact exec_rows (h.valid ev hev) (h.uses hp ev hev).isTx

theorem openDir_ok {before : GoString} {p : Path}
    (h : Runs exec (sysOr before (.openDir p)) W tr (.ok ()) W') : W' = W ∧ W.tree p = some .dir := by
  obtain ⟨x, hx, hout⟩ := h.mapError_inv
  obtain ⟨c, r, W1, tr', -, hE, hret⟩ := hx.step_inv
  obtain ⟨rfl, -, rfl⟩ := hret.ret_inv
  obtain ⟨cc, files, -, hperf, rfl⟩ := exec_fs hE
  obtain ⟨rfl, hr⟩ := Call.looking_cases hperf
  refine ⟨rfl, ?_⟩
  by_cases hdir : W.files.get p = some .dir
  · exact hdir
  · rw [if_neg hdir] at hr
    rcases hr with hx | ⟨e, rfl⟩
    · cases Option.some.inj hx
      nomatch hout
    · nomatch hout

/-- The third pass: both directories are there, and the entries of `payloads/` without a row have been
    moved away. -/
structure SweptClean (validIDs : List GoString) (W W' : World) : Prop where
  rows : W'.rows = W.rows
  payloads : W.tree payloadsRoot = some .dir
  orphans : W.tree orphanRoot = some .dir
  swept : Swept validIDs W.tree W'.tree

theorem quarantineOrphans_swept {p : PayloadStore} {validIDs moved : List GoString}
    (h : Runs exec (p.quarantineOrphans validIDs) W tr (.ok moved) W') (hh : HonestFiles tr) :
    SweptClean validIDs W W' := by
  have hdirs : W.tree payloadsRoot = some .dir ∧ W.tree orphanRoot = some .dir := by
    obtain ⟨_, tr1, tr2, W1, -, hroot, h2⟩ := h.act_bind_ok
    obtain ⟨_, tr3, tr4, W2, -, hpayloads, h3⟩ := h2.act_bind_ok
    obtain ⟨_, tr5, tr6, W3, -, horphans, -⟩ := h3.act_bind_ok
    obtain ⟨rfl, hpayloads⟩ := openDir_ok hpayloads
    obtain ⟨-, horphans⟩ := openDir_ok horphans
    have hsame := tree_same hroot openRootOr_confined
    exact ⟨hsame ▸ hpayloads, hsame ▸ horphans⟩
  obtain ⟨names, hnames, hends⟩ := quarantineOrphans_end h hh
  exact ⟨confined_rows h (PayloadStore.quarantineOrphans_confined _), hdirs.1, hdirs.2,
    hends.swept hnames⟩

/-- **What the passes of `Recover` have done**: `W1` is the world after the transaction. -/
structure Passed (s : SpoolStore) (now : Int) (W W1 W' : World) (snap : Snapshot)
    (xs ys : List (Record ⊕ Record)) : Prop where
  ids : CanonicalIDs W.rows
  recovered : Recovered now W.rows W1.rows snap
  requeued : snap.requeued.map (·.id) = (selectState W.rows .working).map (·.id)
  submitted : snap.submitted = (selectState W.rows .submitted).map (·.metadata)
  resolved1 : List.Forall₂ (Resolved s W W1.rows W'.rows) snap.requeued xs
  resolved2 : List.Forall₂ (Resolved s W W1.rows W'.rows) snap.submitted ys
  untouched : ∀ id, id ∉ snap.requeued.map (·.id) → id ∉ snap.submitted.map (·.id) →
    W'.rows.find id = W1.rows.find id
  payloads : W.tree payloadsRoot = some .dir
  orphans : W.tree orphanRoot = some .dir
  swept : Swept snap.validIDs W.tree W'.tree

omit [Unicode] in
/-- A row is not working and submitted. -/
theorem working_not_submitted {t : Records} {id : GoString}
    (h : id ∈ (selectState t .working).map (·.id)) :
    id ∉ (selectState t .submitted).map (·.id) := by
  intro h'
  obtain ⟨row, hrow, rfl⟩ := mem_map.mp h
  obtain ⟨row', hrow', heq⟩ := mem_map.mp h'
  obtain ⟨hfind, hstate⟩ := mem_selectState.mp hrow
  obtain ⟨hfind', hstate'⟩ := mem_selectState.mp hrow'
  rw [heq, hfind] at hfind'
  obtain rfl := Option.some.inj hfind'
  nomatch hstate.symm.trans hstate'

theorem checkContext_runs {out : Except GoError Unit} (h : Runs exec checkContext W tr out W') :
    W' = W ∧ (out = .ok () ∨ ∃ e : CtxErr, out = .error e.toError) := by
  obtain ⟨c, ended, W1, tr', -, hE, hret⟩ := h.step_inv
  obtain ⟨rfl, -, rfl⟩ := hret.ret_inv
  obtain ⟨-, -, hW⟩ := exec_other hE rfl rfl
  cases ended with
  | none => exact ⟨hW, Or.inl rfl⟩
  | some e => exact ⟨hW, Or.inr ⟨e, rfl⟩⟩

/-- The transaction of a `Recover` that goes on. -/
theorem transactRecover_ok (h : Runs exec (transact (.recover now)) W tr (.ok snap) W') :
    W'.files = W.files ∧ ∃ clock, recoverBody now clock W.rows = .ok (snap, W'.rows) := by
  obtain ⟨c, r, W1, tr', -, hE, hret⟩ := h.step_inv
  obtain ⟨rfl, -, rfl⟩ := hret.ret_inv
  refine ⟨exec_files hE rfl, ?_⟩
  obtain ⟨-, ⟨clock, a, hbody, hr | ⟨_, hr⟩⟩ | ⟨-, _, hr⟩⟩ := exec_tx_cases hE
  · obtain rfl : snap = a := Except.ok.inj hr
    exact ⟨clock, hbody⟩
  · nomatch hr
  · nomatch hr

/-- **A `Recover` that succeeds has made its passes.** -/
theorem recover_passed {res : RecoveryResult} (h : Runs exec (s.recover now) W tr (.ok res) W')
    (htrue : TrueErrors tr) :
    ∃ W1 snap xs ys orphaned, Passed s now W W1 W' snap xs ys ∧
      res = SpoolStore.recoveryResult xs ys orphaned := by
  obtain ⟨_, tr1, tr2, W0, rfl, hctx, hrun⟩ := h.act_bind_ok
  obtain rfl := (checkContext_runs hctx).1
  obtain ⟨snap, tr3, tr4, W1, rfl, htx, hrun1⟩ := hrun.act_bind_ok
  obtain ⟨hfiles1, clock, hbody⟩ := transactRecover_ok htx
  have hrecovered := recoverBody_ok hbody
  obtain ⟨hids, hrequeued, hsubmitted⟩ := recoverBody_lists hbody
  have hsubmittedIDs : snap.submitted.map (·.id) = (selectState W0.rows .submitted).map (·.id) := by
    rw [hsubmitted, map_map]
    rfl
  -- the two loops
  obtain ⟨xs, tr5, tr6, W2, rfl, hloop1, hrun2⟩ := hrun1.act_bind_ok
  obtain ⟨ys, tr7, tr8, W3, rfl, hloop2, hrun3⟩ := hrun2.act_bind_ok
  have htrue := htrue.right.right
  have hids1 : ∀ m ∈ snap.requeued, Canonical m.id := fun m hm => by
    obtain ⟨row, stamp, hrow, -⟩ := hrecovered.requeued m hm
    exact hids _ row hrow
  have hids2 : ∀ m ∈ snap.submitted, Canonical m.id := fun m hm => by
    obtain ⟨row, hrow, -⟩ := hrecovered.submitted m hm
    exact hids _ row hrow
  have hapart : ∀ id ∈ snap.requeued.map (·.id), id ∉ snap.submitted.map (·.id) := by
    rw [hrequeued, hsubmittedIDs]
    exact fun id hid => working_not_submitted hid
  obtain ⟨hfiles2, hothers1, hall1⟩ := recoverRecords_runs hloop1 htrue.left hids1
    (hrequeued ▸ selectState_nodup _ _) hfiles1
  obtain ⟨hfiles3, hothers2, hall2⟩ := recoverRecords_runs hloop2 htrue.right.left hids2
    (hsubmittedIDs ▸ selectState_nodup _ _) hfiles2
  -- the sweep
  obtain ⟨orphaned, tr9, tr10, W4, rfl, hsweep, hret⟩ := hrun3.act_bind_ok
  obtain ⟨hres, rfl, rfl⟩ := hret.ret_inv
  obtain ⟨moved, hsweep, hmoved⟩ := hsweep.mapError_inv
  cases moved with
  | error e => nomatch hmoved
  | ok moved =>
    have hswept := quarantineOrphans_swept hsweep htrue.right.right.left.honest
    have htree : W3.tree = W0.tree := by
      funext q
      show W3.files.get q = W0.files.get q
      rw [hfiles3]
    refine ⟨W1, snap, xs, ys, orphaned, ?_, Except.ok.inj hres⟩
    refine ⟨hids, hrecovered, hrequeued, hsubmitted, ?_, ?_, fun id h1 h2 => ?_,
      htree ▸ hswept.payloads, htree ▸ hswept.orphans, htree ▸ hswept.swept⟩
    · refine ((List.forall₂_and_left _ _).mpr ⟨fun m hm => hm, hall1⟩).imp fun m x hx => ?_
      refine hx.2.congr rfl ?_
      rw [hswept.rows]
      exact hothers2 m.id (hapart m.id (mem_map_of_mem hx.1))
    · refine ((List.forall₂_and_left _ _).mpr ⟨fun m hm => hm, hall2⟩).imp fun m x hx => ?_
      refine hx.2.congr (hothers1 m.id fun hin => ?_) (by rw [hswept.rows])
      exact hapart m.id hin (mem_map_of_mem hx.1)
    · rw [hswept.rows]
      exact (hothers2 id h2).trans (hothers1 id h1)

end Passes

/-! ## The specification -/

section Specification

variable [Unicode] {s : SpoolStore} {W W1 W' : World} {tr : Trace} {now : Int} {snap : Snapshot}
  {xs ys zs : List (Record ⊕ Record)} {ms : List Metadata} {before after : Records} {id : GoString}
  {row : Row} {msg : Message}

omit [Unicode] in
theorem mem_stateIDs {t : Records} {st : State} :
    id ∈ (selectState t st).map (·.id) ↔ ∃ row, t.find id = some row ∧ row.state = st := by
  constructor
  · intro h
    obtain ⟨row, hrow, rfl⟩ := mem_map.mp h
    exact ⟨row, mem_selectState.mp hrow⟩
  · rintro ⟨row, hrow, hstate⟩
    have hid : row.id = id := find_id hrow
    exact mem_map.mpr ⟨row, mem_selectState.mpr ⟨hid.symm ▸ hrow, hstate⟩, hid⟩

/-- A payload does not load and is corrupt. -/
theorem PayloadLoads.not_corrupt (h : PayloadLoads s W id msg) : ¬ PayloadCorrupt s W id := by
  rintro ⟨e, he, -⟩
  nomatch h.unique he

/-- The records that a loop hands back are those whose payload loads. -/
theorem mem_left_ids (h : List.Forall₂ (Resolved s W before after) ms zs) :
    id ∈ (zs.filterMap Sum.getLeft?).map (·.id) ↔
      id ∈ ms.map (·.id) ∧ ∃ msg, PayloadLoads s W id msg := by
  induction h with
  | nil => simp
  | cons hx _ ih =>
    rw [map_cons, mem_cons, or_and_right, ← ih]
    cases hx with
    | kept msg hload hrow =>
      refine mem_cons.trans (or_congr_left ⟨fun heq => ?_, And.left⟩)
      exact ⟨heq, msg, heq ▸ hload⟩
    | dead cause time row' hcorrupt hrow hcols =>
      refine ⟨Or.inr, Or.rec ?_ fun hmem => hmem⟩
      rintro ⟨rfl, msg, hload⟩
      exact absurd hcorrupt hload.not_corrupt

/-- The records that a loop dead-letters are those whose payload is corrupt. -/
theorem mem_right_ids (h : List.Forall₂ (Resolved s W before after) ms zs) :
    id ∈ (zs.filterMap Sum.getRight?).map (·.id) ↔ id ∈ ms.map (·.id) ∧ PayloadCorrupt s W id := by
  induction h with
  | nil => simp
  | cons hx _ ih =>
    rw [map_cons, mem_cons, or_and_right, ← ih]
    cases hx with
    | kept msg hload hrow =>
      refine ⟨Or.inr, Or.rec ?_ fun hmem => hmem⟩
      rintro ⟨rfl, hcorrupt⟩
      exact absurd hcorrupt hload.not_corrupt
    | dead cause time row' hcorrupt hrow hcols =>
      refine mem_cons.trans (or_congr_left ?_)
      dsimp only
      rw [corrupted_id]
      exact ⟨fun heq => ⟨heq, heq ▸ hcorrupt⟩, And.left⟩

/-- A loop hands back each record once. -/
theorem either_ids (h : List.Forall₂ (Resolved s W before after) ms zs) :
    (zs.map either).map (fun rec => rec.id) = ms.map (·.id) := by
  induction h with
  | nil => rfl
  | cons hx _ ih =>
    rw [map_cons, map_cons, map_cons, ih, hx.either_id]

namespace Passed

variable (h : Passed s now W W1 W' snap xs ys)

include h

theorem submittedIDs : snap.submitted.map (·.id) = (selectState W.rows .submitted).map (·.id) := by
  rw [h.submitted, map_map]
  rfl

theorem working (hrow : W.rows.find id = some row) (hstate : row.state = .working) :
    (∃ msg, PayloadLoads s W id msg) ∧
        (∃ row', W'.rows.find id = some row' ∧ Requeued now row row') ∨
      PayloadCorrupt s W id ∧ ∃ row', W'.rows.find id = some row' ∧ row'.state = .deadLetter ∧
        row'.attempt = row.attempt := by
  obtain ⟨stamp, row1, hrow1, hcols, hmem⟩ := h.recovered.working id row hrow hstate
  obtain ⟨x, -, hx⟩ := exists_of_mem h.resolved1 hmem
  have hmid : (row.metadata.requeued now stamp).id = id := find_id hrow
  cases hx with
  | kept msg hload hafter =>
    rw [hmid] at hload hafter
    exact Or.inl ⟨⟨msg, hload⟩, row1, hafter.trans hrow1, requeued_of_columns hcols⟩
  | dead cause time row' hcorrupt hafter hcols' =>
    rw [hmid] at hcorrupt hafter
    refine Or.inr ⟨hcorrupt, row', hafter, ?_, ?_⟩
    · rw [hcols']
      exact corrupted_state ..
    · rw [hcols']
      exact corrupted_attempt ..

theorem submitted_row (hrow : W.rows.find id = some row) (hstate : row.state = .submitted) :
    (∃ msg, PayloadLoads s W id msg) ∧ W'.rows.find id = some row ∨
      PayloadCorrupt s W id ∧ ∃ row', W'.rows.find id = some row' ∧ DeadWithProvider row row' := by
  have hmem : row.metadata ∈ snap.submitted := by
    rw [h.submitted]
    exact mem_map_of_mem (mem_selectState.mpr ⟨(find_id hrow).symm ▸ hrow, hstate⟩)
  obtain ⟨x, -, hx⟩ := exists_of_mem h.resolved2 hmem
  have hmid : row.metadata.id = id := find_id hrow
  cases hx with
  | kept msg hload hafter =>
    rw [hmid] at hload hafter
    refine Or.inl ⟨⟨msg, hload⟩, hafter.trans (h.recovered.kept id row hrow ?_)⟩
    exact fun hw => nomatch hstate.symm.trans hw
  | dead cause time row' hcorrupt hafter hcols =>
    rw [hmid] at hcorrupt hafter
    exact Or.inr ⟨hcorrupt, row', hafter, deadWithProvider_corrupted hstate hcols⟩

/-- A row that was neither is as it was; and no row is new. -/
theorem other (hno : ∀ row, W.rows.find id = some row →
    row.state ≠ .working ∧ row.state ≠ .submitted) : W'.rows.find id = W.rows.find id := by
  have hout : ∀ st, st = .working ∨ st = .submitted → id ∉ (selectState W.rows st).map (·.id) := by
    rintro st hst hid
    obtain ⟨row, hrow, rfl⟩ := mem_stateIDs.mp hid
    rcases hst with hst | hst
    · exact (hno row hrow).1 hst
    · exact (hno row hrow).2 hst
  rw [h.untouched id (h.requeued ▸ hout _ (Or.inl rfl)) (h.submittedIDs ▸ hout _ (Or.inr rfl))]
  cases hrow : W.rows.find id with
  | none => exact h.recovered.none_of_none id hrow
  | some row => exact h.recovered.kept id row hrow (hno row hrow).1

theorem absent (hnone : W.rows.find id = none) : W'.rows.find id = none :=
  (h.other fun _ hrow => (nomatch hnone.symm.trans hrow)).trans hnone

end Passed

/-- **What `Recover` has to do**, by the state before it: the rows, the result, and the entries of
    `payloads/` without a row. -/
structure RecoverySpec (s : SpoolStore) (now : Int) (W W' : World) (res : RecoveryResult) : Prop where
  /-- The payload of a row that was working or submitted loads, or it is corrupt. -/
  decided : ∀ id row, W.rows.find id = some row → row.state = .working ∨ row.state = .submitted →
    (∃ msg, PayloadLoads s W id msg) ∨ PayloadCorrupt s W id
  working_loads : ∀ id row msg, W.rows.find id = some row → row.state = .working →
    PayloadLoads s W id msg → ∃ row', W'.rows.find id = some row' ∧ Requeued now row row'
  working_corrupt : ∀ id row, W.rows.find id = some row → row.state = .working →
    PayloadCorrupt s W id → ∃ row', W'.rows.find id = some row' ∧ row'.state = .deadLetter ∧
      row'.attempt = row.attempt
  submitted_loads : ∀ id row msg, W.rows.find id = some row → row.state = .submitted →
    PayloadLoads s W id msg → W'.rows.find id = some row
  submitted_corrupt : ∀ id row, W.rows.find id = some row → row.state = .submitted →
    PayloadCorrupt s W id → ∃ row', W'.rows.find id = some row' ∧ DeadWithProvider row row'
  others : ∀ id row, W.rows.find id = some row → row.state ≠ .working → row.state ≠ .submitted →
    W'.rows.find id = some row
  absent : ∀ id, W.rows.find id = none → W'.rows.find id = none
  requeued : ∀ id, id ∈ res.requeued.map (·.id) ↔
    (∃ row, W.rows.find id = some row ∧ row.state = .working) ∧ ∃ msg, PayloadLoads s W id msg
  submitted : ∀ id, id ∈ res.submitted.map (·.id) ↔
    (∃ row, W.rows.find id = some row ∧ row.state = .submitted) ∧ ∃ msg, PayloadLoads s W id msg
  deadLettered : ∀ id, id ∈ res.deadLettered.map (·.id) ↔
    (∃ row, W.rows.find id = some row ∧ (row.state = .working ∨ row.state = .submitted)) ∧
      PayloadCorrupt s W id
  /-- No record is in the result twice. -/
  once : ((res.requeued ++ res.submitted ++ res.deadLettered).map fun rec => rec.id).Nodup
  /-- An entry without a row is gone, and it is among the orphans, whole. -/
  orphans : ∀ n, W.files.get (payloadsRoot ++ [n]) ≠ none → W.rows.find n = none →
    (∀ q, W'.files.get (payloadsRoot ++ [n] ++ q) = none) ∧
    ∃ target, ∀ q, W'.files.get (orphanRoot ++ [target] ++ q) = W.files.get (payloadsRoot ++ [n] ++ q)
  /-- The payload of a row, whatever it is, is as it was. -/
  payloads : ∀ id, W.rows.find id ≠ none →
    ∀ q, W'.files.get (payloadDir id ++ q) = W.files.get (payloadDir id ++ q)

omit [Unicode] in
theorem mem_validIDs {t : Records} : id ∈ t.rows.map (fun row => row.id) ↔ t.find id ≠ none := by
  constructor
  · intro hid hnone
    obtain ⟨row, hrow, rfl⟩ := mem_map.mp hid
    nomatch hnone.symm.trans (Table.mem_iff.mp hrow)
  · intro hid
    obtain ⟨row, hrow⟩ := Option.ne_none_iff_exists'.mp hid
    exact mem_map.mpr ⟨row, Table.mem_iff.mpr ((find_id hrow).symm ▸ hrow), find_id hrow⟩

section Spec

variable (h : Passed s now W W1 W' snap xs ys)

include h

/-- The result has each record of the snapshot once. -/
theorem Passed.once (orphaned : List GoString) :
    (((SpoolStore.recoveryResult xs ys orphaned).requeued ++
      (SpoolStore.recoveryResult xs ys orphaned).submitted ++
      (SpoolStore.recoveryResult xs ys orphaned).deadLettered).map fun rec => rec.id).Nodup := by
  have hperm : ∀ a b c d : List Record, (a ++ b ++ (c ++ d)).Perm ((a ++ c) ++ (b ++ d)) := by
    intro a b c d
    simp only [append_assoc]
    exact (perm_append_comm_assoc b c d).append_left a
  have hall := (hperm _ _ _ _).trans ((perm_left_right xs).append (perm_left_right ys))
  refine (hall.map fun rec => rec.id).nodup_iff.mpr ?_
  rw [map_append, either_ids h.resolved1, either_ids h.resolved2, h.requeued, h.submittedIDs]
  refine nodup_append.mpr ⟨selectState_nodup _ _, selectState_nodup _ _, ?_⟩
  rintro a ha b hb rfl
  exact working_not_submitted ha hb

/-- The payload of a row is not swept away. -/
theorem Passed.payload_kept (hid : W.rows.find id ≠ none) (q : Path) :
    W'.files.get (payloadDir id ++ q) = W.files.get (payloadDir id ++ q) := by
  have hvalid : id ∈ snap.validIDs := by
    rw [h.recovered.validIDs]
    exact mem_validIDs.mpr hid
  refine h.swept.kept _ (fun n _ hn => ?_) fun target _ => ?_
  · have hne : n ≠ id := fun heq => hn (heq ▸ hvalid)
    exact (apart_of_ne hne.symm).not_below (prefix_append _ _)
  · exact (orphans_apart target id).symm.not_below (prefix_append _ _)

/-- **The passes meet the specification.** -/
theorem Passed.spec (orphaned : List GoString) :
    RecoverySpec s now W W' (SpoolStore.recoveryResult xs ys orphaned) where
  decided id row hrow hstate := by
    rcases hstate with hstate | hstate
    · exact (h.working hrow hstate).imp And.left And.left
    · exact (h.submitted_row hrow hstate).imp And.left And.left
  working_loads id row msg hrow hstate hload :=
    ((h.working hrow hstate).resolve_right fun hc => hload.not_corrupt hc.1).2
  working_corrupt id row hrow hstate hcorrupt :=
    ((h.working hrow hstate).resolve_left fun hl => hl.1.choose_spec.not_corrupt hcorrupt).2
  submitted_loads id row msg hrow hstate hload :=
    ((h.submitted_row hrow hstate).resolve_right fun hc => hload.not_corrupt hc.1).2
  submitted_corrupt id row hrow hstate hcorrupt :=
    ((h.submitted_row hrow hstate).resolve_left fun hl => hl.1.choose_spec.not_corrupt hcorrupt).2
  others id row hrow hw hs := by
    rw [h.other fun row' hrow' => ?_]
    · exact hrow
    · cases hrow.symm.trans hrow'
      exact ⟨hw, hs⟩
  absent id hnone := h.absent hnone
  requeued id := by
    refine (mem_left_ids h.resolved1).trans ?_
    rw [h.requeued, mem_stateIDs]
  submitted id := by
    refine (mem_left_ids h.resolved2).trans ?_
    rw [h.submittedIDs, mem_stateIDs]
  deadLettered id := by
    show id ∈ (xs.filterMap Sum.getRight? ++ ys.filterMap Sum.getRight?).map _ ↔ _
    rw [map_append, mem_append, mem_right_ids h.resolved1, mem_right_ids h.resolved2,
      h.requeued, h.submittedIDs, mem_stateIDs, mem_stateIDs, ← or_and_right, ← exists_or]
    simp only [and_or_left]
  once := h.once orphaned
  orphans n hn hnone := by
    have hout : n ∉ snap.validIDs := by
      rw [h.recovered.validIDs]
      exact fun hin => mem_validIDs.mp hin hnone
    obtain ⟨hgone, target, hmoved⟩ := h.swept.orphans n hn hout
    exact ⟨fun q => congrFun hgone q, target, fun q => congrFun hmoved q⟩
  payloads id hid q := h.payload_kept hid q

end Spec

end Specification

end SmtpCloudRelay.Spool
