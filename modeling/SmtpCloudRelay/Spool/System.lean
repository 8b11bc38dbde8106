/-
  THE RELAY AS A SYSTEM: the processes that share one spool, move by move.

  A process of the relay starts (`boot`: open the store, recover), and then serves: the worker runs
  its loop and any number of sessions enqueue messages.  One move is one atomic step of one of
  them, so every interleaving is a run, and a CRASH may happen between any two moves: it drops all
  programs and leaves the world as it is.  A new process may then boot.

  What the parties may do is known from their protocols: the worker's is `workerProto`, the boot's
  `bootProto`, and an enqueuing session is one of `ClientOp`.
-/
import SmtpCloudRelay.Spool.Duty

namespace SmtpCloudRelay.Spool

open Go Lib Prog Act

variable [Unicode]

/-! ## The machine -/

/-- What the main program does before it serves. -/
def boot (s : SpoolStore) : Task RecoveryResult := do
  s.newSpoolStore
  let now ← readClock
  s.recover now

/-- A session that is enqueuing a message. -/
structure Client where
  msg : Message
  prog : Task Record

/-- The process of the relay. -/
inductive Process where
  | down
  | booting (p : Task RecoveryResult)
  | serving (worker : Task Unit) (clients : List Client)

/-- The world, the process, and the messages whose Enqueue has returned success. -/
structure Sys where
  world : World
  process : Process
  accepted : List (GoString × Message)

/-- A move of a process that serves. -/
inductive Serves (s : SpoolStore) : Sys → Sys → Prop where
  | arrive {w : World} {wk : Task Unit} {cs : List Client} {acc : List (GoString × Message)}
      (msg : Message) : Serves s ⟨w, .serving wk cs, acc⟩
        ⟨w, .serving wk (⟨msg, s.enqueue msg⟩ :: cs), acc⟩
  | client {w w' : World} {wk : Task Unit} {l r : List Client} {acc : List (GoString × Message)}
      {msg : Message} {p p' : Task Record} {ev : Option (SpoolEvent)}
      (h : Move exec p w ev p' w') : Serves s ⟨w, .serving wk (l ++ ⟨msg, p⟩ :: r), acc⟩
        ⟨w', .serving wk (l ++ ⟨msg, p'⟩ :: r), acc⟩
  | accept {w : World} {wk : Task Unit} {l r : List Client} {acc : List (GoString × Message)}
      {msg : Message} (rec : Record) :
      Serves s ⟨w, .serving wk (l ++ ⟨msg, .ret (.ok rec)⟩ :: r), acc⟩
        ⟨w, .serving wk (l ++ r), (rec.id, msg) :: acc⟩
  | reject {w : World} {wk : Task Unit} {l r : List Client} {acc : List (GoString × Message)}
      {msg : Message} (e : GoError) :
      Serves s ⟨w, .serving wk (l ++ ⟨msg, .ret (.error e)⟩ :: r), acc⟩
        ⟨w, .serving wk (l ++ r), acc⟩
  | worker {w w' : World} {wk wk' : Task Unit} {cs : List Client}
      {acc : List (GoString × Message)} {ev : Option (SpoolEvent)}
      (h : Move exec wk w ev wk' w') : Serves s ⟨w, .serving wk cs, acc⟩
        ⟨w', .serving wk' cs, acc⟩

/-- A move of the system. -/
inductive Step (wk : Worker) (s : SpoolStore) : Sys → Sys → Prop where
  | serve {σ σ' : Sys} (h : Serves s σ σ') : Step wk s σ σ'
  | launch {w : World} {acc : List (GoString × Message)} :
      Step wk s ⟨w, .down, acc⟩ ⟨w, .booting (boot s), acc⟩
  | boot {w w' : World} {p p' : Task RecoveryResult} {acc : List (GoString × Message)}
      {ev : Option (SpoolEvent)} (h : Move exec p w ev p' w') :
      Step wk s ⟨w, .booting p, acc⟩ ⟨w', .booting p', acc⟩
  | up {w : World} {acc : List (GoString × Message)} (r : RecoveryResult) :
      Step wk s ⟨w, .booting (.ret (.ok r)), acc⟩ ⟨w, .serving (wk.start s) [], acc⟩
  | fail {w : World} {acc : List (GoString × Message)} (e : GoError) :
      Step wk s ⟨w, .booting (.ret (.error e)), acc⟩ ⟨w, .down, acc⟩
  | crash {w : World} {p : Process} {acc : List (GoString × Message)} :
      Step wk s ⟨w, p, acc⟩ ⟨w, .down, acc⟩

/-- The states that a system gets to. -/
abbrev Reaches (wk : Worker) (s : SpoolStore) : Sys → Sys → Prop :=
  Relation.ReflTransGen (Step wk s)

/-! ## Undisturbed runs -/

section Undisturbed

variable {w : Worker} {s : SpoolStore} {W W' : World} {acc : List (GoString × Message)}
  {tr : Trace}

theorem reaches_boot {r : RecoveryResult} (h : Runs exec (boot s) W tr (.ok r) W') :
    Reaches w s ⟨W, .down, acc⟩ ⟨W', .serving (w.start s) [], acc⟩ := by
  have hmoves : ∀ {x y : Task RecoveryResult × World}, Moves exec x y →
      Reaches w s ⟨x.2, .booting x.1, acc⟩ ⟨y.2, .booting y.1, acc⟩ := by
    intro x y h
    induction h with
    | refl => exact .refl
    | tail _ hmove ih =>
      obtain ⟨ev, hmove⟩ := hmove
      exact ih.tail (.boot hmove)
  exact .head .launch ((hmoves h.moves_ret).tail (.up r))

/-- An Enqueue that succeeds, while nothing else moves. -/
theorem serves_enqueue {msg : Message} {rec : Record} {wk : Task Unit} {clients : List Client}
    (h : Runs exec (s.enqueue msg) W tr (.ok rec) W') :
    Relation.ReflTransGen (Serves s) ⟨W, .serving wk clients, acc⟩
      ⟨W', .serving wk clients, (rec.id, msg) :: acc⟩ := by
  have hmoves : ∀ {x y : Task Record × World}, Moves exec x y →
      Relation.ReflTransGen (Serves s) ⟨x.2, .serving wk (⟨msg, x.1⟩ :: clients), acc⟩
        ⟨y.2, .serving wk (⟨msg, y.1⟩ :: clients), acc⟩ := by
    intro x y h
    induction h with
    | refl => exact .refl
    | tail _ hmove ih =>
      obtain ⟨ev, hmove⟩ := hmove
      exact ih.tail (.client (l := []) hmove)
  exact .head (.arrive msg) ((hmoves h.moves_ret).tail (.accept (l := []) rec))

/-- The moves of the worker are moves of the process. -/
theorem serves_of_moves {x y : Task Unit × World} (h : Moves exec x y) {clients : List Client} :
    Relation.ReflTransGen (Serves s) ⟨x.2, .serving x.1 clients, acc⟩
      ⟨y.2, .serving y.1 clients, acc⟩ := by
  induction h with
  | refl => exact .refl
  | tail _ hmove ih =>
    obtain ⟨ev, hmove⟩ := hmove
    exact ih.tail (.worker hmove)

/-- A round without an error leads from the head of the loop to the head of the loop. -/
theorem moves_of_round (h : Runs exec (w.once s) W tr (.ok ()) W') :
    Moves exec (w.start s, W) (w.start s, W') := by
  have hbody := Runs.bind h.attempt (f := andThen Worker.afterRound) (.ret _ W')
  exact Runs.forever_round hbody

/-- The moves of a serving process are steps of the system. -/
theorem reaches_serves {σ σ' : Sys} (h : Relation.ReflTransGen (Serves s) σ σ') :
    Reaches w s σ σ' :=
  Relation.ReflTransGen.mono (fun _ _ h => .serve h) _ _ h

end Undisturbed

/-! ## Sessions -/

/-- The steps of a session: besides files, clock, context and a new id, only the INSERT of a new
    record. -/
def ClientOp : Op → Prop
  | .tx (.insert rec) => ∃ id msg now, rec = .enqueued id msg now
  | .tx _ => False
  | .submit _ _ => False
  | .poll _ _ => False
  | _ => True

omit [Unicode] in
theorem confined_client {R : Path → Prop} (o : Op) (h : Confined R o) : ClientOp o := by
  cases o with
  | tx t | submit msg id | poll id op => nomatch h
  | _ => trivial

/-- **A session only ever inserts.** -/
theorem enqueue_uses (s : SpoolStore) (msg : Message) : (s.enqueue msg).Uses ClientOp := by
  refine Uses.bind (uses_step trivial fun _ => trivial) fun _ => ?_
  refine Uses.bind (uses_step trivial fun _ => trivial) fun now => ?_
  refine Uses.bind (Uses.mapError (uses_step trivial fun _ => trivial)) fun id => ?_
  refine Uses.bind ((PayloadStore.save_confined id msg).mono confined_client).mapError
    fun _ => ?_
  refine Uses.bind (Uses.onFail ?_ ?_) fun _ => uses_pure _
  · exact Uses.bind (check_uses _) fun _ => uses_step ⟨id, msg, now, rfl⟩ fun _ => trivial
  · exact (PayloadStore.remove_confined id).mono confined_client

/-! ## Booting -/

/-- What the boot knows: nothing, or what the transaction of recovery has answered. -/
inductive BootDuty where
  | starting
  | recovering (snap : Snapshot)

/-- What an answer teaches the boot. -/
def BootDuty.after (κ : BootDuty) : (o : Op) → o.Res → BootDuty
  | .tx (.recover _), .ok snap => .recovering snap
  | _, _ => κ

/-- The steps of the boot. -/
def BootDuty.Allows : BootDuty → Op → Prop
  | .starting, o => o = .now ∨ o = .ctxErr ∨ o = .openDatabase ∨ Confined StartRegion o ∨
      ∃ t, o = .tx (.recover t)
  | .recovering snap, o => o = .now ∨ Confined (QuarantineRegion snap.validIDs) o ∨
      ∃ m cause t, (m ∈ snap.requeued ∨ m ∈ snap.submitted) ∧
        o = .tx (.update m.state (m.corrupted cause t))

/-- The protocol of the boot. -/
def bootProto : Proto spoolSig BootDuty where
  ok := BootDuty.Allows
  next κ o r κ' := Truthful o r ∧ κ' = κ.after o r

omit [Unicode] in
theorem bootDuty_confined {R : Path → Prop} {o : Op} (h : Confined R o) (κ : BootDuty) (r : o.Res) :
    κ.after o r = κ := by
  cases o with
  | tx t => nomatch h
  | _ => rfl

/-- The boot still knows the snapshot. -/
def Knows {α : Type} (snap : Snapshot) (_ : Except GoError α) (κ : BootDuty) : Prop :=
  κ = .recovering snap

theorem deadLetterCorruptRecord_boot {snap : Snapshot} {m : Metadata}
    (h : m ∈ snap.requeued ∨ m ∈ snap.submitted) (cause : GoError) :
    (deadLetterCorruptRecord m cause).Safe bootProto (Knows snap) (.recovering snap) := by
  refine ⟨Or.inl rfl, ?_⟩
  rintro t κ' ⟨-, rfl⟩
  refine Safe.lift_bind (fun rec hrec => ?_) fun _ _ => rfl
  cases hrec
  refine Safe.bind (P := Knows snap) ?_ (fun _ _ hκ => hκ) fun _ _ hκ => hκ
  refine Safe.lift_bind (fun _ _ => ?_) fun _ _ => rfl
  refine Safe.lift_bind (fun _ _ => ?_) fun _ _ => rfl
  refine ⟨Or.inr (Or.inr ⟨m, cause, t, h, rfl⟩), ?_⟩
  rintro r κ' ⟨-, rfl⟩
  cases r <;> rfl

/-- The loops of recovery keep the knowledge of the snapshot. -/
theorem recoverRecords_boot {s : SpoolStore} {snap : Snapshot} {what : String} {ms : List Metadata}
    (h : ∀ m ∈ ms, m ∈ snap.requeued ∨ m ∈ snap.submitted) :
    (s.recoverRecords what ms).Safe bootProto (Knows snap) (.recovering snap) := by
  induction ms with
  | nil => exact rfl
  | cons m ms ih =>
    refine Safe.bind (P := Knows snap) ?_ ?_ fun _ _ hκ => hκ
    · refine Safe.attempt (P := Knows snap) ?_ fun _ _ hκ => hκ
      refine (PayloadStore.load_confined m.id).safe (fun o ho => ⟨Or.inr (Or.inl ?_), ?_⟩)
        fun _ => rfl
      · exact Confined.mono (fun q hq => nomatch hq) o ho
      · rintro r κ' ⟨-, rfl⟩
        exact bootDuty_confined ho _ r
    rintro loaded _ ⟨⟩
    refine Safe.bind (P := Knows snap) ?_ ?_ fun _ _ hκ => hκ
    · cases loaded with
      | ok msg => exact rfl
      | error e =>
        rw [SpoolStore.settleRecovered]
        unfold onLoadError
        split
        · refine Safe.bind (deadLetterCorruptRecord_boot (h m (List.mem_cons_self ..)) _)
            (fun _ _ hκ => hκ) fun _ _ hκ => hκ
        · exact rfl
    rintro settled _ ⟨⟩
    refine Safe.bind (ih fun m' hm' => h m' (List.mem_cons_of_mem _ hm')) (fun _ _ hκ => hκ)
      fun _ _ hκ => hκ

theorem recoverFrom_boot {s : SpoolStore} (snap : Snapshot) :
    (do
      let requeued ← s.recoverRecords "requeued" snap.requeued
      let submitted ← s.recoverRecords "submitted" snap.submitted
      let orphaned ← (s.payloads.quarantineOrphans snap.validIDs).mapError
        (.wrapStoreError (lit "quarantine orphan payloads"))
      pure (SpoolStore.recoveryResult requeued submitted orphaned) : Task RecoveryResult).Safe
      bootProto (fun _ _ => True) (.recovering snap) := by
  refine Safe.bind (recoverRecords_boot fun m hm => Or.inl hm) ?_ fun _ _ _ => trivial
  rintro requeued _ ⟨⟩
  refine Safe.bind (recoverRecords_boot fun m hm => Or.inr hm) ?_ fun _ _ _ => trivial
  rintro submitted _ ⟨⟩
  refine Safe.bind (P := fun _ _ => True) ?_ (fun _ _ _ => trivial) fun _ _ _ => trivial
  refine (PayloadStore.quarantineOrphans_confined _).mapError.safe
    (fun o ho => ⟨Or.inr (Or.inl ho), ?_⟩) fun _ => trivial
  rintro r κ' ⟨-, rfl⟩
  exact bootDuty_confined ho _ r

theorem recover_boot {s : SpoolStore} (now : Int) :
    (s.recover now).Safe bootProto (fun _ _ => True) .starting := by
  refine ⟨Or.inr (Or.inl rfl), ?_⟩
  rintro ended κ' ⟨-, rfl⟩
  cases ended with
  | some e => trivial
  | none =>
    refine ⟨Or.inr (Or.inr (Or.inr (Or.inr ⟨now, rfl⟩))), ?_⟩
    rintro r κ' ⟨-, rfl⟩
    cases r with
    | error e => trivial
    | ok snap => exact recoverFrom_boot snap

/-- **The boot keeps to its protocol.** -/
theorem boot_safe {s : SpoolStore} : (boot s).Safe bootProto (fun _ _ => True) .starting := by
  have hstart : ∀ {α : Type} {p : Task α}, p.Uses (Confined StartRegion) →
      p.Safe bootProto (fun _ κ => κ = .starting) .starting := by
    intro α p hp
    refine hp.safe (fun o ho => ⟨Or.inr (Or.inr (Or.inr (Or.inl ho))), ?_⟩) fun _ => rfl
    rintro r κ' ⟨-, rfl⟩
    exact bootDuty_confined ho _ r
  refine Safe.bind (P := fun _ κ => κ = .starting) ?_ ?_ fun _ _ _ => trivial
  · refine Safe.lift_bind (fun _ _ => ?_) fun _ _ => rfl
    refine Safe.bind (hstart openRootOr_confined) ?_ fun _ _ hκ => hκ
    rintro _ _ rfl
    refine Safe.bind (P := fun _ κ => κ = .starting) ?_ ?_ fun _ _ hκ => hκ
    · refine ⟨Or.inr (Or.inr (Or.inl rfl)), ?_⟩
      rintro r κ' ⟨-, rfl⟩
      exact rfl
    rintro _ _ rfl
    exact hstart PayloadStore.newPayloadStore_confined
  rintro _ _ rfl
  refine ⟨Or.inl rfl, ?_⟩
  rintro now κ' ⟨-, rfl⟩
  exact recover_boot now

/-! ## A short day -/

/-- The morning of a relay: it boots in an empty directory, and one message is enqueued. -/
def sampleMorning : Option (Record × World) := do
  let ch := calm (.error .canceled) (.error .canceled)
  let booted ← run exec ch 100 (boot sampleStore) (sampleWorld ⟨[], List.nodup_nil⟩)
  let enqueued ← run exec ch 100 (sampleStore.enqueue sampleMessage) booted.2.2
  match booted.1, enqueued.1 with
  | .ok _, .ok rec => some (rec, enqueued.2.2)
  | _, _ => none

/-- The day after it: the worker makes one round, in which the provider answers `answer`. -/
def sampleDay (answer : Except GoError SubmissionResult) : Option World := do
  let morning ← sampleMorning
  let worked ← run exec (calm answer (.error .canceled)) 100 (sampleWorker.once sampleStore) morning.2
  if worked.1 = .ok () then some worked.2.2 else none

/-- The world of a morning is reached. -/
theorem sampleMorning_reached {w : Worker} {rec : Record} {W : World}
    (h : sampleMorning = some (rec, W)) :
    Reaches w sampleStore ⟨sampleWorld ⟨[], List.nodup_nil⟩, .down, []⟩
      ⟨W, .serving (w.start sampleStore) [], [(rec.id, sampleMessage)]⟩ := by
  unfold sampleMorning at h
  obtain ⟨⟨out1, tr1, W1⟩, h1, h⟩ := Option.bind_eq_some_iff.mp h
  obtain ⟨⟨out2, tr2, W2⟩, h2, h⟩ := Option.bind_eq_some_iff.mp h
  cases out1 with
  | error e => nomatch h
  | ok r =>
    cases out2 with
    | error e => nomatch h
    | ok rec' =>
      cases h
      exact (reaches_boot (runs_of_run h1)).trans (reaches_serves (serves_enqueue (runs_of_run h2)))

/-- The world of a day is reached. -/
theorem sampleDay_reached {answer : Except GoError SubmissionResult} {W : World}
    (h : sampleDay answer = some W) : ∃ acc,
    Reaches sampleWorker sampleStore ⟨sampleWorld ⟨[], List.nodup_nil⟩, .down, []⟩
      ⟨W, .serving (sampleWorker.start sampleStore) [], acc⟩ := by
  unfold sampleDay at h
  obtain ⟨⟨rec, W1⟩, h1, h⟩ := Option.bind_eq_some_iff.mp h
  obtain ⟨⟨out, tr, W2⟩, h2, h⟩ := Option.bind_eq_some_iff.mp h
  split at h
  · rename_i hout
    cases h
    have hround : Runs exec (sampleWorker.once sampleStore) W1 tr (.ok ()) W2 := by
      rw [← hout]
      exact runs_of_run h2
    have hserved : Relation.ReflTransGen (Serves sampleStore)
        ⟨W1, .serving (sampleWorker.start sampleStore) [], [(rec.id, sampleMessage)]⟩
        ⟨W2, .serving (sampleWorker.start sampleStore) [], [(rec.id, sampleMessage)]⟩ :=
      serves_of_moves (moves_of_round hround)
    exact ⟨_, (sampleMorning_reached h1).trans (reaches_serves hserved)⟩
  · nomatch h

end SmtpCloudRelay.Spool
