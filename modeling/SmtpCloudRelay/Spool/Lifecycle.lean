/-
  THE LIFE OF A RECORD: which changes of a row the store's methods can make at all.

  Callers may pass any record to the `Mark*` methods, stale or forged, in any order.  What protects
  the table is that every UPDATE names the state it expects: the edge from that state to the new
  one is fixed by the method, whatever the argument, so it is enough to know the edges that each
  method can ask for (`StoreCall.Asks`).  They are read off the methods once, with a protocol whose
  only knowledge is what the transactions answer (`Truthful`).

  The edge from queued to dead-letter needs more: only `Recover` asks for it, and only after loading
  the payload of that record has failed with a corruption.  That part looks at the events of a run.
-/
import SmtpCloudRelay.Spool.Footprint

namespace SmtpCloudRelay.Spool

open Go Lib Act List
open Prog (Runs)

/-! ## Edges -/

/-- The life cycle: the pairs of states between which a row may change. -/
inductive Edge : State → State → Prop where
  | claim : Edge .queued .working
  | requeue : Edge .working .queued
  | submit : Edge .working .submitted
  | succeed : Edge .working .succeeded
  | giveUp : Edge .working .deadLetter
  | reschedule : Edge .submitted .submitted
  | confirm : Edge .submitted .succeeded
  | reject : Edge .submitted .deadLetter
  | corrupt : Edge .queued .deadLetter

/-- A state that no edge leaves. -/
def State.Terminal (s : State) : Prop := s = .succeeded ∨ s = .deadLetter

theorem Edge.not_terminal {s s' : State} (h : Edge s s') : ¬ s.Terminal := by
  cases h <;> rintro (h | h) <;> nomatch h

/-- A call of a method of the store. -/
inductive StoreCall where
  | enqueue (msg : Message)
  | claimReady (now : Int)
  | nextSubmittedReady (now : Int)
  | mark (m : Mark)
  | recover (now : Int)

/-- The edges that a method asks UPDATE for. -/
def StoreCall.Asks : StoreCall → State → State → Prop
  | .claimReady _, s, s' => s = .working ∧ (s' = .queued ∨ s' = .deadLetter)
  | .mark _, s, s' => (s = .working ∧ (s' = .queued ∨ s' = .submitted ∨ s' = .succeeded ∨
      s' = .deadLetter)) ∨ (s = .submitted ∧ (s' = .submitted ∨ s' = .succeeded ∨ s' = .deadLetter))
  | .recover _, s, s' => (s = .queued ∨ s = .submitted) ∧ s' = .deadLetter
  | _, _, _ => False

theorem StoreCall.Asks.edge {c : StoreCall} {s s' : State} (h : c.Asks s s') : Edge s s' := by
  cases c with
  | enqueue msg | nextSubmittedReady now => nomatch h
  | claimReady now =>
    obtain ⟨rfl, rfl | rfl⟩ := h
    · exact .requeue
    · exact .giveUp
  | mark m =>
    rcases h with ⟨rfl, rfl | rfl | rfl | rfl⟩ | ⟨rfl, rfl | rfl | rfl⟩
    · exact .requeue
    · exact .submit
    · exact .succeed
    · exact .giveUp
    · exact .reschedule
    · exact .confirm
    · exact .reject
  | recover now =>
    obtain ⟨rfl | rfl, rfl⟩ := h
    · exact .corrupt
    · exact .reject

/-! ## The protocol -/

section

variable [Unicode]

/-- The protocol of a program that asks UPDATE only for edges in `A`. -/
def lifeProto (A : State → State → Prop) : Proto spoolSig Unit where
  ok _ o := ∀ s rec, o = .tx (.update s rec) → A s rec.state
  next _ o r _ := Truthful o r

omit [Unicode] in
/-- The programs of the payload store ask for nothing. -/
theorem confined_life {A : State → State → Prop} {R : Path → Prop} (o : Op) (h : Confined R o) :
    (lifeProto A).ok () o ∧ ∀ r κ, (lifeProto A).next () o r κ → κ = () := by
  refine ⟨?_, fun _ _ _ => rfl⟩
  rintro s rec rfl
  nomatch h

variable {A : State → State → Prop}

omit [Unicode] in
theorem readClock_life : readClock.Safe (lifeProto A) (fun _ _ => True) () :=
  ⟨(fun _ _ h => nomatch h), fun _ _ _ => trivial⟩

omit [Unicode] in
theorem checkContext_life : checkContext.Safe (lifeProto A) (fun _ _ => True) () :=
  ⟨(fun _ _ h => nomatch h), fun _ _ _ => trivial⟩

variable {rec rec' : Record} {α : Type} {id : GoString} {p : Task α} {e : GoError} {w w' : World}
  {tr : Trace} {out : Except GoError α} {ev : SpoolEvent} {st : State}

theorem updateRecord_life {s : State} (h : A s rec.state) :
    (updateRecord s rec).Safe (lifeProto A) (fun _ _ => True) () := by
  refine Safe.lift_bind (fun _ _ => ?_) fun _ _ => trivial
  refine Safe.lift_bind (fun _ _ => ?_) fun _ _ => trivial
  refine ⟨?_, fun _ _ _ => trivial⟩
  rintro s' rec' ⟨⟩
  exact h

theorem storeUpdated_life {s : State} {updated : Except GoError Record}
    (h : ∀ rec, updated = .ok rec → A s rec.state) :
    (storeUpdated s updated).Safe (lifeProto A) (fun _ _ => True) () := by
  refine Safe.lift_bind (fun rec hrec => ?_) fun _ _ => trivial
  exact Safe.bind (updateRecord_life (h rec hrec)) (fun _ _ _ => trivial) fun _ _ _ => trivial

/-! ## What each method asks for -/

theorem retried_state {next t1 t2 : Int} {lastErr : Option LastError}
    (h : rec.retried next lastErr t1 t2 = .ok rec') :
    (rec.state = .working ∧ rec'.state = .queued) ∨
      (rec.state = .submitted ∧ rec'.state = .submitted) := by
  unfold Record.retried at h
  cases hs : rec.state with
  | working =>
    rw [hs] at h
    cases h
    exact Or.inl ⟨rfl, rfl⟩
  | submitted =>
    rw [hs] at h
    cases h
    exact Or.inr ⟨rfl, rfl⟩
  | _ =>
    rw [hs] at h
    nomatch h

theorem succeeded_state {stamp : Int} (h : rec.succeeded stamp = .ok rec') :
    (rec.state = .working ∨ rec.state = .submitted) ∧ rec'.state = .succeeded := by
  unfold Record.succeeded at h
  cases hs : rec.state with
  | working =>
    rw [hs] at h
    cases h
    exact ⟨Or.inl rfl, rfl⟩
  | submitted =>
    rw [hs] at h
    cases h
    exact ⟨Or.inr rfl, rfl⟩
  | _ =>
    rw [hs] at h
    nomatch h

theorem deadLettered_state {t1 t2 : Int} {lastErr : Option LastError}
    (h : rec.deadLettered lastErr t1 t2 = .ok rec') :
    (rec.state = .working ∨ rec.state = .submitted) ∧ rec'.state = .deadLetter := by
  unfold Record.deadLettered at h
  cases hs : rec.state with
  | working =>
    rw [hs] at h
    cases h
    exact ⟨Or.inl rfl, rfl⟩
  | submitted =>
    rw [hs] at h
    cases h
    exact ⟨Or.inr rfl, rfl⟩
  | _ =>
    rw [hs] at h
    nomatch h

theorem mark_life (m : Mark) :
    m.run.Safe (lifeProto (StoreCall.mark m).Asks) (fun _ _ => True) () := by
  have hclock : ∀ {f : Int → Task Record}, (∀ t, (f t).Safe (lifeProto (StoreCall.mark m).Asks)
      (fun _ _ => True) ()) → (readClock >>= f).Safe (lifeProto (StoreCall.mark m).Asks)
      (fun _ _ => True) () := fun hf =>
    Safe.bind readClock_life (fun t _ _ => hf t) fun _ _ _ => trivial
  cases m with
  | submitted rec result next =>
    refine Safe.lift_bind (fun _ hstate => ?_) fun _ _ => trivial
    refine hclock fun stamp => storeUpdated_life ?_
    rintro rec' ⟨⟩
    exact Or.inl ⟨not_not.mp (failIf_eq_ok.mp hstate), Or.inr (Or.inl rfl)⟩
  | retry rec next lastErr =>
    refine hclock fun t1 => hclock fun t2 => storeUpdated_life fun rec' h => ?_
    rcases retried_state h with ⟨hs, hs'⟩ | ⟨hs, hs'⟩
    · exact Or.inl ⟨hs, Or.inl hs'⟩
    · exact Or.inr ⟨hs, Or.inl hs'⟩
  | succeeded rec =>
    refine hclock fun stamp => storeUpdated_life fun rec' h => ?_
    obtain ⟨hs | hs, hs'⟩ := succeeded_state h
    · exact Or.inl ⟨hs, Or.inr (Or.inr (Or.inl hs'))⟩
    · exact Or.inr ⟨hs, Or.inr (Or.inl hs')⟩
  | deadLetter rec lastErr =>
    refine hclock fun t1 => hclock fun t2 => storeUpdated_life fun rec' h => ?_
    obtain ⟨hs | hs, hs'⟩ := deadLettered_state h
    · exact Or.inl ⟨hs, Or.inr (Or.inr (Or.inr hs'))⟩
    · exact Or.inr ⟨hs, Or.inr (Or.inr hs')⟩

theorem deadLetterCorruptRecord_life {m : Metadata} {cause : GoError} (h : A m.state .deadLetter) :
    (deadLetterCorruptRecord m cause).Safe (lifeProto A) (fun _ _ => True) () := by
  refine Safe.bind readClock_life (fun now _ _ => ?_) fun _ _ _ => trivial
  refine storeUpdated_life ?_
  rintro rec ⟨⟩
  rw [corrupted_state]
  exact h

/-- Either way of going on after a failed load. -/
theorem onLoadError_safe {K : Type} {L : Proto spoolSig K} {Q : Except GoError α → K → Prop} {κ : K}
    {err : GoError} {corrupt other : GoError → Task α}
    (hc : ∀ c, (classifyPayloadLoadError id err).asRecordCorruptionError = some c →
      (corrupt c).Safe L Q κ) (ho : (other (classifyPayloadLoadError id err)).Safe L Q κ) :
    (onLoadError id err corrupt other).Safe L Q κ := by
  unfold onLoadError
  cases h : (classifyPayloadLoadError id err).asRecordCorruptionError with
  | some c => exact hc c h
  | none => exact ho

variable (s : SpoolStore)

/-- The program of a call; its result is dropped, its error is not. -/
def StoreCall.run : StoreCall → Task Unit
  | .enqueue msg => s.enqueue msg >>= fun _ => pure ()
  | .claimReady now => s.claimReady now >>= fun _ => pure ()
  | .nextSubmittedReady now => SpoolStore.nextSubmittedReady now >>= fun _ => pure ()
  | .mark m => m.run >>= fun _ => pure ()
  | .recover now => s.recover now >>= fun _ => pure ()

theorem load_life (id : GoString) :
    (s.payloads.load id).Safe (lifeProto A) (fun _ _ => True) () :=
  (PayloadStore.load_confined id).safe confined_life fun _ => trivial

theorem enqueue_life (msg : Message) :
    (s.enqueue msg).Safe (lifeProto (StoreCall.enqueue msg).Asks) (fun _ _ => True) () := by
  refine Safe.bind checkContext_life (fun _ _ _ => ?_) fun _ _ _ => trivial
  refine Safe.bind readClock_life (fun now _ _ => ?_) fun _ _ _ => trivial
  refine Safe.bind (P := fun _ _ => True) ?_ (fun id _ _ => ?_) fun _ _ _ => trivial
  · refine ⟨(fun s rec h => nomatch h), fun r _ _ => ?_⟩
    cases r <;> trivial
  refine Safe.bind (P := fun _ _ => True) ?_ (fun _ _ _ => ?_) fun _ _ _ => trivial
  · exact (PayloadStore.save_confined id msg).mapError.safe confined_life fun _ => trivial
  refine Safe.bind (P := fun _ _ => True) ?_ (fun _ _ _ => trivial) fun _ _ _ => trivial
  refine Safe.onFail (P := fun _ _ => True) ?_ (fun _ _ _ => trivial) fun _ _ _ => ?_
  · refine Safe.lift_bind (fun _ _ => ?_) fun _ _ => trivial
    exact ⟨(fun s rec h => nomatch h), fun _ _ _ => trivial⟩
  · exact (PayloadStore.remove_confined id).safe confined_life fun _ => trivial

theorem claimReady_life (now : Int) :
    (s.claimReady now).Safe (lifeProto (StoreCall.claimReady now).Asks) (fun _ _ => True) () := by
  refine Safe.bind checkContext_life (fun _ _ _ => ?_) fun _ _ _ => trivial
  refine Safe.forever (fun _ _ => True) trivial fun _ _ _ => ?_
  refine Safe.mono (Q := fun _ _ => True) ?_ ?_
  · intro x _ _
    rcases x with e | a | b <;> trivial
  refine Safe.bind (P := fun r κ => Truthful (.tx (.claim now)) r) ?_ ?_ fun _ _ _ => trivial
  · exact ⟨(fun s rec h => nomatch h), fun r _ hr => hr⟩
  rintro claimed ⟨⟩ hclaimed
  cases claimed with
  | none => trivial
  | some m =>
    have hm : m.state = .working := hclaimed
    refine Safe.bind (P := fun _ _ => True) ?_ (fun loaded _ _ => ?_) fun _ _ _ => trivial
    · exact Safe.attempt (load_life s m.id) fun _ _ _ => trivial
    cases loaded with
    | ok msg => trivial
    | error e =>
      rw [SpoolStore.settleClaim]
      refine onLoadError_safe (fun c _ => ?_) ?_
      · refine Safe.bind (deadLetterCorruptRecord_life ?_) (fun _ _ _ => trivial)
          fun _ _ _ => trivial
        exact ⟨hm, Or.inr rfl⟩
      · refine Safe.bind (P := fun _ _ => True) ?_ (fun _ _ _ => trivial) fun _ _ _ => trivial
        refine Safe.bind readClock_life (fun stamp _ _ => ?_)
          fun _ _ _ => trivial
        refine Safe.mapError (updateRecord_life ?_) (fun _ _ _ => trivial) fun _ _ _ => trivial
        exact ⟨hm, Or.inl rfl⟩

theorem recoverRecords_life (what : String) (now : Int) {ms : List Metadata}
    (h : ∀ m ∈ ms, m.state = .queued ∨ m.state = .submitted) :
    (s.recoverRecords what ms).Safe (lifeProto (StoreCall.recover now).Asks)
      (fun _ _ => True) () := by
  induction ms with
  | nil => trivial
  | cons m ms ih =>
    refine Safe.bind (P := fun _ _ => True) ?_ (fun loaded _ _ => ?_) fun _ _ _ => trivial
    · exact Safe.attempt (load_life s m.id) fun _ _ _ => trivial
    refine Safe.bind (P := fun _ _ => True) ?_ (fun _ _ _ => ?_) fun _ _ _ => trivial
    · cases loaded with
      | ok msg => trivial
      | error e =>
        rw [SpoolStore.settleRecovered]
        refine onLoadError_safe (fun c _ => ?_) ?_
        · refine Safe.bind (deadLetterCorruptRecord_life ?_) (fun _ _ _ => trivial)
            fun _ _ _ => trivial
          exact ⟨h m (mem_cons_self ..), rfl⟩
        · trivial
    · refine Safe.bind (ih fun m' hm' => h m' (mem_cons_of_mem _ hm'))
        (fun _ _ _ => trivial) fun _ _ _ => trivial

theorem recover_life (now : Int) :
    (s.recover now).Safe (lifeProto (StoreCall.recover now).Asks) (fun _ _ => True) () := by
  refine Safe.bind checkContext_life (fun _ _ _ => ?_) fun _ _ _ => trivial
  refine Safe.bind (P := fun r κ => Truthful (.tx (.recover now)) r) ?_ ?_ fun _ _ _ => trivial
  · exact ⟨(fun s rec h => nomatch h), fun r _ hr => hr⟩
  rintro snap ⟨⟩ ⟨hrequeued, hsubmitted⟩
  refine Safe.bind (recoverRecords_life s _ now fun m hm => Or.inl (hrequeued m hm))
    (fun _ _ _ => ?_) fun _ _ _ => trivial
  refine Safe.bind (recoverRecords_life s _ now fun m hm => Or.inr (hsubmitted m hm))
    (fun _ _ _ => ?_) fun _ _ _ => trivial
  refine Safe.bind (P := fun _ _ => True) ?_ (fun _ _ _ => trivial) fun _ _ _ => trivial
  exact (PayloadStore.quarantineOrphans_confined _).mapError.safe confined_life fun _ => trivial

/-- **Every method asks only for its own edges**, whatever its arguments and whatever the outside
    answers. -/
theorem call_life (c : StoreCall) : (c.run s).Safe (lifeProto c.Asks) (fun _ _ => True) () := by
  cases c with
  | enqueue msg =>
    exact Safe.bind (enqueue_life s msg) (fun _ _ _ => trivial) fun _ _ _ => trivial
  | claimReady now =>
    exact Safe.bind (claimReady_life s now) (fun _ _ _ => trivial) fun _ _ _ => trivial
  | nextSubmittedReady now =>
    refine Safe.bind (P := fun _ _ => True) ?_ (fun _ _ _ => trivial) fun _ _ _ => trivial
    refine Safe.bind (P := fun _ _ => True) ?_ (fun _ _ _ => trivial) fun _ _ _ => trivial
    exact ⟨(fun s rec h => nomatch h), fun _ _ _ => trivial⟩
  | mark m => exact Safe.bind (mark_life m) (fun _ _ _ => trivial) fun _ _ _ => trivial
  | recover now =>
    exact Safe.bind (recover_life s now) (fun _ _ _ => trivial) fun _ _ _ => trivial

/-! ## A corruption found by recovery -/

/-- No link of the chain is a `RecordCorruptionError`. -/
def Unclassified (e : GoError) : Prop := e.asRecordCorruptionError = none

omit [Unicode] in
theorem openDir_unclassified {before : GoString} {p : Path} :
    (sysOr before (.openDir p) : Task Unit).Safe (lifeProto A)
      (fun r _ => FailsWith Unclassified r) () := by
  refine ⟨(fun s rec h => nomatch h), fun r _ _ => ?_⟩
  cases r with
  | ok a => exact failsWith_ok
  | error e => exact failsWith_error.mpr rfl

omit [Unicode] in
theorem sysRaw_unclassified {c : Call GoString} :
    (sysRaw c).Safe (lifeProto A) (fun r _ => FailsWith Unclassified r) () := by
  refine ⟨(fun s rec h => nomatch h), fun r _ _ => ?_⟩
  cases r with
  | ok a => exact failsWith_ok
  | error e => exact failsWith_error.mpr rfl

omit [Unicode] in
theorem openDirectoryAtNoFollow_unclassified {p : Path} :
    (openDirectoryAtNoFollow p).Safe (lifeProto A) (fun r _ => FailsWith Unclassified r) () := by
  refine ⟨(fun s rec h => nomatch h), fun r _ _ => ?_⟩
  cases r with
  | ok a => exact failsWith_ok
  | error e => exact failsWith_error.mpr rfl

omit [Unicode] in
theorem openRootOr_unclassified {before : GoString} :
    (openRootOr before).Safe (lifeProto A) (fun r _ => FailsWith Unclassified r) () := by
  refine ⟨(fun s rec h => nomatch h), fun r _ hr => ?_⟩
  cases r with
  | ok a => exact failsWith_ok
  | error e =>
    have he : Unclassified e := hr
    exact failsWith_error.mpr he

omit [Unicode] in
/-- Sequencing programs that fail with unclassified errors. -/
theorem unclassified_bind {β : Type} {f : α → Task β}
    (hp : p.Safe (lifeProto A) (fun r _ => FailsWith Unclassified r) ())
    (hf : ∀ a, (f a).Safe (lifeProto A) (fun r _ => FailsWith Unclassified r) ()) :
    (p >>= f).Safe (lifeProto A) (fun r _ => FailsWith Unclassified r) () :=
  Safe.bind hp (fun a _ _ => hf a) fun _ _ he => failsWith_error.mpr (failsWith_error.mp he)

omit [Unicode] in
theorem check_unclassified {x : Except GoError Unit} (h : FailsWith Unclassified x) :
    (check x).Safe (lifeProto A) (fun r _ => FailsWith Unclassified r) () := by
  refine Safe.lift (fun _ _ => failsWith_ok) fun e he => failsWith_error.mpr (h e he)

omit [Unicode] in
theorem classifyRecordPathError_unclassified {path : GoString} {missing : String}
    (h : Unclassified e) :
    Unclassified (PayloadStore.classifyRecordPathError id path missing e) := by
  unfold PayloadStore.classifyRecordPathError
  split
  · rfl
  · split
    · rfl
    · split
      · rfl
      · exact h

omit [Unicode] in
theorem classified_unclassified {path : GoString} {missing : String}
    (hp : p.Safe (lifeProto A) (fun r _ => FailsWith Unclassified r) ()) :
    (p.mapError (PayloadStore.classifyRecordPathError id path missing)).Safe (lifeProto A)
      (fun r _ => FailsWith Unclassified r) () := by
  refine Safe.mapError hp (fun _ _ _ => failsWith_ok) fun e _ he => failsWith_error.mpr ?_
  exact classifyRecordPathError_unclassified (failsWith_error.mp he)

omit [Unicode] in
theorem readRegularFileAtNoFollow_unclassified {p : Path} :
    (readRegularFileAtNoFollow p).Safe (lifeProto A) (fun r _ => FailsWith Unclassified r) () := by
  refine unclassified_bind sysRaw_unclassified fun data => ?_
  rcases data with _ | bytes
  · exact failsWith_error.mpr rfl
  · exact failsWith_ok

theorem validateCanonicalRecordID_unclassified (id : GoString) :
    FailsWith Unclassified (validateCanonicalRecordID id) := by
  refine FailsWith.bind (.failIf ?_) fun _ => FailsWith.bind (.failIf ?_) fun _ => .failIf ?_
  · rfl
  · rfl
  · rfl

theorem validateAttachmentRef_unclassified (i : Nat) (ref : AttachmentRef) :
    FailsWith Unclassified (validateAttachmentRef i ref) := by
  refine FailsWith.bind (.failIf ?_) fun _ => FailsWith.bind (.failIf ?_) fun _ => .failIf ?_
  · rfl
  · rfl
  · rfl

theorem loadAttachments_unclassified {s : PayloadStore} (id : GoString) (i : Nat)
    (refs : List AttachmentRef) :
    (s.loadAttachments id i refs).Safe (lifeProto A) (fun r _ => FailsWith Unclassified r) () := by
  induction refs generalizing i with
  | nil => exact failsWith_ok
  | cons ref refs ih =>
    refine unclassified_bind (check_unclassified ?_) fun _ => ?_
    · intro e he
      cases hv : validateAttachmentRef i ref with
      | ok _ =>
        rw [hv] at he
        nomatch he
      | error e' =>
        rw [hv] at he
        cases he
        exact validateAttachmentRef_unclassified i ref e' hv
    refine unclassified_bind (classified_unclassified readRegularFileAtNoFollow_unclassified)
      fun data => ?_
    refine unclassified_bind (check_unclassified (.failIf rfl)) fun _ => ?_
    refine unclassified_bind (check_unclassified (.failIf rfl)) fun _ => ?_
    exact unclassified_bind (ih (i + 1)) fun _ => failsWith_ok

/-- Loading never fails with an error that is classified already. -/
theorem load_unclassified (id : GoString) :
    (s.payloads.load id).Safe (lifeProto A) (fun r _ => FailsWith Unclassified r) () := by
  refine unclassified_bind (check_unclassified (validateCanonicalRecordID_unclassified _))
    fun _ => ?_
  refine unclassified_bind openRootOr_unclassified fun _ => ?_
  refine unclassified_bind openDir_unclassified fun _ => ?_
  refine unclassified_bind (classified_unclassified openDirectoryAtNoFollow_unclassified)
    fun _ => ?_
  refine unclassified_bind (classified_unclassified readRegularFileAtNoFollow_unclassified)
    fun data => ?_
  cases Manifest.unmarshal data with
  | none => exact failsWith_error.mpr rfl
  | some m =>
    refine unclassified_bind ?_ fun _ =>
      unclassified_bind (loadAttachments_unclassified _ 0 _) fun _ => failsWith_ok
    cases hrefs : m.attachments with
    | nil => exact failsWith_ok
    | cons ref refs => exact classified_unclassified openDirectoryAtNoFollow_unclassified

/-- So the error that the code takes for a corruption is one of the payload store. -/
theorem isPayloadCorruption_of_classified {c : GoError} (he : Unclassified e)
    (h : (classifyPayloadLoadError id e).asRecordCorruptionError = some c) :
    e.isPayloadCorruption = true := by
  by_contra hno
  unfold classifyPayloadLoadError GoError.wrapStoreError at h
  rw [if_neg hno] at h
  have hsome : e.asRecordCorruptionError = some c := by
    split at h <;> exact h
  rw [he] at hsome
  nomatch hsome

/-! ## Runs of the methods -/

/-- A program that keeps to the protocol of edges does so in every run. -/
theorem runs_life {Q : Except GoError α → Unit → Prop} (h : Runs exec p w tr out w')
    (hp : p.Safe (lifeProto A) Q ()) : Q out () ∧ ∀ ev ∈ tr, (lifeProto A).ok () ev.op := by
  obtain ⟨⟨_, hq, -⟩, hevs⟩ := Prog.Runs.safe (R := fun _ _ => True)
    (fun _ _ _ _ _ _ _ _ hE => ⟨(), exec_truthful hE, trivial⟩) h hp trivial
  exact ⟨hq, fun ev hev => (hevs ev hev).elim fun _ hok => hok.2⟩

/-- Before event `ev` of the run, loading the payload of `id` failed with a corruption. -/
def FoundCorrupt (tr : Trace) (ev : SpoolEvent) (id : GoString) : Prop :=
  ∃ tr1 trLoad tr2 w1 w2 e, tr = tr1 ++ trLoad ++ tr2 ∧ ev ∈ tr2 ∧
    Runs exec (s.payloads.load id) w1 trLoad (.error e) w2 ∧ e.isPayloadCorruption = true

variable {s}

theorem FoundCorrupt.append (h : FoundCorrupt s tr ev id) (before after : Trace) :
    FoundCorrupt s (before ++ (tr ++ after)) ev id := by
  obtain ⟨tr1, trLoad, tr2, w1, w2, e, rfl, hev, hload, he⟩ := h
  refine ⟨before ++ tr1, trLoad, tr2 ++ after, w1, w2, e, ?_, ?_, hload, he⟩
  · simp only [append_assoc]
  · exact mem_append_left _ hev

/-- No event of a payload program is a transaction. -/
theorem confined_no_tx {R : Path → Prop} (h : Runs exec p w tr out w')
    (hp : p.Uses (Confined R)) : ∀ ev ∈ tr, ∀ t, ev.op ≠ .tx t := by
  intro ev hev t ht
  have hc := h.uses hp ev hev
  rw [ht] at hc
  exact hc

/-- A step that is no UPDATE of a record other than `id`. -/
def UpdatesOnly (id : GoString) (o : Op) : Prop :=
  ∀ st (rec : Record), o = .tx (.update st rec) → rec.id = id

/-- The only UPDATE of `deadLetterCorruptRecord` is for its record. -/
theorem deadLetterCorruptRecord_updates (m : Metadata) (cause : GoError) :
    (deadLetterCorruptRecord m cause).Uses (UpdatesOnly m.id) := by
  refine Uses.bind ⟨(fun st rec h => nomatch h), fun _ _ _ => trivial⟩ fun now => ?_
  refine Safe.lift_bind (fun rec hrec => ?_) fun _ _ => trivial
  cases hrec
  refine Uses.bind (Uses.bind (check_uses _) fun _ => ?_) fun _ => uses_pure _
  refine Uses.bind (check_uses _) fun _ => ⟨?_, fun _ _ _ => trivial⟩
  rintro st rec ⟨⟩
  unfold Metadata.corrupted
  split <;> rfl

/-- An UPDATE that settles a record comes after a failed load of its payload. -/
theorem settleRecovered_found {what : String} {m : Metadata} {loaded : Except GoError Message}
    {w1 w2 : World} {trLoad trS : Trace} {out : Except GoError (Record ⊕ Record)}
    (hload : Runs exec (s.payloads.load m.id) w trLoad loaded w1)
    (hS : Runs exec (SpoolStore.settleRecovered what m loaded) w1 trS out w2) (hev : ev ∈ trS)
    (hop : ev.op = .tx (.update st rec)) : FoundCorrupt s (trLoad ++ trS) ev rec.id := by
  cases loaded with
  | ok msg =>
    obtain ⟨-, rfl, -⟩ := hS.ret_inv
    nomatch hev
  | error e =>
    rw [SpoolStore.settleRecovered, onLoadError] at hS
    cases hc : (classifyPayloadLoadError m.id e).asRecordCorruptionError with
    | none =>
      rw [hc] at hS
      obtain ⟨-, rfl, -⟩ := hS.ret_inv
      nomatch hev
    | some c =>
      rw [hc] at hS
      have hid : rec.id = m.id := hS.uses (Uses.bind (deadLetterCorruptRecord_updates m c)
        fun _ => uses_pure _) ev hev st rec hop
      have hun := (runs_life (A := fun _ _ => True) hload (load_unclassified s m.id)).1
      rw [hid]
      exact ⟨[], trLoad, trS, w, w1, e, rfl, hev, hload,
        isPayloadCorruption_of_classified (failsWith_error.mp hun) hc⟩

/-- An UPDATE by recovery is for a record whose payload it has found corrupt. -/
theorem recoverRecords_found {what : String} {ms : List Metadata}
    {out : Except GoError (List (Record ⊕ Record))}
    (h : Runs exec (s.recoverRecords what ms) w tr out w') (hev : ev ∈ tr)
    (hop : ev.op = .tx (.update st rec)) : FoundCorrupt s tr ev rec.id := by
  induction ms generalizing w w' tr out with
  | nil =>
    obtain ⟨-, rfl, -⟩ := h.ret_inv
    nomatch hev
  | cons m ms ih =>
    -- the event is in the load, or it settles this record, or it belongs to the rest
    rcases h.mem_bind hev with ⟨trLoad, tr', x, w1, rfl, hevL, hL⟩ |
      ⟨trLoad, tr', loaded, w1, rfl, hev', hL, h'⟩
    · obtain ⟨_, -, hload⟩ := hL.attempt_inv
      exact absurd hop (confined_no_tx hload (PayloadStore.load_confined m.id) ev hevL _)
    obtain ⟨_, ⟨⟩, hload⟩ := hL.attempt_inv
    rcases h'.mem_bind hev' with ⟨trS, trR, x, w2, rfl, hevS, hS⟩ |
      ⟨trS, trR, settled, w2, rfl, hevR, -, h''⟩
    · have := (settleRecovered_found hload hS hevS hop).append [] trR
      rwa [nil_append, append_assoc] at this
    rcases h''.mem_bind hevR with ⟨tr1, tr2, x, w3, rfl, hev1, hrest⟩ |
      ⟨tr1, tr2, rest, w3, rfl, hev2, -, hret⟩
    · have := (ih hrest hev1).append (trLoad ++ trS) tr2
      rwa [append_assoc] at this
    · obtain ⟨-, rfl, -⟩ := hret.ret_inv
      nomatch hev2

/-- An UPDATE in a run of `Recover` is for a record whose payload the run has found corrupt. -/
theorem recover_found {now : Int} {out : Except GoError RecoveryResult}
    (h : Runs exec (s.recover now) w tr out w') (hev : ev ∈ tr)
    (hop : ev.op = .tx (.update st rec)) : FoundCorrupt s tr ev rec.id := by
  -- neither the context, nor the transaction of recovery itself
  rcases h.mem_bind hev with ⟨tr1, tr2, x, w1, rfl, hev1, h1⟩ | ⟨tr1, tr2, _, w1, rfl, hev, -, h⟩
  · nomatch (h1.mem_step hev1).symm.trans hop
  rcases h.mem_bind hev with ⟨tr3, tr4, x, w2, rfl, hev1, h1⟩ | ⟨tr3, tr4, snap, w2, rfl, hev, -, h⟩
  · nomatch (h1.mem_step hev1).symm.trans hop
  -- it is in one of the two loops
  have hpre : ∀ (before : Trace) {mid after : Trace}, FoundCorrupt s mid ev rec.id →
      FoundCorrupt s (tr1 ++ (tr3 ++ (before ++ (mid ++ after)))) ev rec.id := by
    intro before mid after hmid
    have := hmid.append (tr1 ++ (tr3 ++ before)) after
    simpa only [append_assoc] using this
  rcases h.mem_bind hev with ⟨tr5, tr6, x, w3, rfl, hev1, h1⟩ | ⟨tr5, tr6, _, w3, rfl, hev, -, h⟩
  · exact hpre [] (recoverRecords_found h1 hev1 hop)
  rcases h.mem_bind hev with ⟨tr7, tr8, x, w4, rfl, hev1, h1⟩ | ⟨tr7, tr8, _, w4, rfl, hev, -, h⟩
  · exact hpre tr5 (recoverRecords_found h1 hev1 hop)
  -- quarantining makes no transaction
  have hno := confined_no_tx h (Uses.bind
    (PayloadStore.quarantineOrphans_confined _).mapError fun _ => uses_pure _)
  exact absurd hop (hno ev hev _)

/-! ## A method that fails -/

/-- No transaction of the run was applied and reported as failed. -/
def NothingLost (tr : Trace) : Prop :=
  ∀ ev ∈ tr, ∀ out, ev.choice = .tx out → out.isLost = false

theorem storeUpdated_error {updated : Except GoError Record}
    (h : Runs exec (storeUpdated st updated) w tr (.error e) w') (hlost : NothingLost tr) :
    w'.rows = w.rows := by
  rcases h.lift_bind_inv with ⟨rec, -, h⟩ | ⟨_, -, -, -, rfl⟩
  swap
  · rfl
  rcases h.act_bind_inv with ⟨u, tr1, tr2, w1, rfl, -, h⟩ | ⟨e', -, h⟩
  · nomatch h.ret_inv.1
  rcases h.lift_bind_inv with ⟨_, -, h⟩ | ⟨_, -, -, -, rfl⟩
  swap
  · rfl
  rcases h.lift_bind_inv with ⟨_, -, h⟩ | ⟨_, -, -, -, rfl⟩
  swap
  · rfl
  obtain ⟨ch, r, w1, tr', rfl, hE, hret⟩ := h.step_inv
  obtain ⟨rfl, rfl, rfl⟩ := hret.ret_inv
  obtain ⟨out, rows, rfl, hp, rfl⟩ := exec_tx hE
  have hout := hlost _ (mem_cons_self ..) out rfl
  -- the answer is an error and nothing was lost: nothing was applied
  rcases Tx.perform_cases hp with ⟨_, _, -, ⟨-, hr⟩ | ⟨hlost', -⟩⟩ | ⟨hrows, -, -⟩
  · nomatch hr
  · rw [hout] at hlost'
    nomatch hlost'
  · exact hrows

theorem readClock_bind_inv {f : Int → Task α}
    (h : Runs exec (readClock >>= f : Task α) w tr out w') (hlost : NothingLost tr) :
    ∃ t tr' w1, w1.rows = w.rows ∧ NothingLost tr' ∧ Runs exec (f t) w1 tr' out w' := by
  obtain ⟨c, t, w1, tr', rfl, hE, h'⟩ := h.step_inv
  refine ⟨t, tr', w1, exec_rows hE rfl, ?_, h'⟩
  exact fun ev hev => hlost ev (mem_cons_of_mem _ hev)

/-- **A `Mark*` method that fails leaves the table as it was**, when no commit was lost. -/
theorem mark_error_rows {m : Mark} (h : Runs exec m.run w tr (.error e) w')
    (hlost : NothingLost tr) : w'.rows = w.rows := by
  cases m with
  | submitted rec result next =>
    rcases h.lift_bind_inv with ⟨_, -, h⟩ | ⟨_, -, -, -, rfl⟩
    · obtain ⟨t, tr', w1, hrows, hlost', h'⟩ := readClock_bind_inv h hlost
      exact (storeUpdated_error h' hlost').trans hrows
    · rfl
  | retry rec next lastErr =>
    obtain ⟨t1, tr1, w1, hrows1, hlost1, h1⟩ := readClock_bind_inv h hlost
    obtain ⟨t2, tr2, w2, hrows2, hlost2, h2⟩ := readClock_bind_inv h1 hlost1
    exact ((storeUpdated_error h2 hlost2).trans hrows2).trans hrows1
  | succeeded rec =>
    obtain ⟨t, tr', w1, hrows, hlost', h'⟩ := readClock_bind_inv h hlost
    exact (storeUpdated_error h' hlost').trans hrows
  | deadLetter rec lastErr =>
    obtain ⟨t1, tr1, w1, hrows1, hlost1, h1⟩ := readClock_bind_inv h hlost
    obtain ⟨t2, tr2, w2, hrows2, hlost2, h2⟩ := readClock_bind_inv h1 hlost1
    exact ((storeUpdated_error h2 hlost2).trans hrows2).trans hrows1

/-! ## Sequences of calls -/

/-- A call that was made: its run and its outcome. -/
structure Visit where
  call : StoreCall
  before : World
  trace : Trace
  outcome : Except GoError Unit
  after : World

variable (s) in
/-- A sequence of calls, one after the other.  Between two calls anything but the table may have
    changed: the payload files, the ids drawn, what the provider was asked. -/
inductive Session : World → List Visit → World → Prop where
  | nil (w : World) : Session w [] w
  | cons {w w0 w1 w' : World} {c : StoreCall} {tr : Trace} {out : Except GoError Unit}
      {vs : List Visit} (hrows : w0.rows = w.rows) (h : Runs exec (c.run s) w0 tr out w1)
      (hvs : Session w1 vs w') : Session w (⟨c, w0, tr, out, w1⟩ :: vs) w'

theorem Session.visit {vs : List Visit} (h : Session s w vs w') :
    ∀ v ∈ vs, Runs exec (v.call.run s) v.before v.trace v.outcome v.after := by
  induction h with
  | nil w => exact fun v hv => nomatch hv
  | cons hrows h hvs ih =>
    intro v hv
    rcases mem_cons.mp hv with rfl | hv
    · exact h
    · exact ih v hv

/-- What an event does to a row that is there: nothing, or a change along an edge that the call
    asks for, or one of the two edges of the store's own statements. -/
theorem visit_event {c : StoreCall} {out : Except GoError Unit}
    (h : Runs exec (c.run s) w tr out w') (hev : ev ∈ tr) {row : Row}
    (hrow : ev.pre.rows.find id = some row) :
    ∃ row', ev.post.rows.find id = some row' ∧ (row' = row ∨
      (row.state = .queued ∧ row'.state = .working) ∨ (row.state = .working ∧ row'.state = .queued) ∨
      (c.Asks row.state row'.state ∧ ∃ rec : Record, rec.id = id ∧
        ev.op = .tx (.update row.state rec))) := by
  obtain ⟨row', hrow', heq | ⟨tx, hop, hrw⟩⟩ := exec_find (h.valid ev hev) hrow
  · exact ⟨row', hrow', Or.inl heq⟩
  refine ⟨row', hrow', Or.inr ?_⟩
  cases tx with
  | insert rec | nextSubmitted now => nomatch hrw
  | claim now =>
    obtain ⟨hs, stamp, hcols⟩ := hrw
    refine Or.inl ⟨hs, ?_⟩
    rw [hcols]
    rfl
  | recover now =>
    obtain ⟨hs, stamp, hcols⟩ := hrw
    refine Or.inr (Or.inl ⟨hs, ?_⟩)
    rw [hcols]
    rfl
  | update st rec =>
    obtain ⟨hid, rfl, hcols⟩ := hrw
    have hask := (runs_life h (call_life s c)).2 ev hev row.state rec hop
    have hstate : row'.state = rec.state := by
      rw [hcols]
      rfl
    rw [hstate]
    exact Or.inr (Or.inr ⟨hask, rec, hid.symm.trans (find_id hrow), hop⟩)

/-- From one call to the next, no row disappears and a terminal row stays as it is. -/
theorem Session.kept {vs : List Visit} (h : Session s w vs w') {row : Row}
    (hrow : w.rows.find id = some row) :
    ∃ row', w'.rows.find id = some row' ∧ (row.state.Terminal → row' = row) := by
  induction h generalizing row with
  | nil w => exact ⟨row, hrow, fun _ => rfl⟩
  | @cons w w0 w1 w' c tr out vs hrows h hvs ih =>
    -- what the events of one call keep, by induction along its run
    have hkept : ∀ row, w0.rows.find id = some row →
        ∃ row', w1.rows.find id = some row' ∧ (row.state.Terminal → row' = row) := by
      refine h.induct (I := fun a b => ∀ row, a.rows.find id = some row →
        ∃ row', b.rows.find id = some row' ∧ (row.state.Terminal → row' = row)) ?_ ?_ ?_
      · exact fun w row hrow => ⟨row, hrow, fun _ => rfl⟩
      · intro a b c hab hbc row hrow
        obtain ⟨row1, hrow1, heq1⟩ := hab row hrow
        obtain ⟨row2, hrow2, heq2⟩ := hbc row1 hrow1
        refine ⟨row2, hrow2, fun ht => ?_⟩
        cases heq1 ht
        exact heq2 ht
      · intro ev hev row hrow
        obtain ⟨row', hrow', heq | ⟨hs, -⟩ | ⟨hs, -⟩ | ⟨hask, -⟩⟩ := visit_event h hev hrow
        · exact ⟨row', hrow', fun _ => heq⟩
        · refine ⟨row', hrow', ?_⟩
          rintro (ht | ht) <;> rw [hs] at ht <;> nomatch ht
        · refine ⟨row', hrow', ?_⟩
          rintro (ht | ht) <;> rw [hs] at ht <;> nomatch ht
        · exact ⟨row', hrow', fun ht => absurd ht hask.edge.not_terminal⟩
    rw [← hrows] at hrow
    obtain ⟨row1, hrow1, heq1⟩ := hkept row hrow
    obtain ⟨row2, hrow2, heq2⟩ := ih hrow1
    refine ⟨row2, hrow2, fun ht => ?_⟩
    cases heq1 ht
    exact heq2 ht

/-- **The life cycle of a record.**  In every sequence of calls, with any arguments and any answers
    of the outside:
    * a row that an event changes is changed along an edge, and from queued to dead-letter only by
      `Recover`, after the payload of that record was found corrupt;
    * a terminal row is not changed in any column, by an event or by the whole sequence;
    * no row is deleted and no id has two rows;
    * a `Mark*` call that fails leaves the table as it was, where no commit was applied and
      reported as failed. -/
theorem record_lifecycle {w w' : World} {vs : List Visit} (h : Session s w vs w') :
    (∀ v ∈ vs, ∀ ev ∈ v.trace, ∀ id row, ev.pre.rows.find id = some row →
      ∃ row', ev.post.rows.find id = some row' ∧ (row.state.Terminal → row' = row) ∧
        (row' ≠ row → Edge row.state row'.state ∧
          (row.state = .queued → row'.state = .deadLetter →
            (∃ now, v.call = .recover now) ∧ FoundCorrupt s v.trace ev id))) ∧
    (∀ id row, w.rows.find id = some row →
      ∃ row', w'.rows.find id = some row' ∧ (row.state.Terminal → row' = row)) ∧
    (∀ v ∈ vs, ∀ ev ∈ v.trace, ∀ id, (ev.post.rows.rows.map (·.id)).count id ≤ 1) ∧
    (∀ v ∈ vs, ∀ m, v.call = .mark m → (∃ e, v.outcome = .error e) → NothingLost v.trace →
      v.after.rows = v.before.rows) := by
  refine ⟨?_, fun id row hrow => h.kept hrow, ?_, ?_⟩
  · intro v hv ev hev id row hrow
    have hrun := h.visit v hv
    obtain ⟨row', hrow', hcase⟩ := visit_event hrun hev hrow
    refine ⟨row', hrow', ?_⟩
    rcases hcase with rfl | ⟨hs, hs'⟩ | ⟨hs, hs'⟩ | ⟨hask, rec, rfl, hop⟩
    · exact ⟨fun _ => rfl, fun hne => absurd rfl hne⟩
    · rw [hs, hs']
      exact ⟨fun ht => absurd ht Edge.claim.not_terminal, fun _ => ⟨.claim, fun _ hd => nomatch hd⟩⟩
    · rw [hs, hs']
      exact ⟨fun ht => absurd ht Edge.requeue.not_terminal,
        fun _ => ⟨.requeue, fun _ hd => nomatch hd⟩⟩
    · refine ⟨fun ht => absurd ht hask.edge.not_terminal, fun _ => ⟨hask.edge, ?_⟩⟩
      intro hq hd
      rw [hq, hd] at hask
      -- of all methods only `Recover` asks for this edge
      cases hc : v.call with
      | recover now =>
        rw [hc] at hrun
        refine ⟨⟨now, rfl⟩, ?_⟩
        rcases Prog.Runs.mem_bind hrun hev with ⟨tr1, tr2, x, w1, htr, hev1, h1⟩ |
          ⟨tr1, tr2, _, w1, htr, hev2, -, hret⟩
        · rw [htr]
          exact (recover_found h1 hev1 hop).append [] tr2
        · obtain ⟨-, rfl, -⟩ := hret.ret_inv
          nomatch hev2
      | enqueue msg =>
        rw [hc] at hask
        nomatch hask
      | nextSubmittedReady now =>
        rw [hc] at hask
        nomatch hask
      | claimReady now =>
        rw [hc] at hask
        nomatch hask.1
      | mark m =>
        rw [hc] at hask
        rcases hask with ⟨hx, -⟩ | ⟨hx, -⟩ <;> nomatch hx
  · intro v hv ev hev id
    exact nodup_iff_count_le_one.mp ev.post.rows.nodup id
  · intro v hv m hm ⟨e, he⟩ hlost
    have hrun := h.visit v hv
    rw [hm, he] at hrun
    rcases hrun.act_bind_inv with ⟨_, tr1, tr2, w1, -, -, hret⟩ | ⟨e', -, hm'⟩
    · nomatch hret.ret_inv.1
    · exact mark_error_rows hm' hlost

end

/-- Two `Mark*` calls with one working record: the first moves it along an edge, and the second fails
    and leaves the row, which is terminal now. -/
theorem record_lifecycle_sample :
    letI := Unicode.ascii
    ∃ v1 v2 w', Session sampleStore (sampleWorld sampleWorking) [v1, v2] w' ∧
      (∃ ev ∈ v1.trace, ∃ row row', ev.pre.rows.find sampleID = some row ∧
        ev.post.rows.find sampleID = some row' ∧ row'.state = .succeeded ∧
        Edge row.state row'.state) ∧
      (∃ e, v2.outcome = .error e) ∧ ∃ row, v1.after.rows.find sampleID = some row ∧
        row.state = .succeeded ∧ w'.rows.find sampleID = some row := by
  let _ := Unicode.ascii
  let call := (StoreCall.mark (.succeeded (sampleColumns .working).metadata.toRecord)).run sampleStore
  let ch := calm (.error .canceled) (.error .canceled)
  obtain ⟨out, tr, w1, h1, hT⟩ := Prog.exists_runs_of_run (E := exec) ch 8 call
    (sampleWorld sampleWorking) (fun x => (x.2.1.any fun ev =>
      (ev.pre.rows.find sampleID).any (·.state = .working) &&
      (ev.post.rows.find sampleID).any (·.state = .succeeded)) &&
      (x.2.2.rows.find sampleID).any (·.state = .succeeded) &&
      (Prog.run exec ch 8 call x.2.2).any fun y => !y.1.toBool) (by decide)
  simp only [Bool.and_eq_true, any_eq_true, Option.any_eq_true, decide_eq_true_eq] at hT
  obtain ⟨⟨⟨ev, hev, ⟨row, hrow, hs⟩, row', hrow', hs'⟩, row1, hrow1, hs1⟩,
    ⟨out2, tr2, w'⟩, h2, herror⟩ := hT
  have htail : Session sampleStore w1 _ w' := .cons rfl (Prog.runs_of_run h2) (.nil w')
  have hsession : Session sampleStore (sampleWorld sampleWorking) _ w' := .cons rfl h1 htail
  refine ⟨_, _, w', hsession, ⟨ev, hev, row, row', hrow, hrow', hs', ?_⟩, ?_, row1, hrow1, hs1, ?_⟩
  · obtain ⟨row2, hrow2, -, hedge⟩ := (record_lifecycle hsession).1 _ (mem_cons_self ..) ev hev
      sampleID row hrow
    cases hrow'.symm.trans hrow2
    refine (hedge ?_).1
    rintro rfl
    cases hs.symm.trans hs'
  · cases out2 with
    | ok u => cases herror
    | error e => exact ⟨e, rfl⟩
  · obtain ⟨row2, hrow2, hsame⟩ := (record_lifecycle htail).2.1 sampleID row1 hrow1
    rw [hrow2, hsame (Or.inl hs1)]

end SmtpCloudRelay.Spool
