/-
  NO ACCEPTED MESSAGE IS LOST.

  Any number of sessions enqueue messages while the worker runs, the process crashes at any moment, and
  the next one boots.  A message whose Enqueue has returned success keeps its row and its complete
  payload for good (`accepted_is_kept`).  Three things carry this:

  * A session works in a REGION of its own (`SaveRegion id`: its staging and publish directories and
    `payloads/<id>`), and regions of different ids have nothing in common (`saveRegion_inj`).  So
    what a session knows of its region stays true while the others move.  What it knows is an `Enqueuing`:
    it has no id yet, it is saving and sees its region through a watch, it has inserted its row, or the
    INSERT has failed and it removes its payload again.

  * The worker changes no file, and a row never disappears.

  * The boot cleans `staging/` and publish directories and quarantines payloads without a row: nothing of
    this is the payload of a row that the transaction of recovery has listed, and nobody inserts rows
    while the process boots.
-/
import SmtpCloudRelay.Spool.FailedEnqueue
import SmtpCloudRelay.Spool.System

namespace SmtpCloudRelay.Spool

open Go Lib Act List

/-! ## Regions of their own -/

/-- The id in the name of a staging or publish directory can be read off. -/
theorem named_inj {before id id' suffix suffix' : GoString} (hid : Canonical id) (hid' : Canonical id')
    (h : before ++ id ++ lit "-" ++ suffix = before ++ id' ++ lit "-" ++ suffix') : id = id' := by
  simp only [append_assoc] at h
  exact (append_inj (append_cancel_left h) (hid.length.trans hid'.length.symm)).1

theorem entry_of_below {d q : Path} {n n' : GoString} (h : Below (d ++ [n]) q)
    (h' : Below (d ++ [n']) q) : n = n' := by
  by_contra hne
  exact (apart_of_ne hne).not_below h h'

theorem publishTempName_ne_canonical {id id' : GoString} (hid : Canonical id') (suffix : GoString) :
    publishTempName id suffix ≠ id' := by
  have hname : publishTempName id suffix = publishTempStart ++ (id ++ lit "-" ++ suffix) := by
    simp [publishTempName, publishTempStart]
  rw [hname]
  exact hid.ne_publishTemp _

/-- **The regions of two sessions have nothing in common.** -/
theorem saveRegion_inj {id id' : GoString} (hid : Canonical id) (hid' : Canonical id') {q : Path}
    (h : SaveRegion id q) (h' : SaveRegion id' q) : id = id' := by
  have hroots : ∀ {n n' : GoString}, Below (stagingRoot ++ [n]) q → Below (payloadsRoot ++ [n']) q →
      False := fun hs hp => (Watch.staging_apart _ _).not_below hs hp
  rcases h with ⟨suffix, h⟩ | ⟨suffix, h⟩ | h
  · rcases h' with ⟨suffix', h'⟩ | ⟨suffix', h'⟩ | h'
    · exact named_inj hid hid' (entry_of_below h h')
    · exact (hroots h h').elim
    · exact (hroots h h').elim
  · rcases h' with ⟨suffix', h'⟩ | ⟨suffix', h'⟩ | h'
    · exact (hroots h' h).elim
    · exact named_inj hid hid' (entry_of_below h h')
    · exact (publishTempName_ne_canonical hid' suffix (entry_of_below h h')).elim
  · rcases h' with ⟨suffix', h'⟩ | ⟨suffix', h'⟩ | h'
    · exact (hroots h' h).elim
    · exact (publishTempName_ne_canonical hid suffix' (entry_of_below h' h)).elim
    · exact entry_of_below h h'

/-- The region of a session, seen through a watch. -/
def saveWatch (id : GoString) : Watch where
  region := SaveRegion id
  allows _ _ := True
  keeps _ := True

theorem forSave_saveWatch (id : GoString) (msg : Message) : (saveWatch id).ForSave id msg where
  stage suffix := ⟨fun _ hq => Or.inl ⟨suffix, hq⟩, fun _ _ _ _ => trivial⟩
  temp suffix := ⟨fun _ hq => Or.inr (Or.inl ⟨suffix, hq⟩), fun _ _ _ _ => trivial⟩
  place _ hq := Or.inr (Or.inr hq)
  whole _ _ := trivial

/-! ## Sessions -/

/-- What a session knows. -/
inductive Enqueuing where
  /-- It has no id yet. -/
  | opening
  /-- It saves its message, and sees its region. -/
  | saving (id : GoString) (κ : Known (SaveRegion id))
  /-- Its row is inserted. -/
  | inserted (id : GoString)
  /-- The INSERT was reported as failed. -/
  | failed (id : GoString)

namespace Enqueuing

/-- The id of a session. -/
def id? : Enqueuing → Option GoString
  | opening => none
  | saving id _ => some id
  | inserted id => some id
  | failed id => some id

/-- The steps of a session. -/
def Allows (msg : Message) : Enqueuing → Op → Prop
  | opening, o => o = .ctxErr ∨ o = .now ∨ o = .newID
  | saving id κ, o => (saveWatch id).proto.ok κ o ∨
      (κ.1.sub (payloadDir id) = payloadView msg ∧ ∃ now, o = .tx (.insert (.enqueued id msg now)))
  | inserted _, _ => False
  | failed id, o => Confined (Below (payloadDir id)) o

/-- What an answer teaches a session. -/
def Next : Enqueuing → (o : Op) → o.Res → Enqueuing → Prop
  | opening, .newID, .ok id, κ' => Canonical id ∧ ∃ κ, κ' = saving id κ
  | saving id _, .tx _, .ok _, κ' => κ' = inserted id
  | saving id _, .tx _, .error _, κ' => κ' = failed id
  | saving id κ, o, r, κ' => ∃ κ1, (saveWatch id).step κ o r κ1 ∧ κ' = saving id κ1
  | κ, _, _, κ' => κ' = κ

/-- The protocol of a session. -/
def proto (msg : Message) : Proto spoolSig Enqueuing := ⟨Allows msg, Next⟩

/-- A session that returns a record has inserted its row. -/
def Accepts : Except GoError Record → Enqueuing → Prop
  | .ok rec, κ => κ = inserted rec.id
  | .error _, _ => True

end Enqueuing

section Enqueue

variable [Unicode] {s : SpoolStore} {msg : Message} {id : GoString}

/-- Saving, in a region of its own. -/
theorem save_session (hid : Canonical id) (κ : Known (SaveRegion id)) :
    (s.payloads.save id msg).Safe (Enqueuing.proto msg) (Gives fun _ κ' =>
      ∃ κ1 : Known (SaveRegion id), κ' = .saving id κ1 ∧
        κ1.1.sub (payloadDir id) = payloadView msg) (.saving id κ) := by
  have hsave : (s.payloads.save id msg).Safe (saveWatch id).proto (Gives fun _ κ' =>
      κ'.1.sub (payloadDir (trimSpace id)) = payloadView msg) κ :=
    Watch.save_gives fun _ => hid.trimmed.symm ▸ forSave_saveWatch id msg
  refine Prog.Safe.project (Enqueuing.saving id) (fun κ o h => Or.inl h) ?_ ?_ hsave
  · intro κ o r κ'' hok hnext
    cases o with
    | tx t => exact hok.1.elim
    | _ =>
      obtain ⟨κ1, hstep, rfl⟩ := hnext
      exact ⟨κ1, hstep, rfl⟩
  · intro out κ' h
    cases out with
    | error e => trivial
    | ok u =>
      have hplace : κ'.1.sub (payloadDir (trimSpace id)) = payloadView msg := h
      rw [hid.trimmed] at hplace
      exact ⟨κ', rfl, hplace⟩

/-- What the INSERT teaches. -/
def AfterInsert (id : GoString) : Except GoError Unit → Enqueuing → Prop
  | .ok _, κ => κ = .inserted id
  | .error _, κ => κ = .failed id

/-- What a session does with the id it has drawn. -/
theorem saveDrawn_session (hid : Canonical id) (now : Int) (κ : Known (SaveRegion id)) :
    (do
      (s.payloads.save id msg).mapError (.wrapStoreError (lit "save payload " ++ quote id))
      (insertRecord (.enqueued id msg now)).onFail (s.payloads.remove id)
      pure (.enqueued id msg now) : Task Record).Safe (Enqueuing.proto msg) Enqueuing.Accepts
        (.saving id κ) := by
  refine Safe.bind (save_session hid κ).gives_mapError ?_ fun _ _ _ => trivial
  rintro _ _ ⟨κ1, rfl, hcomplete⟩
  refine Safe.bind (P := Gives fun _ κ' => κ' = Enqueuing.inserted id) (Safe.onFail
    (P := AfterInsert id) ?_ (fun _ _ h => h) ?_) ?_ fun _ _ _ => trivial
  · refine Safe.lift_bind (fun _ _ => ⟨Or.inr ⟨hcomplete, now, rfl⟩, fun r κ' hnext => ?_⟩) ?_
    · cases r with
      | ok u | error e => exact hnext
    · intro e he
      nomatch he.symm.trans (validateCanonicalRecordID_ok.mpr hid)
  · rintro e _ rfl
    refine Uses.safe (PayloadStore.remove_confined id) (fun o ho => ⟨?_, fun r κ' h => ?_⟩)
      fun _ => trivial
    · rw [hid.trimmed] at ho
      exact ho
    · cases o with
      | tx t => exact ho.elim
      | _ => exact h
  · rintro _ _ rfl
    rfl

/-- **A call of Enqueue keeps to the protocol of a session.** -/
theorem enqueue_session (s : SpoolStore) (msg : Message) :
    (s.enqueue msg).Safe (Enqueuing.proto msg) Enqueuing.Accepts .opening := by
  refine ⟨Or.inl rfl, ?_⟩
  rintro ended _ rfl
  cases ended with
  | some e => trivial
  | none =>
    refine ⟨Or.inr (Or.inl rfl), ?_⟩
    rintro now _ rfl
    refine ⟨Or.inr (Or.inr rfl), fun drew κ' hnext => ?_⟩
    cases drew with
    | error e => trivial
    | ok id =>
      obtain ⟨hid, κ, rfl⟩ := hnext
      exact saveDrawn_session hid now κ

/-! ## What a session knows stays true -/

/-- A message is stored: its row is there, and its payload is complete. -/
structure OnDisk (W : World) (id : GoString) (msg : Message) : Prop where
  canonical : Canonical id
  row : W.rows.Has id
  payload : CompleteAt W.files id msg

/-- What a session knows is true. -/
def Enqueuing.Holds (msg : Message) (W : World) : Enqueuing → Prop
  | .opening => True
  | .saving id κ => Canonical id ∧ W.files.on (SaveRegion id) = κ.1
  | .inserted id => OnDisk W id msg
  | .failed id => Canonical id

variable {W W' : World} {κ : Enqueuing} {o : Op} {c : Choice} {r : o.Res}

/-- Rows do not disappear. -/
theorem exec_has (h : exec o c W = some (r, W')) (hrow : W.rows.Has id) : W'.rows.Has id := by
  obtain ⟨row, hfind⟩ := Table.find_of_has hrow
  obtain ⟨row', hfind', -⟩ := exec_find h hfind
  exact Table.has_of_find hfind'

/-- Nor is an id forgotten. -/
theorem exec_issued (h : exec o c W = some (r, W')) (hid : id ∈ W.issued) : id ∈ W'.issued := by
  cases o with
  | fs call =>
    obtain ⟨_, files, -, -, rfl⟩ := exec_fs h
    exact hid
  | tx t =>
    obtain ⟨_, rows, -, -, rfl⟩ := exec_tx h
    exact hid
  | newID =>
    obtain ⟨-, -, rfl⟩ := exec_other h rfl rfl
    cases r with
    | ok id' => exact mem_cons_of_mem _ hid
    | error e => exact hid
  | _ =>
    obtain ⟨-, -, rfl⟩ := exec_other h rfl rfl
    exact hid

omit [Unicode] in
/-- A stored message stays stored when its row and the files of its payload do. -/
theorem OnDisk.frame (h : OnDisk W id msg) (hrow : W'.rows.Has id)
    (hfiles : ∀ q, W'.files.get (payloadDir id ++ q) = W.files.get (payloadDir id ++ q)) :
    OnDisk W' id msg :=
  ⟨h.canonical, hrow, fun q => (hfiles q).trans (h.payload q)⟩

omit [Unicode] in
theorem saveRegion_payload (id : GoString) (q : Path) : SaveRegion id (payloadDir id ++ q) :=
  Or.inr (Or.inr (prefix_append _ q))

omit [Unicode] in
/-- What a session knows stays true when nobody touches its region and no row disappears. -/
theorem Enqueuing.Holds.frame (h : κ.Holds msg W) (hrows : ∀ id, W.rows.Has id → W'.rows.Has id)
    (hfiles : ∀ id, κ.id? = some id → ∀ q, SaveRegion id q → W'.files.get q = W.files.get q) :
    κ.Holds msg W' := by
  cases κ with
  | opening => trivial
  | saving id κ => exact ⟨h.1, (Files.on_congr (hfiles id rfl)).trans h.2⟩
  | inserted id =>
    exact OnDisk.frame h (hrows id h.row) fun q => hfiles id rfl _ (saveRegion_payload id q)
  | failed id => exact h

/-- A step of a session touches nothing outside its region. -/
theorem Enqueuing.Holds.touches (h : κ.Holds msg W) (hok : κ.Allows msg o)
    (hE : exec o c W = some (r, W')) {q : Path} (hq : ∀ id, κ.id? = some id → ¬ SaveRegion id q) :
    W'.files.get q = W.files.get q := by
  cases κ with
  | opening =>
    have hfs : o.isFs = false := by
      rcases hok with rfl | rfl | rfl
      all_goals rfl
    rw [exec_files hE hfs]
  | saving id κ =>
    rcases hok with hok | ⟨-, now, rfl⟩
    · exact exec_frame hok.1 hE (hq id rfl)
    · rw [exec_files hE rfl]
  | inserted id => exact hok.elim
  | failed id => exact exec_frame hok hE fun hbelow => hq id rfl (Or.inr (Or.inr hbelow))

/-- What the outside answers to a session: what it knows then, and of which id. -/
theorem Enqueuing.Holds.step (h : κ.Holds msg W) (hok : κ.Allows msg o)
    (hE : exec o c W = some (r, W')) :
    ∃ κ', κ.Next o r κ' ∧ κ'.Holds msg W' ∧
      (κ'.id? = κ.id? ∨ κ.id? = none ∧ ∃ id, κ'.id? = some id ∧ id ∉ W.issued ∧ id ∈ W'.issued) := by
  cases κ with
  | opening =>
    rcases hok with rfl | rfl | rfl
    · exact ⟨.opening, rfl, trivial, Or.inl rfl⟩
    · exact ⟨.opening, rfl, trivial, Or.inl rfl⟩
    · cases r with
      | error e => exact ⟨.opening, rfl, trivial, Or.inl rfl⟩
      | ok id =>
        have hid := newID_canonical hE
        obtain ⟨-, hfresh, rfl⟩ := exec_other hE rfl rfl
        refine ⟨.saving id (Known.of _ W.files), ⟨hid, _, rfl⟩, ⟨hid, rfl⟩,
          Or.inr ⟨rfl, id, rfl, of_decide_eq_true hfresh, mem_cons_self ..⟩⟩
  | saving id κ =>
    obtain ⟨hid, hview⟩ := h
    rcases hok with hok | ⟨hcomplete, now, rfl⟩
    · obtain ⟨κ', hstep, hview', -⟩ := Watch.Shows.step (w := saveWatch id) ⟨hview, trivial⟩ hok trivial hE
      refine ⟨.saving id κ', ?_, ⟨hid, hview'⟩, Or.inl rfl⟩
      cases o with
      | tx t => exact hok.1.elim
      | _ => exact ⟨κ', hstep, rfl⟩
    · have hfiles := exec_files hE rfl
      cases r with
      | error e => exact ⟨.failed id, rfl, hid, Or.inl rfl⟩
      | ok u =>
        refine ⟨.inserted id, rfl, ⟨hid, ?_, fun q => ?_⟩, Or.inl rfl⟩
        · obtain ⟨-, ⟨clock, a, hbody, -⟩ | ⟨-, e, he⟩⟩ := exec_tx_cases hE
          · obtain ⟨row, hk, hcols, hrows⟩ := insertBody_ok hbody
            rw [hrows, Table.has_insert]
            exact Or.inr (congrArg Columns.id hcols).symm
          · nomatch he
        · rw [hfiles, ← Files.on_of (saveRegion_payload id q), hview]
          exact congrFun hcomplete q
  | inserted id => exact hok.elim
  | failed id =>
    refine ⟨.failed id, ?_, h, Or.inl rfl⟩
    cases o with
    | tx t => exact hok.elim
    | _ => rfl

end Enqueue

/-! ## All sessions together -/

/-- The ids that belong to somebody: to a session, or to an accepted message. -/
def owned (ss : List (Client × Enqueuing)) (acc : List (GoString × Message)) : List GoString :=
  ss.filterMap (fun x => x.2.id?) ++ acc.map Prod.fst

section Undisturbed

variable {s : SpoolStore} {msg : Message} {id : GoString} {W W' : World}
variable {ss l r : List (Client × Enqueuing)} {acc : List (GoString × Message)}

theorem owned_insert (l r : List (Client × Enqueuing)) (acc : List (GoString × Message))
    (x : Client × Enqueuing) :
    (owned (l ++ x :: r) acc).Perm (x.2.id?.toList ++ owned (l ++ r) acc) := by
  have hcons : (x :: r).filterMap (fun x => x.2.id?) =
      x.2.id?.toList ++ r.filterMap fun x => x.2.id? := by
    rw [filterMap_cons]
    cases x.2.id? <;> rfl
  unfold owned
  rw [filterMap_append, filterMap_append, hcons]
  simp only [append_assoc]
  exact perm_append_comm_assoc _ _ _

/-- Everybody's knowledge is true, every accepted message is stored, and nobody shares an id. -/
structure Undisturbed (W : World) (ss : List (Client × Enqueuing)) (acc : List (GoString × Message)) :
    Prop where
  safe : ∀ x ∈ ss, x.1.prog.Safe (Enqueuing.proto x.1.msg) Enqueuing.Accepts x.2
  holds : ∀ x ∈ ss, x.2.Holds x.1.msg W
  stored : ∀ a ∈ acc, OnDisk W a.1 a.2
  nodup : (owned ss acc).Nodup
  issued : ∀ id ∈ owned ss acc, id ∈ W.issued

theorem Undisturbed.arrive [Unicode] (h : Undisturbed W ss acc) (s : SpoolStore) (msg : Message) :
    Undisturbed W ((⟨msg, s.enqueue msg⟩, .opening) :: ss) acc where
  safe x hx := by
    rcases mem_cons.mp hx with rfl | hx
    · exact enqueue_session s msg
    · exact h.safe x hx
  holds x hx := by
    rcases mem_cons.mp hx with rfl | hx
    · trivial
    · exact h.holds x hx
  stored := h.stored
  nodup := h.nodup
  issued := h.issued

theorem Undisturbed.leave {x : Client × Enqueuing} (h : Undisturbed W (l ++ x :: r) acc) :
    Undisturbed W (l ++ r) acc := by
  have hsub : (l ++ r).Sublist (l ++ x :: r) := (sublist_cons_self x r).append_left l
  have hsub' : (owned (l ++ r) acc).Sublist (owned (l ++ x :: r) acc) :=
    (hsub.filterMap _).append_right _
  exact ⟨fun y hy => h.safe y (hsub.subset hy), fun y hy => h.holds y (hsub.subset hy), h.stored,
    h.nodup.sublist hsub', fun id hid => h.issued id (hsub'.subset hid)⟩

/-- **A session that returns a record** leaves a stored message. -/
theorem Undisturbed.accept {rec : Record} {κ : Enqueuing}
    (h : Undisturbed W (l ++ (⟨msg, .ret (.ok rec)⟩, κ) :: r) acc) :
    Undisturbed W (l ++ r) ((rec.id, msg) :: acc) := by
  have hmem : ((⟨msg, .ret (.ok rec)⟩ : Client), κ) ∈ l ++ (⟨msg, .ret (.ok rec)⟩, κ) :: r := by simp
  have hκ : κ = .inserted rec.id := h.safe _ hmem
  have hstored : OnDisk W rec.id msg := by
    have hholds := h.holds _ hmem
    rw [hκ] at hholds
    exact hholds
  have hperm : (owned (l ++ r) ((rec.id, msg) :: acc)).Perm
      (owned (l ++ (⟨msg, .ret (.ok rec)⟩, κ) :: r) acc) := by
    have hid : κ.id? = some rec.id := by rw [hκ]; rfl
    have hinsert := owned_insert l r acc (⟨msg, .ret (.ok rec)⟩, κ)
    rw [hid] at hinsert
    exact perm_middle.trans hinsert.symm
  have hleft := h.leave
  refine ⟨hleft.safe, hleft.holds, fun a ha => ?_, hperm.nodup_iff.mpr h.nodup, fun id hid => ?_⟩
  · rcases mem_cons.mp ha with rfl | ha
    · exact hstored
    · exact h.stored a ha
  · exact h.issued id (hperm.subset hid)

theorem Enqueuing.Holds.canonical {κ : Enqueuing} (h : κ.Holds msg W) (hid : κ.id? = some id) :
    Canonical id := by
  cases κ with
  | opening => nomatch hid
  | saving id' κ =>
    cases hid
    exact h.1
  | inserted id' =>
    cases hid
    exact OnDisk.canonical h
  | failed id' =>
    cases hid
    exact h

/-- The id of a session is nobody else's. -/
theorem Undisturbed.id_ne {x : Client × Enqueuing} (h : Undisturbed W (l ++ x :: r) acc)
    (hid : id ∈ owned (l ++ r) acc) :
    x.2.id? ≠ some id := by
  intro hx
  have hnodup := (owned_insert _ _ _ x).nodup_iff.mp h.nodup
  rw [hx] at hnodup
  exact (nodup_cons.mp hnodup).1 hid

theorem forall_mem_middle {α : Type*} {P : α → Prop} {l r : List α} {y : α}
    (h : ∀ x ∈ l ++ r, P x) (hy : P y) : ∀ x ∈ l ++ y :: r, P x := by
  intro x hx
  rcases mem_append.mp hx with hx | hx
  · exact h x (mem_append_left _ hx)
  · rcases mem_cons.mp hx with rfl | hx
    · exact hy
    · exact h x (mem_append_right _ hx)

/-- **A session takes a step**: what it knows follows, and the others do not notice. -/
theorem Undisturbed.step [Unicode] {p p' : Task Record} {κ : Enqueuing} {o : Op} {c : Choice} {res : o.Res}
    (h : Undisturbed W (l ++ (⟨msg, p⟩, κ) :: r) acc) (hok : κ.Allows msg o)
    (hE : exec o c W = some (res, W'))
    (hp' : ∀ κ', κ.Next o res κ' → p'.Safe (Enqueuing.proto msg) Enqueuing.Accepts κ') :
    ∃ κ', Undisturbed W' (l ++ (⟨msg, p'⟩, κ') :: r) acc := by
  have hmine : κ.Holds msg W := h.holds (⟨msg, p⟩, κ) (by simp)
  obtain ⟨κ', hnext, hholds, hid⟩ := hmine.step hok hE
  have hrest := h.leave
  -- nobody else's region is touched
  have hfiles : ∀ id ∈ owned (l ++ r) acc, Canonical id → ∀ q, SaveRegion id q →
      W'.files.get q = W.files.get q := by
    intro id howned hcanonical q hq
    refine hmine.touches hok hE fun id1 hid1 hq1 => ?_
    have heq : id1 = id := saveRegion_inj (hmine.canonical hid1) hcanonical hq1 hq
    exact h.id_ne howned (heq ▸ hid1)
  have hothers : ∀ x ∈ l ++ r, x.2.Holds x.1.msg W' := by
    intro x hx
    have hxW := hrest.holds x hx
    refine hxW.frame (fun id => exec_has hE) fun id hxid => hfiles id ?_ (hxW.canonical hxid)
    exact mem_append_left _ (mem_filterMap.mpr ⟨x, hx, hxid⟩)
  have hperm := owned_insert l r acc (⟨msg, p'⟩, κ')
  have hperm0 := owned_insert l r acc (⟨msg, p⟩, κ)
  have hids : (owned (l ++ (⟨msg, p'⟩, κ') :: r) acc).Nodup ∧
      ∀ id ∈ owned (l ++ (⟨msg, p'⟩, κ') :: r) acc, id ∈ W'.issued := by
    rcases hid with hid | ⟨hnone, id, hid, hfresh, hissued⟩
    · have hsame : (owned (l ++ (⟨msg, p'⟩, κ') :: r) acc).Perm (owned (l ++ (⟨msg, p⟩, κ) :: r) acc) := by
        refine hperm.trans (List.Perm.trans ?_ hperm0.symm)
        rw [hid]
      exact ⟨hsame.nodup_iff.mpr h.nodup, fun id hx => exec_issued hE (h.issued id (hsame.subset hx))⟩
    · rw [hid] at hperm
      have hnew : id ∉ owned (l ++ r) acc := fun hx => hfresh (hrest.issued id hx)
      refine ⟨hperm.nodup_iff.mpr (nodup_cons.mpr ⟨hnew, hrest.nodup⟩), fun id' hx => ?_⟩
      rcases mem_cons.mp (hperm.subset hx) with rfl | hx
      · exact hissued
      · exact exec_issued hE (hrest.issued id' hx)
  refine ⟨κ', forall_mem_middle (y := ((⟨msg, p'⟩ : Client), κ')) hrest.safe (hp' κ' hnext),
    forall_mem_middle (y := ((⟨msg, p'⟩ : Client), κ')) hothers hholds, fun a ha => ?_, hids.1, hids.2⟩
  have hstored := h.stored a ha
  refine hstored.frame (exec_has hE hstored.row) fun q => hfiles a.1 ?_ hstored.canonical _
    (saveRegion_payload a.1 q)
  exact mem_append_right _ (mem_map_of_mem ha)

theorem Undisturbed.move [Unicode] {p p' : Task Record} {κ : Enqueuing} {ev : Option (SpoolEvent)}
    (h : Undisturbed W (l ++ (⟨msg, p⟩, κ) :: r) acc) (hmove : Prog.Move exec p W ev p' W') :
    ∃ κ', Undisturbed W' (l ++ (⟨msg, p'⟩, κ') :: r) acc := by
  have hmem : ((⟨msg, p⟩ : Client), κ) ∈ l ++ (⟨msg, p⟩, κ) :: r := by simp
  rcases Prog.Safe.move (h.safe _ hmem) hmove with ⟨-, rfl, hp'⟩ | ⟨o, c, res, -, hE, hok, hp'⟩
  · -- a silent move teaches nothing
    have hrest := h.leave
    have hmine : κ.Holds msg W' := h.holds _ hmem
    have hids : owned (l ++ (⟨msg, p'⟩, κ) :: r) acc = owned (l ++ (⟨msg, p⟩, κ) :: r) acc := by
      unfold owned
      rw [filterMap_append, filterMap_append]
      rfl
    exact ⟨κ, forall_mem_middle (y := ((⟨msg, p'⟩ : Client), κ)) hrest.safe hp',
      forall_mem_middle (y := ((⟨msg, p'⟩ : Client), κ)) hrest.holds hmine, h.stored,
      hids ▸ h.nodup, hids ▸ h.issued⟩
  · exact h.step hok hE hp'

/-- Somebody else takes a step that leaves the files alone. -/
theorem Undisturbed.aside [Unicode] {o : Op} {c : Choice} {res : o.Res} (h : Undisturbed W ss acc)
    (hE : exec o c W = some (res, W')) (hfiles : ∀ q, W'.files.get q = W.files.get q) :
    Undisturbed W' ss acc where
  safe := h.safe
  holds x hx := (h.holds x hx).frame (fun _ => exec_has hE) fun _ _ q _ => hfiles q
  stored a ha := (h.stored a ha).frame (exec_has hE (h.stored a ha).row) fun _ => hfiles _
  nodup := h.nodup
  issued id hid := exec_issued hE (h.issued id hid)

end Undisturbed

/-! ## The worker and the boot -/

section Others

variable [Unicode] {w : Worker} {id : GoString} {W W' : World} {o : Op} {c : Choice} {r : o.Res}

/-- The worker changes no file. -/
theorem Duty.Allows.files {κ : Duty} (hok : κ.Allows w o) (hE : exec o c W = some (r, W')) (q : Path) :
    W'.files.get q = W.files.get q := by
  -- a step that is no system call
  have hother : o.isFs = false → W'.files.get q = W.files.get q := fun hfs => by
    rw [exec_files hE hfs]
  rcases hok with htry | ⟨m, rec, -, rfl⟩
  · cases κ with
    | idle =>
      rcases htry with rfl | rfl | ⟨d, rfl⟩ | ⟨t, rfl⟩ | ⟨t, rfl⟩
      all_goals exact hother rfl
    | claimed m =>
      rcases htry with rfl | hquiet | ⟨msg, rfl⟩
      · exact hother rfl
      · exact exec_frame hquiet hE fun hq => hq
      · exact hother rfl
    | submitted m answer =>
      cases htry
      exact hother rfl
    | found m =>
      rcases htry with rfl | rfl
      all_goals exact hother rfl
    | polled m answer =>
      cases htry
      exact hother rfl
    | stopped => exact htry.elim
  · exact hother rfl

/-- The snapshot of a boot lists every row. -/
def BootDuty.Holds (W : World) : BootDuty → Prop
  | .starting => True
  | .recovering snap => ∀ id, W.rows.Has id → id ∈ snap.validIDs

/-- The boot inserts no row. -/
theorem BootDuty.Allows.has {κ : BootDuty} (hok : κ.Allows o) (hE : exec o c W = some (r, W'))
    (hrow : W'.rows.Has id) : W.rows.Has id := by
  have hother : o.isTx = false → W.rows.Has id := fun htx => by
    rwa [exec_rows hE htx] at hrow
  have htx : ∀ t, o = .tx t → (∀ rec, t ≠ .insert rec) → W.rows.Has id := by
    rintro t rfl hinsert
    obtain ⟨-, ⟨clock, a, hbody, -⟩ | ⟨hrows, -⟩⟩ := exec_tx_cases hE
    · by_contra hnone
      obtain ⟨row, hfind⟩ := Table.find_of_has hrow
      obtain ⟨rec, ht, -⟩ := Tx.body_find_new hbody (Table.find_none.mpr hnone) hfind
      exact hinsert rec ht
    · rwa [hrows] at hrow
  cases κ with
  | starting =>
    rcases hok with rfl | rfl | rfl | h | ⟨t, rfl⟩
    · exact hother rfl
    · exact hother rfl
    · exact hother rfl
    · exact hother h.isTx
    · exact htx _ rfl fun rec h => nomatch h
  | recovering snap =>
    rcases hok with rfl | h | ⟨m, cause, t, -, rfl⟩
    · exact hother rfl
    · exact hother h.isTx
    · exact htx _ rfl fun rec h => nomatch h

/-- What the boot knows stays true. -/
theorem BootDuty.Holds.step {κ : BootDuty} (h : κ.Holds W) (hok : κ.Allows o)
    (hE : exec o c W = some (r, W')) : (κ.after o r).Holds W' := by
  have hsame : κ.Holds W' := by
    cases κ with
    | starting => trivial
    | recovering snap => exact fun id hrow => h id (hok.has hE hrow)
  cases o with
  | tx t =>
    cases t with
    | recover now =>
      cases r with
      | error e => exact hsame
      | ok snap =>
        intro id hrow
        obtain ⟨-, ⟨clock, a, hbody, hr | ⟨e, he⟩⟩ | ⟨-, e, he⟩⟩ := exec_tx_cases hE
        · cases hr
          rw [(recoverBody_ok hbody).validIDs]
          exact hok.has hE hrow
        · nomatch he
        · nomatch he
    | _ => exact hsame
  | _ => exact hsame

omit [Unicode] in
/-- The payload of a listed id is not quarantined. -/
theorem not_quarantineRegion {validIDs : List GoString} (hid : id ∈ validIDs) (q : Path) :
    ¬ QuarantineRegion validIDs (payloadDir id ++ q) := by
  rintro (horphan | ⟨name, hname, hbelow⟩)
  · have hap : Apart orphanRoot payloadsRoot := ⟨by decide, by decide⟩
    exact hap.not_below horphan (append_assoc .. ▸ prefix_append _ _)
  · have heq : name = id := entry_of_below hbelow (prefix_append _ q)
    exact hname (heq ▸ hid)

/-- **The boot leaves the payload of every row as it is.** -/
theorem BootDuty.Holds.files {κ : BootDuty} (h : κ.Holds W) (hok : κ.Allows o)
    (hE : exec o c W = some (r, W')) (hid : Canonical id) (hrow : W.rows.Has id) (q : Path) :
    W'.files.get (payloadDir id ++ q) = W.files.get (payloadDir id ++ q) := by
  have hother : o.isFs = false →
      W'.files.get (payloadDir id ++ q) = W.files.get (payloadDir id ++ q) := fun hfs => by
    rw [exec_files hE hfs]
  cases κ with
  | starting =>
    rcases hok with rfl | rfl | rfl | hstart | ⟨t, rfl⟩
    · exact hother rfl
    · exact hother rfl
    · exact hother rfl
    · exact exec_frame hstart hE (hid.not_startRegion q)
    · exact hother rfl
  | recovering snap =>
    rcases hok with rfl | hquarantine | ⟨m, cause, t, -, rfl⟩
    · exact hother rfl
    · exact exec_frame hquarantine hE (not_quarantineRegion (h id hrow) q)
    · exact hother rfl

end Others

/-! ## The system -/

section System

variable [Unicode] {w : Worker} {s : SpoolStore} {σ σ' : Sys}

/-- The process keeps to its protocols, with these sessions. -/
def Process.KeepsTo (w : Worker) (W : World) (ss : List (Client × Enqueuing)) : Process → Prop
  | .down => ss = []
  | .booting p => ss = [] ∧ ∃ κ, p.Safe bootProto (fun _ _ => True) κ ∧ κ.Holds W
  | .serving wk cs => cs = ss.map Prod.fst ∧ ∃ κ, wk.Safe (workerProto w) (fun _ _ => True) κ

/-- **The invariant of the system.** -/
def Durable (w : Worker) (σ : Sys) : Prop :=
  ∃ ss, Undisturbed σ.world ss σ.accepted ∧ σ.process.KeepsTo w σ.world ss

omit [Unicode] in
theorem Undisturbed.crash {W : World} {ss : List (Client × Enqueuing)} {acc : List (GoString × Message)}
    (h : Undisturbed W ss acc) : Undisturbed W [] acc := by
  have hsub : (owned [] acc).Sublist (owned ss acc) := sublist_append_right _ _
  exact ⟨forall_mem_nil _, forall_mem_nil _, h.stored, h.nodup.sublist hsub,
    fun id hid => h.issued id (hsub.subset hid)⟩

omit [Unicode] in
/-- The sessions of a list of clients that is split. -/
theorem split_sessions {ss : List (Client × Enqueuing)} {l r : List Client} {x : Client}
    (h : l ++ x :: r = ss.map Prod.fst) :
    ∃ l' κ r', ss = l' ++ (x, κ) :: r' ∧ l = l'.map Prod.fst ∧ r = r'.map Prod.fst := by
  obtain ⟨l', rest, rfl, hl, hrest⟩ := map_eq_append_iff.mp h.symm
  obtain ⟨⟨x', κ⟩, r', rfl, rfl, hr⟩ := map_eq_cons_iff.mp hrest
  exact ⟨l', κ, r', rfl, hl.symm, hr.symm⟩

/-- A process that serves keeps the invariant. -/
theorem Durable.serves (h : Durable w σ) (hstep : Serves s σ σ') : Durable w σ' := by
  obtain ⟨ss, hkept, hproc⟩ := h
  cases hstep with
  | arrive msg =>
    obtain ⟨rfl, hwk⟩ := hproc
    exact ⟨_, hkept.arrive s msg, rfl, hwk⟩
  | client hmove =>
    obtain ⟨hcs, hwk⟩ := hproc
    obtain ⟨l', κ, r', rfl, rfl, rfl⟩ := split_sessions hcs
    obtain ⟨κ', hkept'⟩ := hkept.move hmove
    exact ⟨_, hkept', by rw [map_append]; rfl, hwk⟩
  | accept rec =>
    obtain ⟨hcs, hwk⟩ := hproc
    obtain ⟨l', κ, r', rfl, rfl, rfl⟩ := split_sessions hcs
    exact ⟨l' ++ r', hkept.accept, map_append.symm, hwk⟩
  | reject e =>
    obtain ⟨hcs, hwk⟩ := hproc
    obtain ⟨l', κ, r', rfl, rfl, rfl⟩ := split_sessions hcs
    exact ⟨l' ++ r', hkept.leave, map_append.symm, hwk⟩
  | worker hmove =>
    obtain ⟨hcs, κ, hwk⟩ := hproc
    rcases Prog.Safe.move hwk hmove with ⟨-, rfl, hwk'⟩ | ⟨o, c, r, -, hE, hok, hwk'⟩
    · exact ⟨ss, hkept, hcs, κ, hwk'⟩
    · have hok' : κ.Allows w o := hok
      exact ⟨ss, hkept.aside hE (hok'.files hE), hcs, _, hwk' _ ⟨exec_truthful hE, rfl⟩⟩

/-- **Every step of the system keeps the invariant.** -/
theorem Durable.step (h : Durable w σ) (hstep : Step w s σ σ') : Durable w σ' := by
  cases hstep with
  | serve hserves => exact h.serves hserves
  | launch =>
    obtain ⟨ss, hkept, rfl⟩ := h
    exact ⟨[], hkept, rfl, _, boot_safe, trivial⟩
  | boot hmove =>
    obtain ⟨ss, hkept, rfl, κ, hp, hκ⟩ := h
    rcases Prog.Safe.move hp hmove with ⟨-, rfl, hp'⟩ | ⟨o, c, r, -, hE, hok, hp'⟩
    · exact ⟨[], hkept, rfl, κ, hp', hκ⟩
    · refine ⟨[], ⟨forall_mem_nil _, forall_mem_nil _, fun a ha => ?_, hkept.nodup,
        fun id hid => exec_issued hE (hkept.issued id hid)⟩, rfl, _,
        hp' _ ⟨exec_truthful hE, rfl⟩, hκ.step hok hE⟩
      have hstored := hkept.stored a ha
      exact hstored.frame (exec_has hE hstored.row) (hκ.files hok hE hstored.canonical hstored.row)
  | up result =>
    obtain ⟨ss, hkept, rfl, -⟩ := h
    exact ⟨[], hkept, rfl, _, start_safe⟩
  | fail e =>
    obtain ⟨ss, hkept, rfl, -⟩ := h
    exact ⟨[], hkept, rfl⟩
  | crash =>
    obtain ⟨ss, hkept, -⟩ := h
    exact ⟨[], hkept.crash, rfl⟩

theorem Durable.reaches (h : Durable w σ) (hreach : Reaches w s σ σ') : Durable w σ' := by
  induction hreach with
  | refl => exact h
  | tail _ hstep ih => exact ih.step hstep

/-- What has been accepted stays accepted. -/
theorem accepted_of_step (hstep : Step w s σ σ') {a : GoString × Message} (ha : a ∈ σ.accepted) :
    a ∈ σ'.accepted := by
  cases hstep with
  | serve hserves =>
    cases hserves with
    | accept rec => exact mem_cons_of_mem _ ha
    | _ => exact ha
  | _ => exact ha

/-- **No accepted message is lost.**  Sessions, the worker, crashes and boots interleave in any order: a
    message whose Enqueue has returned success has exactly one row in every later state, and the complete
    payload that was saved for it is in its place. -/
theorem accepted_is_kept {W0 : World} {id : GoString} {msg : Message}
    (hreach : Reaches w s ⟨W0, .down, []⟩ σ) (hacc : (id, msg) ∈ σ.accepted)
    (hlater : Reaches w s σ σ') :
    (σ'.world.rows.rows.map (·.id)).count id = 1 ∧ CompleteAt σ'.world.files id msg := by
  have hstart : Durable w ⟨W0, .down, []⟩ :=
    ⟨[], ⟨forall_mem_nil _, forall_mem_nil _, forall_mem_nil _, nodup_nil,
      forall_mem_nil _⟩, rfl⟩
  obtain ⟨ss, hkept, -⟩ := (hstart.reaches hreach).reaches hlater
  have hacc' : (id, msg) ∈ σ'.accepted := by
    clear hreach hkept
    induction hlater with
    | refl => exact hacc
    | tail _ hstep ih => exact accepted_of_step hstep ih
  have hstored := hkept.stored (id, msg) hacc'
  exact ⟨count_eq_one_of_mem σ'.world.rows.nodup hstored.row, hstored.payload⟩

omit [Unicode] in
/-- **A message that is accepted in the morning**, and a crash: it is there. -/
theorem accepted_is_kept_morning :
    letI := Unicode.ascii
    ∃ σ σ' id, Reaches sampleWorker sampleStore ⟨sampleWorld ⟨[], nodup_nil⟩, .down, []⟩ σ ∧
      (id, sampleMessage) ∈ σ.accepted ∧ Reaches sampleWorker sampleStore σ σ' ∧
      σ'.process = .down ∧ (σ'.world.rows.rows.map (·.id)).count id = 1 ∧
      CompleteAt σ'.world.files id sampleMessage := by
  let _ := Unicode.ascii
  have hsome : sampleMorning.isSome = true := by decide +kernel
  obtain ⟨⟨rec, W⟩, hmorning⟩ := Option.isSome_iff_exists.mp hsome
  have hreach := sampleMorning_reached (w := sampleWorker) hmorning
  have hcrash : Reaches sampleWorker sampleStore
      ⟨W, .serving (sampleWorker.start sampleStore) [], [(rec.id, sampleMessage)]⟩
      ⟨W, .down, [(rec.id, sampleMessage)]⟩ := .single .crash
  exact ⟨_, _, rec.id, hreach, mem_singleton_self _, hcrash, rfl,
    accepted_is_kept hreach (mem_singleton_self _) hcrash⟩

end System

end SmtpCloudRelay.Spool
