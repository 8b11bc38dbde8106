/-
  THE LEDGER of attempts and calls of Submit.

  For every row, the attempts it counts are those it started with plus the calls of Submit made for
  it, except that the worker owes one attempt while it holds an answer that is not stored yet
  (`Duty.debt`).  With that go the facts that make it last: which rows are working, how many attempts
  a queued row may have, and that a row whose message was accepted is not queued again.

  Each step of the worker that changes a row, a duty or the calls has its lemma here: a claim, a
  found record, a call of Submit, a call of Poll, an update; and so has a record that is enqueued
  meanwhile.
-/
import SmtpCloudRelay.Spool.Steps

namespace SmtpCloudRelay.Spool

open Go Lib Prog List

/-! ## Counting calls -/

/-- A call of Submit for record `id`. -/
def ProviderCall.isSubmit (id : GoString) : ProviderCall → Bool
  | .submit id' _ => id' = id
  | .poll _ _ _ => false

/-- The number of calls of Submit for record `id`. -/
def submits (cs : List ProviderCall) (id : GoString) : Nat := cs.countP (·.isSubmit id)

/-- Submit was called for record `id` and answered `answer`. -/
def Answered (cs : List ProviderCall) (id : GoString) (answer : Except GoError SubmissionResult) :
    Prop :=
  ProviderCall.submit id answer ∈ cs

/-- The provider has accepted the message of record `id`. -/
def WasAccepted (cs : List ProviderCall) (id : GoString) : Prop :=
  ∃ answer, Answered cs id answer ∧ Accepted answer

theorem submits_submit_self (cs : List ProviderCall) (id : GoString)
    (answer : Except GoError SubmissionResult) :
    submits (.submit id answer :: cs) id = submits cs id + 1 := by
  unfold submits
  rw [countP_cons_of_pos]
  exact decide_eq_true rfl

variable {id id' : GoString} {answer : Except GoError SubmissionResult}

theorem submits_submit_other {cs : List ProviderCall} (h : id' ≠ id) :
    submits (.submit id' answer :: cs) id = submits cs id := by
  unfold submits
  rw [countP_cons_of_neg]
  exact fun hx => h (of_decide_eq_true hx)

theorem submits_poll (cs : List ProviderCall) (id id' op : GoString)
    (answer : Except GoError SubmissionStatus) :
    submits (.poll id' op answer :: cs) id = submits cs id := by
  unfold submits
  rw [countP_cons_of_neg]
  nofun

theorem submits_pos_of_answered {cs : List ProviderCall} (h : Answered cs id answer) :
    0 < submits cs id :=
  countP_pos_iff.mpr ⟨_, h, decide_eq_true rfl⟩

theorem answered_submit {cs : List ProviderCall} {answer' : Except GoError SubmissionResult}
    (h : Answered (.submit id' answer' :: cs) id answer) :
    (id' = id ∧ answer' = answer) ∨ Answered cs id answer := by
  rcases mem_cons.mp h with h | h
  · cases h
    exact Or.inl ⟨rfl, rfl⟩
  · exact Or.inr h

theorem answered_poll {cs : List ProviderCall} {op : GoString}
    {status : Except GoError SubmissionStatus}
    (h : Answered (.poll id' op status :: cs) id answer) : Answered cs id answer := by
  rcases mem_cons.mp h with h | h
  · nomatch h
  · exact h

/-! ## The ledger -/

/-- The record that the worker has claimed. -/
def Duty.holds : Duty → Option GoString
  | .claimed m => some m.id
  | .submitted m _ => some m.id
  | _ => none

/-- The attempts of record `id` that are made but not stored. -/
def Duty.debt (id : GoString) : Duty → Int
  | .submitted m _ => if m.id = id then 1 else 0
  | _ => 0

/-- The attempts that record `id` had at the start. -/
def startAttempt (rows0 : Records) (id : GoString) : Int :=
  match rows0.find id with
  | some row => row.attempt
  | none => 0

/-- What the ledger says about one row. -/
structure RowAccount (w : Worker) (rows0 : Records) (κ : Duty) (cs : List ProviderCall)
    (id : GoString) (row : Row) : Prop where
  attempt : row.attempt + κ.debt id = startAttempt rows0 id + submits cs id
  working : row.state = .working ↔ κ.holds = some id
  allowed : rows0.find id = none → row.state = .queued ∨ row.state = .working →
    row.attempt ≤ w.cfg.retryAttempts
  delivered : rows0.find id = none → row.state = .submitted ∨ row.state = .succeeded →
    WasAccepted cs id
  settled : WasAccepted cs id → row.state ≠ .queued ∧
    (row.state = .working → ∃ m answer, κ = .submitted m answer)

/-- An answer that is not stored yet is the newest call's, and no earlier one was accepted. -/
def Duty.Owes (cs : List ProviderCall) : Duty → Prop
  | .submitted m answer => ∃ older, cs = .submit m.id answer :: older ∧ ¬ WasAccepted older m.id
  | _ => True

/-- The ledger, as long as the loop goes on. -/
structure Ledger (w : Worker) (rows0 : Records) (κ : Duty) (t : Records)
    (cs : List ProviderCall) : Prop where
  rows : ∀ id row, t.find id = some row → RowAccount w rows0 κ cs id row
  absent : ∀ id, t.find id = none → rows0.find id = none ∧ submits cs id = 0
  owes : κ.Owes cs

/-! ## Keeping the ledger -/

theorem debt_of_not_held {κ : Duty} (h : κ.holds ≠ some id) : κ.debt id = 0 := by
  cases κ with
  | submitted m answer =>
    refine if_neg fun hid => h ?_
    rw [← hid]
    rfl
  | _ => rfl

section

variable {w : Worker} {rows0 t : Records} {κ κ' : Duty} {cs : List ProviderCall}

variable {id : GoString} {row row' : Row} {m : Metadata} {rec : Record}

/-- A row that the worker does not hold, before and after. -/
theorem RowAccount.other (h : RowAccount w rows0 κ cs id row) (hκ : κ.holds ≠ some id)
    (hκ' : κ'.holds ≠ some id) : RowAccount w rows0 κ' cs id row := by
  have hnot : row.state ≠ .working := fun hs => hκ (h.working.mp hs)
  refine ⟨?_, ⟨fun hs => absurd hs hnot, fun hh => absurd hh hκ'⟩, h.allowed, h.delivered,
    fun ha => ⟨(h.settled ha).1, fun hs => absurd hs hnot⟩⟩
  rw [debt_of_not_held hκ', ← debt_of_not_held hκ]
  exact h.attempt

/-- One row is rewritten in place, and the duty changes with it. -/
theorem Ledger.replace (L : Ledger w rows0 κ t cs) (_ : t.find row.id = some row)
    (hid : row'.id = row.id) (hself : RowAccount w rows0 κ' cs row.id row')
    (hκ : ∀ id, id ≠ row.id → κ.holds ≠ some id) (hκ' : ∀ id, id ≠ row.id → κ'.holds ≠ some id)
    (howes : κ'.Owes cs) : Ledger w rows0 κ' (t.replace row') cs := by
  refine ⟨fun id r hr => ?_, fun id hnone => L.absent id (find_replace_none hnone), howes⟩
  rcases find_replace_cases hr with ⟨heq, rfl⟩ | ⟨hne, hr'⟩
  · rw [heq, hid]
    exact hself
  · rw [hid] at hne
    exact (L.rows id r hr').other (hκ id hne) (hκ' id hne)

theorem not_held_idle (id : GoString) : Duty.holds .idle ≠ some id := nofun

theorem Ledger.claim (L : Ledger w rows0 .idle t cs) {stamp : Int} (hrow : t.find row.id = some row)
    (hs : row.state = .queued) (hcols : row'.toColumns = claimSet stamp row.toColumns) :
    Ledger w rows0 (.claimed (row.metadata.claimed stamp)) (t.replace row') cs := by
  have hid : row'.id = row.id := by
    rw [hcols]
    rfl
  have hstate : row'.state = .working := by
    rw [hcols]
    rfl
  have hatt : row'.attempt = row.attempt := by
    rw [hcols]
    rfl
  have acc := L.rows row.id row hrow
  refine L.replace hrow hid ?_ (fun id _ => not_held_idle id) ?_ trivial
  · refine ⟨?_, ⟨fun _ => rfl, fun _ => hstate⟩, fun hnew _ => ?_, fun _ h => ?_, fun ha => ?_⟩
    · rw [hatt]
      exact acc.attempt
    · rw [hatt]
      exact acc.allowed hnew (Or.inl hs)
    · rw [hstate] at h
      rcases h with h | h <;> nomatch h
    · exact absurd hs (acc.settled ha).1
  · intro id hne hx
    exact hne (Option.some.inj hx).symm

theorem Ledger.find (L : Ledger w rows0 .idle t cs) (m : Metadata) :
    Ledger w rows0 (.found m) t cs :=
  ⟨fun id r hr => (L.rows id r hr).other (not_held_idle id) nofun, L.absent, trivial⟩

theorem Ledger.submit (L : Ledger w rows0 (.claimed m) t cs) (hm : m.Sees .working t)
    (answer : Except GoError SubmissionResult) :
    Ledger w rows0 (.submitted m answer) t (.submit m.id answer :: cs) := by
  obtain ⟨-, row, hrow, -⟩ := hm
  have hmine : RowAccount w rows0 (.claimed m) cs m.id row := L.rows m.id row hrow
  have hworking : row.state = .working := hmine.working.mpr rfl
  have hnot : ¬ WasAccepted cs m.id := by
    intro ha
    obtain ⟨m', answer', hx⟩ := (hmine.settled ha).2 hworking
    nomatch hx
  refine ⟨fun id r hr => ?_, fun id hnone => ?_, cs, rfl, hnot⟩
  · have acc := L.rows id r hr
    by_cases hid : m.id = id
    · subst hid
      cases hrow.symm.trans hr
      refine ⟨?_, ⟨fun _ => rfl, fun _ => hworking⟩, acc.allowed, fun _ h => ?_, fun _ => ?_⟩
      · have hatt : row.attempt + 0 = startAttempt rows0 m.id + submits cs m.id := acc.attempt
        rw [submits_submit_self, show Duty.debt m.id (.submitted m answer) = 1 from if_pos rfl]
        omega
      · rw [hworking] at h
        rcases h with h | h <;> nomatch h
      · rw [hworking]
        exact ⟨nofun, fun _ => ⟨m, answer, rfl⟩⟩
    · have hheld : Duty.holds (.submitted m answer) ≠ some id := fun hx => hid (Option.some.inj hx)
      have acc' : RowAccount w rows0 (.submitted m answer) cs id r := acc.other hheld hheld
      have hacc : WasAccepted (.submit m.id answer :: cs) id ↔ WasAccepted cs id := by
        constructor
        · rintro ⟨a, ha, hok⟩
          rcases answered_submit ha with ⟨hx, -⟩ | ha
          · exact absurd hx hid
          · exact ⟨a, ha, hok⟩
        · rintro ⟨a, ha, hok⟩
          exact ⟨a, mem_cons_of_mem _ ha, hok⟩
      refine ⟨?_, acc'.working, acc'.allowed, fun hnew h => hacc.mpr (acc'.delivered hnew h),
        fun ha => acc'.settled (hacc.mp ha)⟩
      rw [submits_submit_other hid]
      exact acc'.attempt
  · have hne : m.id ≠ id := by
      rintro rfl
      rw [hrow] at hnone
      nomatch hnone
    rw [submits_submit_other hne]
    exact L.absent id hnone

theorem Ledger.poll (L : Ledger w rows0 (.found m) t cs)
    (answer : Except GoError SubmissionStatus) :
    Ledger w rows0 (.polled m answer) t (.poll m.id m.operationID answer :: cs) := by
  have hacc : ∀ id, WasAccepted (.poll m.id m.operationID answer :: cs) id ↔ WasAccepted cs id := by
    intro id
    constructor
    · rintro ⟨a, ha, hok⟩
      exact ⟨a, answered_poll ha, hok⟩
    · rintro ⟨a, ha, hok⟩
      exact ⟨a, mem_cons_of_mem _ ha, hok⟩
  refine ⟨fun id r hr => ?_, fun id hnone => ?_, trivial⟩
  · have acc : RowAccount w rows0 (.polled m answer) cs id r := (L.rows id r hr).other nofun nofun
    refine ⟨?_, acc.working, acc.allowed, fun hnew h => (hacc id).mpr (acc.delivered hnew h),
      fun ha => acc.settled ((hacc id).mp ha)⟩
    rw [submits_poll]
    exact acc.attempt
  · rw [submits_poll]
    exact L.absent id hnone

/-- A row after an update: nothing is owed for it, and it is not working. -/
theorem RowAccount.settle (hatt : row.attempt = startAttempt rows0 id + submits cs id)
    (hnot : row.state ≠ .working)
    (hallowed : rows0.find id = none → row.state = .queued → row.attempt ≤ w.cfg.retryAttempts)
    (hdelivered : rows0.find id = none → row.state = .submitted ∨ row.state = .succeeded →
      WasAccepted cs id) (hsettled : WasAccepted cs id → row.state ≠ .queued) :
    RowAccount w rows0 .idle cs id row := by
  refine ⟨?_, ⟨fun h => absurd h hnot, nofun⟩, ?_, hdelivered,
    fun ha => ⟨hsettled ha, fun h => absurd h hnot⟩⟩
  · show row.attempt + 0 = _
    rw [hatt]
    omega
  · rintro hnew (h | h)
    · exact hallowed hnew h
    · exact absurd h hnot

/-- The update of a claimed record that cannot be loaded: no attempt was made. -/
theorem RowAccount.unloadable [Unicode] (acc : RowAccount w rows0 (.claimed m) cs m.id row)
    (hm : m.Describes row) (hrec : m.Unloadable rec) (hcols : row'.toColumns = rec.columns) :
    RowAccount w rows0 .idle cs m.id row' := by
  have hworking : row.state = .working := acc.working.mpr rfl
  have hnot : ¬ WasAccepted cs m.id := by
    intro ha
    obtain ⟨m', answer', hx⟩ := (acc.settled ha).2 hworking
    nomatch hx
  have hstate : row'.state = .queued ∨ row'.state = .deadLetter := by
    rw [hcols]
    rcases hrec with ⟨t, rfl⟩ | ⟨cause, t, rfl⟩
    · exact Or.inl rfl
    · exact Or.inr (corrupted_state m cause t)
  have hatt : row'.attempt = row.attempt := by
    rw [hcols, ← hm.attempt]
    rcases hrec with ⟨t, rfl⟩ | ⟨cause, t, rfl⟩
    · rfl
    · exact corrupted_attempt m cause t
  have howed : row.attempt + 0 = startAttempt rows0 m.id + submits cs m.id := acc.attempt
  refine RowAccount.settle (by omega) ?_ ?_ ?_ fun ha => absurd ha hnot
  · rcases hstate with h | h <;> rw [h] <;> exact nofun
  · intro hnew _
    rw [hatt]
    exact acc.allowed hnew (Or.inr hworking)
  · intro _ h
    rcases hstate with hs | hs <;> rw [hs] at h <;> rcases h with h | h <;> nomatch h

/-- The update after an attempt: the attempt that was owed is stored. -/
theorem RowAccount.attempted [Unicode] {answer : Except GoError SubmissionResult}
    {older : List ProviderCall}
    (acc : RowAccount w rows0 (.submitted m answer) (.submit m.id answer :: older) m.id row)
    (hm : m.Describes row) (hnot : ¬ WasAccepted older m.id) (hrec : Attempted m rec)
    {now : Int} (hend : SubmitEnd w now m answer rec) (hcols : row'.toColumns = rec.columns) :
    RowAccount w rows0 .idle (.submit m.id answer :: older) m.id row' := by
  have hstate : row'.state = rec.state := by
    rw [hcols]
    rfl
  -- the table refuses an attempt counter that has wrapped
  have hatt : row'.attempt = row.attempt + 1 := by
    have hwrap : row'.attempt = wrap64 (row.attempt + 1) := by
      rw [hcols, ← hm.attempt]
      exact hrec.attempt
    rw [hwrap]
    exact wrap64_succ row.check.attempt row.check.attempt_max (hwrap ▸ row'.check.attempt)
  have howed : row.attempt + Duty.debt m.id (.submitted m answer) =
      startAttempt rows0 m.id + submits (.submit m.id answer :: older) m.id := acc.attempt
  rw [show Duty.debt m.id (.submitted m answer) = 1 from if_pos rfl] at howed
  have hnow : Accepted answer → WasAccepted (.submit m.id answer :: older) m.id :=
    fun ha => ⟨answer, mem_cons_self .., ha⟩
  have hever : WasAccepted (.submit m.id answer :: older) m.id → Accepted answer := by
    rintro ⟨a, ha, hok⟩
    rcases answered_submit ha with ⟨-, rfl⟩ | ha
    · exact hok
    · exact absurd ⟨a, ha, hok⟩ hnot
  refine RowAccount.settle (by omega) ?_ (fun _ h => ?_)
    (fun _ h => hnow (hend.accepted (hstate ▸ h))) fun ha h => ?_
  · rw [hstate]
    cases hend with
    | retry state | dead state | succeeded state | submitted state =>
      rw [state]
      simp
  · rw [hstate] at h
    cases hend with
    | retry _ _ allowed =>
      rw [hm.attempt] at allowed
      omega
    | dead state | succeeded state | submitted state => nomatch state.symm.trans h
  · rw [hstate] at h
    cases hend with
    | retry _ failed => exact failed.not_accepted (hever ha)
    | dead state | succeeded state | submitted state => nomatch state.symm.trans h

/-- The update after a poll, or after a timeout: no attempt was made. -/
theorem RowAccount.polled (acc : RowAccount w rows0 κ cs m.id row) (hκ : κ.holds = none)
    (hs : row.state = .submitted) (hm : m.Describes row) (hrec : Polled m rec)
    (hcols : row'.toColumns = rec.columns) : RowAccount w rows0 .idle cs m.id row' := by
  have hstate : row'.state = .submitted ∨ row'.state = .succeeded ∨ row'.state = .deadLetter := by
    rw [hcols]
    exact hrec.state
  have hatt : row'.attempt = row.attempt := by
    rw [hcols, ← hm.attempt]
    exact hrec.attempt
  have howed := acc.attempt
  rw [debt_of_not_held (by rw [hκ]; exact nofun)] at howed
  have hnot : row'.state ≠ .working ∧ row'.state ≠ .queued := by
    rcases hstate with h | h | h <;> rw [h] <;> simp
  refine RowAccount.settle (by omega) hnot.1 (fun _ h => absurd h hnot.2) ?_ fun _ => hnot.2
  exact fun hnew _ => acc.delivered hnew (Or.inl hs)

theorem Ledger.update [Unicode] (L : Ledger w rows0 κ t cs) (hsees : κ.Sees t)
    (hw : κ.Writes w m rec) (hrow : t.find rec.id = some row) (hs : row.state = m.state)
    (hcols : row'.toColumns = rec.columns) : Ledger w rows0 .idle (t.replace row') cs := by
  have hid : row.id = rec.id := find_id hrow
  have hid' : row'.id = row.id := by
    rw [hcols, hid]
    rfl
  -- whatever the duty, it is about the row that is rewritten
  have hfrom : ∀ {row0 : Row}, rec.id = m.id → t.find m.id = some row0 → row0 = row := by
    intro row0 hrid h0
    rw [← hrid, hrow] at h0
    exact (Option.some.inj h0).symm
  have hdone : rec.id = m.id → (∀ id, id ≠ m.id → κ.holds ≠ some id) →
      RowAccount w rows0 .idle cs m.id row' → Ledger w rows0 .idle (t.replace row') cs := by
    intro hrid hκ hself
    have hrid' : row.id = m.id := hid.trans hrid
    refine L.replace (hid.symm ▸ hrow) hid' (hrid' ▸ hself) ?_ (fun id _ => not_held_idle id) trivial
    exact fun id hne => hκ id (hrid' ▸ hne)
  cases κ with
  | idle | stopped => nomatch hw
  | claimed m1 =>
    obtain ⟨rfl, hrec⟩ := hw
    obtain ⟨-, row0, h0, hdesc⟩ := hsees
    have hrid : rec.id = m1.id := by
      rcases hrec with ⟨t, rfl⟩ | ⟨cause, t, rfl⟩
      · rfl
      · exact corrupted_id m1 cause t
    cases hfrom hrid h0
    refine hdone hrid (fun id hne hx => hne (Option.some.inj hx).symm) ?_
    exact RowAccount.unloadable (L.rows m1.id row h0) hdesc hrec hcols
  | submitted m1 answer =>
    obtain ⟨rfl, now, msg, hrec⟩ := hw
    obtain ⟨hm, row0, h0, hdesc⟩ := hsees
    obtain ⟨older, rfl, hnot⟩ := L.owes
    obtain ⟨hatt, hend⟩ := queued_stores hm hrec
    cases hfrom hatt.id h0
    refine hdone hatt.id (fun id hne hx => hne (Option.some.inj hx).symm) ?_
    exact RowAccount.attempted (L.rows m1.id row h0) hdesc hnot hatt hend hcols
  | found m1 =>
    obtain ⟨rfl, now, hrec⟩ := hw
    obtain ⟨hm, row0, h0, hdesc⟩ := hsees
    have hpolled : Polled m1 rec := timeout_stores hm hrec
    cases hfrom hpolled.id h0
    refine hdone hpolled.id (fun _ _ hx => nomatch hx) ?_
    exact RowAccount.polled (L.rows m1.id row h0) rfl (hs.trans hm) hdesc hpolled hcols
  | polled m1 answer =>
    obtain ⟨rfl, now, hrec⟩ := hw
    obtain ⟨hm, row0, h0, hdesc⟩ := hsees
    have hpolled : Polled m1 rec := submitted_stores hm hrec
    cases hfrom hpolled.id h0
    refine hdone hpolled.id (fun _ _ hx => nomatch hx) ?_
    exact RowAccount.polled (L.rows m1.id row h0) rfl (hs.trans hm) hdesc hpolled hcols

/-- What the worker holds is in the table. -/
theorem held_of_sees {κ : Duty} {t : Records} (hs : κ.Sees t) (h : κ.holds = some id) :
    t.Has id := by
  cases κ with
  | claimed m | submitted m answer =>
    obtain ⟨-, r, hr, -⟩ := hs
    exact Option.some.inj h ▸ Table.has_of_find hr
  | _ => nomatch h

theorem Ledger.insert (L : Ledger w rows0 κ t cs) (hsees : κ.Sees t) (hfree : ¬ t.Has row.id)
    (hs : row.state = .queued) (ha : row.attempt = 0) :
    Ledger w rows0 κ (t.insert row hfree) cs := by
  obtain ⟨hnew, hzero⟩ := L.absent row.id (Table.find_none.mpr hfree)
  have hheld : κ.holds ≠ some row.id := fun hx => hfree (held_of_sees hsees hx)
  refine ⟨fun id r hr => ?_, fun id hid => ?_, L.owes⟩
  · rw [Table.find_insert] at hr
    by_cases hid : id = row.id
    · rw [if_pos hid] at hr
      cases hr
      subst hid
      have hnever : ¬ WasAccepted cs row.id := by
        rintro ⟨a, hcall, -⟩
        have := submits_pos_of_answered hcall
        omega
      have acc : RowAccount w rows0 .idle cs row.id row := by
        refine RowAccount.settle ?_ (by rw [hs]; simp) (fun _ _ => ?_) ?_ fun ha => absurd ha hnever
        · rw [ha, hzero]
          unfold startAttempt
          rw [hnew]
          rfl
        · rw [ha]
          have := w.valid.retryAttempts
          omega
        · intro _ h
          rw [hs] at h
          rcases h with h | h <;> nomatch h
      exact acc.other (not_held_idle _) hheld
    · rw [if_neg hid] at hr
      exact L.rows id r hr
  · refine L.absent id (Table.find_none.mpr fun hhas => Table.find_none.mp hid ?_)
    exact (Table.has_insert t row hfree id).mpr (Or.inl hhas)

end

end SmtpCloudRelay.Spool
