/-
  WHAT THE PARTIES DO TO THE TABLE.

  The properties of the worker speak about the rows and about the provider's calls, and about nothing
  else of the world.  Here the steps of the three parties are projected to that: a `WorkerStep` leads
  from a duty, a table and a list of calls to the next ones; a `ClientStep` can only insert; a
  `BootStep` requeues stale rows and dead-letters corrupt ones.  Each inversion lemma goes through
  the operations once, so that an invariant has a handful of cases instead.

  A transaction may be applied although it is reported as failed; then the worker stops, with the
  table changed.  That is why several cases end in one of two duties.
-/
import SmtpCloudRelay.Spool.Outcomes
import SmtpCloudRelay.Spool.System

namespace SmtpCloudRelay.Spool

open Go Lib Prog

variable [Unicode]

/-! ## Metadata and the row it was read from -/

/-- What the metadata says is what stands in the row; the two times that every write sets are left
    out. -/
structure Metadata.Describes (m : Metadata) (row : Row) : Prop where
  id : m.id = row.id
  state : m.state = row.state
  attempt : m.attempt = row.attempt
  operationID : m.operationID = scanText row.operationID
  operationLocation : m.operationLocation = scanText row.operationLocation
  providerMessageID : m.providerMessageID = scanText row.providerMessageID
  firstSubmittedAt : m.firstSubmittedAt = (row.firstSubmittedAtMS.map ofMillis).getD zeroTime

omit [Unicode] in
theorem describes_metadata (row : Row) : row.metadata.Describes row :=
  ⟨rfl, rfl, rfl, rfl, rfl, rfl, rfl⟩

omit [Unicode] in
/-- What a claim hands out describes the row that it has written. -/
theorem describes_claimed {row row' : Row} {stamp : Int}
    (h : row'.toColumns = claimSet stamp row.toColumns) :
    (row.metadata.claimed stamp).Describes row' := by
  constructor <;> rw [h] <;> rfl

/-! ## The worker -/

/-- What a step of the worker does to its duty, the table and the calls. -/
inductive WorkerStep (w : Worker) : Duty → Records → List ProviderCall →
    Duty → Records → List ProviderCall → Prop where
  | quiet {κ : Duty} {t : Records} {cs : List ProviderCall} : WorkerStep w κ t cs κ t cs
  | stop {κ : Duty} {t : Records} {cs : List ProviderCall} : WorkerStep w κ t cs .stopped t cs
  | claim {t : Records} {cs : List ProviderCall} {row row' : Row} {stamp : Int} {κ' : Duty}
      (hrow : t.find row.id = some row) (hs : row.state = .queued)
      (hcols : row'.toColumns = claimSet stamp row.toColumns)
      (hκ : κ' = .claimed (row.metadata.claimed stamp) ∨ κ' = .stopped) :
      WorkerStep w .idle t cs κ' (t.replace row') cs
  | find {t : Records} {cs : List ProviderCall} {row : Row} (hrow : t.find row.id = some row)
      (hs : row.state = .submitted) : WorkerStep w .idle t cs (.found row.metadata) t cs
  | submit {t : Records} {cs : List ProviderCall} {m : Metadata}
      (answer : Except GoError SubmissionResult) :
      WorkerStep w (.claimed m) t cs (.submitted m answer) t (.submit m.id answer :: cs)
  | poll {t : Records} {cs : List ProviderCall} {m : Metadata}
      (answer : Except GoError SubmissionStatus) :
      WorkerStep w (.found m) t cs (.polled m answer) t (.poll m.id m.operationID answer :: cs)
  | update {κ κ' : Duty} {t : Records} {cs : List ProviderCall} {m : Metadata} {rec : Record}
      {row row' : Row} (hw : κ.Writes w m rec) (hrow : t.find rec.id = some row)
      (hs : row.state = m.state) (hcols : row'.toColumns = rec.columns)
      (hκ : κ' = .idle ∨ κ' = .stopped) : WorkerStep w κ t cs κ' (t.replace row') cs

variable {w : Worker} {ch : Choice} {W W' : World} {κ : Duty} {o : Op} {r : o.Res} {t t' : Records}
  {s : SpoolStore}

theorem claim_step {now : Int} {r : Except GoError (Option Metadata)}
    (h : exec (.tx (.claim now)) ch W = some (r, W')) :
    WorkerStep w .idle W.rows W.calls (Duty.after .idle (.tx (.claim now)) r) W'.rows W'.calls := by
  obtain ⟨hcalls, ⟨clock, a, hbody, hr⟩ | ⟨hrows, e, rfl⟩⟩ := exec_tx_cases h
  · rw [hcalls]
    rcases claimBody_ok hbody with ⟨rfl, hrows⟩ | ⟨row, row', rfl, -, hf, hs, -, hcols, hrows⟩
    · rw [hrows]
      rcases hr with rfl | ⟨e, rfl⟩
      · exact .quiet
      · exact .stop
    · rw [hrows]
      rcases hr with rfl | ⟨e, rfl⟩
      · exact .claim hf hs hcols (Or.inl rfl)
      · exact .claim hf hs hcols (Or.inr rfl)
  · rw [hcalls, hrows]
    exact .stop

theorem nextSubmitted_step {now : Int} {r : Except GoError (Option Metadata)}
    (h : exec (.tx (.nextSubmitted now)) ch W = some (r, W')) :
    WorkerStep w .idle W.rows W.calls (Duty.after .idle (.tx (.nextSubmitted now)) r)
      W'.rows W'.calls := by
  obtain ⟨hcalls, ⟨clock, a, hbody, hr⟩ | ⟨hrows, e, rfl⟩⟩ := exec_tx_cases h
  · obtain ⟨hrows, hfound⟩ := nextSubmittedBody_ok hbody
    rw [hcalls, hrows]
    rcases hr with rfl | ⟨e, rfl⟩
    · rcases hfound with ⟨rfl, -⟩ | ⟨row, rfl, -, hf, hs, -⟩
      · exact .quiet
      · exact .find hf hs
    · exact .stop
  · rw [hcalls, hrows]
    exact .stop

theorem update_step {m : Metadata} {rec : Record} {r : Except GoError Unit} (hw : κ.Writes w m rec)
    (h : exec (.tx (.update m.state rec)) ch W = some (r, W')) :
    WorkerStep w κ W.rows W.calls (κ.after (.tx (.update m.state rec)) r) W'.rows W'.calls := by
  obtain ⟨hcalls, ⟨clock, a, hbody, hr⟩ | ⟨hrows, e, rfl⟩⟩ := exec_tx_cases h
  · obtain ⟨row, row', hf, hs, hcols, hrows⟩ := updateBody_ok hbody
    rw [hcalls, hrows]
    rcases hr with rfl | ⟨e, rfl⟩
    · exact .update hw hf hs hcols (Or.inl rfl)
    · exact .update hw hf hs hcols (Or.inr rfl)
  · rw [hcalls, hrows]
    exact .stop

/-- **A step that a duty allows is one of the worker's steps.** -/
theorem worker_step (hok : κ.Allows w o) (h : exec o ch W = some (r, W')) :
    WorkerStep w κ W.rows W.calls (κ.after o r) W'.rows W'.calls := by
  -- a step that is neither a transaction nor a call of the provider
  have hquiet : o.isTx = false → o.isCall = false →
      WorkerStep w κ W.rows W.calls (κ.after o r) W'.rows W'.calls := by
    intro htx hcall
    rw [exec_rows h htx, exec_calls h hcall]
    cases o with
    | tx t => nomatch htx
    | submit msg id | poll id op => nomatch hcall
    | _ => exact .quiet
  rcases hok with htry | ⟨m, rec, hw, rfl⟩
  · cases κ with
    | idle =>
      rcases htry with rfl | rfl | ⟨d, rfl⟩ | ⟨t, rfl⟩ | ⟨t, rfl⟩
      · exact hquiet rfl rfl
      · exact hquiet rfl rfl
      · exact hquiet rfl rfl
      · exact claim_step h
      · exact nextSubmitted_step h
    | claimed m =>
      rcases htry with rfl | hc | ⟨msg, rfl⟩
      · exact hquiet rfl rfl
      · exact hquiet hc.isTx hc.isCall
      · obtain ⟨hrows, hcalls⟩ := exec_submit h
        rw [hrows, hcalls]
        exact .submit r
    | submitted m answer =>
      cases htry
      exact hquiet rfl rfl
    | found m =>
      rcases htry with rfl | rfl
      · exact hquiet rfl rfl
      · obtain ⟨hrows, hcalls⟩ := exec_poll h
        rw [hrows, hcalls]
        exact .poll r
    | polled m answer =>
      cases htry
      exact hquiet rfl rfl
    | stopped => nomatch htry
  · exact update_step hw h

/-! ## Sessions -/

/-- What a step of a session does to the table. -/
inductive ClientStep : Records → Records → Prop where
  | quiet {t : Records} : ClientStep t t
  | insert {t : Records} {row : Row} {id : GoString} {msg : Message} {now : Int}
      (hfree : ¬ t.Has row.id) (hcols : row.toColumns = (Record.enqueued id msg now).columns) :
      ClientStep t (t.insert row hfree)

theorem client_step (hok : ClientOp o) (h : exec o ch W = some (r, W')) :
    ClientStep W.rows W'.rows ∧ W'.calls = W.calls := by
  cases o with
  | tx t =>
    cases t with
    | insert rec =>
      obtain ⟨id, msg, now, rfl⟩ := hok
      obtain ⟨hcalls, ⟨clock, a, hbody, -⟩ | ⟨hrows, -⟩⟩ := exec_tx_cases h
      · obtain ⟨row, hk, hcols, hrows⟩ := insertBody_ok hbody
        rw [hrows]
        exact ⟨.insert hk hcols, hcalls⟩
      · rw [hrows]
        exact ⟨.quiet, hcalls⟩
    | _ => nomatch hok
  | submit msg id | poll id op => nomatch hok
  | _ =>
    rw [exec_rows h rfl]
    exact ⟨.quiet, exec_calls h rfl⟩

/-! ## What the worker sees -/

/-- The metadata describes the row of its id, which is in state `st`. -/
def Metadata.Sees (m : Metadata) (st : State) (t : Records) : Prop :=
  m.state = st ∧ ∃ row, t.find m.id = some row ∧ m.Describes row

/-- What the worker holds is what stands in the table. -/
def Duty.Sees : Duty → Records → Prop
  | .claimed m, t => m.Sees .working t
  | .submitted m _, t => m.Sees .working t
  | .found m, t => m.Sees .submitted t
  | .polled m _, t => m.Sees .submitted t
  | _, _ => True

/-- **The worker sees what is there**: nobody else rewrites a row that it holds. -/
theorem Duty.Sees.worker {κ' : Duty} {cs cs' : List ProviderCall} (hs : κ.Sees t)
    (h : WorkerStep w κ t cs κ' t' cs') : κ'.Sees t' := by
  cases h with
  | quiet => exact hs
  | stop => trivial
  | @claim _ _ row row' stamp _ hrow hq hcols hκ =>
    have hid : row'.id = row.id := by
      rw [hcols]
      rfl
    rcases hκ with rfl | rfl
    · exact ⟨rfl, row', find_replace_self hrow hid, describes_claimed hcols⟩
    · trivial
  | find hrow hsub => exact ⟨hsub, _, hrow, describes_metadata _⟩
  | submit answer | poll answer => exact hs
  | update hw hrow hst hcols hκ =>
    rcases hκ with rfl | rfl <;> trivial

omit [Unicode] in
theorem Metadata.Sees.client {m : Metadata} {st : State} (hs : m.Sees st t) (h : ClientStep t t') :
    m.Sees st t' := by
  cases h with
  | quiet => exact hs
  | @insert new id msg now hfree hcols =>
    obtain ⟨hst, row, hrow, hdesc⟩ := hs
    refine ⟨hst, row, ?_, hdesc⟩
    rw [Table.find_insert, if_neg fun heq : m.id = new.id => ?_]
    · exact hrow
    · exact hfree (heq ▸ Table.has_of_find hrow)

omit [Unicode] in
theorem Duty.Sees.client (hs : κ.Sees t) (h : ClientStep t t') : κ.Sees t' := by
  cases κ with
  | idle | stopped => trivial
  | claimed m | submitted m answer | found m | polled m answer => exact Metadata.Sees.client hs h

/-! ## A process that serves -/

/-- The worker of a process that serves is at a duty, and its sessions only insert. -/
inductive OnDuty (w : Worker) : Duty → Process → Prop where
  | mk {κ : Duty} {wk : Task Unit} {clients : List Client}
      (worker : wk.Safe (workerProto w) (fun _ _ => True) κ)
      (sessions : ∀ c ∈ clients, c.prog.Uses ClientOp) : OnDuty w κ (.serving wk clients)

theorem onDuty_start : OnDuty w .idle (.serving (w.start s) []) :=
  .mk start_safe fun _ hc => nomatch hc

/-- What a move of a serving process does to duty, table and calls. -/
def ServingStep (w : Worker) (κ : Duty) (W : World) (κ' : Duty) (W' : World) : Prop :=
  WorkerStep w κ W.rows W.calls κ' W'.rows W'.calls ∨
    (κ' = κ ∧ ClientStep W.rows W'.rows ∧ W'.calls = W.calls)

/-- **Every move of a serving process is a step of its worker or of a session.** -/
theorem OnDuty.step {σ σ' : Sys} (hp : OnDuty w κ σ.process) (h : Serves s σ σ') :
    ∃ κ', OnDuty w κ' σ'.process ∧ ServingStep w κ σ.world κ' σ'.world := by
  have hstill : ∀ W : World, ServingStep w κ W κ W := fun W => Or.inr ⟨rfl, .quiet, rfl⟩
  cases h with
  | arrive msg =>
    obtain ⟨hwk, hcs⟩ := hp
    refine ⟨κ, .mk hwk fun c hc => ?_, hstill _⟩
    rcases List.mem_cons.mp hc with rfl | hc
    · exact enqueue_uses s msg
    · exact hcs c hc
  | @client _ _ _ l r _ msg p p' _ hmove =>
    obtain ⟨hwk, hcs⟩ := hp
    obtain ⟨hp', hstep⟩ := Prog.Uses.move (hcs ⟨msg, p⟩ (by simp)) hmove
    refine ⟨κ, .mk hwk fun c hc => ?_, Or.inr ⟨rfl, ?_⟩⟩
    · rcases List.mem_append.mp hc with hc | hc
      · exact hcs c (List.mem_append_left _ hc)
      · rcases List.mem_cons.mp hc with rfl | hc
        · exact hp'
        · exact hcs c (List.mem_append_right _ (List.mem_cons_of_mem _ hc))
    · rcases hstep with rfl | ⟨o, c, r, ho, hE⟩
      · exact ⟨.quiet, rfl⟩
      · exact client_step ho hE
  | @accept _ _ l r _ msg rec | @reject _ _ l r _ msg e =>
    obtain ⟨hwk, hcs⟩ := hp
    refine ⟨κ, .mk hwk fun c hc => hcs c ?_, hstill _⟩
    exact (List.Sublist.append (List.Sublist.refl l) (List.sublist_cons_self _ r)).mem hc
  | worker hmove =>
    obtain ⟨hwk, hcs⟩ := hp
    rcases Prog.Safe.move hwk hmove with ⟨-, rfl, hwk'⟩ | ⟨o, c, r, -, hE, hok, hwk'⟩
    · exact ⟨κ, .mk hwk' hcs, hstill _⟩
    · exact ⟨_, .mk (hwk' _ ⟨exec_truthful hE, rfl⟩) hcs, Or.inl (worker_step hok hE)⟩

/-! ## The boot -/

/-- What a step of the boot does to its knowledge and to the table. -/
inductive BootStep : BootDuty → Records → BootDuty → Records → Prop where
  | quiet {κ : BootDuty} {t : Records} : BootStep κ t κ t
  | recover {t t' : Records} {snap : Snapshot} {now : Int} {κ' : BootDuty}
      (h : Recovered now t t' snap) (hκ : κ' = .recovering snap ∨ κ' = .starting) :
      BootStep .starting t κ' t'
  | corrupt {t : Records} {snap : Snapshot} {m : Metadata} {cause : GoError} {stamp : Int}
      {row row' : Row} (hm : m ∈ snap.requeued ∨ m ∈ snap.submitted)
      (hrow : t.find m.id = some row) (hs : row.state = m.state)
      (hcols : row'.toColumns = (m.corrupted cause stamp).columns) :
      BootStep (.recovering snap) t (.recovering snap) (t.replace row')

theorem boot_step {κ : BootDuty} (hok : κ.Allows o) (h : exec o ch W = some (r, W')) :
    BootStep κ W.rows (κ.after o r) W'.rows ∧ W'.calls = W.calls := by
  have hquiet : o.isTx = false → o.isCall = false →
      BootStep κ W.rows (κ.after o r) W'.rows ∧ W'.calls = W.calls := by
    intro htx hcall
    rw [exec_rows h htx, exec_calls h hcall]
    cases o with
    | tx t => nomatch htx
    | _ => exact ⟨.quiet, rfl⟩
  cases κ with
  | starting =>
    rcases hok with rfl | rfl | rfl | hc | ⟨now, rfl⟩
    · exact hquiet rfl rfl
    · exact hquiet rfl rfl
    · exact hquiet rfl rfl
    · exact hquiet hc.isTx hc.isCall
    · obtain ⟨hcalls, ⟨clock, snap, hbody, hr⟩ | ⟨hrows, e, rfl⟩⟩ := exec_tx_cases h
      · refine ⟨?_, hcalls⟩
        rcases hr with rfl | ⟨e, rfl⟩
        · exact .recover (recoverBody_ok hbody) (Or.inl rfl)
        · exact .recover (recoverBody_ok hbody) (Or.inr rfl)
      · rw [hrows]
        exact ⟨.quiet, hcalls⟩
  | recovering snap =>
    rcases hok with rfl | hc | ⟨m, cause, t, hm, rfl⟩
    · exact hquiet rfl rfl
    · exact hquiet hc.isTx hc.isCall
    · obtain ⟨hcalls, ⟨clock, a, hbody, hr⟩ | ⟨hrows, e, rfl⟩⟩ := exec_tx_cases h
      · obtain ⟨row, row', hf, hs, hcols, hrows⟩ := updateBody_ok hbody
        rw [corrupted_id] at hf
        rw [hrows]
        refine ⟨?_, hcalls⟩
        rcases hr with rfl | ⟨e, rfl⟩ <;> exact .corrupt hm hf hs hcols
      · rw [hrows]
        exact ⟨.quiet, hcalls⟩

/-! ## The whole system -/

/-- Where the process of the relay is, and what it knows. -/
inductive Phase where
  | down
  | booting (κ : BootDuty)
  | serving (κ : Duty)

/-- The programs of a process keep to the protocols of its phase. -/
inductive InPhase (w : Worker) : Phase → Process → Prop where
  | down : InPhase w .down .down
  | booting {κ : BootDuty} {p : Task RecoveryResult}
      (h : p.Safe bootProto (fun _ _ => True) κ) : InPhase w (.booting κ) (.booting p)
  | serving {κ : Duty} {p : Process} (h : OnDuty w κ p) : InPhase w (.serving κ) p

/-- What a step of the system does to phase, table and calls. -/
inductive PhaseStep (w : Worker) : Phase → World → Phase → World → Prop where
  | crash {φ : Phase} {W : World} : PhaseStep w φ W .down W
  | launch {W : World} : PhaseStep w .down W (.booting .starting) W
  | boot {κ κ' : BootDuty} {W W' : World} (h : BootStep κ W.rows κ' W'.rows)
      (hcalls : W'.calls = W.calls) : PhaseStep w (.booting κ) W (.booting κ') W'
  | up {κ : BootDuty} {W : World} : PhaseStep w (.booting κ) W (.serving .idle) W
  | serve {κ κ' : Duty} {W W' : World} (h : ServingStep w κ W κ' W') :
      PhaseStep w (.serving κ) W (.serving κ') W'

/-- **Every step of the system is a step of its phase.** -/
theorem InPhase.step {φ : Phase} {σ σ' : Sys} (hp : InPhase w φ σ.process) (h : Step w s σ σ') :
    ∃ φ', InPhase w φ' σ'.process ∧ PhaseStep w φ σ.world φ' σ'.world := by
  cases h with
  | serve h =>
    -- only a process that serves has such moves
    have hserving : ∃ κ, φ = .serving κ ∧ OnDuty w κ σ.process := by
      obtain ⟨wk, clients, hproc⟩ : ∃ wk clients, σ.process = .serving wk clients := by
        cases h <;> exact ⟨_, _, rfl⟩
      rw [hproc] at hp ⊢
      cases hp with
      | serving h' => exact ⟨_, rfl, h'⟩
    obtain ⟨κ, rfl, hduty⟩ := hserving
    obtain ⟨κ', hduty', hstep⟩ := hduty.step h
    exact ⟨.serving κ', .serving hduty', .serve hstep⟩
  | launch =>
    cases hp with
    | down => exact ⟨.booting .starting, .booting boot_safe, .launch⟩
    | serving h => nomatch h
  | boot hmove =>
    cases hp with
    | booting hsafe =>
      rcases Prog.Safe.move hsafe hmove with ⟨-, rfl, hsafe'⟩ | ⟨o, c, r, -, hE, hok, hsafe'⟩
      · exact ⟨_, .booting hsafe', .boot .quiet rfl⟩
      · obtain ⟨hstep, hcalls⟩ := boot_step hok hE
        exact ⟨_, .booting (hsafe' _ ⟨exec_truthful hE, rfl⟩), .boot hstep hcalls⟩
    | serving h => nomatch h
  | up r =>
    cases hp with
    | booting hsafe => exact ⟨.serving .idle, .serving onDuty_start, .up⟩
    | serving h => nomatch h
  | fail e | crash => exact ⟨.down, .down, .crash⟩

end SmtpCloudRelay.Spool
