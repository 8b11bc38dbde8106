/-
  THE WORLD THE SPOOL RUNS IN, and its atomic steps.

  The world is the directory tree below the spool root, the table of records, and two things the
  program cannot see but the properties speak about: the record ids that were ever drawn, and the
  calls that the provider has received.  A step of the program is one system call, one transaction,
  one reading of the clock or of the random source, one look at its context, or one call of the
  provider; `exec` says what each does, given a choice of the outside world.

  What is assumed of the outside is in `exec` and nowhere else:
  * a system call that fails has no effect, except that a write may stop half-way;
  * a transaction ends in one of the three ways of `Tx.perform`;
  * a freshly drawn RECORD id was never drawn before (122 random bits); the random suffixes of
    temporary names carry no such promise, and the code does not rely on one;
  * clocks, contexts and providers answer anything.
-/
import SmtpCloudRelay.Lib.Prog
import SmtpCloudRelay.Spool.Transactions

namespace SmtpCloudRelay.Spool

open Go Lib

/-- A path below the spool root, from the root down. -/
abbrev Path := List GoString

/-- Why a context has ended. -/
inductive CtxErr where
  | canceled
  | deadlineExceeded
  deriving DecidableEq

/-- `ctx.Err()` of a context that has ended. -/
def CtxErr.toError : CtxErr → GoError
  | .canceled => .canceled
  | .deadlineExceeded => .deadlineExceeded

/-- A call that the provider has received, with its answer. -/
inductive ProviderCall where
  | submit (id : GoString) (answer : Except GoError SubmissionResult)
  | poll (id operationID : GoString) (answer : Except GoError SubmissionStatus)
  deriving DecidableEq

/-- The world of the spool. -/
structure World where
  /-- The directory tree below the spool root. -/
  files : Files GoString
  /-- The table `records`. -/
  rows : Records
  /-- The record ids drawn so far. -/
  issued : List GoString
  /-- The provider's calls, newest first. -/
  calls : List ProviderCall

/-- The atomic steps. -/
inductive Op where
  /-- Read the clock. -/
  | now
  /-- Ask the context for its error. -/
  | ctxErr
  /-- Sleep until the time is over or the context ends. -/
  | sleep (d : Int)
  /-- Draw a record id. -/
  | newID
  /-- Draw a suffix for a temporary name. -/
  | suffix
  /-- Walk to the spool root. -/
  | openRoot
  /-- Open the database and check its schema. -/
  | openDatabase
  /-- A system call below the root. -/
  | fs (c : Call GoString)
  /-- A transaction. -/
  | tx (t : Tx)
  /-- `provider.Submit`. -/
  | submit (msg : Message) (id : GoString)
  /-- `provider.Poll` of an operation, on behalf of a record. -/
  | poll (id operationID : GoString)

/-- A system call. -/
def Op.isFs : Op → Bool
  | .fs _ => true
  | _ => false

/-- A transaction. -/
def Op.isTx : Op → Bool
  | .tx _ => true
  | _ => false

/-- A call of the provider. -/
def Op.isCall : Op → Bool
  | .submit _ _ | .poll _ _ => true
  | _ => false

/-- What the steps answer. -/
def Op.Res : Op → Type
  | .now => Int
  | .ctxErr => Option CtxErr
  | .sleep _ => Option CtxErr
  | .newID => Except GoError GoString
  | .suffix => Except GoError GoString
  | .openRoot => Except GoError Unit
  | .openDatabase => Except GoError Unit
  | .fs c => Except Errno c.Answer
  | .tx t => Except GoError t.Answer
  | .submit _ _ => Except GoError SubmissionResult
  | .poll _ _ => Except GoError SubmissionStatus

/-- The signature of the spool's programs. -/
abbrev spoolSig : Sig := ⟨Op, Op.Res⟩

/-- A fallible program of the spool. -/
abbrev Task (α : Type) := Act spoolSig GoError α

/-- What the outside world chooses. -/
inductive Choice where
  | time (t : Int)
  | context (e : Option CtxErr)
  | random (bytes : Vector UInt8 16)
  | noRandom (text : GoString)
  | opened
  | notOpened (before : GoString) (e : Errno)
  | noDatabase (op : GoString) (cause : DbError)
  | call (c : Call.Choice GoString)
  | tx (o : TxOutcome)
  | submitted (answer : Except GoError SubmissionResult)
  | polled (answer : Except GoError SubmissionStatus)

/-- What the outside answers to a step that neither touches the files nor the table. -/
def answer : (o : Op) → Choice → Option o.Res
  | .now, .time t => some t
  | .ctxErr, .context e => some e
  | .sleep _, .context e => some e
  | .newID, .random b => some (.ok (newUUIDv4 b))
  | .newID, .noRandom text => some (.error (.foreign .plain text))
  | .suffix, .random b => some (.ok (newUUIDv4 b))
  | .suffix, .noRandom text => some (.error (.foreign .plain text))
  | .openRoot, .opened => some (.ok ())
  | .openRoot, .notOpened before e => some (.error (.wrap before (.errno e)))
  | .openDatabase, .opened => some (.ok ())
  | .openDatabase, .noDatabase op cause =>
    some (.error (.wrapStoreError op cause.toError))
  | .submit _ _, .submitted a => some a
  | .poll _ _, .polled a => some a
  | _, _ => none

/-- What the outside remembers of such a step. -/
def remember : (o : Op) → o.Res → World → World
  | .newID, .ok id, w => { w with issued := id :: w.issued }
  | .submit _ id, a, w => { w with calls := .submit id a :: w.calls }
  | .poll id op, a, w => { w with calls := .poll id op a :: w.calls }
  | _, _, w => w

@[simp] theorem remember_rows (o : Op) (r : o.Res) (w : World) : (remember o r w).rows = w.rows := by
  cases o with
  | newID => cases r <;> rfl
  | _ => rfl

@[simp] theorem remember_files (o : Op) (r : o.Res) (w : World) :
    (remember o r w).files = w.files := by
  cases o with
  | newID => cases r <;> rfl
  | _ => rfl

/-- A record id that is drawn is new. -/
def fresh : (o : Op) → o.Res → World → Bool
  | .newID, .ok id, w => id ∉ w.issued
  | _, _, _ => true

section Exec

variable [Unicode]

/-- What a step answers and does. -/
def exec (o : Op) (ch : Choice) (w : World) : Option (o.Res × World) :=
  match o, ch with
  | .fs c, .call cc => (c.perform w.files cc).map fun x => (x.1, { w with files := x.2 })
  | .tx t, .tx out => (t.perform w.rows out).map fun x => (x.1, { w with rows := x.2 })
  | o, ch =>
    match answer o ch with
    | some r => if fresh o r w then some (r, remember o r w) else none
    | none => none

/-! ## What a step does, by its kind -/

variable {ch : Choice} {w w' : World} {o : Op} {r : o.Res} {id : GoString}

/-- A step of the file system: its effect is the system call's, on the tree. -/
theorem exec_fs {c : Call GoString} {r : Except Errno c.Answer}
    (h : exec (.fs c) ch w = some (r, w')) :
    ∃ cc files, ch = .call cc ∧ c.perform w.files cc = some (r, files) ∧
      w' = { w with files := files } := by
  cases ch with
  | call cc =>
    obtain ⟨⟨r', files⟩, hp, hx⟩ := Option.map_eq_some_iff.mp h
    cases hx
    exact ⟨cc, files, rfl, hp, rfl⟩
  | _ => nomatch h

/-- A transaction: its effect is on the table. -/
theorem exec_tx {t : Tx} {r : Except GoError t.Answer} (h : exec (.tx t) ch w = some (r, w')) :
    ∃ out rows, ch = .tx out ∧ t.perform w.rows out = some (r, rows) ∧
      w' = { w with rows := rows } := by
  cases ch with
  | tx out =>
    obtain ⟨⟨r', rows⟩, hp, hx⟩ := Option.map_eq_some_iff.mp h
    cases hx
    exact ⟨out, rows, rfl, hp, rfl⟩
  | _ => nomatch h

/-- Any other step: the outside answers, and remembers. -/
theorem exec_other (h : exec o ch w = some (r, w')) (hfs : o.isFs = false)
    (htx : o.isTx = false) : answer o ch = some r ∧ fresh o r w = true ∧ w' = remember o r w := by
  have heq : exec o ch w = match answer o ch with
      | some r => if fresh o r w then some (r, remember o r w) else none
      | none => none := by
    cases o with
    | fs c => nomatch hfs
    | tx t => nomatch htx
    | _ => rfl
  rw [heq] at h
  cases ha : answer o ch with
  | none =>
    rw [ha] at h
    nomatch h
  | some r' =>
    rw [ha] at h
    dsimp only at h
    by_cases hf : fresh o r' w = true
    · rw [if_pos hf] at h
      cases h
      exact ⟨rfl, hf, rfl⟩
    · rw [if_neg hf] at h
      nomatch h

/-- Only transactions change the table. -/
theorem exec_rows (h : exec o ch w = some (r, w')) (htx : o.isTx = false) : w'.rows = w.rows := by
  cases hfs : o.isFs with
  | true =>
    cases o with
    | fs c =>
      obtain ⟨_, files, -, -, rfl⟩ := exec_fs h
      rfl
    | _ => nomatch hfs
  | false =>
    obtain ⟨-, -, rfl⟩ := exec_other h hfs htx
    exact remember_rows o r w

/-- **A row stays as it is, or a transaction rewrites it; none disappears.** -/
theorem exec_find (h : exec o ch w = some (r, w')) {row : Row} (hrow : w.rows.find id = some row) :
    ∃ row', w'.rows.find id = some row' ∧ (row' = row ∨ ∃ tx, o = .tx tx ∧ tx.Rewrites row row') := by
  cases o with
  | tx tx =>
    obtain ⟨out, rows, -, hp, rfl⟩ := exec_tx h
    rcases Tx.perform_cases hp with ⟨clock, a, hbody, -⟩ | ⟨rfl, -, -⟩
    · obtain ⟨row', hrow', hcase⟩ := Tx.body_find hbody hrow
      exact ⟨row', hrow', hcase.imp_right fun hr => ⟨tx, rfl, hr⟩⟩
    · exact ⟨row, hrow, Or.inl rfl⟩
  | _ => exact ⟨row, (exec_rows h rfl).symm ▸ hrow, Or.inl rfl⟩

/-- Only calls of the provider are remembered as such. -/
theorem exec_calls (h : exec o ch w = some (r, w')) (hcall : o.isCall = false) :
    w'.calls = w.calls := by
  cases o with
  | fs c =>
    obtain ⟨_, files, -, -, rfl⟩ := exec_fs h
    rfl
  | tx t =>
    obtain ⟨_, rows, -, -, rfl⟩ := exec_tx h
    rfl
  | submit msg id | poll id op => nomatch hcall
  | newID =>
    obtain ⟨-, -, rfl⟩ := exec_other h rfl rfl
    cases r <;> rfl
  | _ =>
    obtain ⟨-, -, rfl⟩ := exec_other h rfl rfl
    rfl

theorem exec_submit {msg : Message} {r : Except GoError SubmissionResult}
    (h : exec (.submit msg id) ch w = some (r, w')) :
    w'.rows = w.rows ∧ w'.calls = .submit id r :: w.calls := by
  obtain ⟨-, -, rfl⟩ := exec_other h rfl rfl
  exact ⟨rfl, rfl⟩

theorem exec_poll {op : GoString} {r : Except GoError SubmissionStatus}
    (h : exec (.poll id op) ch w = some (r, w')) :
    w'.rows = w.rows ∧ w'.calls = .poll id op r :: w.calls := by
  obtain ⟨-, -, rfl⟩ := exec_other h rfl rfl
  exact ⟨rfl, rfl⟩

/-- A transaction as a step: it is applied, and its answer is the body's or lost; or it fails. -/
theorem exec_tx_cases {t : Tx} {r : Except GoError t.Answer}
    (h : exec (.tx t) ch w = some (r, w')) : w'.calls = w.calls ∧
    ((∃ clock a, t.body clock w.rows = .ok (a, w'.rows) ∧ (r = .ok a ∨ ∃ e, r = .error e)) ∨
      (w'.rows = w.rows ∧ ∃ e, r = .error e)) := by
  obtain ⟨out, rows, -, hp, rfl⟩ := exec_tx h
  refine ⟨rfl, ?_⟩
  rcases Tx.perform_cases hp with ⟨clock, a, hbody, ⟨-, hr⟩ | ⟨-, hr⟩⟩ | ⟨hrows, -, hr⟩
  · exact Or.inl ⟨clock, a, hbody, Or.inl hr⟩
  · exact Or.inl ⟨clock, a, hbody, Or.inr hr⟩
  · exact Or.inr ⟨hrows, hr⟩

/-- Only system calls change the tree. -/
theorem exec_files (h : exec o ch w = some (r, w')) (hfs : o.isFs = false) : w'.files = w.files := by
  cases htx : o.isTx with
  | true =>
    cases o with
    | tx t =>
      obtain ⟨_, rows, -, -, rfl⟩ := exec_tx h
      rfl
    | _ => nomatch htx
  | false =>
    obtain ⟨-, -, rfl⟩ := exec_other h hfs htx
    exact remember_files o r w

end Exec

/-! ## What is known of an answer -/

/-- What is known of an answer without knowing the world: the state of the metadata that the
    transactions hand out, and that walking to the root fails with a system call's error. -/
def Truthful : (o : Op) → o.Res → Prop
  | .tx (.claim _), .ok (some m) => m.state = .working
  | .tx (.nextSubmitted _), .ok (some m) => m.state = .submitted
  | .tx (.recover _), .ok snap =>
    (∀ m ∈ snap.requeued, m.state = .queued) ∧ ∀ m ∈ snap.submitted, m.state = .submitted
  | .openRoot, .error e => e.asRecordCorruptionError = none
  | _, _ => True

theorem exec_truthful [Unicode] {o : Op} {ch : Choice} {w w' : World} {r : o.Res}
    (h : exec o ch w = some (r, w')) : Truthful o r := by
  cases o with
  | tx t =>
    obtain ⟨out, rows, -, hp, -⟩ := exec_tx h
    rcases Tx.perform_cases hp with ⟨clock, a, hbody, ⟨-, rfl⟩ | ⟨-, e, rfl⟩⟩ | ⟨-, -, e, rfl⟩
    · cases t with
      | claim now =>
        rcases claimBody_ok hbody with ⟨rfl, -⟩ | ⟨row, row', rfl, -⟩
        · trivial
        · exact rfl
      | nextSubmitted now =>
        obtain ⟨-, ⟨rfl, -⟩ | ⟨row, rfl, -, -, hs, -⟩⟩ := nextSubmittedBody_ok hbody
        · trivial
        · exact hs
      | recover now =>
        have hrec := recoverBody_ok hbody
        refine ⟨fun m hm => ?_, fun m hm => ?_⟩
        · obtain ⟨row, stamp, -, -, rfl⟩ := hrec.requeued m hm
          rfl
        · obtain ⟨row, -, hstate, rfl⟩ := hrec.submitted m hm
          exact hstate
      | _ => trivial
    · cases t <;> trivial
    · cases t <;> trivial
  | openRoot =>
    obtain ⟨ha, -, -⟩ := exec_other h rfl rfl
    cases ch with
    | opened =>
      cases ha
      trivial
    | notOpened before e =>
      cases ha
      rfl
    | _ => nomatch ha
  | _ => trivial

/-! ## A small world -/

/-- An identifier. -/
def sampleID : GoString := lit "01234567-89ab-4cde-8f01-23456789abcd"

/-- The columns of a record that was enqueued at millisecond 1000. -/
def sampleColumns (st : State) : Columns :=
  ⟨sampleID, st, 0, 1000, none, none, none, none, none, none, none, none, 1000, 1000⟩

/-- A record that has been working since second 1. -/
def sampleWorkingRow : Row := ⟨sampleColumns .working, by decide⟩

/-- A table with a record in state `working`. -/
def sampleWorking : Records := ⟨[sampleWorkingRow], by decide⟩

/-- What the outside does when nothing goes wrong: it is always second 2, every random number is the
    same, and the provider answers as given. -/
def calm (submitted : Except GoError SubmissionResult) (polled : Except GoError SubmissionStatus) :
    Op → Choice
  | .now => .time (2 * second)
  | .ctxErr => .context none
  | .sleep _ => .context none
  | .newID => .random (Vector.replicate 16 0)
  | .suffix => .random (Vector.replicate 16 0)
  | .openRoot => .opened
  | .openDatabase => .opened
  | .fs _ => .call .go
  | .tx _ => .tx (.run fun _ => 2 * second)
  | .submit _ _ => .submitted submitted
  | .poll _ _ => .polled polled

/-- The same at another time. -/
def calmAt (now : Int) (submitted : Except GoError SubmissionResult)
    (polled : Except GoError SubmissionStatus) : Op → Choice
  | .now => .time now
  | o => calm submitted polled o

/-- A store in an empty directory. -/
def sampleWorld (rows : Records) : World := ⟨⟨[([], .dir)], by
  intro p n h
  have : p ++ [n] ≠ [] := by simp
  simp [Files.lookup] at h⟩, rows, [sampleID], []⟩

/-- A step of the spool that was taken. -/
abbrev SpoolEvent := Event spoolSig Choice World

/-- A run of a program of the spool, with its events. -/
abbrev Trace := List SpoolEvent

end SmtpCloudRelay.Spool
