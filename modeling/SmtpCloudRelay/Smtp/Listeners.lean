/-
  STARTING AND STOPPING THE SMTP SERVER, with any number of calls at once.

  `Start`, `Shutdown` and `Close` are programs of the atomic steps that the code takes: every block
  under one of the two locks, every bind, every close of a listener or of a go-smtp server, every
  operation of the wait group, and every start of a goroutine.  The goroutines that `Start` starts are
  threads as well: such a thread waits until one has been started, and then runs its body.  A pool of
  such threads has all the interleavings.

  Of go-smtp it is assumed that `Close` closes the listeners that `Serve` has registered so far and
  marks the server as closed, and that a `Serve` which starts after that keeps accepting as long as its
  listener is open.

  What a thread has done is a `Progress`, computed from its own steps.  The results:

  * one `Start` at most gets past the single-use check, whatever else is going on, and the two
    channels are closed once at most;
  * a `Shutdown` that returns nil has stopped the server for good WHEN, at the moment it takes the list
    of listeners, no `Start` is between the check and the publication of its listeners, and every
    open listener that still waits for its goroutine is in the list (`shutdown_stops`);
  * otherwise it need not have: a `Shutdown` between the check and the publication finds nothing to
    close and nothing to wait for (`early_shutdown_stops_nothing`).
-/
import SmtpCloudRelay.Errors
import SmtpCloudRelay.Lib.Pool

namespace SmtpCloudRelay.Smtp.Listening

open Go Lib Act List Pool

/-! ## The server -/

/-- The two go-smtp servers that there may be. -/
inductive Name where
  | smtp
  | smtps
  deriving DecidableEq

/-- The name that the log and the errors have for it. -/
def Name.text : Name → GoString
  | .smtp => lit "smtp"
  | .smtps => lit "smtps"

/-- `smtp.managedListener`: a listener is the number it was bound with. -/
structure Managed where
  name : Name
  ln : Nat
  deriving DecidableEq

/-- The addresses of the servers that are configured. -/
structure Addrs where
  smtp : Option GoString
  smtps : Option GoString

/-- A go-smtp server: whether it was closed, and the listeners that `Serve` has registered. -/
structure GoSmtp where
  closed : Bool
  registered : List Nat

/-- `smtp.Server`, with the listeners of the process and the goroutines that were started. -/
structure Server where
  started : Bool
  readyOnce : Bool
  /-- How often `readyCh` was closed. -/
  readyCloses : Nat
  /-- How often `startDoneCh` was closed. -/
  startDoneCloses : Nat
  /-- The field `listeners`. -/
  listeners : List Nat
  serveWG : Nat
  servers : Name → GoSmtp
  /-- The number of the next listener. -/
  bound : Nat
  /-- The listeners that are open. -/
  live : List Nat
  /-- The goroutines that were started and have not begun to run. -/
  spawned : List Managed
  /-- The listeners of the `Serve` calls that are running. -/
  serving : List Nat
  /-- What is in `errCh`. -/
  errCh : List GoError

/-- A new server. -/
def Server.new : Server :=
  ⟨false, false, 0, 0, [], 0, fun _ => ⟨false, []⟩, 0, [], [], [], []⟩

/-- **The server accepts connections**: some `Serve` runs on a listener that is open. -/
def Accepting (s : Server) : Prop := ∃ ln ∈ s.serving, ln ∈ s.live

/-! ## The steps -/

/-- A context: one that the caller may cancel, or `context.Background()`. -/
inductive Ctx where
  | caller
  | background
  deriving DecidableEq

/-- The atomic steps. -/
inductive Op where
  /-- `beginStart`. -/
  | beginStart
  /-- `net.Listen`. -/
  | listen (n : Name)
  /-- `storeManagedListeners`. -/
  | storeManagedListeners (lns : List Nat)
  /-- The locked block of `closeManagedListeners`. -/
  | takeListeners
  /-- `listener.Close()`. -/
  | closeListener (ln : Nat)
  /-- `Close` of a go-smtp server. -/
  | closeServer (n : Name)
  /-- `serveWG.Add(1)`. -/
  | addServe
  /-- The statement `go`. -/
  | go (l : Managed)
  /-- `readyOnce.Do(close)`. -/
  | closeReady
  /-- The `select` of `Shutdown`. -/
  | awaitServe (ctx : Ctx)
  /-- The `select` of `Start`. -/
  | awaitEnd (ctx : Ctx)
  /-- `markStartDone`. -/
  | markStartDone
  /-- The locked block of `waitForStartDone`. -/
  | readStarted
  /-- The receive of `waitForStartDone`. -/
  | awaitStartDone
  /-- A goroutine that was started begins to run. -/
  | goroutine
  /-- `Serve` begins: it registers its listener. -/
  | register (l : Managed)
  /-- `Serve` accepts, or returns. -/
  | accept (l : Managed)
  /-- `errCh <- err`. -/
  | sendErr (e : GoError)
  /-- `serveWG.Done()`. -/
  | doneServe

/-- How the `select` of `Start` goes on. -/
inductive End where
  | failed (e : GoError)
  | served
  | canceled

/-- What the steps answer.  An `Option GoError` is a Go error that may be nil. -/
def Op.Res : Op → Type
  | .beginStart => Option GoError
  | .listen _ => Except GoError Nat
  | .takeListeners => List Nat
  | .closeListener _ => Option GoError
  | .closeServer _ => Option GoError
  | .awaitServe _ => Option GoError
  | .awaitEnd _ => End
  | .readStarted => Bool
  | .goroutine => Managed
  | .accept _ => Option (Option GoError)
  | _ => Unit

/-- The signature of the server's calls. -/
abbrev listenSig : Sig := ⟨Op, Op.Res⟩

/-- What the outside decides. -/
inductive Choice where
  /-- Nothing goes wrong. -/
  | ok
  /-- A call fails with an error. -/
  | fail (e : GoError)
  /-- A context has ended. -/
  | expired (e : GoError)
  /-- Which goroutine begins to run. -/
  | pick (i : Nat)

/-- The error that a choice reports. -/
def Choice.report : Choice → Option GoError
  | .fail e => some e
  | _ => none

/-- `smtp.ErrServerAlreadyStarted`. -/
def errServerAlreadyStarted : GoError :=
  .errorf "smtp server is single-use and has already been started"

/-- `gosmtp.Server.Close`: it closes the listeners that are registered. -/
def closeServer (n : Name) (s : Server) : Server :=
  { s with
    servers := fun m => if m = n then { s.servers n with closed := true } else s.servers m
    live := s.live.filter (· ∉ (s.servers n).registered) }

/-- A step of the server.  Closing a listener closes it, whatever is reported; closing a go-smtp server
    a second time may do nothing. -/
def exec : (o : Op) → Choice → Server → Option (o.Res × Server)
  | .beginStart, .ok, s =>
    if s.started then some (some errServerAlreadyStarted, s)
    else some (none, { s with started := true })
  | .listen _, .ok, s =>
    some (.ok s.bound, { s with bound := s.bound + 1, live := s.bound :: s.live })
  | .listen _, .fail e, s => some (.error e, s)
  | .storeManagedListeners lns, .ok, s => some ((), { s with listeners := lns })
  | .takeListeners, .ok, s => some (s.listeners, { s with listeners := [] })
  | .closeListener ln, c, s => some (c.report, { s with live := s.live.filter (· ≠ ln) })
  | .closeServer n, c, s =>
    if (s.servers n).closed ∧ c.report.isSome then some (c.report, s)
    else some (c.report, closeServer n s)
  | .addServe, .ok, s => some ((), { s with serveWG := s.serveWG + 1 })
  | .go l, .ok, s => some ((), { s with spawned := l :: s.spawned })
  | .closeReady, .ok, s =>
    if s.readyOnce then some ((), s)
    else some ((), { s with readyOnce := true, readyCloses := s.readyCloses + 1 })
  | .awaitServe _, .ok, s => if s.serveWG = 0 then some (none, s) else none
  | .awaitServe .caller, .expired e, s => some (some e, s)
  | .awaitEnd _, .fail _, s =>
    match s.errCh with
    | e' :: rest => some (.failed e', { s with errCh := rest })
    | [] => none
  | .awaitEnd _, .ok, s => if s.serveWG = 0 then some (.served, s) else none
  | .awaitEnd .caller, .expired _, s => some (.canceled, s)
  | .markStartDone, .ok, s => some ((), { s with startDoneCloses := s.startDoneCloses + 1 })
  | .readStarted, .ok, s => some (s.started, s)
  | .awaitStartDone, .ok, s => if 0 < s.startDoneCloses then some ((), s) else none
  | .goroutine, .pick i, s =>
    match s.spawned[i]? with
    | some l => some (l, { s with spawned := s.spawned.eraseIdx i })
    | none => none
  | .register l, .ok, s =>
    some ((), { s with
      servers := fun m => if m = l.name then
        { s.servers m with registered := l.ln :: (s.servers m).registered } else s.servers m
      serving := l.ln :: s.serving })
  | .accept l, .ok, s => if l.ln ∈ s.serving ∧ l.ln ∈ s.live then some (none, s) else none
  | .accept l, .fail e, s =>
    if l.ln ∈ s.serving then
      some (some (if (s.servers l.name).closed then none else some e),
        { s with serving := s.serving.erase l.ln })
    else none
  | .sendErr e, .ok, s => some ((), { s with errCh := s.errCh ++ [e] })
  | .doneServe, .ok, s => if 0 < s.serveWG then some ((), { s with serveWG := s.serveWG - 1 }) else none
  | _, _, _ => none

/-- What a step does, case by case. -/
inductive Does (s : Server) : (o : Op) → o.Res → Server → Prop where
  | refused (h : s.started = true) : Does s .beginStart (some errServerAlreadyStarted) s
  | passed (h : s.started = false) : Does s .beginStart none { s with started := true }
  | bound (n : Name) : Does s (.listen n) (.ok s.bound)
      { s with bound := s.bound + 1, live := s.bound :: s.live }
  | unbound (n : Name) (e : GoError) : Does s (.listen n) (.error e) s
  | stored (lns : List Nat) : Does s (.storeManagedListeners lns) () { s with listeners := lns }
  | taken : Does s .takeListeners s.listeners { s with listeners := [] }
  | closed (ln : Nat) (err : Option GoError) :
      Does s (.closeListener ln) err { s with live := s.live.filter (· ≠ ln) }
  | closedAgain (n : Name) (err : Option GoError) : Does s (.closeServer n) err s
  | closedServer (n : Name) (err : Option GoError) : Does s (.closeServer n) err (closeServer n s)
  | added : Does s .addServe () { s with serveWG := s.serveWG + 1 }
  | spawned (l : Managed) : Does s (.go l) () { s with spawned := l :: s.spawned }
  | readyAgain (h : s.readyOnce = true) : Does s .closeReady () s
  | ready (h : s.readyOnce = false) :
      Does s .closeReady () { s with readyOnce := true, readyCloses := s.readyCloses + 1 }
  | waited (ctx : Ctx) (h : s.serveWG = 0) : Does s (.awaitServe ctx) none s
  | expired (ctx : Ctx) (e : GoError) : Does s (.awaitServe ctx) (some e) s
  | ended (ctx : Ctx) (r : End) (errs : List GoError) :
      Does s (.awaitEnd ctx) r { s with errCh := errs }
  | marked : Does s .markStartDone () { s with startDoneCloses := s.startDoneCloses + 1 }
  | read : Does s .readStarted s.started s
  | startDone : Does s .awaitStartDone () s
  | begun (l : Managed) (i : Nat) (h : s.spawned[i]? = some l) :
      Does s .goroutine l { s with spawned := s.spawned.eraseIdx i }
  | registered (l : Managed) (servers : Name → GoSmtp) :
      Does s (.register l) () { s with servers := servers, serving := l.ln :: s.serving }
  | accepted (l : Managed) : Does s (.accept l) none s
  | returned (l : Managed) (err : Option GoError) (h : l.ln ∈ s.serving) :
      Does s (.accept l) (some err) { s with serving := s.serving.erase l.ln }
  | sent (e : GoError) (errs : List GoError) : Does s (.sendErr e) () { s with errCh := errs }
  | done (h : 0 < s.serveWG) : Does s .doneServe () { s with serveWG := s.serveWG - 1 }

/-- **What a step does is one of these.** -/
theorem exec_does {o : Op} {c : Choice} {s s' : Server} {r : o.Res}
    (h : exec o c s = some (r, s')) : Does s o r s' := by
  cases o with
  | beginStart =>
    cases c with
    | ok =>
      cases hs : s.started with
      | true =>
        simp only [exec, hs, if_true] at h
        cases h
        exact .refused hs
      | false =>
        simp only [exec, hs, Bool.false_eq_true, if_false] at h
        cases h
        exact .passed hs
    | _ => nomatch h
  | listen n =>
    cases c with
    | ok => cases h; exact .bound n
    | fail e => cases h; exact .unbound n e
    | _ => nomatch h
  -- the steps that go one way
  | storeManagedListeners lns | takeListeners | addServe | go l | markStartDone | readStarted
  | register l | sendErr e =>
    cases c with
    | ok => cases h; constructor
    | _ => nomatch h
  | closeListener ln =>
    cases c with
    | ok | fail e | expired e | pick i => cases h; exact .closed ln _
  | closeServer n =>
    have h' : (if (s.servers n).closed = true ∧ c.report.isSome = true then some (c.report, s)
        else some (c.report, closeServer n s)) = some (r, s') := by
      cases c with
      | ok | fail e | expired e | pick i => exact h
    split at h'
    · cases h'
      exact .closedAgain n _
    · cases h'
      exact .closedServer n _
  | closeReady =>
    cases c with
    | ok =>
      cases hs : s.readyOnce with
      | true =>
        simp only [exec, hs, if_true] at h
        cases h
        exact .readyAgain hs
      | false =>
        simp only [exec, hs, Bool.false_eq_true, if_false] at h
        cases h
        exact .ready hs
    | _ => nomatch h
  | awaitServe ctx =>
    cases c with
    | ok =>
      obtain ⟨hwg, hs⟩ := Option.ite_none_right_eq_some.mp h
      cases hs
      exact .waited ctx hwg
    | expired e =>
      cases ctx with
      | caller => cases h; exact .expired .caller e
      | background => nomatch h
    | _ => nomatch h
  | awaitEnd ctx =>
    cases c with
    | ok =>
      obtain ⟨-, hs⟩ := Option.ite_none_right_eq_some.mp h
      cases hs
      exact .ended ctx _ s.errCh
    | fail e =>
      cases herr : s.errCh with
      | nil => simp only [exec, herr] at h; nomatch h
      | cons e' rest =>
        simp only [exec, herr] at h
        cases h
        exact .ended ctx _ rest
    | expired e =>
      cases ctx with
      | caller => cases h; exact .ended .caller _ s.errCh
      | background => nomatch h
    | _ => nomatch h
  | awaitStartDone =>
    cases c with
    | ok =>
      obtain ⟨-, hs⟩ := Option.ite_none_right_eq_some.mp h
      cases hs
      exact .startDone
    | _ => nomatch h
  | goroutine =>
    cases c with
    | pick i =>
      cases hi : s.spawned[i]? with
      | none => simp only [exec, hi] at h; nomatch h
      | some l =>
        simp only [exec, hi] at h
        cases h
        exact .begun _ i hi
    | _ => nomatch h
  | accept l =>
    cases c with
    | ok =>
      obtain ⟨-, hs⟩ := Option.ite_none_right_eq_some.mp h
      cases hs
      exact .accepted l
    | fail e =>
      obtain ⟨hmem, hs⟩ := Option.ite_none_right_eq_some.mp h
      cases hs
      exact .returned l _ hmem
    | _ => nomatch h
  | doneServe =>
    cases c with
    | ok =>
      obtain ⟨hwg, hs⟩ := Option.ite_none_right_eq_some.mp h
      cases hs
      exact .done hwg
    | _ => nomatch h

/-! ## The calls -/

/-- A program of the server. -/
abbrev Job (α : Type) := Act listenSig GoError α

/-- One step. -/
def atomic (o : Op) : Job o.Res := Act.op (S := listenSig) o

/-- `net.ErrClosed`. -/
def netErrClosed : GoError := .foreign .plain (lit "use of closed network connection")

/-- `gosmtp.ErrServerClosed`. -/
def errServerClosed : GoError := .foreign .plain (lit "smtp: server already closed")

section Calls

variable [Unicode]

/-- `smtp.isClosedServerError`, for an error that is not nil. -/
def isClosedServerError (e : GoError) : Bool :=
  e.is netErrClosed || e.is errServerClosed || decide (lit "closed" <:+: toLower e.error)

/-- Keep the first error that is not about something closed already. -/
def keepFirst (first err : Option GoError) : Option GoError :=
  match err with
  | some e => if isClosedServerError e = false ∧ first = none then some e else first
  | none => first

/-- The loop of `closeManagedListeners`. -/
def closeListeners (firstErr : Option GoError) : List Nat → Job (Option GoError)
  | [] => pure firstErr
  | ln :: lns => do
    let err ← atomic (.closeListener ln)
    closeListeners (keepFirst firstErr err) lns

/-- `closeManagedListeners`. -/
def closeManagedListeners : Job (Option GoError) := do
  let listeners ← atomic .takeListeners
  closeListeners none listeners

/-- One branch of `closeServers`. -/
def closeConfigured (addr : Option GoString) (n : Name) (firstErr : Option GoError) :
    Job (Option GoError) :=
  match addr with
  | none => pure firstErr
  | some _ => do
    let err ← atomic (.closeServer n)
    pure (keepFirst firstErr err)

/-- `closeServers`. -/
def closeServers (addrs : Addrs) : Job (Option GoError) := do
  let firstErr ← closeConfigured addrs.smtp .smtp none
  closeConfigured addrs.smtps .smtps firstErr

/-- `Server.Shutdown`. -/
def shutdown (addrs : Addrs) (ctx : Ctx) : Job Unit := do
  let err1 ← closeManagedListeners
  let err2 ← closeServers addrs
  let firstErr := keepFirst (keepFirst none err1) err2
  let expired ← atomic (.awaitServe ctx)
  match firstErr, expired with
  | some e, _ => .fail e
  | none, some e => .fail e
  | none, none => pure ()

/-- `waitForStartDone`. -/
def waitForStartDone : Job Unit := do
  let (started : Bool) ← atomic .readStarted
  if started then atomic .awaitStartDone else pure ()

/-- `Server.Close`. -/
def close (addrs : Addrs) : Job Unit := do
  shutdown addrs .background
  waitForStartDone

/-- The clean-up after the second bind has failed. -/
def closeQuietly : List Managed → Job Unit
  | [] => pure ()
  | l :: ls => do
    let _ ← atomic (.closeListener l.ln)
    closeQuietly ls

/-- The error of a bind that failed. -/
def bindError (n : Name) (addr : GoString) (e : GoError) : GoError :=
  .wrap (lit "bind " ++ n.text ++ lit " listener " ++ quote addr ++ lit ": ") e

/-- One bind of `Start`: where it fails, what was bound before is closed. -/
def bindNext (addr : Option GoString) (n : Name) (before : List Managed) : Job (List Managed) :=
  match addr with
  | none => pure before
  | some addr => do
    let bound ← atomic (.listen n)
    match bound with
    | .ok ln => pure (before ++ [⟨n, ln⟩])
    | .error e => do
      closeQuietly before
      .fail (bindError n addr e)

/-- The loop of `Start` over its listeners. -/
def launch : List Managed → Job Unit
  | [] => pure ()
  | l :: ls => do
    atomic .addServe
    atomic (.go l)
    launch ls

/-- `Server.Start` after the single-use check. -/
def run (addrs : Addrs) (ctx : Ctx) : Job Unit := do
  let first ← bindNext addrs.smtp .smtp []
  let listeners ← bindNext addrs.smtps .smtps first
  atomic (.storeManagedListeners (listeners.map Managed.ln))
  launch listeners
  atomic .closeReady
  let ended ← atomic (.awaitEnd ctx)
  match ended with
  | .failed e => do
    (shutdown addrs .background).ignore
    .fail e
  | .served => pure ()
  | .canceled => (shutdown addrs .background).ignore

/-- `Server.Start`. -/
def start (addrs : Addrs) (ctx : Ctx) : Job Unit := do
  if addrs.smtp = none ∧ addrs.smtps = none then .fail (.errorf "no smtp listeners configured")
  else do
    let refused ← atomic .beginStart
    match refused with
    | some e => .fail e
    | none => do
      let out ← (run addrs ctx).attempt
      atomic .markStartDone
      match out with
      | .ok _ => pure ()
      | .error e => .fail e

/-- The accept loop of go-smtp's `Serve`: what it returns. -/
def acceptLoop (l : Managed) : Job (Option GoError) :=
  forever (fun _ => do
    let got ← atomic (.accept l)
    match got with
    | none => pure (.inl ())
    | some r => pure (.inr r)) ()

/-- The goroutine of a listener. -/
def serve : Job Unit := do
  let l ← atomic .goroutine
  atomic (.register l)
  let err ← acceptLoop l
  match err with
  | none => atomic .doneServe
  | some e => do
    if isClosedServerError e then pure ()
    else atomic (.sendErr (.wrap (l.name.text ++ lit " serve: ") e))
    atomic .doneServe

/-- The calls on one server, and the goroutines. -/
inductive Call where
  | start (ctx : Ctx)
  | shutdown (ctx : Ctx)
  | close
  | serve

/-- Their programs. -/
def Call.run (addrs : Addrs) : Call → Prog listenSig (Except GoError Unit)
  | .start ctx => Listening.start addrs ctx
  | .shutdown ctx => Listening.shutdown addrs ctx
  | .close => Listening.close addrs
  | .serve => Listening.serve

end Calls

/-! ## What a thread has done -/

/-- A `Shutdown`: not begun; it has taken the listeners, `todo` of them are still to be closed, and so
    far no error counts (`clean`); it has returned nil; or it has failed. -/
inductive Stage where
  | outside
  | closing (todo : List Nat) (clean : Bool)
  | stopped
  | failed

/-- The body of a goroutine: not begun; it has its listener; `Serve` runs; `Serve` has returned; or the
    wait group has been told. -/
inductive Body where
  | waiting
  | carrying (ln : Nat)
  | serving (ln : Nat)
  | left
  | finished

/-- What a thread has done. -/
structure Progress where
  /-- It is a `Start` that got past the single-use check. -/
  passed : Bool
  /-- It has closed `startDoneCh`. -/
  marked : Bool
  /-- It has got past the check, and has neither published its listeners nor given up. -/
  binding : Bool
  /-- The published listeners that have no goroutine yet. -/
  toServe : List Nat
  /-- The wait group counts the next goroutine already. -/
  added : Bool
  stage : Stage
  body : Body

/-- An error that `Shutdown` does not report. -/
def harmless [Unicode] : Option GoError → Bool
  | none => true
  | some e => isClosedServerError e

/-- The listener that was closed is done. -/
def Stage.close [Unicode] (err : Option GoError) : Stage → Stage
  | .closing (_ :: todo) clean => .closing todo (clean && harmless err)
  | s => s

/-- A go-smtp server was closed. -/
def Stage.closeServer [Unicode] (err : Option GoError) : Stage → Stage
  | .closing todo clean => .closing todo (clean && harmless err)
  | s => s

/-- The `select` of `Shutdown` has returned. -/
def Stage.wait (expired : Option GoError) : Stage → Stage
  | .closing _ true => if expired = none then .stopped else .failed
  | .closing _ false => .failed
  | s => s

namespace Progress

/-- Nothing yet. -/
def fresh : Progress := ⟨false, false, false, [], false, .outside, .waiting⟩

variable [Unicode]

/-- A step, with its answer. -/
def after (κ : Progress) : (o : Op) → o.Res → Progress
  | .beginStart, none => { κ with passed := true, binding := true }
  | .storeManagedListeners lns, _ => { κ with binding := false, toServe := lns }
  | .takeListeners, lns => { κ with stage := .closing lns true }
  | .closeListener _, err => { κ with stage := κ.stage.close err }
  | .closeServer _, err => { κ with stage := κ.stage.closeServer err }
  | .addServe, _ => { κ with added := true }
  | .go _, _ => { κ with added := false, toServe := κ.toServe.tail }
  | .awaitServe _, expired => { κ with stage := κ.stage.wait expired }
  | .markStartDone, _ => { κ with marked := true, binding := false }
  | .goroutine, l => { κ with body := .carrying l.ln }
  | .register l, _ => { κ with body := .serving l.ln }
  | .accept _, some _ => { κ with body := .left }
  | .doneServe, _ => { κ with body := .finished }
  | _, _ => κ

/-- The steps that a thread takes, given what it has done. -/
def ok (κ : Progress) : Op → Prop
  | .beginStart => κ.passed = false ∧ κ.marked = false
  | .listen _ => κ.binding = true ∧ κ.passed = true
  | .storeManagedListeners _ => κ.binding = true
  | .takeListeners => κ.stage = .outside
  | .closeListener ln => κ.stage = .outside ∨ ∃ todo clean, κ.stage = .closing (ln :: todo) clean
  | .closeServer _ => ∃ clean, κ.stage = .closing [] clean
  | .addServe => κ.added = false
  | .go l => κ.added = true ∧ κ.toServe.head? = some l.ln
  | .awaitServe _ => ∃ clean, κ.stage = .closing [] clean
  | .markStartDone => κ.passed = true ∧ κ.marked = false
  | .goroutine => κ.body = .waiting
  | .register l => κ.body = .carrying l.ln
  | .accept l => κ.body = .serving l.ln
  | .doneServe => κ.body = .left
  | _ => True

/-- The rules that all the threads keep to. -/
def rules : Rules listenSig Progress := ⟨fresh, ok, after⟩

end Progress

section Threads

variable [Unicode] {α β : Type} {κ : Progress}

theorem atomic_bind {o : Op} {f : o.Res → Job β} {Q : Except GoError β → Progress → Prop}
    (hok : κ.ok o) (h : ∀ r, (f r).Safe Progress.rules.proto Q (κ.after o r)) :
    (atomic o >>= f).Safe Progress.rules.proto Q κ :=
  Safe.op_bind (S := listenSig) hok fun r κ' hnext => by
    cases hnext
    exact h r

theorem atomic_safe {o : Op} {Q : Except GoError o.Res → Progress → Prop} (hok : κ.ok o)
    (h : ∀ r, Q (.ok r) (κ.after o r)) : (atomic o).Safe Progress.rules.proto Q κ :=
  ⟨hok, fun r κ' hnext => by
    cases hnext
    exact h r⟩

/-- The first error that counts, and whether there is none. -/
inductive Counts : Option GoError → Bool → Prop where
  | clean : Counts none true
  | error {e : GoError} (h : isClosedServerError e = false) : Counts (some e) false

variable {first : Option GoError} {clean : Bool}

theorem Counts.keepFirst (h : Counts first clean) (err : Option GoError) :
    Counts (keepFirst first err) (clean && harmless err) := by
  cases err with
  | none =>
    rw [show harmless (none : Option GoError) = true from rfl, Bool.and_true]
    exact h
  | some e =>
    cases he : isClosedServerError e with
    | true =>
      rw [show harmless (some e) = true from he, Bool.and_true]
      show Counts (if isClosedServerError e = false ∧ first = none then some e else first) clean
      rw [if_neg fun hboth => Bool.false_ne_true (hboth.1.symm.trans he)]
      exact h
    | false =>
      rw [show harmless (some e) = false from he, Bool.and_false]
      show Counts (if isClosedServerError e = false ∧ first = none then some e else first) false
      cases h with
      | clean =>
        rw [if_pos ⟨he, rfl⟩]
        exact .error he
      | error h' =>
        rw [if_neg fun hboth => nomatch hboth.2]
        exact .error h'

theorem Counts.harmless_eq {err : Option GoError} (h : Counts err clean) :
    harmless err = clean := by
  cases h with
  | clean => rfl
  | error h => exact h

/-- The loop over the listeners, by induction on those that are left. -/
theorem closeListeners_safe (lns : List Nat) (h : Counts first clean)
    (hκ : κ.stage = .closing lns clean) :
    (closeListeners first lns).Safe Progress.rules.proto (fun out κ' => ∃ err clean,
      out = .ok err ∧ Counts err clean ∧ κ' = { κ with stage := .closing [] clean }) κ := by
  induction lns generalizing first clean κ with
  | nil => exact ⟨first, clean, rfl, h, by rw [← hκ]⟩
  | cons ln lns ih =>
    refine atomic_bind (Or.inr ⟨lns, clean, hκ⟩) fun err => ?_
    have hstage : (κ.after (.closeListener ln) err).stage = .closing lns (clean && harmless err) := by
      show κ.stage.close err = _
      rw [hκ]
      rfl
    exact ih (h.keepFirst err) hstage

theorem closeConfigured_safe (addr : Option GoString) (n : Name) {c : Bool} (h : Counts first clean)
    (hκ : κ.stage = .closing [] (c && clean)) :
    (closeConfigured addr n first).Safe Progress.rules.proto (fun out κ' => ∃ err clean,
      out = .ok err ∧ Counts err clean ∧ κ' = { κ with stage := .closing [] (c && clean) }) κ := by
  cases addr with
  | none => exact ⟨first, clean, rfl, h, by rw [← hκ]⟩
  | some addr =>
    refine atomic_bind ⟨_, hκ⟩ fun err => ?_
    refine ⟨_, _, rfl, h.keepFirst err, ?_⟩
    show { κ with stage := κ.stage.closeServer err } = _
    rw [hκ, ← Bool.and_assoc]
    rfl

theorem closeServers_safe (addrs : Addrs) {c : Bool} (hκ : κ.stage = .closing [] c) :
    (closeServers addrs).Safe Progress.rules.proto (fun out κ' => ∃ err clean,
      out = .ok err ∧ Counts err clean ∧ κ' = { κ with stage := .closing [] (c && clean) }) κ := by
  have hκ' : κ.stage = .closing [] (c && true) := by rw [Bool.and_true]; exact hκ
  refine Safe.bind (closeConfigured_safe addrs.smtp .smtp .clean hκ') ?_ ?_
  · rintro first κ1 ⟨err, clean, hout, hcounts, rfl⟩
    cases hout
    exact closeConfigured_safe (κ := { κ with stage := .closing [] (c && clean) }) addrs.smtps .smtps
      hcounts rfl
  · rintro e κ1 ⟨err, clean, hout, -⟩
    nomatch hout

/-- **`Shutdown` returns nil only after it has closed what it took and waited**, and it changes nothing
    else that its thread has done. -/
theorem shutdown_safe (addrs : Addrs) (ctx : Ctx) (hκ : κ.stage = .outside) :
    (shutdown addrs ctx).Safe Progress.rules.proto (fun out κ' => ∃ stage,
      κ' = { κ with stage := stage } ∧ (out = .ok () → stage = .stopped)) κ := by
  have htake : closeManagedListeners.Safe Progress.rules.proto (fun out κ' => ∃ err clean,
      out = .ok err ∧ Counts err clean ∧ κ' = { κ with stage := .closing [] clean }) κ := by
    refine atomic_bind hκ fun lns => ?_
    exact closeListeners_safe (κ := { κ with stage := .closing lns true }) lns .clean rfl
  refine Safe.bind htake ?_ ?_
  · rintro err1 κ1 ⟨_, clean1, hout, h1, rfl⟩
    cases hout
    refine Safe.bind (closeServers_safe (κ := { κ with stage := .closing [] clean1 }) addrs rfl) ?_ ?_
    · rintro err2 κ2 ⟨_, clean2, hout, h2, rfl⟩
      cases hout
      refine atomic_bind ⟨_, rfl⟩ fun expired => ?_
      have hfirst : Counts (keepFirst (keepFirst none err1) err2) (clean1 && clean2) := by
        have h := (Counts.clean.keepFirst err1).keepFirst err2
        rw [h1.harmless_eq, h2.harmless_eq, Bool.true_and] at h
        exact h
      generalize keepFirst (keepFirst none err1) err2 = first at hfirst
      generalize (clean1 && clean2) = clean at hfirst
      cases hfirst with
      | clean =>
        cases expired with
        | none => exact ⟨.stopped, rfl, fun _ => rfl⟩
        | some e => exact ⟨.failed, rfl, nofun⟩
      | error he => exact ⟨.failed, rfl, nofun⟩
    · rintro e κ2 ⟨_, _, hout, -⟩
      nomatch hout
  · rintro e κ1 ⟨_, _, hout, -⟩
    nomatch hout

theorem closeQuietly_safe (ls : List Managed) (hκ : κ.stage = .outside) :
    (closeQuietly ls).Safe Progress.rules.proto (fun _ κ' => κ' = κ) κ := by
  induction ls with
  | nil => rfl
  | cons l ls ih =>
    refine atomic_bind (Or.inl hκ) fun err => ?_
    have hsame : κ.after (.closeListener l.ln) err = κ := by
      show { κ with stage := κ.stage.close err } = κ
      rw [hκ, show Stage.close err .outside = κ.stage from hκ.symm]
    rw [hsame]
    exact ih

theorem bindNext_safe (addr : Option GoString) (n : Name) (before : List Managed)
    (hκ : κ.stage = .outside) (hbinding : κ.binding = true) (hpassed : κ.passed = true) :
    (bindNext addr n before).Safe Progress.rules.proto (fun _ κ' => κ' = κ) κ := by
  cases addr with
  | none => rfl
  | some addr =>
    refine atomic_bind ⟨hbinding, hpassed⟩ fun bound => ?_
    cases bound with
    | ok ln => rfl
    | error e =>
      refine Safe.bind (closeQuietly_safe before hκ) ?_ fun e κ' h => h
      rintro - κ' rfl
      rfl

/-- The loop over the goroutines, by induction on the listeners that have none yet. -/
theorem launch_safe (ls : List Managed) (hadded : κ.added = false)
    (hls : κ.toServe = ls.map Managed.ln) :
    (launch ls).Safe Progress.rules.proto (fun _ κ' => κ' = { κ with toServe := [] }) κ := by
  induction ls generalizing κ with
  | nil =>
    show κ = { κ with toServe := [] }
    rw [← show κ.toServe = [] from hls]
  | cons l ls ih =>
    refine atomic_bind hadded fun _ => ?_
    refine atomic_bind ⟨rfl, ?_⟩ fun _ => ?_
    · show κ.toServe.head? = _
      rw [hls]
      rfl
    · have hrest := ih (κ := { κ with added := false, toServe := κ.toServe.tail }) rfl
        (by rw [hls]; rfl)
      rw [← hadded] at hrest
      show (launch ls).Safe Progress.rules.proto _
        { κ with added := false, toServe := κ.toServe.tail }
      rw [← hadded]
      exact hrest

/-- `Start` after the check: it stays the one that has passed it. -/
theorem run_safe (addrs : Addrs) (ctx : Ctx) (hκ : κ.stage = .outside) (hbinding : κ.binding = true)
    (hpassed : κ.passed = true) (hadded : κ.added = false) :
    (run addrs ctx).Safe Progress.rules.proto (fun _ κ' => κ'.passed = true ∧ κ'.marked = κ.marked)
      κ := by
  have hshutdown : ∀ {κ1 : Progress}, κ1.stage = .outside →
      ((shutdown addrs .background).ignore : Job Unit).Safe Progress.rules.proto
        (fun _ κ' => κ'.passed = κ1.passed ∧ κ'.marked = κ1.marked) κ1 := by
    intro κ1 h1
    refine Safe.ignore (shutdown_safe addrs .background h1) ?_
    rintro x κ' ⟨stage, rfl, -⟩
    exact ⟨rfl, rfl⟩
  refine Safe.bind (bindNext_safe addrs.smtp .smtp [] hκ hbinding hpassed) ?_ ?_
  · rintro first κ1 rfl
    refine Safe.bind (bindNext_safe addrs.smtps .smtps first hκ hbinding hpassed) ?_ ?_
    · rintro listeners κ2 rfl
      refine atomic_bind hbinding fun _ => ?_
      refine Safe.bind (launch_safe (κ := { κ2 with
        binding := false, toServe := listeners.map Managed.ln }) listeners hadded rfl) ?_ ?_
      · rintro - κ3 rfl
        refine atomic_bind trivial fun _ => atomic_bind trivial fun ended => ?_
        cases ended with
        | failed e =>
          refine Safe.bind (hshutdown hκ) ?_ ?_
          · rintro - κ4 ⟨h, h'⟩
            exact ⟨h.trans hpassed, h'⟩
          · rintro e κ4 ⟨h, h'⟩
            exact ⟨h.trans hpassed, h'⟩
        | served => exact ⟨hpassed, rfl⟩
        | canceled =>
          refine Safe.mono ?_ (hshutdown hκ)
          rintro x κ4 ⟨h, h'⟩
          exact ⟨h.trans hpassed, h'⟩
      · rintro e κ3 rfl
        exact ⟨hpassed, rfl⟩
    · rintro e κ2 rfl
      exact ⟨hpassed, rfl⟩
  · rintro e κ1 rfl
    exact ⟨hpassed, rfl⟩

theorem start_safe (addrs : Addrs) (ctx : Ctx) :
    (start addrs ctx).Safe Progress.rules.proto (fun _ _ => True) Progress.fresh := by
  unfold start
  split
  · trivial
  · refine atomic_bind ⟨rfl, rfl⟩ fun refused => ?_
    cases refused with
    | some e => trivial
    | none =>
      refine Safe.bind (P := fun out κ => κ.passed = true ∧ κ.marked = false)
        (Safe.attempt (run_safe addrs ctx rfl rfl rfl rfl) fun x κ h => h) ?_ fun _ _ _ => trivial
      rintro out κ hκ
      refine atomic_bind hκ fun _ => ?_
      cases out with
      | ok _ | error e => trivial

theorem serve_safe : serve.Safe Progress.rules.proto (fun _ _ => True) Progress.fresh := by
  refine atomic_bind rfl fun l => atomic_bind rfl fun _ => ?_
  have hloop : (acceptLoop l).Safe Progress.rules.proto (fun out κ' => κ'.body = .left)
      { Progress.fresh with body := .serving l.ln } := by
    refine Safe.forever (fun _ κ => κ.body = .serving l.ln) rfl fun _ κ hκ => ?_
    refine atomic_bind hκ fun got => ?_
    cases got with
    | none => exact hκ
    | some r => rfl
  refine Safe.bind hloop ?_ fun _ _ _ => trivial
  intro err κ hκ
  cases err with
  | none => exact atomic_safe (o := .doneServe) (Q := fun _ _ => True) hκ fun _ => trivial
  | some e =>
    have hdone : ∀ {κ' : Progress}, κ'.body = .left →
        (atomic .doneServe : Job Unit).Safe Progress.rules.proto (fun _ _ => True) κ' :=
      fun h => atomic_safe (o := .doneServe) (Q := fun _ _ => True) h fun _ => trivial
    show Safe _ _ (if isClosedServerError e = true then atomic .doneServe
      else atomic (.sendErr (.wrap (l.name.text ++ lit " serve: ") e)) >>= fun _ => atomic .doneServe) κ
    split
    · exact hdone hκ
    · exact atomic_bind trivial fun _ => hdone hκ

/-- What a call has done when it has returned. -/
def Returned : Call → Except GoError Unit → Progress → Prop
  | .shutdown _, .ok _, κ => κ.stage = .stopped
  | .close, .ok _, κ => κ.stage = .stopped
  | _, _, _ => True

/-- **All the calls keep to the rules**, and a `Shutdown` or `Close` that returns nil has stopped. -/
theorem call_safe (addrs : Addrs) (t : Call) :
    (t.run addrs).Safe Progress.rules.proto (Returned t) Progress.rules.init := by
  cases t with
  | start ctx => exact Prog.Safe.mono (fun _ _ _ => trivial) (start_safe addrs ctx)
  | shutdown ctx =>
    refine Safe.mono ?_ (shutdown_safe addrs ctx rfl)
    rintro (e | _) κ ⟨stage, rfl, hstage⟩
    · trivial
    · exact hstage rfl
  | close =>
    refine Safe.bind (shutdown_safe addrs .background rfl) ?_ fun _ _ _ => trivial
    rintro _ κ ⟨stage, rfl, hstage⟩
    obtain rfl := hstage rfl
    refine atomic_bind trivial fun started => ?_
    cases started with
    | true => exact atomic_safe (o := .awaitStartDone) (Q := Returned .close) trivial fun _ => rfl
    | false => rfl
  | serve => exact Prog.Safe.mono (fun _ _ _ => trivial) serve_safe

end Threads

/-! ## Any number of calls at once -/

/-- A server and the threads that work on it. -/
abbrev ServerPool := Pool listenSig Choice Server Call (Except GoError Unit)

/-- A thread that works on it. -/
abbrev ServerThread := Thread listenSig Choice Server Call (Except GoError Unit)

/-- A goroutine that is counted by the wait group and is not in `Serve`. -/
def Body.busy : Body → Nat
  | .carrying _ => 1
  | .left => 1
  | _ => 0

section Accounts

variable [Unicode] {κ : Progress} {o : Op} {s s' : Server} {r : o.Res}

/-- The single-use check is passed by the one that sets `started`. -/
theorem account_passed (hok : κ.ok o) (h : Does s o r s') :
    s'.started.toNat + κ.passed.toNat = s.started.toNat + (κ.after o r).passed.toNat := by
  cases h with
  | passed hs =>
    have hp : κ.passed = false := hok.1
    rw [hs, hp]
    rfl
  | _ => rfl

/-- `startDoneCh` is closed by the one that has passed the check, once. -/
theorem account_marked (hok : κ.ok o) (h : Does s o r s') :
    s'.started.toNat + s.startDoneCloses + (κ.passed && !κ.marked).toNat =
      s.started.toNat + s'.startDoneCloses + ((κ.after o r).passed && !(κ.after o r).marked).toNat := by
  cases h with
  | passed hs =>
    obtain ⟨hp, hm⟩ : κ.passed = false ∧ κ.marked = false := hok
    show 1 + s.startDoneCloses + (κ.passed && !κ.marked).toNat =
      s.started.toNat + s.startDoneCloses + (true && !κ.marked).toNat
    rw [hs, hp, hm, Bool.false_and, Bool.not_false, Bool.true_and, Bool.toNat_true, Bool.toNat_false]
    omega
  | marked =>
    obtain ⟨hp, hm⟩ : κ.passed = true ∧ κ.marked = false := hok
    show s.started.toNat + s.startDoneCloses + (κ.passed && !κ.marked).toNat =
      s.started.toNat + (s.startDoneCloses + 1) + (κ.passed && !true).toNat
    rw [hp, hm, Bool.not_false, Bool.true_and, Bool.not_true, Bool.and_false, Bool.toNat_true,
      Bool.toNat_false]
    omega
  | _ => rfl

omit [Unicode] in
/-- `readyCh` is closed when `readyOnce` is set. -/
theorem account_ready (h : Does s o r s') :
    s'.readyCloses + s.readyOnce.toNat + 0 = s.readyCloses + s'.readyOnce.toNat + 0 := by
  cases h with
  | ready hs =>
    show s.readyCloses + 1 + s.readyOnce.toNat + 0 = s.readyCloses + Bool.toNat true + 0
    rw [hs]
    rfl
  | _ => rfl

/-- The wait group counts the goroutines: those that were started, those that are in `Serve`, and those
    that a thread is about to start, to serve or to finish. -/
theorem account_serve (hok : κ.ok o) (h : Does s o r s') :
    s'.serveWG + (s.spawned.length + s.serving.length) + (κ.added.toNat + κ.body.busy) =
      s.serveWG + (s'.spawned.length + s'.serving.length) +
        ((κ.after o r).added.toNat + (κ.after o r).body.busy) := by
  cases h with
  | added =>
    have hadded : κ.added = false := hok
    show s.serveWG + 1 + (s.spawned.length + s.serving.length) + (κ.added.toNat + κ.body.busy) =
      s.serveWG + (s.spawned.length + s.serving.length) + (Bool.toNat true + κ.body.busy)
    rw [hadded, Bool.toNat_true, Bool.toNat_false]
    omega
  | spawned l =>
    have hadded : κ.added = true := hok.1
    show s.serveWG + (s.spawned.length + s.serving.length) + (κ.added.toNat + κ.body.busy) =
      s.serveWG + (s.spawned.length + 1 + s.serving.length) + (Bool.toNat false + κ.body.busy)
    rw [hadded, Bool.toNat_true, Bool.toNat_false]
    omega
  | begun l i hi =>
    have hbody : κ.body = .waiting := hok
    have hlt : i < s.spawned.length := (List.getElem?_eq_some_iff.mp hi).1
    have hlen : (s.spawned.eraseIdx i).length + 1 = s.spawned.length := by
      rw [length_eraseIdx_of_lt hlt]
      omega
    show s.serveWG + (s.spawned.length + s.serving.length) + (κ.added.toNat + κ.body.busy) =
      s.serveWG + ((s.spawned.eraseIdx i).length + s.serving.length) + (κ.added.toNat + 1)
    rw [hbody, show Body.busy .waiting = 0 from rfl]
    omega
  | registered l servers =>
    have hbody : κ.body = .carrying l.ln := hok
    show s.serveWG + (s.spawned.length + s.serving.length) + (κ.added.toNat + κ.body.busy) =
      s.serveWG + (s.spawned.length + (s.serving.length + 1)) + (κ.added.toNat + 0)
    rw [hbody, show Body.busy (.carrying l.ln) = 1 from rfl]
    omega
  | returned l err hmem =>
    have hbody : κ.body = .serving l.ln := hok
    have hlen : (s.serving.erase l.ln).length + 1 = s.serving.length := by
      have hpos := length_pos_of_mem hmem
      rw [length_erase_of_mem hmem]
      omega
    show s.serveWG + (s.spawned.length + s.serving.length) + (κ.added.toNat + κ.body.busy) =
      s.serveWG + (s.spawned.length + (s.serving.erase l.ln).length) + (κ.added.toNat + 1)
    rw [hbody, show Body.busy (.serving l.ln) = 0 from rfl]
    omega
  | done hwg =>
    have hbody : κ.body = .left := hok
    show s.serveWG - 1 + (s.spawned.length + s.serving.length) + (κ.added.toNat + κ.body.busy) =
      s.serveWG + (s.spawned.length + s.serving.length) + (κ.added.toNat + 0)
    rw [hbody, show Body.busy .left = 1 from rfl]
    omega
  | _ => rfl

end Accounts

section Pools

variable [Unicode] {addrs : Addrs} {P : ServerPool}

/-- What a thread has done. -/
def progress (th : ServerThread) : Progress := Progress.rules.knows th.trace

/-- The pools that a new server gets to. -/
abbrev Reaches (addrs : Addrs) (P : ServerPool) : Prop :=
  Pool.Reaches exec (Call.run addrs) Server.new P

/-- **One `Start` at most gets past the single-use check.** -/
theorem passed_once (h : Reaches addrs P) :
    P.threads.Pairwise fun th th' => (progress th).passed = false ∨ (progress th').passed = false := by
  have hsum := Pool.accounts (L := fun _ => Progress.rules) (Q := Returned)
    (g := fun s : Server => s.started.toNat) (m := fun κ => κ.passed.toNat) (call_safe addrs) rfl
    (fun _ => rfl) (fun t κ o c s r s' hok hE => account_passed hok (exec_does hE)) h
  have hle : P.world.started.toNat ≤ 1 := Bool.toNat_le _
  rw [hsum] at hle
  refine (holds_pairwise hle).imp fun hzero => ?_
  exact hzero.imp Bool.toNat_eq_zero.mp Bool.toNat_eq_zero.mp

/-- **`startDoneCh` is closed once at most.** -/
theorem startDone_once (h : Reaches addrs P) : P.world.startDoneCloses ≤ 1 := by
  have hsum := accounts_diff (L := fun _ => Progress.rules) (Q := Returned)
    (g := fun s : Server => s.started.toNat) (d := fun s => s.startDoneCloses)
    (m := fun κ => (κ.passed && !κ.marked).toNat) (call_safe addrs) rfl
    (fun _ => rfl) (fun t κ o c s r s' hok hE => account_marked hok (exec_does hE)) h
  have hle : P.world.started.toNat ≤ 1 := Bool.toNat_le _
  omega

/-- **Nothing is left when the wait group is at zero.** -/
theorem nothing_served (h : Reaches addrs P) (hwg : P.world.serveWG = 0) :
    P.world.spawned = [] ∧ P.world.serving = [] ∧
    ∀ th ∈ P.threads, (progress th).added = false ∧ (progress th).body.busy = 0 := by
  have hsum := accounts_diff (L := fun _ => Progress.rules) (Q := Returned)
    (g := fun s : Server => s.serveWG) (d := fun s => s.spawned.length + s.serving.length)
    (m := fun κ => κ.added.toNat + κ.body.busy) (call_safe addrs) rfl
    (fun _ => rfl) (fun t κ o c s r s' hok hE => account_serve hok (exec_does hE)) h
  rw [hwg] at hsum
  refine ⟨eq_nil_of_length_eq_zero (by omega), eq_nil_of_length_eq_zero (by omega), ?_⟩
  intro th hth
  have hle : (progress th).added.toNat + (progress th).body.busy ≤ _ :=
    le_holds (L := fun _ => Progress.rules) (fun κ => κ.added.toNat + κ.body.busy) hth
  exact ⟨Bool.toNat_eq_zero.mp (by omega), by omega⟩

/-! ## Stopping for good -/

/-- Of a thread, while the listeners in `todo` are still to be closed: it is not a `Start` that goes on
    binding, and what it is about to serve is closed or among them. -/
def Settled (live todo : List Nat) (κ : Progress) : Prop :=
  κ.binding = false ∧ ∀ ln ∈ κ.toServe, ln ∈ live → ln ∈ todo

/-- **The server is being stopped**: `todo` is what is left to close. -/
def Sealed (todo : List Nat) (P : ServerPool) : Prop :=
  P.world.started = true ∧ ∀ th ∈ P.threads, Settled P.world.live todo (progress th)

/-- **The server has been stopped**: no listener is served, and none will be. -/
def Dead (P : ServerPool) : Prop :=
  Sealed [] P ∧ (∀ l ∈ P.world.spawned, l.ln ∉ P.world.live) ∧
  (∀ ln ∈ P.world.serving, ln ∉ P.world.live) ∧
  ∀ th ∈ P.threads, ∀ ln, (progress th).body = .carrying ln → ln ∉ P.world.live

theorem Dead.not_accepting (h : Dead P) : ¬ Accepting P.world := by
  rintro ⟨ln, hserving, hlive⟩
  exact h.2.2.1 ln hserving hlive

omit [Unicode] in
theorem started_stays {o : Op} {s s' : Server} {r : o.Res} (h : Does s o r s')
    (hs : s.started = true) : s'.started = true := by
  cases h with
  | passed hs' => rfl
  | _ => exact hs

/-- **What one step does to a server that has been started**, by a thread that does not bind: nothing is
    opened, and nothing comes to what the thread is about to serve. -/
theorem settled_step {κ : Progress} {o : Op} {s s' : Server} {r : o.Res} (hok : κ.ok o)
    (h : Does s o r s') (hstarted : s.started = true) (hbinding : κ.binding = false) :
    s'.started = true ∧ (∀ ln ∈ s'.live, ln ∈ s.live) ∧ (κ.after o r).binding = false ∧
    ∀ ln ∈ (κ.after o r).toServe, ln ∈ κ.toServe := by
  have hsame : ∀ {live : List Nat}, live = s.live → ∀ ln ∈ live, ln ∈ s.live := by
    rintro live rfl ln hln
    exact hln
  cases h with
  | passed hs => exact absurd (hs.symm.trans hstarted) Bool.false_ne_true
  | bound n | unbound n e => exact absurd (hbinding.symm.trans hok.1) Bool.false_ne_true
  | stored lns => exact absurd (hbinding.symm.trans hok) Bool.false_ne_true
  | closed ln err => exact ⟨hstarted, fun x hx => (mem_filter.mp hx).1, hbinding, fun x hx => hx⟩
  | closedServer n err =>
    exact ⟨hstarted, fun x hx => (mem_filter.mp hx).1, hbinding, fun x hx => hx⟩
  | spawned l => exact ⟨hstarted, hsame rfl, hbinding, fun x hx => mem_of_mem_tail hx⟩
  | marked => exact ⟨hstarted, hsame rfl, rfl, fun x hx => hx⟩
  | _ => exact ⟨hstarted, hsame rfl, hbinding, fun x hx => hx⟩

/-- Where the goroutines of a step come from: a goroutine is started for a listener that its `Start` was
    about to serve, and it serves the listener it was started for. -/
theorem served_step {κ : Progress} {o : Op} {s s' : Server} {r : o.Res} (hok : κ.ok o)
    (h : Does s o r s') :
    (∀ l ∈ s'.spawned, l ∈ s.spawned ∨ l.ln ∈ κ.toServe) ∧
    (∀ ln ∈ s'.serving, ln ∈ s.serving ∨ κ.body = .carrying ln) ∧
    ∀ ln, (κ.after o r).body = .carrying ln → κ.body = .carrying ln ∨ ∃ l ∈ s.spawned, l.ln = ln := by
  cases h with
  | spawned l =>
    refine ⟨fun x hx => ?_, fun ln => Or.inl, fun ln => Or.inl⟩
    rcases mem_cons.mp hx with rfl | hx
    · exact Or.inr (mem_of_mem_head? hok.2)
    · exact Or.inl hx
  | begun l i hi =>
    refine ⟨fun x hx => Or.inl (mem_of_mem_eraseIdx hx), fun ln => Or.inl, fun ln hln => ?_⟩
    cases hln
    exact Or.inr ⟨l, mem_of_getElem? hi, rfl⟩
  | registered l servers =>
    refine ⟨fun x => Or.inl, fun ln hln => ?_, nofun⟩
    rcases mem_cons.mp hln with rfl | hln
    · exact Or.inr hok
    · exact Or.inl hln
  | returned l err hmem =>
    exact ⟨fun x => Or.inl, fun ln hln => Or.inl (mem_of_mem_erase hln), nofun⟩
  | done hwg => exact ⟨fun x => Or.inl, fun ln => Or.inl, nofun⟩
  | _ => exact ⟨fun x => Or.inl, fun ln => Or.inl, fun ln => Or.inl⟩

/-- A thread takes a step. -/
structure Takes (th : ServerThread) (w : Server) (o : Op) (res : o.Res) (w' : Server)
    (th' : ServerThread) : Prop where
  ok : (progress th).ok o
  does : Does w o res w'
  knows : progress th' = (progress th).after o res

variable {w w' : Server} {l r : List ServerThread} {th th' : ServerThread} {o : Op} {res : o.Res}
  {todo : List Nat}

/-- A server that is being stopped goes on being stopped. -/
theorem Sealed.step (h : Sealed todo ⟨w, l ++ th :: r⟩) (hstep : Takes th w o res w' th') :
    Sealed todo ⟨w', l ++ th' :: r⟩ := by
  obtain ⟨hstarted, hall⟩ := h
  have hbinding := (hall th (mem_append_right _ (mem_cons_self ..))).1
  obtain ⟨hstarted', hlive, hbinding', htoServe⟩ :=
    settled_step hstep.ok hstep.does hstarted hbinding
  refine ⟨hstarted', forall_moved hall ?_ ?_⟩
  · rintro x ⟨hb, hserve⟩
    exact ⟨hb, fun ln hln hin => hserve ln hln (hlive ln hin)⟩
  · rintro ⟨-, hserve⟩
    rw [hstep.knows]
    exact ⟨hbinding', fun ln hln hin => hserve ln (htoServe ln hln) (hlive ln hin)⟩

/-- A listener that is closed is one less to close. -/
theorem Sealed.close {err : Option GoError} {ln : Nat} (h : Sealed (ln :: todo) ⟨w, l ++ th :: r⟩)
    (hstep : Takes th w (.closeListener ln) err w' th') : Sealed todo ⟨w', l ++ th' :: r⟩ := by
  obtain ⟨hstarted, hall⟩ := h.step hstep
  refine ⟨hstarted, fun x hx => ⟨(hall x hx).1, fun ln' hln' hin => ?_⟩⟩
  have hclosed : ln' ≠ ln := by
    cases hstep.does with
    | closed _ _ => exact of_decide_eq_true (mem_filter.mp hin).2
  exact (mem_cons.mp ((hall x hx).2 ln' hln' hin)).resolve_left hclosed

/-- When all is closed and the wait group is at zero, the server is dead. -/
theorem Sealed.dead (h : Sealed [] P) (hreach : Reaches addrs P) (hwg : P.world.serveWG = 0) :
    Dead P := by
  obtain ⟨hspawned, hserving, hthreads⟩ := nothing_served hreach hwg
  refine ⟨h, ?_, ?_, ?_⟩
  · rw [hspawned]
    exact forall_mem_nil _
  · rw [hserving]
    exact forall_mem_nil _
  · intro th hth ln hbody
    have hbusy := (hthreads th hth).2
    rw [hbody] at hbusy
    nomatch hbusy

/-- **A server that is dead stays dead.** -/
theorem Dead.step (h : Dead ⟨w, l ++ th :: r⟩) (hstep : Takes th w o res w' th') :
    Dead ⟨w', l ++ th' :: r⟩ := by
  obtain ⟨hsealed, hspawned, hserving, hcarrying⟩ := h
  have hmem : th ∈ l ++ th :: r := mem_append_right _ (mem_cons_self ..)
  have hκs := hsealed.2 th hmem
  have hκc := hcarrying th hmem
  obtain ⟨-, hlive, -, -⟩ := settled_step hstep.ok hstep.does hsealed.1 hκs.1
  obtain ⟨hspawned', hserving', hcarrying'⟩ := served_step hstep.ok hstep.does
  refine ⟨hsealed.step hstep, fun x hx hin => ?_, fun ln hln hin => ?_, ?_⟩
  · rcases hspawned' x hx with hx | hx
    · exact hspawned x hx (hlive _ hin)
    · exact not_mem_nil (hκs.2 _ hx (hlive _ hin))
  · rcases hserving' ln hln with hln | hln
    · exact hserving ln hln (hlive ln hin)
    · exact hκc ln hln (hlive ln hin)
  · refine forall_moved hcarrying (fun x hx ln hln hin => hx ln hln (hlive ln hin)) ?_
    intro _ ln hln hin
    rw [hstep.knows] at hln
    rcases hcarrying' ln hln with hln | ⟨m, hm, rfl⟩
    · exact hκc ln hln (hlive ln hin)
    · exact hspawned m hm (hlive m.ln hin)

/-! ## Orderly runs -/

/-- **Nothing is in the way of a `Shutdown`**: no `Start` is between the single-use check and the
    publication of its listeners, and every open listener that waits for its goroutine is in the list,
    so that no other `Shutdown` has taken it. -/
def Undisturbed (P : ServerPool) : Prop :=
  ∀ th ∈ P.threads, Settled P.world.live P.world.listeners (progress th)

/-- A step of an orderly run: once the server has been started, the list of listeners is taken only
    when nothing is in the way. -/
inductive Orderly (addrs : Addrs) : ServerPool → ServerPool → Prop where
  | spawn {w : Server} {ts : List ServerThread} (t : Call) :
      Orderly addrs ⟨w, ts⟩ ⟨w, ⟨t, t.run addrs, []⟩ :: ts⟩
  | move {w w' : Server} {l r : List ServerThread} {t : Call}
      {p p' : Prog listenSig (Except GoError Unit)} {tr : List (Event listenSig Choice Server)}
      {ev : Option (Event listenSig Choice Server)} (h : Prog.Move exec p w ev p' w')
      (htake : ∀ e, ev = some e → e.op = .takeListeners → w.started = true →
        Undisturbed ⟨w, l ++ ⟨t, p, tr⟩ :: r⟩) :
      Orderly addrs ⟨w, l ++ ⟨t, p, tr⟩ :: r⟩ ⟨w', l ++ ⟨t, p', tr ++ ev.toList⟩ :: r⟩

theorem Orderly.step {P P' : ServerPool} (h : Orderly addrs P P') :
    Pool.Step exec (Call.run addrs) P P' := by
  cases h with
  | spawn t => exact .spawn t
  | move h _ => exact .move h

/-- The pools that an orderly run gets to. -/
abbrev OrderlyReaches (addrs : Addrs) (P : ServerPool) : Prop :=
  Relation.ReflTransGen (Orderly addrs) ⟨Server.new, []⟩ P

/-- A `Shutdown` that has begun after a `Start` had got past the single-use check. -/
def Late (th : ServerThread) : Prop :=
  ∃ ev ∈ th.trace, ev.op = .takeListeners ∧ ev.pre.started = true

/-- What a `Shutdown` that is late has achieved so far. -/
def Achieved (P : ServerPool) : Stage → Prop
  | .closing todo _ => Sealed todo P
  | .stopped => Dead P
  | _ => True

theorem orderly_reaches (h : OrderlyReaches addrs P) : Reaches addrs P :=
  Relation.ReflTransGen.mono (fun P P' (hstep : Orderly addrs P P') => hstep.step) _ _ h

/-- What was achieved is about what the threads have done: a thread that has done nothing yet, or one
    that moves silently, does not matter. -/
theorem Achieved.threads {stage : Stage} {ts ts' : List ServerThread}
    (hts : ∀ I : Progress → Prop, I .fresh → (∀ x ∈ ts, I (progress x)) → ∀ x ∈ ts', I (progress x))
    (h : Achieved ⟨w, ts⟩ stage) : Achieved ⟨w, ts'⟩ stage := by
  have hsealed : ∀ {todo}, Sealed todo ⟨w, ts⟩ → Sealed todo ⟨w, ts'⟩ :=
    fun hs => ⟨hs.1, hts (Settled w.live _) ⟨rfl, forall_mem_nil _⟩ hs.2⟩
  cases stage with
  | closing todo clean => exact hsealed h
  | stopped =>
    exact ⟨hsealed h.1, h.2.1, h.2.2.1, hts (fun κ => ∀ ln, κ.body = .carrying ln → ln ∉ w.live)
      nofun h.2.2.2⟩
  | outside | failed => trivial

/-- What was achieved stays so, whoever moves. -/
theorem Achieved.step {stage : Stage} (h : Achieved ⟨w, l ++ th :: r⟩ stage)
    (hstep : Takes th w o res w' th') : Achieved ⟨w', l ++ th' :: r⟩ stage := by
  cases stage with
  | closing todo clean => exact Sealed.step h hstep
  | stopped => exact Dead.step h hstep
  | outside | failed => trivial

/-- What the `Shutdown` that moves achieves with its own step, unless it takes the list. -/
theorem Achieved.own (hreach : Reaches addrs ⟨w, l ++ th :: r⟩)
    (h : Achieved ⟨w, l ++ th :: r⟩ (progress th).stage) (hstep : Takes th w o res w' th')
    (ho : o ≠ .takeListeners) :
    Achieved ⟨w', l ++ th' :: r⟩ ((progress th).after o res).stage := by
  have hsame : Achieved ⟨w', l ++ th' :: r⟩ (progress th).stage := h.step hstep
  cases o with
  | takeListeners => exact absurd rfl ho
  | closeListener ln =>
    rcases hstep.ok with hout | ⟨todo, clean, hclosing⟩
    · show Achieved _ ((progress th).stage.close res)
      rw [hout]
      trivial
    · rw [hclosing] at h
      show Achieved _ ((progress th).stage.close res)
      rw [hclosing]
      exact Sealed.close h hstep
  | closeServer n =>
    obtain ⟨clean, hclosing⟩ := hstep.ok
    rw [hclosing] at hsame
    show Achieved _ ((progress th).stage.closeServer res)
    rw [hclosing]
    exact hsame
  | awaitServe ctx =>
    obtain ⟨clean, hclosing⟩ := hstep.ok
    rw [hclosing] at h
    show Achieved _ ((progress th).stage.wait res)
    rw [hclosing]
    cases hstep.does with
    | waited _ hwg =>
      cases clean with
      | true => exact Dead.step (Sealed.dead h hreach hwg) hstep
      | false => trivial
    | expired _ e =>
      cases clean with
      | true | false => trivial
  | beginStart | accept l =>
    cases res with
    | none => exact hsame
    | some e => exact hsame
  | _ => exact hsame

/-- **In an orderly run every late `Shutdown` achieves what it is for**, by induction on the run. -/
theorem late_achieves (h : OrderlyReaches addrs P) :
    ∀ th ∈ P.threads, Late th → P.world.started = true ∧ Achieved P (progress th).stage := by
  induction h with
  | refl => exact nofun
  | @tail P1 P2 hreach hstep ih =>
    have hreach1 := orderly_reaches hreach
    cases hstep with
    | @spawn w ts t =>
      refine forall_mem_cons.mpr ⟨?_, fun th hth hlate => ?_⟩
      · rintro ⟨ev, hev, -⟩
        nomatch hev
      · exact ⟨(ih th hth hlate).1, (ih th hth hlate).2.threads fun I hI hall =>
          forall_mem_cons.mpr ⟨hI, hall⟩⟩
    | @move w w' l r t p p' tr ev hmove horderly =>
      have hkeeps := Pool.safe (L := fun _ => Progress.rules) (Q := Returned) (call_safe addrs) hreach1
        ⟨t, p, tr⟩ (mem_append_right _ (mem_cons_self ..))
      obtain ⟨-, ⟨rfl, rfl⟩ | ⟨o, c, res, rfl, hE, hok, hknows⟩⟩ := hkeeps.move hmove
      · rw [Option.toList_none, append_nil]
        have hsilent : ∀ {stage}, Achieved ⟨w', l ++ ⟨t, p, tr⟩ :: r⟩ stage →
            Achieved ⟨w', l ++ ⟨t, p', tr⟩ :: r⟩ stage := by
          refine Achieved.threads fun I _ hall => ?_
          exact forall_moved hall (fun _ hI => hI) fun hI => hI
        exact forall_moved ih (fun x hx hlate => (hx hlate).imp_right hsilent)
          fun hx hlate => (hx hlate).imp_right hsilent
      · have htakes : Takes ⟨t, p, tr⟩ w o res w' ⟨t, p', _⟩ := ⟨hok, exec_does hE, hknows⟩
        refine forall_moved ih (fun x hx hlate => ?_) fun hx hlate => ?_
        · obtain ⟨hstarted, hachieved⟩ := hx hlate
          exact ⟨started_stays htakes.does hstarted, hachieved.step htakes⟩
        · obtain ⟨ev, hev, hop, hpre⟩ := hlate
          by_cases ho : o = .takeListeners
          · subst ho
            have hstarted : w.started = true := by
              rcases mem_append.mp hev with hev | hev
              · exact (hx ⟨ev, hev, hop, hpre⟩).1
              · rcases mem_singleton.mp hev with rfl
                exact hpre
            have hsealed : Sealed w.listeners ⟨w, l ++ ⟨t, p, tr⟩ :: r⟩ :=
              ⟨hstarted, horderly _ rfl rfl hstarted⟩
            refine ⟨started_stays htakes.does hstarted, ?_⟩
            rw [htakes.knows]
            cases exec_does hE with
            | taken => exact Sealed.step hsealed htakes
          · have hearlier : ev ∈ tr := by
              rcases mem_append.mp hev with hev | hev
              · exact hev
              · rcases mem_singleton.mp hev with rfl
                exact absurd hop ho
            obtain ⟨hstarted, hachieved⟩ := hx ⟨ev, hearlier, hop, hpre⟩
            refine ⟨started_stays htakes.does hstarted, ?_⟩
            rw [htakes.knows]
            exact Achieved.own hreach1 hachieved htakes ho

/-- A `Shutdown` or `Close` call that has returned nil. -/
def ReturnedNil (th : ServerThread) : Prop :=
  ((∃ ctx, th.tag = .shutdown ctx) ∨ th.tag = .close) ∧ th.prog = .ret (.ok ())

/-- A call that has returned nil has stopped. -/
theorem ReturnedNil.stopped (h : Reaches addrs P) {th : ServerThread} (hth : th ∈ P.threads)
    (hnil : ReturnedNil th) : (progress th).stage = .stopped := by
  have hkeeps := Pool.safe (L := fun _ => Progress.rules) (Q := Returned) (call_safe addrs) h th hth
  obtain ⟨t, p, tr⟩ := th
  obtain ⟨htag, hprog⟩ := hnil
  cases hprog
  rcases htag with ⟨ctx, htag⟩ | htag
  · cases htag
    exact hkeeps
  · cases htag
    exact hkeeps

/-- The call got past the single-use check. -/
def Passed (th : ServerThread) : Prop := ∃ ev ∈ th.trace, ev.op = .beginStart ∧ ev.pre.started = false

/-- The call binds a listener. -/
def Binds (th : ServerThread) : Prop := ∃ ev ∈ th.trace, ∃ n, ev.op = .listen n

/-- The check is passed by the step that finds `started` unset. -/
theorem passed_step {κ : Progress} {o : Op} {s s' : Server} {r : o.Res} (h : Does s o r s') :
    (κ.after o r).passed = true ↔ κ.passed = true ∨ (o = .beginStart ∧ s.started = false) := by
  cases h with
  | passed hs => exact ⟨fun _ => Or.inr ⟨rfl, hs⟩, fun _ => rfl⟩
  | refused hs =>
    refine ⟨Or.inl, fun hor => hor.elim id fun hstart => ?_⟩
    exact absurd (hstart.2.symm.trans hs) Bool.false_ne_true
  | _ => exact ⟨Or.inl, fun hor => hor.elim id fun hstart => nomatch hstart.1⟩

/-- What the steps of a thread say about the check is what it has done. -/
theorem passed_of_steps (h : Reaches addrs P) :
    ∀ th ∈ P.threads, (Passed th ↔ (progress th).passed = true) ∧ (Binds th → Passed th) := by
  have hall : ∀ th ∈ P.threads, Pool.Keeps (fun _ => Progress.rules) Returned th ∧
      ((Passed th ↔ (progress th).passed = true) ∧ (Binds th → Passed th)) := by
    refine forall_threads (fun t => ⟨call_safe addrs t, ?_⟩) ?_ h
    · rintro t p p' tr w ev w' ⟨hkeeps, hpassed, hbinds⟩ hmove
      obtain ⟨hkeeps', ⟨rfl, rfl⟩ | ⟨o, c, res, rfl, hE, hok, hknows⟩⟩ := hkeeps.move hmove
      · rw [Option.toList_none, append_nil] at hkeeps' ⊢
        exact ⟨hkeeps', hpassed, hbinds⟩
      · have hcons : Passed ⟨t, p', tr ++ [⟨o, c, res, w, w'⟩]⟩ ↔
            Passed ⟨t, p, tr⟩ ∨ (o = .beginStart ∧ w.started = false) := by
          constructor
          · rintro ⟨ev, hev, hop, hpre⟩
            rcases mem_append.mp hev with hev | hev
            · exact Or.inl ⟨ev, hev, hop, hpre⟩
            · rcases mem_singleton.mp hev with rfl
              exact Or.inr ⟨hop, hpre⟩
          · rintro (⟨ev, hev, hop, hpre⟩ | ⟨rfl, hpre⟩)
            · exact ⟨ev, mem_append_left _ hev, hop, hpre⟩
            · exact ⟨_, mem_append_right _ (mem_singleton.mpr rfl), rfl, hpre⟩
        have hprogress : progress ⟨t, p', tr ++ [⟨o, c, res, w, w'⟩]⟩ =
            (progress ⟨t, p, tr⟩).after o res := hknows
        refine ⟨hkeeps', ?_, ?_⟩
        · rw [Option.toList_some, hcons, hprogress, passed_step (exec_does hE), hpassed]
        · rintro ⟨ev, hev, n, hop⟩
          rw [Option.toList_some] at hev ⊢
          refine hcons.mpr (Or.inl ?_)
          rcases mem_append.mp hev with hev | hev
          · exact hbinds ⟨ev, hev, n, hop⟩
          · rcases mem_singleton.mp hev with rfl
            obtain rfl : o = .listen n := hop
            exact hpassed.mpr hok.2
    · refine ⟨⟨?_, nofun⟩, ?_⟩
      · rintro ⟨ev, hev, -⟩
        nomatch hev
      · rintro ⟨ev, hev, -⟩
        nomatch hev
  exact fun th hth => (hall th hth).2

/-- `readyCh` is closed by the one that finds `readyOnce` unset. -/
theorem ready_once (h : Reaches addrs P) : P.world.readyCloses = P.world.readyOnce.toNat := by
  have hsum := accounts_diff (L := fun _ => Progress.rules) (Q := Returned)
    (g := fun s : Server => s.readyCloses) (d := fun s => s.readyOnce.toNat) (m := fun κ => 0)
    (call_safe addrs) rfl (fun _ => rfl) (fun t κ o c s r s' hok hE => account_ready (exec_does hE)) h
  have hzero : ∀ ts : List ServerThread, Pool.holds (fun _ => Progress.rules) (fun _ => 0) ts = 0 := by
    intro ts
    induction ts with
    | nil => rfl
    | cons th ts ih => rw [holds_cons, ih]
  rw [hsum, hzero, Nat.add_zero]

/-- **Stopping the server.**  Whatever calls are made at once, one `Start` at most gets past the
    single-use check, and only that one binds listeners; the channels are closed once at most.  And in
    every orderly run a `Shutdown` or `Close` that began after that check and has returned nil has
    stopped the server: it accepts no connections any more. -/
theorem shutdown_stops (addrs : Addrs) :
    (∀ P, Reaches addrs P →
      P.threads.Pairwise (fun th th' => ¬ (Passed th ∧ Passed th')) ∧
      (∀ th ∈ P.threads, Binds th → Passed th) ∧
      P.world.readyCloses ≤ 1 ∧ P.world.startDoneCloses ≤ 1) ∧
    ∀ P, OrderlyReaches addrs P → ∀ th ∈ P.threads, ReturnedNil th → Late th →
      ¬ Accepting P.world := by
  constructor
  · intro P h
    have hsteps := passed_of_steps h
    refine ⟨?_, fun th hth => (hsteps th hth).2, ?_, startDone_once h⟩
    · refine (passed_once h).imp_of_mem ?_
      rintro th th' hth hth' hnot ⟨hp, hp'⟩
      rw [(hsteps th hth).1] at hp
      rw [(hsteps th' hth').1] at hp'
      rcases hnot with hnot | hnot
      · exact Bool.false_ne_true (hnot.symm.trans hp)
      · exact Bool.false_ne_true (hnot.symm.trans hp')
    · rw [ready_once h]
      exact Bool.toNat_le _
  · intro P h th hth hnil hlate
    have hachieved := (late_achieves h th hth hlate).2
    rw [hnil.stopped (orderly_reaches h) hth] at hachieved
    exact Dead.not_accepting hachieved

/-! ## Two runs -/

instance (live todo : List Nat) (κ : Progress) : Decidable (Settled live todo κ) :=
  inferInstanceAs (Decidable (_ ∧ _))

instance (P : ServerPool) : Decidable (Undisturbed P) := List.decidableBAll _ _

/-- The thread at a position is about to take the list of listeners. -/
def takesAt (P : ServerPool) (i : Nat) : Bool :=
  match P.threads[i]? with
  | some ⟨_, .step .takeListeners _, _⟩ => true
  | _ => false

/-- The pool after a list of plays that are orderly. -/
def playOrderly (addrs : Addrs) : List (Pool.Play Call Choice) → ServerPool → Option ServerPool
  | [], P => some P
  | .spawn t :: ps, P => playOrderly addrs ps ⟨P.world, ⟨t, t.run addrs, []⟩ :: P.threads⟩
  | .move i c :: ps, P =>
    if takesAt P i = true ∧ ¬ Undisturbed P then none
    else (Pool.moveAt exec P.world c i P.threads).bind fun x => playOrderly addrs ps ⟨x.1, x.2⟩

theorem orderly_of_play {ps : List (Pool.Play Call Choice)} {P P' : ServerPool}
    (h : OrderlyReaches addrs P) (hp : playOrderly addrs ps P = some P') : OrderlyReaches addrs P' := by
  induction ps generalizing P with
  | nil =>
    cases hp
    exact h
  | cons play ps ih =>
    cases play with
    | spawn t => exact ih (.tail h (.spawn t)) hp
    | move i c =>
      unfold playOrderly at hp
      split at hp
      · nomatch hp
      · rename_i hquiet
        obtain ⟨⟨w', ts'⟩, hmove, hrest⟩ := Option.bind_eq_some_iff.mp hp
        refine ih (.tail h ?_) hrest
        obtain ⟨w, ts⟩ := P
        obtain ⟨l, th, th', r, rfl, rfl, hget, hone⟩ := moveAt_inv hmove
        obtain ⟨ev, hev, hth'⟩ := moveOne_inv hone
        rw [hth']
        refine .move hev fun e he hop _ => ?_
        by_contra hnot
        refine hquiet ⟨?_, hnot⟩
        unfold takesAt
        rw [hget]
        obtain ⟨t, p, tr⟩ := th
        obtain ⟨t', p', tr'⟩ := th'
        subst he
        cases hev with
        | step hE =>
          cases hop
          rfl

/-- A server for SMTP alone. -/
def plain : Addrs := ⟨some (lit ":25"), none⟩

/-- A `Shutdown` that comes between the check and the bind. -/
def earlyShutdown : List (Pool.Play Call Choice) :=
  [.spawn (.start .caller), .move 0 .ok,
   .spawn (.shutdown .caller), .move 0 .ok, .move 0 .ok, .move 0 .ok,
   .move 1 .ok, .move 1 .ok, .move 1 .ok, .move 1 .ok,
   .spawn .serve, .move 0 (.pick 0), .move 0 .ok]

/-- A `Shutdown` of a server that serves. -/
def plainShutdown : List (Pool.Play Call Choice) :=
  [.spawn (.start .caller), .move 0 .ok, .move 0 .ok, .move 0 .ok, .move 0 .ok, .move 0 .ok, .move 0 .ok,
   .spawn .serve, .move 0 (.pick 0), .move 0 .ok, .move 0 .ok, .move 0 .ok,
   .spawn (.shutdown .caller), .move 0 .ok, .move 0 .ok, .move 0 .ok,
   .move 1 .ok, .move 1 (.fail netErrClosed), .move 1 .ok, .move 0 .ok]

/-- A late `Shutdown` has returned nil, as a test. -/
def lateNil (th : ServerThread) : Bool :=
  (match th.tag, th.prog with
    | .shutdown _, .ret (.ok _) => true
    | _, _ => false) &&
  th.trace.any fun ev => match ev.op with
    | .takeListeners => ev.pre.started
    | _ => false

omit [Unicode] in
theorem lateNil_spec {th : ServerThread} (h : lateNil th = true) : ReturnedNil th ∧ Late th := by
  obtain ⟨hnil, hlate⟩ := Bool.and_eq_true_iff.mp h
  constructor
  · obtain ⟨t, p, tr⟩ := th
    dsimp only at hnil
    split at hnil
    · exact ⟨Or.inl ⟨_, rfl⟩, rfl⟩
    · nomatch hnil
  · obtain ⟨ev, hev, hop⟩ := any_eq_true.mp hlate
    refine ⟨ev, hev, ?_⟩
    split at hop
    · exact ⟨by assumption, hop⟩
    · nomatch hop

omit [Unicode] in
/-- **An orderly stop**: `Start` binds its listener and serves it, a `Shutdown` closes it, waits for the
    goroutine and returns nil; nothing is accepted any more. -/
theorem shutdown_stops_plain :
    letI := Unicode.ascii
    ∃ P, OrderlyReaches plain P ∧ P.world.bound = 1 ∧
      ∃ th ∈ P.threads, ReturnedNil th ∧ Late th ∧ ¬ Accepting P.world := by
  let _ := Unicode.ascii
  have htest : (playOrderly plain plainShutdown ⟨Server.new, []⟩).any
      (fun P => decide (P.world.bound = 1) && P.threads.any lateNil) = true := by decide +kernel
  cases hplay : playOrderly plain plainShutdown ⟨Server.new, []⟩ with
  | none =>
    rw [hplay] at htest
    nomatch htest
  | some P =>
    rw [hplay] at htest
    obtain ⟨hbound, hany⟩ := Bool.and_eq_true_iff.mp htest
    obtain ⟨th, hth, hnil⟩ := any_eq_true.mp hany
    have hreach : OrderlyReaches plain P := orderly_of_play .refl hplay
    obtain ⟨hreturned, hlate⟩ := lateNil_spec hnil
    exact ⟨P, hreach, of_decide_eq_true hbound, th, hth, hreturned, hlate,
      (shutdown_stops plain).2 P hreach th hth hreturned hlate⟩

omit [Unicode] in
/-- **A `Shutdown` that comes too early**: a `Start` has got past the single-use check and has bound
    nothing yet; the `Shutdown` has nothing to close and nothing to wait for, and returns nil.  Then the
    `Start` goes on, and the server accepts connections. -/
theorem early_shutdown_stops_nothing :
    letI := Unicode.ascii
    ∃ P, Reaches plain P ∧ ∃ th ∈ P.threads, ReturnedNil th ∧ Late th ∧ Accepting P.world := by
  let _ := Unicode.ascii
  have htest : (Pool.play exec (Call.run plain) earlyShutdown ⟨Server.new, []⟩).any
      (fun P => P.threads.any lateNil &&
        P.world.serving.any fun ln => decide (ln ∈ P.world.live)) = true := by decide +kernel
  cases hplay : Pool.play exec (Call.run plain) earlyShutdown ⟨Server.new, []⟩ with
  | none =>
    rw [hplay] at htest
    nomatch htest
  | some P =>
    rw [hplay] at htest
    obtain ⟨hany, haccept⟩ := Bool.and_eq_true_iff.mp htest
    obtain ⟨th, hth, hnil⟩ := any_eq_true.mp hany
    obtain ⟨ln, hserving, hlive⟩ := any_eq_true.mp haccept
    obtain ⟨hreturned, hlate⟩ := lateNil_spec hnil
    exact ⟨P, reaches_of_play .refl hplay, th, hth, hreturned, hlate, ln, hserving,
      of_decide_eq_true hlive⟩

end Pools

end SmtpCloudRelay.Smtp.Listening
