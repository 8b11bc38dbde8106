/-
  THE RELAY HANDLER: `relay.Handler`, between the SMTP sessions and the spool.

  Every session that has received a message calls `HandleMessage`, any number of them at the same
  time.  A call applies the sender policy, takes one of `limit` SLOTS without waiting (a buffered
  channel), enqueues the message, and gives the slot back when it returns.  Without a free slot it
  answers `BusyError`.

  A call is a program over four atomic steps (look at the context, try to take a slot, call
  `store.Enqueue`, give the slot back), and a handler at work is a POOL of such calls, so the
  statements hold for every interleaving.  What a call has learned is computed from its own trace
  (`callRules`): whether it holds a slot, and what its calls of Enqueue have answered.

  `newEnqueueMessageHandler` is the adapter of the main program, which turns the outcome of a call
  into an SMTP reply.
-/
import SmtpCloudRelay.Email.SenderPolicy
import SmtpCloudRelay.Lib.Pool
import SmtpCloudRelay.Spool.Types

namespace SmtpCloudRelay.Relay

open Go Lib Pool

/-- `relay.Handler`: the policy, and the capacity of the channel of slots. -/
structure Handler where
  senderPolicy : SenderPolicy
  limit : Nat
  limit_pos : 0 < limit

/-- `relay.NewHandler`, with a store. -/
def newHandler (senderPolicy : SenderPolicy) (maxInflight : Int) : Except GoError Handler :=
  if h : 0 < maxInflight.toNat then .ok ⟨senderPolicy, maxInflight.toNat, h⟩
  else .error (.errorf "max inflight must be positive")

/-- The errors that `HandleMessage` returns: the policy's, its own `BusyError`, and those of the
    context and of the store. -/
inductive HandleError where
  | senderPolicy (err : SenderPolicyError)
  | busy (limit : Nat)
  | of (err : GoError)
  deriving DecidableEq

/-- `email.AsSenderPolicyError`. -/
def HandleError.asSenderPolicyError : HandleError → Option SenderPolicyError
  | .senderPolicy err => some err
  | _ => none

/-- `relay.AsBusyError`. -/
def HandleError.asBusyError : HandleError → Option Nat
  | .busy limit => some limit
  | _ => none

/-- `spool.AsStoreError`, as the test it is used for. -/
def HandleError.isStoreError : HandleError → Bool
  | .of err => err.isStoreError
  | _ => false

/-- `errors.Is`. -/
def HandleError.is : HandleError → GoError → Bool
  | .of err, target => err.is target
  | _, _ => false

/-! ## One call -/

/-- The atomic steps of a call. -/
inductive Op where
  /-- `ctx.Err()`. -/
  | ctxErr
  /-- The `select` that sends to the channel or takes its default branch. -/
  | trySlot
  /-- The call of `store.Enqueue`, until it returns. -/
  | enqueue (msg : Message)
  /-- The deferred receive from the channel. -/
  | freeSlot

/-- What the steps answer. -/
def Op.Res : Op → Type
  | .ctxErr => Option GoError
  | .trySlot => Bool
  | .enqueue _ => Except GoError Spool.Record
  | .freeSlot => Unit

/-- The signature of a call. -/
abbrev relaySig : Sig := ⟨Op, Op.Res⟩

/-- A call that is running. -/
abbrev Call := Act relaySig HandleError Unit

section Handle

variable [Unicode] (parseAddress : GoString → Except GoError GoString) (h : Handler)

omit [Unicode] in
/-- What `HandleMessage` does once it has a slot. -/
def enqueueWithSlot (msg : Message) : Call :=
  .step (.enqueue msg) fun outcome =>
  .step .freeSlot fun _ =>
    match outcome with
    | .ok _ => .ret (.ok ())
    | .error err => .ret (.error (.of err))

/-- What it does with the message that the policy has returned. -/
def enqueueMessage (msg : Message) : Call :=
  .step .trySlot fun
    | true => enqueueWithSlot msg
    | false => .ret (.error (.busy h.limit))

/-- `Handler.HandleMessage`. -/
def handleMessage (msg : Message) : Call :=
  .step .ctxErr fun
    | some err => .ret (.error (.of err))
    | none =>
      match applySenderPolicy parseAddress msg h.senderPolicy with
      | .error err => .ret (.error (.senderPolicy err))
      | .ok policyResult => enqueueMessage h policyResult.message

end Handle

/-! ## Any number of calls -/

/-- What the outside chooses at a step: the state of the context, and what the store answers. -/
inductive Choice where
  | ctx (err : Option GoError)
  | stored (outcome : Except GoError Spool.Record)
  | go

/-- The steps on the channel, whose world is the number of slots that are taken. -/
def exec (limit : Nat) : Exec relaySig Choice Nat
  | .ctxErr, .ctx err, taken => some (err, taken)
  | .trySlot, .go, taken => if taken < limit then some (true, taken + 1) else some (false, taken)
  | .enqueue _, .stored outcome, taken => some (outcome, taken)
  | .freeSlot, .go, taken => if taken = 0 then none else some ((), taken - 1)
  | _, _, _ => none

variable {limit w w' : Nat} {c : Choice}

theorem exec_trySlot {got : Bool} (hE : exec limit .trySlot c w = some (got, w')) :
    (got = true ∧ w < limit ∧ w' = w + 1) ∨ (got = false ∧ limit ≤ w ∧ w' = w) := by
  cases c with
  | go =>
    have hE : (if w < limit then some (true, w + 1) else some (false, w)) = some (got, w') := hE
    split at hE
    · rename_i hlt
      cases hE
      exact Or.inl ⟨rfl, hlt, rfl⟩
    · rename_i hge
      cases hE
      exact Or.inr ⟨rfl, Nat.le_of_not_lt hge, rfl⟩
  | ctx err | stored outcome => nomatch hE

theorem exec_freeSlot {u : Unit} (hE : exec limit .freeSlot c w = some (u, w')) : w = w' + 1 := by
  cases c with
  | go =>
    have hE : (if w = 0 then none else some ((), w - 1)) = some (u, w') := hE
    split at hE
    · nomatch hE
    · cases hE
      omega
  | ctx err | stored outcome => nomatch hE

/-- The other steps do not touch the slots. -/
theorem exec_other {o : Op} {r : o.Res} (htry : o ≠ .trySlot) (hfree : o ≠ .freeSlot)
    (hE : exec limit o c w = some (r, w')) : w' = w := by
  cases o with
  | ctxErr =>
    cases c with
    | ctx err =>
      cases hE
      rfl
    | stored outcome | go => nomatch hE
  | trySlot => exact absurd rfl htry
  | enqueue m =>
    cases c with
    | stored outcome =>
      cases hE
      rfl
    | ctx err | go => nomatch hE
  | freeSlot => exact absurd rfl hfree

/-- The calls of a handler, each with the message it was made for. -/
abbrev Calls := Pool relaySig Choice Nat Message (Except HandleError Unit)

/-- One call among them. -/
abbrev CallThread := Thread relaySig Choice Nat Message (Except HandleError Unit)

/-- The call is inside `store.Enqueue`. -/
def Inside (th : CallThread) : Bool :=
  match th.prog with
  | .step (.enqueue _) _ => true
  | _ => false

/-- What an event leaves of holding a slot. -/
def holdsAfter (held : Bool) : Event relaySig Choice Nat → Bool
  | ⟨.trySlot, _, got, _, _⟩ => got
  | ⟨.freeSlot, _, _, _, _⟩ => false
  | _ => held

/-- The call holds a slot: it has taken one, and has not given it back. -/
def Holding (th : CallThread) : Bool := th.trace.foldl holdsAfter false

/-- An event that is a call of `store.Enqueue`: the message and the outcome. -/
def enqueue? : Event relaySig Choice Nat → Option (Message × Except GoError Spool.Record)
  | ⟨.enqueue msg, _, outcome, _, _⟩ => some (msg, outcome)
  | _ => none

/-- The calls of `store.Enqueue` that a call has made, with their outcomes. -/
def enqueued (th : CallThread) : List (Message × Except GoError Spool.Record) :=
  th.trace.filterMap enqueue?

/-! ## What a call knows -/

/-- Whether it holds a slot, whether it was refused one, and its calls of Enqueue with their
    outcomes. -/
structure Knowledge where
  held : Bool
  refused : Bool
  done : List (Message × Except GoError Spool.Record)

/-- What an answer teaches a call. -/
def Knowledge.after (κ : Knowledge) : (o : Op) → o.Res → Knowledge
  | .ctxErr, _ => κ
  | .trySlot, (got : Bool) => { κ with held := got, refused := !got }
  | .enqueue msg, (outcome : Except GoError Spool.Record) =>
    { κ with done := κ.done ++ [(msg, outcome)] }
  | .freeSlot, _ => { κ with held := false }

/-- The number of slots that a call knows to hold. -/
def Knowledge.slots (κ : Knowledge) : Nat := if κ.held then 1 else 0

section Rules

variable [Unicode] (parseAddress : GoString → Except GoError GoString) (h : Handler)

/-- The policy has returned `m` for the message. -/
def PolicyReturns (msg m : Message) : Prop :=
  ∃ result, applySenderPolicy parseAddress msg h.senderPolicy = .ok result ∧ m = result.message

/-- The steps that a call for `msg` takes: it asks for a slot once, and while it holds the slot it
    enqueues the message of the policy, once. -/
def Knowledge.Allows (msg : Message) (κ : Knowledge) : Op → Prop
  | .ctxErr => κ = ⟨false, false, []⟩
  | .trySlot => κ = ⟨false, false, []⟩
  | .enqueue m => κ = ⟨true, false, []⟩ ∧ PolicyReturns parseAddress h msg m
  | .freeSlot => κ.held = true ∧ κ.refused = false

/-- The rules of a call for `msg`. -/
def callRules (msg : Message) : Rules relaySig Knowledge where
  init := ⟨false, false, []⟩
  ok := Knowledge.Allows parseAddress h msg
  after := Knowledge.after

/-- How a call for `msg` ends: without a slot, and with the outcome of its only call of Enqueue, or
    with an error of the policy, of the context or of the handler itself and no such call. -/
inductive Ended (msg : Message) : Except HandleError Unit → Knowledge → Prop where
  | stored (m : Message) (rec : Spool.Record) (policy : PolicyReturns parseAddress h msg m) :
      Ended msg (.ok ()) ⟨false, false, [(m, .ok rec)]⟩
  | notStored (m : Message) (err : GoError) (policy : PolicyReturns parseAddress h msg m) :
      Ended msg (.error (.of err)) ⟨false, false, [(m, .error err)]⟩
  | busy : Ended msg (.error (.busy h.limit)) ⟨false, true, []⟩
  | rejected (err : SenderPolicyError)
      (policy : applySenderPolicy parseAddress msg h.senderPolicy = .error err) :
      Ended msg (.error (.senderPolicy err)) ⟨false, false, []⟩
  | cancelled (err : GoError) : Ended msg (.error (.of err)) ⟨false, false, []⟩

variable {parseAddress h}

/-- **A call keeps to its rules.** -/
theorem handleMessage_safe (msg : Message) :
    Prog.Safe (callRules parseAddress h msg).proto (Ended parseAddress h msg)
      (handleMessage parseAddress h msg) ⟨false, false, []⟩ := by
  refine ⟨rfl, ?_⟩
  rintro ended κ' rfl
  rcases ended with _ | err
  · -- the context is alive: the policy decides
    show Prog.Safe _ _ (match applySenderPolicy parseAddress msg h.senderPolicy with
      | .error err => .ret (.error (.senderPolicy err))
      | .ok policyResult => enqueueMessage h policyResult.message) _
    cases hpolicy : applySenderPolicy parseAddress msg h.senderPolicy with
    | error err => exact .rejected err hpolicy
    | ok result =>
      refine ⟨rfl, ?_⟩
      rintro got κ' rfl
      rcases got with _ | _
      · exact .busy
      · refine ⟨⟨rfl, result, hpolicy, rfl⟩, ?_⟩
        rintro outcome κ' rfl
        refine ⟨⟨rfl, rfl⟩, ?_⟩
        rintro _ κ' rfl
        rcases outcome with err | rec
        · exact Ended.notStored _ err ⟨result, hpolicy, rfl⟩
        · exact Ended.stored _ rec ⟨result, hpolicy, rfl⟩
  · exact .cancelled err

/-- A call has no loops. -/
theorem handleMessage_straight (msg : Message) :
    Prog.Straight (handleMessage parseAddress h msg) := by
  intro ended
  rcases ended with _ | err
  · show Prog.Straight (match applySenderPolicy parseAddress msg h.senderPolicy with
      | .error err => .ret (.error (.senderPolicy err))
      | .ok policyResult => enqueueMessage h policyResult.message)
    cases applySenderPolicy parseAddress msg h.senderPolicy with
    | error err => trivial
    | ok result =>
      intro got
      rcases got with _ | _
      · trivial
      · intro outcome _
        rcases outcome with err | rec <;> trivial
  · trivial

/-- A call keeps to its rules at some moment. -/
abbrev Keeps (parseAddress : GoString → Except GoError GoString) (h : Handler)
    (th : CallThread) : Prop :=
  Pool.Keeps (callRules parseAddress h) (Ended parseAddress h) th

/-- What a call knows at some moment. -/
abbrev known (parseAddress : GoString → Except GoError GoString) (h : Handler) (th : CallThread) :
    Knowledge :=
  (callRules parseAddress h th.tag).knows th.trace

variable (parseAddress h) in
/-- **What a call knows is what its trace shows**: its slot, and its calls of Enqueue. -/
theorem known_eq (th : CallThread) :
    (known parseAddress h th).held = Holding th ∧ (known parseAddress h th).done = enqueued th := by
  obtain ⟨msg, p, tr⟩ := th
  unfold known Holding enqueued
  dsimp only
  -- on the trace, from its end
  induction tr using List.reverseRecOn with
  | nil => exact ⟨rfl, rfl⟩
  | append_singleton tr ev ih =>
    obtain ⟨hheld, hdone⟩ := ih
    rw [Rules.knows_concat, List.foldl_append, List.filterMap_append, ← hheld, ← hdone]
    obtain ⟨o, c, r, w, w'⟩ := ev
    cases o with
    | enqueue m => exact ⟨rfl, rfl⟩
    | ctxErr | trySlot | freeSlot => exact ⟨rfl, (List.append_nil _).symm⟩

/-! ## What holds in every pool -/

variable {P : Calls} {th : CallThread}

theorem Keeps.returned {out : Except HandleError Unit} (hkeeps : Keeps parseAddress h th)
    (hret : th.prog = .ret out) : Ended parseAddress h th.tag out (known parseAddress h th) := by
  unfold Keeps Pool.Keeps at hkeeps
  rw [hret] at hkeeps
  exact hkeeps

theorem Keeps.free {out : Except HandleError Unit} (hkeeps : Keeps parseAddress h th)
    (hret : th.prog = .ret out) : Holding th = false := by
  have hend := hkeeps.returned hret
  rw [← (known_eq parseAddress h th).1]
  generalize known parseAddress h th = κ at hend ⊢
  cases hend <;> rfl

/-- A call inside `store.Enqueue` holds a slot. -/
theorem Keeps.inside (hkeeps : Keeps parseAddress h th) (hin : Inside th = true) :
    Holding th = true := by
  rw [← (known_eq parseAddress h th).1]
  unfold Keeps Pool.Keeps at hkeeps
  unfold Inside at hin
  split at hin
  · rename_i m k hprog
    rw [hprog] at hkeeps
    obtain ⟨⟨hκ, -⟩, -⟩ := hkeeps
    exact congrArg Knowledge.held hκ
  · nomatch hin

/-- Every step changes the number of taken slots by what the call then holds more or less. -/
theorem exec_slots {limit : Nat} (t : Message) (κ : Knowledge) (o : Op) (c : Choice) (w : Nat)
    (r : o.Res) (w' : Nat) (hok : (callRules parseAddress h t).ok κ o)
    (hE : exec limit o c w = some (r, w')) :
    w' + κ.slots = w + ((callRules parseAddress h t).after κ o r).slots := by
  cases o with
  | ctxErr =>
    cases exec_other (by simp) (by simp) hE
    rfl
  | trySlot =>
    have hκ : κ = ⟨false, false, []⟩ := hok
    subst hκ
    rcases exec_trySlot hE with ⟨rfl, -, rfl⟩ | ⟨rfl, -, rfl⟩ <;> rfl
  | enqueue m =>
    cases exec_other (by simp) (by simp) hE
    rfl
  | freeSlot =>
    obtain ⟨hheld, -⟩ : κ.held = true ∧ κ.refused = false := hok
    have hw := exec_freeSlot hE
    show w' + κ.slots = w + 0
    rw [Knowledge.slots, if_pos hheld]
    omega

/-- The number of taken slots never exceeds the limit. -/
theorem world_le_limit (hreach : Pool.Reaches (exec h.limit) (handleMessage parseAddress h) 0 P) :
    P.world ≤ h.limit := by
  induction hreach with
  | refl => exact Nat.zero_le _
  | tail _ hstep ih =>
    cases hstep with
    | spawn t => exact ih
    | move hmove =>
      cases hmove with
      | loop => exact ih
      | @step o k w w' c r hE =>
        dsimp only at ih ⊢
        by_cases htry : o = .trySlot
        · subst htry
          rcases exec_trySlot hE with ⟨-, hlt, rfl⟩ | ⟨-, -, rfl⟩
          · exact hlt
          · exact ih
        · by_cases hfree : o = .freeSlot
          · subst hfree
            have hw := exec_freeSlot hE
            omega
          · cases exec_other htry hfree hE
            exact ih

/-- What the calls hold together is the number of those that hold a slot. -/
theorem holds_eq_countP (ts : List CallThread) :
    Pool.holds (callRules parseAddress h) Knowledge.slots ts = ts.countP Holding := by
  induction ts with
  | nil => rfl
  | cons th ts ih =>
    rw [holds_cons, ih, List.countP_cons, Nat.add_comm]
    unfold Knowledge.slots
    rw [(known_eq parseAddress h th).1]

/-- **The taken slots are those that calls hold.** -/
theorem world_eq_countP
    (hreach : Pool.Reaches (exec h.limit) (handleMessage parseAddress h) 0 P) :
    P.world = P.threads.countP Holding := by
  have hacc : id P.world = Pool.holds (callRules parseAddress h) Knowledge.slots P.threads :=
    Pool.accounts (g := id) handleMessage_safe rfl (fun _ => rfl) exec_slots hreach
  rw [holds_eq_countP] at hacc
  exact hacc

/-- **A call enqueues at most once**, and only the message that the policy has returned. -/
theorem enqueued_once (hreach : Pool.Reaches (exec h.limit) (handleMessage parseAddress h) 0 P)
    (hth : th ∈ P.threads) : (enqueued th).length ≤ 1 ∧
      ∀ x ∈ enqueued th, PolicyReturns parseAddress h th.tag x.1 := by
  have hall : ∀ th ∈ P.threads, (known parseAddress h th).done.length ≤ 1 ∧
      ∀ x ∈ (known parseAddress h th).done, PolicyReturns parseAddress h th.tag x.1 := by
    refine knows_of_step (J := fun t κ => κ.done.length ≤ 1 ∧
      ∀ x ∈ κ.done, PolicyReturns parseAddress h t x.1) handleMessage_safe
      (fun t => ⟨Nat.zero_le _, fun x hx => nomatch hx⟩) ?_ hreach
    intro t κ o r hJ hok
    cases o with
    | ctxErr | trySlot => exact hJ
    | enqueue m =>
      obtain ⟨rfl, hm⟩ := hok
      refine ⟨Nat.le_refl 1, fun x hx => ?_⟩
      cases List.mem_singleton.mp hx
      exact hm
    | freeSlot => exact hJ
  have hth := hall th hth
  rw [(known_eq parseAddress h th).2] at hth
  exact hth

/-- **A call that is refused a slot**: all slots were taken, and none of them by itself. -/
theorem busy_move {w w' : Nat} {ev : Option (Event relaySig Choice Nat)} {n : Nat}
    (hkeeps : Keeps parseAddress h th) (hstraight : th.prog.Straight)
    (hmove : Prog.Move (exec h.limit) th.prog w ev (.ret (.error (.busy n))) w') :
    h.limit ≤ w ∧ Holding th = false ∧ enqueued th = [] := by
  obtain ⟨msg, p, tr⟩ := th
  obtain ⟨hkeeps', hmoved⟩ := hkeeps.move hmove
  have hend := Keeps.returned hkeeps' rfl
  -- only a refused slot makes a call return this error
  have hrefused : ∀ κ : Knowledge, Ended parseAddress h msg (.error (.busy n)) κ →
      κ.refused = true := by
    intro κ hκ
    cases hκ
    rfl
  have hsome : ∃ o c r, exec h.limit o c w = some (r, w') ∧
      (callRules parseAddress h msg).ok ((callRules parseAddress h msg).knows tr) o ∧
      ((callRules parseAddress h msg).after ((callRules parseAddress h msg).knows tr) o r).refused =
        true := by
    rcases hmoved with ⟨rfl, -⟩ | ⟨o, c, r, rfl, hE, hok, hknows⟩
    · exact absurd rfl (hstraight.move hmove).2
    · refine ⟨o, c, r, hE, hok, ?_⟩
      rw [← hknows]
      exact hrefused _ hend
  obtain ⟨o, c, r, hE, hok, href⟩ := hsome
  obtain ⟨hheld, hdone⟩ : (known parseAddress h ⟨msg, p, tr⟩).held = Holding ⟨msg, p, tr⟩ ∧
    (known parseAddress h ⟨msg, p, tr⟩).done = enqueued ⟨msg, p, tr⟩ :=
    known_eq parseAddress h _
  rw [← hheld, ← hdone]
  change (callRules parseAddress h msg).ok (known parseAddress h ⟨msg, p, tr⟩) o at hok
  change ((callRules parseAddress h msg).after (known parseAddress h ⟨msg, p, tr⟩) o r).refused =
    true at href
  generalize known parseAddress h ⟨msg, p, tr⟩ = κ at hok href ⊢
  cases o with
  | ctxErr =>
    cases hok
    nomatch href
  | trySlot =>
    cases hok
    rcases exec_trySlot hE with ⟨rfl, -, -⟩ | ⟨rfl, hle, -⟩
    · nomatch href
    · exact ⟨hle, rfl, rfl⟩
  | enqueue m =>
    obtain ⟨rfl, -⟩ := hok
    nomatch href
  | freeSlot =>
    obtain ⟨-, hno⟩ := hok
    nomatch hno.symm.trans href

end Rules

/-! ## The adapter -/

/-- The reply of `newEnqueueMessageHandler` to an outcome of `HandleMessage`. -/
def newEnqueueMessageHandler : Except HandleError Unit → Except GoError Unit
  | .ok () => .ok ()
  | .error err =>
    let temporaryRelayError := smtpError 451 (4, 3, 0) "temporary relay failure"
    if err.asSenderPolicyError.isSome then
      .error (smtpError 554 (5, 7, 1) "sender rejected by relay policy")
    else if err.asBusyError.isSome then
      .error (smtpError 451 (4, 3, 2) "relay busy, try again later")
    else if err.isStoreError then .error temporaryRelayError
    else if err.is .canceled || err.is .deadlineExceeded then .error temporaryRelayError
    else .error temporaryRelayError

/-- An SMTP reply whose code is in the hundred `n`. -/
def Replies (n : Nat) (out : Except GoError Unit) : Prop :=
  ∃ code enhanced text, out = .error (.foreign (.smtp code enhanced) text) ∧ code / 100 = n

/-- **The adapter** answers success to success, a permanent failure to a rejection by the policy,
    and a temporary one to every other error. -/
theorem newEnqueueMessageHandler_replies (out : Except HandleError Unit) :
    (newEnqueueMessageHandler out = .ok () ↔ out = .ok ()) ∧
    (Replies 5 (newEnqueueMessageHandler out) ↔ ∃ err, out = .error (.senderPolicy err)) ∧
    (Replies 4 (newEnqueueMessageHandler out) ↔
      out ≠ .ok () ∧ ¬ ∃ err, out = .error (.senderPolicy err)) := by
  have hother : ∀ err : HandleError, (∀ e, err ≠ .senderPolicy e) →
      ∃ enhanced text, newEnqueueMessageHandler (.error err) =
        .error (.foreign (.smtp 451 enhanced) text) := by
    intro err hno
    cases err with
    | senderPolicy e => exact absurd rfl (hno e)
    | busy limit => exact ⟨_, _, rfl⟩
    | of err =>
      refine ⟨(4, 3, 0), lit "temporary relay failure", ?_⟩
      show (if err.isStoreError = true then _ else if _ then _ else _) = _
      split
      · rfl
      · split <;> rfl
  cases out with
  | ok u =>
    refine ⟨⟨fun _ => rfl, fun _ => rfl⟩, ⟨?_, ?_⟩, ⟨?_, fun hne => absurd rfl hne.1⟩⟩
    · rintro ⟨_, _, _, hx, -⟩
      nomatch hx
    · rintro ⟨_, hx⟩
      nomatch hx
    · rintro ⟨_, _, _, hx, -⟩
      nomatch hx
  | error err =>
    by_cases hpolicy : ∃ e, err = .senderPolicy e
    · obtain ⟨e, rfl⟩ := hpolicy
      refine ⟨⟨nofun, nofun⟩,
        ⟨fun _ => ⟨e, rfl⟩, fun _ => ⟨554, _, _, rfl, rfl⟩⟩, ⟨?_, fun hne => absurd ⟨e, rfl⟩ hne.2⟩⟩
      rintro ⟨code, _, _, hx, hcode⟩
      cases hx
      nomatch hcode
    · obtain ⟨enhanced, text, hreply⟩ := hother err fun e he => hpolicy ⟨e, he⟩
      have hno : ¬ ∃ e, (Except.error err : Except HandleError Unit) = .error (.senderPolicy e) := by
        rintro ⟨e, he⟩
        exact hpolicy ⟨e, Except.error.inj he⟩
      rw [hreply]
      refine ⟨⟨nofun, nofun⟩, ⟨?_, fun hx => absurd hx hno⟩,
        ⟨fun _ => ⟨nofun, hno⟩, fun _ => ⟨451, enhanced, text, rfl, rfl⟩⟩⟩
      rintro ⟨code, _, _, hx, hcode⟩
      cases hx
      nomatch hcode

/-! ## The enqueue path -/

section Path

variable [Unicode] {parseAddress : GoString → Except GoError GoString} {h : Handler} {P : Calls}

end Path

end SmtpCloudRelay.Relay
