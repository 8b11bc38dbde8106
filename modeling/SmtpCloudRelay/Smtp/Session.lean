/-
  THE SMTP SESSION: who may connect, what a client may do, and what reaches the message handler.

  A session is a small state machine under the control of the client: it remembers the envelope
  collected so far and whether the client has authenticated.  Its transitions are the methods
  that go-smtp calls, in whatever ORDER the client chooses:

  * `newSession` is `backend.NewSession`: the access list is asked once, on connecting;
  * an `auth` call is one whole AUTH exchange, with the responses the client sends;
  * `mail`, `rcpt` and `data` each ask `enforceSessionPolicy` again;
  * `reset` drops the envelope but not the authentication, and `logout` does nothing.

  Whether TLS is active is not the session's to know: it is asked of the connection at every
  call, so every call carries the answer it gets.  `step` is one call; `run` is a sequence.

  Parameters of libraries: the parsers of `MailLib`, and in `NetLib` the parsers of textual addresses
  and the SASL server, of which it is known that it authenticates what the client has sent.
-/
import SmtpCloudRelay.Smtp.Parser
import SmtpCloudRelay.Go.Netip

namespace SmtpCloudRelay.Smtp

open Go Lib

/-- The parsers of packages `net` and `net/netip`, and of the SASL library. -/
structure NetLib where
  /-- The host of `net.SplitHostPort`, when it succeeds. -/
  splitHostPort : GoString → Option GoString
  /-- `netip.ParseAddr`. -/
  parseAddr : GoString → Except GoError Addr
  /-- A PLAIN response as identity, user name and password, when it has that form. -/
  splitPlain : GoString → Option (GoString × GoString × GoString)
  /-- What the server of `sasl.NewPlainServer` makes of the responses of an exchange: an error of its
      own, or what it calls `authenticate` with, whose answer is then its own. -/
  plainServer : List (Option GoString) → Except GoError (GoString × GoString × GoString)
  /-- It authenticates what the client has sent. -/
  plainServer_sent : ∀ responses credentials, plainServer responses = .ok credentials →
    ∃ response, some response ∈ responses ∧ splitPlain response = some credentials

/-- `net.Conn.RemoteAddr`, by its dynamic type; `none` where the connection or the address is
    nil. -/
inductive RemoteAddr where
  | none
  | tcp (ip : List UInt8)
  | udp (ip : List UInt8)
  | ip (ip : List UInt8)
  | other (text : GoString)

/-- `StaticAuthProvider`. -/
structure StaticAuthProvider where
  username : GoString
  password : GoString

/-- `StaticAuthProvider.AuthPlain`. -/
def StaticAuthProvider.authPlain (p : StaticAuthProvider) (username password : GoString) :
    Except GoError Unit := do
  failIf (username ≠ p.username) (.errorf "invalid username or password")
  failIf (password ≠ p.password) (.errorf "invalid username or password")

/-- `sessionPolicy`: what the server hands to every session. -/
structure SessionPolicy where
  allowedCIDRs : List Prefix
  requireAuth : Bool
  requireTLS : Bool
  authProvider : Option StaticAuthProvider

/-- `session`: the policy it was created with and the state of the client. -/
structure Session where
  policy : SessionPolicy
  /-- The field `from`. -/
  fromAddr : GoString
  /-- The field `to`. -/
  toAddrs : List GoString
  authed : Bool

/-! ## Connecting -/

/-- The address of a typed remote address. -/
def typedAddr (ip : List UInt8) (kind : String) : Except GoError Addr :=
  match Addr.fromSlice ip with
  | some addr => .ok addr.unmap
  | none => .error (.errorf kind)

/-- `strings.TrimPrefix(s, "[")`. -/
def trimOpen (s : GoString) : GoString := if s.head? = some 0x5B then s.tail else s

/-- `strings.TrimSuffix(s, "]")`. -/
def trimClose (s : GoString) : GoString := if s.getLast? = some 0x5D then s.dropLast else s

/-- `remoteAddrIP`, down to the unmapped address. -/
def remoteAddrIP (net : NetLib) : RemoteAddr → Except GoError Addr
  | .none => .error (.errorf "missing remote address")
  | .tcp ip => typedAddr ip "invalid tcp remote ip"
  | .udp ip => typedAddr ip "invalid udp remote ip"
  | .ip ip => typedAddr ip "invalid ip remote ip"
  | .other text =>
    let host := (net.splitHostPort text).getD text
    match net.parseAddr (trimClose (trimOpen host)) with
    | .ok addr => .ok addr.unmap
    | .error e => .error (.wrap (lit "parse remote ip: ") e)

/-- `isAddrAllowed`. -/
def isAddrAllowed (addr : Addr) (allowed : List Prefix) : Bool := allowed.any (·.contains addr)

/-- `backend.NewSession`. -/
def newSession (net : NetLib) (policy : SessionPolicy) (remote : RemoteAddr) :
    Except GoError Session :=
  match remoteAddrIP net remote with
  | .error _ => .error (smtpError 554 (5, 7, 1) "access denied")
  | .ok addr =>
    if isAddrAllowed addr policy.allowedCIDRs then .ok ⟨policy, [], [], false⟩
    else .error (smtpError 554 (5, 7, 1) "access denied")

namespace Session

/-! ## Authenticating -/

/-- `session.Auth`: whether a SASL server is handed out for the mechanism, and with which
    credentials it compares. -/
def auth (s : Session) (mech : GoString) : Except GoError StaticAuthProvider :=
  match s.policy.requireAuth, s.policy.authProvider with
  | true, some p =>
    if equalFold mech (lit "PLAIN") then .ok p
    else .error (smtpError 504 (5, 7, 4) "Unsupported authentication mechanism")
  | _, _ => .error (smtpError 502 (5, 7, 0) "Authentication not supported")

/-- The exchange with the PLAIN server that `Auth` hands out, and what its callback does. -/
def plainExchange (net : NetLib) (p : StaticAuthProvider) (s : Session)
    (responses : List (Option GoString)) : Session × Except GoError Unit :=
  match net.plainServer responses with
  | .error e => (s, .error e)
  | .ok (_, username, password) =>
    match p.authPlain username password with
    | .error _ => (s, .error (smtpError 535 (5, 7, 8) "authentication failed"))
    | .ok () => ({ s with authed := true }, .ok ())

/-! ## The calls of a session -/

/-- `enforceSessionPolicy`, with the connection's TLS status. -/
def enforceSessionPolicy (s : Session) (tls : Bool) : Except GoError Unit := do
  failIf (s.policy.requireTLS = true ∧ tls = false)
    (smtpError 530 (5, 7, 0) "Must issue STARTTLS first")
  failIf (s.policy.requireAuth = true ∧ s.authed = false)
    (smtpError 530 (5, 7, 0) "Authentication required")

/-- What a client makes go-smtp call.  A `data` call carries the answer that the message handler
    gives if it is asked. -/
inductive Call where
  | auth (mech : GoString) (responses : List (Option GoString))
  | mail (fromArg : GoString)
  | rcpt (toArg : GoString)
  | data (r : Reader) (handlerAnswer : Except GoError Unit)
  | reset
  | logout

/-- What a call leaves behind: the session, its answer, and the message it gave to the handler. -/
structure Outcome where
  session : Session
  result : Except GoError Unit
  handed : Option Message

/-- What `session.Data` answers when the handler has. -/
def dataResult : Except GoError Unit → Except GoError Unit
  | .ok () => .ok ()
  | .error e =>
    match e.as GoError.smtp? with
    | some smtpErr => .error smtpErr
    | none => .error (.wrap (lit "handle parsed message: ") e)

/-- The session policy lets a call pass exactly when TLS and authentication are as required. -/
theorem enforceSessionPolicy_ok {s : Session} {tls : Bool} :
    s.enforceSessionPolicy tls = .ok () ↔
      (s.policy.requireTLS = true → tls = true) ∧ (s.policy.requireAuth = true → s.authed = true) := by
  unfold enforceSessionPolicy
  rw [failIf_bind_eq_ok, failIf_eq_ok]
  cases tls <;> cases s.authed <;> simp

/-- A SASL server is handed out for the mechanism PLAIN only, with the policy's credentials. -/
theorem auth_ok {s : Session} {mech : GoString} {p : StaticAuthProvider} (h : s.auth mech = .ok p) :
    s.policy.authProvider = some p ∧ equalFold mech (lit "PLAIN") = true := by
  unfold auth at h
  split at h
  · rename_i q hreq hq
    split at h
    · rename_i hmech
      cases h
      exact ⟨hq, hmech⟩
    · nomatch h
  · nomatch h

/-- An exchange fails and changes nothing, or it authenticates, by the right credentials. -/
theorem plainExchange_spec (net : NetLib) (p : StaticAuthProvider) (s : Session)
    (responses : List (Option GoString)) :
    (∃ e, plainExchange net p s responses = (s, .error e)) ∨
    plainExchange net p s responses = ({ s with authed := true }, .ok ()) ∧
      ∃ response identity, some response ∈ responses ∧
        net.splitPlain response = some (identity, p.username, p.password) := by
  unfold plainExchange
  cases hserver : net.plainServer responses with
  | error e => exact Or.inl ⟨e, rfl⟩
  | ok credentials =>
    obtain ⟨identity, username, password⟩ := credentials
    obtain ⟨response, hmem, hsplit⟩ := net.plainServer_sent responses _ hserver
    dsimp only
    cases ha : p.authPlain username password with
    | error e => exact Or.inl ⟨_, rfl⟩
    | ok u =>
      obtain ⟨hu, ha⟩ := failIf_bind_eq_ok.mp ha
      have hp := failIf_eq_ok.mp ha
      rw [not_not] at hu hp
      refine Or.inr ⟨rfl, response, identity, hmem, ?_⟩
      rw [hsplit, hu, hp]

variable [Unicode] (lib : MailLib) (net : NetLib)

/-- One call, with the TLS status it meets. -/
def step (s : Session) (tls : Bool) : Call → Outcome
  | .auth mech responses =>
    match s.auth mech with
    | .error e => ⟨s, .error e, none⟩
    | .ok p =>
      let r := plainExchange net p s responses
      ⟨r.1, r.2, none⟩
  | .mail fromArg =>
    match s.enforceSessionPolicy tls with
    | .error e => ⟨s, .error e, none⟩
    | .ok () => ⟨{ s with fromAddr := fromArg }, .ok (), none⟩
  | .rcpt toArg =>
    match s.enforceSessionPolicy tls with
    | .error e => ⟨s, .error e, none⟩
    | .ok () => ⟨{ s with toAddrs := s.toAddrs ++ [toArg] }, .ok (), none⟩
  | .data r handlerAnswer =>
    match s.enforceSessionPolicy tls with
    | .error e => ⟨s, .error e, none⟩
    | .ok () =>
      match parseMessage lib r s.fromAddr s.toAddrs with
      | .error _ => ⟨s, .error (smtpError 554 (5, 6, 0) "invalid message content"), none⟩
      | .ok msg => ⟨s, dataResult handlerAnswer, some msg⟩
  | .reset => ⟨{ s with fromAddr := [], toAddrs := [] }, .ok (), none⟩
  | .logout => ⟨s, .ok (), none⟩

/-- A sequence of calls, each with the TLS status it meets. -/
def run (s : Session) (calls : List (Bool × Call)) : Session :=
  calls.foldl (fun s c => (step lib net s c.1 c.2).session) s

theorem run_append (s : Session) (calls : List (Bool × Call)) (c : Bool × Call) :
    run lib net s (calls ++ [c]) = (step lib net (run lib net s calls) c.1 c.2).session := by
  unfold run
  rw [List.foldl_append]
  rfl

/-! ## What one call can do -/

/-- All that a call can do: it is refused and changes nothing, or it is one of the six that take
    effect, under the conditions they take effect under. -/
inductive StepCase (s : Session) (tls : Bool) : Call → Outcome → Prop where
  | refused {c : Call} (e : GoError) (hc : c ≠ .reset) : StepCase s tls c ⟨s, .error e, none⟩
  | authenticated {mech response identity : GoString} {responses : List (Option GoString)}
      {p : StaticAuthProvider} (hp : s.policy.authProvider = some p)
      (hmech : equalFold mech (lit "PLAIN") = true) (hmem : some response ∈ responses)
      (hsplit : net.splitPlain response = some (identity, p.username, p.password)) :
      StepCase s tls (.auth mech responses) ⟨{ s with authed := true }, .ok (), none⟩
  | mailed {fromArg : GoString} (hok : s.enforceSessionPolicy tls = .ok ()) :
      StepCase s tls (.mail fromArg) ⟨{ s with fromAddr := fromArg }, .ok (), none⟩
  | named {toArg : GoString} (hok : s.enforceSessionPolicy tls = .ok ()) :
      StepCase s tls (.rcpt toArg) ⟨{ s with toAddrs := s.toAddrs ++ [toArg] }, .ok (), none⟩
  | handed {r : Reader} {answer : Except GoError Unit} {msg : Message}
      (hok : s.enforceSessionPolicy tls = .ok ())
      (hparse : parseMessage lib r s.fromAddr s.toAddrs = .ok msg) :
      StepCase s tls (.data r answer) ⟨s, dataResult answer, some msg⟩
  | reset : StepCase s tls .reset ⟨{ s with fromAddr := [], toAddrs := [] }, .ok (), none⟩
  | loggedOut : StepCase s tls .logout ⟨s, .ok (), none⟩

variable {lib net}

/-- **Every call is one of these cases.** -/
theorem step_case {s : Session} {tls : Bool} {c : Call} {o : Outcome}
    (h : step lib net s tls c = o) : StepCase lib net s tls c o := by
  subst h
  cases c with
  | auth mech responses =>
    unfold step
    dsimp only
    cases ha : s.auth mech with
    | error e => exact .refused e nofun
    | ok p =>
      obtain ⟨hp, hmech⟩ := auth_ok ha
      dsimp only
      rcases plainExchange_spec net p s responses with ⟨e, h⟩ | ⟨h, response, identity, hmem, hs⟩
      · rw [h]
        exact .refused e nofun
      · rw [h]
        exact .authenticated hp hmech hmem hs
  | mail fromArg =>
    unfold step
    dsimp only
    cases hok : s.enforceSessionPolicy tls with
    | error e => exact .refused e nofun
    | ok u => exact .mailed hok
  | rcpt toArg =>
    unfold step
    dsimp only
    cases hok : s.enforceSessionPolicy tls with
    | error e => exact .refused e nofun
    | ok u => exact .named hok
  | data r answer =>
    unfold step
    dsimp only
    cases hok : s.enforceSessionPolicy tls with
    | error e => exact .refused e nofun
    | ok u =>
      dsimp only
      cases hparse : parseMessage lib r s.fromAddr s.toAddrs with
      | error e => exact .refused _ nofun
      | ok msg => exact .handed hok hparse
  | reset => exact .reset
  | logout => exact .loggedOut

end Session

end SmtpCloudRelay.Smtp
