/-
  NEVER AN OPEN RELAY.

  The relay accepts mail from a client only when three conditions hold at that moment: the client
  connects from an allowed network, it has authenticated earlier in the same session with the
  configured credentials, and TLS is active where TLS is required.  They are checked in three
  different places (on connecting, in the SASL callback, in each of three commands), and the
  client chooses the order of everything.

  The invariant that carries the proof is `authed_only_after_exchange`: the flag `authed` is set
  in a state only when the history that led there contains a successful PLAIN exchange with the
  configured credentials.  The network is a fact about the session from its first moment, and TLS
  and the flag are asked anew by every command that has an effect.
-/
import SmtpCloudRelay.Smtp.Server
import SmtpCloudRelay.Config

namespace SmtpCloudRelay.Smtp

open Go Lib

section Wiring

variable [Unicode] (parsePrefix : GoString → Except GoError Prefix)
  (loadTLS : (certFile keyFile : GoString) → Except GoError Unit)

/-- STARTTLS or SMTPS is configured, so that `main` needs a certificate. -/
def needsTLS (c : Config) : Bool := c.smtpStartTLSEnabled || trimSpace c.smtpsListenAddr ≠ []

/-- The certificate is loaded where one is needed. -/
def loadServerTLS (c : Config) : Except GoError Unit :=
  if needsTLS c then loadTLS (trimSpace c.smtpTLSCertFile) (trimSpace c.smtpTLSKeyFile) else .ok ()

/-- The part of `main` that creates the SMTP server from the configuration. -/
def serverFromConfig (c : Config) : Except GoError SessionPolicy := do
  let allowedCIDRs ← Config.parseCIDRs parsePrefix c.smtpAllowedCIDRs
  loadServerTLS loadTLS c
  newServer {
    listenAddr := c.smtpListenAddr
    smtpsListenAddr := c.smtpsListenAddr
    allowedCIDRs := allowedCIDRs
    requireAuth := c.smtpRequireAuth
    requireTLS := c.smtpRequireTLS
    startTLSEnabled := c.smtpStartTLSEnabled
    hasTLSConfig := needsTLS c } (some ⟨c.smtpAuthUsername, c.smtpAuthPassword⟩)

variable {parsePrefix loadTLS}

/-- A server made from a configuration enforces what the configuration says. -/
theorem serverFromConfig_ok {c : Config} {policy : SessionPolicy}
    (h : serverFromConfig parsePrefix loadTLS c = .ok policy) :
    ∃ allowed, Config.parseCIDRs parsePrefix c.smtpAllowedCIDRs = .ok allowed ∧
      policy = ⟨allowed, c.smtpRequireAuth, c.smtpRequireTLS,
        some ⟨c.smtpAuthUsername, c.smtpAuthPassword⟩⟩ := by
  obtain ⟨allowed, hallowed, h⟩ := bind_eq_ok.mp h
  obtain ⟨_, -, h⟩ := bind_eq_ok.mp h
  exact ⟨allowed, hallowed, newServer_ok h⟩

end Wiring

namespace Session

section Client

variable [Unicode] (lib : MailLib) (net : NetLib)

/-- In the history of a session that began as `s`, there is a successful PLAIN exchange with these
    credentials. -/
def Authenticated (s : Session) (history : List (Bool × Call)) (username password : GoString) : Prop :=
  ∃ before after tls mech responses response identity,
    history = before ++ (tls, .auth mech responses) :: after ∧
    equalFold mech (lit "PLAIN") = true ∧
    some response ∈ responses ∧
    net.splitPlain response = some (identity, username, password) ∧
    (step lib net (run lib net s before) tls (.auth mech responses)).result = .ok ()

variable {lib net}

/-- A longer history keeps the exchanges it had. -/
theorem Authenticated.snoc {s : Session} {history : List (Bool × Call)} {u p : GoString}
    (h : Authenticated lib net s history u p) (c : Bool × Call) :
    Authenticated lib net s (history ++ [c]) u p := by
  obtain ⟨before, after, tls, mech, responses, response, identity, rfl, h⟩ := h
  exact ⟨before, after ++ [c], tls, mech, responses, response, identity, by simp, h⟩

/-- No call changes the policy. -/
theorem step_policy (s : Session) (tls : Bool) (c : Call) :
    (step lib net s tls c).session.policy = s.policy := by
  generalize ho : step lib net s tls c = o
  cases step_case ho <;> rfl

theorem run_policy (s : Session) (history : List (Bool × Call)) :
    (run lib net s history).policy = s.policy := by
  induction history using List.reverseRecOn with
  | nil => rfl
  | append_singleton history c ih => rw [run_append, step_policy, ih]

/-- **The flag means what it says**: in a session that began unauthenticated, `authed` is set only
    after a successful exchange with the policy's credentials. -/
theorem authed_only_after_exchange {s : Session} {p : StaticAuthProvider} (hs : s.authed = false)
    (hp : s.policy.authProvider = some p) (history : List (Bool × Call))
    (hauthed : (run lib net s history).authed = true) :
    Authenticated lib net s history p.username p.password := by
  induction history using List.reverseRecOn with
  | nil =>
    rw [show (run lib net s []).authed = s.authed from rfl, hs] at hauthed
    nomatch hauthed
  | append_singleton history c ih =>
    rw [run_append] at hauthed
    obtain ⟨tls, c⟩ := c
    -- either this very call authenticated, or the flag was set before it
    generalize ho : step lib net (run lib net s history) tls c = o at hauthed
    cases step_case ho with
    | authenticated hq hmech hmem hsplit =>
      rw [run_policy, hp] at hq
      cases hq
      exact ⟨history, [], tls, _, _, _, _, rfl, hmech, hmem, hsplit, by rw [ho]⟩
    | refused e hc | mailed hok | named hok | handed hok hparse | reset
    | loggedOut => exact (ih hauthed).snoc _

variable (lib net)

/-- What has to hold before the relay takes mail from a client: its network, its authentication in
    this session, and TLS where it is required. -/
structure Permitted (c : Config) (allowed : List Prefix) (remote : RemoteAddr) (s : Session)
    (history : List (Bool × Call)) (tls : Bool) : Prop where
  network : ∃ addr, remoteAddrIP net remote = .ok addr ∧ ∃ p ∈ allowed, p.contains addr = true
  authenticated : Authenticated lib net s history c.smtpAuthUsername c.smtpAuthPassword
  encrypted : c.smtpRequireTLS = true → tls = true

variable {lib net}

omit [Unicode] in
/-- A session exists only for a client of an allowed network, and starts empty. -/
theorem newSession_ok {policy : SessionPolicy} {remote : RemoteAddr} {s : Session}
    (h : newSession net policy remote = .ok s) :
    s = ⟨policy, [], [], false⟩ ∧
      ∃ addr, remoteAddrIP net remote = .ok addr ∧ ∃ p ∈ policy.allowedCIDRs, p.contains addr = true := by
  unfold newSession at h
  split at h
  · nomatch h
  · rename_i addr haddr
    split at h
    · rename_i hallowed
      cases h
      exact ⟨rfl, addr, haddr, List.any_eq_true.mp hallowed⟩
    · nomatch h

/-- Where the session policy lets a call pass, the client is permitted. -/
theorem permitted_of_policy {parsePrefix : GoString → Except GoError Prefix}
    {loadTLS : (certFile keyFile : GoString) → Except GoError Unit} {c : Config}
    {policy : SessionPolicy} {remote : RemoteAddr} {s : Session}
    (hvalid : Config.validate parsePrefix c = .ok ())
    (hserver : serverFromConfig parsePrefix loadTLS c = .ok policy)
    (hsession : newSession net policy remote = .ok s) {history : List (Bool × Call)} {tls : Bool}
    (hok : (run lib net s history).enforceSessionPolicy tls = .ok ()) :
    Permitted lib net c policy.allowedCIDRs remote s history tls := by
  obtain ⟨allowed, -, rfl⟩ := serverFromConfig_ok hserver
  obtain ⟨rfl, hnetwork⟩ := newSession_ok hsession
  obtain ⟨htls, hauth⟩ := enforceSessionPolicy_ok.mp hok
  rw [run_policy] at htls hauth
  exact {
    network := hnetwork
    authenticated := authed_only_after_exchange rfl rfl history
      (hauth (Config.valid_of_validate hvalid).requireAuth)
    encrypted := htls }

/-- **Never an open relay.**  In every session of a server that `main` builds from a validated
    configuration, after any history of calls: a message reaches the handler, and a MAIL or RCPT
    argument is accepted, only for a permitted client; and a call of a client that is not
    permitted leaves the envelope as it was, unless it is the reset that clears it. -/
theorem never_open_relay (parsePrefix : GoString → Except GoError Prefix)
    (loadTLS : (certFile keyFile : GoString) → Except GoError Unit) (lib : MailLib) (net : NetLib)
    (c : Config) (policy : SessionPolicy) (remote : RemoteAddr) (s : Session)
    (hvalid : Config.validate parsePrefix c = .ok ())
    (hserver : serverFromConfig parsePrefix loadTLS c = .ok policy)
    (hsession : newSession net policy remote = .ok s)
    (history : List (Bool × Call)) (tls : Bool) (call : Call) (o : Outcome)
    (ho : step lib net (run lib net s history) tls call = o) :
    (∀ msg, o.handed = some msg → Permitted lib net c policy.allowedCIDRs remote s history tls) ∧
    (∀ arg, call = .mail arg ∨ call = .rcpt arg → o.result = .ok () →
      Permitted lib net c policy.allowedCIDRs remote s history tls) ∧
    (¬ Permitted lib net c policy.allowedCIDRs remote s history tls → call ≠ .reset →
      o.session.fromAddr = (run lib net s history).fromAddr ∧
      o.session.toAddrs = (run lib net s history).toAddrs) := by
  have hpermitted : (run lib net s history).enforceSessionPolicy tls = .ok () →
      Permitted lib net c policy.allowedCIDRs remote s history tls :=
    permitted_of_policy hvalid hserver hsession
  cases step_case ho with
  | refused e hc =>
    exact ⟨nofun, nofun, fun _ _ => ⟨rfl, rfl⟩⟩
  | authenticated hq hmech hmem hsplit =>
    refine ⟨nofun, fun arg h => ?_, fun _ _ => ⟨rfl, rfl⟩⟩
    rcases h with h | h <;> nomatch h
  | mailed hok =>
    exact ⟨fun _ _ => hpermitted hok, fun _ _ _ => hpermitted hok, fun h => absurd (hpermitted hok) h⟩
  | named hok =>
    exact ⟨fun _ _ => hpermitted hok, fun _ _ _ => hpermitted hok, fun h => absurd (hpermitted hok) h⟩
  | handed hok hparse =>
    exact ⟨fun _ _ => hpermitted hok, fun _ _ _ => hpermitted hok, fun h => absurd (hpermitted hok) h⟩
  | reset =>
    refine ⟨nofun, fun arg h => ?_, fun _ h => absurd rfl h⟩
    rcases h with h | h <;> nomatch h
  | loggedOut =>
    refine ⟨nofun, fun arg h => ?_, fun _ _ => ⟨rfl, rfl⟩⟩
    rcases h with h | h <;> nomatch h

end Client

/-- Readers that take every message for plain text without headers. -/
def plainLib : MailLib where
  readMessage r := .ok (fun _ => [], r)
  parseMediaType s := ⟨s, fun _ => [], none⟩
  parts _ _ := ([], none)
  parts_shorter _ _ _ h := nomatch h
  decodeBase64 s := .ok s
  decodeQuotedPrintable s := .ok s
  parseAddress s := .ok s
  parseAddressList s := .ok [s]
  decodeWords s := .ok s

/-- The response `login` is the user's. -/
def splitLogin (r : GoString) : Option (GoString × GoString × GoString) :=
  if r = lit "login" then some ([], lit "user", lit "secret") else none

/-- A server that takes the first response. -/
def firstResponse (rs : List (Option GoString)) : Except GoError (GoString × GoString × GoString) :=
  match (rs.filterMap id).head?.bind splitLogin with
  | some credentials => .ok credentials
  | none => .error (.foreign .plain (lit "Invalid response"))

theorem firstResponse_sent (rs : List (Option GoString)) (credentials : GoString × GoString × GoString)
    (h : firstResponse rs = .ok credentials) :
    ∃ response, some response ∈ rs ∧ splitLogin response = some credentials := by
  unfold firstResponse at h
  split at h
  · rename_i hfirst
    cases h
    obtain ⟨response, hhead, hsplit⟩ := Option.bind_eq_some_iff.mp hfirst
    obtain ⟨_, hmem, rfl⟩ := List.mem_filterMap.mp (List.mem_of_mem_head? hhead)
    exact ⟨response, hmem, hsplit⟩
  · nomatch h

/-- A SASL library with this server. -/
def loginNet : NetLib where
  splitHostPort _ := none
  parseAddr _ := .error (.errorf "unable to parse IP")
  splitPlain := splitLogin
  plainServer := firstResponse
  plainServer_sent := firstResponse_sent

/-- The policy of the small configuration. -/
def smallPolicy : SessionPolicy where
  allowedCIDRs := [⟨.v4 0x0A000000, 8⟩]
  requireAuth := true
  requireTLS := true
  authProvider := some ⟨lit "user", lit "secret"⟩

/-- A fresh session of a client of that network. -/
def smallSession : Session := ⟨smallPolicy, [], [], false⟩

/-- A client that logs in and sends one message. -/
def oneMessage : List (Bool × Call) :=
  [(true, .auth (lit "PLAIN") [none, some (lit "login")]),
   (true, .mail (lit "a@corp.test")), (true, .rcpt (lit "x@dest.test"))]

/-- The message of that client is handed on, and the client is permitted. -/
theorem never_open_relay_small :
    letI := Unicode.ascii
    (step plainLib loginNet (run plainLib loginNet smallSession oneMessage) true
      (.data ⟨lit "Hello", none⟩ (.ok ()))).handed.isSome = true ∧
    Permitted plainLib loginNet Config.small smallPolicy.allowedCIDRs (.tcp [10, 1, 2, 3])
      smallSession oneMessage true :=
  letI := Unicode.ascii
  ⟨rfl, (never_open_relay Config.tenNet (fun _ _ => .ok ()) plainLib loginNet Config.small smallPolicy
    (.tcp [10, 1, 2, 3]) smallSession rfl rfl rfl oneMessage true
    (.data ⟨lit "Hello", none⟩ (.ok ())) _ rfl).1 _ rfl⟩

end Session

end SmtpCloudRelay.Smtp
