/-
  CONFIGURATION: the record `config.Config` and `Validate`, its cross-field check.

  `validate` is the sequence of tests of the source, in its order and with its messages, so that
  the FIRST violated rule is the one reported.  `netip.ParsePrefix` is a parameter: nothing here
  depends on the notation of a network, only on whether it parses and to which prefix.

  `validate_ok` is the specification that the rest of the development uses: what a validated
  configuration is known to satisfy.  It is derived once, test by test.
-/
import SmtpCloudRelay.Errors
import SmtpCloudRelay.Go.Netip
import SmtpCloudRelay.Lib.Checks

namespace SmtpCloudRelay

open Go Lib

/-- `config.Config`: the fields that validation, the SMTP server, the providers and the worker
    read. -/
structure Config where
  smtpListenAddr : GoString
  deliveryMode : GoString
  smtpAllowedCIDRs : List GoString
  smtpRequireAuth : Bool
  smtpAuthProvider : GoString
  smtpAuthUsername : GoString
  smtpAuthPassword : GoString
  smtpStartTLSEnabled : Bool
  smtpRequireTLS : Bool
  smtpsListenAddr : GoString
  smtpTLSCertFile : GoString
  smtpTLSKeyFile : GoString
  smtpMaxInflightSends : Int
  senderPolicyMode : GoString
  deliveryRetryAttempts : Int
  deliveryRetryBaseDelayMS : Int
  deliveryHTTPTimeoutMS : Int
  deliveryHTTPMaxIdleConns : Int
  deliveryHTTPMaxIdleConnsPerHost : Int
  deliveryHTTPIdleConnTimeoutMS : Int
  spoolDir : GoString
  spoolPollIntervalMS : Int
  acsEndpoint : GoString
  acsConnectionString : GoString
  acsSender : GoString
  outboundTLSCAFile : GoString
  outboundTLSCAPEM : GoString
  sesRegion : GoString
  sesSender : GoString
  sesEndpoint : GoString
  sesConfigurationSet : GoString
  sesAccessKeyID : GoString
  sesSecretAccessKey : GoString
  sesSessionToken : GoString

namespace Config

/-- `config.maxDeliveryRetryAttempts`. -/
def maxDeliveryRetryAttempts : Int := 10

section Parse

variable [Unicode] (parsePrefix : GoString → Except GoError Prefix)

/-- The loop of `ParseCIDRs`: blank entries are skipped, the first bad one ends it. -/
def parseCIDRsLoop : List GoString → Except GoError (List Prefix)
  | [] => .ok []
  | raw :: values =>
    if trimSpace raw = [] then parseCIDRsLoop values
    else
      match parsePrefix (trimSpace raw) with
      | .error e =>
        .error (.wrap (lit "invalid CIDR in SMTP_ALLOWED_CIDRS: " ++ quote (trimSpace raw) ++
          lit ": ") e)
      | .ok pfx => (parseCIDRsLoop values).map (pfx :: ·)

/-- `config.ParseCIDRs`. -/
def parseCIDRs (values : List GoString) : Except GoError (List Prefix) := do
  let out ← parseCIDRsLoop parsePrefix values
  failIf (out = []) (.errorf "SMTP_ALLOWED_CIDRS contains no valid entries")
  return out

/-- The delivery modes there are. -/
def modes : List GoString := [lit "acs", lit "noop", lit "ses"]

/-- The second switch of `Validate`: what the delivery mode itself requires. -/
def validateMode (c : Config) : Except GoError Unit :=
  if c.deliveryMode = lit "acs" then do
    failIf (trimSpace c.acsConnectionString = [])
      (.errorf "ACS_CONNECTION_STRING is required when DELIVERY_MODE=acs")
    failIf (trimSpace c.acsSender = [])
      (.errorf "ACS_SENDER is required when DELIVERY_MODE=acs")
  else if c.deliveryMode = lit "ses" then do
    failIf (trimSpace c.sesRegion = [])
      (.errorf "SES_REGION is required when DELIVERY_MODE=ses")
    failIf (trimSpace c.sesSender = [])
      (.errorf "SES_SENDER is required when DELIVERY_MODE=ses")
    let hasAccess : Bool := trimSpace c.sesAccessKeyID ≠ []
    let hasSecret : Bool := trimSpace c.sesSecretAccessKey ≠ []
    failIf (hasAccess ≠ hasSecret)
      (.errorf "SES_ACCESS_KEY_ID and SES_SECRET_ACCESS_KEY must both be set or both be empty")
    failIf (trimSpace c.sesSessionToken ≠ [] ∧ (!hasAccess || !hasSecret))
      (.errorf "SES_SESSION_TOKEN requires SES_ACCESS_KEY_ID and SES_SECRET_ACCESS_KEY")
  else .ok ()

/-- The part of `Validate` about who may connect. -/
def validateAccess (c : Config) : Except GoError Unit := do
  failIf (c.smtpAllowedCIDRs = [])
    (.errorf "SMTP_ALLOWED_CIDRS must be configured to avoid open relay")
  let _ ← parseCIDRs parsePrefix c.smtpAllowedCIDRs
  failIf (c.smtpRequireAuth = false)
    (.errorf "SMTP_REQUIRE_AUTH must be true to avoid open relay")
  failIf (trimSpace c.smtpAuthProvider ≠ lit "static")
    (.new (lit "SMTP_AUTH_PROVIDER " ++ quote c.smtpAuthProvider ++
      lit " is not supported; expected static"))
  failIf (trimSpace c.smtpAuthUsername = [])
    (.errorf "SMTP_AUTH_USERNAME is required when SMTP_REQUIRE_AUTH=true")
  failIf (trimSpace c.smtpAuthPassword = [])
    (.errorf "SMTP_AUTH_PASSWORD is required when SMTP_REQUIRE_AUTH=true")

/-- The part of `Validate` about TLS. -/
def validateTLS (c : Config) : Except GoError Unit := do
  failIf ((c.smtpStartTLSEnabled = true ∨ trimSpace c.smtpsListenAddr ≠ []) ∧
      ¬ (trimSpace c.smtpTLSCertFile ≠ [] ∧ trimSpace c.smtpTLSKeyFile ≠ []))
    (.errorf "SMTP_TLS_CERT_FILE and SMTP_TLS_KEY_FILE are required when STARTTLS or SMTPS is enabled")
  failIf (c.smtpRequireTLS = true ∧ c.smtpStartTLSEnabled = false ∧ trimSpace c.smtpsListenAddr = [])
    (.errorf "SMTP_REQUIRE_TLS=true requires SMTP_STARTTLS_ENABLED=true or SMTPS_LISTEN_ADDR to be set")

/-- The part of `Validate` about numbers, the sender policy and the spool. -/
def validateLimits (c : Config) : Except GoError Unit := do
  failIf (c.smtpMaxInflightSends < 1) (.errorf "SMTP_MAX_INFLIGHT_SENDS must be >= 1")
  failIf (trimSpace c.senderPolicyMode ∉ [lit "rewrite", lit "strict"])
    (.errorf "SENDER_POLICY_MODE must be one of: rewrite, strict")
  failIf (c.deliveryRetryAttempts < 1) (.errorf "DELIVERY_RETRY_ATTEMPTS must be >= 1")
  failIf (maxDeliveryRetryAttempts < c.deliveryRetryAttempts)
    (.new (lit "DELIVERY_RETRY_ATTEMPTS must be <= " ++ itoa maxDeliveryRetryAttempts))
  failIf (c.deliveryRetryBaseDelayMS < 1) (.errorf "DELIVERY_RETRY_BASE_DELAY_MS must be >= 1")
  failIf (c.deliveryHTTPTimeoutMS < 1) (.errorf "DELIVERY_HTTP_TIMEOUT_MS must be >= 1")
  failIf (c.deliveryHTTPMaxIdleConns < 1) (.errorf "DELIVERY_HTTP_MAX_IDLE_CONNS must be >= 1")
  failIf (c.deliveryHTTPMaxIdleConnsPerHost < 1)
    (.errorf "DELIVERY_HTTP_MAX_IDLE_CONNS_PER_HOST must be >= 1")
  failIf (c.deliveryHTTPIdleConnTimeoutMS < 1)
    (.errorf "DELIVERY_HTTP_IDLE_CONN_TIMEOUT_MS must be >= 1")
  failIf (trimSpace c.spoolDir = []) (.errorf "SPOOL_DIR must be non-empty")
  failIf (c.spoolPollIntervalMS < 1) (.errorf "SPOOL_POLL_INTERVAL_MS must be >= 1")

/-- `Config.Validate`. -/
def validate (c : Config) : Except GoError Unit := do
  failIf (c.deliveryMode ∉ modes) (.errorf "DELIVERY_MODE must be one of: acs, noop, ses")
  validateMode c
  validateAccess parsePrefix c
  validateTLS c
  validateLimits c

/-- What a validated configuration satisfies, as far as the server and the worker rely on it. -/
structure Valid (c : Config) : Prop where
  mode : c.deliveryMode ∈ modes
  cidrs : ∃ allowed, parseCIDRs parsePrefix c.smtpAllowedCIDRs = .ok allowed
  requireAuth : c.smtpRequireAuth = true
  retryAttempts : 1 ≤ c.deliveryRetryAttempts ∧ c.deliveryRetryAttempts ≤ maxDeliveryRetryAttempts
  retryBaseDelay : 1 ≤ c.deliveryRetryBaseDelayMS
  pollInterval : 1 ≤ c.spoolPollIntervalMS

variable {parsePrefix}

/-- **What validation lets through is valid.** -/
theorem valid_of_validate {c : Config} (h : validate parsePrefix c = .ok ()) :
    Valid parsePrefix c := by
  obtain ⟨hmode, h⟩ := failIf_bind_eq_ok.mp h
  obtain ⟨_, -, h⟩ := bind_eq_ok.mp h
  obtain ⟨_, haccess, h⟩ := bind_eq_ok.mp h
  obtain ⟨_, -, hlimits⟩ := bind_eq_ok.mp h
  -- the access list
  obtain ⟨-, haccess⟩ := failIf_bind_eq_ok.mp haccess
  obtain ⟨allowed, hallowed, haccess⟩ := bind_eq_ok.mp haccess
  obtain ⟨hauth, -⟩ := failIf_bind_eq_ok.mp haccess
  -- the numbers, in the order of their tests
  obtain ⟨-, hlimits⟩ := failIf_bind_eq_ok.mp hlimits
  obtain ⟨-, hlimits⟩ := failIf_bind_eq_ok.mp hlimits
  obtain ⟨hlow, hlimits⟩ := failIf_bind_eq_ok.mp hlimits
  obtain ⟨hhigh, hlimits⟩ := failIf_bind_eq_ok.mp hlimits
  obtain ⟨hbase, hlimits⟩ := failIf_bind_eq_ok.mp hlimits
  obtain ⟨-, hlimits⟩ := failIf_bind_eq_ok.mp hlimits
  obtain ⟨-, hlimits⟩ := failIf_bind_eq_ok.mp hlimits
  obtain ⟨-, hlimits⟩ := failIf_bind_eq_ok.mp hlimits
  obtain ⟨-, hlimits⟩ := failIf_bind_eq_ok.mp hlimits
  obtain ⟨-, hlimits⟩ := failIf_bind_eq_ok.mp hlimits
  have hpoll := failIf_eq_ok.mp hlimits
  exact {
    mode := not_not.mp hmode
    cidrs := ⟨allowed, hallowed⟩
    requireAuth := by simpa using hauth
    retryAttempts := ⟨by omega, by omega⟩
    retryBaseDelay := by omega
    pollInterval := by omega }

end Parse

/-- A small configuration for ACS, with one network and one user. -/
def small : Config where
  smtpListenAddr := lit "0.0.0.0:2525"
  deliveryMode := lit "acs"
  smtpAllowedCIDRs := [lit "10.0.0.0/8"]
  smtpRequireAuth := true
  smtpAuthProvider := lit "static"
  smtpAuthUsername := lit "user"
  smtpAuthPassword := lit "secret"
  smtpStartTLSEnabled := true
  smtpRequireTLS := true
  smtpsListenAddr := []
  smtpTLSCertFile := lit "tls.crt"
  smtpTLSKeyFile := lit "tls.key"
  smtpMaxInflightSends := 200
  senderPolicyMode := lit "rewrite"
  deliveryRetryAttempts := 3
  deliveryRetryBaseDelayMS := 1000
  deliveryHTTPTimeoutMS := 30000
  deliveryHTTPMaxIdleConns := 200
  deliveryHTTPMaxIdleConnsPerHost := 50
  deliveryHTTPIdleConnTimeoutMS := 90000
  spoolDir := lit "/var/lib/smtp-cloud-relay/spool"
  spoolPollIntervalMS := 1000
  acsEndpoint := lit "https://acs.test"
  acsConnectionString := lit "accesskey=a2V5"
  acsSender := lit "relay@corp.test"
  outboundTLSCAFile := []
  outboundTLSCAPEM := []
  sesRegion := []
  sesSender := []
  sesEndpoint := []
  sesConfigurationSet := []
  sesAccessKeyID := []
  sesSecretAccessKey := []
  sesSessionToken := []

/-- A parser that reads every network as 10.0.0.0/8. -/
def tenNet (_ : GoString) : Except GoError Prefix := .ok ⟨.v4 0x0A000000, 8⟩

end Config

end SmtpCloudRelay
