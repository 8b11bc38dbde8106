/-
  THE SMTP SERVER, as far as it decides what a session is allowed: `smtp.NewServer` checks its
  configuration and turns it into the policy that every session is created with.
-/
import SmtpCloudRelay.Smtp.Session

namespace SmtpCloudRelay.Smtp

open Go Lib

/-- `smtp.Config`: the fields that decide about access.  `hasTLSConfig` tells that `TLSConfig` is
    not nil. -/
structure ServerConfig where
  listenAddr : GoString
  smtpsListenAddr : GoString
  allowedCIDRs : List Prefix
  requireAuth : Bool
  requireTLS : Bool
  startTLSEnabled : Bool
  hasTLSConfig : Bool

/-- `smtp.NewServer`, with a handler, down to the session policy. -/
def newServer (cfg : ServerConfig) (authProvider : Option StaticAuthProvider) :
    Except GoError SessionPolicy := do
  failIf (cfg.allowedCIDRs = []) (.errorf "at least one allowed CIDR is required")
  failIf (trimSpace cfg.listenAddr = [] ∧ trimSpace cfg.smtpsListenAddr = [])
    (.errorf "at least one SMTP listener address is required")
  failIf (cfg.requireAuth = true ∧ authProvider.isNone)
    (.errorf "auth provider is required when auth is enforced")
  failIf ((cfg.startTLSEnabled = true ∨ trimSpace cfg.smtpsListenAddr ≠ []) ∧
      cfg.hasTLSConfig = false)
    (.errorf "tls config is required when STARTTLS or SMTPS is enabled")
  return {
    allowedCIDRs := cfg.allowedCIDRs
    requireAuth := cfg.requireAuth
    requireTLS := cfg.requireTLS
    authProvider := authProvider }

/-- The policy is the configuration's. -/
theorem newServer_ok {cfg : ServerConfig} {authProvider : Option StaticAuthProvider}
    {policy : SessionPolicy} (h : newServer cfg authProvider = .ok policy) :
    policy = ⟨cfg.allowedCIDRs, cfg.requireAuth, cfg.requireTLS, authProvider⟩ := by
  obtain ⟨-, h⟩ := failIf_bind_eq_ok.mp h
  obtain ⟨-, h⟩ := failIf_bind_eq_ok.mp h
  obtain ⟨-, h⟩ := failIf_bind_eq_ok.mp h
  obtain ⟨-, h⟩ := failIf_bind_eq_ok.mp h
  cases h
  rfl

end SmtpCloudRelay.Smtp
