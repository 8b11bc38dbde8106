/-
  THE PROVIDER FACTORY: `providers.Build` picks the provider of the delivery mode and computes the
  time budget of one submission, `SendTimeout`.

  The budget covers every HTTP attempt and every pause between two of them, in SATURATING
  arithmetic, and two seconds on top: for ACS and SES it is therefore positive whatever the
  configuration holds.  The noop provider comes without a budget.
-/
import SmtpCloudRelay.Providers.Ses
import SmtpCloudRelay.Config

namespace SmtpCloudRelay.Providers

open Go Lib

/-! ## The time budget

The budget is computed in 64 bits.  Its functions are written once, for every `fit` that says what
becomes of the result of an operation: with `pure` they are those on the integers, and with a check
they find out whether anything overflows. -/

section Budget

variable {m : Type → Type} [Monad m] (fit : Int → m Int)

/-- `saturatingAdd`: the sum of the positive values, at most `maxDuration`. -/
def saturatingAdd (total : Int) : List Int → m Int
  | [] => pure total
  | v :: values =>
    if v ≤ 0 then saturatingAdd total values
    else do
      let room ← fit (maxDuration - v)
      if room < total then pure maxDuration
      else do
        let total ← fit (total + v)
        saturatingAdd total values

/-- `multiplyDuration`. -/
def multiplyDuration (d n : Int) : m Int :=
  if d ≤ 0 ∨ n ≤ 0 then pure 0
  else do
    let quotient ← fit (maxDuration / n)
    if quotient < d then pure maxDuration else fit (d * n)

/-- The delay of the next round of `retryBackoffTotal`. -/
def nextBackoff (backoff : Int) : m Int :=
  if maxDuration / 2 < backoff then pure maxDuration else fit (backoff * 2)

/-- The loop of `retryBackoffTotal`: `i` pauses from `backoff` on. -/
def backoffSum (total backoff : Int) : Nat → m Int
  | 0 => pure total
  | i + 1 => do
    let total ← saturatingAdd fit 0 [total, backoff]
    let backoff ← nextBackoff fit backoff
    backoffSum total backoff i

/-- `retryBackoffTotal`. -/
def backoffTotal (base attempts : Int) : m Int :=
  if attempts ≤ 1 ∨ base ≤ 0 then pure 0 else backoffSum fit 0 base (attempts - 1).toNat

/-- `runtimeSendTimeout`. -/
def sendTimeout (httpTimeout baseDelay attempts : Int) : m Int := do
  let transport ← multiplyDuration fit httpTimeout attempts
  let pauses ← backoffTotal fit baseDelay attempts
  saturatingAdd fit 0 [transport, pauses, 2 * second]

end Budget

/-- `retryBackoffTotal`, on the integers. -/
def retryBackoffTotal (base attempts : Int) : Int := Id.run (backoffTotal pure base attempts)

/-- `runtimeSendTimeout`, on the integers. -/
def runtimeSendTimeout (httpTimeout baseDelay attempts : Int) : Int :=
  Id.run (sendTimeout pure httpTimeout baseDelay attempts)

/-- The sum is positive when its last value is. -/
theorem saturatingAdd_pos {total v : Int} (htotal : 0 ≤ total) (hmax : total ≤ maxDuration)
    (hv : 0 < v) (values : List Int) : 0 < Id.run (saturatingAdd pure total (values ++ [v])) := by
  induction values generalizing total with
  | nil =>
    show 0 < Id.run (saturatingAdd pure total [v])
    unfold saturatingAdd
    rw [if_neg (by omega)]
    show 0 < if maxDuration - v < total then maxDuration else total + v
    split
    · decide
    · omega
  | cons u values ih =>
    rw [List.cons_append, saturatingAdd]
    split
    · exact ih htotal hmax
    · show 0 < Id.run (if maxDuration - u < total then pure maxDuration
        else saturatingAdd pure (total + u) (values ++ [v]))
      split
      · decide
      · exact ih (by omega) (by omega)

/-- **The budget of a submission is positive**, whatever the configured numbers are. -/
theorem runtimeSendTimeout_pos (httpTimeout baseDelay attempts : Int) :
    0 < runtimeSendTimeout httpTimeout baseDelay attempts :=
  saturatingAdd_pos (Int.le_refl 0) (by decide) (by decide) [_, _]

/-! ## The HTTP client -/

/-- `httpclient.Config`. -/
structure HTTPConfig where
  timeout : Int
  maxIdleConns : Int
  maxIdleConnsPerHost : Int
  idleConnTimeout : Int
  tlsCAFile : GoString
  tlsCAPEM : GoString

section Client

variable [Unicode] (lib : ProviderLib)

/-- `validatePEM`. -/
def validatePEM (raw : GoString) : Except GoError Unit := do
  failIf (trimSpace raw = []) (.errorf "tls ca pem cannot be empty")
  failIf (lib.hasCerts (trimSpace raw) = false)
    (.errorf "tls ca pem does not contain valid certificates")

/-- The certificates of the file, where one is named. -/
def pemFromFile (filePath : GoString) : Except GoError Unit :=
  if trimSpace filePath = [] then .ok ()
  else do
    let b ← (lib.readFile (trimSpace filePath)).mapError
      (.wrap (lit "read tls ca file " ++ quote (trimSpace filePath) ++ lit ": "))
    validatePEM lib b

/-- The certificates given inline, where there are some. -/
def pemInline (inlinePEM : GoString) : Except GoError Unit :=
  if trimSpace inlinePEM = [] then .ok () else validatePEM lib (trimSpace inlinePEM)

/-- `httpclient.Build`, as the checks it makes. -/
def buildHTTPClient (cfg : HTTPConfig) : Except GoError Unit := do
  failIf (cfg.timeout ≤ 0) (.errorf "http timeout must be > 0")
  failIf (cfg.maxIdleConns ≤ 0) (.errorf "http max idle conns must be > 0")
  failIf (cfg.maxIdleConnsPerHost ≤ 0) (.errorf "http max idle conns per host must be > 0")
  failIf (cfg.idleConnTimeout ≤ 0) (.errorf "http idle conn timeout must be > 0")
  pemFromFile lib cfg.tlsCAFile
  pemInline lib cfg.tlsCAPEM

/-- The client configuration that both HTTP providers are given. -/
def httpConfig (c : Config) : HTTPConfig where
  timeout := durationOfMillis c.deliveryHTTPTimeoutMS
  maxIdleConns := c.deliveryHTTPMaxIdleConns
  maxIdleConnsPerHost := c.deliveryHTTPMaxIdleConnsPerHost
  idleConnTimeout := durationOfMillis c.deliveryHTTPIdleConnTimeoutMS
  tlsCAFile := c.outboundTLSCAFile
  tlsCAPEM := c.outboundTLSCAPEM

/-! ## The provider of the delivery mode -/

/-- The provider that was built. -/
inductive Provider where
  | noop
  | acs (p : Acs.Provider)
  | ses (p : Ses.Provider)

/-- `providers.Runtime`. -/
structure Runtime where
  provider : Provider
  sendTimeout : Int

/-- The time budget of a configuration. -/
def sendTimeoutOf (c : Config) : Int :=
  runtimeSendTimeout (durationOfMillis c.deliveryHTTPTimeoutMS)
    (durationOfMillis c.deliveryRetryBaseDelayMS) c.deliveryRetryAttempts

/-- A branch of `Build`: the HTTP client, then the provider, with the budget of the configuration. -/
def buildWith (c : Config) (name : String) (provider : Except GoError Provider) :
    Except GoError Runtime := do
  (buildHTTPClient lib (httpConfig c)).mapError
    (.wrap (lit "build " ++ lit name ++ lit " http client: "))
  let p ← provider
  return ⟨p, sendTimeoutOf c⟩

/-- The branch `acs` of `Build`. -/
def buildAcs (c : Config) : Except GoError Runtime :=
  buildWith lib c "acs" ((Acs.newProvider lib c.acsEndpoint c.acsConnectionString c.acsSender
    c.deliveryRetryAttempts (durationOfMillis c.deliveryRetryBaseDelayMS)).map .acs)

/-- The branch `ses` of `Build`. -/
def buildSes (c : Config) : Except GoError Runtime :=
  buildWith lib c "ses" ((Ses.newProvider lib c.sesRegion c.sesSender c.sesEndpoint
    c.sesConfigurationSet c.deliveryRetryAttempts (durationOfMillis c.deliveryRetryBaseDelayMS)
    c.sesAccessKeyID c.sesSecretAccessKey c.sesSessionToken).map .ses)

/-- `providers.Build`. -/
def build (c : Config) : Except GoError Runtime :=
  let mode := toLower (trimSpace c.deliveryMode)
  if mode = lit "noop" then .ok ⟨.noop, 0⟩
  else if mode = lit "acs" then buildAcs lib c
  else if mode = lit "ses" then buildSes lib c
  else .error (.new (lit "unsupported delivery mode " ++ quote c.deliveryMode))

variable {lib}

/-- The runtime of an ACS or SES configuration has the configured budget. -/
theorem build_budget {c : Config} {rt : Runtime}
    (hmode : c.deliveryMode = lit "acs" ∨ c.deliveryMode = lit "ses") (h : build lib c = .ok rt) :
    rt.sendTimeout = sendTimeoutOf c := by
  have hwith : ∀ {name provider}, buildWith lib c name provider = .ok rt →
      rt.sendTimeout = sendTimeoutOf c := by
    intro name provider h
    obtain ⟨_, -, h⟩ := bind_eq_ok.mp h
    obtain ⟨p, -, h⟩ := bind_eq_ok.mp h
    cases h
    rfl
  unfold build at h
  rcases hmode with hmode | hmode
  · rw [hmode] at h
    exact hwith (show buildAcs lib c = .ok rt from h)
  · rw [hmode] at h
    exact hwith (show buildSes lib c = .ok rt from h)

/-- The runtime of a noop configuration has no budget. -/
theorem build_noop {c : Config} {rt : Runtime} (hmode : c.deliveryMode = lit "noop")
    (h : build lib c = .ok rt) : rt.sendTimeout = 0 := by
  unfold build at h
  rw [hmode] at h
  have h : (Except.ok ⟨.noop, 0⟩ : Except GoError Runtime) = .ok rt := h
  cases h
  rfl

end Client

end SmtpCloudRelay.Providers
