/-
  THE SES PROVIDER: `ses.Provider`, from its configuration to one call of `Submit`.

  SES takes a message in one call of the AWS SDK, which retries on its own; its acceptance is
  final.  What the SDK answers is a parameter: the message id, or an error that is an arbitrary
  chain.  `classifySendError` decides from the chain whether the failure is temporary, in this
  order: the HTTP status of a response error, the code of an API error, a text that names a
  cancelled context, and otherwise temporary.

  The MIME text that the call carries is the subject of `Providers.SesMessage`; here the call is the
  fields beside it.
-/
import SmtpCloudRelay.Providers.Acs

namespace SmtpCloudRelay.Ses

open Go Lib

/-- `strings.Contains`. -/
def contains (s sub : GoString) : Bool := sub <:+: s

/-- A link of an error chain that is a `*smithyhttp.ResponseError`: its status. -/
def response? : GoError → Option Int
  | .foreign (.response status) _ => some status
  | .foreignOf (.response status) _ _ => some status
  | _ => none

/-- A link of an error chain that is a `smithy.APIError`: its code. -/
def api? : GoError → Option GoString
  | .foreign (.api code) _ => some code
  | .foreignOf (.api code) _ _ => some code
  | _ => none

/-- `permanentSendError`, with the status that `classifySendError` may add. -/
def permanentSendError (statusCode : Int) (err : GoError) : GoError :=
  .sendOf .ses ⟨[], 1, 1, statusCode, false⟩ err

/-- `temporarySendError`. -/
def temporarySendError (statusCode : Int) (err : GoError) : GoError :=
  .sendOf .ses ⟨[], 1, 1, statusCode, true⟩ err

/-- `isRetryableStatus`. -/
def isRetryableStatus (statusCode : Int) : Bool := statusCode = 429 || 500 ≤ statusCode

section Classify

variable [Unicode]

/-- `isRetryableAPIError`. -/
def isRetryableAPIError (code : GoString) : Bool :=
  let code := toLower (trimSpace code)
  code ≠ [] && (contains code (lit "throttl") || contains code (lit "too_many_requests") ||
    contains code (lit "toomanyrequests") || contains code (lit "timeout") ||
    contains code (lit "serviceunavailable") || contains code (lit "internal"))

/-- `errorsIsContextCanceled`: the text names a context that is done. -/
def errorsIsContextCanceled (err : GoError) : Bool :=
  contains (toLower err.error) (lit "context canceled") ||
    contains (toLower err.error) (lit "context deadline exceeded")

/-- `classifySendError`. -/
def classifySendError (err : GoError) : GoError :=
  match err.as response? with
  | some status =>
    if isRetryableStatus status then temporarySendError status err
    else permanentSendError status err
  | none =>
    match err.as api? with
    | some code =>
      if isRetryableAPIError code then temporarySendError 0 err else permanentSendError 0 err
    | none =>
      if errorsIsContextCanceled err then permanentSendError 0 err else temporarySendError 0 err

end Classify

/-! ## Construction -/

/-- `ses.Provider`. -/
structure Provider where
  sender : GoString
  configurationSet : GoString

/-- The checks of the option `WithStaticCredentials`. -/
def checkCredentials (accessKeyID secretAccessKey sessionToken : GoString) : Except GoError Unit := do
  let hasAccess : Bool := trimSpace accessKeyID ≠ []
  let hasSecret : Bool := trimSpace secretAccessKey ≠ []
  failIf (hasAccess ≠ hasSecret)
    (.errorf "ses static credentials require both access key and secret")
  failIf (trimSpace sessionToken ≠ [] ∧ (!hasAccess || !hasSecret))
    (.errorf "session token requires access key and secret")

section Build

variable [Unicode] (lib : ProviderLib)

/-- `validateEndpoint`. -/
def validateEndpoint (raw : GoString) : Except GoError Unit :=
  if trimSpace raw = [] then .ok ()
  else do
    let u ← (lib.urlParse (trimSpace raw)).mapError (.wrap (lit "parse ses endpoint: "))
    failIf (u.scheme = [] ∨ u.host = []) (.new (lit "invalid ses endpoint " ++ quote (trimSpace raw)))
    failIf (equalFold u.scheme (lit "https") = false) (.errorf "ses endpoint must use https scheme")

/-- The options that the factory passes: `WithRetry`, and `WithStaticCredentials` where an access
    key is configured. -/
def checkOptions (attempts baseDelay : Int) (accessKeyID secretAccessKey sessionToken : GoString) :
    Except GoError Unit := do
  Acs.checkRetry attempts baseDelay
  if trimSpace accessKeyID ≠ [] then checkCredentials accessKeyID secretAccessKey sessionToken
  else .ok ()

/-- `ses.NewProvider` with the options of the factory. -/
def newProvider (region sender endpoint configurationSet : GoString) (attempts baseDelay : Int)
    (accessKeyID secretAccessKey sessionToken : GoString) : Except GoError Provider := do
  failIf (trimSpace region = []) (permanentSendError 0 (.errorf "ses region cannot be empty"))
  failIf (trimSpace sender = []) (permanentSendError 0 (.errorf "ses sender cannot be empty"))
  (validateEndpoint lib (trimSpace endpoint)).mapError (permanentSendError 0)
  (checkOptions attempts baseDelay accessKeyID secretAccessKey sessionToken).mapError fun e =>
    permanentSendError 0 (.wrap (lit "apply ses option: ") e)
  (lib.loadAWSConfig (trimSpace region)).mapError fun e =>
    permanentSendError 0 (.wrap (lit "load aws config: ") e)
  return ⟨trimSpace sender, trimSpace configurationSet⟩

end Build

/-! ## One submission -/

/-- The fields of `sesv2.SendEmailInput` beside the MIME text. -/
structure SendEmailInput where
  fromEmailAddress : GoString
  toAddresses : List GoString
  replyToAddresses : List GoString
  configurationSetName : Option GoString

/-- `normalizeRecipients`. -/
def normalizeRecipients (recipients : List GoString) : List GoString :=
  (recipients.map trimSpace).filter (· ≠ [])

/-- `buildRawMessage`, without the MIME text: it needs a recipient. -/
def buildInput (lib : ProviderLib) (p : Provider) (msg : Message) : Except GoError SendEmailInput := do
  failIf (normalizeRecipients msg.toAddrs = []) (.errorf "message has no valid recipients")
  return {
    fromEmailAddress := p.sender
    toAddresses := normalizeRecipients msg.toAddrs
    replyToAddresses := Acs.normalizeReplyToRecipients lib msg.replyTo
    configurationSetName := if p.configurationSet = [] then none else some p.configurationSet }

/-- `ses.Provider.Submit`; `sendEmail` is the call of the AWS SDK. -/
def submit [Unicode] (lib : ProviderLib) (p : Provider)
    (sendEmail : SendEmailInput → Except GoError GoString) (msg : Message) (_ : GoString) :
    Except GoError SubmissionResult :=
  match buildInput lib p msg with
  | .error e => .error (permanentSendError 0 e)
  | .ok input =>
    match sendEmail input with
    | .error err => .error (classifySendError err)
    | .ok messageID => .ok {
        operationID := []
        operationLocation := []
        retryAfter := 0
        state := .succeeded
        providerMessageID := messageID
        failure := none }

end SmtpCloudRelay.Ses
