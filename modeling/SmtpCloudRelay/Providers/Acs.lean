/-
  THE ACS PROVIDER: `acs.Provider`, from its configuration to one call of `Submit`.

  `submit` makes up to `retryAttempts` HTTP attempts with a growing pause between them.  What the
  outside does is an `Env`: the random request id, the outcome of every HTTP exchange, and how
  each pause ends, by its timer or by the context that is done.  The request body goes out as JSON
  with an HMAC signature over it; both are functions of the request and are left out, the request
  is its fields.

  A failed attempt is a `SendError` whose `Retryable` decides: a transport error and a status of
  429 or 500 and above are retryable, everything else is final.
-/
import SmtpCloudRelay.Email.Message
import SmtpCloudRelay.Errors
import SmtpCloudRelay.Go.Time
import SmtpCloudRelay.Lib.Checks

namespace SmtpCloudRelay

open Go Lib

/-- `url.URL`, as far as the endpoint checks look at it. -/
structure URL where
  scheme : GoString
  host : GoString
  text : GoString
  deriving DecidableEq

/-- What the providers use of the standard library and of the operating system. -/
structure ProviderLib where
  /-- `url.Parse`. -/
  urlParse : GoString → Except GoError URL
  /-- `base64.StdEncoding.DecodeString`. -/
  decodeBase64 : GoString → Except GoError GoString
  /-- `mail.ParseAddress`, down to the address. -/
  parseAddress : GoString → Except GoError GoString
  /-- `os.ReadFile`. -/
  readFile : GoString → Except GoError GoString
  /-- `CertPool.AppendCertsFromPEM` finds a certificate. -/
  hasCerts : GoString → Bool
  /-- `awsconfig.LoadDefaultConfig` with these options. -/
  loadAWSConfig : (region : GoString) → Except GoError Unit
  /-- `json.Unmarshal` of an ACS operation response, down to its id. -/
  decodeOperation : GoString → Except GoError GoString
  /-- `http.ParseTime` and `time.Until`: the time left, for a date. -/
  httpDateDelay : GoString → Option Int

/-! ## Numbers in text -/

/-- The digits of a decimal number, most significant first. -/
def decimal? : Nat → GoString → Option Nat
  | n, [] => some n
  | n, b :: s => if 0x30 ≤ b ∧ b ≤ 0x39 then decimal? (n * 10 + (b.toNat - 0x30)) s else none

/-- `strconv.Atoi`: an optional sign, digits, and a value of 64 bits. -/
def atoi (s : GoString) : Option Int :=
  let inRange (v : Int) : Option Int := if -2 ^ 63 ≤ v ∧ v < 2 ^ 63 then some v else none
  match s with
  | [] => none
  | b :: rest =>
    if b = 0x2D then if rest = [] then none else (decimal? 0 rest).bind fun n => inRange (-(n : Int))
    else if b = 0x2B then if rest = [] then none else (decimal? 0 rest).bind fun n => inRange n
    else (decimal? 0 s).bind fun n => inRange n

namespace Acs

/-! ## Failures -/

/-- `acs.SendError`. -/
structure SendError where
  info : SendInfo
  err : Option GoError

/-- The error as a value of the shared error type. -/
def SendError.toGoError (e : SendError) : GoError :=
  match e.err with
  | none => .send .acs e.info
  | some err => .sendOf .acs e.info err

/-- `clampAttempt`. -/
def clampAttempt (v : Int) : Int := if v < 1 then 1 else v

/-- `isRetryableStatus`. -/
def isRetryableStatus (statusCode : Int) : Bool := statusCode = 429 || 500 ≤ statusCode

/-- `permanentSendError`. -/
def permanentSendError (requestID : GoString) (attempt attempts : Int) (err : GoError) : SendError :=
  ⟨⟨requestID, clampAttempt attempt, clampAttempt attempts, 0, false⟩, some err⟩

/-- `temporarySendError`. -/
def temporarySendError (requestID : GoString) (attempt attempts statusCode : Int) (err : GoError) :
    SendError :=
  ⟨⟨requestID, clampAttempt attempt, clampAttempt attempts, statusCode, true⟩, some err⟩

/-- `statusSendError`. -/
def statusSendError (requestID : GoString) (attempt attempts statusCode : Int) : SendError :=
  ⟨⟨requestID, clampAttempt attempt, clampAttempt attempts, statusCode,
    isRetryableStatus statusCode⟩, none⟩

/-! ## Construction -/

/-- `acs.Provider`: the fields that `Submit` reads.  There is always at least one attempt. -/
structure Provider where
  endpoint : URL
  accessKey : GoString
  sender : GoString
  retryAttempts : Nat
  retryBaseDelay : Int
  attempts_pos : 0 < retryAttempts

/-- `acs.maxRetryAttempts`. -/
def maxRetryAttempts : Int := 10

/-- The checks of the option `WithRetry`. -/
def checkRetry (attempts baseDelay : Int) : Except GoError Unit := do
  failIf (attempts < 1) (.errorf "retry attempts must be >= 1")
  failIf (maxRetryAttempts < attempts)
    (.new (lit "retry attempts must be <= " ++ itoa maxRetryAttempts))
  failIf (baseDelay ≤ 0) (.errorf "retry base delay must be > 0")

section Build

variable [Unicode] (lib : ProviderLib)

/-- One part of a connection string: a key in lower case and its value. -/
def connectionPart (part : GoString) : Except GoError (GoString × GoString) :=
  let bad : GoError := .new (lit "invalid ACS_CONNECTION_STRING part " ++ quote part)
  match cutByte 0x3D part with
  | none => .error bad
  | some (k, v) =>
    let key := toLower (trimSpace k)
    let val := trimSpace v
    if key = [] ∨ val = [] then .error bad else .ok (key, val)

/-- `parseConnectionString`: the parts between semicolons, blank ones skipped. -/
def parseConnectionString (raw : GoString) : Except GoError (List (GoString × GoString)) := do
  let parts := ((splitByte 0x3B raw).map trimSpace).filter (· ≠ [])
  let result ← parts.mapM connectionPart
  failIf (result = []) (.errorf "ACS_CONNECTION_STRING is empty")
  return result

/-- The value of a key in the map, the last one written; empty where absent. -/
def lookupPart (parts : List (GoString × GoString)) (key : GoString) : GoString :=
  ((parts.reverse.find? fun p => p.1 = key).map Prod.snd).getD []

/-- `strings.TrimRight(s, "/")`. -/
def trimSlashes (s : GoString) : GoString := (s.reverse.dropWhile (· = 0x2F)).reverse

/-- `parseConnection`. -/
def parseConnection (endpoint connectionString : GoString) : Except GoError (URL × GoString) := do
  let parts ← parseConnectionString connectionString
  let resolved :=
    if trimSpace endpoint = [] then lookupPart parts (lit "endpoint") else trimSpace endpoint
  failIf (resolved = [])
    (.errorf "acs endpoint is required (ACS_ENDPOINT or endpoint= in ACS_CONNECTION_STRING)")
  let u ← (lib.urlParse (trimSlashes resolved)).mapError (.wrap (lit "parse acs endpoint: "))
  failIf (u.scheme = [] ∨ u.host = []) (.new (lit "invalid acs endpoint " ++ quote resolved))
  failIf (equalFold u.scheme (lit "https") = false) (.errorf "acs endpoint must use https scheme")
  let accessKeyStr := lookupPart parts (lit "accesskey")
  failIf (accessKeyStr = []) (.errorf "ACS_CONNECTION_STRING missing accesskey")
  let accessKey ← (lib.decodeBase64 accessKeyStr).mapError
    (.wrap (lit "decode accesskey from ACS_CONNECTION_STRING: "))
  return (u, accessKey)

/-- An error of construction. -/
def configError (err : GoError) : GoError := (permanentSendError [] 1 1 err).toGoError

/-- The provider once the options have been checked. -/
def withOptions (u : URL) (accessKey sender : GoString) (attempts baseDelay : Int) :
    Except GoError Provider :=
  match checkRetry attempts baseDelay with
  | .error e => .error (configError (.wrap (lit "apply provider option: ") e))
  | .ok () =>
    if h : 0 < attempts.toNat then .ok ⟨u, accessKey, trimSpace sender, attempts.toNat, baseDelay, h⟩
    else .error (configError (.errorf "retry attempts must be >= 1"))

/-- `acs.NewProvider` with the options `WithRetry` and `WithHTTPClient`. -/
def newProvider (endpoint connectionString sender : GoString) (attempts baseDelay : Int) :
    Except GoError Provider := do
  let (u, accessKey) ← (parseConnection lib endpoint connectionString).mapError configError
  failIf (trimSpace sender = []) (configError (.errorf "acs sender cannot be empty"))
  withOptions u accessKey sender attempts baseDelay

end Build

/-! ## The request -/

/-- `attachmentDTO`; the content goes out in base64. -/
structure AttachmentDTO where
  name : GoString
  contentType : GoString
  content : GoString

/-- `sendRequest`. -/
structure SendRequest where
  senderAddress : GoString
  recipients : List GoString
  subject : GoString
  plainText : GoString
  html : GoString
  replyTo : List GoString
  headers : List (GoString × GoString)
  attachments : List AttachmentDTO

/-- `normalizeReplyToRecipients`: the addresses that parse and are not blank. -/
def normalizeReplyToRecipients (lib : ProviderLib) (addresses : List GoString) : List GoString :=
  addresses.filterMap fun raw =>
    if trimSpace raw = [] then none
    else
      match lib.parseAddress (trimSpace raw) with
      | .error _ => none
      | .ok address => if trimSpace address = [] then none else some address

/-- The attachment at index `i`, with the defaults for a blank name or type. -/
def attachmentDTO (i : Nat) (a : Attachment) : AttachmentDTO where
  name := if trimSpace a.filename = [] then lit "attachment-" ++ itoa (i + 1) else trimSpace a.filename
  contentType :=
    if trimSpace a.contentType = [] then lit "application/octet-stream" else trimSpace a.contentType
  content := a.data

/-- `buildSendRequest`. -/
def buildSendRequest (lib : ProviderLib) (sender : GoString) (msg : Message) :
    Except GoError SendRequest := do
  failIf (msg.toAddrs = []) (.errorf "message has no recipients")
  let toRecipients := (msg.toAddrs.map trimSpace).filter (· ≠ [])
  failIf (toRecipients = []) (.errorf "message has no valid recipients")
  return {
    senderAddress := sender
    recipients := toRecipients
    subject := msg.subject
    plainText :=
      if msg.textBody = [] ∧ msg.htmlBody = [] then lit "(empty message)" else msg.textBody
    html := msg.htmlBody
    replyTo := normalizeReplyToRecipients lib msg.replyTo
    headers := senderTraceHeaders msg
    attachments := msg.attachments.zipIdx.map fun p => attachmentDTO p.2 p.1 }

/-! ## One submission -/

/-- What goes out in one attempt: its headers and its body. -/
structure Request where
  clientRequestID : GoString
  operationID : GoString
  body : SendRequest

/-- `maxResponseBodyBytes`. -/
def maxResponseBodyBytes : Nat := 8 * 1024

/-- An HTTP response: its status, the whole body the server sends, the error that reading the first
    8 KiB of that body ends with, and two headers. -/
structure Response where
  statusCode : Int
  content : GoString
  readErr : Option GoError
  operationLocation : GoString
  retryAfter : GoString

/-- `io.ReadAll(io.LimitReader(resp.Body, maxResponseBodyBytes))`. -/
def Response.body (resp : Response) : Except GoError GoString :=
  match resp.readErr with
  | some err => .error err
  | none => .ok (resp.content.take maxResponseBodyBytes)

/-- The outcome of one HTTP attempt. -/
inductive Exchange where
  /-- `http.NewRequestWithContext` failed. -/
  | notBuilt (err : GoError)
  /-- `http.Client.Do` failed, by the transport or by the context. -/
  | failed (err : GoError)
  | answered (resp : Response)

/-- How the pause after an attempt ends: its timer fires, or the context is done with the error
    that `ctx.Err` then gives. -/
inductive Pause where
  | timer
  | done (ctxErr : GoError)

/-- What the outside does during one call of `Submit`. -/
structure Env where
  /-- `newRequestID`. -/
  requestID : Except GoError GoString
  /-- The HTTP attempts, by their number. -/
  exchange : Nat → Request → Exchange
  /-- The pauses, by the number of the attempt before them. -/
  pause : Nat → Pause

variable (lib : ProviderLib) (p : Provider) (env : Env)

/-- `decodeOperationResponse`: an empty body is an empty response. -/
def decodeOperationResponse (body : Except GoError GoString) : Except GoError GoString := do
  let body ← body
  if trimSpace body = [] then return [] else lib.decodeOperation (trimSpace body)

/-- `parseRetryAfter`. -/
def parseRetryAfter (raw : GoString) : Int :=
  let raw := trimSpace raw
  if raw = [] then 0
  else
    match atoi raw with
    | some (.ofNat seconds) => wrap64 (seconds * second)
    | _ =>
      match lib.httpDateDelay raw with
      | none => 0
      | some delay => if delay < 0 then 0 else delay

/-- `submitOnce`. -/
def submitOnce (req : Request) (attempt : Nat) : Except SendError SubmissionResult :=
  match env.exchange attempt req with
  | .notBuilt err =>
    .error (permanentSendError req.clientRequestID attempt p.retryAttempts
      (.wrap (lit "build request: ") err))
  | .failed err => .error (temporarySendError req.clientRequestID attempt p.retryAttempts 0 err)
  | .answered resp =>
    if resp.statusCode ≠ 202 then
      .error (statusSendError req.clientRequestID attempt p.retryAttempts resp.statusCode)
    else
      match decodeOperationResponse lib resp.body with
      | .error err =>
        .error (permanentSendError req.clientRequestID attempt p.retryAttempts
          (.wrap (lit "decode acs submit response: ") err))
      | .ok id => .ok {
          operationID := []
          operationLocation := trimSpace resp.operationLocation
          retryAfter := parseRetryAfter lib resp.retryAfter
          state := .running
          providerMessageID := trimSpace id
          failure := none }

/-- The retry loop of `Submit` at attempt number `attempt`, with `left` more attempts after it. -/
def submitLoop (req : Request) : (attempt left : Nat) → Except SendError SubmissionResult
  | attempt, 0 => submitOnce lib p env req attempt
  | attempt, left + 1 =>
    match submitOnce lib p env req attempt with
    | .ok result => .ok result
    | .error e =>
      if e.info.retryable then
        match env.pause attempt with
        | .done ctxErr =>
          .error (permanentSendError req.clientRequestID attempt p.retryAttempts ctxErr)
        | .timer => submitLoop req (attempt + 1) left
      else .error e

/-- `acs.Provider.Submit`. -/
def submit (msg : Message) (operationID : GoString) : Except GoError SubmissionResult :=
  match buildSendRequest lib p.sender msg with
  | .error e => .error (permanentSendError [] 1 1 e).toGoError
  | .ok body =>
    match env.requestID with
    | .error e =>
      .error (permanentSendError [] 1 1 (.wrap (lit "generate request id: ") e)).toGoError
    | .ok requestID =>
      match submitLoop lib p env ⟨requestID, trimSpace operationID, body⟩ 1 (p.retryAttempts - 1) with
      | .error e => .error e.toGoError
      | .ok result => .ok { result with operationID := trimSpace operationID, state := .running }

end Acs

end SmtpCloudRelay
