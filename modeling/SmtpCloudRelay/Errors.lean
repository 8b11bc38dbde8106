/-
  GO ERRORS, as the values that `errors.As` and `errors.Is` inspect.

  An error of the relay is a CHAIN: a value that may wrap another one.  Its classes matter, not
  only its text, since retrying, dead-lettering and recovery are decided by asking whether some
  link of the chain is a `StoreError`, a `PayloadCorruptionError`, a provider's `SendError` or a
  context error.  `GoError` has one constructor for every error type the code distinguishes, and
  `foreign` / `foreignOf` for the errors of libraries, whose text is arbitrary and which are told
  apart by their `Foreign` class only.

  `chain` lists the links from the outside in; `as` and `is` search it, as package `errors` does.
-/
import SmtpCloudRelay.Go.Strings
import SmtpCloudRelay.Lib.Disk

namespace SmtpCloudRelay

open Go Lib

/-- The message of an error number. -/
def errnoText : Errno → GoString
  | .enoent => lit "no such file or directory"
  | .eexist => lit "file exists"
  | .exdev => lit "invalid cross-device link"
  | .eloop => lit "too many levels of symbolic links"
  | .enotdir => lit "not a directory"
  | .enotempty => lit "directory not empty"
  | .eisdir => lit "is a directory"
  | .einval => lit "invalid argument"
  | .enxio => lit "no such device or address"
  | .other t => t

/-- The class of a library's error, where the code asks for it. -/
inductive Foreign where
  /-- Any other type. -/
  | plain
  /-- `*smithyhttp.ResponseError`, with its HTTP status. -/
  | response (status : Int)
  /-- `smithy.APIError`, with its error code. -/
  | api (code : GoString)
  /-- `*gosmtp.SMTPError`, with its reply code and enhanced code; its text is the message. -/
  | smtp (code : Nat) (enhanced : Nat × Nat × Nat)
  deriving DecidableEq

/-- The provider package that a `SendError` belongs to. -/
inductive SendProvider where
  | acs
  | ses
  deriving DecidableEq

/-- `SendError.ProviderName`. -/
def SendProvider.providerName : SendProvider → GoString
  | .acs => lit "acs"
  | .ses => lit "ses"

/-- The fields of a `SendError` beside the error it wraps. -/
structure SendInfo where
  requestID : GoString
  attempt : Int
  attempts : Int
  statusCode : Int
  retryable : Bool
  deriving DecidableEq

/-- A Go error value. -/
inductive GoError where
  /-- `errors.New`, or `fmt.Errorf` without `%w`. -/
  | new (text : GoString)
  /-- `fmt.Errorf` with `%w` at its end. -/
  | wrap (before : GoString) (err : GoError)
  /-- `context.Canceled`. -/
  | canceled
  /-- `context.DeadlineExceeded`. -/
  | deadlineExceeded
  /-- A failed system call. -/
  | errno (e : Errno)
  /-- The spool's own `errUnexpectedFileType`. -/
  | unexpectedFileType
  /-- A library's error that wraps nothing. -/
  | foreign (kind : Foreign) (text : GoString)
  /-- A library's error that wraps another. -/
  | foreignOf (kind : Foreign) (text : GoString) (err : GoError)
  /-- A provider's `SendError` whose `Err` is nil. -/
  | send (provider : SendProvider) (info : SendInfo)
  /-- A provider's `SendError` around another error. -/
  | sendOf (provider : SendProvider) (info : SendInfo) (err : GoError)
  /-- `*spool.StoreError`. -/
  | store (op : GoString) (err : GoError)
  /-- `*spool.RecordCorruptionError`. -/
  | recordCorruption (recordID : GoString) (err : GoError)
  /-- `*spool.PayloadCorruptionError`. -/
  | payloadCorruption (id path : GoString) (err : GoError)
  deriving DecidableEq

namespace GoError

/-- `fmt.Errorf` with a constant text. -/
def errorf (s : String) : GoError := .new (lit s)

/-- The error and everything it wraps, from the outside in. -/
def chain : GoError → List GoError
  | e@(.new _) => [e]
  | e@(.wrap _ err) => e :: err.chain
  | e@.canceled => [e]
  | e@.deadlineExceeded => [e]
  | e@(.errno _) => [e]
  | e@.unexpectedFileType => [e]
  | e@(.foreign _ _) => [e]
  | e@(.foreignOf _ _ err) => e :: err.chain
  | e@(.send _ _) => [e]
  | e@(.sendOf _ _ err) => e :: err.chain
  | e@(.store _ err) => e :: err.chain
  | e@(.recordCorruption _ err) => e :: err.chain
  | e@(.payloadCorruption _ _ err) => e :: err.chain

/-- `errors.Is` against a sentinel value. -/
def is (e target : GoError) : Bool := e.chain.contains target

/-- `errors.As`: the first link that `sel` recognises. -/
def as {α : Type} (sel : GoError → Option α) (e : GoError) : Option α := e.chain.findSome? sel

/-- A link that is a `DeliveryError`: the provider's name and whether it is temporary, with the
    error itself for its text. -/
def delivery? : GoError → Option (SendProvider × SendInfo × GoError)
  | e@(.send p i) => some (p, i, e)
  | e@(.sendOf p i _) => some (p, i, e)
  | _ => none

/-- `email.AsDeliveryError`. -/
def asDeliveryError (e : GoError) : Option (SendProvider × SendInfo × GoError) := e.as delivery?

/-- A link that is a `StoreError`. -/
def store? : GoError → Option GoString
  | .store op _ => some op
  | _ => none

/-- `spool.AsStoreError`, as the test it is used for. -/
def isStoreError (e : GoError) : Bool := (e.as store?).isSome

/-- A link that is a `RecordCorruptionError`. -/
def recordCorruption? : GoError → Option GoError
  | e@(.recordCorruption _ _) => some e
  | _ => none

/-- `spool.AsRecordCorruptionError`. -/
def asRecordCorruptionError (e : GoError) : Option GoError := e.as recordCorruption?

/-- A link that is a `PayloadCorruptionError`. -/
def payloadCorruption? : GoError → Option GoError
  | e@(.payloadCorruption _ _ _) => some e
  | _ => none

/-- `spool.AsPayloadCorruptionError`, as the test it is used for. -/
def isPayloadCorruption (e : GoError) : Bool := (e.as payloadCorruption?).isSome

/-- A link that is a `*gosmtp.SMTPError`. -/
def smtp? : GoError → Option GoError
  | e@(.foreign (.smtp _ _) _) => some e
  | e@(.foreignOf (.smtp _ _) _ _) => some e
  | _ => none

section Text

variable [Unicode]

/-- `SendError.Error` before the status or the wrapped error is added. -/
def sendText (p : SendProvider) (i : SendInfo) : GoString :=
  p.providerName ++ lit " send failed request_id=" ++ i.requestID ++ lit " attempt=" ++
    itoa i.attempt ++ lit "/" ++ itoa i.attempts ++ lit " retryable=" ++
    lit (if i.retryable then "true" else "false")

/-- The method `Error`. -/
def error : GoError → GoString
  | .new t => t
  | .wrap before err => before ++ err.error
  | .canceled => lit "context canceled"
  | .deadlineExceeded => lit "context deadline exceeded"
  | .errno e => errnoText e
  | .unexpectedFileType => lit "unexpected file type"
  | .foreign _ t => t
  | .foreignOf _ t _ => t
  | .send p i =>
    if 0 < i.statusCode then sendText p i ++ lit " status=" ++ itoa i.statusCode
    else sendText p i
  | .sendOf p i err =>
    if 0 < i.statusCode then sendText p i ++ lit " status=" ++ itoa i.statusCode
    else sendText p i ++ lit " err=" ++ err.error
  | .store op err =>
    if trimSpace op = [] then lit "spool store error: " ++ err.error
    else lit "spool store " ++ trimSpace op ++ lit ": " ++ err.error
  | .recordCorruption id err =>
    lit "spool record " ++ quote id ++ lit " is corrupt: " ++ err.error
  | .payloadCorruption id path err =>
    if path = [] then lit "spool payload " ++ quote id ++ lit " is corrupt: " ++ err.error
    else lit "spool payload " ++ quote id ++ lit " at " ++ path ++ lit " is corrupt: " ++ err.error

end Text

/-- `spool.wrapStoreError`, for an error that is not nil: an error that is store-scoped already
    keeps its operation. -/
def wrapStoreError (op : GoString) (err : GoError) : GoError :=
  if err.isStoreError then err else .store op err

end GoError
/-- A `*gosmtp.SMTPError`. -/
def smtpError (code : Nat) (enhanced : Nat × Nat × Nat) (message : String) : GoError :=
  .foreign (.smtp code enhanced) (lit message)

end SmtpCloudRelay
