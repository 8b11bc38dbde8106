/-
  THE EMAIL MODEL that all parts of the relay share: the message, and what a provider answers.

  A message is provider-independent: the SMTP parser produces it, the spool stores it and a
  provider sends it.  Slices are lists, so that a nil slice and an empty one are the same.

  A `SubmissionState` is a string type in the source with four named values; any other string a
  provider may return is kept as `other`.
-/
import SmtpCloudRelay.Go.Strings

namespace SmtpCloudRelay

open Go

/-- `email.Attachment`. -/
structure Attachment where
  filename : GoString
  contentType : GoString
  data : List UInt8
  deriving DecidableEq

/-- `email.Message`; `toAddrs` is its field `To`. -/
structure Message where
  envelopeFrom : GoString
  headerFrom : GoString
  replyTo : List GoString
  toAddrs : List GoString
  subject : GoString
  textBody : GoString
  htmlBody : GoString
  attachments : List Attachment
  deriving DecidableEq

/-- The zero `email.Message`. -/
def Message.zero : Message := ⟨[], [], [], [], [], [], [], []⟩

/-- `email.SubmissionState`. -/
inductive SubmissionState where
  | running
  | succeeded
  | failed
  | canceled
  | other (s : GoString)
  deriving DecidableEq

/-- The string of a state. -/
def SubmissionState.text : SubmissionState → GoString
  | .running => lit "running"
  | .succeeded => lit "succeeded"
  | .failed => lit "failed"
  | .canceled => lit "canceled"
  | .other s => s

/-- `email.SubmissionFailure`. -/
structure SubmissionFailure where
  message : GoString
  temporary : Bool
  deriving DecidableEq

/-- `email.SubmissionResult`. -/
structure SubmissionResult where
  operationID : GoString
  operationLocation : GoString
  retryAfter : Int
  state : SubmissionState
  providerMessageID : GoString
  failure : Option SubmissionFailure
  deriving DecidableEq

/-- `email.SubmissionStatus`. -/
structure SubmissionStatus where
  operationID : GoString
  retryAfter : Int
  state : SubmissionState
  providerMessageID : GoString
  failure : Option SubmissionFailure
  deriving DecidableEq

/-- `email.SenderTraceHeaders`: the non-empty sender trace headers, as name and value. -/
def senderTraceHeaders (msg : Message) : List (GoString × GoString) :=
  (if trimSpace msg.envelopeFrom ≠ []
    then [(lit "X-SMTP-Relay-Envelope-From", trimSpace msg.envelopeFrom)] else []) ++
  (if trimSpace msg.headerFrom ≠ []
    then [(lit "X-SMTP-Relay-Header-From", trimSpace msg.headerFrom)] else [])

end SmtpCloudRelay
