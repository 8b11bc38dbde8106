/-
  THE SENDER POLICY: whose replies a message may ask for.

  The original sender of a message is its first Reply-To address, or its From address when it has no
  Reply-To.  A policy looks at the DOMAIN of that address, in lower case, and its matchers accept it
  or not (no matchers accept every domain).  An accepted sender becomes the only Reply-To address; in
  every other case the message loses its Reply-To, and in strict mode it is rejected.

  `mail.ParseAddress` is a parameter, and a matcher is what it accepts; `DomainPatterns` compiles them.
-/
import SmtpCloudRelay.Email.Message
import SmtpCloudRelay.Errors

namespace SmtpCloudRelay

open Go

/-- `email.SenderPolicyMode`, the two values that `NewSenderPolicy` lets through. -/
inductive SenderPolicyMode where
  | rewrite
  | strict
  deriving DecidableEq

/-- `email.SenderPolicy`: a mode, and what each of its compiled matchers accepts. -/
structure SenderPolicy where
  mode : SenderPolicyMode
  matchers : List (GoString → Bool)

/-- The reasons of a decision against the original sender. -/
inductive SenderPolicyReason where
  | noOriginalSender
  | invalidOriginalSender
  | disallowedSenderDomain
  deriving DecidableEq

/-- The constants `SenderPolicyReason…`. -/
def SenderPolicyReason.text : SenderPolicyReason → GoString
  | .noOriginalSender => lit "no_original_sender"
  | .invalidOriginalSender => lit "invalid_original_sender"
  | .disallowedSenderDomain => lit "disallowed_sender_domain"

/-- `email.SenderPolicyResult`; no reason is the empty one. -/
structure SenderPolicyResult where
  message : Message
  originalSender : GoString
  effectiveReplyTo : List GoString
  decisionReason : Option SenderPolicyReason
  deriving DecidableEq

/-- `email.SenderPolicyError`. -/
structure SenderPolicyError where
  reason : SenderPolicyReason
  deriving DecidableEq

/-- `SenderPolicyError.Error`. -/
def SenderPolicyError.error (e : SenderPolicyError) : GoString :=
  lit "sender policy rejected message: " ++ e.reason.text

/-- `selectOriginalSender`. -/
def selectOriginalSender (msg : Message) : GoString :=
  match msg.replyTo with
  | first :: _ => trimSpace first
  | [] => trimSpace msg.headerFrom

/-- `SenderPolicy.allowedDomain`. -/
def SenderPolicy.allowedDomain (policy : SenderPolicy) (domain : GoString) : Bool :=
  policy.matchers = [] || policy.matchers.any fun matcher => matcher domain

/-- `applyPolicyDecision`: the Reply-To is dropped, and in strict mode the message is rejected. -/
def applyPolicyDecision (result : SenderPolicyResult) (mode : SenderPolicyMode)
    (reason : SenderPolicyReason) : Except SenderPolicyError SenderPolicyResult :=
  match mode with
  | .strict => .error ⟨reason⟩
  | .rewrite => .ok { result with
      message := { result.message with replyTo := [] }
      effectiveReplyTo := []
      decisionReason := some reason }

section

variable [Unicode] (parseAddress : GoString → Except GoError GoString)

/-- `senderDomain`: what stands after the last `@` of the parsed address, in lower case. -/
def senderDomain (address : GoString) : Option GoString :=
  match parseAddress (trimSpace address) with
  | .error _ => none
  | .ok parsed =>
    match cutLast 0x40 parsed with
    | none => none
    | some (before, after) =>
      if before = [] ∨ after = [] then none
      else if trimSpace after = [] then none
      else some (toLower (trimSpace after))

/-- `email.ApplySenderPolicy`. -/
def applySenderPolicy (msg : Message) (policy : SenderPolicy) :
    Except SenderPolicyError SenderPolicyResult :=
  let candidate := selectOriginalSender msg
  let result : SenderPolicyResult := ⟨msg, candidate, [], none⟩
  if candidate = [] then applyPolicyDecision result policy.mode .noOriginalSender
  else
    match senderDomain parseAddress candidate with
    | none => applyPolicyDecision result policy.mode .invalidOriginalSender
    | some domain =>
      if policy.allowedDomain domain then
        .ok { result with
          message := { msg with replyTo := [candidate] }
          effectiveReplyTo := [candidate] }
      else applyPolicyDecision result policy.mode .disallowedSenderDomain

end

end SmtpCloudRelay
