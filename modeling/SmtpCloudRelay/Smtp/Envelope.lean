/-
  ENVELOPE ISOLATION: which sender and which recipients a message is handed on with.

  The session collects an envelope over several calls, and the message of a DATA call is to carry
  the envelope of ITS OWN transaction: the sender of the most recent MAIL since the last reset and
  the recipients named after that MAIL.  Said on the history of calls, newest first:

  * `transaction` is what was called since the last reset;
  * `afterMail` and `upToMail` cut it at the most recent MAIL;
  * `recipients` are the RCPT arguments of the first part, `carried` those of the second, both
    trimmed and without the blank ones.

  `session.Mail` sets the sender and LEAVES THE RECIPIENTS: a second MAIL without a reset in
  between keeps the recipients named for the first sender.  So the handed message goes to
  `carried ++ recipients` (`handed_envelope`), and the envelope is isolated exactly when nothing is
  carried (`envelope_isolated_iff`).
-/
import SmtpCloudRelay.Smtp.Access

namespace SmtpCloudRelay.Smtp.Session

open Go Lib

/-! ## The envelope a history calls for -/

namespace Call

def isReset : Call → Bool
  | .reset => true
  | _ => false

def isMail : Call → Bool
  | .mail _ => true
  | _ => false

/-- The argument of a RCPT call. -/
def rcptArg? : Call → Option GoString
  | .rcpt toArg => some toArg
  | _ => none

/-- The argument of a MAIL call. -/
def mailArg? : Call → Option GoString
  | .mail fromArg => some fromArg
  | _ => none

end Call

/-- The calls since the last reset, newest first. -/
def transaction (recent : List Call) : List Call := recent.takeWhile fun c => !c.isReset

/-- Those of them after the most recent MAIL. -/
def afterMail (recent : List Call) : List Call := (transaction recent).takeWhile fun c => !c.isMail

/-- Those of them up to the most recent MAIL. -/
def upToMail (recent : List Call) : List Call := (transaction recent).dropWhile fun c => !c.isMail

/-- The RCPT arguments of calls given newest first, in the order they were made. -/
def rcptArgs (recent : List Call) : List GoString := (recent.filterMap Call.rcptArg?).reverse

/-- The argument of the most recent MAIL, empty when there is none. -/
def mailArg (recent : List Call) : GoString := ((transaction recent).findSome? Call.mailArg?).getD []

/-- The sender that a message is to carry. -/
def sender (recent : List Call) : GoString := trimSpace (mailArg recent)

/-- The recipients that a message is to carry. -/
def recipients (recent : List Call) : List GoString := normalizeAddresses (rcptArgs (afterMail recent))

/-- The recipients named before the most recent MAIL and after the last reset. -/
def carried (recent : List Call) : List GoString := normalizeAddresses (rcptArgs (upToMail recent))

theorem rcptArgs_append (a b : List Call) : rcptArgs (a ++ b) = rcptArgs b ++ rcptArgs a := by
  unfold rcptArgs
  rw [List.filterMap_append, List.reverse_append]

theorem normalizeAddresses_append (a b : List GoString) :
    normalizeAddresses (a ++ b) = normalizeAddresses a ++ normalizeAddresses b := by
  unfold normalizeAddresses
  rw [List.map_append, List.filter_append]

/-- The recipients of a whole transaction: the carried ones, then the message's own. -/
theorem normalize_transaction (recent : List Call) :
    normalizeAddresses (rcptArgs (transaction recent)) = carried recent ++ recipients recent := by
  have hcut : afterMail recent ++ upToMail recent = transaction recent :=
    List.takeWhile_append_dropWhile
  rw [← hcut, rcptArgs_append, normalizeAddresses_append]
  rfl

/-! ## The envelope the session collects -/

/-- The calls of a history, newest first. -/
def newestFirst (history : List (Bool × Call)) : List Call := (history.map Prod.snd).reverse

theorem newestFirst_snoc (history : List (Bool × Call)) (c : Bool × Call) :
    newestFirst (history ++ [c]) = c.2 :: newestFirst history := by
  unfold newestFirst
  rw [List.map_append, List.reverse_append]
  rfl

section Client

variable [Unicode] (lib : MailLib) (net : NetLib)

/-- Every call of the history succeeds, from the session `s` on. -/
def AllSucceed : Session → List (Bool × Call) → Prop
  | _, [] => True
  | s, c :: history =>
    (step lib net s c.1 c.2).result = .ok () ∧ AllSucceed (step lib net s c.1 c.2).session history

variable {lib net}

theorem allSucceed_append {s : Session} {a b : List (Bool × Call)} :
    AllSucceed lib net s (a ++ b) ↔ AllSucceed lib net s a ∧ AllSucceed lib net (run lib net s a) b := by
  induction a generalizing s with
  | nil => exact ⟨fun h => ⟨trivial, h⟩, fun h => h.2⟩
  | cons c a ih =>
    show _ ∧ AllSucceed lib net _ (a ++ b) ↔ (_ ∧ AllSucceed lib net _ a) ∧ _
    rw [ih]
    exact and_assoc.symm

/-- **What the session remembers**: the argument of the most recent MAIL and ALL the RCPT
    arguments since the last reset. -/
theorem run_envelope {s : Session} (hfrom : s.fromAddr = []) (hto : s.toAddrs = [])
    (history : List (Bool × Call)) (hok : AllSucceed lib net s history) :
    (run lib net s history).fromAddr = mailArg (newestFirst history) ∧
    (run lib net s history).toAddrs = rcptArgs (transaction (newestFirst history)) := by
  induction history using List.reverseRecOn with
  | nil => exact ⟨hfrom, hto⟩
  | append_singleton history c ih =>
    obtain ⟨hok, hres, -⟩ := allSucceed_append.mp hok
    obtain ⟨ihfrom, ihto⟩ := ih hok
    obtain ⟨tls, c⟩ := c
    rw [run_append, newestFirst_snoc]
    generalize ho : step lib net (run lib net s history) tls c = o at hres ⊢
    -- a call that is not MAIL, RCPT or RESET changes neither side
    cases step_case ho with
    | refused e hc => nomatch hres
    | authenticated hq hmech hmem hsplit => exact ⟨ihfrom, ihto⟩
    | mailed hok => exact ⟨rfl, ihto⟩
    | named hok =>
      refine ⟨ihfrom, ?_⟩
      show (run lib net s history).toAddrs ++ [_] = _
      rw [ihto]
      exact (List.reverse_cons ..).symm
    | handed hok hparse => exact ⟨ihfrom, ihto⟩
    | reset => exact ⟨rfl, rfl⟩
    | loggedOut => exact ⟨ihfrom, ihto⟩

/-- **What a message is handed on with**: the sender it is to carry, and the carried recipients
    before its own. -/
theorem handed_envelope {s : Session} (hfrom : s.fromAddr = []) (hto : s.toAddrs = [])
    {history : List (Bool × Call)} (hok : AllSucceed lib net s history) {tls : Bool} {c : Call}
    {msg : Message} (hmsg : (step lib net (run lib net s history) tls c).handed = some msg) :
    msg.envelopeFrom = sender (newestFirst history) ∧
    msg.toAddrs = carried (newestFirst history) ++ recipients (newestFirst history) := by
  obtain ⟨hf, ht⟩ := run_envelope hfrom hto history hok
  generalize ho : step lib net (run lib net s history) tls c = o at hmsg
  cases step_case ho with
  | handed hpolicy hparse =>
    cases hmsg
    obtain ⟨hsender, hrcpt⟩ := parseMessage_envelope hparse
    rw [hf] at hsender
    rw [ht, normalize_transaction] at hrcpt
    exact ⟨hsender, hrcpt⟩
  | refused e hc | authenticated hq hmech hmem hsplit | mailed hok | named hok | reset
  | loggedOut => nomatch hmsg

variable (lib net)

/-- Every message of the history was handed on with the envelope of its own transaction. -/
def Isolated (s : Session) (history : List (Bool × Call)) : Prop :=
  ∀ before tls r answer after msg, history = before ++ (tls, .data r answer) :: after →
    (step lib net (run lib net s before) tls (.data r answer)).handed = some msg →
    msg.envelopeFrom = sender (newestFirst before) ∧ msg.toAddrs = recipients (newestFirst before)

/-- At every DATA call of the history, no recipient had been named before the most recent MAIL of
    its transaction. -/
def NothingCarried (history : List (Bool × Call)) : Prop :=
  ∀ before tls r answer after, history = before ++ (tls, .data r answer) :: after →
    carried (newestFirst before) = []

variable {lib net}

/-- A DATA call that succeeded handed a message on. -/
theorem handed_of_success {s : Session} {tls : Bool} {r : Reader} {answer : Except GoError Unit}
    (h : (step lib net s tls (.data r answer)).result = .ok ()) :
    ∃ msg, (step lib net s tls (.data r answer)).handed = some msg := by
  generalize ho : step lib net s tls (.data r answer) = o at h ⊢
  cases step_case ho with
  | refused e hc => nomatch h
  | handed hok hparse => exact ⟨_, rfl⟩

/-- **Envelopes are isolated exactly when nothing is carried over.**  For every session and every
    history of successful calls: each message has the sender of the most recent MAIL and exactly
    the recipients named after it if and only if, at every DATA call, no recipient had been named
    between the last reset and the most recent MAIL. -/
theorem envelope_isolated_iff (lib : MailLib) (net : NetLib) (policy : SessionPolicy)
    (remote : RemoteAddr) (s : Session) (hsession : newSession net policy remote = .ok s)
    (history : List (Bool × Call)) (hok : AllSucceed lib net s history) :
    Isolated lib net s history ↔ NothingCarried history := by
  obtain ⟨rfl, -⟩ := newSession_ok hsession
  constructor
  · rintro hiso before tls r answer after rfl
    obtain ⟨hbefore, hdata, -⟩ := allSucceed_append.mp hok
    obtain ⟨msg, hmsg⟩ := handed_of_success hdata
    have hto := (handed_envelope rfl rfl hbefore hmsg).2
    rw [(hiso before tls r answer after msg rfl hmsg).2] at hto
    exact List.append_left_eq_self.mp hto.symm
  · rintro hnone before tls r answer after msg rfl hmsg
    obtain ⟨hsender, hto⟩ := handed_envelope rfl rfl (allSucceed_append.mp hok).1 hmsg
    rw [hnone before tls r answer after rfl, List.nil_append] at hto
    exact ⟨hsender, hto⟩

end Client

/-- One authenticated client, two senders, no reset in between. -/
def twoSenders : List (Bool × Call) :=
  [(true, .auth (lit "PLAIN") [some (lit "login")]),
   (true, .mail (lit "a@corp.test")), (true, .rcpt (lit "x@dest.test")),
   (true, .mail (lit "b@corp.test")), (true, .rcpt (lit "y@dest.test"))]

/-- The DATA call that ends the session. -/
def lastData : Bool × Call := (true, .data ⟨lit "Hello", none⟩ (.ok ()))

/-- The message of the second sender is handed on with the recipient named for the first. -/
theorem second_mail_keeps_recipients :
    letI := Unicode.ascii
    newSession loginNet smallPolicy (.tcp [10, 1, 2, 3]) = .ok smallSession ∧
    AllSucceed plainLib loginNet smallSession (twoSenders ++ [lastData]) ∧
    (step plainLib loginNet (run plainLib loginNet smallSession twoSenders) true lastData.2).handed.map
      (fun msg => (msg.envelopeFrom, msg.toAddrs)) =
        some (lit "b@corp.test", [lit "x@dest.test", lit "y@dest.test"]) ∧
    ¬ Isolated plainLib loginNet smallSession (twoSenders ++ [lastData]) := by
  let _ := Unicode.ascii
  refine ⟨rfl, ⟨rfl, rfl, rfl, rfl, rfl, rfl, trivial⟩, rfl, fun h => ?_⟩
  exact absurd (h twoSenders true _ _ [] _ rfl rfl).2 (by decide)

/-- A client that names one sender gets its envelope. -/
theorem envelope_isolated_one_sender :
    letI := Unicode.ascii
    NothingCarried (oneMessage ++ [lastData]) ∧
    Isolated plainLib loginNet smallSession (oneMessage ++ [lastData]) := by
  let _ := Unicode.ascii
  have hnone : NothingCarried (oneMessage ++ [lastData]) := by
    -- the one DATA call is the last of four
    rintro (_ | ⟨c1, _ | ⟨c2, _ | ⟨c3, _ | ⟨c4, before⟩⟩⟩⟩) tls r answer after h
    · nomatch h
    · nomatch h
    · nomatch h
    · cases h
      rfl
    · have := congrArg List.length h
      simp [oneMessage] at this
  refine ⟨hnone, ?_⟩
  exact (envelope_isolated_iff plainLib loginNet smallPolicy (.tcp [10, 1, 2, 3]) smallSession rfl
    (oneMessage ++ [lastData]) ⟨rfl, rfl, rfl, rfl, trivial⟩).mpr hnone

end SmtpCloudRelay.Smtp.Session
