/-
  THE REPLY-TO THAT GOES OUT, against the sender policy.

  The policy judges the address that `mail.ParseAddress` makes of the original sender, and lets the
  sender through AS IT STANDS; the provider parses it again and sends what it gets.  Each parse takes
  one level of quoting away, so a comma that was quoted when the policy looked is bare in the field
  that goes out, and cuts it into two mailboxes of which the policy judged the last.  The policy also
  trims the domain that it judges, which the providers do not.

  Of `mail.ParseAddress` it is known that it returns `local@domain`, where the domain is a dot-atom or
  an address literal.
-/
import SmtpCloudRelay.Go.AddressList
import SmtpCloudRelay.Email.SenderPolicy
import SmtpCloudRelay.Providers.SesMessage

namespace SmtpCloudRelay.Ses

open Go Lib List

/-! ## A visible byte is not trimmed -/

theorem mem_strip {p1 : UInt8 → Bool} {p2 : UInt8 → UInt8 → Bool}
    {p3 : UInt8 → UInt8 → UInt8 → Bool} {b : UInt8} {s : GoString} (hb : b ∈ s)
    (h : ∀ e, Dropped p1 p2 p3 e → b ∉ e) : b ∈ strip p1 p2 p3 s := by
  obtain ⟨l, hl, hs⟩ := strip_dropped p1 p2 p3 s
  have hb : b ∈ l.flatten ++ strip p1 p2 p3 s := hs ▸ hb
  refine (mem_append.mp hb).resolve_left fun hb => ?_
  obtain ⟨e, he, hbe⟩ := mem_flatten.mp hb
  exact h e (hl e he) hbe

theorem trimSpace_ne_nil {s : GoString} (h : 0x40 ∈ s) : trimSpace s ≠ [] := by
  have hno : ∀ e, Dropped isSpace1 isSpace2 isSpace3 e → (0x40 : UInt8) ∉ e := by
    intro e he hat
    have henc := isEnc_of_dropped he
    rcases e with - | ⟨a, - | ⟨b, e⟩⟩
    · cases hat
    · cases mem_singleton.mp hat
      exact absurd (show isSpace1 0x40 = true from he) (by decide)
    · exact absurd (Utf8.high_of_isEnc henc _ hat) (by decide)
  have hleft : 0x40 ∈ trimLeft s := mem_strip h hno
  refine ne_nil_of_mem (a := 0x40) (mem_reverse.mpr (mem_strip ?_ fun e he hat => ?_))
  · exact mem_reverse.mpr hleft
  · exact hno _ (dropped_reverse he) (mem_reverse.mpr hat)

/-! ## The field in the bytes -/

/-- The value of a Reply-To line. -/
def replyToValue (line : GoString) : Option GoString :=
  if lit "Reply-To: " <+: line then some (line.drop 10) else none

/-- The values of the Reply-To fields in the header section of a text. -/
def replyToValues (raw : GoString) : List GoString :=
  ((headerSection raw).map Prod.fst).elim [] (·.filterMap replyToValue)

/-- **The Reply-To field in the bytes** is what the builder has joined. -/
theorem replyToValues_raw [Unicode] (bs : Boundaries) {m : Outgoing} (msg : Message) (h : Clean m)
    (htrace : m.trace = senderTraceHeaders msg) :
    replyToValues (m.raw bs) = if m.replyTo ≠ [] then [joinAddresses m.replyTo] else [] := by
  have htraced : ((senderTraceHeaders msg).map fieldLine).filterMap replyToValue = [] := by
    unfold senderTraceHeaders
    split <;> split <;> rfl
  unfold replyToValues Outgoing.raw
  rw [headerSection_written (rawHeader_fields bs h) _]
  unfold Outgoing.header
  rw [htrace]
  simp only [Option.map_some, Option.elim_some, map_append, filterMap_append, htraced]
  split <;> rfl

/-! ## What the policy lets through -/

/-- What is known of `mail.ParseAddress`: it returns `l@d`, where `d` is a dot-atom or a literal. -/
def AddressLaw (parseAddress : GoString → Except GoError GoString) : Prop :=
  ∀ s a, parseAddress s = .ok a → ∃ l d, a = l ++ 0x40 :: d ∧ Bare d

section Policy

variable [Unicode] (bs : Boundaries) (lib : ProviderLib) (encodeWord : GoString → GoString)
variable (sender : GoString) (policy : SenderPolicy) (msg : Message)

/-- The policy lets the original sender through, which stands for `l@d`. -/
structure Chosen (l d : GoString) : Prop where
  given : selectOriginalSender msg ≠ []
  parsed : lib.parseAddress (selectOriginalSender msg) = .ok (l ++ 0x40 :: d)
  bare : Bare d
  judged : ∃ domain, senderDomain lib.parseAddress (selectOriginalSender msg) = some domain ∧
    policy.allowedDomain domain = true

/-- The matchers accept the part after the last `@`. -/
def Accepted (address : GoString) : Prop :=
  ∃ l d, cutLast 0x40 address = some (l, d) ∧ policy.allowedDomain (toLower d) = true

/-- The message is refused: a strict policy rejects it, another one drops its Reply-To. -/
def Refused : Prop :=
  (policy.mode = .strict → ∃ e, applySenderPolicy lib.parseAddress msg policy = .error e) ∧
    ∀ result, applySenderPolicy lib.parseAddress msg policy = .ok result →
      result.message.replyTo = []

/-- **The Reply-To that goes out is approved**: at most one mailbox in the field of the raw message,
    however its value is read, and in the request, each accepted; and nothing in the place of a first
    Reply-To address that is refused. -/
structure Approved : Prop where
  field : ∀ result raw recipients replyTo,
    applySenderPolicy lib.parseAddress msg policy = .ok result →
    buildRawMessage bs lib encodeWord sender result.message = .ok (raw, recipients, replyTo) →
    (replyToValues raw).length ≤ 1 ∧ ∀ v ∈ replyToValues raw, ∀ as, AddressList v as →
      as.length ≤ 1 ∧ ∀ a ∈ as, Accepted policy a
  request : ∀ result request, applySenderPolicy lib.parseAddress msg policy = .ok result →
    Acs.buildSendRequest lib sender result.message = .ok request →
    request.replyTo.length ≤ 1 ∧ ∀ a ∈ request.replyTo, Accepted policy a
  noFallback : ∀ first rest, msg.replyTo = first :: rest →
    (∀ d, senderDomain lib.parseAddress (trimSpace first) = some d → policy.allowedDomain d = false) →
    Refused lib policy msg

/-- A sender that is let through, of a message with a recipient, is in a domain that is accepted
    untrimmed, and its local part is not cut by a comma behind another mailbox. -/
def OneMailbox : Prop :=
  normalizeRecipients msg.toAddrs ≠ [] → ∀ l d, Chosen lib policy msg l d →
    policy.allowedDomain (toLower d) = true ∧ ¬ Splits l d

variable {bs lib encodeWord sender policy msg} {mail : Smtp.MailLib} {l d : GoString}

omit [Unicode] in
theorem trimSpace_selectOriginalSender :
    trimSpace (selectOriginalSender msg) = selectOriginalSender msg := by
  unfold selectOriginalSender
  split <;> exact trimSpace_trimSpace _

/-- What is let through goes out as the address it stands for. -/
theorem Chosen.sent (h : Chosen lib policy msg l d) :
    ∃ result, applySenderPolicy lib.parseAddress msg policy = .ok result ∧
      result.message.toAddrs = msg.toAddrs ∧
      normalizeReplyTo lib result.message.replyTo = [l ++ 0x40 :: d] := by
  obtain ⟨domain, hdomain, hallowed⟩ := h.judged
  refine ⟨⟨{ msg with replyTo := [selectOriginalSender msg] }, selectOriginalSender msg,
    [selectOriginalSender msg], none⟩, ?_, rfl, ?_⟩
  · unfold applySenderPolicy
    rw [if_neg h.given, hdomain]
    exact if_pos hallowed
  · unfold normalizeReplyTo
    rw [filterMap_cons, trimSpace_selectOriginalSender, if_neg h.given, h.parsed]
    dsimp only
    rw [if_neg (trimSpace_ne_nil (by simp))]
    rfl

theorem chosen_or_refused (law : AddressLaw lib.parseAddress) :
    (∃ l d, Chosen lib policy msg l d) ∨ Refused lib policy msg := by
  have hrefused : ∀ before reason, applySenderPolicy lib.parseAddress msg policy =
      applyPolicyDecision before policy.mode reason → Refused lib policy msg := by
    intro before reason h
    unfold Refused
    rw [h]
    unfold applyPolicyDecision
    cases policy.mode with
    | strict => exact ⟨fun _ => ⟨_, rfl⟩, fun result h => by cases h⟩
    | rewrite => exact ⟨(by rintro ⟨⟩), fun result h => by cases h; rfl⟩
  by_cases hgiven : selectOriginalSender msg = []
  · exact Or.inr (hrefused _ _ (if_pos hgiven))
  unfold applySenderPolicy at hrefused
  rw [if_neg hgiven] at hrefused
  cases hdomain : senderDomain lib.parseAddress (selectOriginalSender msg) with
  | none =>
    rw [hdomain] at hrefused
    exact Or.inr (hrefused _ _ rfl)
  | some domain =>
    rw [hdomain] at hrefused
    by_cases hallowed : policy.allowedDomain domain = true
    · refine Or.inl ?_
      have hparse := hdomain
      unfold senderDomain at hparse
      rw [trimSpace_selectOriginalSender] at hparse
      split at hparse
      · cases hparse
      · rename_i parsed hparsed
        obtain ⟨l, d, rfl, hbare⟩ := law _ _ hparsed
        exact ⟨l, d, hgiven, hparsed, hbare, domain, hdomain, hallowed⟩
    · exact Or.inr (hrefused _ _ (if_neg hallowed))

omit [Unicode] in
theorem buildSendRequest_replyTo {m : Message} {request : Acs.SendRequest}
    (h : Acs.buildSendRequest lib sender m = .ok request) :
    normalizeRecipients m.toAddrs ≠ [] ∧ request.replyTo = normalizeReplyTo lib m.replyTo := by
  obtain ⟨-, h⟩ := failIf_bind_eq_ok.mp h
  obtain ⟨hto, h⟩ := failIf_bind_eq_ok.mp h
  cases h
  exact ⟨hto, rfl⟩

omit [Unicode] in
theorem joinAddresses_one (a : GoString) : joinAddresses [a] = a := by
  simp [joinAddresses, List.intercalate]

/-- The policy touches the Reply-To only, and an address that is parsed is on one line. -/
theorem Clean.judged (laws : LineLaws mail lib encodeWord)
    (hclean : Clean (outgoing lib encodeWord sender msg)) {result : SenderPolicyResult}
    (h : applySenderPolicy lib.parseAddress msg policy = .ok result) (bs : Boundaries) :
    replyToValues ((outgoing lib encodeWord sender result.message).raw bs) =
      if normalizeReplyTo lib result.message.replyTo ≠ [] then
        [joinAddresses (normalizeReplyTo lib result.message.replyTo)]
      else [] := by
  have hdecision : ∀ before reason, before.message = msg →
      applyPolicyDecision before policy.mode reason = .ok result →
      ∃ replyTo, result.message = { msg with replyTo := replyTo } := by
    rintro before reason rfl h
    unfold applyPolicyDecision at h
    split at h <;> cases h
    exact ⟨_, rfl⟩
  obtain ⟨replyTo, hmessage⟩ : ∃ replyTo, result.message = { msg with replyTo := replyTo } := by
    unfold applySenderPolicy at h
    dsimp only at h
    split at h
    · exact hdecision _ _ rfl h
    · split at h
      · exact hdecision _ _ rfl h
      · split at h
        · cases h
          exact ⟨_, rfl⟩
        · exact hdecision _ _ rfl h
  rw [hmessage]
  exact replyToValues_raw bs msg ⟨hclean.sender, hclean.recipients, oneLine_replyTo laws _,
    hclean.trace, hclean.subject, hclean.attachments⟩ rfl

theorem Approved.oneMailbox (laws : LineLaws mail lib encodeWord)
    (hclean : Clean (outgoing lib encodeWord sender msg))
    (h : Approved bs lib encodeWord sender policy msg) : OneMailbox lib policy msg := by
  intro hto l d hchosen
  obtain ⟨result, hresult, haddrs, hsent⟩ := hchosen.sent
  rw [← haddrs] at hto
  constructor
  · have hnil : ¬ result.message.toAddrs = [] := fun hnil => hto (by rw [hnil]; rfl)
    have hall := (h.request result _ hresult
      (failIf_bind_eq_ok.mpr ⟨hnil, failIf_bind_eq_ok.mpr ⟨hto, rfl⟩⟩)).2
    obtain ⟨l', d', hcut, hallowed⟩ := hall (l ++ 0x40 :: d)
      (show _ ∈ normalizeReplyTo lib result.message.replyTo by rw [hsent]; simp)
    rw [cutLast_append hchosen.bare.no_at] at hcut
    cases hcut
    exact hallowed
  · rintro ⟨s, t, as, a, rfl, hs, hne, ht⟩
    -- what goes out reads as the list before the comma and one mailbox more
    have hlist : AddressList (s ++ 0x2C :: t ++ 0x40 :: d) (as ++ [a]) := by
      rw [append_assoc]
      exact .more hs (.inl (.mailbox (.spec ht)))
    have hvalues := hclean.judged laws hresult bs
    rw [hsent, if_pos (cons_ne_nil _ _), joinAddresses_one] at hvalues
    have hone := ((h.field result _ _ _ hresult (failIf_bind_eq_ok.mpr ⟨hto, rfl⟩)).2 _
      (hvalues ▸ mem_singleton.mpr rfl) _ hlist).1
    have hpos := length_pos_of_ne_nil hne
    simp only [length_append, length_cons, length_nil] at hone
    omega

theorem Chosen.approved (laws : LineLaws mail lib encodeWord)
    (hclean : Clean (outgoing lib encodeWord sender msg)) (h : Chosen lib policy msg l d)
    (hone : OneMailbox lib policy msg) : Approved bs lib encodeWord sender policy msg := by
  obtain ⟨result, hresult, haddrs, hsent⟩ := h.sent
  refine ⟨fun result' raw recipients replyTo hresult' hbuild => ?_,
    fun result' request hresult' hbuild => ?_, fun first rest hfirst hno => ?_⟩
  · cases hresult.symm.trans hresult'
    obtain ⟨hto, hbuild⟩ := failIf_bind_eq_ok.mp hbuild
    cases hbuild
    obtain ⟨hallowed, hsplit⟩ := hone (haddrs ▸ hto) l d h
    rw [hclean.judged laws hresult bs, hsent, if_pos (cons_ne_nil _ _), joinAddresses_one]
    refine ⟨Nat.le_refl 1, forall_mem_singleton.mpr fun as has => ?_⟩
    obtain ⟨a, x, rfl, hcut⟩ := AddressList.single has h.bare hsplit
    exact ⟨Nat.le_refl 1, forall_mem_singleton.mpr ⟨x, d, hcut, hallowed⟩⟩
  · cases hresult.symm.trans hresult'
    obtain ⟨hto, hreply⟩ := buildSendRequest_replyTo hbuild
    rw [hreply, hsent]
    exact ⟨Nat.le_refl 1, forall_mem_singleton.mpr
      ⟨l, d, cutLast_append h.bare.no_at, (hone (haddrs ▸ hto) l d h).1⟩⟩
  · obtain ⟨domain, hdomain, hallowed⟩ := h.judged
    have hselect : selectOriginalSender msg = trimSpace first := by
      unfold selectOriginalSender
      rw [hfirst]
    rw [hselect] at hdomain
    rw [hno domain hdomain] at hallowed
    cases hallowed

theorem Refused.approved (laws : LineLaws mail lib encodeWord)
    (hclean : Clean (outgoing lib encodeWord sender msg)) (h : Refused lib policy msg) :
    Approved bs lib encodeWord sender policy msg := by
  refine ⟨fun result raw recipients replyTo hresult hbuild => ?_,
    fun result request hresult hbuild => ?_, fun _ _ _ _ => h⟩
  · cases (failIf_bind_eq_ok.mp hbuild).2
    rw [hclean.judged laws hresult bs, h.2 result hresult]
    exact ⟨Nat.zero_le 1, fun v hv => by cases hv⟩
  · rw [(buildSendRequest_replyTo hbuild).2, h.2 result hresult]
    exact ⟨Nat.zero_le 1, fun a ha => by cases ha⟩

/-- **When the Reply-To that goes out is approved**: exactly when the sender that the policy lets
    through is one mailbox, in a domain that is accepted as it is sent.  This holds of every message
    that the parser accepts, with a configured sender and an envelope on one line. -/
theorem reply_to_approved_iff {r : Smtp.Reader} {envelopeFrom : GoString} {envelopeTo : List GoString}
    (law : AddressLaw lib.parseAddress) (laws : LineLaws mail lib encodeWord)
    (hsender : OneLine sender) (hfrom : OneLine envelopeFrom) (hto : ∀ t ∈ envelopeTo, OneLine t)
    (h : Smtp.parseMessage mail r envelopeFrom envelopeTo = .ok msg) :
    Approved bs lib encodeWord sender policy msg ↔ OneMailbox lib policy msg := by
  have hclean := clean_outgoing laws hsender hfrom hto h
  refine ⟨Approved.oneMailbox laws hclean, fun hone => ?_⟩
  rcases chosen_or_refused law with ⟨l, d, hchosen⟩ | hrefused
  · exact hchosen.approved laws hclean hone
  · exact hrefused.approved laws hclean

end Policy

section Cases

/-- The text of a quoted string whose opening quote has been read, and what follows it. -/
def unquote : GoString → Option (GoString × GoString)
  | [] => none
  | [b] => if b = 0x22 then some ([], []) else none
  | b :: c :: s =>
    if b = 0x22 then some ([], c :: s)
    else if b = 0x5C then (unquote s).map fun p => (c :: p.1, p.2)
    else (unquote (c :: s)).map fun p => (b :: p.1, p.2)

/-- `mail.ParseAddress` on bare addresses: a quoted local part is returned unquoted. -/
def parseBare (s : GoString) : Except GoError GoString :=
  let (l, rest) :=
    if s.head? = some 0x22 then (unquote s.tail).getD ([], []) else s.span (· ≠ 0x40)
  if rest.head? = some 0x40 ∧ isDotAtom rest.tail = true ∧
      (s.head? = some 0x22 ∨ isDotAtom l = true) ∧ OneLine (l ++ rest) then .ok (l ++ rest)
  else .error (.errorf "mail: no address")

theorem addressLaw_parseBare : AddressLaw parseBare := by
  intro s a h
  unfold parseBare at h
  split at h
  rename_i l rest _
  split at h
  · rename_i hok
    cases h
    obtain ⟨hhead, hdot, -⟩ := hok
    refine ⟨l, rest.tail, by rw [cons_head?_tail hhead], ?_, fun b hb => ?_⟩
    · rintro hnil
      rw [hnil] at hdot
      exact absurd hdot (by decide)
    · have hall := all_eq_true.mp (Bool.and_eq_true_iff.mp hdot).1 b hb
      revert hall
      exact forall_byte (p := fun b => (isAtext b || b = 0x2E) = true → b ≠ 0x40 ∧ b ∉ closers)
        (by decide +kernel) b
  · cases h

/-- Libraries for messages in plain ASCII with bare addresses. -/
def bareMail : Smtp.MailLib :=
  { Smtp.asciiMail with
    parseAddress := parseBare
    parseAddressList := fun s => (parseBare s).map ([·]) }

/-- The same for the providers. -/
def bareProvider : ProviderLib := { asciiProvider with parseAddress := parseBare }

/-- A strict policy for one domain. -/
def goodOnly : SenderPolicy := ⟨.strict, [fun d => d = lit "good.com"]⟩

/-- A message that asks for replies to one address. -/
def replyMessage (address : String) : Message :=
  ⟨lit "e@f", [], [lit address], [lit "t@u"], [], lit "hi", [], []⟩

theorem lineLaws_bare :
    letI := Unicode.ascii
    LineLaws bareMail bareProvider asciiWord := by
  let _ := Unicode.ascii
  have haddress : ∀ s a, parseBare s = .ok a → OneLine a := by
    intro s a h
    unfold parseBare at h
    split at h
    split at h
    · next hok =>
      cases h
      exact hok.2.2.2
    · cases h
  exact ⟨haddress, haddress, lineLaws_ascii.mediaType, lineLaws_ascii.encode⟩

/-- A plain address is approved. -/
theorem reply_to_approved_plain :
    letI := Unicode.ascii
    Smtp.parseMessage bareMail ⟨lit "Reply-To: a@good.com\r\n\r\nhi", none⟩ (lit "e@f") [lit "t@u"] =
      .ok (replyMessage "a@good.com") ∧
    Approved ⟨zeroBoundary, zeroBoundary⟩ bareProvider asciiWord (lit "s@t") goodOnly
      (replyMessage "a@good.com") := by
  let _ := Unicode.ascii
  have hmessage : Smtp.parseMessage bareMail ⟨lit "Reply-To: a@good.com\r\n\r\nhi", none⟩ (lit "e@f")
      [lit "t@u"] = .ok (replyMessage "a@good.com") := by decide +kernel
  refine ⟨hmessage, (reply_to_approved_iff addressLaw_parseBare lineLaws_bare (by decide) (by decide)
    (by decide) hmessage).mpr fun _ l d h => ?_⟩
  have hparse : parseBare (lit "a@good.com") = .ok (lit "a" ++ 0x40 :: lit "good.com") := by
    decide +kernel
  obtain ⟨rfl, rfl⟩ := (h.bare.ends (Except.ok.inj (h.parsed.symm.trans hparse)) (by decide)).2 rfl
  refine ⟨by decide, ?_⟩
  rintro ⟨s, t, as, a, hl, -⟩
  exact absurd (show 0x2C ∈ lit "a" by rw [hl]; simp) (by decide)

theorem dotted_atom {Item : GoString → Prop} {w : GoString} (h : Item w) : Dotted Item w w := by
  have hone := Dotted.one .nil h .nil
  rwa [append_nil] at hone

theorem address_com {l d : GoString} (hl : Atom l) (hd : Atom d) :
    Address (l ++ 0x40 :: (d ++ lit ".com")) [l ++ 0x40 :: (d ++ lit ".com")] := by
  have hcom : Atom (lit "com") := by decide
  have hd := Dotted.more (dotted_atom hd) .nil hcom .nil
  exact .mailbox (.spec (.mk (dotted_atom (.inl hl)) (.atoms hd)))

/-- **A mailbox that the policy does not accept goes out** as the first of two, behind the quotes of
    the address that it judged. -/
theorem reply_to_strange_mailbox :
    letI := Unicode.ascii
    ∃ msg result out as,
      Smtp.parseMessage bareMail
        ⟨lit "Reply-To: \"\\\"x@evil.com,y\\\"\"@good.com\r\n\r\nhi", none⟩
        (lit "e@f") [lit "t@u"] = .ok msg ∧
      applySenderPolicy parseBare msg goodOnly = .ok result ∧
      buildRawMessage ⟨zeroBoundary, zeroBoundary⟩ bareProvider asciiWord (lit "s@t")
        result.message = .ok out ∧ replyToValues out.1 = [lit "x@evil.com,y@good.com"] ∧
      AddressList (lit "x@evil.com,y@good.com") as ∧ lit "x@evil.com" ∈ as ∧
      ¬ Accepted goodOnly (lit "x@evil.com") := by
  let _ := Unicode.ascii
  refine ⟨replyMessage "\"x@evil.com,y\"@good.com", ⟨replyMessage "\"x@evil.com,y\"@good.com",
    lit "\"x@evil.com,y\"@good.com", [lit "\"x@evil.com,y\"@good.com"], none⟩, _,
    [lit "x@evil.com"] ++ [lit "y@good.com"], by decide +kernel, by decide +kernel, rfl,
    by decide +kernel, ?_, by decide, ?_⟩
  · have hx := address_com (l := lit "x") (d := lit "evil") (by decide) (by decide)
    have hy := address_com (l := lit "y") (d := lit "good") (by decide) (by decide)
    exact .more (.one (.inl hx)) (.inl hy)
  · rintro ⟨l, d, hcut, hallowed⟩
    rw [show lit "x@evil.com" = lit "x" ++ 0x40 :: lit "evil.com" by decide,
      cutLast_append (by decide)] at hcut
    cases hcut
    exact absurd hallowed (by decide)

end Cases

end SmtpCloudRelay.Ses
