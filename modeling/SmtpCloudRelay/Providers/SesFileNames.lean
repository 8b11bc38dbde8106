/-
  THE FILE NAMES OF ATTACHMENTS, on their way through SES.

  `buildMixedBody` writes the name of an attachment with `%q`, which is the syntax of a Go STRING
  LITERAL, into two parameters that a MIME reader takes for QUOTED STRINGS.  The two languages agree
  on a backslash before a quote and before another backslash.  They do not agree on the rest: Go writes
  a tab as `\t` and a no-break space as `\u00a0`, and a MIME reader removes a backslash only before one
  of its specials, so it finds a backslash and letters.

  What it finds of a character that is not printable is LONGER than the character, so no two mistakes
  make up for each other (`readQuoted_eq_iff`): that is `fileName_survives_iff`.
-/
import SmtpCloudRelay.Providers.SesRoundTrip

namespace SmtpCloudRelay.Ses

open Go Lib

variable [Unicode]

/-! ## The two parameters -/

/-- The value of a field of an attachment's part. -/
def partField (a : SentAttachment) (name : GoString) : GoString :=
  headerGet (attachmentPart a).header name

/-- **The file name that a reader finds**: in the disposition, and in the type. -/
structure NameSurvives (i : Nat) (a : Attachment) : Prop where
  disposition : (parseMediaType (partField (sentAttachment i a) (lit "Content-Disposition"))).params
    (lit "filename") = a.filename
  type : (parseMediaType (partField (sentAttachment i a) (lit "Content-Type"))).params (lit "name") =
    a.filename

/-- **A file name survives exactly if all its characters are printable.** -/
theorem fileName_survives_iff {a : Attachment} (i : Nat) (hname : a.filename ≠ [])
    (htrimmed : trimSpace a.filename = a.filename) (htype : IsMediaType a.contentType) :
    NameSurvives i a ↔ ∀ g ∈ Utf8.segments a.filename, isPrintSeg g = true := by
  have hsent : (sentAttachment i a).name = a.filename ∧
      (sentAttachment i a).contentType = a.contentType := by
    have htrim := trimSpace_visible htype.visible
    unfold sentAttachment
    rw [htrimmed, htrim, if_neg hname, if_neg (bytes_of_check htype.check).1]
    exact ⟨rfl, rfl⟩
  obtain ⟨-, -, hdisposition⟩ := parseMediaType_quoted (show IsMediaType (lit "attachment") by decide)
    (show IsParamName (lit "filename") by decide) (bytes_of_all (by decide)) a.filename
  obtain ⟨-, -, hcontent⟩ := parseMediaType_quoted htype (show IsParamName (lit "name") by decide)
    (bytes_of_all (by decide)) a.filename
  have hfields : partField (sentAttachment i a) (lit "Content-Disposition") =
        lit "attachment" ++ lit "; filename=" ++ quote a.filename ∧
      partField (sentAttachment i a) (lit "Content-Type") =
        a.contentType ++ lit "; name=" ++ quote a.filename := by
    rw [← hsent.1, ← hsent.2]
    exact ⟨rfl, rfl⟩
  rw [← readQuoted_eq_iff]
  constructor
  · intro h
    have hread := h.disposition
    rw [hfields.1] at hread
    exact hdisposition.symm.trans hread
  · intro h
    constructor
    · rw [hfields.1]
      exact hdisposition.trans h
    · rw [hfields.2]
      exact hcontent.trans h

section Cases

/-- A message whose only part is an attachment with this file name parameter. -/
def namedMessage (parameter : String) : Smtp.Reader where
  data := lit "Content-Type: multipart/mixed; boundary=b\r\n\r\n--b\r\nContent-Type: image/png\r\nContent-Disposition: attachment; " ++
    lit parameter ++ lit "\r\n\r\nPNG\r\n--b--\r\n"
  err := none

/-- What the parser makes of it. -/
def namedAttachment (name : String) : Attachment := ⟨lit name, lit "image/png", lit "PNG"⟩

omit [Unicode] in
/-- A name with a quote and a backslash comes back. -/
theorem fileName_survives_quoted :
    letI := Unicode.ascii
    NameSurvives 0 (namedAttachment "a\"b\\c.png") := by
  let _ := Unicode.ascii
  exact (fileName_survives_iff 0 (by decide) (by decide +kernel) (by decide +kernel)).mpr (by decide +kernel)

omit [Unicode] in
/-- **A tab does not**: the parser decodes one from an encoded name, and what SES is given is read as a
    backslash and a letter. -/
theorem fileName_loses_tab :
    letI := Unicode.ascii
    Smtp.parseMessage Smtp.asciiMail (namedMessage "filename*=utf-8''a%09b.png") [] [] =
        .ok { Message.zero with attachments := [namedAttachment "a\tb.png"] } ∧
      (parseMediaType (partField (sentAttachment 0 (namedAttachment "a\tb.png"))
        (lit "Content-Disposition"))).params (lit "filename") = lit "a\\tb.png" ∧
      ¬ NameSurvives 0 (namedAttachment "a\tb.png") := by
  let _ := Unicode.ascii
  refine ⟨by decide +kernel, by decide +kernel, fun h => ?_⟩
  exact absurd h.disposition (by decide +kernel)

end Cases

end SmtpCloudRelay.Ses
