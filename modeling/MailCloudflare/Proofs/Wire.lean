/-
What is POSTed is the mail.

`readMail` is the other end: it takes a request body apart as the API documents it, and it
knows nothing of how the body was made.  The bytes are UTF-8, the text is JSON, the members
have their names, and the content of an attachment is base64.  What it finds is the mail
that was handed over.

Of an object only the members by name are read, so the order they are set in is nothing the
other end depends on; a member that has nothing to say is not there.
-/
import MailCloudflare.Base.Json
import MailCloudflare.Proofs.Content
import MailCloudflare.Proofs.Session

namespace MailCloudflare

open Unicode Python

variable {F : Type} {α β : Type} {lib : ClientLibrary F} {payload : Payload} {message : MimeMessage}
  {smtpToList : List Str}

/-! ### The other end -/

def readStr : Value Empty → Option Str
  | .str s => characters s
  | _ => none

def readText : Value Empty → Option Text
  | .str s => some s
  | _ => none

/-- A member that need not be there. -/
def readOptional (f : Value Empty → Option α) : Option (Value Empty) → Option (Option α)
  | none => some none
  | some value => (f value).map some

/-- A list that need not be there. -/
def readList (f : Value Empty → Option α) : Option (Value Empty) → Option (List α)
  | none => some []
  | some (.list items) => items.mapM f
  | some _ => none

def readAddress : Value Empty → Option Address
  | .dict members => do
    let address ← (Value.member? members "address").bind readStr
    let name ← readOptional readStr (Value.member? members "name")
    return { address, name }
  | _ => none

/-- An attachment with the bytes it stands for. -/
structure DeliveredPart where
  content : Bytes
  filename : Str
  type : Str
  disposition : Disposition
  contentId : Option Str
  deriving DecidableEq

def readDisposition (value : Value Empty) : Option Disposition :=
  (readStr value).bind fun s => [Disposition.inline, .attachment].find? fun d => d.text = s

def readPart : Value Empty → Option DeliveredPart
  | .dict members => do
    let content ← ((Value.member? members "content").bind readStr).bind Base64.decode
    let filename ← (Value.member? members "filename").bind readStr
    let type ← (Value.member? members "type").bind readStr
    let disposition ← (Value.member? members "disposition").bind readDisposition
    let contentId ← readOptional readStr (Value.member? members "content_id")
    return { content, filename, type, disposition, contentId }
  | _ => none

def readHeader (row : Text × Value Empty) : Option (Str × Str) := do
  let name ← characters row.1
  let value ← readStr row.2
  return (name, value)

/-- An object of texts that need not be there. -/
def readHeaders : Option (Value Empty) → Option (List (Str × Str))
  | none => some []
  | some (.dict members) => members.mapM readHeader
  | some _ => none

structure DeliveredMail where
  sender : Address
  recipients : Recipients
  subject : Str
  replyTo : Option Address
  text : Option Text
  html : Option Text
  headers : List (Str × Str)
  attachments : List DeliveredPart
  deriving DecidableEq

def readMail : Value Empty → Option DeliveredMail
  | .dict members => do
    let sender ← (Value.member? members "from").bind readAddress
    let toList ← readList readAddress (Value.member? members "to")
    let ccList ← readList readAddress (Value.member? members "cc")
    let bccList ← readList readAddress (Value.member? members "bcc")
    let subject ← (Value.member? members "subject").bind readStr
    let replyTo ← readOptional readAddress (Value.member? members "reply_to")
    let text ← readOptional readText (Value.member? members "text")
    let html ← readOptional readText (Value.member? members "html")
    let headers ← readHeaders (Value.member? members "headers")
    let attachments ← readList readPart (Value.member? members "attachments")
    return {
      sender
      recipients := ⟨toList, ccList, bccList⟩
      subject
      replyTo
      text
      html
      headers
      attachments }
  | _ => none

/-! ### One member -/

theorem text_inj {a b : String} : Python.text a = Python.text b ↔ a = b := by
  refine ⟨fun h => ?_, fun h => h ▸ rfl⟩
  have hchars := congrArg characters h
  rw [Python.text, Python.text, characters_ofStr, characters_ofStr, Option.some.injEq] at hchars
  exact String.toList_inj.mp hchars

theorem member?_entry (key name : String) (value : Value Empty) :
    Value.member? (entry key value) name = if key = name then some value else none := by
  rw [entry, Value.member?_single]
  simp only [text_inj]

theorem member?_optional (key name : String) (value : Option α) (f : α → Value Empty) :
    Value.member? (optional key value f) name = if key = name then value.map f else none := by
  cases value with
  | none => simp [optional, Value.member?_nil]
  | some a => exact member?_entry key name (f a)

theorem member?_entries (key name : String) (items : List α) (f : α → Value Empty) :
    Value.member? (entries key items f) name =
      if key = name ∧ items ≠ [] then some (.list (items.map f)) else none := by
  unfold entries
  by_cases h : items = []
  · simp [h, Value.member?_nil]
  · rw [if_neg h]
    show Value.member? (entry key (.list (items.map f))) name = _
    rw [member?_entry]
    simp [h]

theorem readStr_strValue (s : Str) : readStr (strValue s) = some s := characters_ofStr s

theorem readText_str (s : Text) : readText (.str s) = some s := rfl

theorem mapM_map_some {f : β → Option α} {g : α → β} (h : ∀ a, f (g a) = some a)
    (items : List α) : (items.map g).mapM f = some items := by
  induction items with
  | nil => rfl
  | cons a rest ih => rw [List.map_cons, List.mapM_cons, h, ih]; rfl

theorem readOptional_map {f : Value Empty → Option α} {g : α → Value Empty}
    (h : ∀ a, f (g a) = some a) (value : Option α) : readOptional f (value.map g) = some value := by
  cases value with
  | none => rfl
  | some a =>
      show (f (g a)).map some = _
      rw [h, Option.map_some]

theorem readList_items (f : Value Empty → Option α) (items : List (Value Empty)) :
    readList f (some (.list items)) = items.mapM f := rfl

/-- An empty list is not written, and read as one. -/
theorem readList_entries {f : Value Empty → Option β} (items : List α) (g : α → Value Empty) :
    readList f (if items ≠ [] then some (.list (items.map g)) else none) =
      (items.map g).mapM f := by
  by_cases h : items = []
  · rw [if_neg (not_not.mpr h), h]
    rfl
  · rw [if_pos h]
    rfl

/-! ### The parts of a payload -/

theorem readAddress_value (address : Address) : readAddress address.value = some address := by
  have haddress : Value.member? (entry "address" (strValue address.address) ++
      optional "name" address.name strValue) "address" = some (strValue address.address) := by
    rw [Value.member?_append, member?_entry, member?_optional]
    rfl
  have hname : Value.member? (entry "address" (strValue address.address) ++
      optional "name" address.name strValue) "name" = address.name.map strValue := by
    rw [Value.member?_append, member?_entry, member?_optional, if_pos rfl, if_neg (by decide),
      Option.or_none]
  show (do
    let found ← (Value.member? _ "address").bind readStr
    let name ← readOptional readStr (Value.member? _ "name")
    return Address.mk found name) = _
  rw [haddress, hname, Option.bind_some, readStr_strValue, readOptional_map readStr_strValue]
  rfl

theorem readDisposition_text (disposition : Disposition) :
    readDisposition (strValue disposition.text) = some disposition := by
  rw [readDisposition, readStr_strValue, Option.bind_some]
  cases disposition <;> decide

/-- An attachment as it is found, its content being the base64 of something. -/
def Attachment.delivered (a : Attachment) : Option DeliveredPart :=
  (Base64.decode a.content).map fun content =>
    ⟨content, a.filename, a.type, a.disposition, a.contentId⟩

theorem readPart_value (a : Attachment) : readPart a.value = a.delivered := by
  unfold Attachment.value readPart
  simp only [Value.member?_append, member?_entry, member?_optional, String.reduceEq, if_true, if_false,
    Option.none_or, Option.or_none, Option.bind_some, readStr_strValue, readDisposition_text,
    readOptional_map readStr_strValue, Option.bind_eq_bind]
  unfold Attachment.delivered
  cases Base64.decode a.content <;> rfl

theorem readHeader_row (row : Str × Str) :
    readHeader (ofStr row.1, strValue row.2) = some row := by
  show (do
    let name ← characters (ofStr row.1)
    let value ← readStr (strValue row.2)
    return (name, value)) = _
  rw [characters_ofStr, readStr_strValue]
  rfl

theorem member?_headers (rows : List (Str × Str)) (name : String) :
    Value.member? (if rows = [] then []
      else entry "headers" (.dict (rows.map fun row => (ofStr row.1, strValue row.2)))) name =
      if "headers" = name ∧ rows ≠ [] then
        some (.dict (rows.map fun row => (ofStr row.1, strValue row.2)))
      else none := by
  by_cases h : rows = []
  · simp [h, Value.member?_nil]
  · rw [if_neg h, member?_entry]
    simp [h]

theorem readHeaders_rows (rows : List (Str × Str)) :
    readHeaders (if rows ≠ [] then some (.dict (rows.map fun row => (ofStr row.1, strValue row.2)))
      else none) = some rows := by
  by_cases h : rows = []
  · rw [if_neg (not_not.mpr h), h]
    rfl
  · rw [if_pos h]
    exact mapM_map_some readHeader_row rows

/-- The mail of a payload, with what its attachments stand for. -/
def Payload.delivered (payload : Payload) (attachments : List DeliveredPart) : DeliveredMail where
  sender := payload.sender
  recipients := payload.recipients
  subject := payload.subject
  replyTo := payload.replyTo
  text := payload.text
  html := payload.html
  headers := payload.headers.rows
  attachments := attachments

/-- **The members of a payload are read back.** -/
theorem readMail_value (payload : Payload) :
    readMail payload.value =
      (payload.attachments.mapM Attachment.delivered).map payload.delivered := by
  have hparts : (payload.attachments.map Attachment.value).mapM readPart =
      payload.attachments.mapM Attachment.delivered := by
    rw [List.mapM_map]
    exact congrArg (fun f => List.mapM f payload.attachments) (funext readPart_value)
  unfold Payload.value readMail
  simp only [Value.member?_append, member?_entry, member?_optional, member?_entries, member?_headers,
    String.reduceEq, false_and, true_and, if_true, if_false, Option.none_or, Option.or_none,
    Option.bind_some, Option.bind_eq_bind, readAddress_value, readStr_strValue, readList_entries,
    readList_items, mapM_map_some readAddress_value, readOptional_map readAddress_value,
    readOptional_map readText_str, readHeaders_rows, hparts]
  cases payload.attachments.mapM Attachment.delivered <;> rfl

/-! ### The mail behind a payload -/

/-- What `build_payload` puts into a payload. -/
structure Built (lib : MailLibrary) (message : MimeMessage) (smtpToList : List Str)
    (payload : Payload) : Prop where
  sender : (lib.emailSplitTuples (message.text lib.py "From".toList)).head?.map toAddress =
    some payload.sender
  recipients : splitRecipients lib.py lib.emailSplitTuples message.toMessage smtpToList =
    .ok payload.recipients
  subject : payload.subject = message.text lib.py "Subject".toList
  replyTo : payload.replyTo =
    (lib.emailSplitTuples (message.text lib.py "Reply-To".toList)).head?.map toAddress
  content : extractContent lib.email message =
    .ok ⟨payload.text, payload.html, payload.attachments⟩
  headers : passthroughHeaders lib.py message.toMessage = .ok payload.headers

theorem built_of_buildPayload {lib : MailLibrary}
    (h : buildPayload lib message smtpToList = .ok payload) :
    Built lib message smtpToList payload := by
  unfold buildPayload at h
  split at h
  · cases h
  · rename_i sender others hsender
    cases hrecipients : splitRecipients lib.py lib.emailSplitTuples message.toMessage smtpToList with
    | error e =>
        rw [hrecipients] at h
        cases h
    | ok recipients =>
        cases hcontent : extractContent lib.email message with
        | error e =>
            rw [hrecipients, hcontent] at h
            cases h
        | ok content =>
            rw [hrecipients, hcontent] at h
            simp only [Except.mapError, bind, Except.bind] at h
            split at h
            · cases h
            · cases hheaders : passthroughHeaders lib.py message.toMessage with
              | error e =>
                  rw [hheaders] at h
                  cases h
              | ok headers =>
                  rw [hheaders] at h
                  cases h
                  exact ⟨by rw [hsender]; rfl, hrecipients, rfl, rfl, hcontent, hheaders⟩

/-- The attachment is the part: its bytes, and what `_attachment` says about them. -/
structure IsDelivered (email : EmailLibrary) (numbered : Part × Nat) (part : DeliveredPart) :
    Prop where
  content : attachmentContent email numbered.1 = .ok part.content
  described : ∃ a, attachment email numbered.1 numbered.2 = .ok a ∧
    part = ⟨part.content, a.filename, a.type, a.disposition, a.contentId⟩

theorem delivered_of_attachment {email : EmailLibrary} {numbered : Part × Nat} {a : Attachment}
    (h : attachment email numbered.1 numbered.2 = .ok a) :
    ∃ part, a.delivered = some part ∧ IsDelivered email numbered part := by
  obtain ⟨bytes, hbytes⟩ := (attachment_isOk_iff numbered.2).mp ⟨a, h⟩
  have hcontent : a.content = Base64.encode bytes := by
    unfold attachment at h
    rw [hbytes] at h
    cases h
    rfl
  refine ⟨⟨bytes, a.filename, a.type, a.disposition, a.contentId⟩, ?_, hbytes, a, h, rfl⟩
  rw [Attachment.delivered, hcontent, Base64.decode_encode, Option.map_some]

theorem delivered_of_attachments {email : EmailLibrary} {parts : List (Part × Nat)}
    {attachments : List Attachment}
    (h : List.Forall₂ (fun numbered a => attachment email numbered.1 numbered.2 = .ok a) parts
      attachments) :
    ∃ delivered, attachments.mapM Attachment.delivered = some delivered ∧
      List.Forall₂ (IsDelivered email) parts delivered := by
  induction h with
  | nil => exact ⟨[], rfl, .nil⟩
  | cons hfirst _ ih =>
      obtain ⟨part, hpart, hdelivered⟩ := delivered_of_attachment hfirst
      obtain ⟨delivered, hrest, hall⟩ := ih
      exact ⟨part :: delivered, by rw [List.mapM_cons, hpart, hrest]; rfl, .cons hdelivered hall⟩

/-! ### Every request of a session -/

/-- The mail that is found is the message that was handed over, for the envelope it was. -/
structure Conveys (lib : ClientLibrary F) (message : MimeMessage) (smtpToList : List Str)
    (mail : DeliveredMail) : Prop where
  sender : (lib.emailSplitTuples (message.text lib.py "From".toList)).head?.map toAddress =
    some mail.sender
  recipients : splitRecipients lib.py lib.emailSplitTuples message.toMessage smtpToList =
    .ok mail.recipients
  subject : mail.subject = message.text lib.py "Subject".toList
  replyTo : mail.replyTo =
    (lib.emailSplitTuples (message.text lib.py "Reply-To".toList)).head?.map toAddress
  text : bodyText lib.email message.textPart = .ok mail.text
  html : bodyText lib.email message.htmlPart = .ok mail.html
  headers : ∃ headers, passthroughHeaders lib.py message.toMessage = .ok headers ∧
    headers.rows = mail.headers
  attachments : List.Forall₂ (IsDelivered lib.email) ((attachedParts message).zipIdx 1)
    mail.attachments

theorem conveys_of_body {body : Bytes}
    (hpayload : buildPayload lib.toMailLibrary message smtpToList = .ok payload)
    (hbody : encodeUtf8 payload.json = .ok body) :
    ∃ mail, (readJson body).bind readMail = some mail ∧ Conveys lib message smtpToList mail := by
  have hbuilt := built_of_buildPayload hpayload
  obtain ⟨htext, hhtml, hparts⟩ := extractContent_eq_ok_iff.mp hbuilt.content
  obtain ⟨delivered, hdelivered, hall⟩ := delivered_of_attachments hparts
  refine ⟨payload.delivered delivered, ?_, hbuilt.sender, hbuilt.recipients, hbuilt.subject,
    hbuilt.replyTo, htext, hhtml, ⟨payload.headers, hbuilt.headers, rfl⟩, hall⟩
  rw [readJson_dumps hbody, Option.bind_some, readMail_value, hdelivered, Option.map_some]

/-- Whoever reads the requests of this run finds the mail of this call. -/
def ConveysAll (lib : ClientLibrary F) (call : SendCall F) (run : SendRun F) : Prop :=
  ∀ request ∈ posts run.events, ∃ mail, (readJson request.1).bind readMail = some mail ∧
    Conveys lib call.message call.smtpToList mail

theorem conveysAll_runCall (lib : ClientLibrary F) (session : CloudflareSendingSession F)
    (call : SendCall F) : ConveysAll lib call (runCall lib session call) := by
  have hsent := runCall_sent lib session call
  generalize runCall lib session call = run at hsent
  cases hsent with
  | latched | unsent => exact List.forall_mem_nil _
  | sent hlatch hpayload hbody hlength =>
      intro request hrequest
      rw [posts_post] at hrequest
      obtain ⟨k, -, rfl⟩ := List.mem_map.mp hrequest
      exact conveys_of_body hpayload hbody

end MailCloudflare
