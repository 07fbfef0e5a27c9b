/-
The JSON body of a send request: `build_payload` of `mail_cloudflare/cloudflare_api.py`.
-/
import MailCloudflare.Odoo.Content
import MailCloudflare.Odoo.Headers

namespace MailCloudflare

open Unicode Python Keyed

/-- What a call may raise: its own error, or a built-in exception. -/
inductive Failure (ε : Type)
  | cloudflare (error : ε)
  | python (error : PyError)

namespace Failure

variable {ε δ : Type}

def map (f : ε → δ) : Failure ε → Failure δ
  | cloudflare error => cloudflare (f error)
  | python error => python error

/-- Whether it is the call's own error. -/
def isCloudflare : Failure ε → Bool
  | cloudflare _ => true
  | python _ => false

end Failure

/-- The libraries the mapping rests on. -/
structure MailLibrary where
  py : UnicodeData
  email : EmailLibrary
  /-- `odoo.tools.mail.email_split_tuples`. -/
  emailSplitTuples : Str → List (Str × Str)

/-- The body of a request. -/
structure Payload where
  sender : Address
  recipients : Recipients
  subject : Str
  replyTo : Option Address
  text : Option Text
  html : Option Text
  headers : Headers
  attachments : List Attachment

/-- `build_payload(message, smtp_to_list)`. -/
def buildPayload (lib : MailLibrary) (message : MimeMessage) (smtpToList : List Str) :
    Except (Failure CloudflareEmailError) Payload :=
  match lib.emailSplitTuples (message.text lib.py "From".toList) with
  | [] =>
    .error (.cloudflare { message := "The message has no valid From address.".toList })
  | sender :: _ => do
    let recipients ← (splitRecipients lib.py lib.emailSplitTuples message.toMessage
      smtpToList).mapError .cloudflare
    let content ← (extractContent lib.email message).mapError .python
    if content.text.isNone && content.html.isNone then
      .error (.cloudflare { message :=
        ("The message has neither a text nor an html body; Cloudflare requires " ++
          "at least one.").toList })
    else
      let headers ← (passthroughHeaders lib.py message.toMessage).mapError .cloudflare
      return {
        sender := toAddress sender
        recipients
        subject := message.text lib.py "Subject".toList
        replyTo :=
          (lib.emailSplitTuples (message.text lib.py "Reply-To".toList)).head?.map toAddress
        text := content.text
        html := content.html
        headers
        attachments := content.attachments }

/-! ### As JSON -/

abbrev JsonMember := Text × Value Empty

/-- A member that is always there. -/
def entry (name : String) (value : Value Empty) : List JsonMember := [(text name, value)]

/-- A member that is there when it has something to say. -/
def optional {α : Type} (name : String) (value : Option α) (f : α → Value Empty) :
    List JsonMember :=
  (value.map fun found => (text name, f found)).toList

/-- A list that is there when it is not empty. -/
def entries {α : Type} (name : String) (items : List α) (f : α → Value Empty) : List JsonMember :=
  if items = [] then [] else [(text name, .list (items.map f))]

def strValue (s : Str) : Value Empty := .str (ofStr s)

def Address.value (address : Address) : Value Empty :=
  .dict (entry "address" (strValue address.address) ++ optional "name" address.name strValue)

def Attachment.value (a : Attachment) : Value Empty :=
  .dict (entry "content" (strValue a.content) ++ entry "filename" (strValue a.filename) ++
    entry "type" (strValue a.type) ++ entry "disposition" (strValue a.disposition.text) ++
    optional "content_id" a.contentId strValue)

/-- The payload as a dictionary, in the order its members are set. -/
def Payload.value (payload : Payload) : Value Empty :=
  .dict (entry "from" payload.sender.value ++
    entry "to" (.list (payload.recipients.toList.map Address.value)) ++
    entry "subject" (strValue payload.subject) ++
    entries "cc" payload.recipients.ccList Address.value ++
    entries "bcc" payload.recipients.bccList Address.value ++
    optional "reply_to" payload.replyTo Address.value ++
    optional "text" payload.text .str ++
    optional "html" payload.html .str ++
    (if payload.headers.rows = [] then []
      else entry "headers" (.dict (payload.headers.rows.map fun row =>
        (ofStr row.1, strValue row.2)))) ++
    entries "attachments" payload.attachments Attachment.value)

/-- `json.dumps(payload, ensure_ascii=False)`. -/
def Payload.json (payload : Payload) : Text := dumps payload.value

/-- The addresses under `to`, `cc` and `bcc`. -/
def Payload.addresses (payload : Payload) : List Str :=
  (payload.recipients.toList ++ payload.recipients.ccList ++ payload.recipients.bccList).map
    Address.address

end MailCloudflare
