/-
The bodies and attachments of a request: `_iter_leaves`, `_attachment` and
`_extract_content` of `mail_cloudflare/cloudflare_api.py`.

A message is the tree the `email` package parsed it into.  Every node is an object of its
own, and `id` is its identity.  What the package makes of a node (its bytes, its decoded
text, the bodies a mail client would render) is a parameter.
-/
import MailCloudflare.Base.Base64
import MailCloudflare.Base.PythonValues
import MailCloudflare.Odoo.Recipients

namespace MailCloudflare

open Unicode Python

/-! ### The tree -/

/-- What `_attachment` reads of a node's headers. -/
structure PartHeaders where
  /-- `get_filename()`. -/
  filename : Option Str
  /-- `part["Content-ID"]`. -/
  contentId : Option Str
  /-- `get_content_disposition()`. -/
  contentDisposition : Option Str

def MESSAGE_RFC822 : Str := "message/rfc822".toList

/-- A content type other than that of an attached message. -/
abbrev PlainType := { contentType : Str // contentType ≠ MESSAGE_RFC822 }

/-- A node of the MIME tree; a message/rfc822 node holds the message it was parsed into. -/
inductive Part
  | leaf (id : Nat) (contentType : PlainType) (headers : PartHeaders) (payload : Option Bytes)
  | multipart (id : Nat) (contentType : PlainType) (headers : PartHeaders) (subparts : List Part)
  | rfc822 (id : Nat) (headers : PartHeaders) (inner : Part)

namespace Part

def id : Part → Nat
  | leaf id .. => id
  | multipart id .. => id
  | rfc822 id .. => id

def headers : Part → PartHeaders
  | leaf _ _ headers _ => headers
  | multipart _ _ headers _ => headers
  | rfc822 _ headers _ => headers

/-- `get_content_type()`. -/
def contentType : Part → Str
  | leaf _ contentType _ _ => contentType
  | multipart _ contentType _ _ => contentType
  | rfc822 .. => MESSAGE_RFC822

/-- A node that is there for the nodes in it. -/
def isContainer : Part → Bool
  | multipart .. => true
  | _ => false

/-- A leaf with text in it. -/
def isText : Part → Bool
  | leaf _ contentType _ _ => "text/".toList.isPrefixOf contentType
  | _ => false

end Part

mutual

/-- The nodes in document order, each with whether it is below an attached message. -/
def nodes (below : Bool) : Part → List (Part × Bool)
  | .leaf id contentType headers payload => [(.leaf id contentType headers payload, below)]
  | .multipart id contentType headers subparts =>
    (.multipart id contentType headers subparts, below) :: nodesOfAll below subparts
  | .rfc822 id headers inner => (.rfc822 id headers inner, below) :: nodes true inner

def nodesOfAll (below : Bool) : List Part → List (Part × Bool)
  | [] => []
  | part :: rest => nodes below part ++ nodesOfAll below rest

end

/-- What `get_body` may answer: a text leaf that is not below an attached message. -/
def IsBody (root part : Part) : Prop := (part, false) ∈ nodes false root ∧ part.isText = true

/-- A message as `_extract_content` reads it, with the answers of `get_body`. -/
structure MimeMessage extends Message where
  root : Part
  /-- `get_body(("html",))`. -/
  htmlPart : Option Part
  /-- `get_body(("plain",))`. -/
  textPart : Option Part
  nodup_ids : ((nodes false root).map fun node => node.1.id).Nodup
  html_isBody : ∀ part ∈ htmlPart, IsBody root part
  text_isBody : ∀ part ∈ textPart, IsBody root part
  html_ne_text : ∀ part ∈ htmlPart, part ∉ textPart

/-- The rest of the standard library that is asked about a part. -/
structure EmailLibrary where
  /-- `part.as_bytes()`. -/
  asBytes : Part → Except PyError Bytes
  /-- `part.get_content()` of a text part. -/
  getContent : Part → Except PyError Text
  /-- `mimetypes.guess_extension`. -/
  guessExtension : Str → Option Str
  guessExtension_dot : ∀ contentType extension, guessExtension contentType = some extension →
    ∃ rest, extension = '.' :: rest

/-! ### The attachments -/

mutual

/-- `_iter_leaves(part)`. -/
def iterLeaves : Part → List Part
  | .rfc822 id headers inner => [.rfc822 id headers inner]
  | .leaf id contentType headers payload => [.leaf id contentType headers payload]
  | .multipart _ _ _ subparts => iterLeavesOfAll subparts

def iterLeavesOfAll : List Part → List Part
  | [] => []
  | subpart :: rest => iterLeaves subpart ++ iterLeavesOfAll rest

end

inductive Disposition
  | inline
  | attachment
  deriving DecidableEq, Repr

def Disposition.text : Disposition → Str
  | .inline => "inline".toList
  | .attachment => "attachment".toList

/-- A Cloudflare attachment object. -/
structure Attachment where
  content : Str
  filename : Str
  type : Str
  disposition : Disposition
  contentId : Option Str
  deriving DecidableEq

/-- The bytes an attachment is made of. -/
def attachmentContent (email : EmailLibrary) : Part → Except PyError Bytes
  | .rfc822 _ _ inner => email.asBytes inner
  | .leaf _ _ _ payload => .ok (payload.getD [])
  -- There is nothing to decode in a list of parts.
  | .multipart .. => .ok []

/-- `attachment-{index}{extension}`. -/
def generatedName (email : EmailLibrary) (contentType : Str) (index : Nat) : Str :=
  "attachment-".toList ++ Nat.toDigits 10 index ++ (email.guessExtension contentType).getD []

/-- `_attachment(part, index)`. -/
def attachment (email : EmailLibrary) (part : Part) (index : Nat) :
    Except PyError Attachment := do
  let content ← attachmentContent email part
  let filename := part.headers.filename.getD []
  let contentId := strip (part.headers.contentId.getD [])
  return {
    content := Base64.encode content
    filename := if filename = [] then generatedName email part.contentType index else filename
    type := part.contentType
    disposition :=
      if contentId ≠ [] ∨ part.headers.contentDisposition = some Disposition.inline.text then .inline
      else .attachment
    contentId :=
      if contentId ≠ [] then some (stripBy (fun c => c = '<' || c = '>') contentId) else none }

/-! ### The content -/

structure Content where
  text : Option Text
  html : Option Text
  attachments : List Attachment

/-- The text of a body; white space alone is none. -/
def bodyText (email : EmailLibrary) (body : Option Part) : Except PyError (Option Text) :=
  match body with
  | none => .ok none
  | some part => do
    let content ← email.getContent part
    return if isBlank content then none else some content

/-- The parts `get_body` answered with. -/
def MimeMessage.bodies (message : MimeMessage) : List Part :=
  message.htmlPart.toList ++ message.textPart.toList

/-- One turn of the loop over the leaves. -/
def attachLeaf (email : EmailLibrary) (bodyParts : List Nat) (attachments : List Attachment)
    (part : Part) : Except PyError (List Attachment) :=
  if part.id ∈ bodyParts then .ok attachments
  else do
    let next ← attachment email part (attachments.length + 1)
    return attachments ++ [next]

/-- `_extract_content(message)`. -/
def extractContent (email : EmailLibrary) (message : MimeMessage) : Except PyError Content := do
  let bodyParts := message.bodies.map Part.id
  let text ← bodyText email message.textPart
  let html ← bodyText email message.htmlPart
  let attachments ← (iterLeaves message.root).foldlM (attachLeaf email bodyParts) []
  return { text, html, attachments }

end MailCloudflare
