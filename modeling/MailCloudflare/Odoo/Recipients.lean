/-
Who a message is sent to: `_split_recipients` of `mail_cloudflare/cloudflare_api.py`.

The message is what core hands over, as far as its headers are read: the texts `str` makes
of the values `items()` yields.  `email_split_tuples` is Odoo's, and a parameter.
-/
import MailCloudflare.Base.Keyed
import MailCloudflare.Base.Python

namespace MailCloudflare

open Unicode Python Keyed

structure Message where
  /-- `message.items()`. -/
  items : List (Str × Str)

/-- `message[name]`: the value of the first header of that name. -/
def Message.get (py : UnicodeData) (message : Message) (name : Str) : Option Str :=
  (message.items.find? fun item => py.lower item.1 = py.lower name).map (·.2)

/-- `str(message[name] or "")`. -/
def Message.text (py : UnicodeData) (message : Message) (name : Str) : Str :=
  (message.get py name).getD []

/-- A send that Cloudflare refused, or that never reached it. -/
structure CloudflareEmailError where
  message : Str
  status : Option Int := none
  code : Option Int := none
  fatal : Bool := false
  deriving DecidableEq

def MAX_RECIPIENTS : Nat := 50

/-- A Cloudflare address object. -/
structure Address where
  address : Str
  name : Option Str
  deriving DecidableEq

/-- `(name, email)` as an address object. -/
def toAddress (pair : Str × Str) : Address where
  address := pair.2
  name := if pair.1 = [] then none else some pair.1

/-- The envelope by lower-cased address, with the first spelling of each. -/
abbrev Envelope := Table (Prod.fst : Str × Str → Str)

def envelopeOf (py : UnicodeData) (smtpToList : List Str) : Envelope :=
  smtpToList.foldl (fun envelope address => envelope.insertOrIgnore (py.lower address, address))
    .empty

/-- One turn of the loop in `take`: the keys seen so far, and the addresses taken. -/
def takePair (py : UnicodeData) (envelope : Envelope) (taken : List Str × List Address)
    (pair : Str × Str) : List Str × List Address :=
  let key := py.lower pair.2
  if (envelope.get? key).isSome ∧ key ∉ taken.1 then
    (key :: taken.1, taken.2 ++ [toAddress pair])
  else taken

/-- `take(header)`. -/
def take (py : UnicodeData) (emailSplitTuples : Str → List (Str × Str)) (message : Message)
    (envelope : Envelope) (seen : List Str) (header : Str) : List Str × List Address :=
  (emailSplitTuples (message.text py header)).foldl (takePair py envelope) (seen, [])

/-- The address-object lists of a request. -/
structure Recipients where
  toList : List Address
  ccList : List Address
  bccList : List Address
  deriving DecidableEq

/-- The recipients by header, however many there are. -/
def recipientsOf (py : UnicodeData) (emailSplitTuples : Str → List (Str × Str))
    (message : Message) (smtpToList : List Str) : Recipients :=
  let envelope := envelopeOf py smtpToList
  let (seen, toList) := take py emailSplitTuples message envelope [] "To".toList
  let (seen, ccList) := take py emailSplitTuples message envelope seen "Cc".toList
  let bccList := (envelope.rows.filter fun row => row.1 ∉ seen).map fun row => toAddress ([], row.2)
  -- A lone hidden recipient becomes the visible one.
  if toList = [] ∧ bccList.length = 1 then ⟨bccList, ccList, []⟩ else ⟨toList, ccList, bccList⟩

/-- The `to`, `cc` and `bcc` of the request. -/
def splitRecipients (py : UnicodeData) (emailSplitTuples : Str → List (Str × Str))
    (message : Message) (smtpToList : List Str) : Except CloudflareEmailError Recipients :=
  let recipients := recipientsOf py emailSplitTuples message smtpToList
  let total := recipients.toList.length + recipients.ccList.length + recipients.bccList.length
  if total = 0 then .error { message := "No recipient left after envelope validation.".toList }
  else if total > MAX_RECIPIENTS then
    .error { message := Nat.toDigits 10 total ++ " recipients; Cloudflare accepts at most ".toList ++
      Nat.toDigits 10 MAX_RECIPIENTS ++ " (To, Cc and Bcc combined) per message.".toList }
  else .ok recipients

end MailCloudflare
