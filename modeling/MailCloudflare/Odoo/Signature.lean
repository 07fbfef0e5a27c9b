/-
The verifier of a delivery, `_cloudflare_verify_signature` of
`mail_cloudflare/models/fetchmail_server.py`.
-/
import MailCloudflare.Odoo.Prepare
import MailCloudflare.Worker.Sign

namespace MailCloudflare

open Unicode Python

/-- Signature scheme the Worker sends. -/
def SIGNATURE_SCHEME : Str := "v1".toList

/-- Seconds a signed request stays valid on either side of the server clock. -/
def SIGNATURE_TOLERANCE : Nat := 300

/-- The octets that are signed: the timestamp as received, a full stop, the body. -/
def signedOctets (timestamp : Str) (body : Bytes) : Bytes :=
  utf8 (timestamp ++ ['.']) ++ body

/-- What `not value` lets through: a text that is there and not empty. -/
def present : Option Str → Option Str
  | some (c :: s) => some (c :: s)
  | _ => none

/--
Whether `signature` is `v1=<hex HMAC of "<timestamp>." and the body>` for a `timestamp`
within the tolerance of `now`, which is `time.time()` when it is not given.  `none` is
every path to a plain `False`.
-/
def checkSignature (py : UnicodeData) (hmac : Hmac) (secret timestamp signature : Option Str)
    (body : Body) (now : Option ℚ) (time : ℚ) : Option Bool := do
  let secret ← present secret
  let timestamp ← present timestamp
  let signature ← present signature
  let timestamp := strip timestamp
  let issuedAt ← int py timestamp
  let now := truncate (now.getD time)
  guard (¬ (now - issuedAt).natAbs > SIGNATURE_TOLERANCE)
  let (scheme, digest) := partition '=' (strip signature)
  guard (scheme = SIGNATURE_SCHEME ∧ digest ≠ [])
  let expected := hexdigest (hmac (utf8 secret) (signedOctets timestamp body.encode)).val
  compareDigest expected (py.lower digest)

/-- `_cloudflare_verify_signature`. -/
def cloudflareVerifySignature (py : UnicodeData) (hmac : Hmac)
    (secret timestamp signature : Option Str) (body : Body) (now : Option ℚ) (time : ℚ) : Bool :=
  (checkSignature py hmac secret timestamp signature body now time).getD false

/-- A header value as the server hands it over, one character for each byte sent. -/
def headerText (value : Units) : Str :=
  value.map fun u => Char.ofNat u.toNat

end MailCloudflare
