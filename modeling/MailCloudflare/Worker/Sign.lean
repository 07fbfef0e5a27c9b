/-
Request signing for the push to Odoo: `worker/src/lib/sign.ts` and the byte helpers of
`worker/src/lib/util.ts` it uses.

HMAC-SHA256 is a function of the key bytes and the message bytes that both ends share, so
it is a parameter here and in the verifier.
-/
import MailCloudflare.Base.JavaScript

namespace MailCloudflare

open Unicode JavaScript

/-- A SHA-256 digest. -/
abbrev Digest := { bytes : Bytes // bytes.length = 32 }

/-- The signing primitive, a function of the key bytes and the message bytes. -/
abbrev Hmac := Bytes → Bytes → Digest

/-- `String(n)` for a whole number. -/
def decimal (n : Nat) : Units :=
  units (Nat.toDigits 10 n)

/-- `b.toString(16).padStart(2, "0")` for every byte. -/
def toHex (bytes : Bytes) : Units :=
  bytes.flatMap fun b =>
    let digits := units (Nat.toDigits 16 b.toNat)
    List.replicate (2 - digits.length) 0x30 ++ digits

/-- Seconds since the Unix epoch. -/
def unixSeconds (now : Nat) : Nat :=
  now / 1000

/-- The octets that are signed: `"<timestamp>."` followed by the body. -/
def signaturePayload (timestamp : Nat) (body : Bytes) : Bytes :=
  textEncode (decimal timestamp ++ js ".") ++ body

def hmacSha256Hex (hmac : Hmac) (secret : Units) (message : Bytes) : Units :=
  toHex (hmac (textEncode secret) message).val

/-- The value of the X-Mail-Cloudflare-Signature header for one attempt. -/
def signBody (hmac : Hmac) (secret : Units) (timestamp : Nat) (body : Bytes) : Units :=
  js "v1=" ++ hmacSha256Hex hmac secret (signaturePayload timestamp body)

end MailCloudflare
