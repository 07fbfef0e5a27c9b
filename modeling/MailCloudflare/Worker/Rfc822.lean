/-
Adding the envelope headers to a message: `worker/src/lib/rfc822.ts`.
-/
import MailCloudflare.Base.JavaScript

namespace MailCloudflare

open Unicode JavaScript

/-- `[name, value]`, rendered as `name: value\r\n`. -/
abbrev HeaderPair := Units × Units

/-- A line, excluding its CRLF, is at most 998 octets. -/
def MAX_LINE_OCTETS : Nat := 998

/-- An envelope value that cannot be written into a header line. -/
structure EnvelopeError where
  message : Units
  deriving DecidableEq

/-- Throw unless `name: value` is a single, well-formed header line. -/
def assertHeaderSafe (name value : Units) : Except EnvelopeError Unit :=
  if (codePoints value).any fun code => code < 0x20 || code = 0x7f then
    .error ⟨name ++ js " contains a control character"⟩
  else if (textEncode (name ++ js ": " ++ value)).length > MAX_LINE_OCTETS then
    .error ⟨name ++ js " exceeds 998 octets"⟩
  else .ok ()

/-- The two headers a delivering MTA adds. -/
def envelopeHeaders (envelopeFrom envelopeTo : Units) : List HeaderPair :=
  [(js "Delivered-To", envelopeTo),
    (js "Return-Path", if envelopeFrom = [] then js "<>" else js "<" ++ envelopeFrom ++ js ">")]

/-- The header lines, each validated before it is written. -/
def headerBlock : List HeaderPair → Except EnvelopeError Units
  | [] => .ok []
  | (name, value) :: rest => do
    assertHeaderSafe name value
    let block ← headerBlock rest
    return name ++ js ": " ++ value ++ js "\r\n" ++ block

/-- Prepend header lines to a raw message, in the order given. -/
def prependHeaders (raw : Bytes) (headers : List HeaderPair) : Except EnvelopeError Bytes := do
  let block ← headerBlock headers
  return textEncode block ++ raw

/-- Longest Message-ID kept. -/
def MAX_MESSAGE_ID : Nat := 256

/-- The message's own Message-ID in printable ASCII, `none` when nothing usable is left. -/
def messageIdOf (header : Option Units) : Option Units :=
  header.bind fun value =>
    let out := (codePoints (trim value)).filter fun code => 0x20 ≤ code && code < 0x7f
    let id := (out.map UInt16.ofNat).take MAX_MESSAGE_ID
    if id = [] then none else some id

end MailCloudflare
