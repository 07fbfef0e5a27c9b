/-
What Odoo puts before a message it received: `_existing_header_names`,
`_cloudflare_check_envelope` and `_cloudflare_prepare_message` of
`mail_cloudflare/models/fetchmail_server.py`.
-/
import MailCloudflare.Base.Python

namespace MailCloudflare

open Unicode Python

/-- The body of a request as the model's methods take it. -/
inductive Body
  | bytes (b : Bytes)
  | str (s : Str)

def Body.encode : Body → Bytes
  | .bytes b => b
  | .str s => utf8 s

/-! ### The header block -/

/-- `\r?\n\r?\n` matches here. -/
def endsHeaderBlock : Bytes → Bool
  | 0x0A :: 0x0A :: _ | 0x0A :: 0x0D :: 0x0A :: _ | 0x0D :: 0x0A :: 0x0A :: _
  | 0x0D :: 0x0A :: 0x0D :: 0x0A :: _ => true
  | _ => false

/-- What stands before the first match, the whole body when there is none. -/
def messageHead : Bytes → Bytes
  | [] => []
  | b :: rest => if endsHeaderBlock (b :: rest) then [] else b :: messageHead rest

/-- The class `[\x21-\x39\x3b-\x7e]`. -/
def isNameByte (b : UInt8) : Bool :=
  (0x21 ≤ b && b ≤ 0x39) || (0x3B ≤ b && b ≤ 0x7E)

/-- `^([\x21-\x39\x3b-\x7e]+):` at the beginning of a line. -/
def headerName (line : Bytes) : Option Bytes :=
  let name := line.takeWhile isNameByte
  match line.drop name.length with
  | 0x3A :: _ => if name = [] then none else some name
  | _ => none

/-- Lower-cased names of the header fields at the top of `body`. -/
def existingHeaderNames (body : Bytes) : List Str :=
  ((messageHead body).splitOn 0x0A).filterMap fun line =>
    (headerName line).map fun name => name.map fun b => (Char.ofNat b.toNat).toLower

/-! ### The envelope -/

/-- The class `[\x00-\x1f\x7f]`. -/
def isEnvelopeForbidden (c : Char) : Bool := c.toNat ≤ 0x1F || c.toNat = 0x7F

/-- `value` decoded and stripped, or `none` when absent; the error is a ValueError. -/
def cloudflareCheckEnvelope (name : Str) (value : Option Str) : Except Str (Option Str) :=
  match value with
  | none => .ok none
  | some value =>
    let value := unquote value
    if value.any isEnvelopeForbidden then
      .error ("Invalid ".toList ++ name ++ " address: control characters".toList)
    else .ok (some (strip value))

/-- Prepend the envelope as `Delivered-To` and `Return-Path` where the message lacks them. -/
def cloudflarePrepareMessage (body : Body) (envelopeFrom envelopeTo : Option Str) :
    Except Str Bytes := do
  let body := body.encode
  let envelopeFrom ← cloudflareCheckEnvelope "envelope-from".toList envelopeFrom
  let envelopeTo ← cloudflareCheckEnvelope "envelope-to".toList envelopeTo
  let names := existingHeaderNames body
  let deliveredTo := match envelopeTo with
    | some (c :: rest) =>
      if "delivered-to".toList ∈ names then [] else ["Delivered-To: ".toList ++ c :: rest]
    | _ => []
  let returnPath := match envelopeFrom with
    | some sender =>
      if "return-path".toList ∈ names then [] else ["Return-Path: <".toList ++ sender ++ ['>']]
    | none => []
  return utf8 ((deliveredTo ++ returnPath).flatMap fun line => line ++ ['\r', '\n']) ++ body

end MailCloudflare
