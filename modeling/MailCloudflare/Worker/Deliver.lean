/-
One delivery attempt on the wire: the request `deliver` builds and how it reads the
answer (`worker/src/inbox-do.ts`).
-/
import MailCloudflare.Worker.Inbox
import MailCloudflare.Worker.Sign

namespace MailCloudflare

open Unicode JavaScript

/-- What the Worker is deployed with: its R2 prefix and the two platform primitives it calls. -/
structure Worker where
  keyPrefix : String
  jsonParse : Units → Option Json
  hmac : Hmac

/-- `${options.keyPrefix}${id}.eml`. -/
def Worker.r2Key (env : Worker) (id : String) : String :=
  env.keyPrefix ++ id ++ ".eml"

/-- Stamped by the release. -/
def VERSION : String := "1.1.1"

/-- The class `[^ -$&-~]`: anything but printable ASCII, and `%`. -/
def isAsciiEscaped (u : UInt16) : Bool :=
  !((0x20 ≤ u && u ≤ 0x24) || (0x26 ≤ u && u ≤ 0x7E))

/--
An envelope address as an HTTP header value or an R2 metadata value.  The expression has
no `u` flag, so what is handed to `encodeURIComponent` is one code unit at a time; `none`
is the URIError a surrogate raises there.
-/
def asciiValue (value : Units) : Option Units :=
  (value.mapM fun ch => if isAsciiEscaped ch then encodeURIComponent [ch] else some [ch]).map
    List.flatten

/-- A POST to Odoo. -/
structure Request where
  url : Units
  headers : List (Units × Units)
  body : Bytes
  deriving DecidableEq

/-- The request of one attempt, signed now; `none` when an envelope address cannot be encoded. -/
def deliveryRequest (env : Worker) (config : LoadedConfig) (row : InboxRow) (attempt : Nat)
    (body : Bytes) (now : Nat) : Option Request := do
  let timestamp := unixSeconds now
  let envelopeFrom ← asciiValue row.envelopeFrom
  let envelopeTo ← asciiValue row.envelopeTo
  let headers := [
    (js "Content-Type", js "message/rfc822"),
    (js "User-Agent", js "mail-cloudflare-worker/" ++ js VERSION),
    (js "X-Mail-Cloudflare-Id", js row.id),
    (js "X-Mail-Cloudflare-Timestamp", decimal timestamp),
    (js "X-Mail-Cloudflare-Signature", signBody env.hmac config.webhookSecret timestamp body),
    (js "X-Mail-Cloudflare-Envelope-From", envelopeFrom),
    (js "X-Mail-Cloudflare-Envelope-To", envelopeTo),
    (js "X-Mail-Cloudflare-Attempt", decimal attempt)]
  let access := match config.access with
    | none => []
    | some a =>
      [(js "CF-Access-Client-Id", a.clientId), (js "CF-Access-Client-Secret", a.clientSecret)]
  return { url := config.inboundUrl, headers := headers ++ access, body := body }

/-- Odoo's thread id; a 2xx without a JSON body still counts as delivered. -/
def threadIdOf (env : Worker) (body : Option Units) : Option ℚ :=
  match (body.bind env.jsonParse).bind (·.field? (js "thread_id")) with
  | some (.num n) => some n
  | _ => none

/-- `HTTP <status>: <detail>`. -/
def httpError (status : Nat) (detail : Units) : Units :=
  js "HTTP " ++ decimal status ++ js ": " ++ detail

/-- Odoo's `error` field when the body is its JSON shape, otherwise the first line of the body. -/
def errorOf (env : Worker) (status : Nat) (body : Option Units) : Units :=
  let text := (body.map trim).getD []
  match (env.jsonParse text).bind (·.field? (js "error")) with
  | some (.str error) => (httpError status error).take MAX_ERROR_CHARS
  | _ =>
    let line := firstLine text
    (if line = [] then js "HTTP " ++ decimal status else httpError status line).take MAX_ERROR_CHARS

/-- `stored message missing from R2`. -/
def MISSING : Units := js "stored message missing from R2"

end MailCloudflare
