/-
The sending session: `CloudflareSendingSession` of `mail_cloudflare/cloudflare_api.py`.

What Cloudflare does is an outcome for each attempt of a call, and any JSON value may be in
an answer.  A session is its latch, `_fatal_error`; the address, the token and the HTTP
pool do not change.  What a call does is logged: the requests with what came of them, and
the delays handed to `_sleep`.
-/
import MailCloudflare.Base.Retry
import MailCloudflare.Odoo.Payload

namespace MailCloudflare

open Unicode Python Keyed

def MAX_BODY_BYTES : Nat := 5 * 1024 * 1024
def MAX_ATTEMPTS : Nat := 3
def MAX_RETRY_AFTER : Int := 10

/-- What the session needs beyond the mapping: floats, and `repr` of what is no text. -/
structure ClientLibrary (F : Type) extends MailLibrary where
  floats : Floats F
  repr : Value F → Text

variable {F : Type}

/-! ### Answers -/

inductive HttpBody (F : Type)
  /-- `response.json()` raises ValueError. -/
  | notJson
  | json (value : Value F)

structure HttpResponse (F : Type) where
  status : Nat
  /-- The Retry-After header. -/
  retryAfter : Option Str
  body : HttpBody F

inductive HttpOutcome (F : Type)
  /-- A `requests.RequestException`, with its text. -/
  | networkError (text : Text)
  | response (response : HttpResponse F)

/-- A `CloudflareEmailError`, whose text and code may come from an answer. -/
structure SendError (F : Type) where
  message : Text
  status : Option Int := none
  code : Value F := .none
  fatal : Bool := false

/-- A refusal that was raised before anything was sent. -/
def sendError (e : CloudflareEmailError) : SendError F where
  message := ofStr e.message
  status := e.status
  code := (e.code.map Value.int).getD .none
  fatal := e.fatal

abbrev Members (F : Type) := List (Text × Value F)

/-- `_parse_json(response)`. -/
def parseJson (response : HttpResponse F) : Option (Members F) :=
  match response.body with
  | .json (.dict members) => some members
  | _ => none

/-- `(payload or {}).get(name)`. -/
def payloadMember (payload : Option (Members F)) (name : String) : Value F :=
  Value.member (payload.getD []) name

/-- `(payload or {}).get("errors") or []`. -/
def errorsOf (lib : ClientLibrary F) (payload : Option (Members F)) : Value F :=
  (payloadMember payload "errors").orElse lib.floats (.list [])

/-- The line of one error; what is no object has none. -/
def errorLine (lib : ClientLibrary F) : Value F → Option Text
  | .dict error =>
    some ((Value.member error "code").toText lib.repr ++ text ": " ++
      (Value.member error "message").toText lib.repr)
  | _ => none

/-- `_describe(status, payload)`. -/
def describe (lib : ClientLibrary F) (status : Nat) (payload : Option (Members F)) :
    Except PyError Text := do
  let errors ← (errorsOf lib payload).iterate
  let details := (text "; ").intercalate (errors.filterMap (errorLine lib))
  return text "HTTP " ++ decimalText status ++
    (if details = [] then [] else text " (" ++ details ++ text ")")

/-- `_first_code(payload)`. -/
def firstCode (lib : ClientLibrary F) (payload : Option (Members F)) :
    Except PyError (Value F) := do
  let errors := errorsOf lib payload
  if errors.truthy lib.floats then
    match ← errors.first with
    | .dict error => return Value.member error "code"
    | _ => return .none
  else return .none

/-- `_retry_after(response)`. -/
def retryAfter (lib : ClientLibrary F) (response : HttpResponse F) : Option Int :=
  int lib.py (response.retryAfter.getD [])

/-- `status in (401, 403)`. -/
def isFatalStatus (status : Nat) : Bool := status = 401 || status = 403

/-- A `CloudflareEmailError` about an answer. -/
def answerError (lib : ClientLibrary F) (before after : String) (status : Nat)
    (payload : Option (Members F)) : Except PyError (SendError F) := do
  let description ← describe lib status payload
  let code ← firstCode lib payload
  return {
    message := text before ++ description ++ text after
    status := some status
    code
    fatal := isFatalStatus status }

/-! ### One attempt -/

/-- How `_post` ends: its result, and what it sets `_fatal_error` to. -/
structure PostEnd (F : Type) where
  result : Except (Failure (SendError F)) (Value F)
  fatalError : Option (SendError F)

def PostEnd.raised (failure : Failure (SendError F)) : PostEnd F := ⟨.error failure, none⟩

/-- What is made of an outcome: the end of `_post`, or an error and a delay. -/
inductive Judgement (F : Type)
  | done (postEnd : PostEnd F)
  | retry (lastError : SendError F) (delay : Int)

/-- `_retry_after(response) or 2**attempt`. -/
def limitDelay (lib : ClientLibrary F) (attempt : Nat) (response : HttpResponse F) : Int :=
  match retryAfter lib response with
  | some delay => if delay ≠ 0 then delay else Nat.pow 2 attempt
  | none => Nat.pow 2 attempt

def judgeResponse (lib : ClientLibrary F) (attempt : Nat) (response : HttpResponse F) :
    Judgement F :=
  let status := response.status
  let payload := parseJson response
  if status = 200 then
    if (payloadMember payload "success").truthy lib.floats then
      .done ⟨.ok ((payloadMember payload "result").orElse lib.floats (.dict [])), none⟩
    else
      match answerError lib "Cloudflare answered " " without success: true" status payload with
      | .error e => .done (.raised (.python e))
      | .ok error => .done (.raised (.cloudflare error))
  else
    match answerError lib "Cloudflare refused the message: " "" status payload with
    | .error e => .done (.raised (.python e))
    | .ok lastError =>
      if lastError.fatal then .done ⟨.error (.cloudflare lastError), some lastError⟩
      else if status = 429 then .retry lastError (limitDelay lib attempt response)
      else if status ≥ 500 then .retry lastError (Nat.pow 2 (attempt - 1))
      else .done (.raised (.cloudflare lastError))

def judge (lib : ClientLibrary F) (attempt : Nat) : HttpOutcome F → Judgement F
  | .networkError exc =>
    .retry { message := text "Could not reach Cloudflare: " ++ exc } (Nat.pow 2 (attempt - 1))
  | .response response => judgeResponse lib attempt response

inductive SessionEvent (F : Type)
  /-- `self._http.post(…, data=body, …)`, and what came of it. -/
  | posted (body : Bytes) (outcome : HttpOutcome F)
  /-- `_sleep(delay)`. -/
  | slept (delay : Int)

/-- `time.sleep` of whole seconds, which it counts in 64-bit nanoseconds. -/
def sleep (seconds : Int) : Except PyError Unit :=
  if seconds < -9223372036 then .error .overflowError
  else if seconds < 0 then .error .valueError
  else .ok ()

/-- One turn of the loop in `_post`. -/
def postAttempt (lib : ClientLibrary F) (body : Bytes) (outcomes : Nat → HttpOutcome F)
    (attempt : Nat) : Retry.Attempt (SessionEvent F) (PostEnd F) (SendError F) :=
  let posted := SessionEvent.posted body (outcomes attempt)
  match judge lib attempt (outcomes attempt) with
  | .done postEnd => ⟨[posted], .done postEnd⟩
  | .retry lastError delay =>
    if attempt < MAX_ATTEMPTS then
      let delay := min delay MAX_RETRY_AFTER
      match sleep delay with
      | .error e => ⟨[posted, .slept delay], .done (.raised (.python e))⟩
      | .ok () => ⟨[posted, .slept delay], .again lastError⟩
    else ⟨[posted], .again lastError⟩

/-- What is raised when the attempts are used up. -/
def givingUp (lastError : Option (SendError F)) : PostEnd F :=
  match lastError with
  | none => .raised (.python .attributeError)
  | some e =>
    .raised (.cloudflare {
      message :=
        text "Giving up after " ++ decimalText MAX_ATTEMPTS ++ text " attempts: " ++ e.message
      status := e.status
      code := e.code })

/-- `_post(body)`. -/
def post (lib : ClientLibrary F) (body : Bytes) (outcomes : Nat → HttpOutcome F) :
    List (SessionEvent F) × PostEnd F :=
  Retry.loop (postAttempt lib body outcomes) givingUp (List.range' 1 MAX_ATTEMPTS) none

/-! ### The recipients that failed -/

/-- `{address.lower() for address in value or []}`. -/
def addressSet (lib : ClientLibrary F) (value : Value F) : Except PyError (List Text) := do
  let items ← (value.orElse lib.floats (.list [])).iterate
  items.mapM (Value.lowered lib.py)

/-- `sorted(addresses)` of a set, as an f-string writes it. -/
def sortedText (lib : ClientLibrary F) (addresses : List Text) : Text :=
  lib.repr (.list ((addresses.dedup.mergeSort textLe).map Value.str))

def nobodyReached (lib : ClientLibrary F) (bounced suppressed : List Text) : SendError F where
  message :=
    text "No recipient could be reached (permanently bounced: " ++ sortedText lib bounced ++
      text "; suppressed: " ++ sortedText lib suppressed ++ text ")."

/-- `_check_recipients(result, payload)`. -/
def checkRecipients (lib : ClientLibrary F) (result : Value F) (payload : Payload) :
    Except (Failure (SendError F)) Unit := do
  let recipients := payload.addresses.map fun address => lower lib.py (ofStr address)
  let bounced ← (result.get "permanent_bounces" >>= addressSet lib).mapError .python
  let suppressed ← (result.get "suppressed_recipients" >>= addressSet lib).mapError .python
  let failed := bounced ++ suppressed
  if failed = [] then return ()
  else
    let delivered ← (result.get "delivered").mapError .python
    let queued ← (result.get "queued").mapError .python
    let reached ← (Value.add lib.floats (delivered.orElse lib.floats (.list []))
      (queued.orElse lib.floats (.list []))).mapError .python
    if recipients.all (· ∈ failed) || !reached.truthy lib.floats then
      .error (.cloudflare (nobodyReached lib bounced suppressed))
    else return ()

/-! ### Calls -/

structure CloudflareSendingSession (F : Type) where
  fatalError : Option (SendError F) := none

/-- What a call does and how it ends, and the session it leaves. -/
structure SendRun (F : Type) where
  events : List (SessionEvent F)
  result : Except (Failure (SendError F)) (Value F)
  session : CloudflareSendingSession F

/-- `f"{numerator / denominator:.1f}"`, rounded to the nearest and from the middle to even. -/
def oneDecimal (numerator denominator : Nat) : Text :=
  let tenths := numerator * 10 / denominator
  let behind := numerator * 10 % denominator
  let rounded :=
    if 2 * behind < denominator ∨ 2 * behind = denominator ∧ tenths % 2 = 0 then tenths
    else tenths + 1
  decimalText (rounded / 10 : Nat) ++ text "." ++ decimalText (rounded % 10 : Nat)

def tooLarge (length : Nat) : SendError F where
  message := text "Message is " ++ oneDecimal length (1024 * 1024) ++
    text " MiB once encoded; Cloudflare accepts at most " ++
    decimalText (MAX_BODY_BYTES / 1024 / 1024 : Nat) ++ text " MiB."

/-- What `send_message` makes of the result of `_post`. -/
def concludeSend (lib : ClientLibrary F) (payload : Payload) (result : Value F) :
    Except (Failure (SendError F)) (Value F) := do
  checkRecipients lib result payload
  let messageId ← (result.get "message_id").mapError .python
  return messageId.orElse lib.floats (.str [])

/-- What a later call raises once the session has met a 401 or 403. -/
def notRetried (fatalError : SendError F) : SendError F where
  message := text "Not retried: an earlier send in this batch failed with " ++ fatalError.message
  status := fatalError.status
  code := fatalError.code
  fatal := true

/-- `send_message(message, smtp_from, smtp_to_list)`. -/
def sendMessage (lib : ClientLibrary F) (session : CloudflareSendingSession F)
    (message : MimeMessage) (smtpToList : List Str) (outcomes : Nat → HttpOutcome F) : SendRun F :=
  match session.fatalError with
  | some fatalError => ⟨[], .error (.cloudflare (notRetried fatalError)), session⟩
  | none =>
    match buildPayload lib.toMailLibrary message smtpToList with
    | .error failure => ⟨[], .error (failure.map sendError), session⟩
    | .ok payload =>
      match encodeUtf8 payload.json with
      | .error e => ⟨[], .error (.python e), session⟩
      | .ok body =>
        if body.length > MAX_BODY_BYTES then
          ⟨[], .error (.cloudflare (tooLarge body.length)), session⟩
        else
          let (events, postEnd) := post lib body outcomes
          ⟨events, postEnd.result >>= concludeSend lib payload, ⟨postEnd.fatalError⟩⟩

/-- One call, with what comes of its attempts. -/
structure SendCall (F : Type) where
  message : MimeMessage
  smtpToList : List Str
  outcomes : Nat → HttpOutcome F

def runCall (lib : ClientLibrary F) (session : CloudflareSendingSession F) (call : SendCall F) :
    SendRun F :=
  sendMessage lib session call.message call.smtpToList call.outcomes

/-- The calls on one session, one after the other. -/
def runCalls (lib : ClientLibrary F) :
    CloudflareSendingSession F → List (SendCall F) → List (SendRun F)
  | _, [] => []
  | session, call :: rest =>
    runCall lib session call :: runCalls lib (runCall lib session call).session rest

end MailCloudflare
