/-
What the Worker does next: one action is one uninterrupted stretch of its code, from one
await to the next, together with what the platform answered at the await that ends.

Requests may arrive at every await of the pass, and also between the rows of a pass and
between its phases, which is more than the runtime's input gates let through; SQL and the
alarm are touched within one action only.  R2 carries a read, a put or a delete out at
some moment between the call and its return, and a call that throws may have been carried
out or not, one that returns has been.  A crash discards the pass and the `remove()`
calls in flight and leaves storage as it is.
-/
import MailCloudflare.Worker.World
import Mathlib.Logic.Function.Basic

namespace MailCloudflare

open Unicode JavaScript

/-- How `fetch` came back. -/
inductive FetchResult
  | response (status : Nat)
  /-- A network failure or timeout, with its message. -/
  | failed (message : Units)
  deriving DecidableEq

inductive Action
  /-- `email()` is invoked; `id` is what `ulid()` returns. -/
  | email (id : String) (message : EmailMessage) (receivedAt : Nat)
  /-- The R2 put returns, or throws having written the object or not. -/
  | putReturn (id : String) (ok wrote : Bool)
  /-- The queue runs `enqueue` for an `email()` invocation. -/
  | emailEnqueue (id : String) (now : Nat) (config : Option LoadedConfig)
  /-- The call to the queue returns or throws. -/
  | emailReturn (id : String) (ok : Bool)
  /-- `enqueue` is called directly. -/
  | enqueue (input : EnqueueInput) (now : Nat) (config : Option LoadedConfig)
  | retry (id : String) (now : Nat)
  | retryAll (status : RetryableStatus) (now : Nat)
  /-- `remove(id)` is called and issues its R2 delete. -/
  | remove (call : Nat) (id : String)
  /-- R2 carries the delete out. -/
  | removeObject (call : Nat)
  | removeReturn (call : Nat) (ok : Bool)
  /-- `alarm()` fires and selects the due rows. -/
  | alarm (now : Nat) (config : Option LoadedConfig)
  /-- The loop takes the next row and issues its R2 get. -/
  | deliverNext
  /-- R2 reads the object. -/
  | getObject
  /-- The message has been received and signed, or a call on the way threw. -/
  | getReturn (ok : Bool) (now : Nat)
  | fetched (result : FetchResult) (now : Nat)
  /-- The body of the response has been read; `none` when reading it threw. -/
  | answered (body : Option Units) (now : Nat)
  | purgeExpired (now : Nat)
  /-- R2 deletes one of the objects. -/
  | purgeObject (key : String)
  | purgeReturn (ok : Bool)
  | rearm (now : Nat)
  | crash
  deriving DecidableEq

namespace World

def log (w : World) (e : Event) : World :=
  { w with history := e :: w.history }

/-- Move the running pass on. -/
def toStage (w : World) (p : Pass) (stage : PassStage) : World :=
  { w with pass := some { p with stage := stage } }

def setEmail (w : World) (id : String) (e : Option Email) : World :=
  { w with emails := Function.update w.emails id e }

def setRemoval (w : World) (call : Nat) (r : Option Removal) : World :=
  { w with removals := Function.update w.removals call r }

def setObject (w : World) (key : String) (object : Option Bytes) : World :=
  { w with bucket := Function.update w.bucket key object }

/-! ### `email()` -/

/-- Longest envelope address kept as R2 metadata. -/
def MAX_METADATA_ADDRESS : Nat := 256

/-- The addresses kept as R2 metadata; `none` when one of them cannot be encoded. -/
def metadataAddresses (m : EmailMessage) : Option (Units × Units) := do
  let envelopeFrom ← asciiValue (m.envelopeFrom.take MAX_METADATA_ADDRESS)
  let envelopeTo ← asciiValue (m.envelopeTo.take MAX_METADATA_ADDRESS)
  return (envelopeFrom, envelopeTo)

/-- The check an envelope must pass before anything is stored. -/
def checkEnvelope (m : EmailMessage) : Except EnvelopeError Unit := do
  assertHeaderSafe (js "Delivered-To") m.envelopeTo
  assertHeaderSafe (js "Return-Path") m.envelopeFrom

def emailInput (env : Worker) (id : String) (m : EmailMessage) (receivedAt : Nat)
    (stored : Bytes) : EnqueueInput where
  id := id
  r2Key := env.r2Key id
  envelopeFrom := m.envelopeFrom
  envelopeTo := m.envelopeTo
  messageId := messageIdOf m.messageIdHeader
  size := stored.length
  receivedAt := receivedAt

/-- `handleEmail` up to the R2 put. -/
def email (env : Worker) (w : World) (id : String) (m : EmailMessage) (receivedAt : Nat) :
    Option World :=
  if (w.emails id).isSome then none
  else
    match checkEnvelope m with
    | .error _ => some (w.log (.rejected id))
    | .ok _ =>
      match prependHeaders m.raw (envelopeHeaders m.envelopeFrom m.envelopeTo),
          metadataAddresses m with
      | .ok stored, some _ =>
        some ((w.log (.minted id)).setEmail id
          (some ⟨emailInput env id m receivedAt stored, stored, .putting⟩))
      | _, _ => some ((w.log (.minted id)).log (.failed id))

def putReturn (w : World) (id : String) (ok wrote : Bool) : Option World :=
  match w.emails id with
  | some e =>
    if e.stage = .putting then
      if ok then
        some ((w.setObject e.input.r2Key (some e.stored)).setEmail id
          (some { e with stage := .stored }))
      else
        let w := if wrote then w.setObject e.input.r2Key (some e.stored) else w
        some ((w.log (.failed id)).setEmail id none)
    else none
  | none => none

/-- `InboxQueue.enqueue`. -/
def enqueue (w : World) (input : EnqueueInput) (now : Nat) (config : Option LoadedConfig) :
    World :=
  match MailCloudflare.enqueue w.queue input now config with
  | (queue, true) =>
    { w with queue := queue, clock := now }.log (.enqueued input.id (now + deliveryDelayMs config))
  | (queue, false) => { w with queue := queue, clock := now }

def emailEnqueue (w : World) (id : String) (now : Nat) (config : Option LoadedConfig) :
    Option World :=
  match w.emails id with
  | some e =>
    if e.stage = .stored then
      some ((w.enqueue e.input now config).setEmail id (some { e with stage := .queued }))
    else none
  | none => none

def emailReturn (w : World) (id : String) (ok : Bool) : Option World :=
  match w.emails id with
  | some e =>
    if ok then
      if e.stage = .queued then
        some ((w.log (.accepted id e.stored)).setEmail id none)
      else none
    else if e.stage = .putting then none
    else some ((w.log (.failed id)).setEmail id none)
  | none => none

/-! ### The ops calls -/

def retry (w : World) (id : String) (now : Nat) : World :=
  match MailCloudflare.retry w.queue id now with
  | (queue, .requeued) => { w with queue := queue, clock := now }.log (.requeued id now)
  | (queue, _) => { w with queue := queue, clock := now }

def retryAll (w : World) (status : RetryableStatus) (now : Nat) : World :=
  let ids := (w.queue.inbox.rows.filter fun r => r.status = status.toStatus).map (·.id)
  { w with
    queue := (MailCloudflare.retryAll w.queue status now).1
    clock := now
    history := ids.map (fun id => Event.requeued id now) ++ w.history }

def remove (w : World) (call : Nat) (id : String) : Option World :=
  if (w.removals call).isSome then none
  else
    match w.queue.inbox.get? id with
    | none => some (w.log (.removeCalled id))
    | some row => some ((w.log (.removeCalled id)).setRemoval call (some ⟨id, row.r2Key, false⟩))

def removeObject (w : World) (call : Nat) : Option World :=
  (w.removals call).map fun r =>
    (w.setObject r.r2Key none).setRemoval call (some { r with deleted := true })

def removeReturn (w : World) (call : Nat) (ok : Bool) : Option World :=
  match w.removals call with
  | some r =>
    if ok then
      if r.deleted then
        some (({ w with queue := removeRow w.queue r.id }.log (.removed r.id)).setRemoval call none)
      else none
    else some (w.setRemoval call none)
  | none => none

/-! ### `alarm()` -/

def alarm (w : World) (now : Nat) (config : Option LoadedConfig) : Option World :=
  if w.pass.isSome then none
  else
    let due := dueRows w.queue.inbox now
    let w := { w with queue := { w.queue with alarm := none }, clock := now }.log (.passStarted now)
    match due, config with
    | [], _ => some { w with pass := some ⟨now, [], true, .purging⟩ }
    | _ :: _, none => some { w.log .configFailed with pass := some ⟨now, due, false, .purging⟩ }
    | _ :: _, some c => some { w with pass := some ⟨now, due, true, .delivering due c⟩ }

def deliverNext (w : World) : Option World :=
  match w.pass with
  | some p =>
    match p.stage with
    | .delivering [] _ => some (w.toStage p .purging)
    | .delivering (row :: due) config => some (w.toStage p (.getting row due config))
    | _ => none
  | none => none

def getObject (w : World) : Option World :=
  match w.pass with
  | some p =>
    match p.stage with
    | .getting row due config => some (w.toStage p (.got row due config (w.bucket row.r2Key)))
    | _ => none
  | none => none

/-- `deliver` threw; `processDue` logs it and goes on to the next row. -/
def throwAttempt (w : World) (p : Pass) (row : InboxRow) (due : List InboxRow)
    (config : LoadedConfig) : World :=
  (w.toStage p (.delivering due config)).log (.threw row.id)

/-- `settle`, after which the loop goes on to the next row. -/
def settleAttempt (w : World) (p : Pass) (row : InboxRow) (due : List InboxRow)
    (config : LoadedConfig) (verdict : Verdict) (status : Option Nat) (error : Option Units)
    (threadId : Option ℚ) (now : Nat) : World :=
  let attempt := row.attempts + 1
  match settle w.queue.inbox row.id config attempt verdict status error threadId now with
  | none => { w with clock := now }.throwAttempt p row due config
  | some (inbox, applied) =>
    ({ w with queue := { w.queue with inbox := inbox }, clock := now }.toStage p
      (.delivering due config)).log
        (.settled row.id attempt (outcomeOf config attempt verdict) status applied)

def getReturn (env : Worker) (w : World) (ok : Bool) (now : Nat) : Option World :=
  match w.pass with
  | some p =>
    match p.stage with
    | .got row due config object =>
      if ok then
        match object with
        | none => some (w.settleAttempt p row due config .dead none (some MISSING) none now)
        | some body =>
          match deliveryRequest env config row (row.attempts + 1) body now with
          | none => some ({ w with clock := now }.throwAttempt p row due config)
          | some request =>
            some (({ w with clock := now }.toStage p (.posting row due config)).log
              (.posted row.id (row.attempts + 1) request))
      else some ({ w with clock := now }.throwAttempt p row due config)
    | _ => none
  | none => none

def fetched (w : World) (result : FetchResult) (now : Nat) : Option World :=
  match w.pass with
  | some p =>
    match p.stage with
    | .posting row due config =>
      match result with
      | .failed message =>
        some (w.settleAttempt p row due config .retry none (some message) none now)
      | .response status =>
        some ({ w with clock := now }.toStage p (.answering row due config status))
    | _ => none
  | none => none

def answered (env : Worker) (w : World) (body : Option Units) (now : Nat) : Option World :=
  match w.pass with
  | some p =>
    match p.stage with
    | .answering row due config status =>
      let verdict := (classifyStatus status).toVerdict
      if verdict = .delivered then
        some (w.settleAttempt p row due config verdict (some status) none (threadIdOf env body) now)
      else
        some (w.settleAttempt p row due config verdict (some status)
          (some (errorOf env status body)) none now)
    | _ => none
  | none => none

def purgeExpired (w : World) (now : Nat) : Option World :=
  match w.pass with
  | some p =>
    if p.stage = .purging then
      let w := { w with clock := now }
      match expiredRows w.queue.inbox now with
      | [] => some (w.toStage p .rearming)
      | row :: rest => some (w.toStage p (.deleting (row :: rest) ((row :: rest).map (·.r2Key))))
    else none
  | none => none

def purgeObject (w : World) (key : String) : Option World :=
  match w.pass with
  | some p =>
    match p.stage with
    | .deleting expired left =>
      if key ∈ left then
        some ((w.setObject key none).toStage p (.deleting expired (left.filter (· ≠ key))))
      else none
    | _ => none
  | none => none

def purgeReturn (w : World) (ok : Bool) : Option World :=
  match w.pass with
  | some p =>
    match p.stage with
    | .deleting expired left =>
      if ok then
        if left = [] then
          some ({ w with queue := { w.queue with inbox := purgeRows w.queue.inbox expired } }.toStage
            p .rearming)
        else none
      else some ((w.toStage { p with healthy := false } .rearming).log .purgeFailed)
    | _ => none
  | none => none

/-- `healthy ? this.rearm() : setAlarm(Date.now() + ALARM_RETRY_MS)`, the end of the pass. -/
def rearm (w : World) (now : Nat) : Option World :=
  match w.pass with
  | some p =>
    if p.stage = .rearming then
      let queue :=
        if p.healthy then MailCloudflare.rearm w.queue
        else { w.queue with alarm := some (now + ALARM_RETRY_MS) }
      some ({ w with queue := queue, pass := none, clock := now }.log (.passEnded now p.healthy))
    else none
  | none => none

end World

/-- One action of the Worker and its platform. -/
def step (env : Worker) (w : World) : Action → Option World
  | .email id m receivedAt => w.email env id m receivedAt
  | .putReturn id ok wrote => w.putReturn id ok wrote
  | .emailEnqueue id now config => w.emailEnqueue id now config
  | .emailReturn id ok => w.emailReturn id ok
  | .enqueue input now config => some (w.enqueue input now config)
  | .retry id now => some (w.retry id now)
  | .retryAll status now => some (w.retryAll status now)
  | .remove call id => w.remove call id
  | .removeObject call => w.removeObject call
  | .removeReturn call ok => w.removeReturn call ok
  | .alarm now config => w.alarm now config
  | .deliverNext => w.deliverNext
  | .getObject => w.getObject
  | .getReturn ok now => w.getReturn env ok now
  | .fetched result now => w.fetched result now
  | .answered body now => w.answered env body now
  | .purgeExpired now => w.purgeExpired now
  | .purgeObject key => w.purgeObject key
  | .purgeReturn ok => w.purgeReturn ok
  | .rearm now => w.rearm now
  | .crash => some { w with pass := none, removals := fun _ => none }

end MailCloudflare
