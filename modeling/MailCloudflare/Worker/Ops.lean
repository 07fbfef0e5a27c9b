/-
The ops API: `worker/src/handlers/ops.ts`.

`handleOps` is a program over what it calls: the methods of the queue's Durable Object and
the bucket's `get`.  `answerCall` is what these do to a queue and a bucket, for one request
on its own; what else may happen while a call waits for R2 is said in `Worker/Step.lean`.
-/
import MailCloudflare.Base.Program
import MailCloudflare.Worker.Http
import MailCloudflare.Worker.Inbox
import MailCloudflare.Worker.Ulid

namespace MailCloudflare

open Unicode JavaScript

/-! ### What is called -/

inductive OpsCall : Type → Type
  /-- `queue.list(status, limit)`. -/
  | list (status : Option InboxStatus) (limit : Int) : OpsCall (List InboxRow)
  /-- `queue.get(id)`. -/
  | get (id : String) : OpsCall (Option InboxRow)
  /-- `queue.retry(id)`. -/
  | retry (id : String) : OpsCall RetryResult
  /-- `queue.retryAll(status)`. -/
  | retryAll (status : RetryableStatus) : OpsCall Nat
  /-- `queue.remove(id)`. -/
  | remove (id : String) : OpsCall Bool
  /-- `env.INBOX.get(key)`. -/
  | object (key : String) : OpsCall (Option Bytes)

/-- The Durable Object's storage and the bucket. -/
structure Store where
  queue : Queue
  bucket : String → Option Bytes

/-- Whether R2 throws, by key; a delete that throws may have been carried out. -/
structure R2Faults where
  get : String → Bool
  delete : String → Bool
  deletedAnyway : String → Bool

def Store.deleteObject (s : Store) (key : String) : Store :=
  { s with bucket := fun other => if other = key then none else s.bucket other }

/-- `remove(id)`: the object first, and the row once R2 has returned. -/
def Store.remove (s : Store) (faults : R2Faults) (id : String) : Option Bool × Store :=
  match s.queue.inbox.get? id with
  | none => (some false, s)
  | some row =>
    if faults.delete row.r2Key then
      (none, if faults.deletedAnyway row.r2Key then s.deleteObject row.r2Key else s)
    else (some true, { s.deleteObject row.r2Key with queue := removeRow s.queue id })

def answerCall (now : Nat) (faults : R2Faults) : {β : Type} → OpsCall β → Store → Option β × Store
  | _, .list status limit, s => (some (list s.queue status limit), s)
  | _, .get id, s => (some (s.queue.inbox.get? id), s)
  | _, .retry id, s => (some (retry s.queue id now).2, { s with queue := (retry s.queue id now).1 })
  | _, .retryAll status, s =>
    (some (retryAll s.queue status now).2, { s with queue := (retryAll s.queue status now).1 })
  | _, .remove id, s => s.remove faults id
  | _, .object key, s => (if faults.get key then none else some (s.bucket key), s)

def storeService (now : Nat) (faults : R2Faults) : Program.Service OpsCall Store :=
  ⟨answerCall now faults⟩

/-! ### Rows in JSON -/

def InboxStatus.text : InboxStatus → String
  | .pending => "pending"
  | .delivered => "delivered"
  | .rejected => "rejected"
  | .dead => "dead"

def INBOX_STATUSES : List InboxStatus := [.pending, .delivered, .rejected, .dead]

/-- The status a text names, if `isInboxStatus(text)`. -/
def inboxStatusOf (text : String) : Option InboxStatus :=
  INBOX_STATUSES.find? fun status => status.text = text

def RetryableStatus.text : RetryableStatus → String
  | .dead => "dead"
  | .rejected => "rejected"

def retryableStatusOf (text : String) : Option RetryableStatus :=
  [RetryableStatus.dead, .rejected].find? fun status => status.text = text

def natJson (n : Nat) : Json := .num n

def orNull {α : Type} (value : Option α) (f : α → Json) : Json := (value.map f).getD .null

/-- `toRecord(row)`, as JSON. -/
def toRecord (row : InboxRow) : Json :=
  .obj [
    (js "id", .str (js row.id)),
    (js "r2Key", .str (js row.r2Key)),
    (js "from", .str row.envelopeFrom),
    (js "to", .str row.envelopeTo),
    (js "messageId", orNull row.messageId .str),
    (js "size", natJson row.size),
    (js "receivedAt", natJson row.receivedAt),
    (js "status", .str (js row.status.text)),
    (js "attempts", natJson row.attempts),
    (js "nextAttemptAt", orNull row.nextAttemptAt natJson),
    (js "lastAttemptAt", orNull row.lastAttemptAt natJson),
    (js "lastStatus", orNull row.lastStatus natJson),
    (js "lastError", orNull row.lastError .str),
    (js "threadId", orNull row.threadId .num),
    (js "deliveredAt", orNull row.deliveredAt natJson),
    (js "purgeAt", orNull row.purgeAt natJson)]

/-! ### The routes -/

def LIST_DEFAULT : Nat := 50
def LIST_MAX : Nat := 500

/-- `/raw` or `/retry` behind an id. -/
inductive ItemAction
  | raw
  | retry
  deriving DecidableEq, Repr

/-- `ITEM_ROUTE.exec(pathname)`, a match of `^/inbox/([^/]+)(?:/(raw|retry))?$`. -/
def matchItem (pathname : String) : Option (String × Option ItemAction) :=
  if "/inbox/".toList.isPrefixOf pathname.toList then
    let behind := pathname.toList.drop "/inbox/".toList.length
    let id := behind.takeWhile fun c => c ≠ '/'
    let rest := behind.dropWhile fun c => c ≠ '/'
    if id = [] then none
    else if rest = [] then some (String.ofList id, none)
    else if rest = "/raw".toList then some (String.ofList id, some .raw)
    else if rest = "/retry".toList then some (String.ofList id, some .retry)
    else none
  else none

/-- `GET /inbox`. -/
def listInbox (request : OpsRequest) : Program OpsCall OpsResponse :=
  let respond (status : Option InboxStatus) : Program OpsCall OpsResponse := do
    let items ← Program.perform
      (.list status (intParam request "limit" LIST_DEFAULT LIST_MAX))
    return json (.obj [(js "ok", .bool true), (js "items", .arr (items.map toRecord))]) 200
  match request.param "status" with
  | none => respond none
  | some rawStatus =>
    match inboxStatusOf rawStatus with
    | none => return json (errorData "invalid status") 400
    | some status => respond (some status)

/-- `POST /inbox/retry`. -/
def retryInbox (request : OpsRequest) : Program OpsCall OpsResponse :=
  match (request.param "status").bind retryableStatusOf with
  | none => return json (errorData "status must be dead or rejected") 400
  | some status => do
    let requeued ← Program.perform (.retryAll status)
    return json (.obj [(js "ok", .bool true), (js "status", .str (js status.text)),
      (js "requeued", natJson requeued)]) 202

/-- `GET /inbox/:id`. -/
def getItem (id : String) : Program OpsCall OpsResponse := do
  match ← Program.perform (.get id) with
  | none => return notFound "not found"
  | some item => return json (.obj [(js "ok", .bool true), (js "item", toRecord item)]) 200

/-- `DELETE /inbox/:id`. -/
def deleteItem (id : String) : Program OpsCall OpsResponse := do
  if ← Program.perform (.remove id) then
    return json (.obj [(js "ok", .bool true), (js "id", .str (js id))]) 200
  else return notFound "not found"

/-- `GET /inbox/:id/raw`. -/
def getRaw (id : String) : Program OpsCall OpsResponse := do
  match ← Program.perform (.get id) with
  | none => return notFound "not found"
  | some item =>
    match ← Program.perform (.object item.r2Key) with
    | none => return notFound "stored message missing from R2"
    | some object =>
      return {
        status := 200
        headers := [("Content-Type", "message/rfc822"), ("Content-Length", toString object.length),
          ("Content-Disposition", "attachment; filename=\"" ++ id ++ ".eml\"")]
        body := .stream object }

/-- `POST /inbox/:id/retry`. -/
def retryItem (id : String) : Program OpsCall OpsResponse := do
  match ← Program.perform (.retry id) with
  | .requeued => return json (.obj [(js "ok", .bool true), (js "id", .str (js id))]) 202
  | .already_pending => return json (errorData "already pending") 409
  | .not_found => return notFound "not found"

/-- The routes of one item. -/
def routeItem (request : OpsRequest) (id : String) :
    Option ItemAction → Program OpsCall OpsResponse
  | none =>
    if request.method = "GET" then getItem id
    else if request.method = "DELETE" then deleteItem id
    else return notFound "not found"
  | some .raw => if request.method = "GET" then getRaw id else return notFound "not found"
  | some .retry => if request.method = "POST" then retryItem id else return notFound "not found"

/-- What is behind the bearer token. -/
def route (request : OpsRequest) : Program OpsCall OpsResponse :=
  if request.pathname = "/inbox" ∧ request.method = "GET" then listInbox request
  else if request.pathname = "/inbox/retry" ∧ request.method = "POST" then retryInbox request
  else
    match matchItem request.pathname with
    | none => return notFound "not found"
    | some (id, action) =>
      if !ULID_PATTERN id then return notFound "not found" else routeItem request id action

/-- `GET /health`. -/
def OpsRequest.isHealth (request : OpsRequest) : Bool :=
  request.method = "GET" && request.pathname = "/health"

def handleOps (env : Env) (request : OpsRequest) : Program OpsCall OpsResponse :=
  if request.isHealth then return json (.obj [(js "ok", .bool true)]) 200
  else
    match opsTokenOf env with
    | none => return notFound "not found"
    | some opsToken =>
      match bearerToken request with
      | none => return unauthorized
      | some presented =>
        if !timingSafeEqual presented opsToken then return unauthorized else route request

end MailCloudflare
