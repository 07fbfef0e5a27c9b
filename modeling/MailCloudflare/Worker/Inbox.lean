/-
The queue table of `worker/src/inbox-do.ts` and the statements that read and write it.

A row is what the schema says, and the table is keyed by `id`, its primary key.  Each
function here is the synchronous part of one method of `InboxQueue`: what its SQL does to
the table and what it does to the alarm, with `Date.now()` and the loaded configuration
passed in.  Where a method awaits R2 or a response, `Worker/Step.lean` says what may
happen in between.
-/
import MailCloudflare.Base.Keyed
import MailCloudflare.Worker.Config
import Mathlib.Data.List.Sort

namespace MailCloudflare

open Unicode JavaScript

/-! ### The schema -/

/-- Rows delivered per alarm pass. -/
def ALARM_BATCH : Nat := 10

/-- Expired R2 objects deleted per alarm pass. -/
def PURGE_BATCH : Nat := 100

/-- How long to back off when the pass itself failed. -/
def ALARM_RETRY_MS : Nat := 60000

/-- Upper bound on last_error, mirrored by the CHECK constraint. -/
def MAX_ERROR_CHARS : Nat := 200

/-- Hard cap on `list`. -/
def MAX_LIST : Nat := 1000

inductive InboxStatus
  | pending
  | delivered
  | rejected
  | dead
  deriving DecidableEq, Repr

/-- The statuses `retryAll` accepts. -/
inductive RetryableStatus
  | dead
  | rejected
  deriving DecidableEq, Repr

def RetryableStatus.toStatus : RetryableStatus → InboxStatus
  | .dead => .dead
  | .rejected => .rejected

/-- What the email handler hands over once the message is safely in R2. -/
structure EnqueueInput where
  id : String
  r2Key : String
  envelopeFrom : Units
  envelopeTo : Units
  messageId : Option Units
  size : Nat
  receivedAt : Nat
  deriving DecidableEq

/-- One row of the table. -/
structure InboxRow where
  id : String
  r2Key : String
  envelopeFrom : Units
  envelopeTo : Units
  messageId : Option Units
  size : Nat
  receivedAt : Nat
  status : InboxStatus
  attempts : Nat
  nextAttemptAt : Option Nat
  lastAttemptAt : Option Nat
  lastStatus : Option Nat
  lastError : Option Units
  threadId : Option ℚ
  deliveredAt : Option Nat
  purgeAt : Option Nat
  deriving DecidableEq

/-- What a TEXT column keeps of a string: the table is UTF-8, which has no surrogates. -/
def columnText (s : Units) : Units := toWellFormed s

/-- SQLite's `length` of a text: its characters up to the first NUL. -/
def sqlLength (s : Units) : Nat :=
  (codePoints (s.takeWhile fun u => u ≠ 0)).length

/-- `CHECK (last_error IS NULL OR length(last_error) <= 200)`. -/
def checkLastError (lastError : Option Units) : Bool :=
  lastError.all fun s => sqlLength s ≤ MAX_ERROR_CHARS

abbrev Inbox := Keyed.Table InboxRow.id

/-- What the Durable Object keeps in storage. -/
structure Queue where
  inbox : Inbox
  alarm : Option Nat

def Queue.init : Queue := ⟨.empty, none⟩

/-! ### The alarm -/

/-- Never push an existing alarm later; only ever bring it forward. -/
def armNoLaterThan (q : Queue) (time : Nat) : Queue :=
  match q.alarm with
  | none => { q with alarm := some time }
  | some current => if time < current then { q with alarm := some time } else q

/-- `SELECT MIN(t)` over the pending attempts and the purges. -/
def nextWake (inbox : Inbox) : Option Nat :=
  ((inbox.rows.filter fun row => row.status = .pending).filterMap (·.nextAttemptAt)
    ++ inbox.rows.filterMap (·.purgeAt)).min?

/-- Arm for the earliest thing left to do, or clear the alarm when the queue is idle. -/
def rearm (q : Queue) : Queue :=
  { q with alarm := nextWake q.inbox }

/-! ### Requests -/

/-- Wait before the first attempt; a broken configuration falls back to no wait. -/
def deliveryDelayMs (config : Option LoadedConfig) : Nat :=
  match config with
  | some c => c.deliveryDelayMs
  | none => 0

/-- The row `INSERT OR IGNORE` writes. -/
def newRow (input : EnqueueInput) (nextAttemptAt : Nat) : InboxRow where
  id := input.id
  r2Key := input.r2Key
  envelopeFrom := input.envelopeFrom
  envelopeTo := input.envelopeTo
  messageId := input.messageId
  size := input.size
  receivedAt := input.receivedAt
  status := .pending
  attempts := 0
  nextAttemptAt := some nextAttemptAt
  lastAttemptAt := none
  lastStatus := none
  lastError := none
  threadId := none
  deliveredAt := none
  purgeAt := none

/-- Queue a stored message; true when the row is new. -/
def enqueue (q : Queue) (input : EnqueueInput) (now : Nat) (config : Option LoadedConfig) :
    Queue × Bool :=
  let nextAttemptAt := now + deliveryDelayMs config
  if (q.inbox.get? input.id).isSome then (q, false)
  else
    (armNoLaterThan { q with inbox := q.inbox.insertOrIgnore (newRow input nextAttemptAt) }
      nextAttemptAt, true)

/-- `ORDER BY id DESC`, of the rows in `status` when there is one. -/
def newestFirst (inbox : Inbox) (status : Option InboxStatus) : List InboxRow :=
  (inbox.rows.filter fun row => status.all fun s => row.status = s).insertionSort
    fun a b => b.id ≤ a.id

/-- The newest rows; the limit is cut to 1 … MAX_LIST. -/
def list (q : Queue) (status : Option InboxStatus) (limit : Int) : List InboxRow :=
  (newestFirst q.inbox status).take (min (max limit 1) MAX_LIST).toNat

/-- `SET status = 'pending', attempts = 0, next_attempt_at = now, purge_at = NULL`. -/
def InboxRow.requeue (now : Nat) (row : InboxRow) : InboxRow :=
  { row with status := .pending, attempts := 0, nextAttemptAt := some now, purgeAt := none }

theorem InboxRow.requeue_id (now : Nat) (row : InboxRow) : (row.requeue now).id = row.id := rfl

inductive RetryResult
  | requeued
  | not_found
  | already_pending
  deriving DecidableEq, Repr

/-- Put a row back on the queue for an immediate attempt, unless it is already pending. -/
def retry (q : Queue) (id : String) (now : Nat) : Queue × RetryResult :=
  match q.inbox.get? id with
  | none => (q, .not_found)
  | some row =>
    if row.status = .pending then (q, .already_pending)
    else
      (armNoLaterThan
        { q with
          inbox := q.inbox.updateWhere (fun r => r.id = id && r.status ≠ .pending)
            (InboxRow.requeue now) (InboxRow.requeue_id now) }
        now, .requeued)

/-- Requeue every row in `status`; the count of them. -/
def retryAll (q : Queue) (status : RetryableStatus) (now : Nat) : Queue × Nat :=
  let count := (q.inbox.rows.filter fun r => r.status = status.toStatus).length
  let requeued : Queue :=
    { q with
      inbox := q.inbox.updateWhere (fun r => r.status = status.toStatus)
        (InboxRow.requeue now) (InboxRow.requeue_id now) }
  if count > 0 then (armNoLaterThan requeued now, count) else (requeued, count)

/-- `DELETE FROM inbox WHERE id = ?`. -/
def removeRow (q : Queue) (id : String) : Queue :=
  { q with inbox := q.inbox.deleteWhere fun r => r.id = id }

/-! ### One attempt -/

/-- How one delivery attempt ended, before the attempt budget is applied. -/
inductive Verdict
  | delivered
  | retry
  | rejected
  | dead
  deriving DecidableEq, Repr

def Outcome.toVerdict : Outcome → Verdict
  | .delivered => .delivered
  | .retry => .retry
  | .rejected => .rejected

/-- `ORDER BY next_attempt_at, id`. -/
def InboxRow.dueBefore (a b : InboxRow) : Prop :=
  a.nextAttemptAt.getD 0 < b.nextAttemptAt.getD 0 ∨
    (a.nextAttemptAt.getD 0 = b.nextAttemptAt.getD 0 ∧ a.id ≤ b.id)

instance : DecidableRel InboxRow.dueBefore := fun a b => by
  unfold InboxRow.dueBefore
  exact inferInstance

/-- `WHERE status = 'pending' AND next_attempt_at <= now`. -/
def InboxRow.isDue (now : Nat) (row : InboxRow) : Bool :=
  row.status = .pending && row.nextAttemptAt.any fun t => t ≤ now

/-- The rows a pass works on, oldest first. -/
def dueRows (inbox : Inbox) (now : Nat) : List InboxRow :=
  ((inbox.rows.filter (InboxRow.isDue now)).insertionSort InboxRow.dueBefore).take ALARM_BATCH

/-- A retry that spends the last attempt becomes `dead`. -/
def outcomeOf (config : LoadedConfig) (attempt : Nat) (verdict : Verdict) : Verdict :=
  if verdict = .retry ∧ attempt ≥ config.maxAttempts then .dead else verdict

def Verdict.nextStatus : Verdict → InboxStatus
  | .delivered => .delivered
  | .retry => .pending
  | .rejected => .rejected
  | .dead => .dead

/-- What an attempt writes into its row. -/
structure Settlement where
  status : InboxStatus
  attempts : Nat
  nextAttemptAt : Option Nat
  lastAttemptAt : Nat
  lastStatus : Option Nat
  lastError : Option Units
  threadId : Option ℚ
  deliveredAt : Option Nat
  purgeAt : Option Nat

def Settlement.apply (s : Settlement) (row : InboxRow) : InboxRow :=
  { row with
    status := s.status
    attempts := s.attempts
    nextAttemptAt := s.nextAttemptAt
    lastAttemptAt := some s.lastAttemptAt
    lastStatus := s.lastStatus
    lastError := s.lastError
    threadId := s.threadId
    deliveredAt := s.deliveredAt
    purgeAt := s.purgeAt }

theorem Settlement.apply_id (s : Settlement) (row : InboxRow) : (s.apply row).id = row.id := rfl

/-- The values `settle` computes; `none` when `backoffMs` throws. -/
def settlement (config : LoadedConfig) (attempt : Nat) (verdict : Verdict) (status : Option Nat)
    (error : Option Units) (threadId : Option ℚ) (now : Nat) : Option Settlement := do
  let outcome := outcomeOf config attempt verdict
  let nextAttemptAt ←
    if outcome = .retry then (backoffMs config.backoffSeconds attempt).map fun d => some (now + d)
    else some none
  return {
    status := outcome.nextStatus
    attempts := attempt
    nextAttemptAt := nextAttemptAt
    lastAttemptAt := now
    lastStatus := status
    lastError := error.map fun e => columnText (e.take MAX_ERROR_CHARS)
    threadId := threadId
    deliveredAt := if outcome = .delivered then some now else none
    purgeAt := if outcome = .delivered then some (now + config.retentionMs) else none }

/-- `WHERE id = ? AND status = 'pending'`. -/
def InboxRow.isPendingId (id : String) (row : InboxRow) : Bool :=
  row.id = id && row.status = .pending

/--
Apply an attempt's outcome to its row; true when a row changed.  `none` is an exception:
`backoffMs` threw, or the update violated the CHECK on last_error.
-/
def settle (inbox : Inbox) (id : String) (config : LoadedConfig) (attempt : Nat)
    (verdict : Verdict) (status : Option Nat) (error : Option Units) (threadId : Option ℚ)
    (now : Nat) : Option (Inbox × Bool) := do
  let s ← settlement config attempt verdict status error threadId now
  let applied := inbox.rows.any (InboxRow.isPendingId id)
  if applied && !checkLastError s.lastError then none
  else return (inbox.updateWhere (InboxRow.isPendingId id) s.apply s.apply_id, applied)

/-! ### The purge -/

/-- `WHERE purge_at IS NOT NULL AND purge_at <= now`. -/
def InboxRow.isExpired (now : Nat) (row : InboxRow) : Bool :=
  row.purgeAt.any fun t => t ≤ now

/-- The delivered rows whose retention has run out, in the order of `purge_at`. -/
def expiredRows (inbox : Inbox) (now : Nat) : List InboxRow :=
  ((inbox.rows.filter (InboxRow.isExpired now)).insertionSort fun a b =>
    a.purgeAt.getD 0 ≤ b.purgeAt.getD 0).take PURGE_BATCH

/-- `DELETE FROM inbox WHERE id = ? AND purge_at IS NOT NULL` for each of them. -/
def purgeRows (inbox : Inbox) (expired : List InboxRow) : Inbox :=
  expired.foldl (fun t row => t.deleteWhere fun r => r.id = row.id && r.purgeAt.isSome) inbox

end MailCloudflare
