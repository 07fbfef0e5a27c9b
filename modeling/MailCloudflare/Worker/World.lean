/-
The running Worker: what it keeps, what is in flight, and what has happened.

Durable are the queue table, the alarm and the R2 bucket.  In flight are the `email()`
invocations that have stored or queued their message but not returned, the `remove()`
calls waiting for R2, and at most one `alarm()` pass; each is kept as the point of its
method it is waiting at, with the local variables still needed there.  `history` is the
log of what has happened, newest first.  No function of the Worker reads it; it is what
statements about the past are made of.
-/
import MailCloudflare.Worker.Deliver
import MailCloudflare.Worker.Rfc822

namespace MailCloudflare

open Unicode JavaScript

/-- What Email Routing hands over. -/
structure EmailMessage where
  envelopeFrom : Units
  envelopeTo : Units
  raw : Bytes
  messageIdHeader : Option Units
  deriving DecidableEq

/-- How far an `email()` invocation has come. -/
inductive EmailStage
  /-- Waiting for the R2 put. -/
  | putting
  /-- The message is in R2 and the queue has been called. -/
  | stored
  /-- The queue has answered. -/
  | queued
  deriving DecidableEq

structure Email where
  input : EnqueueInput
  stored : Bytes
  stage : EmailStage
  deriving DecidableEq

/-- A `remove()` waiting for R2; `deleted` once R2 has carried the delete out. -/
structure Removal where
  id : String
  r2Key : String
  deleted : Bool
  deriving DecidableEq

/-- Where an `alarm()` pass is. -/
inductive PassStage
  /-- At the top of the loop over `due`. -/
  | delivering (due : List InboxRow) (config : LoadedConfig)
  /-- Waiting for `INBOX.get`. -/
  | getting (row : InboxRow) (due : List InboxRow) (config : LoadedConfig)
  /-- R2 has read the object; the message is being received and signed. -/
  | got (row : InboxRow) (due : List InboxRow) (config : LoadedConfig) (object : Option Bytes)
  /-- Waiting for `fetch`. -/
  | posting (row : InboxRow) (due : List InboxRow) (config : LoadedConfig)
  /-- Waiting for the body of a response. -/
  | answering (row : InboxRow) (due : List InboxRow) (config : LoadedConfig) (status : Nat)
  /-- About to run `purgeExpired`. -/
  | purging
  /-- Waiting for `INBOX.delete`; `left` is what R2 has not deleted yet. -/
  | deleting (expired : List InboxRow) (left : List String)
  /-- About to set the alarm. -/
  | rearming
  deriving DecidableEq

/-- An `alarm()` pass: when it started, the rows it selected, whether every phase went well. -/
structure Pass where
  started : Nat
  selected : List InboxRow
  healthy : Bool
  stage : PassStage
  deriving DecidableEq

inductive Event
  /-- `setReject` was called. -/
  | rejected (id : String)
  /-- `ulid()` returned. -/
  | minted (id : String)
  /-- `email()` threw, so the sending MTA keeps the message. -/
  | failed (id : String)
  /-- `email()` returned, with these bytes stored. -/
  | accepted (id : String) (stored : Bytes)
  /-- A row was inserted. -/
  | enqueued (id : String) (nextAttemptAt : Nat)
  /-- A parked or delivered row was put back. -/
  | requeued (id : String) (nextAttemptAt : Nat)
  /-- An operator called `remove`. -/
  | removeCalled (id : String)
  /-- `remove` deleted the row. -/
  | removed (id : String)
  /-- A pass began. -/
  | passStarted (now : Nat)
  /-- `loadConfig` threw in a pass. -/
  | configFailed
  /-- A delivery was POSTed. -/
  | posted (id : String) (attempt : Nat) (request : Request)
  /-- `deliver` threw before `settle` was done. -/
  | threw (id : String)
  /-- `settle` ran; `applied` when its UPDATE changed the row. -/
  | settled (id : String) (attempt : Nat) (outcome : Verdict) (status : Option Nat)
      (applied : Bool)
  /-- The R2 delete of a purge threw. -/
  | purgeFailed
  /-- A pass ended. -/
  | passEnded (now : Nat) (healthy : Bool)
  deriving DecidableEq

structure World where
  queue : Queue
  bucket : String → Option Bytes
  emails : String → Option Email
  removals : Nat → Option Removal
  pass : Option Pass
  clock : Nat
  history : List Event

def World.init : World where
  queue := .init
  bucket := fun _ => none
  emails := fun _ => none
  removals := fun _ => none
  pass := none
  clock := 0
  history := []

/-! ### Reading the log -/

/-- When the last pass that failed ended. -/
def lastFailure : List Event → Option Nat
  | [] => none
  | .passEnded now false :: _ => some now
  | _ :: rest => lastFailure rest

/-- The attempt numbers POSTed for a row since it was last put on the queue, newest first. -/
def postsSince (id : String) : List Event → List Nat
  | [] => []
  | .posted i n _ :: rest => if i = id then n :: postsSince id rest else postsSince id rest
  | .enqueued i _ :: rest => if i = id then [] else postsSince id rest
  | .requeued i _ :: rest => if i = id then [] else postsSince id rest
  | _ :: rest => postsSince id rest

end MailCloudflare
