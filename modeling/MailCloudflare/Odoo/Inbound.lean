/-
The inbound route: the handler `inbound` of `mail_cloudflare/controllers/main.py`, the
methods `_cloudflare_find_by_key` and `_cloudflare_process_inbound` of
`mail_cloudflare/models/fetchmail_server.py` it calls, and the framework around it.

A request is handled in a transaction of its own.  The handler is cut at its two calls
into the rest of Odoo, `message_process` and the write of the date, and at its end, after
which the framework flushes, commits and answers; requests are interleaved at these points
in any order.  What the calls return or raise comes with the action.  The Worker does not
appear: a POST it has given up on goes on here, and its next attempt is one more request.
-/
import MailCloudflare.Base.Snapshot
import MailCloudflare.Odoo.Signature
import Mathlib.Logic.Function.Basic

namespace MailCloudflare

open Unicode Python

/-! ### The server a request is for -/

inductive ServerType
  | cloudflare
  | other (name : Str)
  deriving DecidableEq

inductive ServerState
  | draft
  | done
  deriving DecidableEq

/-- A `fetchmail.server` as far as the route reads it. -/
structure Server where
  id : Nat
  active : Bool
  serverType : ServerType
  state : ServerState
  webhookKey : Option Str
  webhookSecret : Option Str
  /-- `object_id.model`. -/
  model : Option Str
  attach : Bool
  original : Bool
  deriving DecidableEq

/-- The confirmed, active Cloudflare server owning `key`. -/
def cloudflareFindByKey (servers : List Server) (key : Str) : Option Server :=
  if key = [] then none
  else
    servers.find? fun s =>
      s.active && s.webhookKey = some key && s.serverType = .cloudflare && s.state = .done

/-! ### Requests and responses -/

def HEADER_ID : Str := "X-Mail-Cloudflare-Id".toList
def HEADER_TIMESTAMP : Str := "X-Mail-Cloudflare-Timestamp".toList
def HEADER_SIGNATURE : Str := "X-Mail-Cloudflare-Signature".toList
def HEADER_ENVELOPE_FROM : Str := "X-Mail-Cloudflare-Envelope-From".toList
def HEADER_ENVELOPE_TO : Str := "X-Mail-Cloudflare-Envelope-To".toList

structure InboundRequest where
  key : Str
  headers : List (Str × Str)
  body : Bytes
  deriving DecidableEq

/-- `headers.get(name)`. -/
def InboundRequest.header (request : InboundRequest) (name : Str) : Option Str :=
  (request.headers.find? fun h => h.1.map Char.toLower = name.map Char.toLower).map (·.2)

structure Response where
  status : Nat
  ok : Bool
  error : Option Str
  /-- `thread_id` and `id` of a 200, `none` for False. -/
  values : Option (Option Nat × Option Str)
  deriving DecidableEq

def respond (status : Nat) (error : Option Str) (values : Option (Option Nat × Option Str)) :
    Response :=
  { status := status, ok := status = 200, error := present error, values := values }

/-! ### The calls into Odoo -/

/-- What the handler shares with the Worker and the mail gateway. -/
structure Odoo where
  py : UnicodeData
  hmac : Hmac
  /-- The Message-Id of a raw message. -/
  messageId : Bytes → Option Str

/-- The arguments of `message_process`. -/
structure GatewayCall where
  fetchmailServer : Nat
  model : Option Str
  message : Bytes
  saveOriginal : Bool
  stripAttachments : Bool
  deriving DecidableEq

/-- The rows the requests may update. -/
inductive Row
  | server (id : Nat)
  | other (table id : Nat)
  deriving DecidableEq

/-- What `message_process` returned and did. -/
structure Processed where
  threadId : Option Nat
  inserted : Bool
  updates : List Row
  deriving DecidableEq

/-- What a call raised. -/
inductive Raised
  | valueError (text : Str)
  /-- One of `PG_CONCURRENCY_EXCEPTIONS_TO_RETRY`. -/
  | concurrency
  | other
  deriving DecidableEq

/-- What a request commits; the effect is the Message-Id of the message it inserted. -/
abbrev Writes := Snapshot.Writes Row (Option Str)

abbrev Tx := Snapshot.Tx Row (Option Str)

/-! ### The handler -/

/-- Where a request is. -/
inductive Stage
  /-- In `message_process`. -/
  | processing (server : Server) (call : GatewayCall)
  /-- Writing the date, with what `message_process` returned. -/
  | dating (server : Server) (threadId : Option Nat)
  /-- The handler has returned. -/
  | returned (response : Response)
  /-- The handler, or the commit, has raised a concurrency error. -/
  | raised
  deriving DecidableEq

structure Run where
  request : InboundRequest
  tx : Tx
  stage : Stage
  deriving DecidableEq

/-- The handler up to the call of `message_process`. -/
def receive (odoo : Odoo) (request : InboundRequest) (servers : List Server) (time : ℚ) : Stage :=
  match cloudflareFindByKey servers request.key with
  | none => .returned (respond 404 (some "unknown webhook key".toList) none)
  | some server =>
    if cloudflareVerifySignature odoo.py odoo.hmac server.webhookSecret
        (request.header HEADER_TIMESTAMP) (request.header HEADER_SIGNATURE) (.bytes request.body)
        none time then
      match cloudflarePrepareMessage (.bytes request.body) (request.header HEADER_ENVELOPE_FROM)
          (request.header HEADER_ENVELOPE_TO) with
      | .error text => .returned (respond 422 (some text) none)
      | .ok message =>
        .processing server
          { fetchmailServer := server.id
            model := server.model
            message := message
            saveOriginal := server.original
            stripAttachments := !server.attach }
    else .returned (respond 401 (some "invalid signature".toList) none)

/-- The framework calls the handler on a fresh snapshot. -/
def begin (odoo : Odoo) (log : List Writes) (request : InboundRequest) (servers : List Server)
    (time : ℚ) : Run where
  request := request
  tx := ⟨log, ⟨[], none⟩⟩
  stage := receive odoo request servers time

/-- `cr.rollback()`. -/
def Run.rollback (run : Run) : Run :=
  { run with tx := { run.tx with writes := ⟨[], none⟩ } }

/-- The `except` clauses of the handler. -/
def Run.handle (run : Run) : Raised → Run
  | .valueError text => { run.rollback with stage := .returned (respond 422 (some text) none) }
  | .concurrency => { run with stage := .raised }
  | .other =>
    { run.rollback with stage := .returned (respond 500 (some "internal error".toList) none) }

/-- `message_process` comes back. -/
def Run.processed (odoo : Odoo) (run : Run) (result : Except Raised Processed) : Option Run :=
  match run.stage with
  | .processing server call =>
    match result with
    | .error raised => some (run.handle raised)
    | .ok p =>
      let inserted := if p.inserted then odoo.messageId call.message else none
      some { run with
        tx := { run.tx with writes := ⟨p.updates ++ run.tx.writes.updates, inserted⟩ }
        stage := .dating server p.threadId }
  | _ => none

/-- The write of the date comes back, having updated `rows`, and the handler returns. -/
def Run.dated (run : Run) (result : Except Raised (List Row)) : Option Run :=
  match run.stage with
  | .dating _ threadId =>
    match result with
    | .error raised => some (run.handle raised)
    | .ok rows =>
      let workerId := present (run.request.header HEADER_ID)
      some { run with
        tx := { run.tx with
          writes := { run.tx.writes with updates := rows ++ run.tx.writes.updates } }
        stage := .returned (respond 200 none (some (threadId.filter (· ≠ 0), workerId))) }
  | _ => none

/-! ### Every request together -/

structure Answer where
  request : InboundRequest
  response : Response
  /-- The transaction that was committed before the answer. -/
  committed : Option Tx
  deriving DecidableEq

structure OdooWorld where
  log : List Writes
  runs : Nat → Option Run
  answers : List Answer

def OdooWorld.init : OdooWorld := ⟨[], fun _ => none, []⟩

inductive OdooAction
  /-- A POST arrives, when the table of servers reads `servers`. -/
  | arrive (n : Nat) (request : InboundRequest) (servers : List Server) (time : ℚ)
  | processed (n : Nat) (result : Except Raised Processed)
  | dated (n : Nat) (result : Except Raised (List Row))
  /-- The transaction commits and the response is sent. -/
  | commit (n : Nat)
  /-- The flush or the commit raises a concurrency error. -/
  | commitFailed (n : Nat)
  /-- `service.model.retrying` runs the handler again. -/
  | retry (n : Nat) (servers : List Server) (time : ℚ)
  /-- It has tried often enough. -/
  | giveUp (n : Nat)
  /-- The process that handles the request is gone. -/
  | kill (n : Nat)
  /-- Anything else that uses the database commits. -/
  | other (writes : Writes)

namespace OdooWorld

def setRun (w : OdooWorld) (n : Nat) (run : Option Run) : OdooWorld :=
  { w with runs := Function.update w.runs n run }

def arrive (odoo : Odoo) (w : OdooWorld) (n : Nat) (request : InboundRequest)
    (servers : List Server) (time : ℚ) : Option OdooWorld :=
  if (w.runs n).isSome then none
  else some (w.setRun n (some (begin odoo w.log request servers time)))

def commit (w : OdooWorld) (n : Nat) : Option OdooWorld := do
  let run ← w.runs n
  match run.stage with
  | .returned response =>
    let log ← run.tx.commit w.log
    return { w.setRun n none with
      log := log, answers := ⟨run.request, response, some run.tx⟩ :: w.answers }
  | _ => none

def commitFailed (w : OdooWorld) (n : Nat) : Option OdooWorld := do
  let run ← w.runs n
  match run.stage with
  | .returned _ => return w.setRun n (some { run with stage := .raised })
  | _ => none

def retry (odoo : Odoo) (w : OdooWorld) (n : Nat) (servers : List Server) (time : ℚ) :
    Option OdooWorld := do
  let run ← w.runs n
  match run.stage with
  | .raised => return w.setRun n (some (begin odoo w.log run.request servers time))
  | _ => none

def giveUp (w : OdooWorld) (n : Nat) : Option OdooWorld := do
  let run ← w.runs n
  match run.stage with
  | .raised =>
    return { w.setRun n none with
      answers := ⟨run.request, respond 500 none none, none⟩ :: w.answers }
  | _ => none

end OdooWorld

def odooStep (odoo : Odoo) (w : OdooWorld) : OdooAction → Option OdooWorld
  | .arrive n request servers time => w.arrive odoo n request servers time
  | .processed n result => do
    let run ← (← w.runs n).processed odoo result
    return w.setRun n (some run)
  | .dated n result => do
    let run ← (← w.runs n).dated result
    return w.setRun n (some run)
  | .commit n => w.commit n
  | .commitFailed n => w.commitFailed n
  | .retry n servers time => w.retry odoo n servers time
  | .giveUp n => w.giveUp n
  | .kill n => some (w.setRun n none)
  | .other writes => some { w with log := writes :: w.log }

end MailCloudflare
