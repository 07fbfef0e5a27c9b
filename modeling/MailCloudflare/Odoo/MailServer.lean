/-
The outgoing mail servers: `mail_cloudflare/models/ir_mail_server.py`, and `verify_token` of
`mail_cloudflare/cloudflare_api.py`.

The fields of a server are stored by name, as those of the incoming ones are.  What a new
server has, which server core finds for a sender and how core tests an SMTP server are
parameters.  What leaves is logged: the requests to Cloudflare and the servers that are
handed to core for an SMTP connection.
-/
import MailCloudflare.Odoo.Session
import MailCloudflare.Odoo.Webhook

namespace MailCloudflare

open Unicode Python Keyed

variable {F : Type}

def SMTP_AUTHENTICATION : Str := "smtp_authentication".toList
def CLOUDFLARE_ACCOUNT_ID : Str := "cloudflare_account_id".toList
def CLOUDFLARE_API_TOKEN : Str := "cloudflare_api_token".toList
def FROM_FILTER : Str := "from_filter".toList
def MAX_EMAIL_SIZE : Str := "max_email_size".toList
def NAME : Str := "name".toList

/-- A text field as an f-string writes it. -/
def FieldValue.shown : FieldValue → Str
  | .text s => s
  | _ => "False".toList

inductive MailServerError
  /-- The record is gone. -/
  | missing
  | validation (text : Str)
  | user (text : Text)
  | python (error : PyError)
  /-- Core raised. -/
  | core

structure MailServers where
  records : Nat → Option ServerRecord
  nextId : Nat

def usesCloudflare (record : ServerRecord) : Bool := record SMTP_AUTHENTICATION = CLOUDFLARE

/-! ### The constraint -/

/-- The turn of the loop in `_check_cloudflare_credentials` for one server. -/
def checkCredentials (record : ServerRecord) : Except MailServerError Unit :=
  let server := "“".toList ++ (record NAME).shown ++ "”".toList
  if !usesCloudflare record then .ok ()
  else if !(record CLOUDFLARE_ACCOUNT_ID).truthy then
    .error (.validation ("The Cloudflare Account ID is required for the outgoing mail server ".toList ++
      server ++ ".".toList))
  else if !(record CLOUDFLARE_API_TOKEN).truthy then
    .error (.validation ("The Cloudflare API Token is required for the outgoing mail server ".toList ++
      server ++ ".".toList))
  else if !(record FROM_FILTER).truthy then
    .error (.validation ("The outgoing mail server ".toList ++ server ++
      " needs a FROM Filtering set to a domain onboarded for Cloudflare Email Sending.".toList))
  else .ok ()

/-- `_check_cloudflare_credentials`. -/
def checkCloudflareCredentials (servers : MailServers) (ids : List Nat) :
    Except MailServerError Unit :=
  ids.forM fun id =>
    match servers.records id with
    | none => .error .missing
    | some record => checkCredentials record

/-- The fields `@api.constrains` names. -/
def CONSTRAINED : List Str :=
  [SMTP_AUTHENTICATION, CLOUDFLARE_ACCOUNT_ID, CLOUDFLARE_API_TOKEN, FROM_FILTER]

/-! ### The table -/

def insertMailServer (defaults : ServerRecord) (servers : MailServers) (values : Values) :
    MailServers where
  records := fun id =>
    if id = servers.nextId then some (store defaults values) else servers.records id
  nextId := servers.nextId + 1

/-- `create(vals_list)`; a new record has a value for every field, so the constraint runs. -/
def createMailServers (defaults : ServerRecord) (servers : MailServers) (valsList : List Values) :
    Except MailServerError MailServers := do
  let created := valsList.foldl (insertMailServer defaults) servers
  checkCloudflareCredentials created (List.range' servers.nextId valsList.length)
  return created

def storeMailServer (values : Values) (servers : MailServers) (id : Nat) :
    Except MailServerError MailServers :=
  match servers.records id with
  | none => .error .missing
  | some record => .ok { servers with
      records := fun other =>
        if other = id then some (store record values) else servers.records other }

/-- `write(values)` on the records of `ids`; the constraint runs when one of its fields is written. -/
def writeMailServers (servers : MailServers) (ids : List Nat) (values : Values) :
    Except MailServerError MailServers := do
  let written ← ids.foldlM (storeMailServer values) servers
  if CONSTRAINED.any fun name => (values.lookup name).isSome then
    checkCloudflareCredentials written ids
  return written

/-- `unlink()`. -/
def unlinkMailServers (servers : MailServers) (ids : List Nat) : MailServers :=
  { servers with records := fun id => if id ∈ ids then none else servers.records id }

/-! ### Connecting -/

/-- What a `CloudflareSendingSession` is made with. -/
structure SessionArgs where
  accountId : FieldValue
  apiToken : FieldValue
  fromFilter : FieldValue
  smtpFrom : Option Str
  mailServerName : FieldValue

/-- `_cloudflare_session(smtp_from)`. -/
def cloudflareSession (record : ServerRecord) (smtpFrom : Option Str) : SessionArgs where
  accountId := record CLOUDFLARE_ACCOUNT_ID
  apiToken := record CLOUDFLARE_API_TOKEN
  fromFilter := record FROM_FILTER
  smtpFrom := smtpFrom
  mailServerName := record NAME

def API_BASE : Str := "https://api.cloudflare.com/client/v4".toList

/-- `SEND_URL.format(account_id=account_id)`. -/
def sendUrl (accountId : FieldValue) : Str :=
  API_BASE ++ "/accounts/".toList ++ accountId.shown ++ "/email/sending/send".toList

def VERIFY_URL : Str := API_BASE ++ "/user/tokens/verify".toList

/-- `f"Bearer {api_token}"`. -/
def bearer (apiToken : FieldValue) : Str := "Bearer ".toList ++ apiToken.shown

/-- The arguments of `connect` that it reads itself. -/
structure ConnectArgs where
  host : Option Str
  smtpFrom : Option Str
  mailServerId : Option Nat
  allowArchived : Bool

inductive Connection
  /-- Nothing is opened in test mode. -/
  | nothing
  | session (args : SessionArgs)
  /-- `super().connect(mail_server_id, smtp_from)`. -/
  | core (mailServerId : Option Nat) (smtpFrom : Option Str)

/-- Core, and the client library of a session. -/
structure MailServerLibrary (F : Type) where
  client : ClientLibrary F
  /-- `modules.module.current_test`. -/
  currentTest : Bool
  defaults : ServerRecord
  /-- `_find_mail_server(smtp_from)`. -/
  findMailServer : MailServers → Option Str → Option Nat × Option Str
  /-- `super().test_smtp_connection`, with or without detecting the maximal size. -/
  testConnection : Bool → MailServers → List Nat → Except MailServerError MailServers

/-- The server `connect` settles on, and the sender that came with it. -/
def resolve (lib : MailServerLibrary F) (servers : MailServers) (args : ConnectArgs) :
    Option Nat × Option Str :=
  match args.mailServerId.filter (· ≠ 0) with
  | some id => (some id, args.smtpFrom)
  | none =>
    if (present args.host).isNone then lib.findMailServer servers args.smtpFrom
    else (none, args.smtpFrom)

/-- `connect`. -/
def connect (lib : MailServerLibrary F) (servers : MailServers) (args : ConnectArgs) :
    Except MailServerError Connection :=
  if lib.currentTest then .ok .nothing
  else
    let (mailServer, smtpFrom) := resolve lib servers args
    match mailServer with
    | none => .ok (.core args.mailServerId smtpFrom)
    | some id =>
      match servers.records id with
      | none => .error .missing
      | some record =>
        if usesCloudflare record then
          if !args.allowArchived && !(record ACTIVE).truthy then
            .error (.user (ofStr ("The server \"".toList ++ (record NAME).shown ++
              "\" cannot be used because it is archived.".toList)))
          else .ok (.session (cloudflareSession record smtpFrom))
        else .ok (.core (some id) smtpFrom)

/-! ### Testing a connection -/

def isActive : Value F → Bool
  | .str s => s = text "active"
  | _ => false

/-- `verify_token(api_token)`, given what comes of its request. -/
def verifyToken (lib : ClientLibrary F) :
    HttpOutcome F → Except (Failure (SendError F)) (Value F)
  | .networkError exc => .error (.cloudflare { message := text "Could not reach Cloudflare: " ++ exc })
  | .response response => do
    let payload := parseJson response
    let status := response.status
    if isFatalStatus status then
      let error ← (answerError lib "Cloudflare rejected the API token: " "" status payload).mapError
        .python
      .error (.cloudflare error)
    else if status ≠ 200 || !(payloadMember payload "success").truthy lib.floats then
      let error ← (answerError lib "Token verification failed: " "" status payload).mapError .python
      .error (.cloudflare error)
    else
      let result := (payloadMember payload "result").orElse lib.floats (.dict [])
      let tokenStatus ← (result.get "status").mapError .python
      if isActive tokenStatus then return result
      else .error (.cloudflare {
        message := text "The API token is not active (status: " ++ lib.repr tokenStatus ++ text ")." })

def MAX_EMAIL_SIZE_MB : Int := 5

/-- `_get_max_email_size()`, where core's is given for the servers of other types. -/
def getMaxEmailSize (core : ServerRecord → FieldValue) (record : ServerRecord) : FieldValue :=
  if usesCloudflare record then
    if (record MAX_EMAIL_SIZE).truthy then record MAX_EMAIL_SIZE else .number MAX_EMAIL_SIZE_MB
  else core record

/-- One turn of the loop in `test_smtp_connection`. -/
def testServer (lib : ClientLibrary F) (autodetect : Bool) (outcome : HttpOutcome F)
    (servers : MailServers) (id : Nat) (record : ServerRecord) :
    Except MailServerError MailServers :=
  match verifyToken lib outcome with
  | .error (.cloudflare exc) =>
    .error (.user (ofStr ("Connection Test Failed for ".toList ++ (record NAME).shown ++
      "!\n".toList) ++ exc.message))
  | .error (.python e) => .error (.python e)
  | .ok _ =>
    if autodetect then
      storeMailServer (Dict.set .empty MAX_EMAIL_SIZE (.number MAX_EMAIL_SIZE_MB)) servers id
    else .ok servers

/-- The loop: the servers whose token has been sent, and how it ends. -/
def testServers (lib : ClientLibrary F) (autodetect : Bool) (outcomes : Nat → HttpOutcome F) :
    MailServers → List Nat → List ServerRecord × Except MailServerError MailServers
  | servers, [] => ([], .ok servers)
  | servers, id :: rest =>
    match servers.records id with
    | none => ([], .error .missing)
    | some record =>
      match testServer lib autodetect (outcomes id) servers id record with
      | .error e => ([record], .error e)
      | .ok servers =>
        let (tested, result) := testServers lib autodetect outcomes servers rest
        (record :: tested, result)

def isCloudflareMailServer (servers : MailServers) (id : Nat) : Bool :=
  (servers.records id).any usesCloudflare

/-- `test_smtp_connection`: what core was given, whose token was sent, and how it ends. -/
def testSmtpConnection (lib : MailServerLibrary F) (autodetect : Bool)
    (outcomes : Nat → HttpOutcome F) (servers : MailServers) (ids : List Nat) :
    List Nat × List ServerRecord × Except MailServerError MailServers :=
  let cloudflare := ids.filter (isCloudflareMailServer servers)
  let others := ids.filter fun id => !isCloudflareMailServer servers id
  if others = [] then ([], testServers lib.client autodetect outcomes servers cloudflare)
  else
    match lib.testConnection autodetect servers others with
    | .error e => (others, [], .error e)
    | .ok servers => (others, testServers lib.client autodetect outcomes servers cloudflare)

/-! ### Runs -/

/-- What leaves Odoo, or is left to core. -/
inductive OutboundEvent (F : Type)
  /-- A POST to Cloudflare, made in a call. -/
  | posted (url authorization : Str) (call : SendCall F) (body : Bytes)
  /-- A GET of `VERIFY_URL`. -/
  | verified (authorization : Str)
  /-- Core is given this server to connect to by SMTP. -/
  | handed (record : ServerRecord)

/-- A session, by what it was made with and its latch. -/
structure OpenSession (F : Type) where
  args : SessionArgs
  latch : CloudflareSendingSession F

structure Outbound (F : Type) where
  servers : MailServers
  sessions : Nat → Option (OpenSession F)
  log : List (OutboundEvent F)

/-- The ids of a table begin with 1. -/
def Outbound.init : Outbound F := ⟨⟨fun _ => none, 1⟩, fun _ => none, []⟩

inductive OutboundAction (F : Type)
  | create (valsList : List Values)
  | write (ids : List Nat) (values : Values)
  | unlink (ids : List Nat)
  /-- `connect`, whose session is called `n` if there is one. -/
  | connect (n : Nat) (args : ConnectArgs)
  | send (n : Nat) (call : SendCall F)
  | quit (n : Nat)
  | test (ids : List Nat) (autodetect : Bool) (outcomes : Nat → HttpOutcome F)

/-- The requests of a call on a session. -/
def OpenSession.posts (session : OpenSession F) (call : SendCall F) (run : SendRun F) :
    List (OutboundEvent F) :=
  run.events.filterMap fun
    | .posted body _ =>
      some (.posted (sendUrl session.args.accountId) (bearer session.args.apiToken) call body)
    | .slept _ => none

/-- The servers of `ids`. -/
def MailServers.browse (servers : MailServers) (ids : List Nat) : List ServerRecord :=
  ids.filterMap servers.records

namespace Outbound

/-- The step of a `connect` that returned. -/
def connected (w : Outbound F) (n : Nat) : Connection → Outbound F
  | .nothing => w
  | .session args => { w with sessions := Function.update w.sessions n (some ⟨args, {}⟩) }
  | .core mailServerId _ =>
    { w with log := (w.servers.browse (mailServerId.filter (· ≠ 0)).toList).map .handed ++ w.log }

def send (lib : ClientLibrary F) (w : Outbound F) (n : Nat) (call : SendCall F) :
    Option (Outbound F) :=
  (w.sessions n).map fun session =>
    let run := runCall lib session.latch call
    { w with
      sessions := Function.update w.sessions n (some { session with latch := run.session })
      log := session.posts call run ++ w.log }

/-- A test that raises leaves the servers alone, but not what it has sent. -/
def test (lib : MailServerLibrary F) (w : Outbound F) (ids : List Nat) (autodetect : Bool)
    (outcomes : Nat → HttpOutcome F) : Outbound F :=
  let (others, tested, result) := testSmtpConnection lib autodetect outcomes w.servers ids
  { w with
    servers := result.toOption.getD w.servers
    log := tested.map (fun record => .verified (bearer (record CLOUDFLARE_API_TOKEN))) ++
      (w.servers.browse others).map .handed ++ w.log }

end Outbound

/-- One call; `none` when it raises and leaves nothing behind. -/
def outboundStep (lib : MailServerLibrary F) (w : Outbound F) :
    OutboundAction F → Option (Outbound F)
  | .create valsList =>
    (createMailServers lib.defaults w.servers valsList).toOption.map fun servers =>
      { w with servers }
  | .write ids values =>
    (writeMailServers w.servers ids values).toOption.map fun servers => { w with servers }
  | .unlink ids => some { w with servers := unlinkMailServers w.servers ids }
  | .connect n args => (connect lib w.servers args).toOption.map (w.connected n)
  | .send n call => w.send lib.client n call
  | .quit n => some { w with sessions := Function.update w.sessions n none }
  | .test ids autodetect outcomes => some (w.test lib ids autodetect outcomes)

end MailCloudflare
