/-
The credentials of the incoming mail servers: `create`, `write` and
`action_regenerate_cloudflare_webhook_secret` of `mail_cloudflare/models/fetchmail_server.py`.

What is below these methods is a parameter: the defaults a new record gets and where
`secrets.token_urlsafe` takes its tokens from, one after the other.  The ORM stores the
values it is given over what the record has.  A record that does not exist ends the
transaction, and nothing of it is kept.
-/
import MailCloudflare.Base.Dict
import MailCloudflare.Base.Python

namespace MailCloudflare

open Unicode Python Keyed

def SERVER_TYPE : Str := "server_type".toList
def WEBHOOK_KEY : Str := "cloudflare_webhook_key".toList
def WEBHOOK_SECRET : Str := "cloudflare_webhook_secret".toList
def CONFIGURATION : Str := "configuration".toList

inductive FieldValue
  /-- `False` or `None`. -/
  | no
  | text (s : Str)
  | number (n : Int)
  | records (ids : List Nat)
  deriving DecidableEq

/-- What `bool` makes of a value. -/
def FieldValue.truthy : FieldValue → Bool
  | .no => false
  | .text s => s ≠ []
  | .number n => n ≠ 0
  | .records ids => ids ≠ []

def CLOUDFLARE : FieldValue := .text "cloudflare".toList

/-- A value dictionary. -/
abbrev Values := Dict Str FieldValue

/-- `values.setdefault(name, value)`. -/
def setDefault (values : Values) (name : Str) (value : FieldValue) : Values :=
  if (values.lookup name).isSome then values else values.set name value

/-- A server's fields, by name. -/
abbrev ServerRecord := Str → FieldValue

/-- The record with these values stored. -/
def store (record : ServerRecord) (values : Values) : ServerRecord := fun name =>
  (values.lookup name).getD (record name)

structure Orm where
  /-- What a new record has before its values are stored. -/
  defaults : ServerRecord
  /-- `_cloudflare_configuration()`. -/
  configuration : Str
  /-- The results of `_cloudflare_token()`, in order. -/
  token : Nat → Str

structure Servers where
  records : Nat → Option ServerRecord
  nextId : Nat
  nextToken : Nat

/-! ### The values of one server -/

/-- The values of a new server, and the tokens used up. -/
def newServerValues (orm : Orm) (nextToken : Nat) (values : Values) : Values × Nat :=
  if values.lookup SERVER_TYPE = some CLOUDFLARE then
    let values := setDefault values WEBHOOK_KEY (.text (orm.token nextToken))
    let values := setDefault values WEBHOOK_SECRET (.text (orm.token (nextToken + 1)))
    (setDefault values CONFIGURATION (.text orm.configuration), nextToken + 2)
  else (values, nextToken)

/-- A credential that the server does not have yet. -/
def missingCredential (orm : Orm) (record : ServerRecord) (name : Str) (state : Values × Nat) :
    Values × Nat :=
  if !(record name).truthy then
    (setDefault state.1 name (.text (orm.token state.2)), state.2 + 1)
  else state

/-- The values of a server that is written as one of this type, and the tokens used up. -/
def cloudflareServerValues (orm : Orm) (nextToken : Nat) (record : ServerRecord)
    (values : Values) : Values × Nat :=
  let serverValues := setDefault values CONFIGURATION (.text orm.configuration)
  missingCredential orm record WEBHOOK_SECRET
    (missingCredential orm record WEBHOOK_KEY (serverValues, nextToken))

/-! ### The methods -/

/-- `super().create` of one of the value dictionaries. -/
def insertServer (orm : Orm) (servers : Servers) (values : Values) : Servers :=
  { servers with
    records := fun id =>
      if id = servers.nextId then some (store orm.defaults values) else servers.records id
    nextId := servers.nextId + 1 }

/-- The loop over `vals_list`. -/
def fillValues (orm : Orm) (nextToken : Nat) : List Values → List Values × Nat
  | [] => ([], nextToken)
  | values :: rest =>
    let filled := newServerValues orm nextToken values
    let others := fillValues orm filled.2 rest
    (filled.1 :: others.1, others.2)

/-- `create(vals_list)`. -/
def create (orm : Orm) (servers : Servers) (valsList : List Values) : Servers :=
  let filled := fillValues orm servers.nextToken valsList
  filled.1.foldl (insertServer orm) { servers with nextToken := filled.2 }

/-- `super().write` of one record. -/
def storeServer (servers : Servers) (id : Nat) (values : Values) : Option Servers :=
  (servers.records id).map fun record =>
    { servers with
      records := fun other => if other = id then some (store record values) else servers.records other }

/-- One turn of the loop over `self` in `write`. -/
def writeCloudflare (orm : Orm) (values : Values) (servers : Servers) (id : Nat) :
    Option Servers :=
  (servers.records id).bind fun record =>
    let filled := cloudflareServerValues orm servers.nextToken record values
    storeServer { servers with nextToken := filled.2 } id filled.1

/-- `write(values)` on the records of `ids`. -/
def write (orm : Orm) (servers : Servers) (ids : List Nat) (values : Values) : Option Servers :=
  if values.lookup SERVER_TYPE ≠ some CLOUDFLARE then
    ids.foldlM (fun servers id => storeServer servers id values) servers
  else ids.foldlM (writeCloudflare orm values) servers

/-- One turn of the loop in the action. -/
def regenerateSecret (orm : Orm) (servers : Servers) (id : Nat) : Option Servers :=
  write orm { servers with nextToken := servers.nextToken + 1 } [id]
    (Dict.set .empty WEBHOOK_SECRET (.text (orm.token servers.nextToken)))

/-- `action_regenerate_cloudflare_webhook_secret` on the records of `ids`. -/
def actionRegenerateSecret (orm : Orm) (servers : Servers) (ids : List Nat) : Option Servers :=
  ids.foldlM (regenerateSecret orm) servers

/-! ### Runs -/

inductive ServerAction
  | create (valsList : List Values)
  | write (ids : List Nat) (values : Values)
  | regenerate (ids : List Nat)

/-- One call; `none` when it raises. -/
def serverStep (orm : Orm) (servers : Servers) : ServerAction → Option Servers
  | .create valsList => some (create orm servers valsList)
  | .write ids values => write orm servers ids values
  | .regenerate ids => actionRegenerateSecret orm servers ids

end MailCloudflare
