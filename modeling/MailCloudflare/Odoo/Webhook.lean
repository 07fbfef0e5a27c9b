/-
The webhook of an incoming mail server: `_compute_cloudflare_webhook_url`,
`_cloudflare_check_base_url` and `button_confirm_login` of
`mail_cloudflare/models/fetchmail_server.py`, the route of
`mail_cloudflare/controllers/main.py`, and the servers as a search for a key finds them.

`base_url` is the system parameter `web.base.url`, and what core does with the servers of
other types is a parameter.
-/
import MailCloudflare.Base.Url
import MailCloudflare.Odoo.Inbound
import MailCloudflare.Odoo.Servers

namespace MailCloudflare

open Unicode Python Keyed

/-! ### The URL -/

/-- Path the controller is mounted on; the server's key is the last segment. -/
def INBOUND_PATH : Str := "/mail_cloudflare/inbound".toList

/-- The text of a field that has one. -/
def FieldValue.text? : FieldValue → Option Str
  | .text s => some s
  | _ => none

/-- The path of the URL for a key. -/
def inboundPath (key : Str) : Str := INBOUND_PATH ++ '/' :: key

/-- `_compute_cloudflare_webhook_url` of one server; `none` is False. -/
def cloudflareWebhookUrl (baseUrl : Option Str) (record : ServerRecord) : Option Str :=
  if record SERVER_TYPE = CLOUDFLARE then
    (present (record WEBHOOK_KEY).text?).map fun key =>
      rstripSlash (baseUrl.getD []) ++ inboundPath key
  else none

/-- The `key` the route finds in the path of a request: one segment, not empty. -/
def routedKey (path : Str) : Option Str :=
  let path := unquote path
  if (inboundPath []).isPrefixOf path then
    let key := path.drop (inboundPath []).length
    if '/' ∈ key then none else present (some key)
  else none

/-! ### Confirming -/

def LOOPBACK_HOSTS : List Str := ["localhost".toList, "127.0.0.1".toList, "::1".toList]

/-- https, or plain http on a loopback host. -/
def isSecure (py : UnicodeData) (parts : SplitResult) : Bool :=
  parts.scheme = "https".toList ||
    (parts.scheme = "http".toList && (hostname py parts.netloc).any (· ∈ LOOPBACK_HOSTS))

/-- What confirming a server relies on. -/
structure Confirming where
  py : UnicodeData
  /-- A network location that `urlsplit` does not object to. -/
  validNetloc : Str → Bool
  /-- `web.base.url`. -/
  baseUrl : Option Str
  /-- `super().button_confirm_login()`; `none` when it raises. -/
  core : Servers → List Nat → Option Servers

/-- `_cloudflare_check_base_url` does not raise. -/
def Confirming.checkBaseUrl (c : Confirming) : Bool :=
  (urlsplit c.validNetloc (c.baseUrl.getD [])).any (isSecure c.py)

def STATE : Str := "state".toList

def DONE : FieldValue := .text "done".toList

/-- One turn of the loop in `button_confirm_login`. -/
def Confirming.confirm (c : Confirming) (orm : Orm) (servers : Servers) (id : Nat) :
    Option Servers := do
  let record ← servers.records id
  guard ((record WEBHOOK_KEY).truthy && (record WEBHOOK_SECRET).truthy)
  guard c.checkBaseUrl
  write orm servers [id] (Dict.set .empty STATE DONE)

def isCloudflareServer (servers : Servers) (id : Nat) : Bool :=
  (servers.records id).any fun record => record SERVER_TYPE = CLOUDFLARE

/-- `button_confirm_login` on the records of `ids`; `none` when it raises. -/
def Confirming.buttonConfirmLogin (c : Confirming) (orm : Orm) (servers : Servers)
    (ids : List Nat) : Option Servers := do
  guard (ids.all fun id => (servers.records id).isSome)
  let confirmed ← (ids.filter (isCloudflareServer servers)).foldlM (c.confirm orm) servers
  c.core confirmed (ids.filter fun id => !isCloudflareServer servers id)

/-! ### The table of servers -/

def ACTIVE : Str := "active".toList
def OBJECT_ID : Str := "object_id".toList
def ATTACH : Str := "attach".toList
def ORIGINAL : Str := "original".toList

/-- A record as the route reads it, given the names of the models. -/
def toServer (model : FieldValue → Option Str) (id : Nat) (record : ServerRecord) : Server where
  id := id
  active := (record ACTIVE).truthy
  serverType :=
    if record SERVER_TYPE = CLOUDFLARE then .cloudflare
    else .other ((record SERVER_TYPE).text?.getD [])
  state := if record STATE = DONE then .done else .draft
  webhookKey := (record WEBHOOK_KEY).text?
  webhookSecret := (record WEBHOOK_SECRET).text?
  model := model (record OBJECT_ID)
  attach := (record ATTACH).truthy
  original := (record ORIGINAL).truthy

/-- The servers there are, by id. -/
def Servers.table (model : FieldValue → Option Str) (servers : Servers) : List Server :=
  (List.range servers.nextId).filterMap fun id => (servers.records id).map (toServer model id)

end MailCloudflare
