/-
An answer on its way back.

`_respond` of `mail_cloudflare/controllers/main.py` writes its payload as JSON, and the
Worker reads it with `JSON.parse`, which is a parameter of it: what is asked of that is that
it reads a JSON text as the value it stands for.  A number is a double there, so an integer
must be one that a double can hold.

What the framework answers for a handler that has given up is a page of its own, and says
nothing in JSON.
-/
import MailCloudflare.Base.Json
import MailCloudflare.Deployment.Network
import MailCloudflare.Odoo.Payload

namespace MailCloudflare

open Unicode JavaScript Python

/-! ### What is written -/

/-- The record a 200 says the message was posted on. -/
def Response.threadId (response : Response) : Option Nat := response.values.bind Prod.fst

/-- `False`, when there is none. -/
def orFalse {α : Type} (value : Option α) (f : α → Value Empty) : Value Empty :=
  (value.map f).getD (.bool false)

/-- `thread_id or False`. -/
def threadValue (threadId : Option Nat) : Value Empty := orFalse threadId fun n : Nat => .int n

/-- The members `_respond` sets, in their order. -/
def Response.members (response : Response) : List JsonMember :=
  entry "ok" (.bool response.ok) ++
    (match response.values with
      | none => []
      | some (threadId, id) =>
        entry "thread_id" (threadValue threadId) ++ entry "id" (orFalse id strValue)) ++
    optional "error" response.error strValue

/-- The payload of `_respond`. -/
def Response.payload (response : Response) : Value Empty := .dict response.members

/-- The text of the body, if the payload can be written. -/
def Response.text (response : Response) : Option Str := characters (dumps response.payload)

/-- The handler said something; the framework's own pages do not. -/
def Response.Speaks (response : Response) : Prop :=
  response.error.isSome = true ∨ response.values.isSome = true

/-! ### What is read -/

/-- The code units of a text; a surrogate is one of its own. -/
def textUnits (s : Text) : Units :=
  s.flatMap fun
    | .char c => unitsOfChar c
    | .surrogate n => [UInt16.ofNat (0xD800 + n)]

mutual

/-- A value as `JSON.parse` returns it. -/
def toJson : Value Empty → Json
  | .none => .null
  | .bool b => .bool b
  | .int n => .num n
  | .str s => .str (textUnits s)
  | .list items => .arr (toJsonItems items)
  | .dict members => .obj (toJsonMembers members)

def toJsonItems : List (Value Empty) → List Json
  | [] => []
  | item :: rest => toJson item :: toJsonItems rest

def toJsonMembers : List (Text × Value Empty) → List (Units × Json)
  | [] => []
  | (name, value) :: rest => (textUnits name, toJson value) :: toJsonMembers rest

end

/-- `Number.isSafeInteger`. -/
def isSafeInteger (n : Int) : Bool := n.natAbs ≤ JavaScript.MAX_SAFE_INTEGER

mutual

/-- Every integer of the value is a safe one. -/
def isExact : Value Empty → Bool
  | .int n => isSafeInteger n
  | .list items => isExactItems items
  | .dict members => isExactMembers members
  | _ => true

def isExactItems : List (Value Empty) → Bool
  | [] => true
  | item :: rest => isExact item && isExactItems rest

def isExactMembers : List (Text × Value Empty) → Bool
  | [] => true
  | (_, value) :: rest => isExact value && isExactMembers rest

end

/-- `JSON.parse` reads JSON. -/
def ParsesJson (env : Worker) : Prop :=
  ∀ (s : Str) (value : Value Empty), loads (ofStr s) = some value → isExact value = true →
    env.jsonParse (units s) = some (toJson value)

/-! ### What comes back -/

/-- The status of the answer whose body is waited for. -/
def PassStage.awaited : PassStage → Option Nat
  | .answering _ _ _ status => some status
  | _ => none

/-- The body is the one of an answer with this status to what was POSTed last. -/
def IsBodyOf (network : Network) (d : Deployment) (status : Nat) (body : Option Units) : Prop :=
  ∃ request ∈ lastPosted d.worker.history, ∃ answer ∈ d.odoo.answers,
    answer.request = network.arrival request ∧ answer.response.status = status ∧
      (answer.response.Speaks → ∃ s ∈ answer.response.text, body = some (units s))

/-- The Worker reads the body of an answer with the status it has been told. -/
def RelaysBody (network : Network) (d : Deployment) : DeploymentAction → Prop
  | .worker (.answered body _) =>
    ∀ p ∈ d.worker.pass, ∀ status ∈ p.stage.awaited, IsBodyOf network d status body
  | _ => True

end MailCloudflare
