/-
Requests and responses of the ops API: `worker/src/lib/http.ts`, and the comparison of
`worker/src/lib/util.ts`.

A request is what `handleOps` reads of it.  Its strings are well formed, as the platform's
are; the Authorization header is matched as the regular expression reads it, by code units.
-/
import MailCloudflare.Base.JavaScript

namespace MailCloudflare

open Unicode JavaScript

structure OpsRequest where
  method : String
  /-- `new URL(request.url).pathname`. -/
  pathname : String
  /-- The entries of `searchParams`. -/
  searchParams : List (String × String)
  /-- `request.headers.get("Authorization")`. -/
  authorization : Option String
  deriving DecidableEq

/-- `searchParams.get(name)`: the first of several. -/
def OpsRequest.param (request : OpsRequest) (name : String) : Option String :=
  (request.searchParams.find? fun entry => entry.1 = name).map (·.2)

inductive OpsBody
  | json (data : Json)
  /-- An R2 object, streamed. -/
  | stream (bytes : Bytes)

structure OpsResponse where
  status : Nat
  headers : List (String × String)
  body : OpsBody

/-- `Response.json(data, { status })`. -/
def json (data : Json) (status : Nat) : OpsResponse where
  status := status
  headers := [("Content-Type", "application/json")]
  body := .json data

/-- `{ ok: false, error }`. -/
def errorData (error : String) : Json := .obj [(js "ok", .bool false), (js "error", .str (js error))]

/-- The one shape every negative answer takes. -/
def notFound (message : String) : OpsResponse := json (errorData message) 404

/-- 401 with the challenge RFC 6750 §3 requires. -/
def unauthorized : OpsResponse where
  status := 401
  headers := [("Content-Type", "application/json"), ("WWW-Authenticate", "Bearer")]
  body := .json (errorData "unauthorized")

/-! ### The token -/

/-- An ASCII letter in lower case. -/
def foldCase (u : UInt16) : UInt16 := if 0x41 ≤ u && u ≤ 0x5A then u + 0x20 else u

/-- The group of `^Bearer\s+(\S+)\s*$`, whatever the case of the scheme. -/
def matchBearer (header : Units) : Option Units :=
  let behind := (header.drop 6).dropWhile isSpace
  let token := behind.takeWhile fun u => !isSpace u
  let rest := behind.dropWhile fun u => !isSpace u
  if (header.take 6).map foldCase = js "bearer" && (header.drop 6).head?.any isSpace &&
      token ≠ [] && rest.all isSpace then some token
  else none

/-- The token from an `Authorization: Bearer <token>` header. -/
def bearerToken (request : OpsRequest) : Option Units :=
  request.authorization.bind fun header => matchBearer (units header.toList)

/-- Constant-time equality: every byte is looked at, whatever the bytes before it. -/
def timingSafeEqual (a b : Units) : Bool :=
  let ab := textEncode a
  let bb := textEncode b
  if ab.length ≠ bb.length then false
  else (ab.zipIdx.foldl (fun diff entry => diff ||| (entry.1 ^^^ bb[entry.2]?.getD 0)) 0) = 0

/-! ### Parameters -/

/-- A positive integer query parameter, clamped to `max`; `fallback` when it is not one. -/
def intParam (request : OpsRequest) (name : String) (fallback max : Nat) : Nat :=
  match request.param name with
  | none => fallback
  | some raw =>
    if !isDigits (units raw.toList) then fallback
    else
      match safeInteger (units raw.toList) with
      | none => fallback
      | some value => if value < 1 then fallback else min value max

end MailCloudflare
