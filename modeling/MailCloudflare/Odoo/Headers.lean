/-
The `headers` object of a request: `_passthrough_headers` of
`mail_cloudflare/cloudflare_api.py`.
-/
import MailCloudflare.Base.Dict
import MailCloudflare.Odoo.Recipients
import Mathlib.Algebra.GroupWithZero.Nat

namespace MailCloudflare

open Unicode Python Keyed

def MAX_HEADER_BYTES : Nat := 16 * 1024
def MAX_HEADER_COUNT : Nat := 20
def MAX_HEADER_VALUE_BYTES : Nat := 2048

/-! ### The allow-list -/

def ALLOWED_HEADERS : List Str := [
  -- threading
  "In-Reply-To".toList, "References".toList, "Thread-Index".toList, "Thread-Topic".toList,
  -- list management
  "List-Unsubscribe".toList, "List-Unsubscribe-Post".toList, "List-Id".toList,
  "List-Archive".toList, "List-Help".toList, "List-Owner".toList, "List-Post".toList,
  "List-Subscribe".toList, "Precedence".toList,
  -- automated messages
  "Auto-Submitted".toList,
  -- content and display
  "Content-Language".toList, "Keywords".toList, "Comments".toList, "Importance".toList,
  "Priority".toList, "Sensitivity".toList, "Organization".toList,
  -- delivery and notification
  "Require-Recipient-Valid-Since".toList, "Expires".toList, "Reply-By".toList,
  -- modern standards
  "Archived-At".toList]

def HEADER_ALLOWED_PREFIXES : List Str := ["x-".toList]

/-- `_CANONICAL_HEADER_NAMES.get(lname)`. -/
def canonicalHeaderName (py : UnicodeData) (lname : Str) : Option Str :=
  ALLOWED_HEADERS.find? fun name => py.lower name = lname

/-- `lname in HEADER_ALLOWLIST or lname.startswith(HEADER_ALLOWED_PREFIXES)`. -/
def isAllowedHeader (py : UnicodeData) (lname : Str) : Bool :=
  lname ∈ ALLOWED_HEADERS.map py.lower || HEADER_ALLOWED_PREFIXES.any (·.isPrefixOf lname)

/-! ### The pass over the items -/

abbrev Headers := Dict Str Str

/-- `, `. -/
def COMMA : Str := ", ".toList

/-- The name an item goes under: the one of the table, the known one, or its own. -/
def headerKey (py : UnicodeData) (headers : Headers) (name : Str) : Str :=
  match canonicalHeaderName py (py.lower name) with
  | some canonical => canonical
  | none => (headers.keys.find? fun known => py.lower known = py.lower name).getD name

/-- One turn of the loop over `message.items()`. -/
def collectHeader (py : UnicodeData) (headers : Headers) (item : Str × Str) : Headers :=
  if isAllowedHeader py (py.lower item.1) then
    let value := strip item.2
    let key := headerKey py headers item.1
    match headers.lookup key with
    | none => headers.set key value
    | some joined => if value = [] then headers else headers.set key (joined ++ COMMA ++ value)
  else headers

def collectHeaders (py : UnicodeData) (items : List (Str × Str)) : Headers :=
  items.foldl (collectHeader py) .empty

/-! ### References -/

/--
`_MSGID_RE.findall` from within a text: `inside` is what has been read since a `<`, when
there was one.  A second `<` begins a new token, and `<>` is none.
-/
def msgIdsFrom (inside : Option Str) : Str → List Str
  | [] => []
  | c :: rest =>
    if c = '<' then msgIdsFrom (some []) rest
    else
      match inside with
      | none => msgIdsFrom none rest
      | some body =>
        if c = '>' then
          if body = [] then msgIdsFrom none rest
          else ('<' :: body ++ ['>']) :: msgIdsFrom none rest
        else msgIdsFrom (some (body ++ [c])) rest

/-- `_MSGID_RE.findall(text)`, the matches of `<[^<>]+>`. -/
def msgIds (text : Str) : List Str := msgIdsFrom none text

/-- `" ".join(references)`. -/
def joinReferences (references : List Str) : Str := [' '].intercalate references

def REFERENCES : Str := "References".toList

/-- Octets the rows of the object would occupy on the wire, `Name: value\r\n` each. -/
def headerSize (rows : List (Str × Str)) : Nat :=
  (rows.map fun row => (utf8 row.1).length + (utf8 row.2).length + 4).sum

/-- `references_oversized()`. -/
def referencesOversized (headers : Headers) : Bool :=
  (utf8 ((headers.lookup REFERENCES).getD [])).length > MAX_HEADER_VALUE_BYTES ||
    headerSize headers.rows > MAX_HEADER_BYTES

/-- The loop that drops the oldest entries. -/
def trimReferences (headers : Headers) : List Str → Headers
  | _ :: second :: rest =>
    if referencesOversized headers then
      trimReferences (headers.set REFERENCES (joinReferences (second :: rest))) (second :: rest)
    else headers
  | _ => headers

/-! ### The object -/

/-- The message's own id, `str(message["Message-Id"] or "").strip()`. -/
def ownId (py : UnicodeData) (message : Message) : Str := strip (message.text py "Message-Id".toList)

/-- What the error says is too long. -/
def tooLongText (tooLong : List Str) : Str :=
  if COMMA.intercalate tooLong = [] then "none".toList else COMMA.intercalate tooLong

/-- The two errors. -/
def checkHeaders (headers : Headers) : Except CloudflareEmailError Headers :=
  let tooLong := (headers.rows.filter fun row =>
    (utf8 row.2).length > MAX_HEADER_VALUE_BYTES).map Prod.fst
  if tooLong ≠ [] ∨ headerSize headers.rows > MAX_HEADER_BYTES then
    .error { message := "Headers exceed Cloudflare's limits (".toList ++
      Nat.toDigits 10 MAX_HEADER_BYTES ++ " bytes in total, ".toList ++
      Nat.toDigits 10 MAX_HEADER_VALUE_BYTES ++
      " bytes per value) even after trimming References; too long: ".toList ++
      tooLongText tooLong ++ ".".toList }
  else if headers.keys.length > MAX_HEADER_COUNT then
    .error { message := Nat.toDigits 10 headers.keys.length ++
      " custom headers; Cloudflare accepts at most ".toList ++
      Nat.toDigits 10 MAX_HEADER_COUNT ++ ".".toList }
  else .ok headers

/-- The allow-listed headers of a message, and its own id at the end of References. -/
def passthroughHeaders (py : UnicodeData) (message : Message) :
    Except CloudflareEmailError Headers :=
  let headers := collectHeaders py message.items
  let references := msgIds ((headers.lookup REFERENCES).getD [])
  let own := ownId py message
  let references := if own ≠ [] ∧ own ∉ references then references ++ [own] else references
  let headers :=
    if references ≠ [] then headers.set REFERENCES (joinReferences references) else headers
  checkHeaders (trimReferences headers references)

end MailCloudflare
