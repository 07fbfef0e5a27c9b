/-
The Worker's configuration: `worker/src/config.ts`.

`WorkerConfig` is the record the delivery path reads.  The queue relies on three things
the environment schema enforces of it, and `LoadedConfig` carries them: there is an
attempt to spend, the schedule has an entry, and no entry of it is shorter than a second.

Of zod, the schema library, what the code relies on is a parameter: what it takes for a
URL, the texts of the issues its own checks raise, and whether it goes on to the schema's
refinement after them.
-/
import MailCloudflare.Base.JavaScript
import MailCloudflare.Worker.Backoff

namespace MailCloudflare

open Unicode JavaScript

/-! ### The configuration -/

/-- A Cloudflare Access service token. -/
structure AccessCredentials where
  clientId : Units
  clientSecret : Units
  deriving DecidableEq

structure WorkerConfig where
  inboundUrl : Units
  webhookSecret : Units
  access : Option AccessCredentials
  opsToken : Option Units
  retentionMs : Nat
  maxAttempts : Nat
  backoffSeconds : List Nat
  deliveryTimeoutMs : Nat
  deliveryDelayMs : Nat
  deriving DecidableEq

/-- A configuration the schema accepted. -/
structure LoadedConfig extends WorkerConfig where
  maxAttempts_pos : 1 ≤ maxAttempts
  backoff_ne : backoffSeconds ≠ []
  backoff_pos : ∀ s ∈ backoffSeconds, 1 ≤ s
  deriving DecidableEq

/-- A failed attempt always has a next one, at least a second away. -/
theorem LoadedConfig.backoffMs_ge (config : LoadedConfig) (attempt : Nat) :
    ∃ delay, backoffMs config.backoffSeconds attempt = some delay ∧ 1000 ≤ delay :=
  MailCloudflare.backoffMs_ge config.backoff_ne config.backoff_pos attempt

/-! ### The vars -/

/-- The var names config.ts reads. -/
inductive VarName
  | ODOO_INBOUND_URL
  | ODOO_WEBHOOK_SECRET
  | CF_ACCESS_CLIENT_ID
  | CF_ACCESS_CLIENT_SECRET
  | OPS_TOKEN
  | RETENTION_DAYS
  | MAX_ATTEMPTS
  | BACKOFF_SECONDS
  | DELIVERY_TIMEOUT_SECONDS
  | DELIVERY_DELAY_SECONDS
  deriving DecidableEq, Repr

def VarName.text : VarName → Units
  | .ODOO_INBOUND_URL => js "ODOO_INBOUND_URL"
  | .ODOO_WEBHOOK_SECRET => js "ODOO_WEBHOOK_SECRET"
  | .CF_ACCESS_CLIENT_ID => js "CF_ACCESS_CLIENT_ID"
  | .CF_ACCESS_CLIENT_SECRET => js "CF_ACCESS_CLIENT_SECRET"
  | .OPS_TOKEN => js "OPS_TOKEN"
  | .RETENTION_DAYS => js "RETENTION_DAYS"
  | .MAX_ATTEMPTS => js "MAX_ATTEMPTS"
  | .BACKOFF_SECONDS => js "BACKOFF_SECONDS"
  | .DELIVERY_TIMEOUT_SECONDS => js "DELIVERY_TIMEOUT_SECONDS"
  | .DELIVERY_DELAY_SECONDS => js "DELIVERY_DELAY_SECONDS"

/-- The vars that are strings. -/
abbrev Env := VarName → Option Units

/-- The vars as zod should see them: only when they carry something. -/
def presentVars (env : Env) : Env := fun name =>
  (env name).bind fun value => if trim value ≠ [] then some (trim value) else none

/-- The ops token alone, with the same "blank means unset" rule as `loadConfig`. -/
def opsTokenOf (env : Env) : Option Units := presentVars env .OPS_TOKEN

/-! ### The schema -/

def DAY_MS : Nat := 86400000
def MAX_TIMEOUT_SECONDS : Nat := 60
def MAX_DELAY_SECONDS : Nat := 7 * 86400
def MAX_RETENTION_DAYS : Nat := 3650
def MAX_ATTEMPTS_CEILING : Nat := 10000

/-- A problem with one var. -/
structure Issue where
  path : VarName
  message : Units
  deriving DecidableEq

/-- A check of zod's own that a value failed. -/
inductive ZodCheck
  | missing
  | url
  | minLength (min : Nat)
  | safeInteger
  | min (min : Nat)
  | max (max : Nat)

structure Zod where
  /-- `z.url({ protocol: /^https?$/ })`. -/
  isHttpUrl : Units → Bool
  /-- The texts of the issues a failed check raises. -/
  messages : ZodCheck → List Units
  /-- The object's refinement runs after these issues. -/
  refines : List Issue → Bool
  refines_nil : refines [] = true

/-- What a field's schema makes of its var, or its issues' texts. -/
abbrev Parsed (α : Type) := Except (List Units) α

def wholeNumber (zod : Zod) (raw : Units) : Parsed Nat :=
  if !isDigits raw then .error [js "must be a whole number"]
  else
    match safeInteger raw with
    | none => .error (zod.messages .safeInteger)
    | some n => .ok n

/-- `wholeNumber.pipe(z.number().min(lower).max(upper))`. -/
def boundedNumber (zod : Zod) (lower upper : Nat) (raw : Units) : Parsed Nat :=
  (wholeNumber zod raw).bind fun n =>
    if n < lower then .error (zod.messages (.min lower))
    else if upper < n then .error (zod.messages (.max upper))
    else .ok n

/-- `ODOO_INBOUND_URL`. -/
def inboundUrlField (zod : Zod) : Option Units → Parsed Units
  | none => .error (zod.messages .missing)
  | some raw => if zod.isHttpUrl raw then .ok raw else .error (zod.messages .url)

/-- `ODOO_WEBHOOK_SECRET`. -/
def webhookSecretField (zod : Zod) : Option Units → Parsed Units
  | none => .error (zod.messages .missing)
  | some raw => if raw.length < 16 then .error (zod.messages (.minLength 16)) else .ok raw

/-- `.default(value)`. -/
def Parsed.orDefault {α : Type} (value : α) (field : Units → Parsed α) : Option Units → Parsed α
  | none => .ok value
  | some raw => field raw

/-- `schedule`: what `parseSchedule` throws becomes an issue. -/
def schedule (raw : Units) : Parsed (List Nat) := (parseSchedule raw).mapError fun message => [message]

def Parsed.issues {α : Type} (path : VarName) : Parsed α → List Issue
  | .ok _ => []
  | .error messages => messages.map fun message => { path, message }

/-- Half a service token is worse than none. -/
def accessIssues (vars : Env) : List Issue :=
  if (vars .CF_ACCESS_CLIENT_ID).isNone ≠ (vars .CF_ACCESS_CLIENT_SECRET).isNone then
    [{ path :=
        if (vars .CF_ACCESS_CLIENT_ID).isNone then .CF_ACCESS_CLIENT_ID
        else .CF_ACCESS_CLIENT_SECRET
       message := js "CF_ACCESS_CLIENT_ID and CF_ACCESS_CLIENT_SECRET must be set together" }]
  else []

/-- What the schema returns. -/
structure EnvData where
  inboundUrl : Units
  webhookSecret : Units
  accessClientId : Option Units
  accessClientSecret : Option Units
  opsToken : Option Units
  retentionDays : Nat
  maxAttempts : Nat
  backoffSeconds : List Nat
  deliveryTimeoutSeconds : Nat
  deliveryDelaySeconds : Nat
  deriving DecidableEq

/-- `EnvSchema.safeParse(vars)`: every problem of every var, or the data. -/
def EnvSchema (zod : Zod) (vars : Env) : Except (List Issue) EnvData :=
  let inboundUrl := inboundUrlField zod (vars .ODOO_INBOUND_URL)
  let webhookSecret := webhookSecretField zod (vars .ODOO_WEBHOOK_SECRET)
  let retentionDays :=
    Parsed.orDefault 30 (boundedNumber zod 0 MAX_RETENTION_DAYS) (vars .RETENTION_DAYS)
  let maxAttempts :=
    Parsed.orDefault 32 (boundedNumber zod 1 MAX_ATTEMPTS_CEILING) (vars .MAX_ATTEMPTS)
  let backoffSeconds := Parsed.orDefault DEFAULT_BACKOFF_SECONDS schedule (vars .BACKOFF_SECONDS)
  let deliveryTimeoutSeconds :=
    Parsed.orDefault 30 (boundedNumber zod 1 MAX_TIMEOUT_SECONDS) (vars .DELIVERY_TIMEOUT_SECONDS)
  let deliveryDelaySeconds :=
    Parsed.orDefault 0 (boundedNumber zod 0 MAX_DELAY_SECONDS) (vars .DELIVERY_DELAY_SECONDS)
  let issues := inboundUrl.issues .ODOO_INBOUND_URL ++
    webhookSecret.issues .ODOO_WEBHOOK_SECRET ++ retentionDays.issues .RETENTION_DAYS ++
    maxAttempts.issues .MAX_ATTEMPTS ++ backoffSeconds.issues .BACKOFF_SECONDS ++
    deliveryTimeoutSeconds.issues .DELIVERY_TIMEOUT_SECONDS ++
    deliveryDelaySeconds.issues .DELIVERY_DELAY_SECONDS
  let issues := if zod.refines issues then issues ++ accessIssues vars else issues
  match inboundUrl, webhookSecret, retentionDays, maxAttempts, backoffSeconds,
      deliveryTimeoutSeconds, deliveryDelaySeconds, accessIssues vars with
  | .ok inboundUrl, .ok webhookSecret, .ok retentionDays, .ok maxAttempts, .ok backoffSeconds,
      .ok deliveryTimeoutSeconds, .ok deliveryDelaySeconds, [] =>
    .ok {
      inboundUrl, webhookSecret
      accessClientId := vars .CF_ACCESS_CLIENT_ID
      accessClientSecret := vars .CF_ACCESS_CLIENT_SECRET
      opsToken := vars .OPS_TOKEN
      retentionDays, maxAttempts, backoffSeconds, deliveryTimeoutSeconds, deliveryDelaySeconds }
  | _, _, _, _, _, _, _, _ => .error issues

/-! ### Loading -/

/-- `fields.join("; ")` behind the prefix of every ConfigError. -/
def configErrorText (issues : List Issue) : Units :=
  js "Invalid worker configuration: " ++
    (js "; ").intercalate (issues.map fun i => i.path.text ++ js " " ++ i.message)

/-- The error is the message of the ConfigError. -/
def loadConfig (zod : Zod) (env : Env) : Except Units WorkerConfig :=
  match EnvSchema zod (presentVars env) with
  | .error issues => .error (configErrorText issues)
  | .ok v => .ok {
      inboundUrl := v.inboundUrl
      webhookSecret := v.webhookSecret
      access :=
        match v.accessClientId, v.accessClientSecret with
        | some clientId, some clientSecret => some { clientId, clientSecret }
        | _, _ => none
      opsToken := v.opsToken
      retentionMs := v.retentionDays * DAY_MS
      maxAttempts := v.maxAttempts
      backoffSeconds := v.backoffSeconds
      deliveryTimeoutMs := v.deliveryTimeoutSeconds * 1000
      deliveryDelayMs := v.deliveryDelaySeconds * 1000 }

end MailCloudflare
