/-
What the environment schema lets through, and whether the queue's timestamps stay exact.

Every number of the configuration comes from a text of decimal digits with a ceiling of its
own, except the entries of the schedule: of these only the seconds are asked to be safe
integers, and the multiplication by a thousand comes after.  The entries that are ever used
are the first `maxAttempts` of them, so the timestamps are exact exactly when those are short
enough.
-/
import MailCloudflare.Worker.Config

namespace MailCloudflare

open Unicode JavaScript

variable {zod : Zod} {env : Env} {config : WorkerConfig}

/-! ### The fields -/

theorem safeInteger_eq_some {raw : Units} {n : Nat} (h : safeInteger raw = some n) :
    digitsValue raw = n := by
  unfold safeInteger at h
  split at h
  · exact Option.some.inj h
  · cases h

theorem boundedNumber_ok {lower upper : Nat} {raw : Units} {n : Nat}
    (h : boundedNumber zod lower upper raw = .ok n) :
    digitsValue raw = n ∧ lower ≤ n ∧ n ≤ upper := by
  unfold boundedNumber wholeNumber at h
  split at h
  · cases h
  · split at h
    · cases h
    · rename_i m hm
      change (if m < lower then _ else _) = _ at h
      split at h
      · cases h
      · split at h
        · cases h
        · cases h
          exact ⟨safeInteger_eq_some hm, by omega, by omega⟩

/-- A bounded number is within its bounds, also when it is the default. -/
theorem orDefault_boundedNumber_ok {lower upper value : Nat} {raw : Option Units} {n : Nat}
    (hlower : lower ≤ value) (hupper : value ≤ upper)
    (h : Parsed.orDefault value (boundedNumber zod lower upper) raw = .ok n) :
    n = (raw.map digitsValue).getD value ∧ lower ≤ n ∧ n ≤ upper := by
  cases raw with
  | none =>
      cases h
      exact ⟨rfl, hlower, hupper⟩
  | some raw =>
      obtain ⟨hvalue, hbounds⟩ := boundedNumber_ok h
      exact ⟨hvalue.symm, hbounds⟩

theorem parseScheduleItem_ok {item : Units} {seconds : Nat}
    (h : parseScheduleItem item = .ok seconds) :
    seconds = digitsValue (trim item) ∧ 1 ≤ seconds := by
  unfold parseScheduleItem at h
  dsimp only at h
  split at h
  · cases h
  · split at h
    · cases h
    · rename_i n hn
      split at h
      · cases h
      · cases h
        exact ⟨(safeInteger_eq_some hn).symm, by omega⟩

theorem mapM_parseScheduleItem_ok {items : List Units} {schedule : List Nat}
    (h : items.mapM parseScheduleItem = .ok schedule) :
    schedule = items.map (fun item => digitsValue (trim item)) ∧ ∀ s ∈ schedule, 1 ≤ s := by
  induction items generalizing schedule with
  | nil =>
      cases h
      exact ⟨rfl, by simp⟩
  | cons item items ih =>
      rw [List.mapM_cons] at h
      cases hitem : parseScheduleItem item with
      | error message =>
          rw [hitem] at h
          cases h
      | ok seconds =>
          cases hitems : items.mapM parseScheduleItem with
          | error message =>
              rw [hitem, hitems] at h
              cases h
          | ok rest =>
              rw [hitem, hitems] at h
              cases h
              obtain ⟨hseconds, hpos⟩ := parseScheduleItem_ok hitem
              obtain ⟨hrest, hall⟩ := ih hitems
              refine ⟨by rw [List.map_cons, hseconds, hrest], ?_⟩
              intro s hs
              rcases List.mem_cons.mp hs with rfl | hin
              · exact hpos
              · exact hall s hin

/-- The entries of a BACKOFF_SECONDS text, as they are read. -/
def scheduleEntries (raw : Units) : List Nat :=
  (raw.splitOn 0x2C).map fun item => digitsValue (trim item)

theorem schedule_ok {raw : Units} {entries : List Nat} (h : schedule raw = .ok entries) :
    entries = scheduleEntries raw ∧ entries ≠ [] ∧ ∀ s ∈ entries, 1 ≤ s := by
  unfold schedule parseSchedule at h
  cases hitems : (raw.splitOn 0x2C).mapM parseScheduleItem with
  | error message =>
      rw [hitems] at h
      cases h
  | ok rest =>
      rw [hitems] at h
      cases h
      obtain ⟨hentries, hpos⟩ := mapM_parseScheduleItem_ok hitems
      refine ⟨hentries, ?_, hpos⟩
      rw [hentries]
      simp

/-! ### What is accepted -/

/-- The number of attempts an environment asks for. -/
def envMaxAttempts (env : Env) : Nat := ((presentVars env .MAX_ATTEMPTS).map digitsValue).getD 32

/-- The schedule an environment asks for. -/
def envSchedule (env : Env) : List Nat :=
  ((presentVars env .BACKOFF_SECONDS).map scheduleEntries).getD DEFAULT_BACKOFF_SECONDS

/-- What a loaded configuration is, of the environment it was loaded from. -/
structure LoadedFrom (env : Env) (config : WorkerConfig) : Prop where
  maxAttempts : config.maxAttempts = envMaxAttempts env
  maxAttempts_pos : 1 ≤ config.maxAttempts
  maxAttempts_le : config.maxAttempts ≤ MAX_ATTEMPTS_CEILING
  backoff : config.backoffSeconds = envSchedule env
  backoff_ne : config.backoffSeconds ≠ []
  backoff_pos : ∀ s ∈ config.backoffSeconds, 1 ≤ s
  retention : config.retentionMs ≤ MAX_RETENTION_DAYS * DAY_MS
  timeout : config.deliveryTimeoutMs ≤ MAX_TIMEOUT_SECONDS * 1000
  delay : config.deliveryDelayMs ≤ MAX_DELAY_SECONDS * 1000

theorem orDefault_schedule_ok {raw : Option Units} {entries : List Nat}
    (h : Parsed.orDefault DEFAULT_BACKOFF_SECONDS schedule raw = .ok entries) :
    entries = (raw.map scheduleEntries).getD DEFAULT_BACKOFF_SECONDS ∧ entries ≠ [] ∧
      ∀ s ∈ entries, 1 ≤ s := by
  cases raw with
  | none =>
      cases h
      exact ⟨rfl, by decide, by decide⟩
  | some raw => exact schedule_ok h

/-- Every configuration `loadConfig` returns is one the delivery path can work with. -/
theorem loadConfig_loadedFrom (h : loadConfig zod env = .ok config) : LoadedFrom env config := by
  unfold loadConfig at h
  cases hschema : EnvSchema zod (presentVars env) with
  | error issues =>
      rw [hschema] at h
      cases h
  | ok v =>
      rw [hschema] at h
      cases h
      unfold EnvSchema at hschema
      dsimp only at hschema
      split at hschema
      · rename_i hurl hsecret hretention hattempts hbackoff htimeout hdelay haccess
        cases hschema
        obtain ⟨-, -, hretention⟩ := orDefault_boundedNumber_ok (by decide) (by decide) hretention
        obtain ⟨hattempts, hpos, hle⟩ :=
          orDefault_boundedNumber_ok (by decide) (by decide) hattempts
        obtain ⟨-, -, htimeout⟩ := orDefault_boundedNumber_ok (by decide) (by decide) htimeout
        obtain ⟨-, -, hdelay⟩ := orDefault_boundedNumber_ok (by decide) (by decide) hdelay
        obtain ⟨hentries, hne, hall⟩ := orDefault_schedule_ok hbackoff
        exact {
          maxAttempts := hattempts
          maxAttempts_pos := hpos
          maxAttempts_le := hle
          backoff := hentries
          backoff_ne := hne
          backoff_pos := hall
          retention := Nat.mul_le_mul_right _ hretention
          timeout := Nat.mul_le_mul_right _ htimeout
          delay := Nat.mul_le_mul_right _ hdelay }
      · cases hschema

/-- The delivery path is given nothing else. -/
theorem exists_loadedConfig (h : loadConfig zod env = .ok config) :
    ∃ loaded : LoadedConfig, loaded.toWorkerConfig = config :=
  have hloaded := loadConfig_loadedFrom h
  ⟨⟨config, hloaded.maxAttempts_pos, hloaded.backoff_ne, hloaded.backoff_pos⟩, rfl⟩

/-! ### The timestamps -/

/-- 2^48: clock values below it are within the 48 bits of an id's timestamp. -/
def CLOCK_END : Nat := 281474976710656

/-- The longest delay, in seconds, that leaves every such clock value in the exact range. -/
def MAX_EXACT_SECONDS : Nat := 8725724278030

/-- Every timestamp the queue computes is exact, and a retry is at least a second away. -/
def ExactTimestamps (config : WorkerConfig) : Prop :=
  ∀ attempt, 1 ≤ attempt → attempt ≤ config.maxAttempts → ∀ now < CLOCK_END,
    now + config.deliveryDelayMs ≤ MAX_SAFE_INTEGER ∧ now + config.retentionMs ≤ MAX_SAFE_INTEGER ∧
      ∃ delay, backoffMs config.backoffSeconds attempt = some delay ∧
        now + delay ≤ MAX_SAFE_INTEGER ∧ now + 1000 ≤ now + delay

/-- The entries of the schedule that are used are short enough. -/
def ScheduleFits (env : Env) : Prop :=
  ∀ s ∈ (envSchedule env).take (envMaxAttempts env), s ≤ MAX_EXACT_SECONDS

instance (env : Env) : Decidable (ScheduleFits env) :=
  inferInstanceAs (Decidable (∀ s ∈ _, _))

theorem backoffMs_eq {schedule : List Nat} (hne : schedule ≠ []) (attempt : Nat) :
    ∃ s, schedule[min (max attempt 1) schedule.length - 1]? = some s ∧
      backoffMs schedule attempt = some (s * 1000) := by
  have hpos : 0 < schedule.length := List.length_pos_of_ne_nil hne
  have hindex : min (max attempt 1) schedule.length - 1 < schedule.length := by omega
  refine ⟨schedule[min (max attempt 1) schedule.length - 1],
    List.getElem?_eq_getElem hindex, ?_⟩
  unfold backoffMs
  rw [List.getLast?_eq_some_getLast hne]
  dsimp only
  rw [List.getElem?_eq_getElem hindex]
  rfl

/-- The delay after an attempt within the budget is one of the entries that are used. -/
theorem backoffMs_mem_take {schedule : List Nat} (hne : schedule ≠ []) {attempt attempts : Nat}
    (hpos : 1 ≤ attempt) (hle : attempt ≤ attempts) :
    ∃ s ∈ schedule.take attempts, backoffMs schedule attempt = some (s * 1000) := by
  obtain ⟨s, hs, hbackoff⟩ := backoffMs_eq hne attempt
  refine ⟨s, List.mem_iff_getElem?.mpr ⟨min (max attempt 1) schedule.length - 1, ?_⟩, hbackoff⟩
  have hlength : 0 < schedule.length := List.length_pos_of_ne_nil hne
  rw [List.getElem?_take_of_lt (by omega), hs]

/-- Every entry that is used is the delay after some attempt within the budget. -/
theorem exists_attempt_of_mem_take {schedule : List Nat} {attempts s : Nat}
    (h : s ∈ schedule.take attempts) :
    ∃ attempt, 1 ≤ attempt ∧ attempt ≤ attempts ∧ backoffMs schedule attempt = some (s * 1000) := by
  obtain ⟨index, hindex, hs⟩ := List.mem_take_iff_getElem.mp h
  have hne : schedule ≠ [] := by
    rintro rfl
    simp at hindex
  obtain ⟨s', hs', hbackoff⟩ := backoffMs_eq hne (index + 1)
  have hsame : min (max (index + 1) 1) schedule.length - 1 = index := by omega
  rw [hsame, List.getElem?_eq_getElem (by omega), hs, Option.some_inj] at hs'
  exact ⟨index + 1, by omega, by omega, hs' ▸ hbackoff⟩

/--
**The timestamps of a loaded configuration are exact exactly when the schedule entries that
are used are.**
-/
theorem loadConfig_exact_iff (h : loadConfig zod env = .ok config) :
    ExactTimestamps config ↔ ScheduleFits env := by
  have hloaded := loadConfig_loadedFrom h
  unfold ScheduleFits
  rw [← hloaded.backoff, ← hloaded.maxAttempts]
  constructor
  · intro hexact s hs
    obtain ⟨attempt, hpos, hle, hbackoff⟩ := exists_attempt_of_mem_take hs
    -- the last clock value is the one that leaves the least room
    obtain ⟨-, -, delay, hdelay, hsafe, -⟩ :=
      hexact attempt hpos hle (CLOCK_END - 1) (by decide)
    have hsame : delay = s * 1000 := Option.some.inj (hdelay.symm.trans hbackoff)
    have hend : CLOCK_END - 1 = 281474976710655 := by decide
    unfold MAX_SAFE_INTEGER at hsafe
    unfold MAX_EXACT_SECONDS
    omega
  · intro hfits attempt hpos hle now hnow
    obtain ⟨s, hs, hbackoff⟩ := backoffMs_mem_take hloaded.backoff_ne hpos hle
    have hlong := hfits s hs
    have hshort := hloaded.backoff_pos s (List.mem_of_mem_take hs)
    have hdelay := hloaded.delay
    have hretention := hloaded.retention
    unfold MAX_DELAY_SECONDS at hdelay
    unfold MAX_RETENTION_DAYS DAY_MS at hretention
    unfold CLOCK_END at hnow
    unfold MAX_EXACT_SECONDS at hlong
    unfold MAX_SAFE_INTEGER
    exact ⟨by omega, by omega, s * 1000, hbackoff, by omega, by omega⟩

/-- A schema library that takes any text with one of the two schemes for a URL. -/
def plainZod : Zod where
  isHttpUrl := fun raw => (js "http://").isPrefixOf raw || (js "https://").isPrefixOf raw
  messages := fun _ => [js "Invalid input"]
  refines := fun issues => issues = []
  refines_nil := by decide

/-- The two required vars and a schedule. -/
def scheduleEnv (backoffSeconds : String) : Env
  | .ODOO_INBOUND_URL => some (js "https://odoo.example.com/mail_cloudflare/inbound/key")
  | .ODOO_WEBHOOK_SECRET => some (js "0123456789abcdef")
  | .BACKOFF_SECONDS => some (js backoffSeconds)
  | _ => none

private theorem exists_config_of_isOk (h : (loadConfig zod env).isOk = true) :
    ∃ config, loadConfig zod env = .ok config := by
  cases hload : loadConfig zod env with
  | error message =>
      rw [hload] at h
      cases h
  | ok config => exact ⟨config, rfl⟩

theorem loadConfig_exact_short :
    ∃ config, loadConfig plainZod (scheduleEnv " 60, 300 ") = .ok config ∧
      config.backoffSeconds = [60, 300] ∧ ExactTimestamps config := by
  obtain ⟨config, hload⟩ : ∃ config, loadConfig plainZod (scheduleEnv " 60, 300 ") = .ok config :=
    exists_config_of_isOk (by decide +kernel)
  refine ⟨config, hload, ?_, (loadConfig_exact_iff hload).mpr (by decide +kernel)⟩
  rw [(loadConfig_loadedFrom hload).backoff]
  decide +kernel

/-- A delay that is a safe integer in seconds, but not in milliseconds. -/
theorem loadConfig_inexact :
    ∃ config, loadConfig plainZod (scheduleEnv "9007199254740991") = .ok config ∧
      backoffMs config.backoffSeconds 1 = some 9007199254740991000 ∧ ¬ ExactTimestamps config := by
  obtain ⟨config, hload⟩ :
      ∃ config, loadConfig plainZod (scheduleEnv "9007199254740991") = .ok config :=
    exists_config_of_isOk (by decide +kernel)
  have hloaded := loadConfig_loadedFrom hload
  have hbackoff : backoffMs config.backoffSeconds 1 = some 9007199254740991000 := by
    rw [hloaded.backoff]
    decide +kernel
  refine ⟨config, hload, hbackoff, ?_⟩
  intro hexact
  obtain ⟨-, -, delay, hdelay, hsafe, -⟩ :=
    hexact 1 (Nat.le_refl 1) hloaded.maxAttempts_pos 0 (by decide)
  rw [hbackoff] at hdelay
  cases hdelay
  exact absurd hsafe (by decide)

end MailCloudflare
