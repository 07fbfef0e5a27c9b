/-
The retry policy for the push to Odoo: `worker/src/lib/backoff.ts`.
-/
import MailCloudflare.Base.JavaScript
import Mathlib.Tactic.Common
import Mathlib.Data.List.Basic

namespace MailCloudflare

open Unicode JavaScript

/-- 1 min, 5 min, 15 min, 1 h, then every 6 h. -/
def DEFAULT_BACKOFF_SECONDS : List Nat := [60, 300, 900, 3600, 21600]

/-- One entry of a BACKOFF_SECONDS var; the errors are the messages of what is thrown. -/
def parseScheduleItem (item : Units) : Except Units Nat :=
  let trimmed := trim item
  if !isDigits trimmed then
    .error (js "backoff schedule must be a comma-separated list of positive integers")
  else
    match safeInteger trimmed with
    | none => .error (js "backoff schedule entries must be at least 1 second")
    | some seconds =>
      -- Zero would re-arm the alarm for "now" and spin on a failing endpoint.
      if seconds < 1 then .error (js "backoff schedule entries must be at least 1 second")
      else .ok seconds

/-- Parse a BACKOFF_SECONDS var: a comma-separated list of positive integers. -/
def parseSchedule (raw : Units) : Except Units (List Nat) :=
  (raw.splitOn 0x2C).mapM parseScheduleItem

/--
How long to wait after attempt number `attempt` has failed; the last delay of the
schedule repeats.  `none` is the RangeError an empty schedule raises.
-/
def backoffMs (schedule : List Nat) (attempt : Nat) : Option Nat :=
  match schedule.getLast? with
  | none => none
  | some last =>
    let index := min (max attempt 1) schedule.length - 1
    some (schedule[index]?.getD last * 1000)

inductive Outcome
  | delivered
  | retry
  | rejected
  deriving DecidableEq, Repr

/-- What the HTTP status of a delivery attempt means for its row. -/
def classifyStatus (status : Nat) : Outcome :=
  if status ≥ 200 ∧ status < 300 then .delivered
  else if status = 408 ∨ status = 429 ∨ (status ≥ 500 ∧ status < 600) then .retry
  else .rejected

theorem classifyStatus_delivered {status : Nat} (h : classifyStatus status = .delivered) :
    200 ≤ status ∧ status < 300 := by
  unfold classifyStatus at h
  split at h
  · assumption
  · split at h <;> simp at h

/-- Every delay of a schedule whose entries are at least a second is at least a second. -/
theorem backoffMs_ge {schedule : List Nat} (hne : schedule ≠ []) (hpos : ∀ s ∈ schedule, 1 ≤ s)
    (attempt : Nat) : ∃ delay, backoffMs schedule attempt = some delay ∧ 1000 ≤ delay := by
  have hlast : schedule.getLast? = some (schedule.getLast hne) := List.getLast?_eq_some_getLast hne
  refine ⟨schedule[min (max attempt 1) schedule.length - 1]?.getD (schedule.getLast hne) * 1000,
    by simp only [backoffMs, hlast], ?_⟩
  have hentry : 1 ≤ schedule[min (max attempt 1) schedule.length - 1]?.getD
      (schedule.getLast hne) := by
    cases h : schedule[min (max attempt 1) schedule.length - 1]? with
    | none => exact hpos _ (List.getLast_mem hne)
    | some s => exact hpos s (List.mem_of_getElem? h)
  omega

end MailCloudflare
