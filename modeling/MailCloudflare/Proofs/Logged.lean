/-
What a step was doing that has logged an event.

`Step.logged` says of an event in the log after a step that it was there before or what the
step did.  An event may be logged twice, and then it was there before whatever the step did;
so here the same is said of the events a step adds.
-/
import MailCloudflare.Proofs.Frame

namespace MailCloudflare

variable {env : Worker} {w w' : World} {a : Action} {id : String} {n : Nat}

/-- The attempt the pass is at is POSTed, from the object it has read. -/
def PostsNow (env : Worker) (w : World) (a : Action) (w' : World) (id : String) (n : Nat)
    (request : Request) : Prop :=
  ∃ p row due config body, w.pass = some p ∧ p.stage = .got row due config (some body) ∧
    row.id = id ∧ row.attempts + 1 = n ∧ a = .getReturn true w'.clock ∧
      deliveryRequest env config row n body w'.clock = some request

/-- The attempt the pass is at is settled. -/
def SettlesNow (w : World) (a : Action) (id : String) (n : Nat) (outcome : Verdict)
    (status : Option Nat) : Prop :=
  ∃ p row due config verdict now, w.pass = some p ∧
    Settling p.stage a row due config verdict status now ∧ row.id = id ∧
      outcome = outcomeOf config n verdict

/-- `email()` throws, before it has put anything or while it is in flight. -/
def FailsNow (w : World) (a : Action) (w' : World) (id : String) : Prop :=
  (∃ m receivedAt, a = .email id m receivedAt ∧ .minted id ∈ w'.history ∧ w'.emails = w.emails) ∨
    ∃ e, w.emails id = some e ∧ w'.emails id = none

def LoggedNow (env : Worker) (w : World) (a : Action) (w' : World) : Event → Prop
  | .posted id n request => PostsNow env w a w' id n request
  | .settled id n outcome status _ => SettlesNow w a id n outcome status
  | .failed id => FailsNow w a w' id
  | _ => True

/-- **What a step adds to the log is what it was doing.** -/
theorem Step.news (hs : Step env w a w') :
    ∃ new, w'.history = new ++ w.history ∧ ∀ e ∈ new, LoggedNow env w a w' e := by
  cases hs with
  | crash _ hw => exact ⟨[], by rw [hw]; rfl, by simp⟩
  | email hs =>
      cases hs with
      | put => exact ⟨[], rfl, by simp⟩
      | rejected | minted | accepted => exact ⟨[_], rfl, by simp [LoggedNow]⟩
      | @refused i m receivedAt =>
          refine ⟨[.failed i, .minted i], rfl, ?_⟩
          simp [LoggedNow, FailsNow]
      | putFailed he | failed he =>
          refine ⟨[_], rfl, fun e hmem => ?_⟩
          cases List.mem_singleton.mp hmem
          exact Or.inr ⟨_, he, by simp⟩
  | request hs =>
      cases hs with
      | duplicate | left | objectRemoved | removeFailed => exact ⟨[], rfl, by simp⟩
      | requeuedAll =>
          refine ⟨_, rfl, fun e hmem => ?_⟩
          obtain ⟨i, -, rfl⟩ := List.mem_map.mp hmem
          trivial
      | inserted | requeued | missing | removing | removed =>
          exact ⟨[_], rfl, by simp [LoggedNow]⟩
  | pass hs =>
      cases hs with
      | loopEnd | loopNext | read | responded | nothingExpired | purging | objectPurged
      | purged => exact ⟨[], rfl, by simp⟩
      | configFailed => exact ⟨[_, _], rfl, by simp [LoggedNow]⟩
      | idle | started | threw | purgeFailed | ended | endedFailed =>
          exact ⟨[_], rfl, by simp [LoggedNow]⟩
      | posted hpass hstage hrequest =>
          refine ⟨[_], rfl, fun e hmem => ?_⟩
          cases List.mem_singleton.mp hmem
          exact ⟨_, _, _, _, _, hpass, hstage, rfl, rfl, rfl, hrequest⟩
      | settled hpass hsettling =>
          refine ⟨[_], rfl, fun e hmem => ?_⟩
          cases List.mem_singleton.mp hmem
          exact ⟨_, _, _, _, _, _, hpass, hsettling, rfl, rfl⟩

/-- What is in the log was there before, or is what the step was doing. -/
theorem Step.loggedNow (hs : Step env w a w') {e : Event} (he : e ∈ w'.history) :
    e ∈ w.history ∨ LoggedNow env w a w' e := by
  obtain ⟨new, hnew, hlogged⟩ := hs.news
  rw [hnew] at he
  exact (List.mem_append.mp he).symm.imp_right (hlogged e)

/-- A step that logs one event was doing that. -/
theorem Step.loggedNow_of_cons (hs : Step env w a w') {e : Event}
    (hlog : w'.history = e :: w.history) : LoggedNow env w a w' e := by
  obtain ⟨new, hnew, hlogged⟩ := hs.news
  obtain rfl : new = [e] := List.append_cancel_right (hnew.symm.trans hlog)
  exact hlogged e (List.mem_singleton_self e)

end MailCloudflare
