/-
The ops API while the Worker runs.

`handleOps` makes its calls one after the other, and between any two of them, and while
`remove` waits for R2, the Worker goes on: mail arrives, passes deliver and purge, other
operators call.  A call is one of the actions of `Worker/Step.lean`, or the two that
`remove` takes.  One that throws may have been carried out or not, and may have taken any
time to throw.
-/
import MailCloudflare.Base.Transition
import MailCloudflare.Worker.Ops
import MailCloudflare.Worker.Step

namespace MailCloudflare

open Transition

/-- While a `remove` waits for R2, nothing but R2 ends it. -/
def WaitsFor (ok : World → Action → Prop) (call : Nat) (w : World) (a : Action) : Prop :=
  ok w a ∧ a ≠ .crash ∧ ∀ returned, a ≠ .removeReturn call returned

/-- `queue.remove(id)`: what it answers, and the Worker when it does. -/
inductive Removes (env : Worker) (ok : World → Action → Prop) (id : String) :
    World → Bool → World → Prop
  | missing {w w' : World} {call : Nat} (hrow : w.queue.inbox.get? id = none)
      (hok : ok w (.remove call id)) (hcalled : step env w (.remove call id) = some w') :
      Removes env ok id w false w'
  | removed {w w₁ w₂ w' : World} {call : Nat} {row : InboxRow}
      (hrow : w.queue.inbox.get? id = some row)
      (hok : ok w (.remove call id)) (hcalled : step env w (.remove call id) = some w₁)
      (hwaits : Reachable (step env) (WaitsFor ok call) w₁ w₂)
      (hreturns : ok w₂ (.removeReturn call true))
      (hreturned : step env w₂ (.removeReturn call true) = some w') :
      Removes env ok id w true w'

/-- A call that returns: what it answers, and the Worker when it does. -/
def Returns (env : Worker) (ok : World → Action → Prop) :
    {β : Type} → OpsCall β → World → β → World → Prop
  | _, .list status limit, w, items, w' => items = list w.queue status limit ∧ w' = w
  | _, .get id, w, row, w' => row = w.queue.inbox.get? id ∧ w' = w
  | _, .retry id, w, result, w' =>
    ∃ now, ok w (.retry id now) ∧ result = (retry w.queue id now).2 ∧ w' = w.retry id now
  | _, .retryAll status, w, requeued, w' =>
    ∃ now, ok w (.retryAll status now) ∧ requeued = (retryAll w.queue status now).2 ∧
      w' = w.retryAll status now
  | _, .remove id, w, removed, w' => Removes env ok id w removed w'
  | _, .object key, w, object, w' => object = w.bucket key ∧ w' = w

/-- A call of the ops API on the running Worker. -/
def OpsAnswers (env : Worker) (ok : World → Action → Prop) {β : Type} (c : OpsCall β)
    (w : World) (r : Option β) (w' : World) : Prop :=
  match r with
  | some b => Returns env ok c w b w'
  | none => Reachable (step env) ok w w'

/-- A program of the ops API, served by the running Worker; `none` when a call threw. -/
def OpsRuns (env : Worker) (ok : World → Action → Prop) (program : Program OpsCall OpsResponse)
    (w : World) (response : Option OpsResponse) (w' : World) : Prop :=
  program.Served (Reachable (step env) ok) (OpsAnswers env ok) w response w'

/-- A request to the ops API of the running Worker. -/
def OpsServed (env : Worker) (ok : World → Action → Prop) (vars : Env) (request : OpsRequest)
    (w : World) (response : Option OpsResponse) (w' : World) : Prop :=
  OpsRuns env ok (handleOps vars request) w response w'

end MailCloudflare
