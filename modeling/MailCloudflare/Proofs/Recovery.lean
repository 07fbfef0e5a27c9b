/-
How the queue drains once Odoo is back.

Between passes nothing is in flight, so whatever a pass settles from then on it settles for
an answer of that pass.  With every answer a 2xx and every message in R2, what is settled is
delivered; and a due row is settled after as many passes as there are full tens of rows
ahead of it, and one more.
-/
import MailCloudflare.Deployment.Network
import MailCloudflare.Proofs.Delivery
import MailCloudflare.Proofs.Starvation

namespace MailCloudflare

open Unicode Keyed Transition

variable {env : Worker} {w w' u u' : World} {a : Action} {id : String}

/-- Odoo answers, and takes what it is given. -/
def OdooUp (_ : World) : Action → Prop
  | .fetched (.response status) _ => IsSuccess status
  | .fetched (.failed _) _ => False
  | _ => True

/-- The Worker attempts what is due, its messages are in R2, and Odoo takes them. -/
structure Recovers (w : World) (a : Action) : Prop where
  keeps : KeepsMessages w a
  attempting : Attempting w a
  up : OdooUp w a

/-- What has been settled since is delivered, unless an operator has called for its removal. -/
structure Drained (w u : World) : Prop where
  answering : ∀ p row due config status, u.pass = some p →
    p.stage = .answering row due config status → IsSuccess status
  settled : ∃ new, u.history = new ++ w.history ∧
    ∀ id n outcome status applied, .settled id n outcome status applied ∈ new →
      (outcome = .delivered ∧ ∃ s, status = some s ∧ IsSuccess s) ∨ .removeCalled id ∈ u.history

theorem classifyStatus_of_isSuccess {status : Nat} (h : IsSuccess status) :
    classifyStatus status = .delivered := by
  simp only [IsSuccess] at h
  simp [classifyStatus, h]

/-- What the row at hand is settled with. -/
theorem settling_delivers (hup : OdooUp u a) (hmissing : NeverMissing u)
    (hanswering : ∀ p row due config status, u.pass = some p →
      p.stage = .answering row due config status → IsSuccess status)
    {n : Nat} {outcome : Verdict} {status : Option Nat}
    (h : SettlesNow u a id n outcome status) :
    (outcome = .delivered ∧ ∃ s, status = some s ∧ IsSuccess s) ∨
      .removeCalled id ∈ u.history := by
  obtain ⟨p, row, due, config, verdict, now, hpass, hsettling, rfl, rfl⟩ := h
  generalize hstage : p.stage = stage at hsettling
  cases hsettling with
  | missing => exact Or.inr (hmissing p row due config hpass hstage)
  | unanswered => exact hup.elim
  | @answered _ _ _ s =>
      have hsuccess := hanswering p row due config s hpass hstage
      refine Or.inl ⟨?_, s, rfl, hsuccess⟩
      simp [classifyStatus_of_isSuccess hsuccess, Outcome.toVerdict, outcomeOf]

theorem drained_step (hs : Step env u a u') (hup : OdooUp u a) (hmissing : NeverMissing u)
    (h : Drained w u) : Drained w u' where
  answering := by
    intro p row due config status hp hstage
    rcases answering_cases hs hp hstage with hold | ⟨q, now, hpass, hposting, rfl⟩
    · exact h.answering p row due config status hold hstage
    · exact hup
  settled := by
    obtain ⟨new, hnew, hold⟩ := h.settled
    obtain ⟨news, hnews, hlogged⟩ := hs.news
    refine ⟨news ++ new, by rw [hnews, hnew, List.append_assoc], ?_⟩
    intro id n outcome status applied hmem
    refine Or.imp_right (fun hcalled => hs.mem_history hcalled) ?_
    rcases List.mem_append.mp hmem with hin | hin
    · exact settling_delivers hup hmissing h.answering (hlogged _ hin)
    · exact hold id n outcome status applied hin

theorem drained_reachable (h : Reachable (step env) KeepsMessages .init w)
    (hidle : w.pass = none) (hrun : Reachable (step env) Recovers w w') : Drained w w' := by
  refine Reachable.invariant ?_ ?_ hrun
  · exact ⟨by simp [hidle], [], rfl, by simp⟩
  · intro u a u' hreach hinv hok hs
    have hkept := kept_reachable (h.trans (hreach.weaken fun _ _ hok => hok.keeps))
    exact drained_step (step_cases hs) hok.up hkept.2.stocked.missing hinv

/--
**Once Odoo is back the queue drains.**  From any state between two passes, with Odoo
taking what it is given from there on, a row that is due is delivered once one pass more
than the full tens of rows ahead of it has ended, unless an operator calls `remove` on it.
-/
theorem delivered_once_odoo_is_back (h : Reachable (step env) KeepsMessages .init w)
    (hidle : w.pass = none) {r : InboxRow} {n : Nat}
    (hrow : w.queue.inbox.get? r.id = some r) (hpending : r.status = .pending)
    (hnext : r.nextAttemptAt = some n) (hdue : n < w.clock)
    (hrun : Reachable (step env) Recovers w w') :
    ∃ new, w'.history = new ++ w.history ∧
      ((ahead w r).card / ALARM_BATCH + 1 ≤ passesEnded new →
        (∃ attempt s, IsSuccess s ∧ .settled r.id attempt .delivered (some s) true ∈ new) ∨
          .removeCalled r.id ∈ w'.history) := by
  obtain ⟨-, new, hnew, hwaits⟩ := watched_reachable h hrow hpending hnext hdue
    (hrun.weaken fun _ _ hok => hok.attempting)
  obtain ⟨-, new', hnew', hsettled⟩ := drained_reachable h hidle hrun
  obtain rfl : new = new' := List.append_cancel_right (hnew.symm.trans hnew')
  refine ⟨new, hnew, fun hpasses => ?_⟩
  rcases hwaits with (⟨attempt, outcome, status, hmem⟩ | hremoved) | hwaiting
  · rcases hsettled r.id attempt outcome status true hmem with ⟨rfl, s, rfl, hs⟩ | hcalled
    · exact Or.inl ⟨attempt, s, hs, hmem⟩
    · exact Or.inr hcalled
  · have honce : QueuedOnce w' :=
      (kept_reachable (h.trans (hrun.weaken fun _ _ hok => hok.keeps))).2.once
    refine Or.inr (honce.removed r.id ?_)
    rw [hnew]
    exact List.mem_append_left _ hremoved
  · -- So many passes would have taken more rows from ahead than there were.
    have hfewer := hwaiting.fewer
    unfold ALARM_BATCH at hfewer hpasses
    rw [hidle, Option.isSome_none, if_neg Bool.false_ne_true] at hfewer
    omega

instance (w : World) : DecidablePred (OdooUp w)
  | .fetched (.response status) _ => inferInstanceAs (Decidable (IsSuccess status))
  | .fetched (.failed _) _ => isFalse fun h => h
  | .email .. | .putReturn .. | .emailEnqueue .. | .emailReturn .. | .enqueue .. | .retry ..
  | .retryAll .. | .remove .. | .removeObject .. | .removeReturn .. | .alarm .. | .deliverNext
  | .getObject | .getReturn .. | .answered .. | .purgeExpired .. | .purgeObject ..
  | .purgeReturn .. | .rearm .. | .crash => isTrue trivial

instance (w : World) : DecidablePred (Recovers w) := fun a =>
  decidable_of_iff (KeepsMessages w a ∧ Attempting w a ∧ OdooUp w a)
    ⟨fun h => ⟨h.1, h.2.1, h.2.2⟩, fun h => ⟨h.keeps, h.attempting, h.up⟩⟩

/-- A pass over these rows in which Odoo takes every message. -/
def answeredPass (ids : List String) (now : Nat) : List Action :=
  .alarm now (some sampleConfig) ::
    ids.flatMap (fun _ => [.deliverNext, .getObject, .getReturn true now,
      .fetched (.response 200) now, .answered none now]) ++
    [.deliverNext, .purgeExpired now] ++ ids.map (fun id => .purgeObject (sampleWorker.r2Key id)) ++
    [.purgeReturn true, .rearm now]

/-- Twelve messages have waited for Odoo, and the last of them is delivered in the second pass. -/
theorem delivered_once_odoo_is_back_answered : ∃ (w w' : World) (r : InboxRow) (new : List Event),
    (ahead w r).card = 11 ∧ w'.history = new ++ w.history ∧ passesEnded new = 2 ∧
      ∃ attempt s, IsSuccess s ∧ .settled r.id attempt .delivered (some s) true ∈ new := by
  have hrun : (runActions (step sampleWorker) KeepsMessages .init
      (queuedRun ++ [.retry "L" 13])).any (fun w =>
        w.clock = 13 && w.pass = none &&
        (w.queue.inbox.get? "L").any (fun r => r.id = "L" && r.status = .pending &&
          r.nextAttemptAt = some 11 && (ahead w r).card = 11) &&
        (runActions (step sampleWorker) Recovers w
          (answeredPass ["A", "B", "C", "D", "E", "F", "G", "H", "I", "J"] 14 ++
            answeredPass ["K", "L"] 15)).any fun w' =>
          passesEnded w'.history = passesEnded w.history + 2 &&
            .removeCalled "L" ∉ w'.history) = true := by decide +kernel
  obtain ⟨w, hreach, hgood⟩ := exists_reachable_of_runActions _ hrun
  simp only [Bool.and_eq_true, decide_eq_true_eq, Option.any_eq_true] at hgood
  obtain ⟨⟨⟨hclock, hpass⟩, r, hrow, ⟨⟨hid, hpending⟩, hnext⟩, hcard⟩, w', hrun', hended,
    hcalled⟩ := hgood
  obtain ⟨new, hnew, hdelivered⟩ := delivered_once_odoo_is_back hreach hpass (hid.symm ▸ hrow)
    hpending hnext (by omega) (reachable_runActions _ _ .start hrun')
  rw [hnew, passesEnded_append] at hended
  have htwo : passesEnded new = 2 := by omega
  have hpasses : (ahead w r).card / ALARM_BATCH + 1 ≤ passesEnded new := by
    rw [hcard, htwo]
    decide
  exact ⟨w, w', r, new, hcard, hnew, htwo,
    (hdelivered hpasses).resolve_right fun hremoved => hcalled (hid ▸ hremoved)⟩

end MailCloudflare
