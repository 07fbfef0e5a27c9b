/-
What a step does to one row.

`RowChange` reads a step at one row of the table.  There are six things that can happen to
it, and for each the rule says which step it was and what the row is afterwards.  `RowFrom`
reads the same backwards, from a row that is there after the step, and `SettleChange` from
an attempt the step has logged as settled.
-/
import MailCloudflare.Proofs.Frame

namespace MailCloudflare

open Unicode Keyed

variable {env : Worker} {w w' : World} {a : Action}

/-! ### What the log says about one row -/

/-- The events that are about the row under `id`, and the beginnings of passes. -/
def Event.concerns (id : String) : Event → Bool
  | .enqueued i _ | .requeued i _ | .removed i | .posted i _ _ | .threw i
  | .settled i _ _ _ _ => i = id
  | .passStarted _ => true
  | _ => false

/-- The log of one row. -/
def logOf (id : String) (history : List Event) : List Event :=
  history.filter (Event.concerns id)

theorem logOf_append (id : String) (new history : List Event) :
    logOf id (new ++ history) = logOf id new ++ logOf id history := by
  simp [logOf]

/-- What has been added to the log of a row is what of the additions concerns it. -/
theorem logOf_new {id : String} {new history news : List Event}
    (hlog : logOf id (new ++ history) = news ++ logOf id history) : logOf id new = news := by
  rw [logOf_append] at hlog
  exact List.append_cancel_right hlog

theorem mem_of_logOf {id : String} {new history news : List Event} {e : Event}
    (hlog : logOf id (new ++ history) = news ++ logOf id history) (he : e ∈ news) : e ∈ new := by
  rw [← logOf_new hlog] at he
  exact List.mem_of_mem_filter he

theorem Step.mem_of_logOf (h : Step env w a w') {id : String} {news : List Event} {e : Event}
    (hlog : logOf id w'.history = news ++ logOf id w.history) (he : e ∈ news) :
    e ∈ w'.history := by
  obtain ⟨new, hnew⟩ := h.history
  rw [hnew] at hlog ⊢
  exact List.mem_append_left _ (MailCloudflare.mem_of_logOf hlog he)

/-! ### One row -/

/-- What is logged about a row that a step does not change. -/
inductive Quiet (env : Worker) (w : World) (a : Action) (w' : World) (id : String) :
    List Event → Prop
  | nothing : Quiet env w a w' id []
  | begun (hpass : w.pass = none) : Quiet env w a w' id [.passStarted w'.clock]
  | posted {p : Pass} {row : InboxRow} {due : List InboxRow} {config : LoadedConfig} {body : Bytes}
      {request : Request} (hpass : w.pass = some p)
      (hstage : p.stage = .got row due config (some body)) (hid : row.id = id)
      (hpass' : w'.pass = some { p with stage := .posting row due config }) :
      Quiet env w a w' id [.posted id (row.attempts + 1) request]
  | threw {p : Pass} {row : InboxRow} {due : List InboxRow} {config : LoadedConfig}
      {object : Option Bytes} {ok : Bool} (hpass : w.pass = some p)
      (hstage : p.stage = .got row due config object) (hid : row.id = id)
      (hpass' : w'.pass = some { p with stage := .delivering due config })
      (hcall : a = .getReturn ok w'.clock)
      (hcause : ok = false ∨ ∃ body, object = some body ∧
        deliveryRequest env config row (row.attempts + 1) body w'.clock = none) :
      Quiet env w a w' id [.threw id]
  /-- An attempt was settled, and the row was not there or not pending. -/
  | missed {p : Pass} {row : InboxRow} {due : List InboxRow} {config : LoadedConfig}
      {verdict : Verdict} {status : Option Nat} (hpass : w.pass = some p)
      (hsettling : Settling p.stage a row due config verdict status w'.clock) (hid : row.id = id)
      (hrow : ∀ r, w.queue.inbox.get? id = some r → r.status ≠ .pending) :
      Quiet env w a w' id [.settled id (row.attempts + 1)
        (outcomeOf config (row.attempts + 1) verdict) status false]

/-- What a step does to the row under `id`, and what it logs about it. -/
inductive RowChange (env : Worker) (w : World) (a : Action) (w' : World) (id : String) : Prop
  | kept (hkept : w'.queue.inbox.get? id = w.queue.inbox.get? id) {news : List Event}
      (hquiet : Quiet env w a w' id news)
      (hlog : logOf id w'.history = news ++ logOf id w.history)
  | inserted {input : EnqueueInput} {now : Nat} {config : Option LoadedConfig}
      {emails : String → Option Email} (hcaller : Caller w a input now config emails)
      (hid : input.id = id) (hclock : w'.clock = now) (hnone : w.queue.inbox.get? id = none)
      (hsome : w'.queue.inbox.get? id = some (newRow input (now + deliveryDelayMs config)))
      (hlog : logOf id w'.history =
        [.enqueued id (now + deliveryDelayMs config)] ++ logOf id w.history)
  | requeued {row : InboxRow} (hrow : w.queue.inbox.get? id = some row)
      (hstatus : row.status ≠ .pending) (hcall : a = .retry id w'.clock ∨ row.status ≠ .delivered)
      (hsome : w'.queue.inbox.get? id = some (row.requeue w'.clock))
      (hlog : logOf id w'.history = [.requeued id w'.clock] ++ logOf id w.history)
  /-- An attempt on the row, which the pass read as `snapshot`, has been settled. -/
  | settled {p : Pass} {row snapshot : InboxRow} {due : List InboxRow} {config : LoadedConfig}
      {verdict : Verdict} {status : Option Nat} {error : Option Units} {threadId : Option ℚ}
      {delay : Nat} (hpass : w.pass = some p)
      (hsettling : Settling p.stage a snapshot due config verdict status w'.clock)
      (hid : snapshot.id = id) (hdelay : 1000 ≤ delay) (hrow : w.queue.inbox.get? id = some row)
      (hpending : row.status = .pending)
      (hsome : w'.queue.inbox.get? id =
        some ((settlementOf config (snapshot.attempts + 1) verdict status error threadId w'.clock
          delay).apply row))
      (hlog : logOf id w'.history =
        [.settled id (snapshot.attempts + 1) (outcomeOf config (snapshot.attempts + 1) verdict)
          status true] ++ logOf id w.history)
  | removed {call : Nat} {r : Removal} (hr : w.removals call = some r) (hid : r.id = id)
      (hnone : w'.queue.inbox.get? id = none)
      (hlog : logOf id w'.history = [.removed id] ++ logOf id w.history)
  | purged {p : Pass} {expired : List InboxRow} {row e : InboxRow} (hpass : w.pass = some p)
      (hstage : p.stage = .deleting expired []) (hmem : e ∈ expired) (hid : e.id = id)
      (hrow : w.queue.inbox.get? id = some row) (hpurge : row.purgeAt.isSome)
      (hnone : w'.queue.inbox.get? id = none)
      (hlog : logOf id w'.history = logOf id w.history)

private theorem logOf_requeuedAll {q : Inbox} {p : InboxRow → Bool} {id : String} (now : Nat) :
    logOf id (((q.rows.filter p).map (·.id)).map fun i => Event.requeued i now) =
      match q.get? id with
      | some row => if p row then [.requeued id now] else []
      | none => [] := by
  have hnodup : ((q.rows.filter p).map (·.id)).Nodup :=
    q.nodup.sublist (List.filter_sublist.map _)
  have hfilter : logOf id (((q.rows.filter p).map (·.id)).map fun i => Event.requeued i now) =
      (List.replicate (((q.rows.filter p).map (·.id)).count id) id).map
        fun i => Event.requeued i now := by
    rw [logOf, List.filter_map, ← List.filter_eq]
    rfl
  rw [hfilter]
  have hmem : id ∈ (q.rows.filter p).map (·.id) ↔ ∃ row, q.get? id = some row ∧ p row = true := by
    simp only [List.mem_map, List.mem_filter]
    constructor
    · rintro ⟨row, ⟨hrow, hp⟩, rfl⟩
      exact ⟨row, Table.get?_of_mem hrow, hp⟩
    · rintro ⟨row, hget, hp⟩
      exact ⟨row, ⟨Table.mem_of_get? hget, hp⟩, Table.key_of_get? hget⟩
  by_cases hin : id ∈ (q.rows.filter p).map (·.id)
  · obtain ⟨row, hget, hp⟩ := hmem.mp hin
    rw [List.count_eq_one_of_mem hnodup hin, hget]
    simp [hp]
  · rw [List.count_eq_zero_of_not_mem hin]
    cases hget : q.get? id with
    | none => rfl
    | some row =>
        have hp : p row = false := by
          by_contra hne
          exact hin (hmem.mpr ⟨row, hget, by simpa using hne⟩)
        simp [hp]

private theorem RequestStep.rowChange (h : RequestStep w a w') (id : String) :
    RowChange env w a w' id := by
  cases h with
  | duplicate | left | missing | removing | objectRemoved | removeFailed =>
      exact .kept rfl .nothing rfl
  | @inserted _ input now config _ hcaller hnone =>
      by_cases hid : input.id = id
      · subst hid
        refine .inserted hcaller rfl rfl hnone ?_ ?_
        · simp [Table.get?_insertOrIgnore, hnone, newRow]
        · simp [logOf, Event.concerns]
      · refine .kept ?_ .nothing ?_
        · simp [Table.get?_insertOrIgnore, newRow, hid]
        · simp [logOf, Event.concerns, hid]
  | @requeued i now row hrow hstatus =>
      by_cases hid : i = id
      · subst hid
        refine .requeued hrow hstatus (Or.inl rfl) ?_ ?_
        · simp [Table.get?_updateWhere, hrow, Table.key_of_get? hrow, hstatus]
        · simp [logOf, Event.concerns]
      · refine .kept ?_ .nothing ?_
        · rw [armNoLaterThan_inbox]
          refine Table.get?_updateWhere_of_not (fun _ => by rfl) fun r hget => ?_
          simp [Table.key_ne_of_get? hget hid]
        · simp [logOf, Event.concerns, hid]
  | @requeuedAll status now =>
      have hinbox := retryAll_inbox w.queue status now
      have hlog : logOf id (w.retryAll status now).history =
          (match w.queue.inbox.get? id with
            | some row => if row.status = status.toStatus then [.requeued id now] else []
            | none => []) ++ logOf id w.history := by
        simp only [World.retryAll, logOf_append, logOf_requeuedAll]
        simp
      cases hget : w.queue.inbox.get? id with
      | none =>
          refine .kept ?_ .nothing ?_
          · simp only [World.retryAll, hinbox, Table.get?_updateWhere, hget, Option.map_none]
          · simpa [hget] using hlog
      | some row =>
          by_cases hstatus : row.status = status.toStatus
          · have hne : row.status ≠ .pending := hstatus ▸ status.toStatus_ne_pending
            have hnd : row.status ≠ .delivered := hstatus ▸ status.toStatus_ne_delivered
            refine .requeued hget hne (Or.inr hnd) ?_ ?_
            · simp [World.retryAll, hinbox, Table.get?_updateWhere, hget, hstatus]
            · have hlog' : logOf id (w.retryAll status now).history =
                  [.requeued id now] ++ logOf id w.history := by simpa [hget, hstatus] using hlog
              exact hlog'
          · refine .kept ?_ .nothing ?_
            · simp [World.retryAll, hinbox, Table.get?_updateWhere, hget, hstatus]
            · simpa [hget, hstatus] using hlog
  | @removed call r hr hdeleted =>
      by_cases hid : r.id = id
      · subst hid
        refine .removed hr rfl ?_ (by simp [logOf, Event.concerns])
        refine Table.get?_deleteWhere_of_all fun row hget => ?_
        simp [Table.key_of_get? hget]
      · refine .kept ?_ .nothing (by simp [logOf, Event.concerns, hid])
        refine Table.get?_deleteWhere_of_not fun row hget => ?_
        simp [Table.key_ne_of_get? hget hid]

private theorem PassStep.rowChange (h : PassStep env w a w') (id : String) :
    RowChange env w a w' id := by
  cases h with
  | loopEnd | loopNext | read | responded | nothingExpired | purging | objectPurged | purgeFailed
  | ended | endedFailed => exact .kept rfl .nothing rfl
  | idle hpass | configFailed hpass | started hpass => exact .kept rfl (.begun hpass) rfl
  | @posted p row due config body now request hpass hstage =>
      by_cases hid : row.id = id
      · subst hid
        exact .kept rfl (.posted hpass hstage rfl rfl) (by simp [logOf, Event.concerns]; rfl)
      · exact .kept rfl .nothing (by simp [logOf, Event.concerns, hid])
  | @threw p row due config object ok now hpass hstage hcause =>
      by_cases hid : row.id = id
      · subst hid
        exact .kept rfl (.threw hpass hstage rfl rfl rfl hcause)
          (by simp [logOf, Event.concerns])
      · exact .kept rfl .nothing (by simp [logOf, Event.concerns, hid])
  | @settled _ p row due config verdict status error threadId now delay hpass hsettling hdelay =>
      by_cases hid : row.id = id
      · subst hid
        have happlied := any_isPendingId w.queue.inbox row.id
        by_cases hpending : ∃ r, w.queue.inbox.get? row.id = some r ∧ r.status = .pending
        · obtain ⟨r, hget, hr⟩ := hpending
          refine @RowChange.settled env w a _ row.id p r row due config verdict status error
            threadId delay hpass hsettling rfl hdelay hget hr ?_ ?_
          · simp [Table.get?_updateWhere, hget, InboxRow.isPendingId, Table.key_of_get? hget, hr]
          · simp [logOf, Event.concerns, happlied.mpr ⟨r, hget, hr⟩]
        · have hnone : w.queue.inbox.rows.any (InboxRow.isPendingId row.id) = false := by
            rw [← Bool.not_eq_true, happlied]
            exact hpending
          have hrow : ∀ r, w.queue.inbox.get? row.id = some r → r.status ≠ .pending :=
            fun r hget hr => hpending ⟨r, hget, hr⟩
          refine .kept ?_ (.missed hpass hsettling rfl hrow)
            (by simp [logOf, Event.concerns, hnone])
          refine Table.get?_updateWhere_of_not (fun _ => by rfl) fun r hget => ?_
          simp [InboxRow.isPendingId, hrow r hget]
      · refine .kept ?_ .nothing (by simp [logOf, Event.concerns, hid])
        refine Table.get?_updateWhere_of_not (fun _ => by rfl) fun r hget => ?_
        simp [InboxRow.isPendingId, Table.key_ne_of_get? hget hid]
  | @purged p expired hpass hstage =>
      cases hget : w.queue.inbox.get? id with
      | none =>
          refine .kept ?_ .nothing rfl
          simp [get?_purgeRows, hget, Option.filter]
      | some r =>
          by_cases hsel : ((expired.any fun e => r.id = e.id) && r.purgeAt.isSome) = true
          · obtain ⟨⟨e, hmem, hid⟩, hpurge⟩ : (∃ e ∈ expired, r.id = e.id) ∧ r.purgeAt.isSome := by
              simpa using hsel
            have hkey : e.id = id := hid.symm.trans (Table.key_of_get? hget)
            refine .purged hpass hstage hmem hkey hget hpurge ?_ rfl
            simp only [get?_purgeRows, hget, Option.filter, hsel]
            rfl
          · refine .kept ?_ .nothing rfl
            simp only [get?_purgeRows, hget, Option.filter, hsel]
            rfl

private theorem EmailStep.logOf (h : EmailStep env w a w') (id : String) :
    logOf id w'.history = logOf id w.history := by
  cases h <;> rfl

/-- **The six things that can happen to a row.** -/
theorem Step.rowChange (h : Step env w a w') (id : String) : RowChange env w a w' id := by
  cases h with
  | email h => exact .kept (by rw [h.queue]) .nothing (h.logOf id)
  | request h => exact h.rowChange id
  | pass h => exact h.rowChange id
  | crash ha hw => exact .kept (by rw [hw]) .nothing (by rw [hw]; rfl)

/-- Where a row comes from that is under `id` after a step. -/
inductive RowFrom (w : World) (a : Action) (w' : World) (id : String) : InboxRow → Prop
  | kept {row : InboxRow} (hold : w.queue.inbox.get? id = some row) : RowFrom w a w' id row
  | inserted {input : EnqueueInput} {now : Nat} {config : Option LoadedConfig}
      {emails : String → Option Email} (hcaller : Caller w a input now config emails)
      (hid : input.id = id) (hclock : w'.clock = now)
      (hlog : logOf id w'.history =
        [.enqueued id (now + deliveryDelayMs config)] ++ logOf id w.history) :
      RowFrom w a w' id (newRow input (now + deliveryDelayMs config))
  | requeued {old : InboxRow} (hold : w.queue.inbox.get? id = some old)
      (hcall : a = .retry id w'.clock ∨ old.status ≠ .delivered) :
      RowFrom w a w' id (old.requeue w'.clock)
  | settled {p : Pass} {old snapshot : InboxRow} {due : List InboxRow} {config : LoadedConfig}
      {verdict : Verdict} {status : Option Nat} {error : Option Units} {threadId : Option ℚ}
      {delay : Nat} (hpass : w.pass = some p)
      (hsettling : Settling p.stage a snapshot due config verdict status w'.clock)
      (hdelay : 1000 ≤ delay) (hold : w.queue.inbox.get? id = some old)
      (hpending : old.status = .pending)
      (hlog : logOf id w'.history =
        [.settled id (snapshot.attempts + 1) (outcomeOf config (snapshot.attempts + 1) verdict)
          status true] ++ logOf id w.history) :
      RowFrom w a w' id ((settlementOf config (snapshot.attempts + 1) verdict status error threadId
        w'.clock delay).apply old)

theorem Step.rowFrom (hs : Step env w a w') {id : String} {row : InboxRow}
    (hrow : w'.queue.inbox.get? id = some row) : RowFrom w a w' id row := by
  cases hs.rowChange id with
  | kept hkept => exact .kept (hkept ▸ hrow)
  | inserted hcaller hid hclock _ hsome hlog =>
      rw [hsome] at hrow
      cases hrow
      exact .inserted hcaller hid hclock hlog
  | requeued hold _ hcall hsome =>
      rw [hsome] at hrow
      cases hrow
      exact .requeued hold hcall
  | settled hpass hsettling _ hdelay hold hpending hsome hlog =>
      rw [hsome] at hrow
      cases hrow
      exact .settled hpass hsettling hdelay hold hpending hlog
  | removed _ _ hnone | purged _ _ _ _ _ _ hnone =>
      rw [hnone] at hrow
      cases hrow

/-- What a step has done that logs an attempt on the row under `id` as settled. -/
inductive SettleChange (w : World) (a : Action) (w' : World) (id : String) (attempt : Nat) :
    Bool → Prop
  | missed (hrow : ∀ r, w.queue.inbox.get? id = some r → r.status ≠ .pending) :
      SettleChange w a w' id attempt false
  | applied {p : Pass} {row snapshot : InboxRow} {due : List InboxRow} {config : LoadedConfig}
      {verdict : Verdict} {status : Option Nat} {error : Option Units} {threadId : Option ℚ}
      {delay : Nat} (hpass : w.pass = some p)
      (hsettling : Settling p.stage a snapshot due config verdict status w'.clock)
      (hid : snapshot.id = id) (hattempt : snapshot.attempts + 1 = attempt) (hdelay : 1000 ≤ delay)
      (hrow : w.queue.inbox.get? id = some row)
      (hsome : w'.queue.inbox.get? id =
        some ((settlementOf config attempt verdict status error threadId w'.clock delay).apply
          row)) : SettleChange w a w' id attempt true

theorem Step.settleChange (hs : Step env w a w') {id : String} {attempt : Nat} {outcome : Verdict}
    {status : Option Nat} {applied : Bool}
    (hlog : w'.history = .settled id attempt outcome status applied :: w.history) :
    SettleChange w a w' id attempt applied := by
  have hrowlog : logOf id w'.history =
      [.settled id attempt outcome status applied] ++ logOf id w.history := by
    simp [hlog, MailCloudflare.logOf, Event.concerns]
  cases hs.rowChange id with
  | kept _ hquiet hlog' =>
      rw [hlog'] at hrowlog
      cases List.append_cancel_right hrowlog
      cases hquiet with
      | missed _ _ _ hrow => exact .missed hrow
  | inserted _ _ _ _ _ hlog' | requeued _ _ _ _ hlog' | removed _ _ _ hlog' =>
      rw [hlog'] at hrowlog
      cases List.append_cancel_right hrowlog
  | purged _ _ _ _ _ _ _ hlog' => simp [hlog'] at hrowlog
  | settled hpass hsettling hid hdelay hrow _ hsome hlog' =>
      rw [hlog'] at hrowlog
      cases List.append_cancel_right hrowlog
      exact .applied hpass hsettling hid rfl hdelay hrow hsome

end MailCloudflare
