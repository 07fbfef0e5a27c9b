/-
What one step can do, said once.

`step` is computed by following the code: each action looks at where its method is
waiting and at what the platform answered.  Here the same steps are listed with the state
they lead to, one rule for each way through an action, in four groups: the `email()`
handler, the requests to the queue, the alarm pass, and a crash.  A group leaves most of
the state alone, and which part is said beside it, so an invariant is proved by looking at
the groups that can touch it and at one rule at a time there.

`step_cases` says that the list is complete.
-/
import MailCloudflare.Proofs.Queue
import MailCloudflare.Worker.Step

namespace MailCloudflare

open Unicode Keyed

attribute [simp] World.log World.toStage World.setEmail World.setRemoval World.setObject

/-! ### The `email()` handler -/

/-- The steps of `email()` around its call to the queue. -/
inductive EmailStep (env : Worker) (w : World) : Action → World → Prop
  | rejected {id : String} {m : EmailMessage} {receivedAt : Nat} :
      EmailStep env w (.email id m receivedAt) { w with history := .rejected id :: w.history }
  /-- The headers or the metadata could not be encoded. -/
  | refused {id : String} {m : EmailMessage} {receivedAt : Nat} :
      EmailStep env w (.email id m receivedAt)
        { w with history := .failed id :: .minted id :: w.history }
  | minted {id : String} {m : EmailMessage} {receivedAt : Nat} {e : Email}
      (hfree : w.emails id = none) (hid : e.input.id = id) (hkey : e.input.r2Key = env.r2Key id)
      (hstage : e.stage = .putting) :
      EmailStep env w (.email id m receivedAt)
        { w with
          emails := Function.update w.emails id (some e), history := .minted id :: w.history }
  | put {id : String} {e : Email} {wrote : Bool} (he : w.emails id = some e)
      (hstage : e.stage = .putting) :
      EmailStep env w (.putReturn id true wrote)
        { w with
          bucket := Function.update w.bucket e.input.r2Key (some e.stored)
          emails := Function.update w.emails id (some { e with stage := .stored }) }
  /-- The put threw, and R2 may have carried it out. -/
  | putFailed {id : String} {e : Email} {wrote : Bool} {bucket : String → Option Bytes}
      (he : w.emails id = some e) (hstage : e.stage = .putting)
      (hbucket : bucket = w.bucket ∨
        bucket = Function.update w.bucket e.input.r2Key (some e.stored)) :
      EmailStep env w (.putReturn id false wrote)
        { w with
          bucket := bucket
          emails := Function.update w.emails id none
          history := .failed id :: w.history }
  | accepted {id : String} {e : Email} (he : w.emails id = some e) (hstage : e.stage = .queued) :
      EmailStep env w (.emailReturn id true)
        { w with
          emails := Function.update w.emails id none
          history := .accepted id e.stored :: w.history }
  | failed {id : String} {e : Email} (he : w.emails id = some e) (hstage : e.stage ≠ .putting) :
      EmailStep env w (.emailReturn id false)
        { w with
          emails := Function.update w.emails id none, history := .failed id :: w.history }

/-! ### Requests to the queue -/

/-- Who calls `enqueue`: the handler, whose invocation moves on, or anybody else. -/
inductive Caller (w : World) : Action → EnqueueInput → Nat → Option LoadedConfig →
    (String → Option Email) → Prop
  | direct {input : EnqueueInput} {now : Nat} {config : Option LoadedConfig} :
      Caller w (.enqueue input now config) input now config w.emails
  | email {id : String} {e : Email} {now : Nat} {config : Option LoadedConfig}
      (he : w.emails id = some e) (hstage : e.stage = .stored) :
      Caller w (.emailEnqueue id now config) e.input now config
        (Function.update w.emails id (some { e with stage := .queued }))

inductive RequestStep (w : World) : Action → World → Prop
  /-- `INSERT OR IGNORE` found a row under the id. -/
  | duplicate {a : Action} {input : EnqueueInput} {now : Nat} {config : Option LoadedConfig}
      {emails : String → Option Email} (hcaller : Caller w a input now config emails)
      {row : InboxRow} (hrow : w.queue.inbox.get? input.id = some row) :
      RequestStep w a { w with emails := emails, clock := now }
  | inserted {a : Action} {input : EnqueueInput} {now : Nat} {config : Option LoadedConfig}
      {emails : String → Option Email} (hcaller : Caller w a input now config emails)
      (hnone : w.queue.inbox.get? input.id = none) :
      RequestStep w a
        { w with
          queue := armNoLaterThan
            { w.queue with
              inbox :=
                w.queue.inbox.insertOrIgnore (newRow input (now + deliveryDelayMs config)) }
            (now + deliveryDelayMs config)
          emails := emails
          clock := now
          history := .enqueued input.id (now + deliveryDelayMs config) :: w.history }
  | requeued {id : String} {now : Nat} {row : InboxRow} (hrow : w.queue.inbox.get? id = some row)
      (hstatus : row.status ≠ .pending) :
      RequestStep w (.retry id now)
        { w with
          queue := armNoLaterThan
            { w.queue with
              inbox := w.queue.inbox.updateWhere (fun r => r.id = id && r.status ≠ .pending)
                (InboxRow.requeue now) (InboxRow.requeue_id now) }
            now
          clock := now
          history := .requeued id now :: w.history }
  /-- There is no such row, or it is pending. -/
  | left {id : String} {now : Nat} : RequestStep w (.retry id now) { w with clock := now }
  | requeuedAll {status : RetryableStatus} {now : Nat} :
      RequestStep w (.retryAll status now) (w.retryAll status now)
  | missing {call : Nat} {id : String} :
      RequestStep w (.remove call id) { w with history := .removeCalled id :: w.history }
  | removing {call : Nat} {id : String} {row : InboxRow}
      (hrow : w.queue.inbox.get? id = some row) :
      RequestStep w (.remove call id)
        { w with
          removals := Function.update w.removals call (some ⟨id, row.r2Key, false⟩)
          history := .removeCalled id :: w.history }
  | objectRemoved {call : Nat} {r : Removal} (hr : w.removals call = some r) :
      RequestStep w (.removeObject call)
        { w with
          bucket := Function.update w.bucket r.r2Key none
          removals := Function.update w.removals call (some { r with deleted := true }) }
  | removed {call : Nat} {r : Removal} (hr : w.removals call = some r)
      (hdeleted : r.deleted = true) :
      RequestStep w (.removeReturn call true)
        { w with
          queue := removeRow w.queue r.id
          removals := Function.update w.removals call none
          history := .removed r.id :: w.history }
  | removeFailed {call : Nat} {r : Removal} (hr : w.removals call = some r) :
      RequestStep w (.removeReturn call false)
        { w with removals := Function.update w.removals call none }

/-! ### The alarm pass -/

/--
How an attempt on `row` comes to be settled: the object is missing, there is no response,
or there is one.
-/
inductive Settling : PassStage → Action → InboxRow → List InboxRow → LoadedConfig → Verdict →
    Option Nat → Nat → Prop
  | missing {row : InboxRow} {due : List InboxRow} {config : LoadedConfig} {now : Nat} :
      Settling (.got row due config none) (.getReturn true now) row due config .dead none now
  | unanswered {row : InboxRow} {due : List InboxRow} {config : LoadedConfig} {message : Units}
      {now : Nat} :
      Settling (.posting row due config) (.fetched (.failed message) now) row due config .retry
        none now
  | answered {row : InboxRow} {due : List InboxRow} {config : LoadedConfig} {status : Nat}
      {body : Option Units} {now : Nat} :
      Settling (.answering row due config status) (.answered body now) row due config
        (classifyStatus status).toVerdict (some status) now

inductive PassStep (env : Worker) (w : World) : Action → World → Prop
  | idle {now : Nat} {config : Option LoadedConfig} (hpass : w.pass = none)
      (hdue : dueRows w.queue.inbox now = []) :
      PassStep env w (.alarm now config)
        { w with
          queue := { w.queue with alarm := none }
          pass := some ⟨now, [], true, .purging⟩
          clock := now
          history := .passStarted now :: w.history }
  | configFailed {now : Nat} (hpass : w.pass = none) :
      PassStep env w (.alarm now none)
        { w with
          queue := { w.queue with alarm := none }
          pass := some ⟨now, dueRows w.queue.inbox now, false, .purging⟩
          clock := now
          history := .configFailed :: .passStarted now :: w.history }
  | started {now : Nat} {config : LoadedConfig} (hpass : w.pass = none) :
      PassStep env w (.alarm now (some config))
        { w with
          queue := { w.queue with alarm := none }
          pass := some ⟨now, dueRows w.queue.inbox now, true,
            .delivering (dueRows w.queue.inbox now) config⟩
          clock := now
          history := .passStarted now :: w.history }
  | loopEnd {p : Pass} {config : LoadedConfig} (hpass : w.pass = some p)
      (hstage : p.stage = .delivering [] config) :
      PassStep env w .deliverNext { w with pass := some { p with stage := .purging } }
  | loopNext {p : Pass} {row : InboxRow} {due : List InboxRow} {config : LoadedConfig}
      (hpass : w.pass = some p) (hstage : p.stage = .delivering (row :: due) config) :
      PassStep env w .deliverNext { w with pass := some { p with stage := .getting row due config } }
  | read {p : Pass} {row : InboxRow} {due : List InboxRow} {config : LoadedConfig}
      (hpass : w.pass = some p) (hstage : p.stage = .getting row due config) :
      PassStep env w .getObject
        { w with pass := some { p with stage := .got row due config (w.bucket row.r2Key) } }
  /-- The get, the body or the signing threw, or the request could not be built. -/
  | threw {p : Pass} {row : InboxRow} {due : List InboxRow} {config : LoadedConfig}
      {object : Option Bytes} {ok : Bool} {now : Nat} (hpass : w.pass = some p)
      (hstage : p.stage = .got row due config object)
      (hcause : ok = false ∨
        ∃ body, object = some body ∧
          deliveryRequest env config row (row.attempts + 1) body now = none) :
      PassStep env w (.getReturn ok now)
        { w with
          pass := some { p with stage := .delivering due config }
          clock := now
          history := .threw row.id :: w.history }
  | posted {p : Pass} {row : InboxRow} {due : List InboxRow} {config : LoadedConfig}
      {body : Bytes} {now : Nat} {request : Request} (hpass : w.pass = some p)
      (hstage : p.stage = .got row due config (some body))
      (hrequest : deliveryRequest env config row (row.attempts + 1) body now = some request) :
      PassStep env w (.getReturn true now)
        { w with
          pass := some { p with stage := .posting row due config }
          clock := now
          history := .posted row.id (row.attempts + 1) request :: w.history }
  | responded {p : Pass} {row : InboxRow} {due : List InboxRow} {config : LoadedConfig}
      {status now : Nat} (hpass : w.pass = some p)
      (hstage : p.stage = .posting row due config) :
      PassStep env w (.fetched (.response status) now)
        { w with
          pass := some { p with stage := .answering row due config status }, clock := now }
  | settled {a : Action} {p : Pass} {row : InboxRow} {due : List InboxRow} {config : LoadedConfig}
      {verdict : Verdict} {status : Option Nat} {error : Option Units} {threadId : Option ℚ}
      {now delay : Nat} (hpass : w.pass = some p)
      (hsettling : Settling p.stage a row due config verdict status now) (hdelay : 1000 ≤ delay) :
      PassStep env w a
        { w with
          queue :=
            { w.queue with
              inbox := w.queue.inbox.updateWhere (InboxRow.isPendingId row.id)
                (settlementOf config (row.attempts + 1) verdict status error threadId now
                  delay).apply
                (Settlement.apply_id _) }
          pass := some { p with stage := .delivering due config }
          clock := now
          history := .settled row.id (row.attempts + 1)
            (outcomeOf config (row.attempts + 1) verdict) status
            (w.queue.inbox.rows.any (InboxRow.isPendingId row.id)) :: w.history }
  | nothingExpired {p : Pass} {now : Nat} (hpass : w.pass = some p) (hstage : p.stage = .purging) :
      PassStep env w (.purgeExpired now)
        { w with pass := some { p with stage := .rearming }, clock := now }
  | purging {p : Pass} {now : Nat} (hpass : w.pass = some p) (hstage : p.stage = .purging) :
      PassStep env w (.purgeExpired now)
        { w with
          pass := some { p with
            stage := .deleting (expiredRows w.queue.inbox now)
              ((expiredRows w.queue.inbox now).map (·.r2Key)) }
          clock := now }
  | objectPurged {p : Pass} {key : String} {expired : List InboxRow} {left : List String}
      (hpass : w.pass = some p) (hstage : p.stage = .deleting expired left) (hkey : key ∈ left) :
      PassStep env w (.purgeObject key)
        { w with
          bucket := Function.update w.bucket key none
          pass := some { p with stage := .deleting expired (left.filter (· ≠ key)) } }
  | purged {p : Pass} {expired : List InboxRow} (hpass : w.pass = some p)
      (hstage : p.stage = .deleting expired []) :
      PassStep env w (.purgeReturn true)
        { w with
          queue := { w.queue with inbox := purgeRows w.queue.inbox expired }
          pass := some { p with stage := .rearming } }
  | purgeFailed {p : Pass} {expired : List InboxRow} {left : List String}
      (hpass : w.pass = some p) (hstage : p.stage = .deleting expired left) :
      PassStep env w (.purgeReturn false)
        { w with
          pass := some { p with healthy := false, stage := .rearming }
          history := .purgeFailed :: w.history }
  | ended {p : Pass} {now : Nat} (hpass : w.pass = some p) (hstage : p.stage = .rearming)
      (hhealthy : p.healthy = true) :
      PassStep env w (.rearm now)
        { w with
          queue := rearm w.queue
          pass := none
          clock := now
          history := .passEnded now true :: w.history }
  | endedFailed {p : Pass} {now : Nat} (hpass : w.pass = some p) (hstage : p.stage = .rearming)
      (hhealthy : p.healthy = false) :
      PassStep env w (.rearm now)
        { w with
          queue := { w.queue with alarm := some (now + ALARM_RETRY_MS) }
          pass := none
          clock := now
          history := .passEnded now false :: w.history }

/-! ### The list is complete -/

section Cases

variable {env : Worker} {w w' : World}

private theorem email_step {id : String} {m : EmailMessage} {receivedAt : Nat}
    (h : w.email env id m receivedAt = some w') : EmailStep env w (.email id m receivedAt) w' := by
  unfold World.email at h
  split at h
  · cases h
  · rename_i hfree
    split at h
    · cases h
      exact .rejected
    · split at h
      · cases h
        exact .minted (by simpa using hfree) rfl rfl rfl
      · cases h
        exact .refused

private theorem putReturn_step {id : String} {ok wrote : Bool}
    (h : w.putReturn id ok wrote = some w') : EmailStep env w (.putReturn id ok wrote) w' := by
  unfold World.putReturn at h
  split at h
  · rename_i e he
    split at h
    · rename_i hstage
      cases ok with
      | true =>
          cases h
          exact .put he hstage
      | false =>
          cases wrote with
          | true =>
              cases h
              exact .putFailed he hstage (Or.inr rfl)
          | false =>
              cases h
              exact .putFailed he hstage (Or.inl rfl)
    · cases h
  · cases h

private theorem emailReturn_step {id : String} {ok : Bool}
    (h : w.emailReturn id ok = some w') : EmailStep env w (.emailReturn id ok) w' := by
  unfold World.emailReturn at h
  split at h
  · rename_i e he
    cases ok with
    | true =>
        simp only [if_true] at h
        split at h
        · rename_i hstage
          cases h
          exact .accepted he hstage
        · cases h
    | false =>
        simp only [Bool.false_eq_true, if_false] at h
        split at h
        · cases h
        · rename_i hstage
          cases h
          exact .failed he hstage
  · cases h

private theorem enqueue_step {a : Action} {input : EnqueueInput} {now : Nat}
    {config : Option LoadedConfig} {emails : String → Option Email}
    (hcaller : Caller w a input now config emails) :
    RequestStep w a { w.enqueue input now config with emails := emails } := by
  cases hget : w.queue.inbox.get? input.id with
  | some row =>
      have hdup : w.enqueue input now config = { w with clock := now } := by
        simp [World.enqueue, enqueue_of_isSome, hget]
      rw [hdup]
      exact .duplicate hcaller hget
  | none =>
      simp only [World.enqueue, enqueue_of_none hget]
      exact .inserted hcaller hget

theorem retry_step {id : String} {now : Nat} :
    RequestStep w (.retry id now) (w.retry id now) := by
  unfold World.retry
  cases hget : w.queue.inbox.get? id with
  | none =>
      simp only [retry_of_none hget]
      exact .left
  | some row =>
      by_cases hstatus : row.status = .pending
      · simp only [retry_of_pending hget hstatus]
        exact .left
      · simp only [retry_of_parked hget hstatus]
        exact .requeued hget hstatus

private theorem remove_step {call : Nat} {id : String} (h : w.remove call id = some w') :
    RequestStep w (.remove call id) w' := by
  unfold World.remove at h
  split at h
  · cases h
  · split at h
    · cases h
      exact .missing
    · rename_i row hrow
      cases h
      exact .removing hrow

private theorem removeReturn_step {call : Nat} {ok : Bool}
    (h : w.removeReturn call ok = some w') : RequestStep w (.removeReturn call ok) w' := by
  unfold World.removeReturn at h
  split at h
  · rename_i r hr
    cases ok with
    | true =>
        simp only [if_true] at h
        split at h
        · rename_i hdeleted
          cases h
          exact .removed hr hdeleted
        · cases h
    | false =>
        cases h
        exact .removeFailed hr
  · cases h

private theorem alarm_step {now : Nat} {config : Option LoadedConfig}
    (h : w.alarm now config = some w') : PassStep env w (.alarm now config) w' := by
  unfold World.alarm at h
  split at h
  · cases h
  · rename_i hpass
    have hnone : w.pass = none := by simpa using hpass
    cases hdue : dueRows w.queue.inbox now with
    | nil =>
        simp only [hdue] at h
        cases h
        exact .idle hnone hdue
    | cons row due =>
        cases config with
        | none =>
            simp only [hdue] at h
            cases h
            rw [← hdue]
            exact .configFailed hnone
        | some config =>
            simp only [hdue] at h
            cases h
            rw [← hdue]
            exact .started hnone

/-- Every way a settled attempt can end is the rule `settled`: settling does not raise. -/
private theorem settleAttempt_step {a : Action} {p : Pass} {row : InboxRow} {due : List InboxRow}
    {config : LoadedConfig} {verdict : Verdict} {status : Option Nat} {error : Option Units}
    {threadId : Option ℚ} {now : Nat} (hpass : w.pass = some p)
    (hsettling : Settling p.stage a row due config verdict status now) :
    PassStep env w a
      (w.settleAttempt p row due config verdict status error threadId now) := by
  obtain ⟨delay, hdelay, hsettle⟩ := settle_eq w.queue.inbox row.id config (row.attempts + 1)
    verdict status error threadId now
  simp only [World.settleAttempt, hsettle]
  exact .settled hpass hsettling hdelay

private theorem getReturn_step {ok : Bool} {now : Nat} (h : w.getReturn env ok now = some w') :
    PassStep env w (.getReturn ok now) w' := by
  unfold World.getReturn at h
  split at h
  · rename_i p hpass
    split at h
    · rename_i row due config object hstage
      cases ok with
      | false =>
          cases h
          exact .threw hpass hstage (Or.inl rfl)
      | true =>
          cases object with
          | none =>
              cases h
              exact settleAttempt_step hpass (hstage ▸ .missing)
          | some body =>
              cases hreq : deliveryRequest env config row (row.attempts + 1) body now with
              | none =>
                  simp only [hreq] at h
                  cases h
                  exact .threw hpass hstage (Or.inr ⟨body, rfl, hreq⟩)
              | some request =>
                  simp only [hreq] at h
                  cases h
                  exact .posted hpass hstage hreq
    · cases h
  · cases h

private theorem fetched_step {result : FetchResult} {now : Nat}
    (h : w.fetched result now = some w') : PassStep env w (.fetched result now) w' := by
  unfold World.fetched at h
  split at h
  · rename_i p hpass
    split at h
    · rename_i row due config hstage
      cases result with
      | failed message =>
          cases h
          exact settleAttempt_step hpass (hstage ▸ .unanswered)
      | response status =>
          cases h
          exact .responded hpass hstage
    · cases h
  · cases h

private theorem answered_step {body : Option Units} {now : Nat}
    (h : w.answered env body now = some w') : PassStep env w (.answered body now) w' := by
  unfold World.answered at h
  split at h
  · rename_i p hpass
    split at h
    · rename_i row due config status hstage
      dsimp only at h
      split at h
      · cases h
        exact settleAttempt_step hpass (hstage ▸ .answered)
      · cases h
        exact settleAttempt_step hpass (hstage ▸ .answered)
    · cases h
  · cases h

private theorem deliverNext_step (h : w.deliverNext = some w') : PassStep env w .deliverNext w' := by
  unfold World.deliverNext at h
  split at h
  · rename_i p hpass
    split at h
    · rename_i config hstage
      cases h
      exact .loopEnd hpass hstage
    · rename_i row due config hstage
      cases h
      exact .loopNext hpass hstage
    · cases h
  · cases h

private theorem getObject_step (h : w.getObject = some w') : PassStep env w .getObject w' := by
  unfold World.getObject at h
  split at h
  · rename_i p hpass
    split at h
    · rename_i row due config hstage
      cases h
      exact .read hpass hstage
    · cases h
  · cases h

private theorem purgeExpired_step {now : Nat} (h : w.purgeExpired now = some w') :
    PassStep env w (.purgeExpired now) w' := by
  unfold World.purgeExpired at h
  split at h
  · rename_i p hpass
    split at h
    · rename_i hstage
      cases hexp : expiredRows w.queue.inbox now with
      | nil =>
          simp only [hexp] at h
          cases h
          exact .nothingExpired hpass hstage
      | cons row rest =>
          simp only [hexp] at h
          cases h
          rw [← hexp]
          exact .purging hpass hstage
    · cases h
  · cases h

private theorem purgeObject_step {key : String} (h : w.purgeObject key = some w') :
    PassStep env w (.purgeObject key) w' := by
  unfold World.purgeObject at h
  split at h
  · rename_i p hpass
    split at h
    · rename_i expired left hstage
      split at h
      · rename_i hkey
        cases h
        exact .objectPurged hpass hstage hkey
      · cases h
    · cases h
  · cases h

private theorem purgeReturn_step {ok : Bool} (h : w.purgeReturn ok = some w') :
    PassStep env w (.purgeReturn ok) w' := by
  unfold World.purgeReturn at h
  split at h
  · rename_i p hpass
    split at h
    · rename_i expired left hstage
      cases ok with
      | false =>
          cases h
          exact .purgeFailed (p := p) hpass hstage
      | true =>
          simp only [if_true] at h
          split at h
          · rename_i hleft
            cases h
            exact .purged hpass (hleft ▸ hstage)
          · cases h
    · cases h
  · cases h

private theorem rearm_step {now : Nat} (h : w.rearm now = some w') :
    PassStep env w (.rearm now) w' := by
  unfold World.rearm at h
  split at h
  · rename_i p hpass
    split at h
    · rename_i hstage
      cases hhealthy : p.healthy with
      | true =>
          simp only [hhealthy] at h
          cases h
          exact .ended hpass hstage hhealthy
      | false =>
          simp only [hhealthy] at h
          cases h
          exact .endedFailed hpass hstage hhealthy
    · cases h
  · cases h

/-- One step of the Worker, by the part of it that moves. -/
inductive Step (env : Worker) (w : World) (a : Action) (w' : World) : Prop
  | email (h : EmailStep env w a w')
  | request (h : RequestStep w a w')
  | pass (h : PassStep env w a w')
  | crash (ha : a = .crash) (hw : w' = { w with pass := none, removals := fun _ => none })

/-- **A computed step is one of the listed ones.** -/
theorem step_cases {a : Action} (h : step env w a = some w') : Step env w a w' := by
  cases a with
  | email id m receivedAt => exact .email (email_step h)
  | putReturn id ok wrote => exact .email (putReturn_step h)
  | emailReturn id ok => exact .email (emailReturn_step h)
  | emailEnqueue id now config =>
      simp only [step, World.emailEnqueue] at h
      split at h
      · rename_i e he
        split at h
        · rename_i hstage
          cases h
          have hemails : (w.enqueue e.input now config).emails = w.emails := by
            unfold World.enqueue
            split <;> rfl
          rw [World.setEmail, hemails]
          exact .request (enqueue_step (.email he hstage))
        · cases h
      · cases h
  | enqueue input now config =>
      cases h
      have hemails : (w.enqueue input now config).emails = w.emails := by
        unfold World.enqueue
        split <;> rfl
      have hcaller : Caller w (.enqueue input now config) input now config w.emails := .direct
      have hstep := enqueue_step hcaller
      rw [← hemails] at hstep
      exact .request hstep
  | retry id now =>
      cases h
      exact .request retry_step
  | retryAll status now =>
      cases h
      exact .request .requeuedAll
  | remove call id => exact .request (remove_step h)
  | removeObject call =>
      simp only [step, World.removeObject, Option.map_eq_some_iff] at h
      obtain ⟨r, hr, rfl⟩ := h
      exact .request (.objectRemoved hr)
  | removeReturn call ok => exact .request (removeReturn_step h)
  | alarm now config => exact .pass (alarm_step h)
  | deliverNext => exact .pass (deliverNext_step h)
  | getObject => exact .pass (getObject_step h)
  | getReturn ok now => exact .pass (getReturn_step h)
  | fetched result now => exact .pass (fetched_step h)
  | answered body now => exact .pass (answered_step h)
  | purgeExpired now => exact .pass (purgeExpired_step h)
  | purgeObject key => exact .pass (purgeObject_step h)
  | purgeReturn ok => exact .pass (purgeReturn_step h)
  | rearm now => exact .pass (rearm_step h)
  | crash =>
      cases h
      exact .crash rfl rfl

end Cases

end MailCloudflare
