/-
What a step leaves alone, and what it does to the parts of the state one by one.

Each group of steps touches its own part of the state: the handler only its invocations
and the bucket, a request never the pass, a pass never the invocations or the removals.
The log only grows, and `LoggedBy` says for an entry that is new what the step was doing;
`BucketChange` and `DeletingChange` do the same for R2 and for a purge under way.
-/
import MailCloudflare.Proofs.Step

namespace MailCloudflare

open Unicode Keyed

variable {env : Worker} {w w' : World} {a : Action}

/-! ### Frames -/

theorem EmailStep.queue (h : EmailStep env w a w') : w'.queue = w.queue := by
  cases h <;> rfl

theorem EmailStep.removals (h : EmailStep env w a w') : w'.removals = w.removals := by
  cases h <;> rfl

theorem EmailStep.pass (h : EmailStep env w a w') : w'.pass = w.pass := by
  cases h <;> rfl

theorem EmailStep.clock (h : EmailStep env w a w') : w'.clock = w.clock := by
  cases h <;> rfl

theorem RequestStep.pass (h : RequestStep w a w') : w'.pass = w.pass := by
  cases h <;> rfl

theorem PassStep.emails (h : PassStep env w a w') : w'.emails = w.emails := by
  cases h <;> rfl

theorem PassStep.removals (h : PassStep env w a w') : w'.removals = w.removals := by
  cases h <;> rfl

/-! ### The stages of a pass -/

/-- The selected rows a pass has yet to settle, the one at hand first. -/
def PassStage.todo : PassStage → List InboxRow
  | .delivering due _ => due
  | .getting row due _ | .got row due _ _ | .posting row due _ | .answering row due _ _ =>
    row :: due
  | .purging | .deleting _ _ | .rearming => []

/-- The row that has been POSTed and not settled. -/
def PassStage.posted? : PassStage → Option InboxRow
  | .posting row _ _ | .answering row _ _ _ => some row
  | .delivering _ _ | .getting _ _ _ | .got _ _ _ _ | .purging | .deleting _ _ | .rearming => none

/-- The configuration the pass loaded, as long as it is needed. -/
def PassStage.config? : PassStage → Option LoadedConfig
  | .delivering _ config | .getting _ _ config | .got _ _ config _ | .posting _ _ config
  | .answering _ _ config _ => some config
  | .purging | .deleting _ _ | .rearming => none

theorem PassStage.mem_todo_of_got {stage : PassStage} {row : InboxRow} {due : List InboxRow}
    {config : LoadedConfig} {object : Option Bytes} (h : stage = .got row due config object) :
    row ∈ stage.todo := by
  rw [h]
  exact List.mem_cons_self ..

section Settling

variable {stage : PassStage} {row : InboxRow} {due : List InboxRow} {config : LoadedConfig}
  {verdict : Verdict} {status : Option Nat} {now : Nat}

theorem Settling.stage_todo (h : Settling stage a row due config verdict status now) :
    stage.todo = row :: due := by
  cases h <;> rfl

theorem Settling.mem_todo (h : Settling stage a row due config verdict status now) :
    row ∈ stage.todo := by
  rw [h.stage_todo]
  exact List.mem_cons_self ..

theorem Settling.stage_config (h : Settling stage a row due config verdict status now) :
    stage.config? = some config := by
  cases h <;> rfl

/-- Only a 2xx answer is settled as delivered. -/
theorem Settling.delivered (h : Settling stage a row due config verdict status now)
    (hverdict : verdict = .delivered) : ∃ s, status = some s ∧ 200 ≤ s ∧ s < 300 := by
  cases h with
  | missing | unanswered => cases hverdict
  | @answered _ _ _ s _ _ =>
      refine ⟨s, rfl, classifyStatus_delivered ?_⟩
      cases hclass : classifyStatus s <;> simp_all [Outcome.toVerdict]

theorem Settling.ne_rearm (h : Settling stage a row due config verdict status now) (t : Nat) :
    a ≠ .rearm t := by
  cases h <;> simp

theorem Settling.ne_purgeObject (h : Settling stage a row due config verdict status now)
    (key : String) : a ≠ .purgeObject key := by
  cases h <;> simp

end Settling

/-- The last action of a pass. -/
theorem rearm_cases {now : Nat} (h : step env w (.rearm now) = some w') :
    ∃ p, w.pass = some p ∧ p.stage = .rearming ∧
      w' = { w with
        queue := { w.queue with
          alarm :=
            if p.healthy then nextWake w.queue.inbox else some (now + ALARM_RETRY_MS) }
        pass := none
        clock := now
        history := .passEnded now p.healthy :: w.history } := by
  cases step_cases h with
  | email hs => cases hs
  | request hs =>
      cases hs with
      | duplicate hcaller | inserted hcaller => cases hcaller
  | crash ha _ => cases ha
  | pass hs =>
      cases hs with
      | settled _ hsettling => exact absurd rfl (hsettling.ne_rearm now)
      | @ended p _ hpass hstage hhealthy => exact ⟨p, hpass, hstage, by simp [hhealthy, rearm]⟩
      | @endedFailed p _ hpass hstage hhealthy => exact ⟨p, hpass, hstage, by simp [hhealthy]⟩

/-! ### The log -/

theorem EmailStep.history (h : EmailStep env w a w') : ∃ new, w'.history = new ++ w.history := by
  cases h with
  | put => exact ⟨[], rfl⟩
  | refused => exact ⟨[_, _], rfl⟩
  | rejected | minted | putFailed | accepted | failed => exact ⟨[_], rfl⟩

theorem RequestStep.history (h : RequestStep w a w') : ∃ new, w'.history = new ++ w.history := by
  cases h with
  | duplicate | left | objectRemoved | removeFailed => exact ⟨[], rfl⟩
  | requeuedAll => exact ⟨_, rfl⟩
  | inserted | requeued | missing | removing | removed => exact ⟨[_], rfl⟩

theorem PassStep.history (h : PassStep env w a w') : ∃ new, w'.history = new ++ w.history := by
  cases h with
  | loopEnd | loopNext | read | responded | nothingExpired | purging | objectPurged | purged =>
      exact ⟨[], rfl⟩
  | configFailed => exact ⟨[_, _], rfl⟩
  | idle | started | threw | posted | settled | purgeFailed | ended | endedFailed =>
      exact ⟨[_], rfl⟩

/-- The log only grows. -/
theorem Step.history (h : Step env w a w') : ∃ new, w'.history = new ++ w.history := by
  cases h with
  | email h => exact h.history
  | request h => exact h.history
  | pass h => exact h.history
  | crash ha hw => exact ⟨[], by rw [hw]; rfl⟩

/-- What has happened stays so. -/
theorem Step.mem_history (h : Step env w a w') {e : Event} (he : e ∈ w.history) :
    e ∈ w'.history := by
  obtain ⟨new, hnew⟩ := h.history
  rw [hnew]
  exact List.mem_append_right new he

/-- What a step was doing that has logged an event. -/
def LoggedBy (env : Worker) (w : World) (a : Action) (w' : World) : Event → Prop
  | .enqueued id _ => ∃ input now config emails, Caller w a input now config emails ∧
      input.id = id ∧ w'.emails = emails
  | .removed id => ∃ call r, w.removals call = some r ∧ r.id = id
  | .accepted id stored => ∃ e, w.emails id = some e ∧ e.stage = .queued ∧ e.stored = stored ∧
      w'.emails id = none ∧ w'.bucket = w.bucket ∧ w'.queue = w.queue
  | .posted id n request => ∃ row config body now, row.id = id ∧
      deliveryRequest env config row n body now = some request
  | _ => True

theorem EmailStep.logged (h : EmailStep env w a w') {e : Event} (he : e ∈ w'.history) :
    e ∈ w.history ∨ LoggedBy env w a w' e := by
  cases h with
  | put => exact Or.inl he
  | rejected | minted | putFailed | failed =>
      rcases List.mem_cons.mp he with rfl | hold
      · exact Or.inr trivial
      · exact Or.inl hold
  | refused =>
      rcases List.mem_cons.mp he with rfl | he
      · exact Or.inr trivial
      · rcases List.mem_cons.mp he with rfl | hold
        · exact Or.inr trivial
        · exact Or.inl hold
  | @accepted id email hemail hstage =>
      rcases List.mem_cons.mp he with rfl | hold
      · exact Or.inr ⟨email, hemail, hstage, rfl, by simp, rfl, rfl⟩
      · exact Or.inl hold

theorem RequestStep.logged (h : RequestStep w a w') {e : Event} (he : e ∈ w'.history) :
    e ∈ w.history ∨ LoggedBy env w a w' e := by
  cases h with
  | duplicate | left | objectRemoved | removeFailed => exact Or.inl he
  | requeued | missing | removing =>
      rcases List.mem_cons.mp he with rfl | hold
      · exact Or.inr trivial
      · exact Or.inl hold
  | requeuedAll =>
      rcases List.mem_append.mp he with hnew | hold
      · obtain ⟨id, -, rfl⟩ := List.mem_map.mp hnew
        exact Or.inr trivial
      · exact Or.inl hold
  | inserted hcaller =>
      rcases List.mem_cons.mp he with rfl | hold
      · exact Or.inr ⟨_, _, _, _, hcaller, rfl, rfl⟩
      · exact Or.inl hold
  | @removed call r hr =>
      rcases List.mem_cons.mp he with rfl | hold
      · exact Or.inr ⟨call, r, hr, rfl⟩
      · exact Or.inl hold

theorem PassStep.logged (h : PassStep env w a w') {e : Event} (he : e ∈ w'.history) :
    e ∈ w.history ∨ LoggedBy env w a w' e := by
  cases h with
  | loopEnd | loopNext | read | responded | nothingExpired | purging | objectPurged | purged =>
      exact Or.inl he
  | idle | started | threw | settled | purgeFailed | ended | endedFailed =>
      rcases List.mem_cons.mp he with rfl | hold
      · exact Or.inr trivial
      · exact Or.inl hold
  | configFailed =>
      rcases List.mem_cons.mp he with rfl | he
      · exact Or.inr trivial
      · rcases List.mem_cons.mp he with rfl | hold
        · exact Or.inr trivial
        · exact Or.inl hold
  | posted _ _ hrequest =>
      rcases List.mem_cons.mp he with rfl | hold
      · exact Or.inr ⟨_, _, _, _, rfl, hrequest⟩
      · exact Or.inl hold

/-- **What is in the log was there before, or is what the step was doing.** -/
theorem Step.logged (h : Step env w a w') {e : Event} (he : e ∈ w'.history) :
    e ∈ w.history ∨ LoggedBy env w a w' e := by
  cases h with
  | email h => exact h.logged he
  | request h => exact h.logged he
  | pass h => exact h.logged he
  | crash _ hw =>
      rw [hw] at he
      exact Or.inl he

/-! ### The clock -/

/-- What `Date.now()` returns in an action. -/
def Action.now? : Action → Option Nat
  | .emailEnqueue _ now _ | .enqueue _ now _ | .retry _ now | .retryAll _ now | .alarm now _
  | .getReturn _ now | .fetched _ now | .answered _ now | .purgeExpired now | .rearm now =>
    some now
  | .email _ _ _ | .putReturn _ _ _ | .emailReturn _ _ | .remove _ _ | .removeObject _
  | .removeReturn _ _ | .deliverNext | .getObject | .purgeObject _ | .purgeReturn _ | .crash =>
    none

/-- The clock never goes backwards. -/
def ClockForward (w : World) (a : Action) : Prop := ∀ now ∈ a.now?, w.clock ≤ now

instance (w : World) : DecidablePred (ClockForward w) := fun a =>
  inferInstanceAs (Decidable (∀ now ∈ a.now?, w.clock ≤ now))

theorem Settling.action_now {stage : PassStage} {row : InboxRow} {due : List InboxRow}
    {config : LoadedConfig} {verdict : Verdict} {status : Option Nat} {now : Nat}
    (h : Settling stage a row due config verdict status now) : a.now? = some now := by
  cases h <;> rfl

theorem Step.clock_le (h : Step env w a w') (hok : ClockForward w a) : w.clock ≤ w'.clock := by
  cases h with
  | email h => rw [h.clock]
  | crash _ hw => rw [hw]
  | request h =>
      cases h with
      | missing | removing | objectRemoved | removed | removeFailed => exact Nat.le_refl _
      | requeued | left | requeuedAll => exact hok _ rfl
      | duplicate hcaller | inserted hcaller => cases hcaller <;> exact hok _ rfl
  | pass h =>
      cases h with
      | loopEnd | loopNext | read | objectPurged | purged | purgeFailed => exact Nat.le_refl _
      | idle | configFailed | started | threw | posted | responded | nothingExpired | purging
      | ended | endedFailed => exact hok _ rfl
      | settled _ hsettling => exact hok _ hsettling.action_now

/-! ### The bucket -/

/-- What a step does to R2. -/
inductive BucketChange (w : World) (a : Action) (w' : World) : Prop
  | kept (hkept : w'.bucket = w.bucket)
  | put {id : String} {e : Email} (he : w.emails id = some e) (hstage : e.stage = .putting)
      (hput : w'.bucket = Function.update w.bucket e.input.r2Key (some e.stored))
  | removed {call : Nat} {r : Removal} (hr : w.removals call = some r)
      (hremoved : w'.bucket = Function.update w.bucket r.r2Key none)
  | purged {p : Pass} {key : String} {expired : List InboxRow} {left : List String}
      (hpass : w.pass = some p) (hstage : p.stage = .deleting expired left) (hkey : key ∈ left)
      (ha : a = .purgeObject key) (hpurged : w'.bucket = Function.update w.bucket key none)

theorem Step.bucketChange (hs : Step env w a w') : BucketChange w a w' := by
  cases hs with
  | crash _ hw => exact .kept (by rw [hw])
  | email hs =>
      cases hs with
      | rejected | refused | minted | accepted | failed => exact .kept rfl
      | put he hstage => exact .put he hstage rfl
      | putFailed he hstage hbucket =>
          rcases hbucket with rfl | rfl
          · exact .kept rfl
          · exact .put he hstage rfl
  | request hs =>
      cases hs with
      | duplicate | inserted | requeued | left | requeuedAll | missing | removing | removed
      | removeFailed => exact .kept rfl
      | objectRemoved hr => exact .removed hr rfl
  | pass hs =>
      cases hs with
      | idle | configFailed | started | loopEnd | loopNext | read | threw | posted | responded
      | settled | nothingExpired | purging | purged | purgeFailed | ended | endedFailed =>
          exact .kept rfl
      | objectPurged hpass hstage hkey => exact .purged hpass hstage hkey rfl rfl

/-! ### A purge under way -/

/-- How a pass comes to be deleting the objects `left` of the rows `expired`. -/
inductive DeletingChange (w w' : World) (p : Pass) (expired : List InboxRow)
    (left : List String) : Prop
  | kept (hpass : w.pass = some p)
  | begun {now : Nat} (hexpired : expired = expiredRows w.queue.inbox now)
      (hleft : left = expired.map (·.r2Key)) (hqueue : w'.queue = w.queue)
  /-- One object has been deleted. -/
  | deleted {old : Pass} {before : List String} (hpass : w.pass = some old)
      (hstage : old.stage = .deleting expired before) (hleft : left ⊆ before)

theorem Step.deletingChange (hs : Step env w a w') {p : Pass} {expired : List InboxRow}
    {left : List String} (hp : w'.pass = some p) (hstage : p.stage = .deleting expired left) :
    DeletingChange w w' p expired left := by
  cases hs with
  | email hs => exact .kept (hs.pass ▸ hp)
  | request hs => exact .kept (hs.pass ▸ hp)
  | crash _ hw =>
      rw [hw] at hp
      cases hp
  | pass hs =>
      cases hs with
      | idle | configFailed | started | loopEnd | loopNext | read | threw | posted | responded
      | settled | nothingExpired | purged | purgeFailed =>
          cases hp
          cases hstage
      | ended | endedFailed => cases hp
      | purging =>
          cases hp
          cases hstage
          exact .begun rfl rfl rfl
      | objectPurged hpass hold =>
          cases hp
          cases hstage
          exact .deleted hpass hold (List.filter_sublist.subset)

/-! ### Removals under way -/

/-- A removal in flight was in flight before, or has just been called for a row. -/
theorem removal_cases (hs : Step env w a w') {call : Nat} {r : Removal}
    (hr : w'.removals call = some r) :
    (∃ old, w.removals call = some old ∧ old.id = r.id ∧ old.r2Key = r.r2Key) ∨
      ∃ row, w.queue.inbox.get? r.id = some row ∧ row.r2Key = r.r2Key ∧
        .removeCalled r.id ∈ w'.history := by
  cases hs with
  | email hs =>
      rw [hs.removals] at hr
      exact Or.inl ⟨r, hr, rfl, rfl⟩
  | pass hs =>
      rw [hs.removals] at hr
      exact Or.inl ⟨r, hr, rfl, rfl⟩
  | crash _ hw =>
      rw [hw] at hr
      cases hr
  | request hs =>
      cases hs with
      | duplicate | inserted | requeued | left | requeuedAll | missing =>
          exact Or.inl ⟨r, hr, rfl, rfl⟩
      | @removing c id row hrow =>
          by_cases hc : call = c
          · subst hc
            simp only [Function.update_self, Option.some.injEq] at hr
            subst hr
            exact Or.inr ⟨row, hrow, rfl, List.mem_cons_self ..⟩
          · simp only [Function.update_of_ne hc] at hr
            exact Or.inl ⟨r, hr, rfl, rfl⟩
      | @objectRemoved c old hold =>
          by_cases hc : call = c
          · subst hc
            simp only [Function.update_self, Option.some.injEq] at hr
            subst hr
            exact Or.inl ⟨old, hold, rfl, rfl⟩
          · simp only [Function.update_of_ne hc] at hr
            exact Or.inl ⟨r, hr, rfl, rfl⟩
      | @removed c old hold | @removeFailed c old hold =>
          by_cases hc : call = c
          · subst hc
            simp at hr
          · simp only [Function.update_of_ne hc] at hr
            exact Or.inl ⟨r, hr, rfl, rfl⟩

end MailCloudflare
