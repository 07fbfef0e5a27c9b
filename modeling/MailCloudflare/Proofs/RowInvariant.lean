/-
The representation invariant of the queue's rows.

`RowShape` is what the columns say about each other whatever the configuration is, and
`RowInvariant` adds what depends on it: the attempt budget and the retention.  A row is
written in three ways only, and each lemma below is about one of them: `enqueue` inserts
one, `retry` and `retryAll` put one back, and `settle` writes the outcome of an attempt.
-/
import MailCloudflare.Base.Transition
import MailCloudflare.Proofs.RowChange

namespace MailCloudflare

open Unicode JavaScript Keyed Transition

/-- What the columns of a row say about each other. -/
structure RowShape (row : InboxRow) : Prop where
  /-- A pending row has a next attempt, and no other has. -/
  pending_iff : row.status = .pending ↔ row.nextAttemptAt.isSome
  /-- A delivered row awaits its purge, and no other does. -/
  delivered_iff : row.status = .delivered ↔ row.purgeAt.isSome
  /-- A row that is not pending has been attempted. -/
  attempted : row.status ≠ .pending → 1 ≤ row.attempts ∧ row.lastAttemptAt.isSome
  /-- Of those, the delivered ones say when. -/
  deliveredAt_iff : row.status ≠ .pending → (row.deliveredAt.isSome ↔ row.status = .delivered)
  /-- The CHECK on last_error. -/
  lastError_ok : checkLastError row.lastError = true

/-- The invariant of a row under a fixed configuration. -/
structure RowInvariant (config : LoadedConfig) (row : InboxRow) : Prop extends RowShape row where
  /-- A pending row has an attempt left. -/
  attempts_lt : row.status = .pending → row.attempts < config.maxAttempts
  /-- A delivered row is kept for the retention period. -/
  purgeAt_eq : row.status ≠ .pending →
    row.purgeAt = row.deliveredAt.map fun t => t + config.retentionMs

/-! ### The three ways a row is written -/

theorem rowShape_newRow (input : EnqueueInput) (t : Nat) : RowShape (newRow input t) where
  pending_iff := by simp [newRow]
  delivered_iff := by simp [newRow]
  attempted := by simp [newRow]
  deliveredAt_iff := by simp [newRow]
  lastError_ok := rfl

theorem RowShape.requeue {row : InboxRow} (h : RowShape row) (now : Nat) :
    RowShape (row.requeue now) where
  pending_iff := by simp [InboxRow.requeue]
  delivered_iff := by simp [InboxRow.requeue]
  attempted := by simp [InboxRow.requeue]
  deliveredAt_iff := by simp [InboxRow.requeue]
  lastError_ok := h.lastError_ok

section Settle

variable {config : LoadedConfig} {attempt : Nat} {verdict : Verdict} {status : Option Nat}
  {error : Option Units} {threadId : Option ℚ} {now delay : Nat}

theorem nextStatus_pending {v : Verdict} : v.nextStatus = .pending ↔ v = .retry := by
  cases v <;> simp [Verdict.nextStatus]

theorem nextStatus_delivered {v : Verdict} : v.nextStatus = .delivered ↔ v = .delivered := by
  cases v <;> simp [Verdict.nextStatus]

/-- What stays pending after an attempt is put off by the delay. -/
theorem settle_nextAttemptAt {row : InboxRow}
    (hpending : ((settlementOf config attempt verdict status error threadId now delay).apply
      row).status = .pending) :
    ((settlementOf config attempt verdict status error threadId now delay).apply
      row).nextAttemptAt = some (now + delay) := by
  have hretry := nextStatus_pending.mp hpending
  simp [Settlement.apply, settlementOf, hretry]

theorem rowShape_settle (row : InboxRow) :
    RowShape ((settlementOf config (attempt + 1) verdict status error threadId now delay).apply
      row) where
  pending_iff := by
    simp only [Settlement.apply, settlementOf, nextStatus_pending]
    split <;> simp_all
  delivered_iff := by
    simp only [Settlement.apply, settlementOf, nextStatus_delivered]
    split <;> simp_all
  attempted := by simp [Settlement.apply, settlementOf]
  deliveredAt_iff := by
    intro _
    simp only [Settlement.apply, settlementOf, nextStatus_delivered]
    split <;> simp_all
  lastError_ok := checkLastError_take error

theorem rowInvariant_settle (row : InboxRow) :
    RowInvariant config
      ((settlementOf config (attempt + 1) verdict status error threadId now delay).apply row) where
  toRowShape := rowShape_settle row
  attempts_lt := by
    intro hpending
    exact outcomeOf_retry (nextStatus_pending.mp hpending)
  purgeAt_eq := by
    intro _
    simp only [Settlement.apply, settlementOf]
    split <;> rfl

end Settle

theorem rowInvariant_newRow (config : LoadedConfig) (input : EnqueueInput) (t : Nat) :
    RowInvariant config (newRow input t) where
  toRowShape := rowShape_newRow input t
  attempts_lt := fun _ => config.maxAttempts_pos
  purgeAt_eq := by simp [newRow]

theorem RowInvariant.requeue {config : LoadedConfig} {row : InboxRow}
    (h : RowInvariant config row) (now : Nat) : RowInvariant config (row.requeue now) where
  toRowShape := h.toRowShape.requeue now
  attempts_lt := fun _ => config.maxAttempts_pos
  purgeAt_eq := by simp [InboxRow.requeue]

/-! ### Every run -/

variable {env : Worker} {w w' : World} {a : Action}

/-- Every row has its shape, whatever the configuration is from one load to the next. -/
def RowsShaped (w : World) : Prop :=
  ∀ id row, w.queue.inbox.get? id = some row → RowShape row

theorem rowsShaped_step (hs : Step env w a w') (h : RowsShaped w) : RowsShaped w' := by
  intro id row hrow
  cases hs.rowFrom hrow with
  | kept hold => exact h id row hold
  | inserted => exact rowShape_newRow ..
  | requeued hold => exact (h id _ hold).requeue _
  | settled => exact rowShape_settle _

theorem rowsShaped_reachable {ok : World → Action → Prop}
    (h : Reachable (step env) ok .init w) : RowsShaped w := by
  refine Reachable.invariant ?_ ?_ h
  · intro id row hrow
    simp [World.init, Queue.init] at hrow
  · intro w a w' _ hinv _ hs
    exact rowsShaped_step (step_cases hs) hinv

/-- What a step does to a pending row: nothing, or it settles an attempt, or it removes it. -/
inductive PendingChange (env : Worker) (w : World) (a : Action) (w' : World) (row : InboxRow) : Prop
  | kept (hkept : w'.queue.inbox.get? row.id = some row) {news : List Event}
      (hquiet : Quiet env w a w' row.id news)
      (hlog : logOf row.id w'.history = news ++ logOf row.id w.history)
  | settled {p : Pass} {snapshot : InboxRow} {due : List InboxRow} {config : LoadedConfig}
      {verdict : Verdict} {status : Option Nat} (hpass : w.pass = some p)
      (hsettling : Settling p.stage a snapshot due config verdict status w'.clock)
      (hid : snapshot.id = row.id)
      (hlog : logOf row.id w'.history =
        [.settled row.id (snapshot.attempts + 1) (outcomeOf config (snapshot.attempts + 1) verdict)
          status true] ++ logOf row.id w.history)
  | removed (hnone : w'.queue.inbox.get? row.id = none)
      (hlog : logOf row.id w'.history = [.removed row.id] ++ logOf row.id w.history)

theorem Step.pendingChange (hs : Step env w a w') (hshape : RowsShaped w) {row : InboxRow}
    (hpending : row.status = .pending) (hrow : w.queue.inbox.get? row.id = some row) :
    PendingChange env w a w' row := by
  cases hs.rowChange row.id with
  | kept hkept hquiet hlog => exact .kept (hkept.trans hrow) hquiet hlog
  | inserted _ _ _ hnone =>
      rw [hrow] at hnone
      cases hnone
  | requeued hold hstatus =>
      rw [hrow] at hold
      cases hold
      exact absurd hpending hstatus
  | settled hpass hsettling hid _ _ _ _ hlog => exact .settled hpass hsettling hid hlog
  | removed _ _ hnone hlog => exact .removed hnone hlog
  | purged _ _ _ _ hold hpurge =>
      rw [hrow] at hold
      cases hold
      have hdelivered := (hshape row.id row hrow).delivered_iff.mpr hpurge
      rw [hpending] at hdelivered
      cases hdelivered

/-- `loadConfig` returns `config` whenever it is called. -/
def LoadsConfig (config : LoadedConfig) (_ : World) : Action → Prop
  | .emailEnqueue _ _ c | .enqueue _ _ c | .alarm _ c => c = some config
  | _ => True

/-- The pass, when there is one, works with `config`. -/
def PassLoaded (config : LoadedConfig) (w : World) : Prop :=
  ∀ p c, w.pass = some p → p.stage.config? = some c → c = config

theorem passLoaded_step {config : LoadedConfig} (hs : Step env w a w')
    (hok : LoadsConfig config w a) (h : PassLoaded config w) : PassLoaded config w' := by
  intro p c hp hc
  cases hs with
  | email hs => exact h p c (hs.pass ▸ hp) hc
  | request hs => exact h p c (hs.pass ▸ hp) hc
  | crash _ hw =>
      rw [hw] at hp
      cases hp
  | pass hs =>
      cases hs with
      | idle | configFailed | loopEnd | nothingExpired | purging | objectPurged | purged
      | purgeFailed =>
          cases hp
          cases hc
      | started =>
          cases hp
          cases hc
          simpa [LoadsConfig] using hok
      | loopNext hpass hstage | read hpass hstage | threw hpass hstage | posted hpass hstage
      | responded hpass hstage =>
          cases hp
          cases hc
          exact h _ _ hpass (by rw [hstage]; rfl)
      | settled hpass hsettling =>
          cases hp
          cases hc
          exact h _ _ hpass hsettling.stage_config
      | ended | endedFailed => cases hp

theorem passLoaded_reachable {config : LoadedConfig}
    (h : Reachable (step env) (LoadsConfig config) .init w) : PassLoaded config w := by
  refine Reachable.invariant ?_ ?_ h
  · intro p c hp
    cases hp
  · intro w a w' _ hinv hok hs
    exact passLoaded_step (step_cases hs) hok hinv

def RowsValid (config : LoadedConfig) (w : World) : Prop :=
  ∀ id row, w.queue.inbox.get? id = some row → RowInvariant config row

theorem rowsValid_step {config : LoadedConfig} (hs : Step env w a w')
    (hpass : PassLoaded config w) (h : RowsValid config w) : RowsValid config w' := by
  intro id row hrow
  cases hs.rowFrom hrow with
  | kept hold => exact h id row hold
  | inserted => exact rowInvariant_newRow ..
  | requeued hold => exact (h id _ hold).requeue _
  | settled hp hsettling =>
      cases hpass _ _ hp hsettling.stage_config
      exact rowInvariant_settle _

theorem rowsValid_reachable {config : LoadedConfig}
    (h : Reachable (step env) (LoadsConfig config) .init w) : RowsValid config w := by
  refine Reachable.invariant ?_ ?_ h
  · intro id row hrow
    simp [World.init, Queue.init] at hrow
  · intro w a w' hreach hinv _ hs
    exact rowsValid_step (step_cases hs) (passLoaded_reachable hreach) hinv

/--
**The rows keep their representation invariant**, and no UPDATE an attempt can come to
violates a constraint, whatever was answered and however long the error text is.
-/
theorem rows_wellFormed {config : LoadedConfig}
    (h : Reachable (step env) (LoadsConfig config) .init w) :
    (∀ row ∈ w.queue.inbox.rows, RowInvariant config row) ∧
      ∀ id attempt verdict status error threadId now,
        (settle w.queue.inbox id config attempt verdict status error threadId now).isSome := by
  refine ⟨?_, ?_⟩
  · intro row hrow
    exact rowsValid_reachable h row.id row (Table.get?_of_mem hrow)
  · intro id attempt verdict status error threadId now
    obtain ⟨delay, -, hsettle⟩ :=
      settle_eq w.queue.inbox id config attempt verdict status error threadId now
    rw [hsettle]
    rfl

/-! ### A run written out

One message is stored, queued and delivered, with no retention.
-/

def sampleWorker : Worker where
  keyPrefix := "inbox/"
  jsonParse := fun _ => none
  hmac := fun _ _ => ⟨List.replicate 32 0, rfl⟩

def sampleConfig : LoadedConfig where
  inboundUrl := js "https://odoo.example.org/mail_cloudflare/1/inbound"
  webhookSecret := js "s3cret"
  access := none
  opsToken := none
  retentionMs := 0
  maxAttempts := 3
  backoffSeconds := DEFAULT_BACKOFF_SECONDS
  deliveryTimeoutMs := 60000
  deliveryDelayMs := 0
  maxAttempts_pos := by decide
  backoff_ne := by decide
  backoff_pos := by decide

def sampleMessage : EmailMessage where
  envelopeFrom := js "a@example.org"
  envelopeTo := js "b@example.org"
  raw := [72, 105]
  messageIdHeader := none

def acceptedRun : List Action :=
  [.email "A" sampleMessage 0, .putReturn "A" true true, .emailEnqueue "A" 5 (some sampleConfig),
    .emailReturn "A" true]

def deliveredRun : List Action :=
  acceptedRun ++ [.alarm 6 (some sampleConfig), .deliverNext, .getObject, .getReturn true 7,
    .fetched (.response 200) 8, .answered none 9]

instance (config : LoadedConfig) (w : World) : DecidablePred (LoadsConfig config w)
  | .emailEnqueue _ _ c | .enqueue _ _ c | .alarm _ c => inferInstanceAs (Decidable (c = some config))
  | .email .. | .putReturn .. | .emailReturn .. | .retry .. | .retryAll .. | .remove ..
  | .removeObject .. | .removeReturn .. | .deliverNext | .getObject | .getReturn ..
  | .fetched .. | .answered .. | .purgeExpired .. | .purgeObject .. | .purgeReturn ..
  | .rearm .. | .crash => isTrue trivial

theorem rows_wellFormed_delivered : ∃ w : World,
    w.queue.inbox.rows.map (·.status) = [.delivered] ∧
      (∀ row ∈ w.queue.inbox.rows, RowInvariant sampleConfig row) ∧
      ∀ id attempt verdict status error threadId now,
        (settle w.queue.inbox id sampleConfig attempt verdict status error threadId now).isSome := by
  have hrun : (runActions (step sampleWorker) (LoadsConfig sampleConfig) .init deliveredRun).any
      (fun w => w.queue.inbox.rows.map (·.status) = [.delivered]) = true := by decide +kernel
  obtain ⟨w, hreach, hgood⟩ := exists_reachable_of_runActions deliveredRun hrun
  exact ⟨w, by simpa using hgood, rows_wellFormed hreach⟩

end MailCloudflare
