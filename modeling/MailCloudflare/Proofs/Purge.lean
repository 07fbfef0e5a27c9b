/-
A queued row and its message.

`purgeExpired` reads the rows that have expired, awaits the delete of their objects and
only then deletes the rows, sparing those requeued in the meantime.  A row spared that way
is pending, and its object is gone: the guard on purge_at keeps the row and not the message
(`retry_during_purge`).

What the code does guarantee is said with the one condition that is missing.  A delivered
row must be requeued while its object is still in R2, and the delete of a purge must not
reach R2 after its row has been requeued.  In every run that keeps to this, every pending
row has its message and no attempt finds it missing; and the first step that does not keep
to it leaves a pending row without one.
-/
import MailCloudflare.Proofs.InFlight
import MailCloudflare.Proofs.NoLoss

namespace MailCloudflare

open Unicode Keyed Transition

variable {env : Worker} {w w' : World} {a : Action} {id : String}

/-! ### Each id is queued once -/

/-- Rows are queued by the handler only, and `ulid()` returns no id twice. -/
def HandlerOnly (w : World) : Action → Prop
  | .email id _ _ => .minted id ∉ w.history
  | .enqueue _ _ _ => False
  | _ => True

theorem HandlerOnly.distinctIds (h : HandlerOnly w a) : DistinctIds env w a := by
  cases a <;> simp_all [HandlerOnly, DistinctIds]

/-- An id is queued by its own `email()`, once. -/
structure QueuedOnce (w : World) : Prop where
  removed : ∀ id, .removed id ∈ w.history → .removeCalled id ∈ w.history
  email : ∀ id e, w.emails id = some e → e.stage ≠ .queued → ¬ Enqueued w.history id
  minted : ∀ id, Enqueued w.history id → .minted id ∈ w.history

theorem queuedOnce_init : QueuedOnce .init := by
  refine ⟨?_, ?_, ?_⟩ <;> simp [World.init, Enqueued]

/-- Who queues an id is the `email()` that stored it. -/
theorem caller_cases (hok : HandlerOnly w a) (hsafe : Safe env w) {input : EnqueueInput}
    {now : Nat} {config : Option LoadedConfig} {emails : String → Option Email}
    (hcaller : Caller w a input now config emails) :
    ∃ e, w.emails input.id = some e ∧ e.input = input ∧ e.stage = .stored ∧
      emails = Function.update w.emails input.id (some { e with stage := .queued }) := by
  cases hcaller with
  | direct => exact absurd hok (by simp [HandlerOnly])
  | @email i e _ _ he hstage =>
      have hid : e.input.id = i := (hsafe.email i e he).1
      rw [hid]
      exact ⟨e, he, rfl, hstage, rfl⟩

theorem queuedOnce_step (hs : Step env w a w') (hok : HandlerOnly w a) (hsafe : Safe env w)
    (h : QueuedOnce w) : QueuedOnce w' where
  removed := by
    intro id hremoved
    rcases hs.logged hremoved with hold | ⟨call, r, hr, rfl⟩
    · exact hs.mem_history (h.removed id hold)
    · exact hs.mem_history (hsafe.removal call r hr).2
  email := by
    intro id e he hstage henq
    rcases enqueued_cases hs henq with hold | ⟨input, now, config, emails, hcaller, rfl, hemails⟩
    · cases emailChange hs he with
      | kept hprev => exact h.email id e hprev hstage hold
      | minted ha =>
          subst ha
          exact hok (h.minted id hold)
      | put hprev _ _ hputting => exact h.email id _ hprev (by simp [hputting]) hold
      | queued _ _ _ _ hqueued => exact hstage hqueued
    · obtain ⟨e', -, -, -, rfl⟩ := caller_cases hok hsafe hcaller
      rw [hemails, Function.update_self] at he
      cases he
      exact hstage rfl
  minted := by
    intro id henq
    rcases enqueued_cases hs henq with hold | ⟨input, now, config, emails, hcaller, rfl, -⟩
    · exact hs.mem_history (h.minted id hold)
    · obtain ⟨e, he, -⟩ := caller_cases hok hsafe hcaller
      exact hs.mem_history (hsafe.email _ e he).2.2.1

theorem noReenqueue_of_queuedOnce (hok : HandlerOnly w a) (hsafe : Safe env w)
    (h : QueuedOnce w) (hs : step env w a = some w') : NoReenqueue w a := by
  intro id hid _
  cases a with
  | enqueue input now config => exact absurd hok (by simp [HandlerOnly])
  | emailEnqueue i now config =>
      simp only [enqueuedId, Option.mem_map] at hid
      obtain ⟨e, he, rfl⟩ := hid
      have hstage : e.stage = .stored := by
        by_contra hne
        simp [step, World.emailEnqueue, Option.mem_def.mp he, hne] at hs
      rw [(hsafe.email i e he).1]
      exact h.email i e he (by simp [hstage])
  | _ => cases hid

/-! ### Messages of queued rows -/

/-- Every pending row that no operator removes has its message. -/
def PendingHasObject (w : World) : Prop :=
  ∀ row ∈ w.queue.inbox.rows, row.status = .pending → .removeCalled row.id ∉ w.history →
    (w.bucket row.r2Key).isSome

/-- No attempt on a row that no operator removes finds its message missing. -/
def NeverMissing (w : World) : Prop :=
  ∀ p row due config, w.pass = some p → p.stage = .got row due config none →
    .removeCalled row.id ∈ w.history

/--
A delivered row is requeued while its object is in R2, and the deletes of a purge reach R2
before the row is requeued.
-/
def RequeuedInTime (w : World) : Action → Prop
  | .retry id _ => .removeCalled id ∉ w.history → ∀ row ∈ w.queue.inbox.rows, row.id = id →
      row.status = .delivered → (w.bucket row.r2Key).isSome
  | .purgeObject key => ∀ row ∈ w.queue.inbox.rows, row.r2Key = key → row.status = .pending →
      .removeCalled row.id ∈ w.history
  | _ => True

/-- What a run that keeps to the condition has. -/
structure Stocked (env : Worker) (w : World) : Prop where
  /-- Every row that is not delivered has its object. -/
  object : ∀ id row, w.queue.inbox.get? id = some row → row.status ≠ .delivered →
    .removeCalled id ∉ w.history → (w.bucket (env.r2Key id)).isSome
  /-- So has every message stored and not yet queued. -/
  email : ∀ id e, w.emails id = some e → e.stage = .stored → .removeCalled id ∉ w.history →
    (w.bucket (env.r2Key id)).isSome
  /-- The rows of a running purge are queued rows, and delivered unless requeued since. -/
  purge : ∀ p expired left, w.pass = some p → p.stage = .deleting expired left → ∀ e ∈ expired,
    Enqueued w.history e.id ∧ ∀ row, w.queue.inbox.get? e.id = some row →
      row.status = .delivered ∨ row.status = .pending
  missing : NeverMissing w

theorem stocked_init : Stocked env .init := by
  refine ⟨?_, ?_, ?_, ?_⟩ <;> simp [World.init, Queue.init, NeverMissing]

/-- The object of a row that needs it survives every step that keeps to the condition. -/
theorem stockedObject_step (hs : Step env w a w') (hok : RequeuedInTime w a) (hsafe : Safe env w)
    (h : Stocked env w) (hcalled : .removeCalled id ∉ w.history)
    (hneeded : ∀ key, a = .purgeObject key →
      (∃ row, w.queue.inbox.get? id = some row ∧ row.status ≠ .delivered) ∨
        ¬ Enqueued w.history id)
    (hobject : (w.bucket (env.r2Key id)).isSome) : (w'.bucket (env.r2Key id)).isSome := by
  cases hs.bucketChange with
  | kept hkept => rwa [hkept]
  | @put i e he _ hbucket =>
      rw [hbucket, (hsafe.email i e he).2.1]
      by_cases hid : i = id
      · simp [hid]
      · rwa [bucket_update_ne _ hid]
  | @removed call r hr hbucket =>
      obtain ⟨hkey, hr'⟩ := hsafe.removal call r hr
      have hne : r.id ≠ id := fun hid => hcalled (hid ▸ hr')
      rwa [hbucket, hkey, bucket_update_ne _ hne]
  | @purged p key expired left hpass hstage hkey ha hbucket =>
      subst ha
      obtain ⟨e, he, rfl⟩ := (hsafe.purge p expired left hpass hstage).2 key hkey
      have hne : e.id ≠ id := by
        rintro rfl
        obtain ⟨henq, hstatus⟩ := h.purge p expired left hpass hstage e he
        rcases hneeded _ rfl with ⟨row, hrow, hnd⟩ | hnenq
        · rcases hstatus row hrow with hd | hpending
          · exact hnd hd
          · -- A pending row: the condition keeps the delete from reaching its object.
            have hkey' := hsafe.rowKey _ row hrow
            have hin := hok row (Table.mem_of_get? hrow) hkey' hpending
            rw [Table.key_of_get? hrow] at hin
            exact hcalled hin
        · exact hnenq henq
      rwa [hbucket, bucket_update_ne _ hne]

theorem stocked_object_step (hs : Step env w a w') (hok : HandlerOnly w a)
    (hin : RequeuedInTime w a) (hsafe : Safe env w) (honce : QueuedOnce w) (h : Stocked env w) :
    ∀ id row, w'.queue.inbox.get? id = some row → row.status ≠ .delivered →
      .removeCalled id ∉ w'.history → (w'.bucket (env.r2Key id)).isSome := by
  intro id row hrow hstatus hcalled'
  have hcalled : .removeCalled id ∉ w.history := fun hc => hcalled' (hs.mem_history hc)
  have hkeep := stockedObject_step hs hin hsafe h hcalled
  cases hs.rowFrom hrow with
  | kept hold =>
      exact hkeep (fun _ _ => Or.inl ⟨row, hold, hstatus⟩) (h.object id row hold hstatus hcalled)
  | inserted hcaller hid =>
      subst hid
      obtain ⟨e, he, -, hstored, -⟩ := caller_cases hok hsafe hcaller
      refine hkeep (fun _ _ => Or.inr ?_) (h.email _ e he hstored hcalled)
      exact honce.email _ e he (by simp [hstored])
  | @requeued old hold hcall =>
      by_cases hdelivered : old.status = .delivered
      · have ha : a = .retry id w'.clock := hcall.resolve_right (not_not.mpr hdelivered)
        subst ha
        have hobject := hin hcalled old (Table.mem_of_get? hold) (Table.key_of_get? hold) hdelivered
        rw [hsafe.rowKey id old hold] at hobject
        exact hkeep (fun _ ha => by cases ha) hobject
      · exact hkeep (fun _ _ => Or.inl ⟨old, hold, hdelivered⟩)
          (h.object id old hold hdelivered hcalled)
  | @settled _ old _ _ _ _ _ _ _ _ _ _ _ hold hpending =>
      have hnd : old.status ≠ .delivered := by simp [hpending]
      exact hkeep (fun _ _ => Or.inl ⟨old, hold, hnd⟩) (h.object id old hold hnd hcalled)

theorem stocked_email_step (hs : Step env w a w') (hin : RequeuedInTime w a) (hsafe : Safe env w)
    (honce : QueuedOnce w) (h : Stocked env w) :
    ∀ id e, w'.emails id = some e → e.stage = .stored → .removeCalled id ∉ w'.history →
      (w'.bucket (env.r2Key id)).isSome := by
  intro id e he hstage hcalled'
  have hcalled : .removeCalled id ∉ w.history := fun hc => hcalled' (hs.mem_history hc)
  cases emailChange hs he with
  | kept hold =>
      refine stockedObject_step hs hin hsafe h hcalled (fun _ _ => Or.inr ?_)
        (h.email id e hold hstage hcalled)
      exact honce.email id e hold (by simp [hstage])
  | minted _ _ _ hputting =>
      rw [hputting] at hstage
      cases hstage
  | @put old hold hinput _ _ _ hobject =>
      rw [← hinput, (hsafe.email id old hold).2.1] at hobject
      simp [hobject]
  | queued _ _ _ _ hqueued =>
      rw [hqueued] at hstage
      cases hstage

/-- A row of a running purge is still delivered, unless it has been requeued. -/
theorem purgeRow_step (hs : Step env w a w') {p : Pass} {expired : List InboxRow}
    {left : List String} (hpass : w.pass = some p) (hstage : p.stage = .deleting expired left)
    (hstatus : ∀ row, w.queue.inbox.get? id = some row →
      row.status = .delivered ∨ row.status = .pending) :
    ∀ row, w'.queue.inbox.get? id = some row → row.status = .delivered ∨ row.status = .pending := by
  intro row hrow
  cases hs.rowFrom hrow with
  | kept hold => exact hstatus row hold
  | inserted | requeued => exact Or.inr rfl
  | settled hp hsettling =>
      rw [hpass] at hp
      cases hp
      rw [hstage] at hsettling
      cases hsettling

theorem stocked_purge_step (hs : Step env w a w') (htraced : Traced w) (hshape : RowsShaped w)
    (h : Stocked env w) :
    ∀ p expired left, w'.pass = some p → p.stage = .deleting expired left → ∀ e ∈ expired,
      Enqueued w'.history e.id ∧ ∀ row, w'.queue.inbox.get? e.id = some row →
        row.status = .delivered ∨ row.status = .pending := by
  intro p expired left hp hstage e he
  cases hs.deletingChange hp hstage with
  | kept hpass =>
      obtain ⟨henq, hstatus⟩ := h.purge p expired left hpass hstage e he
      exact ⟨henq.step hs, purgeRow_step hs hpass hstage hstatus⟩
  | begun hexpired hleft hqueue =>
      subst hexpired
      obtain ⟨hrow, t, ht, -⟩ := mem_expiredRows he
      refine ⟨(htraced.row e.id e hrow).step hs, ?_⟩
      intro row hget
      rw [hqueue, hrow] at hget
      cases hget
      exact Or.inl ((hshape e.id e hrow).delivered_iff.mpr (by simp [ht]))
  | deleted hpass hold =>
      obtain ⟨henq, hstatus⟩ := h.purge _ _ _ hpass hold e he
      exact ⟨henq.step hs, purgeRow_step hs hpass hold hstatus⟩

theorem stocked_missing_step (hs : Step env w a w') (hsafe : Safe env w) (honce : QueuedOnce w)
    (hflight : InFlight w) (h : Stocked env w) : NeverMissing w' := by
  intro p row due config hp hstage
  have hkept : w.pass = some p → .removeCalled row.id ∈ w'.history := fun hpass =>
    hs.mem_history (h.missing p row due config hpass hstage)
  cases hs with
  | email hs => exact hkept (hs.pass ▸ hp)
  | request hs => exact hkept (hs.pass ▸ hp)
  | crash _ hw =>
      rw [hw] at hp
      cases hp
  | pass hs =>
      cases hs with
      | idle | configFailed | started | loopEnd | loopNext | threw | posted | responded
      | settled | nothingExpired | purging | objectPurged | purged | purgeFailed =>
          cases hp
          cases hstage
      | ended | endedFailed => cases hp
      | @read old _ _ _ hpass hold =>
          cases hp
          have hread : w.bucket row.r2Key = none := by
            simp only [PassStage.got.injEq] at hstage
            obtain ⟨rfl, -, -, hread⟩ := hstage
            exact hread
          have htodo : row ∈ old.stage.todo := by
            simp only [PassStage.got.injEq] at hstage
            rw [hold, hstage.1]
            exact List.mem_cons_self ..
          obtain ⟨hpending, hrow | ⟨-, hremoved⟩⟩ := hflight.current old hpass row htodo
          · by_contra hcalled
            have hobject := h.object row.id row hrow (by simp [hpending]) hcalled
            rw [← hsafe.rowKey row.id row hrow, hread] at hobject
            cases hobject
          · exact honce.removed row.id hremoved

/-! ### Every run -/

/-- A run of the handler, the ops calls and the passes that keeps to the condition. -/
def KeepsMessages (w : World) (a : Action) : Prop := HandlerOnly w a ∧ RequeuedInTime w a

structure Kept (env : Worker) (w : World) : Prop where
  once : QueuedOnce w
  flight : InFlight w
  stocked : Stocked env w

theorem kept_reachable (h : Reachable (step env) KeepsMessages .init w) :
    Safe env w ∧ Kept env w := by
  have hsafe : ∀ {w}, Reachable (step env) KeepsMessages .init w → Safe env w := fun h =>
    safe_reachable (h.weaken fun _ _ hok => hok.1.distinctIds)
  refine ⟨hsafe h, Reachable.invariant ⟨queuedOnce_init, inFlight_init, stocked_init⟩ ?_ h⟩
  rintro w a w' hreach ⟨honce, hflight, hstocked⟩ ⟨hok, hin⟩ hs
  have hshape := rowsShaped_reachable hreach
  have htraced := traced_reachable hreach
  have hsw := hsafe hreach
  have hsc := step_cases hs
  refine ⟨queuedOnce_step hsc hok hsw honce, inFlight_step hsc ?_ htraced hshape hflight, ?_⟩
  · exact noReenqueue_of_queuedOnce hok hsw honce hs
  · exact ⟨stocked_object_step hsc hok hin hsw honce hstocked,
      stocked_email_step hsc hin hsw honce hstocked, stocked_purge_step hsc htraced hshape hstocked,
      stocked_missing_step hsc hsw honce hflight hstocked⟩

/-- A step that breaks the condition leaves a pending row without its message. -/
theorem requeuedInTime_of_pendingHasObject (hs : step env w a = some w')
    (h : PendingHasObject w') : RequeuedInTime w a := by
  cases a with
  | retry id now =>
      intro hcalled row hrow hid hdelivered
      subst hid
      have hget := Table.get?_of_mem hrow
      have hne : row.status ≠ .pending := by simp [hdelivered]
      simp only [step, World.retry, retry_of_parked hget hne, Option.some.injEq] at hs
      subst hs
      refine h (row.requeue now) ?_ rfl ?_
      · simp only [World.log, armNoLaterThan_inbox, Table.mem_updateWhere]
        exact ⟨row, hrow, by simp [hne]⟩
      · simpa [InboxRow.requeue] using hcalled
  | purgeObject key =>
      intro row hrow hkey hpending
      cases step_cases hs with
      | email hs => cases hs
      | crash ha _ => cases ha
      | request hs =>
          cases hs with
          | duplicate hcaller | inserted hcaller => cases hcaller
      | pass hs =>
          cases hs with
          | settled _ hsettling => exact absurd rfl (hsettling.ne_purgeObject key)
          | objectPurged =>
              by_contra hcalled
              have hobject := h row hrow hpending hcalled
              simp [hkey] at hobject
  | _ => trivial

/--
**A queued row has its message**, in every run that keeps to the condition, and no attempt
in it finds a message missing.  The condition is exact: a step of the handler, the ops
calls or a pass keeps to it if and only if every pending row still has its message after it.
-/
theorem pending_has_message (h : Reachable (step env) KeepsMessages .init w) :
    PendingHasObject w ∧ NeverMissing w ∧
      ∀ a w', HandlerOnly w a → step env w a = some w' →
        (PendingHasObject w' ↔ RequeuedInTime w a) := by
  have hpending : ∀ {w}, Reachable (step env) KeepsMessages .init w → PendingHasObject w := by
    intro w h row hrow hstatus hcalled
    obtain ⟨hsafe, hkept⟩ := kept_reachable h
    have hget := Table.get?_of_mem hrow
    rw [hsafe.rowKey row.id row hget]
    exact hkept.stocked.object row.id row hget (by simp [hstatus]) hcalled
  obtain ⟨-, hkept⟩ := kept_reachable h
  refine ⟨hpending h, hkept.stocked.missing, ?_⟩
  intro a w' hok hs
  constructor
  · exact requeuedInTime_of_pendingHasObject hs
  · intro hin
    exact hpending (h.step a ⟨hok, hin⟩ hs)

/-! ### The race -/

/-- The row whose object a pass has just found missing. -/
def PassStage.missing? : PassStage → Option InboxRow
  | .got row _ _ none => some row
  | .got _ _ _ (some _) | .delivering _ _ | .getting _ _ _ | .posting _ _ _ | .answering _ _ _ _
  | .purging | .deleting _ _ | .rearming => none

theorem missing?_eq_some {stage : PassStage} {row : InboxRow} (h : stage.missing? = some row) :
    ∃ due config, stage = .got row due config none := by
  cases stage with
  | got r due config object =>
      cases object with
      | none =>
          cases h
          exact ⟨due, config, rfl⟩
      | some body => cases h
  | delivering | getting | posting | answering | purging | deleting | rearming => cases h

instance (w : World) : DecidablePred (HandlerOnly w)
  | .email id _ _ => inferInstanceAs (Decidable (.minted id ∉ w.history))
  | .enqueue .. => isFalse fun h => h
  | .emailEnqueue .. | .putReturn .. | .emailReturn .. | .retry .. | .retryAll .. | .remove ..
  | .removeObject .. | .removeReturn .. | .alarm .. | .deliverNext | .getObject | .getReturn ..
  | .fetched .. | .answered .. | .purgeExpired .. | .purgeObject .. | .purgeReturn ..
  | .rearm .. | .crash => isTrue trivial

instance (w : World) : DecidablePred (RequeuedInTime w)
  | .retry id _ => inferInstanceAs (Decidable (.removeCalled id ∉ w.history →
      ∀ row ∈ w.queue.inbox.rows, row.id = id → row.status = .delivered →
        (w.bucket row.r2Key).isSome))
  | .purgeObject key => inferInstanceAs (Decidable (∀ row ∈ w.queue.inbox.rows, row.r2Key = key →
      row.status = .pending → .removeCalled row.id ∈ w.history))
  | .email .. | .enqueue .. | .emailEnqueue .. | .putReturn .. | .emailReturn .. | .retryAll ..
  | .remove .. | .removeObject .. | .removeReturn .. | .alarm .. | .deliverNext | .getObject
  | .getReturn .. | .fetched .. | .answered .. | .purgeExpired .. | .purgeReturn ..
  | .rearm .. | .crash => isTrue trivial

instance (w : World) : DecidablePred (KeepsMessages w) := fun a =>
  inferInstanceAs (Decidable (HandlerOnly w a ∧ RequeuedInTime w a))

instance (w : World) : Decidable (PendingHasObject w) :=
  inferInstanceAs (Decidable (∀ row ∈ w.queue.inbox.rows, row.status = .pending →
    .removeCalled row.id ∉ w.history → (w.bucket row.r2Key).isSome))

/-- The delivered message has expired and its purge awaits R2 when `retry` is called. -/
def requeuedRun : List Action :=
  deliveredRun ++ [.deliverNext, .purgeExpired 10, .retry "A" 11]

/-- R2 carries the delete out, and the next pass takes the row. -/
def lostRun : List Action :=
  requeuedRun ++ [.purgeObject "inbox/A.eml", .purgeReturn true, .rearm 12,
    .alarm 13 (some sampleConfig), .deliverNext, .getObject]

/--
**A requeued row can lose its message.**  `retry` answers `requeued` while the purge waits
for R2; the row is pending without an object, and the next attempt finds it missing.
-/
theorem retry_during_purge :
    (∃ w, Reachable (step sampleWorker) HandlerOnly .init w ∧ ¬ PendingHasObject w) ∧
      ∃ w, Reachable (step sampleWorker) HandlerOnly .init w ∧ .requeued "A" 11 ∈ w.history ∧
        ¬ NeverMissing w := by
  have hpending : (runActions (step sampleWorker) HandlerOnly .init lostRun).any
      (fun w => !decide (PendingHasObject w)) = true := by decide +kernel
  have hmissing : (runActions (step sampleWorker) HandlerOnly .init lostRun).any
      (fun w => .requeued "A" 11 ∈ w.history && w.pass.any fun p =>
        p.stage.missing?.any fun row => .removeCalled row.id ∉ w.history) = true := by
    decide +kernel
  obtain ⟨w, hreach, hgood⟩ := exists_reachable_of_runActions lostRun hpending
  obtain ⟨u, hreach', hgood'⟩ := exists_reachable_of_runActions lostRun hmissing
  refine ⟨⟨w, hreach, by simpa using hgood⟩, u, hreach', ?_⟩
  simp only [Bool.and_eq_true, decide_eq_true_eq, Option.any_eq_true] at hgood'
  obtain ⟨hrequeued, p, hpass, row, hrow, hcalled⟩ := hgood'
  refine ⟨hrequeued, fun hnever => ?_⟩
  obtain ⟨due, config, hgot⟩ := missing?_eq_some hrow
  exact hcalled (hnever p row due config hpass hgot)

theorem pending_has_message_accepted : ∃ w : World, w.queue.inbox.rows.length = 1 ∧
    PendingHasObject w ∧ NeverMissing w ∧
      ∀ a w', HandlerOnly w a → step sampleWorker w a = some w' →
        (PendingHasObject w' ↔ RequeuedInTime w a) := by
  have hrun : (runActions (step sampleWorker) KeepsMessages .init requeuedRun).any
      (fun w => w.queue.inbox.rows.length = 1) = true := by decide +kernel
  obtain ⟨w, hreach, hgood⟩ := exists_reachable_of_runActions requeuedRun hrun
  exact ⟨w, by simpa using hgood, pending_has_message hreach⟩

end MailCloudflare
