/-
No wake-up is lost.

Between passes the alarm is set for everything that is left to do.  A request keeps this
because what it adds to the table it also arms for, and because it only ever brings the
alarm forward.  A pass need not keep it while it runs: whatever was armed in the meantime,
its last action sets the alarm again, for the earliest thing left when all went well and a
minute out when not.
-/
import MailCloudflare.Proofs.RowInvariant

namespace MailCloudflare

open Unicode Keyed Transition

variable {env : Worker} {w w' : World} {a : Action}

/-! ### Requests and the alarm -/

theorem removeRow_inbox (q : Queue) (id : String) :
    (removeRow q id).inbox = q.inbox.deleteWhere fun r => r.id = id := rfl

/-- A request never pushes the alarm later. -/
theorem RequestStep.alarm_le (h : RequestStep w a w') {current : Nat}
    (hcurrent : w.queue.alarm = some current) :
    ∃ t, w'.queue.alarm = some t ∧ t ≤ current := by
  cases h with
  | duplicate | left | missing | removing | objectRemoved | removed | removeFailed =>
      exact ⟨current, hcurrent, Nat.le_refl _⟩
  | inserted | requeued =>
      obtain ⟨t, ht, -, -, hle⟩ := armNoLaterThan_alarm _ _
      exact ⟨t, ht, hle current hcurrent⟩
  | requeuedAll =>
      dsimp only [World.retryAll, retryAll]
      split
      · obtain ⟨t, ht, -, -, hle⟩ := armNoLaterThan_alarm _ _
        exact ⟨t, ht, hle current hcurrent⟩
      · exact ⟨current, hcurrent, Nat.le_refl _⟩

/-- What it puts on the queue it arms for. -/
theorem RequestStep.armed_of_new (h : RequestStep w a w') {id : String} {row : InboxRow}
    (hrow : w'.queue.inbox.get? id = some row) (hnew : w.queue.inbox.get? id ≠ some row) :
    row.status = .pending ∧ row.purgeAt = none ∧ ∃ t u, w'.queue.alarm = some t ∧
      row.nextAttemptAt = some u ∧ t ≤ u := by
  cases h with
  | duplicate | left | missing | removing | objectRemoved | removeFailed => exact absurd hrow hnew
  | @inserted _ input now config _ hcaller hnone =>
      simp only [armNoLaterThan_inbox, Table.get?_insertOrIgnore] at hrow
      have hsplit := Option.or_eq_some_iff.mp hrow
      rcases hsplit with hold | ⟨hold, hif⟩
      · exact absurd hold hnew
      · split at hif
        · cases hif
          obtain ⟨t, ht, hle, -, -⟩ := armNoLaterThan_alarm _ _
          exact ⟨rfl, rfl, t, _, ht, rfl, hle⟩
        · cases hif
  | @requeued i now r hr hstatus =>
      simp only [armNoLaterThan_inbox, Table.get?_updateWhere, Option.map_eq_some_iff] at hrow
      obtain ⟨old, hold, hif⟩ := hrow
      split at hif
      · cases hif
        obtain ⟨t, ht, hle, -, -⟩ := armNoLaterThan_alarm _ _
        exact ⟨rfl, rfl, t, _, ht, rfl, hle⟩
      · exact absurd (hif ▸ hold) hnew
  | @requeuedAll status now =>
      simp only [World.retryAll, retryAll_inbox, Table.get?_updateWhere,
        Option.map_eq_some_iff] at hrow
      obtain ⟨old, hold, hif⟩ := hrow
      by_cases hstatus : old.status = status.toStatus
      · simp only [hstatus, decide_true, if_true] at hif
        cases hif
        have hcount : (w.queue.inbox.rows.filter fun r => r.status = status.toStatus).length > 0 :=
          List.length_pos_of_mem (List.mem_filter.mpr ⟨Table.mem_of_get? hold, by simpa⟩)
        dsimp only [World.retryAll, retryAll]
        rw [if_pos hcount]
        obtain ⟨t, ht, hle, -, -⟩ := armNoLaterThan_alarm _ _
        exact ⟨rfl, rfl, t, _, ht, rfl, hle⟩
      · simp only [hstatus, decide_false, Bool.false_eq_true, if_false] at hif
        exact absurd (hif ▸ hold) hnew
  | removed =>
      simp only [removeRow_inbox, Table.get?_deleteWhere] at hrow
      exact absurd (Option.filter_eq_some_iff.mp hrow).1 hnew

/-- The wake-ups a request adds, it has armed for. -/
theorem RequestStep.wake (h : RequestStep w a w') {t : Nat} (ht : WakeTime w'.queue.inbox t) :
    WakeTime w.queue.inbox t ∨ ∃ current, w'.queue.alarm = some current ∧ current ≤ t := by
  have hkey : ∀ row ∈ w'.queue.inbox.rows, row ∈ w.queue.inbox.rows ∨
      row.status = .pending ∧ row.purgeAt = none ∧ ∃ t u, w'.queue.alarm = some t ∧
        row.nextAttemptAt = some u ∧ t ≤ u := by
    intro row hrow
    by_cases hold : w.queue.inbox.get? row.id = some row
    · exact Or.inl (Table.mem_of_get? hold)
    · exact Or.inr (h.armed_of_new (Table.get?_of_mem hrow) hold)
  rcases ht with ⟨row, hrow, hstatus, hnext⟩ | ⟨row, hrow, hpurge⟩
  · rcases hkey row hrow with hold | ⟨-, -, current, u, hcurrent, hu, hle⟩
    · exact Or.inl (Or.inl ⟨row, hold, hstatus, hnext⟩)
    · rw [hnext] at hu
      cases hu
      exact Or.inr ⟨current, hcurrent, hle⟩
  · rcases hkey row hrow with hold | ⟨-, hnone, -⟩
    · exact Or.inl (Or.inr ⟨row, hold, hpurge⟩)
    · rw [hnone] at hpurge
      cases hpurge

/-! ### The last failed pass -/

theorem EmailStep.lastFailure (h : EmailStep env w a w') :
    lastFailure w'.history = lastFailure w.history := by
  cases h <;> rfl

private theorem lastFailure_requeued (ids : List String) (now : Nat) (history : List Event) :
    lastFailure (ids.map (fun id => Event.requeued id now) ++ history) = lastFailure history := by
  induction ids with
  | nil => rfl
  | cons id rest ih => exact ih

theorem RequestStep.lastFailure (h : RequestStep w a w') :
    lastFailure w'.history = lastFailure w.history := by
  cases h with
  | requeuedAll => exact lastFailure_requeued _ _ _
  | duplicate | inserted | requeued | left | missing | removing | objectRemoved | removed
  | removeFailed => rfl

/-! ### Every run -/

/-- The alarm is set, and in time for everything left to do or for a retry of a failed pass. -/
def Armed (w : World) : Prop :=
  ∃ t, w.queue.alarm = some t ∧
    ((∀ u, WakeTime w.queue.inbox u → t ≤ u) ∨
      ∃ failed, lastFailure w.history = some failed ∧ t ≤ failed + ALARM_RETRY_MS)

/-- While no pass runs, the alarm is set as soon as there is something left to do. -/
def WakesCovered (w : World) : Prop :=
  w.pass = none → (∃ t, WakeTime w.queue.inbox t) → Armed w

theorem RequestStep.wakesCovered (h : RequestStep w a w') (hcovered : WakesCovered w) :
    WakesCovered w' := by
  rintro hpass ⟨t, ht⟩
  rw [h.pass] at hpass
  by_cases hold : ∃ t, WakeTime w.queue.inbox t
  · obtain ⟨current, hcurrent, hreach⟩ := hcovered hpass hold
    obtain ⟨alarm, halarm, hle⟩ := h.alarm_le hcurrent
    refine ⟨alarm, halarm, ?_⟩
    rcases hreach with hall | ⟨failed, hfailed, hsoon⟩
    · refine Or.inl fun u hu => ?_
      rcases h.wake hu with hu | ⟨alarm', halarm', hle'⟩
      · exact Nat.le_trans hle (hall u hu)
      · rw [halarm] at halarm'
        cases halarm'
        exact hle'
    · exact Or.inr ⟨failed, by rw [h.lastFailure, hfailed], Nat.le_trans hle hsoon⟩
  · -- Nothing was left to do, so everything there is now has been armed for just now.
    rcases h.wake ht with ht | ⟨alarm, halarm, -⟩
    · exact absurd ⟨t, ht⟩ hold
    · refine ⟨alarm, halarm, Or.inl fun u hu => ?_⟩
      rcases h.wake hu with hu | ⟨alarm', halarm', hle'⟩
      · exact absurd ⟨u, hu⟩ hold
      · rw [halarm] at halarm'
        cases halarm'
        exact hle'

/-- The Durable Object is not restarted. -/
def NoCrash (_ : World) (a : Action) : Prop := a ≠ .crash

theorem wakesCovered_step (hs : Step env w a w') (hok : NoCrash w a) (h : WakesCovered w) :
    WakesCovered w' := by
  cases hs with
  | email hs =>
      rintro hpass ⟨t, ht⟩
      rw [hs.pass] at hpass
      rw [hs.queue] at ht
      obtain ⟨current, hcurrent, hreach⟩ := h hpass ⟨t, ht⟩
      exact ⟨current, by rw [hs.queue, hcurrent], by rwa [hs.queue, hs.lastFailure]⟩
  | request hs => exact hs.wakesCovered h
  | crash ha _ => exact absurd ha hok
  | pass hs =>
      rintro hpass ⟨t, ht⟩
      cases hs with
      | idle | configFailed | started | loopEnd | loopNext | read | threw | posted | responded
      | settled | nothingExpired | purging | objectPurged | purged | purgeFailed => cases hpass
      | ended =>
          cases hnext : nextWake w.queue.inbox with
          | none => exact absurd ht (nextWake_none hnext t)
          | some next => exact ⟨next, hnext, Or.inl (nextWake_some hnext).2⟩
      | endedFailed =>
          exact ⟨_, rfl, Or.inr ⟨_, rfl, Nat.le_refl _⟩⟩

theorem wakesCovered_reachable (h : Reachable (step env) NoCrash .init w) : WakesCovered w := by
  refine Reachable.invariant ?_ ?_ h
  · rintro - ⟨t, ⟨row, hrow, -⟩ | ⟨row, hrow, -⟩⟩
    · simp [World.init, Queue.init] at hrow
    · simp [World.init, Queue.init] at hrow
  · intro w a w' _ hinv hok hs
    exact wakesCovered_step (step_cases hs) hok hinv

/--
**No wake-up is lost.**  While no pass runs and a row is pending or awaits its purge, the
alarm is set, no later than any of them is due or within a minute of the last pass that
failed.  A pass that went well and leaves nothing to do leaves no alarm.
-/
theorem alarm_covers_work (h : Reachable (step env) NoCrash .init w) :
    (w.pass = none →
      (∃ row ∈ w.queue.inbox.rows, row.status = .pending ∨ row.purgeAt.isSome) →
      ∃ t, w.queue.alarm = some t ∧
        ((∀ row ∈ w.queue.inbox.rows,
            (row.status = .pending → ∀ u ∈ row.nextAttemptAt, t ≤ u) ∧
              ∀ u ∈ row.purgeAt, t ≤ u) ∨
          ∃ failed, lastFailure w.history = some failed ∧ t ≤ failed + ALARM_RETRY_MS)) ∧
    ∀ now w', step env w (.rearm now) = some w' →
      w'.history.head? = some (.passEnded now true) →
      (∀ row ∈ w'.queue.inbox.rows, row.status ≠ .pending ∧ row.purgeAt = none) →
      w'.queue.alarm = none := by
  refine ⟨?_, ?_⟩
  · rintro hpass ⟨row, hrow, hleft⟩
    have hwake : ∃ t, WakeTime w.queue.inbox t := by
      rcases hleft with hstatus | hpurge
      · have hshape := rowsShaped_reachable h row.id row (Table.get?_of_mem hrow)
        obtain ⟨t, ht⟩ := Option.isSome_iff_exists.mp (hshape.pending_iff.mp hstatus)
        exact ⟨t, Or.inl ⟨row, hrow, hstatus, ht⟩⟩
      · obtain ⟨t, ht⟩ := Option.isSome_iff_exists.mp hpurge
        exact ⟨t, Or.inr ⟨row, hrow, ht⟩⟩
    obtain ⟨t, ht, hreach⟩ := wakesCovered_reachable h hpass hwake
    refine ⟨t, ht, ?_⟩
    rcases hreach with hall | hsoon
    · refine Or.inl fun row hrow => ⟨?_, ?_⟩
      · intro hstatus u hu
        exact hall u (Or.inl ⟨row, hrow, hstatus, hu⟩)
      · intro u hu
        exact hall u (Or.inr ⟨row, hrow, hu⟩)
    · exact Or.inr hsoon
  · intro now w' hs hhead hidle
    obtain ⟨p, -, -, rfl⟩ := rearm_cases hs
    have hhealthy : p.healthy = true := by simpa using hhead
    dsimp only
    rw [if_pos hhealthy]
    cases hnext : nextWake w.queue.inbox with
    | none => rfl
    | some next =>
        rcases (nextWake_some hnext).1 with ⟨row, hrow, hstatus, -⟩ | ⟨row, hrow, hpurge⟩
        · exact absurd hstatus (hidle row hrow).1
        · rw [(hidle row hrow).2] at hpurge
          cases hpurge

instance (w : World) : DecidablePred (NoCrash w) := fun a =>
  inferInstanceAs (Decidable (a ≠ .crash))

theorem alarm_covers_work_accepted : ∃ w : World, w.pass = none ∧
    ∃ t, w.queue.alarm = some t ∧
      ((∀ row ∈ w.queue.inbox.rows,
          (row.status = .pending → ∀ u ∈ row.nextAttemptAt, t ≤ u) ∧ ∀ u ∈ row.purgeAt, t ≤ u) ∨
        ∃ failed, lastFailure w.history = some failed ∧ t ≤ failed + ALARM_RETRY_MS) := by
  have hrun : (runActions (step sampleWorker) NoCrash .init acceptedRun).any
      (fun w => w.pass = none && w.queue.inbox.rows.any fun row => row.status = .pending) =
        true := by decide +kernel
  obtain ⟨w, hreach, hgood⟩ := exists_reachable_of_runActions acceptedRun hrun
  simp only [Bool.and_eq_true, decide_eq_true_eq, List.any_eq_true] at hgood
  obtain ⟨hpass, row, hrow, hpending⟩ := hgood
  exact ⟨w, hpass, (alarm_covers_work hreach).1 hpass ⟨row, hrow, Or.inl hpending⟩⟩

end MailCloudflare
