/-
What each statement on the queue does, one lemma per function.

Everything above reads the table through the row under an id and the alarm through these
lemmas; nothing above unfolds an SQL statement again.  The one with an argument in it is
`settle_eq`: an attempt's UPDATE never raises.  The text is cut in UTF-16 code units and
the schema counts code points, and a string never has more of the second than of the
first, also where the cut has left half a pair and the column holds U+FFFD.
-/
import MailCloudflare.Worker.Inbox
import Mathlib.Data.String.Basic

namespace MailCloudflare

open Unicode Keyed

/-! ### The alarm -/

@[simp] theorem armNoLaterThan_inbox (q : Queue) (time : Nat) :
    (armNoLaterThan q time).inbox = q.inbox := by
  unfold armNoLaterThan
  split
  · rfl
  · split <;> rfl

/-- The alarm is set no later than `time`, and no later than it was. -/
theorem armNoLaterThan_alarm (q : Queue) (time : Nat) :
    ∃ a, (armNoLaterThan q time).alarm = some a ∧ a ≤ time ∧
      (a = time ∨ q.alarm = some a) ∧ ∀ current, q.alarm = some current → a ≤ current := by
  unfold armNoLaterThan
  cases h : q.alarm with
  | none => exact ⟨time, rfl, Nat.le_refl _, Or.inl rfl, by simp⟩
  | some current =>
      by_cases hlt : time < current
      · refine ⟨time, by simp [hlt], Nat.le_refl _, Or.inl rfl, ?_⟩
        intro c hc
        simp only [Option.some.injEq] at hc
        omega
      · refine ⟨current, by simp [hlt, h], by omega, Or.inr rfl, ?_⟩
        intro c hc
        simp only [Option.some.injEq] at hc
        omega

/-- When something is left to do: the attempts of the pending rows and the purges. -/
def WakeTime (inbox : Inbox) (t : Nat) : Prop :=
  (∃ row ∈ inbox.rows, row.status = .pending ∧ row.nextAttemptAt = some t) ∨
    ∃ row ∈ inbox.rows, row.purgeAt = some t

private theorem mem_wakes {inbox : Inbox} {t : Nat} :
    t ∈ (inbox.rows.filter fun row => row.status = .pending).filterMap (·.nextAttemptAt)
        ++ inbox.rows.filterMap (·.purgeAt) ↔ WakeTime inbox t := by
  simp only [WakeTime, List.mem_append, List.mem_filterMap, List.mem_filter, decide_eq_true_eq]
  constructor
  · rintro (⟨row, ⟨hmem, hst⟩, ht⟩ | h)
    · exact Or.inl ⟨row, hmem, hst, ht⟩
    · exact Or.inr h
  · rintro (⟨row, hmem, hst, ht⟩ | h)
    · exact Or.inl ⟨row, ⟨hmem, hst⟩, ht⟩
    · exact Or.inr h

/-- `nextWake` is the least of them. -/
theorem nextWake_some {inbox : Inbox} {t : Nat} (h : nextWake inbox = some t) :
    WakeTime inbox t ∧ ∀ u, WakeTime inbox u → t ≤ u := by
  obtain ⟨hmem, hle⟩ := List.min?_eq_some_iff.mp h
  exact ⟨mem_wakes.mp hmem, fun u hu => hle u (mem_wakes.mpr hu)⟩

theorem nextWake_none {inbox : Inbox} (h : nextWake inbox = none) (t : Nat) :
    ¬ WakeTime inbox t := by
  intro ht
  have hnil := List.min?_eq_none_iff.mp h
  have hmem := mem_wakes.mpr ht
  rw [hnil] at hmem
  simp at hmem

/-! ### Requests -/

/-- A row that is there is left alone. -/
theorem enqueue_of_isSome {q : Queue} {input : EnqueueInput} {now : Nat}
    {config : Option LoadedConfig} (h : (q.inbox.get? input.id).isSome) :
    enqueue q input now config = (q, false) := by
  simp [enqueue, h]

theorem enqueue_of_none {q : Queue} {input : EnqueueInput} {now : Nat}
    {config : Option LoadedConfig} (h : q.inbox.get? input.id = none) :
    enqueue q input now config =
      (armNoLaterThan
        { q with
          inbox := q.inbox.insertOrIgnore (newRow input (now + deliveryDelayMs config)) }
        (now + deliveryDelayMs config), true) := by
  simp [enqueue, h]

theorem retry_of_none {q : Queue} {id : String} {now : Nat} (h : q.inbox.get? id = none) :
    retry q id now = (q, .not_found) := by
  simp [retry, h]

theorem retry_of_pending {q : Queue} {id : String} {now : Nat} {row : InboxRow}
    (h : q.inbox.get? id = some row) (hst : row.status = .pending) :
    retry q id now = (q, .already_pending) := by
  simp [retry, h, hst]

theorem retry_of_parked {q : Queue} {id : String} {now : Nat} {row : InboxRow}
    (h : q.inbox.get? id = some row) (hst : row.status ≠ .pending) :
    retry q id now =
      (armNoLaterThan
        { q with
          inbox := q.inbox.updateWhere (fun r => r.id = id && r.status ≠ .pending)
            (InboxRow.requeue now) (InboxRow.requeue_id now) }
        now, .requeued) := by
  simp [retry, h, hst]

theorem retryAll_inbox (q : Queue) (status : RetryableStatus) (now : Nat) :
    (retryAll q status now).1.inbox = q.inbox.updateWhere (fun r => r.status = status.toStatus)
      (InboxRow.requeue now) (InboxRow.requeue_id now) := by
  dsimp only [retryAll]
  split <;> simp

theorem RetryableStatus.toStatus_ne_pending (status : RetryableStatus) :
    status.toStatus ≠ .pending := by
  cases status <;> simp [toStatus]

theorem RetryableStatus.toStatus_ne_delivered (status : RetryableStatus) :
    status.toStatus ≠ .delivered := by
  cases status <;> simp [toStatus]

/-! ### Settling an attempt -/

/-- A text cut at 200 code units satisfies the CHECK on last_error. -/
theorem checkLastError_take (error : Option Units) :
    checkLastError (error.map fun e => columnText (e.take MAX_ERROR_CHARS)) = true := by
  cases error with
  | none => rfl
  | some e =>
      have hle : sqlLength (columnText (e.take MAX_ERROR_CHARS)) ≤ MAX_ERROR_CHARS := by
        calc sqlLength (columnText (e.take MAX_ERROR_CHARS))
            ≤ ((columnText (e.take MAX_ERROR_CHARS)).takeWhile fun u => u ≠ 0).length :=
              length_codePoints_le _
          _ ≤ (columnText (e.take MAX_ERROR_CHARS)).length := (List.takeWhile_sublist _).length_le
          _ ≤ (e.take MAX_ERROR_CHARS).length := length_toWellFormed_le _
          _ ≤ MAX_ERROR_CHARS := List.length_take_le _ _
      simpa [checkLastError] using hle

/-- The values an attempt writes, with `delay` the wait a retry is given. -/
def settlementOf (config : LoadedConfig) (attempt : Nat) (verdict : Verdict)
    (status : Option Nat) (error : Option Units) (threadId : Option ℚ) (now delay : Nat) :
    Settlement where
  status := (outcomeOf config attempt verdict).nextStatus
  attempts := attempt
  nextAttemptAt := if outcomeOf config attempt verdict = .retry then some (now + delay) else none
  lastAttemptAt := now
  lastStatus := status
  lastError := error.map fun e => columnText (e.take MAX_ERROR_CHARS)
  threadId := threadId
  deliveredAt := if outcomeOf config attempt verdict = .delivered then some now else none
  purgeAt :=
    if outcomeOf config attempt verdict = .delivered then some (now + config.retentionMs) else none

/-- What settling writes once the delay of the attempt is known: the error text fits its column. -/
theorem settle_of_delay (inbox : Inbox) (id : String) {config : LoadedConfig} {attempt delay : Nat}
    (hdelay : backoffMs config.backoffSeconds attempt = some delay) (verdict : Verdict)
    (status : Option Nat) (error : Option Units) (threadId : Option ℚ) (now : Nat) :
    settle inbox id config attempt verdict status error threadId now =
      some (inbox.updateWhere (InboxRow.isPendingId id)
        (settlementOf config attempt verdict status error threadId now delay).apply
        (Settlement.apply_id _), inbox.rows.any (InboxRow.isPendingId id)) := by
  have hset : settlement config attempt verdict status error threadId now =
      some (settlementOf config attempt verdict status error threadId now delay) := by
    unfold settlement settlementOf
    by_cases hr : outcomeOf config attempt verdict = .retry <;> simp [hr, hdelay]
  have hcheck : checkLastError
      (settlementOf config attempt verdict status error threadId now delay).lastError = true :=
    checkLastError_take error
  simp [settle, hset, hcheck]

/--
**Settling never raises**: a loaded configuration always has a delay, at least a second
long, and the error text fits its column.
-/
theorem settle_eq (inbox : Inbox) (id : String) (config : LoadedConfig) (attempt : Nat)
    (verdict : Verdict) (status : Option Nat) (error : Option Units) (threadId : Option ℚ)
    (now : Nat) : ∃ delay, 1000 ≤ delay ∧
      settle inbox id config attempt verdict status error threadId now =
        some (inbox.updateWhere (InboxRow.isPendingId id)
          (settlementOf config attempt verdict status error threadId now delay).apply
          (Settlement.apply_id _), inbox.rows.any (InboxRow.isPendingId id)) := by
  obtain ⟨delay, hdelay, hge⟩ := config.backoffMs_ge attempt
  exact ⟨delay, hge, settle_of_delay inbox id hdelay verdict status error threadId now⟩

/-- A row selected as pending under an id is the row under that id. -/
theorem any_isPendingId (inbox : Inbox) (id : String) :
    inbox.rows.any (InboxRow.isPendingId id) = true ↔
      ∃ row, inbox.get? id = some row ∧ row.status = .pending := by
  simp only [List.any_eq_true, InboxRow.isPendingId, Bool.and_eq_true, decide_eq_true_eq]
  constructor
  · rintro ⟨row, hmem, rfl, hst⟩
    exact ⟨row, Table.get?_of_mem hmem, hst⟩
  · rintro ⟨row, hget, hst⟩
    exact ⟨row, Table.mem_of_get? hget, Table.key_of_get? hget, hst⟩

/-- Only an outcome of `delivered` schedules a purge. -/
theorem outcomeOf_delivered {config : LoadedConfig} {attempt : Nat} {verdict : Verdict}
    (h : outcomeOf config attempt verdict = .delivered) : verdict = .delivered := by
  unfold outcomeOf at h
  split at h
  · simp at h
  · exact h

theorem outcomeOf_retry {config : LoadedConfig} {attempt : Nat} {verdict : Verdict}
    (h : outcomeOf config attempt verdict = .retry) : attempt < config.maxAttempts := by
  unfold outcomeOf at h
  split at h
  · simp at h
  · rename_i hn
    by_contra hge
    exact hn ⟨h, by omega⟩

/-! ### The rows a pass selects -/

private theorem dueBefore_total (a b : InboxRow) :
    InboxRow.dueBefore a b ∨ InboxRow.dueBefore b a := by
  unfold InboxRow.dueBefore
  rcases Nat.lt_trichotomy (a.nextAttemptAt.getD 0) (b.nextAttemptAt.getD 0) with h | h | h
  · exact Or.inl (Or.inl h)
  · rcases le_total a.id b.id with hid | hid
    · exact Or.inl (Or.inr ⟨h, hid⟩)
    · exact Or.inr (Or.inr ⟨h.symm, hid⟩)
  · exact Or.inr (Or.inl h)

private theorem dueBefore_trans {a b c : InboxRow} (hab : InboxRow.dueBefore a b)
    (hbc : InboxRow.dueBefore b c) : InboxRow.dueBefore a c := by
  unfold InboxRow.dueBefore at hab hbc ⊢
  rcases hab with hab | ⟨hab, hid⟩ <;> rcases hbc with hbc | ⟨hbc, hid'⟩
  · exact Or.inl (by omega)
  · exact Or.inl (by omega)
  · exact Or.inl (by omega)
  · exact Or.inr ⟨by omega, le_trans hid hid'⟩

instance : Std.Total InboxRow.dueBefore := ⟨dueBefore_total⟩

instance : IsTrans InboxRow InboxRow.dueBefore := ⟨fun _ _ _ => dueBefore_trans⟩

theorem mem_dueRows {inbox : Inbox} {now : Nat} {row : InboxRow} (h : row ∈ dueRows inbox now) :
    inbox.get? row.id = some row ∧ row.status = .pending ∧
      ∃ t, row.nextAttemptAt = some t ∧ t ≤ now := by
  have hmem := List.mem_of_mem_take h
  rw [List.mem_insertionSort, List.mem_filter] at hmem
  obtain ⟨hrow, hdue⟩ := hmem
  simp only [InboxRow.isDue, Bool.and_eq_true, decide_eq_true_eq, Option.any_eq_true] at hdue
  exact ⟨Table.get?_of_mem hrow, hdue.1, hdue.2⟩

theorem dueRows_nodup (inbox : Inbox) (now : Nat) : ((dueRows inbox now).map (·.id)).Nodup := by
  have hsort : (((inbox.rows.filter (InboxRow.isDue now)).insertionSort
      InboxRow.dueBefore).map (·.id)).Nodup := by
    refine (List.Perm.nodup_iff
      ((List.perm_insertionSort InboxRow.dueBefore _).map (·.id))).mpr ?_
    exact inbox.nodup.sublist (List.filter_sublist.map _)
  exact hsort.sublist ((List.take_sublist _ _).map _)

/--
A due row the pass leaves out has a full batch before it: the selection is a prefix of
the due rows in their order.
-/
theorem dueRows_full_before {inbox : Inbox} {now : Nat} {row : InboxRow}
    (hmem : row ∈ inbox.rows) (hdue : row.isDue now = true) (hout : row ∉ dueRows inbox now) :
    (dueRows inbox now).length = ALARM_BATCH ∧
      ∀ r ∈ dueRows inbox now, InboxRow.dueBefore r row := by
  set sorted := (inbox.rows.filter (InboxRow.isDue now)).insertionSort InboxRow.dueBefore
    with hsorted
  have hin : row ∈ sorted := by
    rw [hsorted, List.mem_insertionSort, List.mem_filter]
    exact ⟨hmem, hdue⟩
  have hsplit : sorted.take ALARM_BATCH ++ sorted.drop ALARM_BATCH = sorted :=
    List.take_append_drop _ _
  have hdrop : row ∈ sorted.drop ALARM_BATCH := by
    rw [← hsplit] at hin
    rcases List.mem_append.mp hin with h | h
    · exact absurd h hout
    · exact h
  have hpair : sorted.Pairwise InboxRow.dueBefore := List.pairwise_insertionSort _ _
  constructor
  · have hlt : ALARM_BATCH < sorted.length := by
      by_contra hle
      rw [List.drop_eq_nil_of_le (by omega)] at hdrop
      simp at hdrop
    show (sorted.take ALARM_BATCH).length = ALARM_BATCH
    rw [List.length_take]
    omega
  · intro r hr
    rw [← hsplit] at hpair
    exact (List.pairwise_append.mp hpair).2.2 r hr row hdrop

/-! ### The purge -/

theorem mem_expiredRows {inbox : Inbox} {now : Nat} {row : InboxRow}
    (h : row ∈ expiredRows inbox now) :
    inbox.get? row.id = some row ∧ ∃ t, row.purgeAt = some t ∧ t ≤ now := by
  have hmem := List.mem_of_mem_take h
  rw [List.mem_insertionSort, List.mem_filter] at hmem
  obtain ⟨hrow, hexp⟩ := hmem
  simp only [InboxRow.isExpired, Option.any_eq_true, decide_eq_true_eq] at hexp
  exact ⟨Table.get?_of_mem hrow, hexp⟩

/-- The purge deletes the listed rows that still await it. -/
theorem get?_purgeRows (expired : List InboxRow) :
    ∀ (inbox : Inbox) (id : String), (purgeRows inbox expired).get? id =
      (inbox.get? id).filter fun r => !((expired.any fun e => r.id = e.id) && r.purgeAt.isSome) := by
  induction expired with
  | nil =>
      intro inbox id
      cases h : inbox.get? id <;> simp [purgeRows, h, Option.filter]
  | cons e rest ih =>
      intro inbox id
      have hfold : purgeRows inbox (e :: rest) =
          purgeRows (inbox.deleteWhere fun r => r.id = e.id && r.purgeAt.isSome) rest := rfl
      rw [hfold, ih, Table.get?_deleteWhere]
      cases h : inbox.get? id with
      | none => rfl
      | some r =>
          by_cases hid : r.id = e.id <;> by_cases hp : r.purgeAt.isSome = true <;>
            simp [Option.filter, hid, hp]

end MailCloudflare
