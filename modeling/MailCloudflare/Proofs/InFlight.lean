/-
The snapshot a pass works on stays current.

`processDue` reads its rows once and then works through them, with requests let in at every
await.  What keeps the snapshot good is that nothing but the pass itself writes to a pending
row: `enqueue` ignores an id that is taken, `retry` and `retryAll` leave a pending row alone,
a purge is about delivered rows.  Only `remove` can take a row away under the pass.  So every
row the pass still has to settle is in the table exactly as it was read, or has been removed.
-/
import MailCloudflare.Proofs.RowInvariant

namespace MailCloudflare

open Unicode Keyed Transition

variable {env : Worker} {w w' : World} {a : Action}

/-! ### How a pass moves through its rows -/

/-- A pass after one of its steps, or after something else has happened. -/
structure Continues (p p' : Pass) : Prop where
  started : p'.started = p.started
  selected : p'.selected = p.selected
  healthy : p'.healthy = true → p.healthy = true

/-- What a step does to the rows the pass still has to settle. -/
inductive TodoChange (w : World) (a : Action) (w' : World) (p' : Pass) : Prop
  /-- The pass has just begun. -/
  | selected (hpass : w.pass = none) (htodo : p'.stage.todo = dueRows w.queue.inbox w'.clock)
      (hinbox : w'.queue.inbox = w.queue.inbox) (hstarted : p'.started = w'.clock)
      (hselected : p'.selected = dueRows w.queue.inbox w'.clock)
      (hlog : w'.history = .passStarted w'.clock :: w.history)
  /-- It has just begun and has nothing to settle, or no configuration to do it with. -/
  | idle (hpass : w.pass = none) (htodo : p'.stage.todo = []) (hstarted : p'.started = w'.clock)
      (hselected : p'.selected = dueRows w.queue.inbox w'.clock)
      (hwhy : dueRows w.queue.inbox w'.clock = [] ∨
        p'.healthy = false ∧ a = .alarm w'.clock none)
  /-- The row at hand stays at hand. -/
  | kept {p : Pass} (hpass : w.pass = some p) (hsame : Continues p p')
      (htodo : p'.stage.todo = p.stage.todo)
      (hunsettled : ∀ snapshot due config verdict status now,
        ¬ Settling p.stage a snapshot due config verdict status now)
      (hposted : ∀ row, p.stage.posted? = some row → p'.stage.posted? = some row)
  /-- The row at hand has been settled, or its attempt threw. -/
  | advanced {p : Pass} {row : InboxRow} (hpass : w.pass = some p) (hsame : Continues p p')
      (htodo : p.stage.todo = row :: p'.stage.todo)
      (hlog : w'.history = .threw row.id :: w.history ∨ ∃ attempt outcome status applied,
        w'.history = .settled row.id attempt outcome status applied :: w.history)

theorem RequestStep.not_settling (h : RequestStep w a w') {stage : PassStage}
    {snapshot : InboxRow} {due : List InboxRow} {config : LoadedConfig} {verdict : Verdict}
    {status : Option Nat} {now : Nat} :
    ¬ Settling stage a snapshot due config verdict status now := by
  intro hs
  cases h with
  | duplicate hcaller | inserted hcaller => cases hcaller <;> cases hs
  | requeued | left | requeuedAll | missing | removing | objectRemoved | removed
  | removeFailed => cases hs

theorem EmailStep.not_settling (h : EmailStep env w a w') {stage : PassStage}
    {snapshot : InboxRow} {due : List InboxRow} {config : LoadedConfig} {verdict : Verdict}
    {status : Option Nat} {now : Nat} :
    ¬ Settling stage a snapshot due config verdict status now := by
  intro hs
  cases h <;> cases hs

theorem todoChange (hs : Step env w a w') {p' : Pass} (hp : w'.pass = some p') :
    TodoChange w a w' p' := by
  cases hs with
  | email hs =>
      exact .kept (hs.pass ▸ hp) ⟨rfl, rfl, id⟩ rfl (fun _ _ _ _ _ _ => hs.not_settling) fun _ h => h
  | request hs =>
      exact .kept (hs.pass ▸ hp) ⟨rfl, rfl, id⟩ rfl (fun _ _ _ _ _ _ => hs.not_settling) fun _ h => h
  | crash _ hw =>
      rw [hw] at hp
      cases hp
  | pass hs =>
      cases hs with
      | idle hpass hdue =>
          cases hp
          exact .idle hpass rfl rfl hdue.symm (Or.inl hdue)
      | configFailed hpass =>
          cases hp
          exact .idle hpass rfl rfl rfl (Or.inr ⟨rfl, rfl⟩)
      | started hpass =>
          cases hp
          exact .selected hpass rfl rfl rfl rfl rfl
      | loopEnd hpass hstage | loopNext hpass hstage | read hpass hstage
      | posted hpass hstage | nothingExpired hpass hstage
      | purging hpass hstage | objectPurged hpass hstage | purged hpass hstage
      | purgeFailed hpass hstage =>
          cases hp
          refine .kept hpass ⟨rfl, rfl, by simp⟩ (by rw [hstage]; rfl) ?_ ?_
          · intro snapshot due config verdict status now hsettling
            rw [hstage] at hsettling
            cases hsettling
          · intro row hrow
            rw [hstage] at hrow
            cases hrow
      | responded hpass hstage =>
          cases hp
          refine .kept hpass ⟨rfl, rfl, id⟩ (by rw [hstage]; rfl) ?_ ?_
          · intro snapshot due config verdict status now hsettling
            rw [hstage] at hsettling
            cases hsettling
          · intro row hrow
            rw [hstage] at hrow
            exact hrow
      | threw hpass hstage =>
          cases hp
          exact .advanced hpass ⟨rfl, rfl, id⟩ (by rw [hstage]; rfl) (Or.inl rfl)
      | settled hpass hsettling =>
          cases hp
          exact .advanced hpass ⟨rfl, rfl, id⟩ hsettling.stage_todo (Or.inr ⟨_, _, _, _, rfl⟩)
      | ended | endedFailed => cases hp

/-! ### Ids that have been queued -/

/-- A row has been inserted under the id. -/
def Enqueued (history : List Event) (id : String) : Prop :=
  ∃ t, .enqueued id t ∈ history

private theorem any_enqueued (history : List Event) (id : String) :
    (history.any fun e => match e with
      | .enqueued i _ => i = id
      | _ => false) = true ↔ Enqueued history id := by
  rw [List.any_eq_true]
  constructor
  · rintro ⟨e, he, hid⟩
    cases e with
    | enqueued i t =>
        obtain rfl : i = id := by simpa using hid
        exact ⟨t, he⟩
    | _ => cases hid
  · rintro ⟨t, ht⟩
    exact ⟨_, ht, by simp⟩

instance (history : List Event) (id : String) : Decidable (Enqueued history id) :=
  decidable_of_iff _ (any_enqueued history id)

variable {id : String}

theorem Enqueued.step (h : Enqueued w.history id) (hs : Step env w a w') :
    Enqueued w'.history id := by
  obtain ⟨t, ht⟩ := h
  exact ⟨t, hs.mem_history ht⟩

theorem enqueued_cases (hs : Step env w a w') (h : Enqueued w'.history id) :
    Enqueued w.history id ∨ ∃ input now config emails, Caller w a input now config emails ∧
      input.id = id ∧ w'.emails = emails := by
  obtain ⟨t, ht⟩ := h
  rcases hs.logged ht with hold | hnew
  · exact Or.inl ⟨t, hold⟩
  · exact Or.inr hnew

/-- What has ever been a row, or is being removed as one, was queued. -/
structure Traced (w : World) : Prop where
  row : ∀ id row, w.queue.inbox.get? id = some row → Enqueued w.history id
  removal : ∀ call r, w.removals call = some r → Enqueued w.history r.id
  removed : ∀ id, .removed id ∈ w.history → Enqueued w.history id

theorem traced_step (hs : Step env w a w') (h : Traced w) : Traced w' where
  row := by
    intro id row hrow
    cases hs.rowFrom hrow with
    | kept hold => exact (h.row id row hold).step hs
    | inserted _ _ _ hlog => exact ⟨_, hs.mem_of_logOf hlog (List.mem_singleton_self _)⟩
    | requeued hold => exact (h.row id _ hold).step hs
    | settled _ _ _ hold => exact (h.row id _ hold).step hs
  removal := by
    intro call r hr
    rcases removal_cases hs hr with ⟨old, hold, hid, -⟩ | ⟨row, hrow, -⟩
    · rw [← hid]
      exact (h.removal call old hold).step hs
    · exact (h.row r.id row hrow).step hs
  removed := by
    intro id hremoved
    rcases hs.logged hremoved with hold | ⟨call, r, hr, rfl⟩
    · exact (h.removed id hold).step hs
    · exact (h.removal call r hr).step hs

theorem traced_reachable {ok : World → Action → Prop} (h : Reachable (step env) ok .init w) :
    Traced w := by
  refine Reachable.invariant ?_ ?_ h
  · refine ⟨?_, ?_, ?_⟩ <;> simp [World.init, Queue.init]
  · intro w a w' _ htraced _ hs
    exact traced_step (step_cases hs) htraced

/-! ### The snapshot and the table -/

/-- A row as a pass read it is still what the table holds, or it has been removed. -/
def Current (w : World) (row : InboxRow) : Prop :=
  w.queue.inbox.get? row.id = some row ∨
    w.queue.inbox.get? row.id = none ∧ .removed row.id ∈ w.history

theorem Current.eq {row r : InboxRow} (h : Current w row) (hget : w.queue.inbox.get? row.id = some r) :
    r = row := by
  rcases h with hrow | ⟨hnone, -⟩
  · exact Option.some.inj (hget.symm.trans hrow)
  · rw [hnone] at hget
    cases hget

structure InFlight (w : World) : Prop where
  /-- No row is in the snapshot twice. -/
  nodup : ∀ p, w.pass = some p → (p.stage.todo.map (·.id)).Nodup
  /-- Each was pending when it was read, and is current. -/
  current : ∀ p, w.pass = some p → ∀ row ∈ p.stage.todo, row.status = .pending ∧ Current w row

/-- The rows behind the one at hand have other ids. -/
theorem InFlight.ne_head (h : InFlight w) {p : Pass} (hp : w.pass = some p) {head row : InboxRow}
    {rest : List InboxRow} (htodo : p.stage.todo = head :: rest) (hrow : row ∈ rest) :
    row.id ≠ head.id := by
  intro hid
  have hnodup := h.nodup p hp
  rw [htodo, List.map_cons, List.nodup_cons] at hnodup
  exact hnodup.1 (hid ▸ List.mem_map_of_mem hrow)

/-- The id a caller of `enqueue` queues. -/
def enqueuedId (w : World) : Action → Option String
  | .enqueue input _ _ => some input.id
  | .emailEnqueue id _ _ => (w.emails id).map (·.input.id)
  | _ => none

/-- An id whose row has left the table is not queued again. -/
def NoReenqueue (w : World) (a : Action) : Prop :=
  ∀ id ∈ enqueuedId w a, w.queue.inbox.get? id = none → ¬ Enqueued w.history id

instance (w : World) : DecidablePred (NoReenqueue w) := fun a =>
  inferInstanceAs (Decidable (∀ id ∈ enqueuedId w a, w.queue.inbox.get? id = none →
    ¬ Enqueued w.history id))

theorem Caller.enqueuedId {input : EnqueueInput} {now : Nat} {config : Option LoadedConfig}
    {emails : String → Option Email} (h : Caller w a input now config emails) :
    input.id ∈ enqueuedId w a := by
  cases h with
  | direct => rfl
  | email he => simp [MailCloudflare.enqueuedId, he]

theorem NoReenqueue.not_enqueued {input : EnqueueInput} {now : Nat} {config : Option LoadedConfig}
    {emails : String → Option Email} (hok : NoReenqueue w a)
    (hcaller : Caller w a input now config emails) (hid : input.id = id)
    (hnone : w.queue.inbox.get? id = none) : ¬ Enqueued w.history id := by
  subst hid
  exact hok _ hcaller.enqueuedId hnone

/-- Nothing but its own settling changes a row that a pass has read as pending. -/
theorem current_step (hs : Step env w a w') (hok : NoReenqueue w a) (htraced : Traced w)
    (hshape : RowsShaped w)
    {row : InboxRow} (hpending : row.status = .pending) (h : Current w row)
    (hunsettled : ∀ p snapshot due config verdict status now, w.pass = some p →
      Settling p.stage a snapshot due config verdict status now → snapshot.id ≠ row.id) :
    Current w' row := by
  rcases h with hrow | ⟨hnone, hremoved⟩
  · cases hs.pendingChange hshape hpending hrow with
    | kept hkept => exact Or.inl hkept
    | settled hpass hsettling hid => exact absurd hid (hunsettled _ _ _ _ _ _ _ hpass hsettling)
    | removed hgone hlog =>
        exact Or.inr ⟨hgone, hs.mem_of_logOf hlog (List.mem_singleton_self _)⟩
  · refine Or.inr ⟨?_, hs.mem_history hremoved⟩
    cases hs.rowChange row.id with
    | kept hkept => exact hkept.trans hnone
    | inserted hcaller hid =>
        exact absurd (htraced.removed row.id hremoved) (hok.not_enqueued hcaller hid hnone)
    | requeued hold =>
        rw [hnone] at hold
        cases hold
    | settled _ _ _ _ hold =>
        rw [hnone] at hold
        cases hold
    | removed _ _ hgone => exact hgone
    | purged _ _ _ _ hold =>
        rw [hnone] at hold
        cases hold

theorem inFlight_step (hs : Step env w a w') (hok : NoReenqueue w a) (htraced : Traced w)
    (hshape : RowsShaped w) (h : InFlight w) : InFlight w' where
  nodup := by
    intro p' hp'
    cases todoChange hs hp' with
    | selected _ htodo =>
        rw [htodo]
        exact dueRows_nodup _ _
    | idle _ htodo =>
        rw [htodo]
        exact List.nodup_nil
    | kept hpass _ htodo =>
        rw [htodo]
        exact h.nodup _ hpass
    | advanced hpass _ htodo =>
        have hold := h.nodup _ hpass
        rw [htodo, List.map_cons] at hold
        exact hold.of_cons
  current := by
    intro p' hp' row hrow
    cases todoChange hs hp' with
    | selected _ htodo hinbox =>
        rw [htodo] at hrow
        obtain ⟨hget, hpending, -⟩ := mem_dueRows hrow
        exact ⟨hpending, Or.inl (hinbox ▸ hget)⟩
    | idle _ htodo =>
        rw [htodo] at hrow
        cases hrow
    | kept hpass _ htodo hunsettled =>
        rw [htodo] at hrow
        obtain ⟨hpending, hcurrent⟩ := h.current _ hpass row hrow
        refine ⟨hpending, current_step hs hok htraced hshape hpending hcurrent ?_⟩
        intro q snapshot due config verdict status now hq hsettling
        rw [hpass] at hq
        cases hq
        exact absurd hsettling (hunsettled _ _ _ _ _ _)
    | @advanced p head hpass _ htodo =>
        have hmem : row ∈ p.stage.todo := by
          rw [htodo]
          exact List.mem_cons_of_mem _ hrow
        obtain ⟨hpending, hcurrent⟩ := h.current _ hpass row hmem
        refine ⟨hpending, current_step hs hok htraced hshape hpending hcurrent ?_⟩
        intro q snapshot due config verdict status now hq hsettling hid
        rw [hpass] at hq
        cases hq
        -- The row just settled is the head, and the others have other ids.
        have hhead := hsettling.stage_todo
        rw [htodo] at hhead
        cases hhead
        exact h.ne_head hpass htodo hrow hid.symm

theorem inFlight_init : InFlight .init where
  nodup := by
    intro p hp
    cases hp
  current := by
    intro p hp
    cases hp

end MailCloudflare
