/-
No row starves.

A pass takes ten rows in the order of their next attempt.  Whatever is written to the table
gets a next attempt no earlier than the clock, so nothing is ever put before a row whose
time has passed: the rows ahead of it only become fewer.  A pass that does not come to the
row itself has taken ten rows ahead of it, and every attempt that ends in `settle` takes its
row out of the way, because a retry is put off by at least a second.

`Waiting` counts this: for a row that has been waiting since some state of the run, the rows
ahead of it now, and ten for every pass since, are no more than the rows ahead of it then.
-/
import MailCloudflare.Proofs.InFlight
import Mathlib.Data.Finset.Card

namespace MailCloudflare

open Unicode JavaScript Keyed Transition

variable {env : Worker} {w w' : World} {a : Action} {r : InboxRow} {n : Nat}

/-! ### The rows ahead -/

/-- The pending rows that come before `r` in the order of a pass. -/
def ahead (w : World) (r : InboxRow) : Finset InboxRow :=
  (w.queue.inbox.rows.filter fun row =>
    row.status = .pending ∧ InboxRow.dueBefore row r ∧ row.id ≠ r.id).toFinset

theorem mem_ahead {row : InboxRow} : row ∈ ahead w r ↔
    w.queue.inbox.get? row.id = some row ∧ row.status = .pending ∧
      InboxRow.dueBefore row r ∧ row.id ≠ r.id := by
  simp [ahead, Table.mem_rows_iff]

/-- Nothing whose time has not come is before a row whose time has passed. -/
theorem not_dueBefore {row : InboxRow} {t : Nat} (hnext : r.nextAttemptAt = some n)
    (hrow : row.nextAttemptAt = some t) (hlate : n < t) : ¬ InboxRow.dueBefore row r := by
  unfold InboxRow.dueBefore
  simp only [hnext, hrow, Option.getD_some]
  omega

/-- What a step puts on the queue, it puts there for no earlier than now. -/
theorem row_of_ahead_step (hs : Step env w a w') (hclock : w.clock ≤ w'.clock)
    (hnext : r.nextAttemptAt = some n) (hdue : n < w.clock) {row : InboxRow}
    (hrow : row ∈ ahead w' r) : w'.queue.inbox.get? row.id = w.queue.inbox.get? row.id := by
  obtain ⟨hget, hpending, hbefore, -⟩ := mem_ahead.mp hrow
  cases hs.rowFrom hget with
  | kept hold => exact hget.trans hold.symm
  | inserted | requeued => exact absurd hbefore (not_dueBefore hnext rfl (by omega))
  | settled _ _ hdelay =>
      have hlate := settle_nextAttemptAt hpending
      exact absurd hbefore (not_dueBefore hnext hlate (by omega))

/-- **The rows ahead of a due row only become fewer.** -/
theorem ahead_step (hs : Step env w a w') (hclock : w.clock ≤ w'.clock)
    (hnext : r.nextAttemptAt = some n) (hdue : n < w.clock) : ahead w' r ⊆ ahead w r := by
  intro row hrow
  have hkept := row_of_ahead_step hs hclock hnext hdue hrow
  obtain ⟨hget, hrest⟩ := mem_ahead.mp hrow
  exact mem_ahead.mpr ⟨hkept ▸ hget, hrest⟩

/-- A row whose attempt has been settled is no longer ahead. -/
theorem settled_not_ahead (hs : Step env w a w') (hclock : w.clock ≤ w'.clock)
    (hnext : r.nextAttemptAt = some n) (hdue : n < w.clock) {id : String} {attempt : Nat}
    {outcome : Verdict} {status : Option Nat} {applied : Bool}
    (hlog : w'.history = .settled id attempt outcome status applied :: w.history) :
    ∀ row ∈ ahead w' r, row.id ≠ id := by
  rintro row hrow rfl
  have hsame := row_of_ahead_step hs hclock hnext hdue hrow
  obtain ⟨hget, hpending, hbefore, -⟩ := mem_ahead.mp hrow
  cases hs.settleChange hlog with
  | missed hgone => exact hgone row (hsame ▸ hget) hpending
  | applied _ _ _ _ hdelay _ hsome =>
      rw [hget] at hsome
      cases hsome
      have hlate := settle_nextAttemptAt hpending
      exact absurd hbefore (not_dueBefore hnext hlate (by omega))

/-! ### Attempts that do not throw -/

/-- The configuration loads, the object store answers, and the envelope can be encoded. -/
def NoThrow (w : World) : Action → Prop
  | .alarm _ config => config.isSome
  | .getReturn ok _ => ok = true ∧ ∀ row ∈ w.pass.bind fun p => p.stage.todo.head?,
      (asciiValue row.envelopeFrom).isSome ∧ (asciiValue row.envelopeTo).isSome
  | _ => True

/-- What is asked of a run for its rows to be attempted. -/
def Attempting (w : World) (a : Action) : Prop :=
  ClockForward w a ∧ NoThrow w a

theorem deliveryRequest_none {config : LoadedConfig} {row : InboxRow} {attempt now : Nat}
    {body : Bytes} (h : deliveryRequest env config row attempt body now = none) :
    asciiValue row.envelopeFrom = none ∨ asciiValue row.envelopeTo = none := by
  unfold deliveryRequest at h
  cases hfrom : asciiValue row.envelopeFrom with
  | none => exact Or.inl rfl
  | some envelopeFrom =>
      cases hto : asciiValue row.envelopeTo with
      | none => exact Or.inr rfl
      | some envelopeTo => simp [hfrom, hto] at h

theorem NoThrow.not_threw (hok : NoThrow w a) (hs : Step env w a w') (id : String) :
    w'.history ≠ .threw id :: w.history := by
  intro hthrew
  have hrow : logOf id w'.history = [.threw id] ++ logOf id w.history := by
    simp [hthrew, logOf, Event.concerns]
  cases hs.rowChange id with
  | inserted _ _ _ _ _ hlog | requeued _ _ _ _ hlog | settled _ _ _ _ _ _ _ hlog
  | removed _ _ _ hlog =>
      rw [hlog] at hrow
      cases List.append_cancel_right hrow
  | purged _ _ _ _ _ _ _ hlog => simp [hlog] at hrow
  | kept _ hquiet hlog =>
      rw [hlog] at hrow
      cases List.append_cancel_right hrow
      cases hquiet with
      | @threw p row due config object ok hpass hstage _ _ hcall hcause =>
          subst hcall
          obtain ⟨hread, hencodes⟩ := hok
          obtain ⟨hfrom, hto⟩ := hencodes row (by simp [hpass, hstage, PassStage.todo])
          rcases hcause with hfailed | ⟨body, -, hnone⟩
          · rw [hread] at hfailed
            cases hfailed
          · rcases deliveryRequest_none hnone with hnone | hnone
            · simp [hnone] at hfrom
            · simp [hnone] at hto

/-! ### Counting passes -/

/-- How many passes came to their end. -/
def passesEnded : List Event → Nat
  | [] => 0
  | .passEnded _ _ :: rest => passesEnded rest + 1
  | _ :: rest => passesEnded rest

theorem passesEnded_append (new history : List Event) :
    passesEnded (new ++ history) = passesEnded new + passesEnded history := by
  induction new with
  | nil => simp [passesEnded]
  | cons e rest ih =>
      cases e with
      | passEnded =>
          simp only [List.cons_append, passesEnded, ih]
          omega
      | _ => exact ih

private theorem passesEnded_requeued (ids : List String) (now : Nat) (history : List Event) :
    passesEnded (ids.map (fun id => Event.requeued id now) ++ history) = passesEnded history := by
  induction ids with
  | nil => rfl
  | cons id rest ih => exact ih

/-- Passes end one at a time, at their last stage. -/
theorem passesEnded_step (hs : Step env w a w') :
    passesEnded w'.history = passesEnded w.history ∨
      passesEnded w'.history = passesEnded w.history + 1 ∧ w'.pass = none ∧
        ∃ p, w.pass = some p ∧ p.stage = .rearming := by
  cases hs with
  | email hs => cases hs <;> exact Or.inl rfl
  | crash _ hw => exact Or.inl (by rw [hw])
  | request hs =>
      cases hs with
      | requeuedAll => exact Or.inl (passesEnded_requeued ..)
      | _ => exact Or.inl rfl
  | pass hs =>
      cases hs with
      | ended hpass hstage | endedFailed hpass hstage =>
          exact Or.inr ⟨rfl, rfl, _, hpass, hstage⟩
      | _ => exact Or.inl rfl

/-! ### A waiting row -/

/-- An attempt on the row was settled, or the row was removed. -/
def Attempted (new : List Event) (r : InboxRow) : Prop :=
  (∃ attempt outcome status, .settled r.id attempt outcome status true ∈ new) ∨
    .removed r.id ∈ new

theorem Attempted.mono {new new' : List Event} (h : Attempted new r) (hsubset : new ⊆ new') :
    Attempted new' r := by
  rcases h with ⟨attempt, outcome, status, hmem⟩ | hmem
  · exact Or.inl ⟨attempt, outcome, status, hsubset hmem⟩
  · exact Or.inr (hsubset hmem)

/-- What a running pass does for a row that is waiting. -/
inductive Serves (w : World) (p : Pass) (r : InboxRow) (ended bound : Nat) : Prop
  /-- The pass began before the row was watched and is allowed for. -/
  | earlier (hle : (ahead w r).card + ALARM_BATCH * (ended + 1) ≤ bound)
  /-- The row is in it. -/
  | comes (htodo : r ∈ p.stage.todo)
  /-- It has taken ten rows ahead of it, and those it has settled are ahead no more. -/
  | clears (hle : (ahead w r ∪ p.selected.toFinset).card + ALARM_BATCH * ended ≤ bound)
      (hfull : p.selected.toFinset.card = ALARM_BATCH)
      (hrows : ∀ row ∈ p.selected, row ∈ p.stage.todo ∨ row ∉ ahead w r)

/-- Since `ended` passes the row waits, and never were more than `bound` rows ahead of it. -/
structure Waiting (w : World) (r : InboxRow) (ended bound : Nat) : Prop where
  row : w.queue.inbox.get? r.id = some r
  fewer : (ahead w r).card + ALARM_BATCH * ended ≤ bound
  serves : ∀ p, w.pass = some p → Serves w p r ended bound

theorem row_waits_step (hs : Step env w a w') (hshape : RowsShaped w) (hpending : r.status = .pending)
    {new : List Event} (hnew : w'.history = new ++ w.history)
    (hrow : w.queue.inbox.get? r.id = some r) :
    Attempted new r ∨ w'.queue.inbox.get? r.id = some r := by
  cases hs.pendingChange hshape hpending hrow with
  | kept hkept => exact Or.inr hkept
  | settled _ _ _ hlog =>
      rw [hnew] at hlog
      exact Or.inl (Or.inl ⟨_, _, _, mem_of_logOf hlog (List.mem_singleton_self _)⟩)
  | removed _ hlog =>
      rw [hnew] at hlog
      exact Or.inl (Or.inr (mem_of_logOf hlog (List.mem_singleton_self _)))

/-- An attempt on a row that is there and pending takes effect. -/
theorem settled_applied (hs : Step env w a w') (hpending : r.status = .pending)
    (hrow : w.queue.inbox.get? r.id = some r) {attempt : Nat} {outcome : Verdict}
    {status : Option Nat} {applied : Bool}
    (hsettled : w'.history = .settled r.id attempt outcome status applied :: w.history) :
    applied = true := by
  cases hs.settleChange hsettled with
  | missed hgone => exact absurd hpending (hgone r hrow)
  | applied => rfl

/-- A pass that begins takes the row, or ten rows ahead of it. -/
theorem serves_begun {ended bound : Nat} {p : Pass} (hpending : r.status = .pending)
    (hnext : r.nextAttemptAt = some n) (hrow : w.queue.inbox.get? r.id = some r)
    (hfewer : (ahead w r).card + ALARM_BATCH * ended ≤ bound) {now : Nat} (hdue : n < now)
    (hselected : p.selected = dueRows w.queue.inbox now)
    (htodo : p.stage.todo = dueRows w.queue.inbox now) : Serves w p r ended bound := by
  by_cases hin : r ∈ dueRows w.queue.inbox now
  · exact .comes (htodo ▸ hin)
  · have hisDue : r.isDue now = true := by
      simp [InboxRow.isDue, hpending, hnext]
      omega
    obtain ⟨hlength, hbefore⟩ := dueRows_full_before (Table.mem_of_get? hrow) hisDue hin
    have hahead : ∀ row ∈ p.selected, row ∈ ahead w r := by
      intro row hmem
      rw [hselected] at hmem
      obtain ⟨hget, hrowPending, -⟩ := mem_dueRows hmem
      refine mem_ahead.mpr ⟨hget, hrowPending, hbefore row hmem, fun hid => ?_⟩
      rw [hid, hrow] at hget
      cases hget
      exact hin hmem
    refine .clears ?_ ?_ fun row hmem => Or.inl (by rwa [htodo, ← hselected])
    · have hsubset : p.selected.toFinset ⊆ ahead w r := by
        intro row hmem
        exact hahead row (List.mem_toFinset.mp hmem)
      rwa [Finset.union_eq_left.mpr hsubset]
    · rw [hselected, List.toFinset_card_of_nodup (dueRows_nodup _ _).of_map, hlength]

/-- With no row left to settle, ten rows have gone from ahead. -/
theorem Serves.ended {ended bound : Nat} {p : Pass} (h : Serves w p r ended bound)
    (htodo : p.stage.todo = []) : (ahead w r).card + ALARM_BATCH * (ended + 1) ≤ bound := by
  cases h with
  | earlier hle => exact hle
  | comes hmem =>
      rw [htodo] at hmem
      cases hmem
  | clears hle hfull hrows =>
      have hdisjoint : Disjoint (ahead w r) p.selected.toFinset := by
        rw [Finset.disjoint_right]
        intro row hmem
        rcases hrows row (List.mem_toFinset.mp hmem) with hleft | hgone
        · rw [htodo] at hleft
          cases hleft
        · exact hgone
      rw [Finset.card_union_of_disjoint hdisjoint, hfull] at hle
      rw [Nat.mul_succ]
      omega

/-- A pass goes on serving the row while none of its own rows goes unsettled. -/
theorem Serves.step {ended bound : Nat} {p p' : Pass} (h : Serves w p r ended bound)
    (hsubset : ahead w' r ⊆ ahead w r) (hsame : Continues p p')
    (hcomes : r ∈ p.stage.todo → r ∈ p'.stage.todo)
    (hleft : ∀ row ∈ p.stage.todo, row ∈ p'.stage.todo ∨ row ∉ ahead w' r) :
    Serves w' p' r ended bound := by
  cases h with
  | earlier hle =>
      have hcard := Finset.card_le_card hsubset
      exact .earlier (by omega)
  | comes hmem => exact .comes (hcomes hmem)
  | clears hle hfull hrows =>
      have hcard := Finset.card_le_card
        (Finset.union_subset_union_left (t := p.selected.toFinset) hsubset)
      refine .clears ?_ (hsame.selected ▸ hfull) ?_
      · rw [hsame.selected]
        omega
      · intro row hmem
        rw [hsame.selected] at hmem
        rcases hrows row hmem with hin | hgone
        · exact hleft row hin
        · exact Or.inr fun hin => hgone (hsubset hin)

/-- A pass that runs after a step serves the row, unless the step has attempted it. -/
theorem serves_step (hs : Step env w a w') (hok : Attempting w a)
    (hpending : r.status = .pending) (hnext : r.nextAttemptAt = some n) (hdue : n < w.clock)
    {new : List Event} (hnew : w'.history = new ++ w.history) {ended bound : Nat}
    (h : Waiting w r ended bound) (hrow : w'.queue.inbox.get? r.id = some r) {p' : Pass}
    (hp' : w'.pass = some p') : Attempted new r ∨ Serves w' p' r ended bound := by
  obtain ⟨hforward, hnothrow⟩ := hok
  have hclock := hs.clock_le hforward
  have hsubset := ahead_step hs hclock hnext hdue
  cases todoChange hs hp' with
  | selected _ htodo hinbox _ hselected =>
      have hfewer := h.fewer
      have hcard := Finset.card_le_card hsubset
      refine Or.inr ?_
      rw [← hinbox] at htodo hselected
      exact serves_begun hpending hnext hrow (by omega) (by omega) hselected htodo
  | idle _ _ _ _ hwhy =>
      rcases hwhy with hnil | ⟨-, rfl⟩
      · -- The row is due, so a pass that selects nothing would have to be full.
        have hisDue : r.isDue w'.clock = true := by
          simp [InboxRow.isDue, hpending, hnext]
          omega
        have hout : r ∉ dueRows w.queue.inbox w'.clock := by simp [hnil]
        obtain ⟨hlength, -⟩ := dueRows_full_before (Table.mem_of_get? h.row) hisDue hout
        simp [hnil, ALARM_BATCH] at hlength
      · cases hnothrow
  | kept hp hsame htodo =>
      refine Or.inr ((h.serves _ hp).step hsubset hsame ?_ ?_)
      · rw [htodo]
        exact id
      · intro row hmem
        exact Or.inl (htodo ▸ hmem)
  | @advanced p head hp hsame htodo hlog =>
      obtain ⟨attempt, outcome, status, applied, hlog⟩ :=
        hlog.resolve_left (hnothrow.not_threw hs head.id)
      by_cases hhead : head = r
      · subst hhead
        have happlied := settled_applied hs hpending h.row hlog
        have hnews : new = [.settled head.id attempt outcome status applied] := by
          rw [hnew] at hlog
          exact List.append_cancel_right hlog
        exact Or.inl (Or.inl ⟨attempt, outcome, status, by simp [hnews, happlied]⟩)
      · refine Or.inr ((h.serves _ hp).step hsubset hsame ?_ ?_)
        · intro hmem
          rw [htodo] at hmem
          exact (List.mem_cons.mp hmem).resolve_left fun heq => hhead heq.symm
        · intro row hmem
          rw [htodo] at hmem
          rcases List.mem_cons.mp hmem with rfl | hmem
          · exact Or.inr fun hin => settled_not_ahead hs hclock hnext hdue hlog _ hin rfl
          · exact Or.inl hmem

theorem waiting_step (hs : Step env w a w') (hok : Attempting w a) (hshape : RowsShaped w)
    (hpending : r.status = .pending) (hnext : r.nextAttemptAt = some n) (hdue : n < w.clock)
    {new : List Event} (hnew : w'.history = new ++ w.history) {ended bound : Nat}
    (h : Waiting w r ended bound) :
    Attempted new r ∨ Waiting w' r (passesEnded new + ended) bound := by
  have hcard := Finset.card_le_card (ahead_step hs (hs.clock_le hok.1) hnext hdue)
  have hcount := passesEnded_step hs
  rw [hnew, passesEnded_append] at hcount
  rcases row_waits_step hs hshape hpending hnew h.row with hdone | hrow
  · exact Or.inl hdone
  rcases hcount with hcount | ⟨hcount, hnone, p, hp, hstage⟩
  · -- No pass has ended, and the one that runs now serves the row.
    obtain hzero : passesEnded new = 0 := by omega
    have hfewer := h.fewer
    rw [hzero, Nat.zero_add]
    cases hp' : w'.pass with
    | none => exact Or.inr ⟨hrow, by omega, by simp [hp']⟩
    | some p' =>
        refine (serves_step hs hok hpending hnext hdue hnew h hrow hp').imp_right fun hserves => ?_
        refine ⟨hrow, by omega, fun q hq => ?_⟩
        rw [hp'] at hq
        cases hq
        exact hserves
  · have hfewer := (h.serves p hp).ended (by rw [hstage]; rfl)
    have hone : passesEnded new = 1 := by omega
    refine Or.inr ⟨hrow, ?_, by simp [hnone]⟩
    rw [hone, Nat.add_comm 1 ended]
    omega

/-! ### Every run -/

theorem ahead_reachable (hnext : r.nextAttemptAt = some n) (hdue : n < w.clock)
    (hrun : Reachable (step env) ClockForward w w') : n < w'.clock ∧ ahead w' r ⊆ ahead w r := by
  induction hrun with
  | start => exact ⟨hdue, Finset.Subset.refl _⟩
  | step _ a hok hs ih =>
      have hclock := (step_cases hs).clock_le hok
      have hsubset := ahead_step (step_cases hs) hclock hnext ih.1
      exact ⟨Nat.lt_of_lt_of_le ih.1 hclock, hsubset.trans ih.2⟩

/-- What every state of a run since `w` satisfies, for a row that was due in `w`. -/
structure Watched (w : World) (r : InboxRow) (n bound : Nat) (w' : World) : Prop where
  due : n < w'.clock
  waits : ∃ new, w'.history = new ++ w.history ∧
    (Attempted new r ∨ Waiting w' r (passesEnded new) bound)

theorem watched_reachable {ok : World → Action → Prop} (h : Reachable (step env) ok .init w)
    (hrow : w.queue.inbox.get? r.id = some r) (hpending : r.status = .pending)
    (hnext : r.nextAttemptAt = some n) (hdue : n < w.clock)
    (hrun : Reachable (step env) Attempting w w') :
    Watched w r n ((ahead w r).card + ALARM_BATCH * if w.pass.isSome then 1 else 0) w' := by
  refine Reachable.invariant ?_ ?_ hrun
  · refine ⟨hdue, [], rfl, Or.inr ⟨hrow, ?_, ?_⟩⟩
    · simp [passesEnded]
    · intro p hp
      exact .earlier (by simp [passesEnded, hp])
  · intro w₁ a w₂ hreach hinv hok hs
    have hshape := rowsShaped_reachable (h.any.trans hreach.any)
    have hstep := step_cases hs
    obtain ⟨hlate, new, hnew, hwaits⟩ := hinv
    obtain ⟨news, hnews⟩ := hstep.history
    refine ⟨Nat.lt_of_lt_of_le hlate (hstep.clock_le hok.1), news ++ new, ?_, ?_⟩
    · rw [hnews, hnew, List.append_assoc]
    · rcases hwaits with hdone | hwaits
      · exact Or.inl (hdone.mono (List.subset_append_right ..))
      · rcases waiting_step hstep hok hshape hpending hnext hlate hnews hwaits with hdone | hwaits
        · exact Or.inl (hdone.mono (List.subset_append_left ..))
        · rw [← passesEnded_append] at hwaits
          exact Or.inr hwaits

/--
**No row starves.**  In every run from a state in which the row is due, no row is ever put
ahead of it; it has been attempted or removed, or every pass that has ended since has taken
ten rows from ahead of it; and so it has been attempted or removed once one pass more than
the full tens of them has ended.  A pass that was already running does not count.
-/
theorem no_row_starves {ok : World → Action → Prop} (h : Reachable (step env) ok .init w)
    (hrow : w.queue.inbox.get? r.id = some r) (hpending : r.status = .pending)
    (hnext : r.nextAttemptAt = some n) (hdue : n < w.clock) :
    (∀ w', Reachable (step env) ClockForward w w' → ahead w' r ⊆ ahead w r) ∧
      ∀ w', Reachable (step env) Attempting w w' → ∃ new, w'.history = new ++ w.history ∧
        (Attempted new r ∨ (ahead w' r).card + ALARM_BATCH * passesEnded new ≤
          (ahead w r).card + ALARM_BATCH * if w.pass.isSome then 1 else 0) ∧
        ((ahead w r).card / ALARM_BATCH + 1 + (if w.pass.isSome then 1 else 0) ≤ passesEnded new →
          Attempted new r) := by
  refine ⟨fun w' hrun => (ahead_reachable hnext hdue hrun).2, fun w' hrun => ?_⟩
  obtain ⟨-, new, hnew, hwaits⟩ := watched_reachable h hrow hpending hnext hdue hrun
  refine ⟨new, hnew, hwaits.imp_right (·.fewer), fun hpasses => ?_⟩
  rcases hwaits with hdone | hwaits
  · exact hdone
  · have hfewer := hwaits.fewer
    unfold ALARM_BATCH at hfewer hpasses
    omega

/-! ### A row with eleven others ahead of it -/

instance (w : World) : DecidablePred (NoThrow w)
  | .alarm _ config => inferInstanceAs (Decidable (config.isSome = true))
  | .getReturn ok _ => inferInstanceAs (Decidable (ok = true ∧
      ∀ row ∈ w.pass.bind fun p => p.stage.todo.head?,
        (asciiValue row.envelopeFrom).isSome ∧ (asciiValue row.envelopeTo).isSome))
  | .email .. | .putReturn .. | .emailEnqueue .. | .emailReturn .. | .enqueue .. | .retry ..
  | .retryAll .. | .remove .. | .removeObject .. | .removeReturn .. | .deliverNext | .getObject
  | .fetched .. | .answered .. | .purgeExpired .. | .purgeObject .. | .purgeReturn ..
  | .rearm .. | .crash => isTrue trivial

instance (w : World) : DecidablePred (Attempting w) := fun a =>
  inferInstanceAs (Decidable (ClockForward w a ∧ NoThrow w a))

/-- A pass in which Odoo does not answer. -/
def unansweredPass : List Action :=
  [.alarm 7 (some sampleConfig), .deliverNext, .getObject, .getReturn true 7,
    .fetched (.failed (js "timeout")) 9, .deliverNext, .purgeExpired 9, .rearm 9]

/-- Twelve messages are queued, one after the other. -/
def queuedRun : List Action :=
  ["A", "B", "C", "D", "E", "F", "G", "H", "I", "J", "K", "L"].zipIdx.flatMap fun (id, n) =>
    [.email id sampleMessage n, .putReturn id true true, .emailEnqueue id n (some sampleConfig),
      .emailReturn id true]

/-- A pass over so many rows in which Odoo does not answer. -/
def silentPass (count now : Nat) : List Action :=
  .alarm now (some sampleConfig) ::
    (List.replicate count [.deliverNext, .getObject, .getReturn true now,
      .fetched (.failed (js "timeout")) now]).flatten ++
    [.deliverNext, .purgeExpired now, .rearm now]

/-- The last of them is attempted in the second pass. -/
theorem no_row_starves_accepted : ∃ (w w' : World) (r : InboxRow) (new : List Event),
    (ahead w r).card = 11 ∧ w'.history = new ++ w.history ∧ passesEnded new = 2 ∧
      Attempted new r := by
  have hrun : (runActions (step sampleWorker) ClockForward .init
      (queuedRun ++ [.retry "L" 13])).any (fun w => w.clock = 13 && w.pass = none &&
        (w.queue.inbox.get? "L").any (fun r => r.id = "L" && r.status = .pending &&
          r.nextAttemptAt = some 11 && (ahead w r).card = 11) &&
        (runActions (step sampleWorker) Attempting w (silentPass 10 14 ++ silentPass 2 15)).any
          fun w' => passesEnded w'.history = passesEnded w.history + 2) = true := by decide +kernel
  obtain ⟨w, hreach, hgood⟩ := exists_reachable_of_runActions _ hrun
  simp only [Bool.and_eq_true, decide_eq_true_eq, Option.any_eq_true] at hgood
  obtain ⟨⟨⟨hclock, hpass⟩, r, hrow, ⟨⟨hid, hpending⟩, hnext⟩, hcard⟩, w', hrun', hended⟩ := hgood
  obtain ⟨-, hlater⟩ := no_row_starves hreach (hid.symm ▸ hrow) hpending hnext (by omega)
  obtain ⟨new, hnew, -, hattempted⟩ := hlater w' (reachable_runActions _ _ .start hrun')
  rw [hnew, passesEnded_append] at hended
  have htwo : passesEnded new = 2 := by omega
  exact ⟨w, w', r, new, hcard, hnew, htwo, hattempted (by simp [hcard, hpass, htwo, ALARM_BATCH])⟩

end MailCloudflare
