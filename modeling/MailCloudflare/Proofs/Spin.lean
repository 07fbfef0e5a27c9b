/-
When a pass makes progress.

At the end of a pass the rows it selected should have moved on, or the alarm should be a
minute away; otherwise the next pass starts at once on the same rows.  An attempt that ends
in `settle` moves its row, and a pass that failed as a whole backs off.  An exception of a
single attempt does neither: `processDue` logs it and goes on, the row keeps its time in the
past, and `rearm` arms for that time (`throwing_get_spins`).

`lastMark` reads off the log what has last become of a row in the running pass, and a pass
makes progress exactly when for none of its rows this is an exception, or a requeue for a
time that is less than a second after the pass began.
-/
import MailCloudflare.Proofs.InFlight

namespace MailCloudflare

open Unicode Keyed Transition

variable {env : Worker} {w w' : World} {a : Action} {id : String}

/-! ### What became of a row in a pass -/

inductive Mark
  /-- Its attempt threw, and nothing else has happened to it. -/
  | threw
  | settled
  | removed
  /-- It was put on the queue, for this time. -/
  | queued (nextAttemptAt : Nat)
  deriving DecidableEq, Repr

/-- What has last become of a row since the pass began. -/
def lastMark (id : String) : List Event → Option Mark
  | [] => none
  | .passStarted _ :: _ => none
  | .threw i :: rest => if i = id then (lastMark id rest).or (some .threw) else lastMark id rest
  | .settled i _ _ _ true :: rest => if i = id then some .settled else lastMark id rest
  | .removed i :: rest => if i = id then some .removed else lastMark id rest
  | .enqueued i t :: rest => if i = id then some (.queued t) else lastMark id rest
  | .requeued i t :: rest => if i = id then some (.queued t) else lastMark id rest
  | _ :: rest => lastMark id rest

theorem lastMark_logOf (id : String) (history : List Event) :
    lastMark id (logOf id history) = lastMark id history := by
  induction history with
  | nil => rfl
  | cons e rest ih =>
      cases e with
      | enqueued i t | requeued i t | posted i n request | threw i | removed i =>
          rw [logOf] at ih
          by_cases hid : i = id <;> simp [logOf, Event.concerns, lastMark, hid, ih]
      | settled i n o s b =>
          rw [logOf] at ih
          by_cases hid : i = id <;> cases b <;> simp [logOf, Event.concerns, lastMark, hid, ih]
      | passStarted now => rfl
      | rejected | minted | failed | accepted | removeCalled | configFailed | purgeFailed
      | passEnded => exact ih

theorem lastMark_of_logOf {history history' news : List Event}
    (hlog : logOf id history' = news ++ logOf id history) :
    lastMark id history' = lastMark id (news ++ logOf id history) := by
  rw [← hlog, lastMark_logOf]

/-- What a mark says about the row a pass selected. -/
inductive Marked (w : World) (p : Pass) (row : InboxRow) : Option Mark → Prop
  | due (htodo : row ∈ p.stage.todo) (hrow : w.queue.inbox.get? row.id = some row) :
      Marked w p row none
  | threw (hrow : w.queue.inbox.get? row.id = some row) : Marked w p row (some .threw)
  | settled (hnext : ∀ r, w.queue.inbox.get? row.id = some r → r.status = .pending →
      ∃ t, r.nextAttemptAt = some t ∧ p.started + 1000 ≤ t) : Marked w p row (some .settled)
  | removed (hnone : w.queue.inbox.get? row.id = none) : Marked w p row (some .removed)
  | queued {r : InboxRow} {t : Nat} (hrow : w.queue.inbox.get? row.id = some r)
      (hpending : r.status = .pending) (hnext : r.nextAttemptAt = some t) :
      Marked w p row (some (.queued t))

/-- A step that leaves the row and its mark alone. -/
theorem Marked.frame {p p' : Pass} {row : InboxRow} {m : Option Mark} (h : Marked w p row m)
    (hkept : w'.queue.inbox.get? row.id = w.queue.inbox.get? row.id) (hsame : Continues p p')
    (htodo : m = none → row ∈ p'.stage.todo) : Marked w' p' row m := by
  cases h with
  | due _ hrow => exact .due (htodo rfl) (hkept.trans hrow)
  | threw hrow => exact .threw (hkept.trans hrow)
  | settled hnext =>
      refine .settled ?_
      rw [hkept, hsame.started]
      exact hnext
  | removed hnone => exact .removed (hkept.trans hnone)
  | queued hrow hpending hnext => exact .queued (hkept.trans hrow) hpending hnext

/-- An exception counts only where nothing else has become of the row. -/
theorem Marked.or_threw {p p' : Pass} {row : InboxRow} {m : Option Mark} (h : Marked w p row m)
    (hkept : w'.queue.inbox.get? row.id = w.queue.inbox.get? row.id) (hsame : Continues p p') :
    Marked w' p' row (m.or (some .threw)) := by
  cases h with
  | due _ hrow => exact .threw (hkept.trans hrow)
  | threw hrow => exact .threw (hkept.trans hrow)
  | settled hnext => exact (Marked.settled hnext).frame hkept hsame (by simp)
  | removed hnone => exact .removed (hkept.trans hnone)
  | queued hrow hpending hnext => exact .queued (hkept.trans hrow) hpending hnext

/-- A row at hand stays at hand, or the step says of it that it threw or was settled. -/
def StaysOrEnds (w w' : World) (p' : Pass) (row : InboxRow) : Prop :=
  row ∈ p'.stage.todo ∨ ∃ e, logOf row.id w'.history = [e] ++ logOf row.id w.history ∧
    (e = .threw row.id ∨ ∃ attempt outcome status applied,
      e = .settled row.id attempt outcome status applied)

/-- A step that leaves the row alone: of what it may log, only an exception is a mark. -/
theorem Marked.quiet {p p' : Pass} {row : InboxRow} {news : List Event}
    (h : Marked w p row (lastMark row.id w.history)) (hquiet : Quiet env w a w' row.id news)
    (hlog : logOf row.id w'.history = news ++ logOf row.id w.history) (hp : w.pass = some p)
    (hkept : w'.queue.inbox.get? row.id = w.queue.inbox.get? row.id) (hsame : Continues p p')
    (hpending : row.status = .pending) (htodo : row ∈ p.stage.todo → StaysOrEnds w w' p' row) :
    Marked w' p' row (lastMark row.id w'.history) := by
  have hmark := lastMark_logOf row.id w.history
  have hends : row ∈ p.stage.todo → row ∈ p'.stage.todo ∨ ∃ e, news = [e] ∧
      (e = .threw row.id ∨ ∃ n o s b, e = .settled row.id n o s b) := by
    intro hmem
    rcases htodo hmem with hin | ⟨e, he, hend⟩
    · exact Or.inl hin
    · rw [hlog] at he
      exact Or.inr ⟨e, List.append_cancel_right he, hend⟩
  -- Where the mark is kept, a row that was at hand has to be shown to stay at hand.
  have hframe : lastMark row.id (news ++ logOf row.id w.history) = lastMark row.id w.history →
      (row ∈ p.stage.todo → w.queue.inbox.get? row.id = some row → row ∈ p'.stage.todo) →
      Marked w' p' row (lastMark row.id w'.history) := by
    intro hnews hstays
    rw [lastMark_of_logOf hlog, hnews]
    refine h.frame hkept hsame fun hnone => ?_
    rw [hnone] at h
    cases h with
    | due hmem hrow => exact hstays hmem hrow
  cases hquiet with
  | begun hnone =>
      rw [hp] at hnone
      cases hnone
  | nothing =>
      refine hframe hmark fun hmem _ => ?_
      rcases hends hmem with hin | ⟨e, hnil, -⟩
      · exact hin
      · cases hnil
  | posted =>
      refine hframe hmark fun hmem _ => ?_
      rcases hends hmem with hin | ⟨e, heq, hend⟩
      · exact hin
      · cases heq
        rcases hend with heq | ⟨_, _, _, _, heq⟩ <;> cases heq
  | threw =>
      have hor : lastMark row.id ([.threw row.id] ++ logOf row.id w.history) =
          (lastMark row.id w.history).or (some .threw) := by
        simp [lastMark, hmark]
      rw [lastMark_of_logOf hlog, hor]
      exact h.or_threw hkept hsame
  | missed _ _ _ hrow => exact hframe hmark fun _ hget => absurd hpending (hrow row hget)

theorem marked_step (hs : Step env w a w') (hclock : w.clock ≤ w'.clock) (hshape : RowsShaped w)
    {p p' : Pass} (hp : w.pass = some p) (hsame : Continues p p') (hstarted : p.started ≤ w.clock)
    {row : InboxRow} (hpending : row.status = .pending)
    (htodo : row ∈ p.stage.todo → StaysOrEnds w w' p' row)
    (h : Marked w p row (lastMark row.id w.history)) :
    Marked w' p' row (lastMark row.id w'.history) := by
  cases hs.rowChange row.id with
  | inserted _ _ _ _ hsome hlog =>
      rw [lastMark_of_logOf hlog]
      simpa [lastMark] using .queued hsome rfl rfl
  | requeued _ _ _ hsome hlog =>
      rw [lastMark_of_logOf hlog]
      simpa [lastMark] using .queued hsome rfl rfl
  | removed _ _ hnone hlog =>
      rw [lastMark_of_logOf hlog]
      simpa [lastMark] using .removed hnone
  | settled _ _ _ hdelay _ _ hsome hlog =>
      rw [lastMark_of_logOf hlog]
      have hmark : Marked w' p' row (some .settled) := by
        refine .settled ?_
        intro r hr hr'
        rw [hsome] at hr
        cases hr
        refine ⟨_, settle_nextAttemptAt hr', ?_⟩
        rw [hsame.started]
        omega
      simpa [lastMark] using hmark
  | purged _ _ _ _ hold hpurge hnone hlog =>
      -- Only a delivered row is purged, so the mark cannot be one of a pending row.
      have hdelivered := (hshape _ _ hold).delivered_iff.mpr hpurge
      rw [← lastMark_logOf, hlog, lastMark_logOf]
      generalize lastMark row.id w.history = m at h ⊢
      cases h with
      | due _ hrow | threw hrow =>
          rw [hold] at hrow
          cases hrow
          rw [hdelivered] at hpending
          cases hpending
      | settled => exact .settled (by simp [hnone])
      | removed => exact .removed hnone
      | queued hrow hqueued =>
          rw [hold] at hrow
          cases hrow
          rw [hdelivered] at hqueued
          cases hqueued
  | kept hkept hquiet hlog => exact h.quiet hquiet hlog hp hkept hsame hpending htodo

/-! ### The running pass -/

/-- What holds of a running pass and the rows it selected. -/
structure PassMoves (w : World) (p : Pass) : Prop where
  started : p.started ≤ w.clock
  /-- They were pending and due. -/
  selected : ∀ row ∈ p.selected, row.status = .pending ∧
    ∃ t, row.nextAttemptAt = some t ∧ t ≤ p.started
  marked : p.healthy = true → ∀ row ∈ p.selected, Marked w p row (lastMark row.id w.history)

def PassesMove (w : World) : Prop := ∀ p, w.pass = some p → PassMoves w p

theorem selected_dueRows {inbox : Inbox} {now : Nat} :
    ∀ row ∈ dueRows inbox now, row.status = .pending ∧
      ∃ t, row.nextAttemptAt = some t ∧ t ≤ now :=
  fun _ hrow => (mem_dueRows hrow).2

theorem passesMove_step (hs : Step env w a w') (hok : ClockForward w a) (hshape : RowsShaped w)
    (h : PassesMove w) : PassesMove w' := by
  intro p' hp'
  have hclock := hs.clock_le hok
  have hcontinue : ∀ p, w.pass = some p → Continues p p' →
      (∀ row ∈ p.selected, row ∈ p.stage.todo → StaysOrEnds w w' p' row) → PassMoves w' p' := by
    intro p hp hsame htodo
    obtain ⟨hstarted, hselected, hmarked⟩ := h p hp
    refine ⟨hsame.started ▸ Nat.le_trans hstarted hclock, ?_, ?_⟩
    · rw [hsame.selected, hsame.started]
      exact hselected
    · intro hhealthy row hrow
      rw [hsame.selected] at hrow
      exact marked_step hs hclock hshape hp hsame hstarted (hselected row hrow).1
        (htodo row hrow) (hmarked (hsame.healthy hhealthy) row hrow)
  cases todoChange hs hp' with
  | selected _ htodo hinbox hstarted hselected hlog =>
      refine ⟨by omega, ?_, ?_⟩
      · rw [hselected, hstarted]
        exact selected_dueRows
      · intro _ row hrow
        rw [hselected] at hrow
        rw [hlog]
        refine .due (htodo ▸ hrow) ?_
        rw [hinbox]
        exact (mem_dueRows hrow).1
  | idle _ _ hstarted hselected hwhy =>
      refine ⟨by omega, ?_, ?_⟩
      · rw [hselected, hstarted]
        exact selected_dueRows
      · intro hhealthy row hrow
        rcases hwhy with hnil | ⟨hfailed, -⟩
        · rw [hselected, hnil] at hrow
          cases hrow
        · rw [hfailed] at hhealthy
          cases hhealthy
  | kept hp hsame htodo =>
      exact hcontinue _ hp hsame fun row _ hmem => Or.inl (htodo ▸ hmem)
  | @advanced p head hp hsame htodo hlog =>
      refine hcontinue p hp hsame fun row _ hmem => ?_
      rw [htodo] at hmem
      rcases List.mem_cons.mp hmem with rfl | hmem
      · refine Or.inr ?_
        rcases hlog with hlog | ⟨n, o, s, b, hlog⟩
        · exact ⟨.threw row.id, by simp [hlog, logOf, Event.concerns], Or.inl rfl⟩
        · exact ⟨.settled row.id n o s b, by simp [hlog, logOf, Event.concerns],
            Or.inr ⟨n, o, s, b, rfl⟩⟩
      · exact Or.inl hmem

theorem passesMove_reachable (h : Reachable (step env) ClockForward .init w) : PassesMove w := by
  refine Reachable.invariant ?_ ?_ h
  · intro p hp
    cases hp
  · intro w a w' hreach hinv hok hs
    exact passesMove_step (step_cases hs) hok (rowsShaped_reachable hreach) hinv

/-! ### The end of a pass -/

/-- Every row the pass selected is gone, or not pending, or a second later than it began. -/
def MovedOn (w : World) (p : Pass) : Prop :=
  ∀ row ∈ p.selected, ∀ r ∈ w.queue.inbox.get? row.id, r.status = .pending →
    ∃ t ∈ r.nextAttemptAt, p.started + 1000 ≤ t

/-- The alarm leaves a minute after the end of the pass. -/
def BackedOff (w : World) (ended : Nat) : Prop :=
  ∃ t ∈ w.queue.alarm, ended + ALARM_RETRY_MS ≤ t

/--
What becomes of the rows of a pass that is to make progress: none is left by an attempt that
threw, and none is put on the queue for a time within a second of its beginning.
-/
def AttemptsEnd (history : List Event) (p : Pass) : Prop :=
  ∀ row ∈ p.selected, lastMark row.id history ≠ some .threw ∧
    ∀ t, lastMark row.id history = some (.queued t) → p.started + 1000 ≤ t

/-- With no row left at hand the marks tell whether every row has moved on. -/
theorem movedOn_iff {p : Pass} (hmoves : PassMoves w p) (hhealthy : p.healthy = true)
    (htodo : p.stage.todo = []) : MovedOn w p ↔ AttemptsEnd w.history p := by
  constructor
  · intro hmoved row hrow
    obtain ⟨hpending, u, hu, hle⟩ := hmoves.selected row hrow
    have hmark := hmoves.marked hhealthy row hrow
    refine ⟨fun hthrew => ?_, fun t hqueued => ?_⟩
    · rw [hthrew] at hmark
      cases hmark with
      | threw hget =>
          obtain ⟨t, ht, hlate⟩ := hmoved row hrow row hget hpending
          rw [hu] at ht
          cases ht
          omega
    · rw [hqueued] at hmark
      cases hmark with
      | queued hget hrpending hnext =>
          obtain ⟨t', ht', hlate⟩ := hmoved row hrow _ hget hrpending
          rw [hnext] at ht'
          cases ht'
          exact hlate
  · intro hends row hrow r hget hrpending
    obtain ⟨hthrew, hqueued⟩ := hends row hrow
    have hmark := hmoves.marked hhealthy row hrow
    generalize lastMark row.id w.history = m at hthrew hqueued hmark
    cases hmark with
    | due hmem =>
        rw [htodo] at hmem
        cases hmem
    | threw => exact absurd rfl hthrew
    | settled hnext =>
        obtain ⟨t, ht, hlate⟩ := hnext r hget hrpending
        exact ⟨t, ht, hlate⟩
    | removed hnone =>
        rw [hnone] at hget
        cases hget
    | @queued r' t hget' _ hnext =>
        rw [hget'] at hget
        cases hget
        exact ⟨t, hnext, hqueued t rfl⟩

/--
**A pass makes progress if and only if** it failed as a whole or every attempt in it came
to an end.
-/
theorem pass_progresses_iff (h : Reachable (step env) ClockForward .init w) {p : Pass} {now : Nat}
    (hp : w.pass = some p) (hclock : w.clock ≤ now) (hs : step env w (.rearm now) = some w') :
    (MovedOn w' p ∨ BackedOff w' now) ↔ (p.healthy = false ∨ AttemptsEnd w.history p) := by
  have hshape := rowsShaped_reachable h
  have hmoves := passesMove_reachable h p hp
  obtain ⟨q, hq, hstage, rfl⟩ := rearm_cases hs
  rw [hp] at hq
  cases hq
  cases hhealthy : p.healthy with
  | false =>
      refine iff_of_true (Or.inr ⟨now + ALARM_RETRY_MS, ?_, Nat.le_refl _⟩) (Or.inl rfl)
      simp
  | true =>
      have hmoved := movedOn_iff hmoves hhealthy (by rw [hstage]; rfl)
      simp only [Bool.true_eq_false, false_or]
      rw [← hmoved]
      constructor
      · rintro (hdone | ⟨t, ht, hlate⟩)
        · exact hdone
        · -- The alarm is the earliest pending time, so every row is as late as it is.
          intro row hrow r hget hpending
          have hrow' := Table.mem_of_get? hget
          obtain ⟨u, hu⟩ := Option.isSome_iff_exists.mp
            ((hshape row.id r hget).pending_iff.mp hpending)
          have hle := (nextWake_some (by simpa using ht)).2 u (Or.inl ⟨r, hrow', hpending, hu⟩)
          have hstarted := hmoves.started
          refine ⟨u, hu, ?_⟩
          unfold ALARM_RETRY_MS at hlate
          omega
      · exact Or.inl

/-! ### The exception that moves nothing -/

instance (w : World) (p : Pass) : Decidable (MovedOn w p) :=
  inferInstanceAs (Decidable (∀ row ∈ p.selected, ∀ r ∈ w.queue.inbox.get? row.id,
    r.status = .pending → ∃ t ∈ r.nextAttemptAt, p.started + 1000 ≤ t))

instance (w : World) (ended : Nat) : Decidable (BackedOff w ended) :=
  inferInstanceAs (Decidable (∃ t ∈ w.queue.alarm, ended + ALARM_RETRY_MS ≤ t))

/-- The R2 get of the only row throws, and the pass goes on to its end. -/
def throwingRun : List Action :=
  acceptedRun ++ [.alarm 6 (some sampleConfig), .deliverNext, .getObject, .getReturn false 7,
    .deliverNext, .purgeExpired 8]

/--
**A failing get makes the alarm spin.**  The pass ends well, its row is where it was, and
the alarm is set for a time already past.
-/
theorem throwing_get_spins : ∃ (w : World) (p : Pass) (w' : World),
    Reachable (step sampleWorker) ClockForward .init w ∧ w.pass = some p ∧ w.clock ≤ 9 ∧
      step sampleWorker w (.rearm 9) = some w' ∧ ¬ (MovedOn w' p ∨ BackedOff w' 9) := by
  have hrun : (runActions (step sampleWorker) ClockForward .init throwingRun).any
      (fun w => w.clock ≤ 9 && w.pass.any fun p => (step sampleWorker w (.rearm 9)).any fun w' =>
        !decide (MovedOn w' p) && !decide (BackedOff w' 9)) = true := by decide +kernel
  obtain ⟨w, hreach, hgood⟩ := exists_reachable_of_runActions throwingRun hrun
  simp only [Bool.and_eq_true, decide_eq_true_eq, Option.any_eq_true, Bool.not_eq_true',
    decide_eq_false_iff_not] at hgood
  obtain ⟨hclock, p, hp, w', hs, hmoved, hbacked⟩ := hgood
  exact ⟨w, p, w', hreach, hp, hclock, hs, fun hor => hor.elim hmoved hbacked⟩

theorem pass_progresses_iff_throwing : ∃ (w : World) (p : Pass) (w' : World),
    p.selected.length = 1 ∧
      ((MovedOn w' p ∨ BackedOff w' 9) ↔ (p.healthy = false ∨ AttemptsEnd w.history p)) := by
  have hrun : (runActions (step sampleWorker) ClockForward .init throwingRun).any
      (fun w => w.clock ≤ 9 && w.pass.any fun p => p.selected.length = 1 &&
        (step sampleWorker w (.rearm 9)).isSome) = true := by decide +kernel
  obtain ⟨w, hreach, hgood⟩ := exists_reachable_of_runActions throwingRun hrun
  simp only [Bool.and_eq_true, decide_eq_true_eq, Option.any_eq_true, Option.isSome_iff_exists]
    at hgood
  obtain ⟨hclock, p, hp, hlength, w', hs⟩ := hgood
  exact ⟨w, p, w', hlength, pass_progresses_iff hreach hp hclock hs⟩

end MailCloudflare
