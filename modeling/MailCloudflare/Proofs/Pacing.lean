/-
No attempt is made before its time.

A row that has been queued or put back says when its first attempt is due, and one whose
attempt has failed is put off by the delay the schedule has for that attempt, counted from
when the attempt was settled.  A pass reads the rows that are due when it starts and works
on them as it read them, so what holds of a row when it is read holds of its POST.
-/
import MailCloudflare.Deployment.Network
import MailCloudflare.Proofs.Logged
import MailCloudflare.Proofs.Starvation

namespace MailCloudflare

open Unicode Keyed Transition

variable {env : Worker} {w w' : World} {a : Action} {config : LoadedConfig}

/-! ### What an attempt writes -/

/-- What settling an attempt leaves in the table, with the delay of the schedule. -/
structure SettledWith (config : LoadedConfig) (w w' : World) (snapshot : InboxRow) : Prop where
  table : ∃ verdict status error threadId delay,
    backoffMs config.backoffSeconds (snapshot.attempts + 1) = some delay ∧
      w'.queue.inbox = w.queue.inbox.updateWhere (InboxRow.isPendingId snapshot.id)
        (settlementOf config (snapshot.attempts + 1) verdict status error threadId w'.clock
          delay).apply (Settlement.apply_id _)

theorem settledWith_settleAttempt (w : World) (p : Pass) (row : InboxRow) (due : List InboxRow)
    (config : LoadedConfig) (verdict : Verdict) (status : Option Nat) (error : Option Units)
    (threadId : Option ℚ) (now : Nat) :
    SettledWith config w
      (w.settleAttempt p row due config verdict status error threadId now) row := by
  obtain ⟨delay, hdelay, -⟩ := config.backoffMs_ge (row.attempts + 1)
  have hsettle := settle_of_delay w.queue.inbox row.id hdelay verdict status error threadId now
  refine ⟨verdict, status, error, threadId, delay, hdelay, ?_⟩
  simp only [World.settleAttempt, hsettle]
  rfl

theorem settledWith_of_settling (h : step env w a = some w') {p : Pass} {row : InboxRow}
    {due : List InboxRow} {verdict : Verdict} {status : Option Nat} {now : Nat}
    (hpass : w.pass = some p) (hsettling : Settling p.stage a row due config verdict status now) :
    SettledWith config w w' row := by
  generalize hstage : p.stage = stage at hsettling
  cases hsettling with
  | missing =>
      simp only [step, World.getReturn, hpass, hstage, if_true, Option.some.injEq] at h
      exact h ▸ settledWith_settleAttempt ..
  | unanswered =>
      simp only [step, World.fetched, hpass, hstage, Option.some.injEq] at h
      exact h ▸ settledWith_settleAttempt ..
  | answered =>
      simp only [step, World.answered, hpass, hstage] at h
      split at h
      · cases h
        exact settledWith_settleAttempt ..
      · cases h
        exact settledWith_settleAttempt ..

/-! ### What left a row as it is -/

/-- One configuration is loaded, and the clock goes forward. -/
def Paces (config : LoadedConfig) (w : World) (a : Action) : Prop :=
  LoadsConfig config w a ∧ ClockForward w a

/-- On the way to `w` a step at `time` logged the event and left the row as it is. -/
def LeftBy (env : Worker) (config : LoadedConfig) (w : World) (row : InboxRow) (event : Event)
    (time : Nat) : Prop :=
  ∃ w₀ a w₁ new, Reachable (step env) (Paces config) .init w₀ ∧ Paces config w₀ a ∧
    step env w₀ a = some w₁ ∧ w₁.history = new ++ w₀.history ∧ event ∈ new ∧ w₁.clock = time ∧
    w₁.queue.inbox.get? row.id = some row ∧ Reachable (step env) (Paces config) w₁ w

theorem LeftBy.later {row : InboxRow} {event : Event} {time : Nat}
    (h : LeftBy env config w row event time) (hok : Paces config w a)
    (hs : step env w a = some w') : LeftBy env config w' row event time := by
  obtain ⟨w₀, a₀, w₁, new, hinit, hok₀, hs₀, hnew, hevent, htime, hrow, hreach⟩ := h
  exact ⟨w₀, a₀, w₁, new, hinit, hok₀, hs₀, hnew, hevent, htime, hrow, .step hreach a hok hs⟩

/-- The step that has just changed the row. -/
theorem leftBy_now (hreach : Reachable (step env) (Paces config) .init w) (hok : Paces config w a)
    (hs : step env w a = some w') {row : InboxRow} (hrow : w'.queue.inbox.get? row.id = some row)
    {news : List Event} (hlog : logOf row.id w'.history = news ++ logOf row.id w.history)
    {event : Event} (hevent : event ∈ news) : LeftBy env config w' row event w'.clock := by
  obtain ⟨new, hnew⟩ := (step_cases hs).history
  rw [hnew] at hlog
  exact ⟨w, a, w', new, hreach, hok, hs, hnew, mem_of_logOf hlog hevent, rfl, hrow, .start⟩

/-! ### When a row is due -/

structure Paced (env : Worker) (config : LoadedConfig) (w : World) (row : InboxRow) : Prop where
  /-- The first attempt is due when the row was queued or put back for. -/
  first : row.attempts = 0 → ∃ t, row.nextAttemptAt = some t ∧
    ((∃ time, LeftBy env config w row (.enqueued row.id t) time ∧
        t = time + config.deliveryDelayMs) ∨
      LeftBy env config w row (.requeued row.id t) t)
  /-- The next one after a failure is due when its back-off is over. -/
  again : row.status = .pending → row.attempts ≠ 0 → ∃ last delay status,
    LeftBy env config w row (.settled row.id row.attempts .retry status true) last ∧
      backoffMs config.backoffSeconds row.attempts = some delay ∧
      row.nextAttemptAt = some (last + delay)

theorem Paced.later {row : InboxRow} (h : Paced env config w row) (hok : Paces config w a)
    (hs : step env w a = some w') : Paced env config w' row where
  first := by
    intro hzero
    obtain ⟨t, ht, hleft⟩ := h.first hzero
    refine ⟨t, ht, hleft.imp ?_ fun hleft => hleft.later hok hs⟩
    rintro ⟨time, hleft, htime⟩
    exact ⟨time, hleft.later hok hs, htime⟩
  again := by
    intro hpending hne
    obtain ⟨last, delay, status, hleft, hrest⟩ := h.again hpending hne
    exact ⟨last, delay, status, hleft.later hok hs, hrest⟩

/-- What queues a row has loaded the configuration. -/
theorem Caller.config_eq {input : EnqueueInput} {now : Nat} {c : Option LoadedConfig}
    {emails : String → Option Email} (h : Caller w a input now c emails)
    (hok : LoadsConfig config w a) : c = some config := by
  cases h with
  | direct | email => exact hok

def RowsPaced (env : Worker) (config : LoadedConfig) (w : World) : Prop :=
  ∀ id row, w.queue.inbox.get? id = some row → Paced env config w row

theorem rowsPaced_step (hreach : Reachable (step env) (Paces config) .init w)
    (hok : Paces config w a) (h : step env w a = some w') (hpaced : RowsPaced env config w) :
    RowsPaced env config w' := by
  intro id row hrow
  have hs := step_cases h
  have hid : row.id = id := Table.key_of_get? hrow
  cases hs.rowChange id with
  | kept hkept => exact (hpaced id row (hkept ▸ hrow)).later hok h
  | @inserted input now c _ hcaller hinput hclock _ hsome hlog =>
      rw [hsome] at hrow
      cases hrow
      cases hcaller.config_eq hok.1
      refine ⟨fun _ => ⟨_, rfl, Or.inl ⟨w'.clock, ?_, by rw [hclock]; rfl⟩⟩,
        fun _ hne => absurd rfl hne⟩
      subst hid
      exact leftBy_now hreach hok h hsome hlog (List.mem_singleton_self _)
  | @requeued old _ _ _ hsome hlog =>
      rw [hsome] at hrow
      cases hrow
      refine ⟨fun _ => ⟨_, rfl, Or.inr ?_⟩, fun _ hne => absurd rfl hne⟩
      subst hid
      exact leftBy_now hreach hok h hsome hlog (List.mem_singleton_self _)
  | @settled p old snapshot due c verdict status error threadId delay hp hsettling hsnapshot _ hold
      hpending hsome hlog =>
      have hloaded := passLoaded_reachable (hreach.weaken fun _ _ hok => hok.1)
      cases hloaded p c hp hsettling.stage_config
      obtain ⟨verdict', status', error', threadId', delay', hdelay, htable⟩ :=
        (settledWith_of_settling h hp hsettling).table
      have hselected : InboxRow.isPendingId snapshot.id old = true := by
        simp [InboxRow.isPendingId, hsnapshot, Table.key_of_get? hold, hpending]
      have hwritten := hrow
      rw [htable] at hwritten
      simp only [Table.get?_updateWhere, hold, Option.map_some, hselected, if_true,
        Option.some.injEq] at hwritten
      rw [hsome, Option.some.injEq] at hrow
      have hattempts : row.attempts = snapshot.attempts + 1 := hrow ▸ rfl
      refine ⟨fun hzero => by omega, fun hretried _ => ?_⟩
      have hretry : outcomeOf config (snapshot.attempts + 1) verdict = .retry := by
        rw [← hrow] at hretried
        exact nextStatus_pending.mp hretried
      refine ⟨w'.clock, delay', status, ?_, by rw [hattempts, hdelay], ?_⟩
      · subst hid
        rw [hretry] at hlog
        rw [hattempts]
        exact leftBy_now hreach hok h (hsome.trans (congrArg some hrow)) hlog
          (List.mem_singleton_self _)
      · rw [← hwritten] at hretried ⊢
        exact settle_nextAttemptAt hretried
  | removed _ _ hnone | purged _ _ _ _ _ _ hnone =>
      rw [hnone] at hrow
      cases hrow

/-! ### Every run -/

theorem rowsPaced_reachable (h : Reachable (step env) (Paces config) .init w) :
    RowsPaced env config w := by
  refine Reachable.invariant ?_ ?_ h
  · intro id row hrow
    simp [World.init, Queue.init] at hrow
  · intro w a w' hreach hinv hok hs
    exact rowsPaced_step hreach hok hs hinv

/-- A row as a pass has read it: paced, and due when the pass began. -/
structure DueIn (env : Worker) (config : LoadedConfig) (w : World) (started : Nat)
    (row : InboxRow) : Prop where
  paced : Paced env config w row
  pending : row.status = .pending
  due : ∃ t, row.nextAttemptAt = some t ∧ t ≤ started

structure PassPaced (env : Worker) (config : LoadedConfig) (w : World) : Prop where
  started : ∀ p, w.pass = some p → p.started ≤ w.clock
  todo : ∀ p, w.pass = some p → ∀ row ∈ p.stage.todo, DueIn env config w p.started row

theorem DueIn.later {started : Nat} {row : InboxRow} (h : DueIn env config w started row)
    (hok : Paces config w a) (hs : step env w a = some w') : DueIn env config w' started row :=
  ⟨h.paced.later hok hs, h.pending, h.due⟩

theorem passPaced_step (hreach : Reachable (step env) (Paces config) .init w)
    (hok : Paces config w a) (h : step env w a = some w') (hpass : PassPaced env config w) :
    PassPaced env config w' where
  started := by
    intro p' hp'
    have hs := step_cases h
    cases todoChange hs hp' with
    | selected _ _ _ hstarted | idle _ _ hstarted => exact hstarted.le
    | kept hp hsame | advanced hp hsame =>
        rw [hsame.started]
        exact (hpass.started _ hp).trans (hs.clock_le hok.2)
  todo := by
    intro p' hp' row hrow
    cases todoChange (step_cases h) hp' with
    | selected _ htodo _ hstarted =>
        rw [htodo] at hrow
        obtain ⟨hget, hpending, hdue⟩ := mem_dueRows hrow
        have hpaced := rowsPaced_reachable hreach row.id row hget
        refine DueIn.later ⟨hpaced, hpending, ?_⟩ hok h
        rwa [hstarted]
    | idle _ htodo =>
        rw [htodo] at hrow
        cases hrow
    | kept hp hsame htodo =>
        rw [hsame.started]
        exact (hpass.todo _ hp row (htodo ▸ hrow)).later hok h
    | advanced hp hsame htodo =>
        rw [hsame.started]
        refine (hpass.todo _ hp row ?_).later hok h
        rw [htodo]
        exact List.mem_cons_of_mem _ hrow

theorem passPaced_reachable (h : Reachable (step env) (Paces config) .init w) :
    PassPaced env config w := by
  refine Reachable.invariant ?_ ?_ h
  · refine ⟨?_, ?_⟩ <;> simp [World.init]
  · intro w a w' hreach hinv hok hs
    exact passPaced_step hreach hok hs hinv

/--
**No attempt is made before its time.**  What is POSTed is made from the row the pass is at,
and the time that row had its attempt down for was past when the pass began: for the first
attempt since the row was queued or put back that time was set then, for every other it is the
back-off of the attempt before it later than the step that settled that attempt and left the
row as the pass has it.
-/
theorem attempts_paced (h : Reachable (step env) (Paces config) .init w)
    (hs : step env w a = some w') (hok : Paces config w a) {id : String} {n : Nat}
    {request : Request} (hposted : w'.history = .posted id n request :: w.history) :
    ∃ (p : Pass) (row : InboxRow) (due : List InboxRow) (body : Bytes) (t : Nat),
      w.pass = some p ∧ p.stage = .got row due config (some body) ∧
      deliveryRequest env config row n body w'.clock = some request ∧
      row.id = id ∧ row.attempts + 1 = n ∧
      row.nextAttemptAt = some t ∧ t ≤ p.started ∧ p.started ≤ w'.clock ∧
      (n = 1 → (∃ time, LeftBy env config w row (.enqueued id t) time ∧
          t = time + config.deliveryDelayMs) ∨
        LeftBy env config w row (.requeued id t) t) ∧
      (n ≠ 1 → ∃ last delay status,
        LeftBy env config w row (.settled id (n - 1) .retry status true) last ∧
          backoffMs config.backoffSeconds (n - 1) = some delay ∧ t = last + delay) := by
  have hstep := step_cases hs
  obtain ⟨p, row, due, c, body, hpass, hstage, rfl, rfl, -, hrequest⟩ :=
    hstep.loggedNow_of_cons hposted
  have hloaded := passLoaded_reachable (h.weaken fun _ _ hok => hok.1)
  cases hloaded p c hpass (by rw [hstage]; rfl)
  have hpaced := passPaced_reachable h
  have hrow := hpaced.todo p hpass row (PassStage.mem_todo_of_got hstage)
  obtain ⟨t, ht, hdue⟩ := hrow.due
  refine ⟨p, row, due, body, t, hpass, hstage, hrequest, rfl, rfl, ht, hdue, ?_, ?_, ?_⟩
  · exact (hpaced.started p hpass).trans (hstep.clock_le hok.2)
  · intro hone
    obtain ⟨t', ht', hleft⟩ := hrow.paced.first (by omega)
    obtain rfl : t = t' := Option.some.inj (ht.symm.trans ht')
    exact hleft
  · intro hne
    obtain ⟨last, delay, status, hleft, hdelay, hnext⟩ :=
      hrow.paced.again hrow.pending (by omega)
    exact ⟨last, delay, status, hleft, hdelay, Option.some.inj (ht.symm.trans hnext)⟩

instance (config : LoadedConfig) (w : World) : DecidablePred (Paces config w) := fun a =>
  inferInstanceAs (Decidable (LoadsConfig config w a ∧ ClockForward w a))

/-- The first attempt has had no answer, and the second is about to be POSTed. -/
def secondAttempt : List Action :=
  acceptedRun ++ unansweredPass ++ [.alarm 60009 (some sampleConfig), .deliverNext, .getObject]

theorem attempts_paced_second : ∃ (w w' : World) (request : Request),
    w'.history = .posted "A" 2 request :: w.history ∧
    ∃ (p : Pass) (row : InboxRow) (due : List InboxRow) (body : Bytes) (t : Nat),
      w.pass = some p ∧ p.stage = .got row due sampleConfig (some body) ∧ row.id = "A" ∧
      row.nextAttemptAt = some t ∧ t ≤ p.started ∧
      ∃ last delay status,
        LeftBy sampleWorker sampleConfig w row (.settled "A" 1 .retry status true) last ∧
          backoffMs sampleConfig.backoffSeconds 1 = some delay ∧ t = last + delay := by
  have hrun : (runActions (step sampleWorker) (Paces sampleConfig) .init secondAttempt).any
      (fun w => Paces sampleConfig w (.getReturn true 60010) ∧
        (step sampleWorker w (.getReturn true 60010)).any fun w' =>
          (lastPosted w'.history).any fun request =>
            w'.history = .posted "A" 2 request :: w.history) = true := by decide +kernel
  obtain ⟨w, hreach, hgood⟩ := exists_reachable_of_runActions secondAttempt hrun
  simp only [decide_eq_true_eq, Option.any_eq_true] at hgood
  obtain ⟨hok, w', hs, request, -, hposted⟩ := hgood
  obtain ⟨p, row, due, body, t, hpass, hstage, -, hid, -, ht, hdue, -, -, hagain⟩ :=
    attempts_paced hreach hs hok hposted
  exact ⟨w, w', request, hposted, p, row, due, body, t, hpass, hstage, hid, ht, hdue,
    hagain (by decide)⟩

end MailCloudflare
