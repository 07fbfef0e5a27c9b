/-
Attempt accounting has no lost update.

An attempt is numbered from the snapshot of the pass and written back without looking at
what the row says by then; the guard is `status = 'pending'` only.  It is enough because a
pending row a pass has read stays as it was read (`InFlight`), so the number that was
POSTed is still one more than what is stored.

`Accounts` ties the numbers in the log to the table and to the pass: for a pending row the
POSTs since it was last put on the queue are exactly 1 up to its attempts, and one further
while its own attempt is under way.
-/
import MailCloudflare.Proofs.InFlight

namespace MailCloudflare

open Unicode JavaScript Keyed Transition

variable {env : Worker} {config : LoadedConfig} {w w' : World} {a : Action} {id : String}

/-! ### Counting POSTs -/

/-- `n, …, 2, 1`. -/
def countdown : Nat → List Nat
  | 0 => []
  | n + 1 => (n + 1) :: countdown n

theorem countdown_reverse (n : Nat) : (countdown n).reverse = List.range' 1 n := by
  induction n with
  | zero => rfl
  | succ n ih => rw [countdown, List.reverse_cons, ih, List.range'_1_concat, Nat.add_comm]

/-- The numbers POSTed for a row are read off its own log. -/
theorem postsSince_logOf (id : String) (history : List Event) :
    postsSince id (logOf id history) = postsSince id history := by
  induction history with
  | nil => rfl
  | cons e rest ih =>
      cases e with
      | enqueued i t | requeued i t =>
          by_cases hid : i = id
          · simp [logOf, Event.concerns, postsSince, hid]
          · simpa [logOf, Event.concerns, postsSince, hid] using ih
      | posted i n request =>
          by_cases hid : i = id
          · simpa [logOf, Event.concerns, postsSince, hid] using ih
          · simpa [logOf, Event.concerns, postsSince, hid] using ih
      | threw i | settled i n o s b | removed i =>
          by_cases hid : i = id
          · simpa [logOf, Event.concerns, postsSince, hid] using ih
          · simpa [logOf, Event.concerns, postsSince, hid] using ih
      | passStarted | rejected | minted | failed | accepted | removeCalled | configFailed
      | purgeFailed | passEnded => exact ih

theorem postsSince_of_logOf {history history' news : List Event}
    (hlog : logOf id history' = news ++ logOf id history) :
    postsSince id history' = postsSince id (news ++ logOf id history) := by
  rw [← hlog, postsSince_logOf]

/-- A step that changes no row logs a POST of it, or none. -/
theorem Quiet.postsSince {news history : List Event} (h : Quiet env w a w' id news) :
    postsSince id (news ++ logOf id history) = MailCloudflare.postsSince id history ∨
      ∃ p row due config body, w.pass = some p ∧ p.stage = .got row due config (some body) ∧
        row.id = id ∧ w'.pass = some { p with stage := .posting row due config } ∧
        MailCloudflare.postsSince id (news ++ logOf id history) =
          (row.attempts + 1) :: MailCloudflare.postsSince id history := by
  cases h with
  | nothing | begun | threw | missed => exact Or.inl (postsSince_logOf id history)
  | @posted p row due config body request hpass hstage hid hpass' =>
      refine Or.inr ⟨p, row, due, config, body, hpass, hstage, hid, hpass', ?_⟩
      simp [MailCloudflare.postsSince, postsSince_logOf]

/-- The number of an attempt is in a header of its request. -/
theorem deliveryRequest_attempt {row : InboxRow} {attempt now : Nat} {body : Bytes}
    {request : Request}
    (h : deliveryRequest env config row attempt body now = some request) :
    (js "X-Mail-Cloudflare-Attempt", decimal attempt) ∈ request.headers := by
  simp only [deliveryRequest, Option.bind_eq_bind, Option.bind_eq_some_iff, Option.pure_def,
    Option.some.injEq] at h
  obtain ⟨envelopeFrom, -, envelopeTo, -, rfl⟩ := h
  simp

/-- A POST in the log carries its number in that header. -/
def PostsNumbered (w : World) : Prop :=
  ∀ id n request, .posted id n request ∈ w.history →
    (js "X-Mail-Cloudflare-Attempt", decimal n) ∈ request.headers

theorem postsNumbered_step (hs : Step env w a w') (h : PostsNumbered w) : PostsNumbered w' := by
  intro id n request hin
  rcases hs.logged hin with hold | ⟨row, config, body, now, -, hrequest⟩
  · exact h id n request hold
  · exact deliveryRequest_attempt hrequest

theorem postsNumbered_reachable {ok : World → Action → Prop}
    (h : Reachable (step env) ok .init w) : PostsNumbered w := by
  refine Reachable.invariant ?_ ?_ h
  · intro id n request hin
    cases hin
  · intro w a w' _ hinv _ hs
    exact postsNumbered_step (step_cases hs) hinv

/-! ### The rows of the pass -/

/-- Two rows of the snapshot with one id are one row. -/
theorem InFlight.eq_of_id_eq (h : InFlight w) {p : Pass} (hp : w.pass = some p) {r q : InboxRow}
    (hr : r ∈ p.stage.todo) (hq : q ∈ p.stage.todo) (hid : r.id = q.id) : r = q :=
  List.inj_on_of_nodup_map (h.nodup p hp) hr hq hid

/-- The row whose answer is awaited is the one at hand. -/
theorem PassStage.posted?_head {stage : PassStage} {row : InboxRow}
    (h : stage.posted? = some row) : ∃ due, stage.todo = row :: due := by
  cases stage <;> cases h <;> exact ⟨_, rfl⟩

theorem PassStage.posted?_mem {stage : PassStage} {row : InboxRow}
    (h : stage.posted? = some row) : row ∈ stage.todo := by
  obtain ⟨due, hdue⟩ := PassStage.posted?_head h
  rw [hdue]
  exact List.mem_cons_self ..

/-- For a row of the snapshot a step logs its own POST, or nothing that counts. -/
theorem todo_posts (hs : Step env w a w') (hok : NoReenqueue w a) (htraced : Traced w)
    (hflight : InFlight w) {p : Pass} (hp : w.pass = some p) {row : InboxRow}
    (hrow : row ∈ p.stage.todo) :
    postsSince row.id w'.history = postsSince row.id w.history ∨
      ∃ due config body, p.stage = .got row due config (some body) ∧
        w'.pass = some { p with stage := .posting row due config } ∧
        postsSince row.id w'.history = (row.attempts + 1) :: postsSince row.id w.history := by
  obtain ⟨hpending, hcurrent⟩ := hflight.current p hp row hrow
  cases hs.rowChange row.id with
  | kept _ hquiet hlog =>
      rw [postsSince_of_logOf hlog]
      rcases hquiet.postsSince with hsame | ⟨q, r, due, config, body, hq, hstage, hid, hq', hposts⟩
      · exact Or.inl hsame
      · rw [hp] at hq
        cases hq
        cases hflight.eq_of_id_eq hp (PassStage.mem_todo_of_got hstage) hrow hid
        exact Or.inr ⟨due, config, body, hstage, hq', hposts⟩
  | inserted hcaller hid _ hnone =>
      rcases hcurrent with hget | ⟨-, hremoved⟩
      · rw [hget] at hnone
        cases hnone
      · exact absurd (htraced.removed row.id hremoved) (hok.not_enqueued hcaller hid hnone)
  | requeued hold hstatus =>
      cases hcurrent.eq hold
      exact absurd hpending hstatus
  | settled _ _ _ _ _ _ _ hlog | removed _ _ _ hlog =>
      rw [postsSince_of_logOf hlog]
      exact Or.inl (postsSince_logOf _ _)
  | purged _ _ _ _ _ _ _ hlog =>
      rw [← postsSince_logOf, hlog, postsSince_logOf]
      exact Or.inl rfl

/-! ### The invariant -/

structure Accounts (config : LoadedConfig) (w : World) : Prop where
  /-- A pending row has been POSTed once for each of its attempts. -/
  row : ∀ id row, w.queue.inbox.get? id = some row → row.status = .pending →
    (∀ p r, w.pass = some p → p.stage.posted? = some r → r.id ≠ id) →
    postsSince id w.history = countdown row.attempts
  /-- So has a row the pass has not come to yet, and it has an attempt left. -/
  todo : ∀ p row, w.pass = some p → row ∈ p.stage.todo → row.attempts < config.maxAttempts ∧
    (p.stage.posted? ≠ some row → postsSince row.id w.history = countdown row.attempts)
  /-- The one whose answer is awaited has been POSTed once more. -/
  posted : ∀ p row, w.pass = some p → p.stage.posted? = some row →
    postsSince row.id w.history = countdown (row.attempts + 1)
  /-- There are never more POSTs than the budget allows. -/
  bounded : ∀ id, ∃ n, n ≤ config.maxAttempts ∧ postsSince id w.history = countdown n

theorem accounts_init : Accounts config .init := by
  refine ⟨?_, ?_, ?_, ?_⟩
  · simp [World.init, Queue.init]
  · simp [World.init]
  · simp [World.init]
  · exact fun _ => ⟨0, Nat.zero_le _, rfl⟩

/-- While an answer is awaited, nothing else counts as a POST of the row. -/
theorem posted_posts (hs : Step env w a w') (hok : NoReenqueue w a) (htraced : Traced w)
    (hflight : InFlight w) {p : Pass} (hp : w.pass = some p) {row : InboxRow}
    (hposted : p.stage.posted? = some row) :
    postsSince row.id w'.history = postsSince row.id w.history := by
  rcases todo_posts hs hok htraced hflight hp (PassStage.posted?_mem hposted) with
    hsame | ⟨due, config, body, hstage, -⟩
  · exact hsame
  · rw [hstage] at hposted
    cases hposted

theorem accounts_posted_step (hs : Step env w a w') (hok : NoReenqueue w a) (htraced : Traced w)
    (hflight : InFlight w) (h : Accounts config w) :
    ∀ p row, w'.pass = some p → p.stage.posted? = some row →
      postsSince row.id w'.history = countdown (row.attempts + 1) := by
  intro p' row hp' hposted'
  have hkept : w.pass = some p' → postsSince row.id w'.history = countdown (row.attempts + 1) := by
    intro hp
    rw [posted_posts hs hok htraced hflight hp hposted']
    exact h.posted p' row hp hposted'
  cases hs with
  | email hs => exact hkept (hs.pass ▸ hp')
  | request hs => exact hkept (hs.pass ▸ hp')
  | crash _ hw =>
      rw [hw] at hp'
      cases hp'
  | pass hs =>
      cases hs with
      | idle | configFailed | started | loopEnd | loopNext | read | threw | settled
      | nothingExpired | purging | objectPurged | purged | purgeFailed =>
          cases hp'
          cases hposted'
      | ended | endedFailed => cases hp'
      | @posted p head due c body now request hp hstage =>
          cases hp'
          cases hposted'
          have hposts := (h.todo p row hp (PassStage.mem_todo_of_got hstage)).2
            (by simp [hstage, PassStage.posted?])
          simp [postsSince, countdown, hposts]
      | @responded p head due c status now hp hstage =>
          cases hp'
          cases hposted'
          exact h.posted p row hp (by rw [hstage]; rfl)

theorem accounts_todo_step (hs : Step env w a w') (hok : NoReenqueue w a) (htraced : Traced w)
    (hshape : RowsShaped w) (hvalid : RowsValid config w) (hflight : InFlight w)
    (h : Accounts config w) :
    ∀ p row, w'.pass = some p → row ∈ p.stage.todo → row.attempts < config.maxAttempts ∧
      (p.stage.posted? ≠ some row → postsSince row.id w'.history = countdown row.attempts) := by
  intro p' row hp' hrow
  cases todoChange hs hp' with
  | selected hpass htodo _ =>
      rw [htodo] at hrow
      obtain ⟨hget, hpending, -⟩ := mem_dueRows hrow
      refine ⟨(hvalid row.id row hget).attempts_lt hpending, fun _ => ?_⟩
      have hposts := h.row row.id row hget hpending (by simp [hpass])
      cases hs.pendingChange hshape hpending hget with
      | kept _ hquiet hlog =>
          rw [postsSince_of_logOf hlog]
          rcases hquiet.postsSince with hsame | ⟨q, -, -, -, -, hq, -⟩
          · rw [hsame, hposts]
          · rw [hpass] at hq
            cases hq
      | settled hq =>
          rw [hpass] at hq
          cases hq
      | removed _ hlog =>
          rw [postsSince_of_logOf hlog]
          exact (postsSince_logOf _ _).trans hposts
  | idle _ htodo =>
      rw [htodo] at hrow
      cases hrow
  | @kept p hp _ htodo _ hposted =>
      rw [htodo] at hrow
      obtain ⟨hbudget, hposts⟩ := h.todo p row hp hrow
      refine ⟨hbudget, fun hnot' => ?_⟩
      have hnot : p.stage.posted? ≠ some row := fun hyes => hnot' (hposted row hyes)
      rcases todo_posts hs hok htraced hflight hp hrow with hsame | ⟨due, c, body, -, hq', -⟩
      · rw [hsame, hposts hnot]
      · rw [hp'] at hq'
        cases hq'
        exact absurd rfl hnot'
  | @advanced p head hp _ htodo =>
      have hmem : row ∈ p.stage.todo := by
        rw [htodo]
        exact List.mem_cons_of_mem _ hrow
      have hne : row ≠ head := by
        rintro rfl
        exact hflight.ne_head hp htodo hrow rfl
      obtain ⟨hbudget, hposts⟩ := h.todo p row hp hmem
      refine ⟨hbudget, fun _ => ?_⟩
      rcases todo_posts hs hok htraced hflight hp hmem with hsame | ⟨due, c, body, hstage, -⟩
      · rw [hsame]
        refine hposts fun hyes => hne ?_
        obtain ⟨due, hdue⟩ := PassStage.posted?_head hyes
        rw [htodo] at hdue
        cases hdue
        rfl
      · rw [hstage] at htodo
        cases htodo
        exact absurd rfl hne

/-- The Durable Object is not restarted between a POST and its settle. -/
def NoCrashInFlight (w : World) (a : Action) : Prop :=
  a = .crash → (w.pass.bind fun p => p.stage.posted?) = none

instance (w : World) : DecidablePred (NoCrashInFlight w) := fun a =>
  inferInstanceAs (Decidable (a = .crash → (w.pass.bind fun p => p.stage.posted?) = none))

/-- An awaited answer is still awaited after a step, or the step has settled the attempt. -/
theorem posted_step (hs : Step env w a w') (hok : NoCrashInFlight w a) {p : Pass}
    (hp : w.pass = some p) {row : InboxRow} (hposted : p.stage.posted? = some row) :
    (∃ p', w'.pass = some p' ∧ p'.stage.posted? = some row) ∨
      ∃ s : Settlement, s.attempts = row.attempts + 1 ∧
        w'.queue.inbox =
          w.queue.inbox.updateWhere (InboxRow.isPendingId row.id) s.apply s.apply_id := by
  cases hs with
  | email hs => exact Or.inl ⟨p, hs.pass.trans hp, hposted⟩
  | request hs => exact Or.inl ⟨p, hs.pass.trans hp, hposted⟩
  | crash ha _ =>
      have hnone := hok ha
      rw [hp, Option.bind_some, hposted] at hnone
      cases hnone
  | pass hs =>
      cases hs with
      | idle hq | configFailed hq | started hq =>
          rw [hp] at hq
          cases hq
      | loopEnd hq hstage | loopNext hq hstage | read hq hstage | threw hq hstage
      | posted hq hstage | nothingExpired hq hstage | purging hq hstage
      | objectPurged hq hstage | purged hq hstage | purgeFailed hq hstage | ended hq hstage
      | endedFailed hq hstage =>
          rw [hp] at hq
          cases hq
          rw [hstage] at hposted
          cases hposted
      | responded hq hstage =>
          rw [hp] at hq
          cases hq
          rw [hstage] at hposted
          cases hposted
          exact Or.inl ⟨_, rfl, rfl⟩
      | @settled _ q head due c verdict status error threadId now delay hq hsettling =>
          rw [hp] at hq
          cases hq
          obtain ⟨rest, hhead⟩ := PassStage.posted?_head hposted
          rw [hsettling.stage_todo] at hhead
          cases hhead
          exact Or.inr ⟨_, rfl, rfl⟩

/-- An attempt settled without a POST has found its message missing. -/
theorem Settling.dead_of_not_posted {stage : PassStage} {row : InboxRow} {due : List InboxRow}
    {verdict : Verdict} {status : Option Nat} {now : Nat}
    (h : Settling stage a row due config verdict status now) (hnot : stage.posted? ≠ some row) :
    verdict = .dead := by
  cases h with
  | missing => rfl
  | unanswered | answered => exact absurd rfl hnot

theorem accounts_row_step (hs : Step env w a w') (hok : NoReenqueue w a)
    (hcrash : NoCrashInFlight w a) (htraced : Traced w) (hflight : InFlight w)
    (h : Accounts config w) :
    ∀ id row, w'.queue.inbox.get? id = some row → row.status = .pending →
      (∀ p r, w'.pass = some p → p.stage.posted? = some r → r.id ≠ id) →
      postsSince id w'.history = countdown row.attempts := by
  intro id row hrow hpending hnot'
  by_cases hposted : ∃ p r, w.pass = some p ∧ p.stage.posted? = some r ∧ r.id = id
  · obtain ⟨p, r, hp, hr, rfl⟩ := hposted
    rcases posted_step hs hcrash hp hr with ⟨p', hp', hr'⟩ | ⟨s, hattempts, hinbox⟩
    · exact absurd rfl (hnot' p' r hp' hr')
    · -- The attempt has just been settled, and the row was still as the pass had read it.
      rw [posted_posts hs hok htraced hflight hp hr, h.posted p r hp hr]
      obtain ⟨hwas, hcurrent⟩ := hflight.current p hp r (PassStage.posted?_mem hr)
      rw [hinbox, Table.get?_updateWhere] at hrow
      rcases hcurrent with hget | ⟨hnone, -⟩
      · simp only [hget, Option.map_some, InboxRow.isPendingId, hwas, decide_true, Bool.and_self,
          if_true, Option.some.injEq] at hrow
        rw [← hrow, Settlement.apply, hattempts]
      · simp [hnone] at hrow
  · cases hs.rowChange id with
    | kept hkept hquiet hlog =>
        rw [hkept] at hrow
        have hposts := h.row id row hrow hpending fun p r hp hr hid => hposted ⟨p, r, hp, hr, hid⟩
        rw [postsSince_of_logOf hlog]
        rcases hquiet.postsSince with hsame | ⟨p, r, due, c, body, -, -, hid, hp', -⟩
        · rw [hsame, hposts]
        · exact absurd hid (hnot' _ r hp' rfl)
    | inserted _ _ _ _ hsome hlog =>
        rw [hsome] at hrow
        cases hrow
        rw [postsSince_of_logOf hlog]
        simp [postsSince, newRow, countdown]
    | requeued _ _ _ hsome hlog =>
        rw [hsome] at hrow
        cases hrow
        rw [postsSince_of_logOf hlog]
        simp [postsSince, InboxRow.requeue, countdown]
    | settled hp hsettling hid _ _ _ hsome =>
        have hdead := hsettling.dead_of_not_posted fun hr => hposted ⟨_, _, hp, hr, hid⟩
        subst hdead
        rw [hsome] at hrow
        cases hrow
        simp [Settlement.apply, settlementOf, outcomeOf, Verdict.nextStatus] at hpending
    | removed _ _ hnone | purged _ _ _ _ _ _ hnone =>
        rw [hnone] at hrow
        cases hrow

theorem accounts_bounded_step (hs : Step env w a w') (h : Accounts config w) :
    ∀ id, ∃ n, n ≤ config.maxAttempts ∧ postsSince id w'.history = countdown n := by
  intro id
  obtain ⟨n, hn, hposts⟩ := h.bounded id
  cases hs.rowChange id with
  | kept _ hquiet hlog =>
      rw [postsSince_of_logOf hlog]
      rcases hquiet.postsSince with hsame | ⟨p, r, due, c, body, hp, hstage, rfl, -, hnext⟩
      · exact ⟨n, hn, hsame.trans hposts⟩
      · obtain ⟨hbudget, hr⟩ := h.todo p r hp (PassStage.mem_todo_of_got hstage)
        refine ⟨r.attempts + 1, hbudget, ?_⟩
        rw [hnext, hr (by simp [hstage, PassStage.posted?]), countdown]
  | inserted _ _ _ _ _ hlog | requeued _ _ _ _ hlog =>
      rw [postsSince_of_logOf hlog]
      exact ⟨0, Nat.zero_le _, by simp [postsSince, countdown]⟩
  | settled _ _ _ _ _ _ _ hlog | removed _ _ _ hlog =>
      rw [postsSince_of_logOf hlog]
      exact ⟨n, hn, (postsSince_logOf _ _).trans hposts⟩
  | purged _ _ _ _ _ _ _ hlog =>
      rw [← postsSince_logOf, hlog, postsSince_logOf]
      exact ⟨n, hn, hposts⟩

/-! ### Parked rows -/

/-- The id has been queued, its row is not pending, and no pass is about to attempt it. -/
structure Parked (id : String) (w : World) : Prop where
  enqueued : Enqueued w.history id
  row : ∀ row, w.queue.inbox.get? id = some row → row.status ≠ .pending
  todo : ∀ p, w.pass = some p → ∀ row ∈ p.stage.todo, row.id ≠ id

/-- A parked row stays so and is not POSTed, until it is put back. -/
theorem parked_step (hs : Step env w a w') (hok : NoReenqueue w a) (h : Parked id w) :
    ∃ new, w'.history = new ++ w.history ∧ ((∀ t, .requeued id t ∉ new) →
      Parked id w' ∧ ∀ n request, .posted id n request ∉ new) := by
  obtain ⟨new, hnew⟩ := hs.history
  refine ⟨new, hnew, fun hnot => ?_⟩
  have htodo : ∀ p', w'.pass = some p' → ∀ row ∈ p'.stage.todo, row.id ≠ id := by
    intro p' hp' row hrow
    cases todoChange hs hp' with
    | selected _ htodo =>
        rw [htodo] at hrow
        obtain ⟨hget, hpending, -⟩ := mem_dueRows hrow
        rintro rfl
        exact h.row row hget hpending
    | idle _ htodo =>
        rw [htodo] at hrow
        cases hrow
    | kept hp _ htodo => exact h.todo _ hp row (htodo ▸ hrow)
    | advanced hp _ htodo =>
        refine h.todo _ hp row ?_
        rw [htodo]
        exact List.mem_cons_of_mem _ hrow
  -- A POST of the row is in what has been added to the log of the row.
  have hquiet : ∀ news, logOf id w'.history = news ++ logOf id w.history →
      (∀ n request, .posted id n request ∉ news) → ∀ n request, .posted id n request ∉ new := by
    intro news hlog hposts n request hin
    rw [hnew] at hlog
    refine hposts n request (logOf_new hlog ▸ ?_)
    exact List.mem_filter.mpr ⟨hin, by simp [Event.concerns]⟩
  cases hs.rowChange id with
  | @kept hkept news hnews hlog =>
      refine ⟨⟨h.enqueued.step hs, hkept ▸ h.row, htodo⟩, hquiet news hlog fun n request hin => ?_⟩
      cases hnews with
      | nothing => cases hin
      | begun | threw | missed => simp at hin
      | @posted p row due c body request' hp hstage hid =>
          exact h.todo p hp row (PassStage.mem_todo_of_got hstage) hid
  | inserted hcaller hid _ hnone => exact absurd h.enqueued (hok.not_enqueued hcaller hid hnone)
  | requeued _ _ _ _ hlog =>
      rw [hnew] at hlog
      exact absurd (mem_of_logOf hlog (List.mem_singleton_self _)) (hnot _)
  | settled _ _ _ _ hold hpending => exact absurd hpending (h.row _ hold)
  | removed _ _ hnone hlog =>
      refine ⟨⟨h.enqueued.step hs, by simp [hnone], htodo⟩, ?_⟩
      exact hquiet [.removed id] hlog (by simp)
  | purged _ _ _ _ _ _ hnone hlog =>
      refine ⟨⟨h.enqueued.step hs, by simp [hnone], htodo⟩, ?_⟩
      exact hquiet [] hlog (by simp)

theorem parked_run {ok : World → Action → Prop} (hok : ∀ w a, ok w a → NoReenqueue w a)
    (h : Parked id w) (hrun : Reachable (step env) ok w w') :
    ∃ new, w'.history = new ++ w.history ∧ ((∀ t, .requeued id t ∉ new) →
      Parked id w' ∧ ∀ n request, .posted id n request ∉ new) := by
  induction hrun with
  | start => exact ⟨[], rfl, fun _ => ⟨h, by simp⟩⟩
  | @step u u' _ a ha hs ih =>
      obtain ⟨new, hnew, hparked⟩ := ih
      have hs' := step_cases hs
      by_cases hnot : ∀ t, .requeued id t ∉ new
      · obtain ⟨hpark, hposts⟩ := hparked hnot
        obtain ⟨more, hmore, hnext⟩ := parked_step hs' (hok u a ha) hpark
        refine ⟨more ++ new, by rw [hmore, hnew, List.append_assoc], fun hnot' => ?_⟩
        obtain ⟨hpark', hposts'⟩ := hnext fun t ht => hnot' t (List.mem_append_left _ ht)
        refine ⟨hpark', fun n request hin => ?_⟩
        rcases List.mem_append.mp hin with hin | hin
        · exact hposts' n request hin
        · exact hposts n request hin
      · obtain ⟨more, hmore⟩ := hs'.history
        refine ⟨more ++ new, by rw [hmore, hnew, List.append_assoc], fun hnot' => ?_⟩
        exact absurd (fun t ht => hnot' t (List.mem_append_right _ ht)) hnot

/-! ### Every run -/

/-- One configuration, no id queued again, no crash between a POST and its settle. -/
def Accountable (config : LoadedConfig) (w : World) (a : Action) : Prop :=
  LoadsConfig config w a ∧ NoReenqueue w a ∧ NoCrashInFlight w a

instance (w : World) : DecidablePred (Accountable config w) := fun a =>
  inferInstanceAs (Decidable (LoadsConfig config w a ∧ NoReenqueue w a ∧ NoCrashInFlight w a))

structure Accounted (config : LoadedConfig) (w : World) : Prop where
  flight : InFlight w
  accounts : Accounts config w

theorem accounted_reachable (h : Reachable (step env) (Accountable config) .init w) :
    Accounted config w := by
  refine Reachable.invariant ⟨inFlight_init, accounts_init⟩ ?_ h
  rintro w a w' hreach ⟨hflight, haccounts⟩ ⟨-, hok, hcrash⟩ hs
  have hloads : Reachable (step env) (LoadsConfig config) .init w :=
    hreach.weaken fun _ _ hok => hok.1
  have hvalid := rowsValid_reachable hloads
  have hshape := rowsShaped_reachable hreach
  have htraced := traced_reachable hreach
  have hsc := step_cases hs
  refine ⟨inFlight_step hsc hok htraced hshape hflight, ?_⟩
  exact ⟨accounts_row_step hsc hok hcrash htraced hflight haccounts,
    accounts_todo_step hsc hok htraced hshape hvalid hflight haccounts,
    accounts_posted_step hsc hok htraced hflight haccounts, accounts_bounded_step hsc haccounts⟩

/-- What `settle` changes is the row as the pass read it. -/
theorem settled_current (hs : Step env w a w') (hflight : InFlight w) {attempt : Nat}
    {outcome : Verdict} {status : Option Nat}
    (hlog : w'.history = .settled id attempt outcome status true :: w.history) :
    ∃ row, w.queue.inbox.get? id = some row ∧ row.attempts + 1 = attempt := by
  cases hs.settleChange hlog with
  | @applied p row snapshot _ _ _ _ _ _ _ hp hsettling hid hattempt _ hget =>
      subst hid
      cases (hflight.current p hp snapshot hsettling.mem_todo).2.eq hget
      exact ⟨row, hget, hattempt⟩

/-- A requeue does nothing to a row that is pending or gone. -/
theorem requeue_keeps_pending (hs : step env w a = some w')
    (ha : (∃ i now, a = .retry i now) ∨ ∃ status now, a = .retryAll status now)
    (hrow : ∀ row, w.queue.inbox.get? id = some row → row.status = .pending) :
    w'.queue.inbox.get? id = w.queue.inbox.get? id := by
  have hupdate : ∀ (p : InboxRow → Bool) (now : Nat), (∀ row, row.status = .pending → p row = false) →
      (w.queue.inbox.updateWhere p (InboxRow.requeue now) (InboxRow.requeue_id now)).get? id =
        w.queue.inbox.get? id := by
    intro p now hp
    exact Table.get?_updateWhere_of_not _ fun row hget => hp row (hrow row hget)
  rcases ha with ⟨i, now, rfl⟩ | ⟨status, now, rfl⟩
  · have hreq : RequestStep w (.retry i now) w' := Option.some.inj hs ▸ retry_step
    cases hreq with
    | duplicate hcaller | inserted hcaller => cases hcaller
    | left => rfl
    | requeued =>
        simp only [armNoLaterThan_inbox]
        exact hupdate _ now fun row hpending => by simp [hpending]
  · cases hs
    simp only [World.retryAll, retryAll_inbox]
    exact hupdate _ now fun row hpending => by simp [hpending, Ne.symm status.toStatus_ne_pending]

/--
**Attempt accounting has no lost update.**  An UPDATE that settles an attempt finds the
attempts the attempt was numbered from; `retry` and `retryAll` leave the rows of a running
pass alone; the numbers POSTed for a row since it was last put on the queue are 1, 2, 3 and
so on up to no more than the budget, as the header of each says; and a row that is not
pending is not POSTed before it has been put back.
-/
theorem attempts_accounted (h : Reachable (step env) (Accountable config) .init w) :
    (∀ a w' id attempt outcome status, step env w a = some w' →
      w'.history = .settled id attempt outcome status true :: w.history →
      ∃ row, w.queue.inbox.get? id = some row ∧ row.attempts + 1 = attempt) ∧
    (∀ a w', ((∃ i now, a = .retry i now) ∨ ∃ status now, a = .retryAll status now) →
      step env w a = some w' → ∀ p, w.pass = some p → ∀ row ∈ p.stage.todo,
        w'.queue.inbox.get? row.id = w.queue.inbox.get? row.id) ∧
    (∀ id, ∃ n, n ≤ config.maxAttempts ∧
      (postsSince id w.history).reverse = List.range' 1 n) ∧
    (∀ id n request, .posted id n request ∈ w.history →
      (js "X-Mail-Cloudflare-Attempt", decimal n) ∈ request.headers) ∧
    ∀ id row, w.queue.inbox.get? id = some row → row.status ≠ .pending →
      ∀ w', Reachable (step env) (Accountable config) w w' →
        ∃ new, w'.history = new ++ w.history ∧ ((∀ t, .requeued id t ∉ new) →
          ∀ n request, .posted id n request ∉ new) := by
  obtain ⟨hflight, haccounts⟩ := accounted_reachable h
  refine ⟨?_, ?_, ?_, postsNumbered_reachable h, ?_⟩
  · intro a w' id attempt outcome status hs hlog
    exact settled_current (step_cases hs) hflight hlog
  · intro a w' ha hs p hp row hrow
    obtain ⟨hpending, hcurrent⟩ := hflight.current p hp row hrow
    refine requeue_keeps_pending hs ha fun r hr => ?_
    cases hcurrent.eq hr
    exact hpending
  · intro id
    obtain ⟨n, hn, hposts⟩ := haccounts.bounded id
    exact ⟨n, hn, by rw [hposts, countdown_reverse]⟩
  · intro id row hrow hparked w' hrun
    have hpark : Parked id w := by
      refine ⟨(traced_reachable h).row id row hrow, ?_, ?_⟩
      · intro r hr
        rw [hrow] at hr
        cases hr
        exact hparked
      · rintro p hp r hr rfl
        obtain ⟨hpending, hcurrent⟩ := hflight.current p hp r hr
        cases hcurrent.eq hrow
        exact hparked hpending
    obtain ⟨new, hnew, hposts⟩ := parked_run (fun _ _ hok => hok.2.1) hpark hrun
    exact ⟨new, hnew, fun hnot => (hposts hnot).2⟩

theorem attempts_accounted_delivered : ∃ w : World,
    (w.queue.inbox.rows.map (·.attempts) = [1] ∧ w.pass.isSome) ∧
    (∀ a w' id attempt outcome status, step sampleWorker w a = some w' →
      w'.history = .settled id attempt outcome status true :: w.history →
      ∃ row, w.queue.inbox.get? id = some row ∧ row.attempts + 1 = attempt) ∧
    (∀ a w', ((∃ i now, a = .retry i now) ∨ ∃ status now, a = .retryAll status now) →
      step sampleWorker w a = some w' → ∀ p, w.pass = some p → ∀ row ∈ p.stage.todo,
        w'.queue.inbox.get? row.id = w.queue.inbox.get? row.id) ∧
    (∀ id, ∃ n, n ≤ sampleConfig.maxAttempts ∧
      (postsSince id w.history).reverse = List.range' 1 n) ∧
    (∀ id n request, .posted id n request ∈ w.history →
      (js "X-Mail-Cloudflare-Attempt", decimal n) ∈ request.headers) ∧
    ∀ id row, w.queue.inbox.get? id = some row → row.status ≠ .pending →
      ∀ w', Reachable (step sampleWorker) (Accountable sampleConfig) w w' →
        ∃ new, w'.history = new ++ w.history ∧ ((∀ t, .requeued id t ∉ new) →
          ∀ n request, .posted id n request ∉ new) := by
  have hrun : (runActions (step sampleWorker) (Accountable sampleConfig) .init deliveredRun).any
      (fun w => w.queue.inbox.rows.map (·.attempts) = [1] && w.pass.isSome) = true := by
    decide +kernel
  obtain ⟨w, hreach, hgood⟩ := exists_reachable_of_runActions deliveredRun hrun
  exact ⟨w, by simpa using hgood, attempts_accounted hreach⟩

end MailCloudflare
