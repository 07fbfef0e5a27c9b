/-
What R2 keeps, and for how long.

An object is put before its row is inserted, and deleted before its row is; so an object is
always somebody's.  It belongs to a row, to an `email()` that has yet to queue it, or to one
that threw before it did, and a message whose row has gone has no object either
(`nothing_left_behind`).

The other half is that a delivered message is kept for as long as the retention says
(`kept_for_retention`): a purge reads the rows that have expired and deletes their objects
only, and while it does no attempt can be settled.
-/
import MailCloudflare.Proofs.Provenance

namespace MailCloudflare

open Unicode Keyed Transition

variable {env : Worker} {w w' : World} {a : Action} {id : String}

/-! ### Rows that go -/

/-- How a row comes to go: its removal or its purge is through with its object. -/
inductive RowGone (w w' : World) (id : String) : Prop
  | removed {call : Nat} {r : Removal} (hr : w.removals call = some r) (hid : r.id = id)
      (hdeleted : r.deleted = true) (hbucket : w'.bucket = w.bucket)
  | purged {p : Pass} {expired : List InboxRow} {e : InboxRow} (hpass : w.pass = some p)
      (hstage : p.stage = .deleting expired []) (he : e ∈ expired) (hid : e.id = id)
      (hbucket : w'.bucket = w.bucket)

theorem RequestStep.rowGone (hs : RequestStep w a w') {row : InboxRow}
    (hrow : w.queue.inbox.get? id = some row) (hnone : w'.queue.inbox.get? id = none) :
    RowGone w w' id := by
  have hkept : w'.queue.inbox.get? id = w.queue.inbox.get? id → RowGone w w' id := by
    intro hsame
    rw [hnone, hrow] at hsame
    cases hsame
  cases hs with
  | duplicate | left | missing | removing | objectRemoved | removeFailed => exact hkept rfl
  | inserted => simp [Table.get?_insertOrIgnore, hrow] at hnone
  | requeued => simp [Table.get?_updateWhere, hrow] at hnone
  | requeuedAll => simp [World.retryAll, retryAll_inbox, Table.get?_updateWhere, hrow] at hnone
  | @removed call r hr hdeleted =>
      by_cases hid : r.id = id
      · exact .removed hr hid hdeleted rfl
      · refine hkept (Table.get?_deleteWhere_of_not fun row hget => ?_)
        simp [Table.key_ne_of_get? hget hid]

theorem PassStep.rowGone (hs : PassStep env w a w') {row : InboxRow}
    (hrow : w.queue.inbox.get? id = some row) (hnone : w'.queue.inbox.get? id = none) :
    RowGone w w' id := by
  have hkept : w'.queue.inbox.get? id = w.queue.inbox.get? id → RowGone w w' id := by
    intro hsame
    rw [hnone, hrow] at hsame
    cases hsame
  cases hs with
  | settled => simp [Table.get?_updateWhere, hrow] at hnone
  | @purged p expired hpass hstage =>
      have hgone : ∃ e ∈ expired, row.id = e.id := by
        simp only [get?_purgeRows, hrow, Option.filter_eq_none_iff] at hnone
        have hmatch := hnone row rfl
        simp only [Bool.not_eq_true', Bool.not_eq_false, Bool.and_eq_true, List.any_eq_true,
          decide_eq_true_eq] at hmatch
        exact hmatch.1
      obtain ⟨e, he, hid⟩ := hgone
      exact .purged hpass hstage he (hid.symm.trans (Table.key_of_get? hrow)) rfl
  | _ => exact hkept rfl

theorem Step.rowGone (hs : Step env w a w') {row : InboxRow}
    (hrow : w.queue.inbox.get? id = some row) (hnone : w'.queue.inbox.get? id = none) :
    RowGone w w' id := by
  have hkept : w'.queue = w.queue → RowGone w w' id := by
    intro hsame
    rw [hsame, hrow] at hnone
    cases hnone
  cases hs with
  | email hs => exact hkept hs.queue
  | request hs => exact hs.rowGone hrow hnone
  | pass hs => exact hs.rowGone hrow hnone
  | crash _ hw => exact hkept (by rw [hw])

/-! ### Objects that are gone -/

/-- A removal that R2 has carried out was carried out before, or is in the step. -/
theorem deleted_cases (hs : Step env w a w') {call : Nat} {r : Removal}
    (hr : w'.removals call = some r) (hdeleted : r.deleted = true) :
    w.removals call = some r ∨
      ∃ old, w.removals call = some old ∧ old.id = r.id ∧ w'.bucket r.r2Key = none := by
  cases hs with
  | email hs => exact Or.inl (hs.removals ▸ hr)
  | pass hs => exact Or.inl (hs.removals ▸ hr)
  | crash _ hw =>
      rw [hw] at hr
      cases hr
  | request hs =>
      cases hs with
      | duplicate | inserted | requeued | left | requeuedAll | missing => exact Or.inl hr
      | @removing c i row hrow =>
          by_cases hc : call = c
          · subst hc
            simp only [Function.update_self, Option.some.injEq] at hr
            subst hr
            cases hdeleted
          · simp only [Function.update_of_ne hc] at hr
            exact Or.inl hr
      | @objectRemoved c old hold =>
          by_cases hc : call = c
          · subst hc
            simp only [Function.update_self, Option.some.injEq] at hr
            subst hr
            exact Or.inr ⟨old, hold, rfl, by simp⟩
          · simp only [Function.update_of_ne hc] at hr
            exact Or.inl hr
      | @removed c old hold | @removeFailed c old hold =>
          by_cases hc : call = c
          · subst hc
            simp at hr
          · simp only [Function.update_of_ne hc] at hr
            exact Or.inl hr

/-- How a purge under way comes to have these objects left. -/
inductive LeftChange (w w' : World) (p' : Pass) (expired : List InboxRow) (left : List String) :
    Prop
  | kept (hpass : w.pass = some p')
  | begun (hexpired : expired = expiredRows w.queue.inbox w'.clock)
      (hleft : left = expired.map (·.r2Key)) (hqueue : w'.queue = w.queue)
  | advanced {p : Pass} {before : List String} (hpass : w.pass = some p)
      (hstage : p.stage = .deleting expired before)
      (hleft : ∀ key ∈ before, key ∈ left ∨ w'.bucket key = none)

theorem leftChange (hs : Step env w a w') {p' : Pass} {expired : List InboxRow}
    {left : List String} (hp : w'.pass = some p') (hstage : p'.stage = .deleting expired left) :
    LeftChange w w' p' expired left := by
  cases hs with
  | email hs => exact .kept (hs.pass ▸ hp)
  | request hs => exact .kept (hs.pass ▸ hp)
  | crash _ hw =>
      rw [hw] at hp
      cases hp
  | pass hs =>
      cases hs with
      | idle | configFailed | started | loopEnd | loopNext | read | threw | posted | responded
      | settled | nothingExpired | purged | purgeFailed =>
          cases hp
          cases hstage
      | ended | endedFailed => cases hp
      | purging =>
          cases hp
          cases hstage
          exact .begun rfl rfl rfl
      | @objectPurged p key _ before hpass hold =>
          cases hp
          cases hstage
          refine .advanced hpass hold fun other hmem => ?_
          by_cases hkey : other = key
          · exact Or.inr (by simp [hkey])
          · exact Or.inl (List.mem_filter.mpr ⟨hmem, by simpa using hkey⟩)

/-- An id that has been queued is not stored again. -/
theorem gone_step (hs : Step env w a w') (hsafe : Safe env w) (honce : QueuedOnce w)
    (henqueued : Enqueued w.history id) (hgone : w.bucket (env.r2Key id) = none) :
    w'.bucket (env.r2Key id) = none := by
  cases hs.bucketChange with
  | kept hkept => rw [hkept, hgone]
  | @put i e he hstage hput =>
      have hne : i ≠ id := by
        rintro rfl
        exact honce.email i e he (by simp [hstage]) henqueued
      rw [hput, (hsafe.email i e he).2.1, bucket_update_ne _ hne, hgone]
  | removed _ hremoved =>
      rw [hremoved]
      by_contra hne
      obtain ⟨bytes, hbytes⟩ := Option.ne_none_iff_exists'.mp hne
      rw [kept_of_delete hbytes] at hgone
      cases hgone
  | purged _ _ _ _ hpurged =>
      rw [hpurged]
      by_contra hne
      obtain ⟨bytes, hbytes⟩ := Option.ne_none_iff_exists'.mp hne
      rw [kept_of_delete hbytes] at hgone
      cases hgone

/-! ### Whose an object is -/

/-- A row or an `email()` still has the message, or `email()` threw before it queued it. -/
inductive Owned (w : World) (id : String) : Prop
  | row {row : InboxRow} (hrow : w.queue.inbox.get? id = some row)
  | email {e : Email} (he : w.emails id = some e) (hstage : e.stage ≠ .queued)
  | failed (hfailed : .failed id ∈ w.history) (hnot : ¬ Enqueued w.history id)

structure Tidy (env : Worker) (w : World) : Prop where
  object : ∀ key bytes, w.bucket key = some bytes → ∃ id, key = env.r2Key id ∧ Owned w id
  /-- An `email()` that threw is over. -/
  failed : ∀ id, .failed id ∈ w.history → .minted id ∈ w.history ∧ w.emails id = none
  /-- A removal deletes its row when the object is gone. -/
  removal : ∀ call r, w.removals call = some r → r.deleted = true →
    w.bucket (env.r2Key r.id) = none
  /-- So does a purge: what is not left to be deleted is gone. -/
  purge : ∀ p expired left, w.pass = some p → p.stage = .deleting expired left → ∀ e ∈ expired,
    e.r2Key = env.r2Key e.id ∧ Enqueued w.history e.id ∧
      (e.r2Key ∈ left ∨ w.bucket e.r2Key = none)

theorem tidy_init : Tidy env .init := by
  refine ⟨?_, ?_, ?_, ?_⟩ <;> simp [World.init]

/-- What becomes of an `email()` that has not queued its message. -/
inductive FlightChange (w w' : World) (id : String) (e : Email) : Prop
  | flying {e' : Email} (he : w'.emails id = some e') (hstage : e'.stage ≠ .queued)
  | queued (hrow : (w'.queue.inbox.get? e.input.id).isSome)
  | failed (hlog : w'.history = .failed id :: w.history)

theorem flightChange (hs : Step env w a w') {e : Email} (he : w.emails id = some e)
    (hstage : e.stage ≠ .queued) : FlightChange w w' id e := by
  have hcaller : ∀ {input now config emails}, Caller w a input now config emails →
      w'.emails = emails → (w'.queue.inbox.get? input.id).isSome → FlightChange w w' id e := by
    intro input now config emails hcaller hemails hrow
    cases hcaller with
    | direct => exact .flying (hemails ▸ he) hstage
    | @email i old now config hold holdStage =>
        by_cases hid : id = i
        · subst hid
          rw [he, Option.some.injEq] at hold
          exact .queued (hold ▸ hrow)
        · exact .flying (by rw [hemails, Function.update_of_ne hid, he]) hstage
  cases hs with
  | pass hs => exact .flying (hs.emails ▸ he) hstage
  | crash _ hw => exact .flying (by rw [hw]; exact he) hstage
  | request hs =>
      cases hs with
      | requeued | left | requeuedAll | missing | removing | objectRemoved | removed
      | removeFailed => exact .flying he hstage
      | duplicate hcalled hrow => exact hcaller hcalled rfl (by simp [hrow])
      | inserted hcalled =>
          exact hcaller hcalled rfl (by simp [Table.get?_insertOrIgnore, newRow])
  | email hs =>
      cases hs with
      | rejected | refused => exact .flying he hstage
      | @minted i m receivedAt new hfree =>
          have hid : id ≠ i := by
            rintro rfl
            rw [he] at hfree
            cases hfree
          exact .flying (by simp only [Function.update_of_ne hid]; exact he) hstage
      | @put i old wrote hold hputting =>
          by_cases hid : id = i
          · subst hid
            exact .flying (by simp only [Function.update_self]; rfl) (by simp)
          · exact .flying (by simp only [Function.update_of_ne hid]; exact he) hstage
      | @putFailed i | @failed i =>
          by_cases hid : id = i
          · subst hid
            exact .failed rfl
          · exact .flying (by simp only [Function.update_of_ne hid]; exact he) hstage
      | @accepted i old hold hqueued =>
          have hid : id ≠ i := by
            rintro rfl
            rw [he, Option.some.injEq] at hold
            exact hstage (hold ▸ hqueued)
          exact .flying (by simp only [Function.update_of_ne hid]; exact he) hstage

/-! ### One step -/

/-- As long as the object is there, it stays somebody's. -/
theorem owned_step (hs : Step env w a w') (hok : HandlerOnly w a) (hsafe : Safe env w)
    (honce : QueuedOnce w) (h : Tidy env w) (howned : Owned w id)
    (hobject : w'.bucket (env.r2Key id) ≠ none) : Owned w' id := by
  cases howned with
  | row hrow =>
      cases hget : w'.queue.inbox.get? id with
      | some row => exact .row hget
      | none =>
          exfalso
          cases hs.rowGone hrow hget with
          | removed hr hid hdeleted hbucket =>
              rw [hbucket, ← hid, h.removal _ _ hr hdeleted] at hobject
              exact hobject rfl
          | purged hpass hstage he hid hbucket =>
              obtain ⟨hkey, -, hleft⟩ := h.purge _ _ _ hpass hstage _ he
              rw [hbucket, ← hid, ← hkey, hleft.resolve_left (by simp)] at hobject
              exact hobject rfl
  | email he hstage =>
      cases flightChange hs he hstage with
      | flying he' hstage' => exact .email he' hstage'
      | queued hrow =>
          rw [(hsafe.email id _ he).1] at hrow
          obtain ⟨row, hget⟩ := Option.isSome_iff_exists.mp hrow
          exact .row hget
      | failed hlog =>
          refine .failed (by rw [hlog]; exact List.mem_cons_self) ?_
          rintro ⟨t, ht⟩
          have hold : .enqueued id t ∈ w.history := by simpa [hlog] using ht
          exact honce.email id _ he hstage ⟨t, hold⟩
  | failed hfailed hnot =>
      refine .failed (hs.mem_history hfailed) fun henqueued => ?_
      rcases enqueued_cases hs henqueued with hold | ⟨input, now, config, emails, hcaller, rfl, -⟩
      · exact hnot hold
      · obtain ⟨e, he, -⟩ := caller_cases hok hsafe hcaller
        rw [(h.failed _ hfailed).2] at he
        cases he

theorem tidy_object_step (hs : Step env w a w') (hok : HandlerOnly w a) (hsafe : Safe env w)
    (honce : QueuedOnce w) (h : Tidy env w) :
    ∀ key bytes, w'.bucket key = some bytes → ∃ id, key = env.r2Key id ∧ Owned w' id := by
  intro key bytes hobject
  have howner : ∃ id, key = env.r2Key id ∧ Owned w id := by
    cases hs.bucketChange with
    | kept hkept => exact h.object key bytes (hkept ▸ hobject)
    | @put i e he hstage hput =>
        by_cases hkey : key = e.input.r2Key
        · exact ⟨i, hkey.trans (hsafe.email i e he).2.1, .email he (by simp [hstage])⟩
        · rw [hput, Function.update_of_ne hkey] at hobject
          exact h.object key bytes hobject
    | removed _ hgone | purged _ _ _ _ hgone =>
        exact h.object key bytes (kept_of_delete (hgone ▸ hobject))
  obtain ⟨id, rfl, howned⟩ := howner
  exact ⟨id, rfl, owned_step hs hok hsafe honce h howned (by simp [hobject])⟩

theorem tidy_failed_step (hs : Step env w a w') (hok : HandlerOnly w a) (hsafe : Safe env w)
    (h : Tidy env w) :
    ∀ id, .failed id ∈ w'.history → .minted id ∈ w'.history ∧ w'.emails id = none := by
  intro id hfailed
  rcases hs.loggedNow hfailed with hold | ⟨m, receivedAt, rfl, hminted, hemails⟩ |
    ⟨e, he, hnone⟩
  · obtain ⟨hminted, hnone⟩ := h.failed id hold
    refine ⟨hs.mem_history hminted, Option.eq_none_iff_forall_not_mem.mpr fun e he => ?_⟩
    cases emailChange hs he with
    | kept hkept | put hkept | queued hkept =>
        rw [hnone] at hkept
        cases hkept
    | minted ha =>
        subst ha
        exact hok hminted
  · refine ⟨hminted, ?_⟩
    rw [hemails]
    refine Option.eq_none_iff_forall_not_mem.mpr fun e he => hok ?_
    exact (hsafe.email id e he).2.2.1
  · exact ⟨hs.mem_history (hsafe.email id e he).2.2.1, hnone⟩

theorem tidy_removal_step (hs : Step env w a w') (hsafe : Safe env w) (hsafe' : Safe env w')
    (htraced : Traced w) (honce : QueuedOnce w) (h : Tidy env w) :
    ∀ call r, w'.removals call = some r → r.deleted = true →
      w'.bucket (env.r2Key r.id) = none := by
  intro call r hr hdeleted
  rcases deleted_cases hs hr hdeleted with hold | ⟨old, -, -, hgone⟩
  · exact gone_step hs hsafe honce (htraced.removal call r hold) (h.removal call r hold hdeleted)
  · rwa [(hsafe'.removal call r hr).1] at hgone

theorem tidy_purge_step (hs : Step env w a w') (hsafe : Safe env w) (htraced : Traced w)
    (honce : QueuedOnce w) (h : Tidy env w) :
    ∀ p expired left, w'.pass = some p → p.stage = .deleting expired left → ∀ e ∈ expired,
      e.r2Key = env.r2Key e.id ∧ Enqueued w'.history e.id ∧
        (e.r2Key ∈ left ∨ w'.bucket e.r2Key = none) := by
  intro p expired left hp hstage e he
  have hgone : e.r2Key = env.r2Key e.id → Enqueued w.history e.id → w.bucket e.r2Key = none →
      w'.bucket e.r2Key = none := by
    intro hkey henqueued hnone
    rw [hkey] at hnone ⊢
    exact gone_step hs hsafe honce henqueued hnone
  cases leftChange hs hp hstage with
  | kept hpass =>
      obtain ⟨hkey, henqueued, hleft⟩ := h.purge p expired left hpass hstage e he
      exact ⟨hkey, henqueued.step hs, hleft.imp_right (hgone hkey henqueued)⟩
  | begun hexpired hleft =>
      have hrow := (mem_expiredRows (hexpired ▸ he)).1
      refine ⟨hsafe.rowKey e.id e hrow, (htraced.row e.id e hrow).step hs, Or.inl ?_⟩
      rw [hleft]
      exact List.mem_map_of_mem he
  | advanced hpass hold hleft =>
      obtain ⟨hkey, henqueued, hbefore⟩ := h.purge _ _ _ hpass hold e he
      refine ⟨hkey, henqueued.step hs, ?_⟩
      rcases hbefore with hmem | hnone
      · exact hleft _ hmem
      · exact Or.inr (hgone hkey henqueued hnone)

/-! ### Every run -/

theorem queuedOnce_reachable (h : Reachable (step env) HandlerOnly .init w) : QueuedOnce w := by
  refine Reachable.invariant queuedOnce_init ?_ h
  intro w a w' hreach hinv hok hs
  have hsafe : Safe env w := safe_reachable (hreach.weaken fun _ _ => HandlerOnly.distinctIds)
  exact queuedOnce_step (step_cases hs) hok hsafe hinv

theorem tidy_reachable (h : Reachable (step env) HandlerOnly .init w) : Tidy env w := by
  refine Reachable.invariant tidy_init ?_ h
  intro w a w' hreach hinv hok hs
  have hsafe : Safe env w := safe_reachable (hreach.weaken fun _ _ => HandlerOnly.distinctIds)
  have hsafe' : Safe env w' := safe_step (step_cases hs) hok.distinctIds hsafe
  have htraced : Traced w := traced_reachable hreach
  have honce := queuedOnce_reachable hreach
  have hstep := step_cases hs
  exact ⟨tidy_object_step hstep hok hsafe honce hinv, tidy_failed_step hstep hok hsafe hinv,
    tidy_removal_step hstep hsafe hsafe' htraced honce hinv,
    tidy_purge_step hstep hsafe htraced honce hinv⟩

/--
**Nothing is left behind in R2.**  Whatever fails or crashes, an object is the message of a
row, or of an `email()` that is not through with it, or of one that threw before it was
queued; so once the row of a queued message has gone, so has the message.
-/
theorem nothing_left_behind (h : Reachable (step env) HandlerOnly .init w) :
    (∀ key bytes, w.bucket key = some bytes → ∃ id, key = env.r2Key id ∧ Owned w id) ∧
      ∀ id, Enqueued w.history id → w.queue.inbox.get? id = none →
        w.bucket (env.r2Key id) = none := by
  have htidy := tidy_reachable h
  have honce := queuedOnce_reachable h
  refine ⟨htidy.object, ?_⟩
  intro id henqueued hnone
  by_contra hne
  obtain ⟨bytes, hbytes⟩ := Option.ne_none_iff_exists'.mp hne
  obtain ⟨i, hkey, howned⟩ := htidy.object _ bytes hbytes
  obtain rfl := r2Key_inj hkey
  cases howned with
  | row hrow =>
      rw [hnone] at hrow
      cases hrow
  | email he hstage => exact honce.email id _ he hstage henqueued
  | failed _ hnot => exact hnot henqueued

/-- The delivered message is purged, and the put of the next one throws having written it. -/
def purgedRun : List Action :=
  deliveredRun ++ [.deliverNext, .purgeExpired 10, .purgeObject "inbox/A.eml", .purgeReturn true,
    .rearm 11, .email "B" sampleMessage 12, .putReturn "B" false true]

theorem nothing_left_behind_purged : ∃ w : World,
    (w.bucket "inbox/B.eml").isSome ∧ Enqueued w.history "A" ∧
      w.queue.inbox.get? "A" = none ∧
      (∀ key bytes, w.bucket key = some bytes →
        ∃ id, key = sampleWorker.r2Key id ∧ Owned w id) ∧
      ∀ id, Enqueued w.history id → w.queue.inbox.get? id = none →
        w.bucket (sampleWorker.r2Key id) = none := by
  have hrun : (runActions (step sampleWorker) HandlerOnly .init purgedRun).any
      (fun w => (w.bucket "inbox/B.eml").isSome ∧ Enqueued w.history "A" ∧
        w.queue.inbox.get? "A" = none) = true := by decide +kernel
  obtain ⟨w, hreach, hgood⟩ := exists_reachable_of_runActions purgedRun hrun
  simp only [decide_eq_true_eq] at hgood
  exact ⟨w, hgood.1, hgood.2.1, hgood.2.2, nothing_left_behind hreach⟩

/-! ### The retention -/

/-- The row whose object the pass has read. -/
def PassStage.read? : PassStage → Option InboxRow
  | .got row _ _ (some _) | .posting row _ _ | .answering row _ _ _ => some row
  | .got _ _ _ none | .delivering _ _ | .getting _ _ _ | .purging | .deleting _ _ | .rearming =>
    none

theorem readChange (hs : Step env w a w') {p' : Pass} {row : InboxRow}
    (hp : w'.pass = some p') (hread : p'.stage.read? = some row) :
    (∃ p, w.pass = some p ∧ p.stage.read? = some row) ∨
      ∃ p bytes, w.pass = some p ∧ row ∈ p.stage.todo ∧ w.bucket row.r2Key = some bytes := by
  cases hs with
  | email hs => exact Or.inl ⟨p', hs.pass ▸ hp, hread⟩
  | request hs => exact Or.inl ⟨p', hs.pass ▸ hp, hread⟩
  | crash _ hw =>
      rw [hw] at hp
      cases hp
  | pass hs =>
      cases hs with
      | idle | configFailed | started | loopEnd | loopNext | threw | settled | nothingExpired
      | purging | objectPurged | purged | purgeFailed =>
          cases hp
          cases hread
      | ended | endedFailed => cases hp
      | @read p got due config hpass hstage =>
          cases hp
          cases hobject : w.bucket got.r2Key with
          | none =>
              simp only [hobject] at hread
              cases hread
          | some bytes =>
              simp only [hobject] at hread
              cases hread
              exact Or.inr ⟨p, bytes, hpass, by simp [hstage, PassStage.todo], hobject⟩
      | posted hpass hstage | responded hpass hstage =>
          cases hp
          cases hread
          exact Or.inl ⟨_, hpass, by rw [hstage]; rfl⟩

/-- A delivered row has been POSTed from an object the pass has read. -/
theorem Settling.read {stage : PassStage} {row : InboxRow} {due : List InboxRow}
    {config : LoadedConfig} {verdict : Verdict} {status : Option Nat} {now : Nat}
    (h : Settling stage a row due config verdict status now) (hverdict : verdict = .delivered) :
    stage.read? = some row := by
  cases h with
  | missing | unanswered => cases hverdict
  | answered => rfl

structure Retained (env : Worker) (w : World) : Prop where
  row : ∀ id row, w.queue.inbox.get? id = some row → row.status = .delivered →
    .removeCalled id ∉ w.history →
      (w.bucket (env.r2Key id)).isSome ∨ ∃ t, row.purgeAt = some t ∧ t ≤ w.clock
  /-- The attempt at hand still has its object. -/
  read : ∀ p row, w.pass = some p → p.stage.read? = some row → .removeCalled row.id ∉ w.history →
    (w.bucket (env.r2Key row.id)).isSome
  /-- A purge under way is about rows that have expired. -/
  purge : ∀ p expired left, w.pass = some p → p.stage = .deleting expired left → ∀ e ∈ expired,
    ∀ row, w.queue.inbox.get? e.id = some row → row.status = .delivered →
      ∃ t, row.purgeAt = some t ∧ t ≤ w.clock

theorem retained_init : Retained env .init := by
  refine ⟨?_, ?_, ?_⟩ <;> simp [World.init, Queue.init]

/-- An object goes only when its removal was called or a purge is about its row. -/
theorem kept_object (hs : Step env w a w') (hsafe : Safe env w)
    (hcalled : .removeCalled id ∉ w.history)
    (hpurge : ∀ p expired left, w.pass = some p → p.stage = .deleting expired left →
      ∀ e ∈ expired, e.id ≠ id)
    (hobject : (w.bucket (env.r2Key id)).isSome) : (w'.bucket (env.r2Key id)).isSome := by
  cases hs.bucketChange with
  | kept hkept => rwa [hkept]
  | @put i e he _ hput =>
      rw [hput, (hsafe.email i e he).2.1]
      by_cases hid : i = id
      · simp [hid]
      · rwa [bucket_update_ne _ hid]
  | @removed call r hr hgone =>
      obtain ⟨hkey, hremove⟩ := hsafe.removal call r hr
      have hne : r.id ≠ id := fun hid => hcalled (hid ▸ hremove)
      rwa [hgone, hkey, bucket_update_ne _ hne]
  | purged hpass hstage hkey _ hgone =>
      obtain ⟨e, he, rfl⟩ := (hsafe.purge _ _ _ hpass hstage).2 _ hkey
      rwa [hgone, bucket_update_ne _ (hpurge _ _ _ hpass hstage e he)]

theorem retained_row_step (hs : Step env w a w') (hclock : w.clock ≤ w'.clock)
    (hsafe : Safe env w) (h : Retained env w) :
    ∀ id row, w'.queue.inbox.get? id = some row → row.status = .delivered →
      .removeCalled id ∉ w'.history →
        (w'.bucket (env.r2Key id)).isSome ∨ ∃ t, row.purgeAt = some t ∧ t ≤ w'.clock := by
  intro id row hrow hdelivered hcalled'
  have hcalled : .removeCalled id ∉ w.history := fun hc => hcalled' (hs.mem_history hc)
  have hlater : (∃ t, row.purgeAt = some t ∧ t ≤ w.clock) →
      ∃ t, row.purgeAt = some t ∧ t ≤ w'.clock := by
    rintro ⟨t, ht, hle⟩
    exact ⟨t, ht, hle.trans hclock⟩
  cases hs.rowChange id with
  | kept hkept =>
      have hold : w.queue.inbox.get? id = some row := hkept ▸ hrow
      rcases h.row id row hold hdelivered hcalled with hobject | hexpired
      · by_cases hpurge : ∃ p expired left, w.pass = some p ∧ p.stage = .deleting expired left ∧
            ∃ e ∈ expired, e.id = id
        · obtain ⟨p, expired, left, hpass, hstage, e, he, rfl⟩ := hpurge
          exact Or.inr (hlater (h.purge p expired left hpass hstage e he row hold hdelivered))
        · refine Or.inl (kept_object hs hsafe hcalled ?_ hobject)
          intro p expired left hpass hstage e he hid
          exact hpurge ⟨p, expired, left, hpass, hstage, e, he, hid⟩
      · exact Or.inr (hlater hexpired)
  | inserted _ _ _ _ hsome | requeued _ _ _ hsome =>
      rw [hsome] at hrow
      cases hrow
      cases hdelivered
  | settled hpass hsettling hid _ _ _ hsome =>
      rw [hsome] at hrow
      cases hrow
      have hread := hsettling.read (outcomeOf_delivered (nextStatus_delivered.mp hdelivered))
      subst hid
      refine Or.inl (kept_object hs hsafe hcalled ?_ (h.read _ _ hpass hread hcalled))
      intro p expired left hpass' hstage
      rw [hpass] at hpass'
      cases hpass'
      rw [hstage] at hread
      cases hread
  | removed _ _ hnone | purged _ _ _ _ _ _ hnone =>
      rw [hnone] at hrow
      cases hrow

theorem retained_read_step {origin : String → Option Email} (hs : Step env w a w')
    (hsafe : Safe env w) (hsourced : Sourced env origin w) (h : Retained env w) :
    ∀ p row, w'.pass = some p → p.stage.read? = some row → .removeCalled row.id ∉ w'.history →
      (w'.bucket (env.r2Key row.id)).isSome := by
  intro p' row hp hread hcalled'
  have hcalled : .removeCalled row.id ∉ w.history := fun hc => hcalled' (hs.mem_history hc)
  rcases readChange hs hp hread with ⟨p, hpass, hold⟩ | ⟨p, bytes, hpass, htodo, hobject⟩
  · refine kept_object hs hsafe hcalled ?_ (h.read p row hpass hold hcalled)
    intro q expired left hq hstage
    rw [hpass] at hq
    cases hq
    rw [hstage] at hold
    cases hold
  · obtain ⟨o, ho, hrowOf⟩ := hsourced.todo p hpass row htodo
    rw [hrowOf.key, (hsourced.written row.id o ho).1.key] at hobject
    refine kept_object hs hsafe hcalled ?_ (by simp [hobject])
    intro q expired left hq hstage
    rw [hpass] at hq
    cases hq
    rw [hstage] at htodo
    cases htodo

/-- No attempt is settled while a purge waits for R2, so its rows stay as they were read. -/
theorem retained_purge_step (hs : Step env w a w') (hclock : w.clock ≤ w'.clock)
    (h : Retained env w) :
    ∀ p expired left, w'.pass = some p → p.stage = .deleting expired left → ∀ e ∈ expired,
      ∀ row, w'.queue.inbox.get? e.id = some row → row.status = .delivered →
        ∃ t, row.purgeAt = some t ∧ t ≤ w'.clock := by
  intro p expired left hp hstage e he row hrow hdelivered
  have hunchanged : ∀ q before, w.pass = some q → q.stage = .deleting expired before →
      ∃ t, row.purgeAt = some t ∧ t ≤ w'.clock := by
    intro q before hpass hold
    cases hs.rowFrom hrow with
    | kept hget =>
        obtain ⟨t, ht, hle⟩ := h.purge q expired before hpass hold e he row hget hdelivered
        exact ⟨t, ht, hle.trans hclock⟩
    | inserted | requeued => cases hdelivered
    | settled hpass' hsettling =>
        rw [hpass] at hpass'
        cases hpass'
        rw [hold] at hsettling
        cases hsettling
  cases leftChange hs hp hstage with
  | kept hpass => exact hunchanged p left hpass hstage
  | begun hexpired _ hqueue =>
      obtain ⟨hget, t, ht, hle⟩ := mem_expiredRows (hexpired ▸ he)
      rw [hqueue, hget] at hrow
      cases hrow
      exact ⟨t, ht, hle⟩
  | advanced hpass hold => exact hunchanged _ _ hpass hold

/-- A run of the handler, the ops calls and the passes, with one configuration and a clock. -/
structure Retains (config : LoadedConfig) (w : World) (a : Action) : Prop where
  handler : HandlerOnly w a
  clock : ClockForward w a
  config : LoadsConfig config w a

theorem retained_reachable {config : LoadedConfig}
    (h : Reachable (step env) (Retains config) .init w) : Retained env w := by
  refine Reachable.invariant retained_init ?_ h
  intro w a w' hreach hinv hok hs
  have hhandler : Reachable (step env) HandlerOnly .init w := hreach.weaken fun _ _ h => h.handler
  have hsafe : Safe env w := safe_reachable (hhandler.weaken fun _ _ => HandlerOnly.distinctIds)
  obtain ⟨origin, hsourced⟩ := sourced_reachable hhandler
  have hstep := step_cases hs
  have hclock := hstep.clock_le hok.clock
  exact ⟨retained_row_step hstep hclock hsafe hinv, retained_read_step hstep hsafe hsourced hinv,
    retained_purge_step hstep hclock hinv⟩

/--
**A delivered message is kept for the retention period.**  Until that is over its object is
in R2, unless an operator called `remove` on it.
-/
theorem kept_for_retention {config : LoadedConfig}
    (h : Reachable (step env) (Retains config) .init w) {row : InboxRow}
    (hrow : row ∈ w.queue.inbox.rows) (hdelivered : row.status = .delivered) :
    ∃ t, row.deliveredAt = some t ∧
      ((w.bucket row.r2Key).isSome ∨ t + config.retentionMs ≤ w.clock ∨
        .removeCalled row.id ∈ w.history) := by
  have hget := Table.get?_of_mem hrow
  have hsafe : Safe env w :=
    safe_reachable (h.weaken fun _ _ hok => hok.handler.distinctIds)
  have hvalid := rowsValid_reachable (h.weaken fun _ _ hok => hok.config) row.id row hget
  have hne : row.status ≠ .pending := by simp [hdelivered]
  obtain ⟨t, ht⟩ :=
    Option.isSome_iff_exists.mp ((hvalid.deliveredAt_iff hne).mpr hdelivered)
  have hpurgeAt : row.purgeAt = some (t + config.retentionMs) := by
    rw [hvalid.purgeAt_eq hne, ht]
    rfl
  refine ⟨t, ht, ?_⟩
  rw [hsafe.rowKey row.id row hget]
  by_cases hcalled : .removeCalled row.id ∈ w.history
  · exact Or.inr (Or.inr hcalled)
  · rcases (retained_reachable h).row row.id row hget hdelivered hcalled with hobject | ⟨u, hu, hle⟩
    · exact Or.inl hobject
    · rw [hpurgeAt, Option.some.injEq] at hu
      exact Or.inr (Or.inl (hu ▸ hle))

instance (config : LoadedConfig) (w : World) : DecidablePred (Retains config w) := fun a =>
  decidable_of_iff (HandlerOnly w a ∧ ClockForward w a ∧ LoadsConfig config w a)
    ⟨fun h => ⟨h.1, h.2.1, h.2.2⟩, fun h => ⟨h.handler, h.clock, h.config⟩⟩

/-- What is delivered is kept for a second. -/
def keepingConfig : LoadedConfig := { sampleConfig with retentionMs := 1000 }

/-- A delivery, and what is left of its pass. -/
def keepingRun : List Action :=
  [.email "A" sampleMessage 0, .putReturn "A" true true, .emailEnqueue "A" 5 (some keepingConfig),
    .emailReturn "A" true, .alarm 6 (some keepingConfig), .deliverNext, .getObject,
    .getReturn true 7, .fetched (.response 200) 8, .answered none 9, .deliverNext,
    .purgeExpired 10, .rearm 10]

theorem kept_for_retention_delivered : ∃ (w : World) (row : InboxRow),
    row ∈ w.queue.inbox.rows ∧ row.status = .delivered ∧
      ∃ t, row.deliveredAt = some t ∧ w.clock < t + keepingConfig.retentionMs ∧
        (w.bucket row.r2Key).isSome = true := by
  have hrun : (runActions (step sampleWorker) (Retains keepingConfig) .init keepingRun).any
      (fun w => w.queue.inbox.rows.any fun row => row.status = .delivered &&
        row.deliveredAt = some 9 && w.clock = 10 && .removeCalled row.id ∉ w.history) = true := by
    decide +kernel
  obtain ⟨w, hreach, hgood⟩ := exists_reachable_of_runActions keepingRun hrun
  obtain ⟨row, hrow, hgood⟩ := List.any_eq_true.mp hgood
  simp only [Bool.and_eq_true, decide_eq_true_eq] at hgood
  obtain ⟨⟨⟨hdelivered, hat⟩, hclock⟩, hcalled⟩ := hgood
  obtain ⟨t, ht, hkept⟩ := kept_for_retention hreach hrow hdelivered
  obtain rfl : t = 9 := Option.some.inj (ht.symm.trans hat)
  have hearly : w.clock < 9 + keepingConfig.retentionMs := by
    rw [hclock]
    decide
  exact ⟨w, row, hrow, hdelivered, 9, ht, hearly,
    hkept.resolve_right fun h => h.elim (by omega) hcalled⟩

end MailCloudflare
