/-
No accepted message is lost.

A message leaves the Worker in two ways.  `remove` deletes the object and then the row,
and `purgeExpired` does the same for rows whose delivery has been settled.  Both await R2
in between and either half can fail, so the invariant speaks about what is in flight as
well: every removal under way belongs to an id `remove` was called on, every row and every
object of a running purge to a message that has been delivered, and an `email()` that has
stored its message still finds it there.  Keys are distinct because ids are, so none of
the deletes can hit another message.

The invariant is one structure; each field has its own step lemma, and what a step does to
one object and to one row is said first.
-/
import MailCloudflare.Proofs.RowInvariant

namespace MailCloudflare

open Unicode Keyed Transition

variable {env : Worker} {w w' : World} {a : Action} {id : String}

/-! ### Keys -/

theorem r2Key_inj {i j : String} (h : env.r2Key i = env.r2Key j) : i = j := by
  unfold Worker.r2Key at h
  exact String.append_right_inj _ |>.mp (String.append_left_inj _ |>.mp h)

/-! ### What lets go of a message -/

/-- A 2xx answer has been settled for the message. -/
def Delivered (history : List Event) (id : String) : Prop :=
  ∃ attempt status, 200 ≤ status ∧ status < 300 ∧
    .settled id attempt .delivered (some status) true ∈ history

/-- Neither a delivery nor an operator has let go of the message. -/
def Held (history : List Event) (id : String) : Prop :=
  ¬ Delivered history id ∧ .removeCalled id ∉ history

theorem Delivered.step (h : Delivered w.history id) (hs : Step env w a w') :
    Delivered w'.history id := by
  obtain ⟨attempt, status, hlo, hhi, hmem⟩ := h
  exact ⟨attempt, status, hlo, hhi, hs.mem_history hmem⟩

theorem Held.of_step (h : Held w'.history id) (hs : Step env w a w') : Held w.history id :=
  ⟨fun hd => h.1 (hd.step hs), fun hr => h.2 (hs.mem_history hr)⟩

/-- Everything the Worker holds is under way to being delivered. -/
structure Safe (env : Worker) (w : World) : Prop where
  /-- A row points at its own object. -/
  rowKey : ∀ id row, w.queue.inbox.get? id = some row → row.r2Key = env.r2Key id
  /-- Only delivered rows await a purge. -/
  rowPurge : ∀ id row, w.queue.inbox.get? id = some row → row.purgeAt.isSome →
    Delivered w.history id
  /-- A removal under way was called for, and deletes its own object. -/
  removal : ∀ call r, w.removals call = some r →
    r.r2Key = env.r2Key r.id ∧ .removeCalled r.id ∈ w.history
  /-- A running purge is about delivered messages and their objects. -/
  purge : ∀ p expired left, w.pass = some p → p.stage = .deleting expired left →
    (∀ e ∈ expired, Delivered w.history e.id) ∧
      ∀ key ∈ left, ∃ e ∈ expired, key = env.r2Key e.id
  /-- An `email()` in flight stores its own message, and has not returned. -/
  email : ∀ id e, w.emails id = some e →
    e.input.id = id ∧ e.input.r2Key = env.r2Key id ∧ .minted id ∈ w.history ∧
      ∀ stored, .accepted id stored ∉ w.history
  /-- Past its put, the object is there. -/
  emailObject : ∀ id e, w.emails id = some e → e.stage ≠ .putting → Held w.history id →
    w.bucket (env.r2Key id) = some e.stored
  /-- Past its call to the queue, so is the row. -/
  emailRow : ∀ id e, w.emails id = some e → e.stage = .queued → Held w.history id →
    (w.queue.inbox.get? id).isSome
  /-- An accepted message has both. -/
  accepted : ∀ id stored, .accepted id stored ∈ w.history →
    .minted id ∈ w.history ∧
      (Held w.history id →
        w.bucket (env.r2Key id) = some stored ∧ (w.queue.inbox.get? id).isSome)

theorem safe_init : Safe env .init := by
  refine ⟨?_, ?_, ?_, ?_, ?_, ?_, ?_, ?_⟩ <;> simp [World.init, Queue.init]

/--
Ids are distinct: `ulid()` returns none twice, and whoever calls `enqueue` names the
object after the id, as the handler does.
-/
def DistinctIds (env : Worker) (w : World) : Action → Prop
  | .email id _ _ => .minted id ∉ w.history
  | .enqueue input _ _ => input.r2Key = env.r2Key input.id
  | _ => True

/-! ### One object and one row -/

/-- What writes to R2 under another id leaves the object of a message alone. -/
theorem bucket_update_ne (bucket : String → Option Bytes) {i : String} (hne : i ≠ id)
    (object : Option Bytes) :
    Function.update bucket (env.r2Key i) object (env.r2Key id) = bucket (env.r2Key id) :=
  Function.update_of_ne (fun hkey => hne (r2Key_inj hkey).symm) ..

/-- The object of a held message survives, unless it is being put again. -/
theorem object_step (hs : Step env w a w') (hsafe : Safe env w) (hheld : Held w.history id)
    (hput : ∀ e, w.emails id = some e → e.stage ≠ .putting) {stored : Bytes}
    (hobject : w.bucket (env.r2Key id) = some stored) :
    w'.bucket (env.r2Key id) = some stored := by
  cases hs.bucketChange with
  | kept hkept => rw [hkept, hobject]
  | @put i e he hstage hbucket =>
      have hne : i ≠ id := by
        rintro rfl
        exact hput e he hstage
      rw [hbucket, (hsafe.email i e he).2.1, bucket_update_ne _ hne, hobject]
  | @removed call r hr hbucket =>
      obtain ⟨hkey, hcalled⟩ := hsafe.removal call r hr
      have hne : r.id ≠ id := fun hid => hheld.2 (hid ▸ hcalled)
      rw [hbucket, hkey, bucket_update_ne _ hne, hobject]
  | @purged p key expired left hpass hstage hkey _ hbucket =>
      obtain ⟨hdelivered, hleft⟩ := hsafe.purge p expired left hpass hstage
      obtain ⟨e, he, rfl⟩ := hleft key hkey
      have hne : e.id ≠ id := fun hid => hheld.1 (hid ▸ hdelivered e he)
      rw [hbucket, bucket_update_ne _ hne, hobject]

/-- The row of a held message survives. -/
theorem row_step (hs : Step env w a w') (hsafe : Safe env w) (hheld : Held w.history id)
    (hrow : (w.queue.inbox.get? id).isSome) : (w'.queue.inbox.get? id).isSome := by
  cases hs.rowChange id with
  | kept hkept => rwa [hkept]
  | inserted _ _ _ _ hsome => simp [hsome]
  | requeued _ _ _ hsome => simp [hsome]
  | settled _ _ _ _ _ _ hsome => simp [hsome]
  | @removed call r hr hid =>
      exact absurd (hid ▸ (hsafe.removal call r hr).2) hheld.2
  | @purged p expired row e hpass hstage hmem hid =>
      exact absurd (hid ▸ (hsafe.purge p expired [] hpass hstage).1 e hmem) hheld.1

/-! ### The fields one by one -/

theorem rowKey_step (hs : Step env w a w') (hok : DistinctIds env w a) (hsafe : Safe env w) :
    ∀ id row, w'.queue.inbox.get? id = some row → row.r2Key = env.r2Key id := by
  intro id row hrow
  cases hs.rowFrom hrow with
  | kept hold => exact hsafe.rowKey id row hold
  | inserted hcaller hid =>
      subst hid
      cases hcaller with
      | direct => exact hok
      | email he =>
          obtain ⟨hinput, hkey, -⟩ := hsafe.email _ _ he
          rw [hinput]
          exact hkey
  | requeued hold | settled _ _ _ hold =>
      have hkey := hsafe.rowKey id _ hold
      exact hkey

theorem rowPurge_step (hs : Step env w a w') (hsafe : Safe env w) :
    ∀ id row, w'.queue.inbox.get? id = some row → row.purgeAt.isSome →
      Delivered w'.history id := by
  intro id row hrow hpurge
  cases hs.rowFrom hrow with
  | kept hold => exact (hsafe.rowPurge id row hold hpurge).step hs
  | inserted => cases hpurge
  | requeued => cases hpurge
  | @settled _ _ snapshot _ config verdict _ _ _ _ _ hsettling _ _ _ hlog =>
      have hout : outcomeOf config (snapshot.attempts + 1) verdict = .delivered := by
        by_contra hne
        simp [Settlement.apply, settlementOf, hne] at hpurge
      obtain ⟨s, rfl, hlo, hhi⟩ := hsettling.delivered (outcomeOf_delivered hout)
      have hmem := hs.mem_of_logOf hlog (List.mem_singleton_self _)
      exact ⟨_, s, hlo, hhi, hout ▸ hmem⟩

theorem removal_step (hs : Step env w a w') (hsafe : Safe env w) :
    ∀ call r, w'.removals call = some r →
      r.r2Key = env.r2Key r.id ∧ .removeCalled r.id ∈ w'.history := by
  intro call r hr
  rcases removal_cases hs hr with ⟨old, hold, hid, hkey⟩ | ⟨row, hrow, hkey, hcalled⟩
  · obtain ⟨hr2, hcalled⟩ := hsafe.removal call old hold
    rw [← hid, ← hkey]
    exact ⟨hr2, hs.mem_history hcalled⟩
  · exact ⟨hkey ▸ hsafe.rowKey r.id row hrow, hcalled⟩

/-- What a step does to an `email()` invocation that is in flight after it. -/
inductive EmailChange (env : Worker) (w : World) (a : Action) (w' : World) (id : String)
    (e : Email) : Prop
  | kept (he : w.emails id = some e)
  | minted {m : EmailMessage} {receivedAt : Nat} (ha : a = .email id m receivedAt)
      (hid : e.input.id = id) (hkey : e.input.r2Key = env.r2Key id) (hstage : e.stage = .putting)
      (hlog : .minted id ∈ w'.history)
  | put {old : Email} (hold : w.emails id = some old) (hinput : old.input = e.input)
      (hstored : old.stored = e.stored) (hold_stage : old.stage = .putting)
      (hstage : e.stage = .stored)
      (hobject : w'.bucket e.input.r2Key = some e.stored)
  | queued {old : Email} (hold : w.emails id = some old) (hinput : old.input = e.input)
      (hstored : old.stored = e.stored) (hold_stage : old.stage = .stored)
      (hstage : e.stage = .queued) (hrow : (w'.queue.inbox.get? e.input.id).isSome)

private theorem Caller.emailChange {input : EnqueueInput} {now : Nat}
    {config : Option LoadedConfig} {emails : String → Option Email}
    (hcaller : Caller w a input now config emails) {e : Email} (he : emails id = some e)
    (hemails : w'.emails = emails) (hrow : (w'.queue.inbox.get? input.id).isSome) :
    EmailChange env w a w' id e := by
  cases hcaller with
  | direct => exact .kept he
  | @email i old now config hold hstage =>
      by_cases hid : id = i
      · subst hid
        simp only [Function.update_self, Option.some.injEq] at he
        subst he
        exact .queued hold rfl rfl hstage rfl hrow
      · rw [Function.update_of_ne hid] at he
        exact .kept he

theorem emailChange (hs : Step env w a w') {e : Email} (he : w'.emails id = some e) :
    EmailChange env w a w' id e := by
  cases hs with
  | pass hs => exact .kept (hs.emails ▸ he)
  | crash _ hw => exact .kept (by rw [hw] at he; exact he)
  | request hs =>
      cases hs with
      | requeued | left | requeuedAll | missing | removing | objectRemoved | removed
      | removeFailed => exact .kept he
      | duplicate hcaller hrow => exact hcaller.emailChange he rfl (by simp [hrow])
      | inserted hcaller hnone =>
          exact hcaller.emailChange he rfl
            (by simp [Table.get?_insertOrIgnore, newRow])
  | email hs =>
      cases hs with
      | rejected | refused => exact .kept he
      | @minted i m receivedAt new hfree hid hkey hstage =>
          by_cases hi : id = i
          · subst hi
            simp only [Function.update_self, Option.some.injEq] at he
            subst he
            exact .minted rfl hid hkey hstage (List.mem_cons_self ..)
          · simp only [Function.update_of_ne hi] at he
            exact .kept he
      | @put i old _ hold hstage =>
          by_cases hi : id = i
          · subst hi
            simp only [Function.update_self, Option.some.injEq] at he
            subst he
            exact .put hold rfl rfl hstage rfl (by simp)
          · simp only [Function.update_of_ne hi] at he
            exact .kept he
      | @putFailed i | @accepted i | @failed i =>
          by_cases hi : id = i
          · subst hi
            simp at he
          · simp only [Function.update_of_ne hi] at he
            exact .kept he

theorem purge_step (hs : Step env w a w') (hsafe : Safe env w) :
    ∀ p expired left, w'.pass = some p → p.stage = .deleting expired left →
      (∀ e ∈ expired, Delivered w'.history e.id) ∧
        ∀ key ∈ left, ∃ e ∈ expired, key = env.r2Key e.id := by
  intro p expired left hp hstage
  cases hs.deletingChange hp hstage with
  | kept hpass =>
      obtain ⟨hdelivered, hleft⟩ := hsafe.purge p expired left hpass hstage
      exact ⟨fun e he => (hdelivered e he).step hs, hleft⟩
  | begun hexpired hleft =>
      subst hexpired hleft
      refine ⟨?_, ?_⟩
      · intro e he
        obtain ⟨hrow, t, ht, -⟩ := mem_expiredRows he
        exact (hsafe.rowPurge e.id e hrow (by simp [ht])).step hs
      · intro key hkey
        obtain ⟨e, he, rfl⟩ := List.mem_map.mp hkey
        exact ⟨e, he, hsafe.rowKey e.id e (mem_expiredRows he).1⟩
  | deleted hpass hold hsubset =>
      obtain ⟨hdelivered, hleft⟩ := hsafe.purge _ _ _ hpass hold
      exact ⟨fun e he => (hdelivered e he).step hs, fun key hkey => hleft key (hsubset hkey)⟩

theorem emailInput_step (hs : Step env w a w') (hok : DistinctIds env w a) (hsafe : Safe env w) :
    ∀ id e, w'.emails id = some e →
      e.input.id = id ∧ e.input.r2Key = env.r2Key id ∧ .minted id ∈ w'.history ∧
        ∀ stored, .accepted id stored ∉ w'.history := by
  intro id e he
  have hopen : (∀ stored, .accepted id stored ∉ w.history) →
      ∀ stored, .accepted id stored ∉ w'.history := by
    intro hold stored hacc
    rcases hs.logged hacc with h | ⟨-, -, -, -, hnone, -⟩
    · exact hold stored h
    · rw [hnone] at he
      cases he
  cases emailChange hs he with
  | kept hold =>
      obtain ⟨hid, hkey, hminted, hacc⟩ := hsafe.email id e hold
      exact ⟨hid, hkey, hs.mem_history hminted, hopen hacc⟩
  | @minted m receivedAt ha hid hkey _ hlog =>
      refine ⟨hid, hkey, hlog, hopen ?_⟩
      intro stored hacc
      subst ha
      exact hok (hsafe.accepted id stored hacc).1
  | @put old hold hinput _ _ _ _ | @queued old hold hinput _ _ _ _ =>
      obtain ⟨hid, hkey, hminted, hacc⟩ := hsafe.email id old hold
      rw [← hinput]
      exact ⟨hid, hkey, hs.mem_history hminted, hopen hacc⟩

theorem emailObject_step (hs : Step env w a w') (hsafe : Safe env w) :
    ∀ id e, w'.emails id = some e → e.stage ≠ .putting → Held w'.history id →
      w'.bucket (env.r2Key id) = some e.stored := by
  intro id e he hstage hheld
  have hold_held := hheld.of_step hs
  have hkeep : ∀ old, w.emails id = some old → old.stage ≠ .putting → old.stored = e.stored →
      w'.bucket (env.r2Key id) = some e.stored := by
    intro old hold hne hstored
    refine object_step hs hsafe hold_held ?_ (hstored ▸ hsafe.emailObject id old hold hne hold_held)
    intro e' he'
    rw [hold] at he'
    cases he'
    exact hne
  cases emailChange hs he with
  | kept hold => exact hkeep e hold hstage rfl
  | minted _ _ _ hputting => exact absurd hputting hstage
  | @put old hold hinput _ _ _ hobject =>
      rw [← (hsafe.email id old hold).2.1, hinput]
      exact hobject
  | @queued old hold _ hstored hold_stage _ _ => exact hkeep old hold (by simp [hold_stage]) hstored

theorem emailRow_step (hs : Step env w a w') (hsafe : Safe env w) :
    ∀ id e, w'.emails id = some e → e.stage = .queued → Held w'.history id →
      (w'.queue.inbox.get? id).isSome := by
  intro id e he hstage hheld
  have hold_held := hheld.of_step hs
  cases emailChange hs he with
  | kept hold => exact row_step hs hsafe hold_held (hsafe.emailRow id e hold hstage hold_held)
  | minted _ _ _ hputting =>
      rw [hputting] at hstage
      cases hstage
  | put _ _ _ _ hstored =>
      rw [hstored] at hstage
      cases hstage
  | @queued old hold hinput _ _ _ hrow =>
      rwa [← hinput, (hsafe.email id old hold).1] at hrow

theorem accepted_step (hs : Step env w a w') (hsafe : Safe env w) :
    ∀ id stored, .accepted id stored ∈ w'.history →
      .minted id ∈ w'.history ∧
        (Held w'.history id →
          w'.bucket (env.r2Key id) = some stored ∧ (w'.queue.inbox.get? id).isSome) := by
  intro id stored hacc
  rcases hs.logged hacc with hold | ⟨e, he, hqueued, rfl, -, hbucket, hqueue⟩
  · obtain ⟨hminted, hkept⟩ := hsafe.accepted id stored hold
    refine ⟨hs.mem_history hminted, ?_⟩
    intro hheld
    obtain ⟨hobject, hrow⟩ := hkept (hheld.of_step hs)
    refine ⟨object_step hs hsafe (hheld.of_step hs) ?_ hobject,
      row_step hs hsafe (hheld.of_step hs) hrow⟩
    intro e he
    exact absurd hold ((hsafe.email id e he).2.2.2 stored)
  · refine ⟨hs.mem_history (hsafe.email id e he).2.2.1, ?_⟩
    intro hheld
    rw [hbucket, hqueue]
    exact ⟨hsafe.emailObject id e he (by simp [hqueued]) (hheld.of_step hs),
      hsafe.emailRow id e he hqueued (hheld.of_step hs)⟩

/-! ### Every run -/

theorem safe_step (hs : Step env w a w') (hok : DistinctIds env w a) (hsafe : Safe env w) :
    Safe env w' where
  rowKey := rowKey_step hs hok hsafe
  rowPurge := rowPurge_step hs hsafe
  removal := removal_step hs hsafe
  purge := purge_step hs hsafe
  email := emailInput_step hs hok hsafe
  emailObject := emailObject_step hs hsafe
  emailRow := emailRow_step hs hsafe
  accepted := accepted_step hs hsafe

theorem safe_reachable (h : Reachable (step env) (DistinctIds env) .init w) : Safe env w := by
  refine Reachable.invariant safe_init ?_ h
  intro w a w' _ hsafe hok hs
  exact safe_step (step_cases hs) hok hsafe

/--
**No accepted message is lost.**  In every later state its row is there and its object
holds the bytes that were stored, or a 2xx answer has been settled for it, or an operator
called `remove` on it; whatever failed, crashed or interleaved on the way.
-/
theorem accepted_never_lost (h : Reachable (step env) (DistinctIds env) .init w) {stored : Bytes}
    (hacc : .accepted id stored ∈ w.history) :
    (∃ row, w.queue.inbox.get? id = some row ∧ w.bucket row.r2Key = some stored) ∨
      (∃ attempt status, 200 ≤ status ∧ status < 300 ∧
        .settled id attempt .delivered (some status) true ∈ w.history) ∨
      .removeCalled id ∈ w.history := by
  have hsafe := safe_reachable h
  by_cases hdelivered : Delivered w.history id
  · exact Or.inr (Or.inl hdelivered)
  · by_cases hremoved : .removeCalled id ∈ w.history
    · exact Or.inr (Or.inr hremoved)
    · obtain ⟨hobject, hrow⟩ := (hsafe.accepted id stored hacc).2 ⟨hdelivered, hremoved⟩
      obtain ⟨row, hget⟩ := Option.isSome_iff_exists.mp hrow
      exact Or.inl ⟨row, hget, by rw [hsafe.rowKey id row hget, hobject]⟩

instance (env : Worker) (w : World) : DecidablePred (DistinctIds env w)
  | .email id _ _ => inferInstanceAs (Decidable (.minted id ∉ w.history))
  | .enqueue input _ _ => inferInstanceAs (Decidable (input.r2Key = env.r2Key input.id))
  | .emailEnqueue .. | .putReturn .. | .emailReturn .. | .retry .. | .retryAll .. | .remove ..
  | .removeObject .. | .removeReturn .. | .alarm .. | .deliverNext | .getObject | .getReturn ..
  | .fetched .. | .answered .. | .purgeExpired .. | .purgeObject .. | .purgeReturn ..
  | .rearm .. | .crash => isTrue trivial

theorem accepted_never_lost_accepted : ∃ (w : World) (stored : Bytes),
    .accepted "A" stored ∈ w.history ∧
      ((∃ row, w.queue.inbox.get? "A" = some row ∧ w.bucket row.r2Key = some stored) ∨
        (∃ attempt status, 200 ≤ status ∧ status < 300 ∧
          .settled "A" attempt .delivered (some status) true ∈ w.history) ∨
        .removeCalled "A" ∈ w.history) := by
  have hrun : (runActions (step sampleWorker) (DistinctIds sampleWorker) .init acceptedRun).any
      (fun w => w.history.any fun e => match e with
        | .accepted id _ => id = "A"
        | _ => false) = true := by decide +kernel
  obtain ⟨w, hreach, hgood⟩ := exists_reachable_of_runActions acceptedRun hrun
  obtain ⟨e, he, hid⟩ := List.any_eq_true.mp hgood
  cases e with
  | accepted id stored =>
      simp only [decide_eq_true_eq] at hid
      subst hid
      exact ⟨w, stored, he, accepted_never_lost hreach he⟩
  | _ => simp at hid

end MailCloudflare
