/-
Where the bytes of a message go.

An id is minted by one `email()`, which fixes the message, its envelope and its key for
good.  Everything that later bears the id comes from there: the row, the object, the copy a
pass works on, what is POSTed and what is reported as accepted.  `origin` is the record of
that, kept by the proof and not by the Worker: it is written once, when an id is minted, and
an id that has no entry has nothing that bears it.

The deletes need no case: they take objects and rows away and put none in their place.
-/
import MailCloudflare.Proofs.Logged
import MailCloudflare.Proofs.Purge

namespace MailCloudflare

open Unicode Keyed Transition

variable {env : Worker} {w w' : World} {a : Action} {id : String}
  {origin origin' : String → Option Email}

/-! ### One message -/

/-- What `email()` stores and queues under an id. -/
structure Written (env : Worker) (i : String) (e : Email) : Prop where
  id : e.input.id = i
  key : e.input.r2Key = env.r2Key i
  stored : ∃ raw, prependHeaders raw
    (envelopeHeaders e.input.envelopeFrom e.input.envelopeTo) = .ok e.stored

/-- The row of a message. -/
structure RowOf (e : Email) (row : InboxRow) : Prop where
  id : row.id = e.input.id
  key : row.r2Key = e.input.r2Key
  envelopeFrom : row.envelopeFrom = e.input.envelopeFrom
  envelopeTo : row.envelopeTo = e.input.envelopeTo

theorem rowOf_newRow (e : Email) (t : Nat) : RowOf e (newRow e.input t) :=
  ⟨rfl, rfl, rfl, rfl⟩

theorem RowOf.requeue {e : Email} {row : InboxRow} (h : RowOf e row) (now : Nat) :
    RowOf e (row.requeue now) := ⟨h.id, h.key, h.envelopeFrom, h.envelopeTo⟩

theorem RowOf.apply {e : Email} {row : InboxRow} (h : RowOf e row) (s : Settlement) :
    RowOf e (s.apply row) := ⟨h.id, h.key, h.envelopeFrom, h.envelopeTo⟩

/-- Everything that bears an id comes from the `email()` that minted it. -/
structure Sourced (env : Worker) (origin : String → Option Email) (w : World) : Prop where
  written : ∀ id o, origin id = some o → Written env id o ∧ .minted id ∈ w.history
  email : ∀ id e, w.emails id = some e →
    ∃ o, origin id = some o ∧ e.input = o.input ∧ e.stored = o.stored
  row : ∀ id row, w.queue.inbox.get? id = some row → ∃ o, origin id = some o ∧ RowOf o row
  object : ∀ id bytes, w.bucket (env.r2Key id) = some bytes →
    ∃ o, origin id = some o ∧ o.stored = bytes
  todo : ∀ p, w.pass = some p → ∀ row ∈ p.stage.todo, ∃ o, origin row.id = some o ∧ RowOf o row
  got : ∀ p row due config bytes, w.pass = some p → p.stage = .got row due config (some bytes) →
    ∃ o, origin row.id = some o ∧ o.stored = bytes
  posted : ∀ id n request, .posted id n request ∈ w.history →
    ∃ o, origin id = some o ∧ ∃ row config now, RowOf o row ∧
      deliveryRequest env config row n o.stored now = some request
  accepted : ∀ id stored, .accepted id stored ∈ w.history →
    ∃ o, origin id = some o ∧ o.stored = stored

theorem sourced_init : Sourced env (fun _ => none) .init := by
  refine ⟨?_, ?_, ?_, ?_, ?_, ?_, ?_, ?_⟩ <;> simp [World.init, Queue.init]

/-! ### What a step mints -/

/-- What `email()` has put in flight when it waits for R2. -/
theorem email_minted {m : EmailMessage} {receivedAt : Nat} (h : w.email env id m receivedAt = some w')
    {e : Email} (he : w'.emails id = some e) : Written env id e := by
  unfold World.email at h
  split at h
  · cases h
  · rename_i hfree
    have hnone : w.emails id = none := by simpa using hfree
    split at h
    · cases h
      simp [hnone] at he
    · split at h
      · rename_i stored _ hstored _
        cases h
        simp only [World.setEmail, Function.update_self, Option.some.injEq] at he
        subst he
        exact ⟨rfl, rfl, m.raw, hstored⟩
      · cases h
        simp [hnone] at he

/-- An object a pass has read is the one in R2. -/
theorem got_cases (hs : Step env w a w') {p' : Pass} {row : InboxRow} {due : List InboxRow}
    {config : LoadedConfig} {bytes : Bytes} (hp : w'.pass = some p')
    (hstage : p'.stage = .got row due config (some bytes)) :
    w.pass = some p' ∨ ∃ p, w.pass = some p ∧ row ∈ p.stage.todo ∧
      w.bucket row.r2Key = some bytes := by
  cases hs with
  | email hs => exact Or.inl (hs.pass ▸ hp)
  | request hs => exact Or.inl (hs.pass ▸ hp)
  | crash _ hw =>
      rw [hw] at hp
      cases hp
  | pass hs =>
      cases hs with
      | read hpass hold =>
          cases hp
          simp only [PassStage.got.injEq] at hstage
          obtain ⟨rfl, -, -, hobject⟩ := hstage
          exact Or.inr ⟨_, hpass, by simp [hold, PassStage.todo], hobject⟩
      | ended | endedFailed => cases hp
      | _ =>
          cases hp
          cases hstage

/-- What is there after a delete was there before. -/
theorem kept_of_delete {bucket : String → Option Bytes} {key other : String} {bytes : Bytes}
    (h : Function.update bucket key none other = some bytes) : bucket other = some bytes := by
  by_cases hkey : other = key
  · rw [hkey, Function.update_self] at h
    cases h
  · rwa [Function.update_of_ne hkey] at h

/-! ### One step -/

/-- The record may grow with a step, and goes on to hold. -/
theorem sourced_step (hs : Step env w a w') (hok : HandlerOnly w a) (hsafe : Safe env w)
    (h : Sourced env origin w) (hgrows : ∀ id o, origin id = some o → origin' id = some o)
    (hwritten : ∀ id o, origin' id = some o → Written env id o ∧ .minted id ∈ w'.history)
    (hemail : ∀ id e, w'.emails id = some e →
      ∃ o, origin' id = some o ∧ e.input = o.input ∧ e.stored = o.stored) :
    Sourced env origin' w' where
  written := hwritten
  email := hemail
  row := by
    intro id row hrow
    cases hs.rowFrom hrow with
    | kept hold =>
        obtain ⟨o, ho, hrowOf⟩ := h.row id row hold
        exact ⟨o, hgrows id o ho, hrowOf⟩
    | inserted hcaller hid =>
        obtain ⟨e, he, rfl, -⟩ := caller_cases hok hsafe hcaller
        obtain ⟨o, ho, hinput, -⟩ := h.email _ e he
        rw [← hid, hinput]
        rw [hinput] at ho
        exact ⟨o, hgrows _ o ho, rowOf_newRow o _⟩
    | requeued hold =>
        obtain ⟨o, ho, hrowOf⟩ := h.row id _ hold
        exact ⟨o, hgrows id o ho, hrowOf.requeue _⟩
    | settled _ _ _ hold =>
        obtain ⟨o, ho, hrowOf⟩ := h.row id _ hold
        exact ⟨o, hgrows id o ho, hrowOf.apply _⟩
  object := by
    intro id bytes hobject
    have hold : w.bucket (env.r2Key id) = some bytes →
        ∃ o, origin' id = some o ∧ o.stored = bytes := by
      intro hbucket
      obtain ⟨o, ho, hstored⟩ := h.object id bytes hbucket
      exact ⟨o, hgrows id o ho, hstored⟩
    cases hs.bucketChange with
    | kept hkept => exact hold (hkept ▸ hobject)
    | @put i e he _ hput =>
        rw [hput, (hsafe.email i e he).2.1] at hobject
        by_cases hid : i = id
        · subst hid
          rw [Function.update_self, Option.some.injEq] at hobject
          obtain ⟨o, ho, -, hstored⟩ := h.email i e he
          exact ⟨o, hgrows i o ho, hstored.symm.trans hobject⟩
        · rw [bucket_update_ne _ hid] at hobject
          exact hold hobject
    | removed _ hgone | purged _ _ _ _ hgone => exact hold (kept_of_delete (hgone ▸ hobject))
  todo := by
    intro p' hp row hrow
    have hold : ∀ {o}, origin row.id = some o ∧ RowOf o row →
        ∃ o, origin' row.id = some o ∧ RowOf o row := by
      intro o ho
      exact ⟨o, hgrows row.id o ho.1, ho.2⟩
    cases todoChange hs hp with
    | selected _ htodo =>
        rw [htodo] at hrow
        obtain ⟨o, ho⟩ := h.row row.id row (mem_dueRows hrow).1
        exact hold ho
    | idle _ htodo =>
        rw [htodo] at hrow
        cases hrow
    | kept hpass _ htodo =>
        obtain ⟨o, ho⟩ := h.todo _ hpass row (htodo ▸ hrow)
        exact hold ho
    | advanced hpass _ htodo =>
        obtain ⟨o, ho⟩ := h.todo _ hpass row (htodo ▸ List.mem_cons_of_mem _ hrow)
        exact hold ho
  got := by
    intro p' row due config bytes hp hstage
    rcases got_cases hs hp hstage with hpass | ⟨p, hpass, hrow, hobject⟩
    · obtain ⟨o, ho, hstored⟩ := h.got p' row due config bytes hpass hstage
      exact ⟨o, hgrows row.id o ho, hstored⟩
    · obtain ⟨o, ho, hrowOf⟩ := h.todo p hpass row hrow
      rw [hrowOf.key, (h.written row.id o ho).1.key] at hobject
      obtain ⟨o', ho', hstored⟩ := h.object row.id bytes hobject
      exact ⟨o', hgrows row.id o' ho', hstored⟩
  posted := by
    intro id n request hposted
    rcases hs.loggedNow hposted with hold | ⟨p, row, due, config, body, hpass, hstage, rfl, -, -,
      hrequest⟩
    · obtain ⟨o, ho, hsent⟩ := h.posted id n request hold
      exact ⟨o, hgrows id o ho, hsent⟩
    · obtain ⟨o, ho, hstored⟩ := h.got p row due config body hpass hstage
      obtain ⟨o', ho', hrowOf⟩ := h.todo p hpass row (PassStage.mem_todo_of_got hstage)
      obtain rfl : o = o' := Option.some.inj (ho.symm.trans ho')
      exact ⟨o, hgrows row.id o ho, row, config, w'.clock, hrowOf, hstored.symm ▸ hrequest⟩
  accepted := by
    intro id stored haccepted
    rcases hs.logged haccepted with hold | ⟨e, he, -, rfl, -⟩
    · obtain ⟨o, ho, hstored⟩ := h.accepted id stored hold
      exact ⟨o, hgrows id o ho, hstored⟩
    · obtain ⟨o, ho, -, hstored⟩ := h.email id e he
      exact ⟨o, hgrows id o ho, hstored.symm⟩

/-! ### Every run -/

/-- An invocation in flight has been recorded, or is called in the step. -/
private theorem email_recorded (hs : Step env w a w') (h : Sourced env origin w) {e : Email}
    (he : w'.emails id = some e) :
    ((∃ m receivedAt, a = .email id m receivedAt) ∧ .minted id ∈ w'.history) ∨
      ∃ o, origin id = some o ∧ e.input = o.input ∧ e.stored = o.stored := by
  cases emailChange hs he with
  | kept hold => exact Or.inr (h.email id e hold)
  | minted ha _ _ _ hlog => exact Or.inl ⟨⟨_, _, ha⟩, hlog⟩
  | put hold hinput hstored | queued hold hinput hstored =>
      obtain ⟨o, ho, hsameInput, hsameStored⟩ := h.email id _ hold
      exact Or.inr ⟨o, ho, hinput.symm.trans hsameInput, hstored.symm.trans hsameStored⟩

/-- With the entry that a call of `email()` adds: what it has put in flight under its id. -/
private def withMinted (origin : String → Option Email) (w' : World) (minted : String) :
    String → Option Email :=
  fun id => if id = minted then (origin id).or (w'.emails id) else origin id

private theorem exists_sourced_email {m : EmailMessage} {receivedAt : Nat}
    (hs : step env w (.email id m receivedAt) = some w') (hfresh : .minted id ∉ w.history)
    (hsafe : Safe env w) (h : Sourced env origin w) : ∃ origin', Sourced env origin' w' := by
  have hnone : origin id = none := by
    cases ho : origin id with
    | none => rfl
    | some o => exact absurd (h.written id o ho).2 hfresh
  have hgrows : ∀ i o, origin i = some o → withMinted origin w' id i = some o := by
    intro i o ho
    unfold withMinted
    split <;> simp [ho]
  refine ⟨withMinted origin w' id, sourced_step (step_cases hs) hfresh hsafe h hgrows ?_ ?_⟩
  · intro i o ho
    by_cases hi : i = id
    · subst hi
      have he : w'.emails i = some o := by simpa [withMinted, hnone] using ho
      rcases email_recorded (step_cases hs) h he with ⟨-, hminted⟩ | ⟨o', ho', -⟩
      · exact ⟨email_minted hs he, hminted⟩
      · rw [hnone] at ho'
        cases ho'
    · have hold : origin i = some o := by simpa [withMinted, hi] using ho
      obtain ⟨hwritten, hminted⟩ := h.written i o hold
      exact ⟨hwritten, (step_cases hs).mem_history hminted⟩
  · intro i e he
    rcases email_recorded (step_cases hs) h he with ⟨⟨_, _, ha⟩, -⟩ | ⟨o, ho, hsame⟩
    · cases ha
      exact ⟨e, by simp [withMinted, hnone, he], rfl, rfl⟩
    · exact ⟨o, hgrows i o ho, hsame⟩

/-- The record goes on to hold, with an entry for the id that has been minted. -/
theorem exists_sourced_step (hs : step env w a = some w') (hok : HandlerOnly w a)
    (hsafe : Safe env w) (h : Sourced env origin w) : ∃ origin', Sourced env origin' w' := by
  have hstep := step_cases hs
  by_cases hemail : ∃ id m receivedAt, a = .email id m receivedAt
  · obtain ⟨id, m, receivedAt, rfl⟩ := hemail
    exact exists_sourced_email hs hok hsafe h
  · refine ⟨origin, sourced_step hstep hok hsafe h (fun _ _ ho => ho) ?_ ?_⟩
    · intro id o ho
      obtain ⟨hwritten, hminted⟩ := h.written id o ho
      exact ⟨hwritten, hstep.mem_history hminted⟩
    · intro id e he
      refine (email_recorded hstep h he).resolve_left ?_
      rintro ⟨⟨m, receivedAt, ha⟩, -⟩
      exact hemail ⟨id, m, receivedAt, ha⟩

/-- Whatever bears an id comes from the `email()` that minted it. -/
private def IsSourced (env : Worker) (w : World) : Prop := ∃ origin, Sourced env origin w

/-- **Whatever bears an id comes from the `email()` that minted it**, in every run. -/
theorem sourced_reachable (h : Reachable (step env) HandlerOnly .init w) :
    ∃ origin, Sourced env origin w := by
  show IsSourced env w
  refine Reachable.invariant ?_ ?_ h
  · exact ⟨_, sourced_init⟩
  · rintro w a w' hreach ⟨origin, hinv⟩ hok hs
    have hsafe := safe_reachable (hreach.weaken fun _ _ => HandlerOnly.distinctIds)
    exact exists_sourced_step hs hok hsafe hinv

end MailCloudflare
