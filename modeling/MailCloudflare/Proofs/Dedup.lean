/-
Overlapping deliveries of one message.

The Worker gives up on a POST after its timeout and sends the message again while the first
request may still be at work, and under snapshot isolation neither of the two sees what the
other inserts.  They do not both commit, because both have written the date of one server:
the second to commit has updated a row that has been updated since it began, and the
controller hands that error on, so the request runs again and sees the message.

`StageSound` is what is known of a request at each point of the handler, and `Sound` adds the
committed transactions and the answers.
-/
import MailCloudflare.Base.Transition
import MailCloudflare.Odoo.Inbound
import MailCloudflare.Proofs.Signature

namespace MailCloudflare

open Unicode Python Transition

variable {odoo : Odoo} {m : Str} {s : Nat} {drops : Prop} {w w' : OdooWorld} {a : OdooAction}

/-! ### What is assumed -/

/-- The Message-Id of the message a request carries, as the mail gateway will read it. -/
def InboundRequest.messageId (odoo : Odoo) (request : InboundRequest) : Option Str :=
  match cloudflarePrepareMessage (.bytes request.body) (request.header HEADER_ENVELOPE_FROM)
      (request.header HEADER_ENVELOPE_TO) with
  | .ok message => odoo.messageId message
  | .error _ => none

/-- A message with this Message-Id has been inserted by one of the transactions. -/
def Holds (m : Str) (log : List Writes) : Prop := ∃ c ∈ log, c.effect = some m

instance (m : Str) (log : List Writes) : Decidable (Holds m log) :=
  inferInstanceAs (Decidable (∃ c ∈ log, c.effect = some m))

def Stage.call? : Stage → Option GatewayCall
  | .processing _ call => some call
  | .dating _ _ | .returned _ | .raised => none

def Stage.dating? : Stage → Option Server
  | .dating server _ => some server
  | .processing _ _ | .returned _ | .raised => none

/--
What the code relies on in the rest of Odoo: `message_process` inserts nothing and returns
a false value when the message is in its snapshot and inserts it otherwise, and the write of
the date updates the row of the server.
-/
def GatewayLaw (odoo : Odoo) (w : OdooWorld) : OdooAction → Prop
  | .processed n (.ok p) => ∀ run ∈ w.runs n, ∀ call ∈ run.stage.call?,
      ∀ id ∈ odoo.messageId call.message,
        if Holds id run.tx.snapshot then p.inserted = false ∧ p.threadId = none
        else p.inserted = true
  | .dated n (.ok rows) => ∀ run ∈ w.runs n, ∀ server ∈ run.stage.dating?,
      .server server.id ∈ rows
  | _ => True

/--
The same of a gateway that may also drop a message that is not in its snapshot, as it does a
bounce or a loop, when `drops` holds: then too it inserts nothing and returns a false value.
-/
def DroppingLaw (odoo : Odoo) (drops : Prop) (w : OdooWorld) : OdooAction → Prop
  | .processed n (.ok p) => ∀ run ∈ w.runs n, ∀ call ∈ run.stage.call?,
      ∀ id ∈ odoo.messageId call.message,
        if Holds id run.tx.snapshot then p.inserted = false ∧ p.threadId = none
        else p.inserted = true ∨ drops ∧ p.inserted = false ∧ p.threadId = none
  | .dated n (.ok rows) => ∀ run ∈ w.runs n, ∀ server ∈ run.stage.dating?,
      .server server.id ∈ rows
  | _ => True

/-- A gateway that inserts what it does not see drops nothing. -/
theorem GatewayLaw.dropsNothing (h : GatewayLaw odoo w a) : DroppingLaw odoo False w a := by
  cases a with
  | processed n result =>
      cases result with
      | error raised => trivial
      | ok p =>
          intro run hrun call hcall id hid
          have hlaw := h run hrun call hcall id hid
          split at hlaw
          · rename_i hseen
            rw [if_pos hseen]
            exact hlaw
          · rename_i hunseen
            rw [if_neg hunseen]
            exact Or.inl hlaw
  | dated n result =>
      cases result with
      | error raised => trivial
      | ok rows => exact h
  | _ => trivial

/-- Every request that carries the message is for the server `s`, and nothing else inserts it. -/
def OneServer (odoo : Odoo) (m : Str) (s : Nat) (w : OdooWorld) : OdooAction → Prop
  | .arrive _ request servers _ => request.messageId odoo = some m →
      ∀ server ∈ cloudflareFindByKey servers request.key, server.id = s
  | .retry n servers _ => ∀ run ∈ w.runs n, run.request.messageId odoo = some m →
      ∀ server ∈ cloudflareFindByKey servers run.request.key, server.id = s
  | .other writes => writes.effect ≠ some m
  | _ => True

def Deduplicates (odoo : Odoo) (m : Str) (s : Nat) (w : OdooWorld) (a : OdooAction) : Prop :=
  GatewayLaw odoo w a ∧ OneServer odoo m s w a

def DeduplicatesOrDrops (odoo : Odoo) (m : Str) (s : Nat) (drops : Prop) (w : OdooWorld)
    (a : OdooAction) : Prop :=
  DroppingLaw odoo drops w a ∧ OneServer odoo m s w a

theorem Deduplicates.dropsNothing (h : Deduplicates odoo m s w a) :
    DeduplicatesOrDrops odoo m s False w a := ⟨h.1.dropsNothing, h.2⟩

/-! ### The steps -/

/-- What one step can do to the request `n`. -/
inductive OdooStep (odoo : Odoo) (w : OdooWorld) : OdooAction → OdooWorld → Prop
  | arrived {n : Nat} {request : InboundRequest} {servers : List Server} {time : ℚ} :
      OdooStep odoo w (.arrive n request servers time)
        (w.setRun n (some (begin odoo w.log request servers time)))
  | processed {n : Nat} {run run' : Run} {result : Except Raised Processed}
      (hrun : w.runs n = some run) (hmove : run.processed odoo result = some run') :
      OdooStep odoo w (.processed n result) (w.setRun n (some run'))
  | dated {n : Nat} {run run' : Run} {result : Except Raised (List Row)}
      (hrun : w.runs n = some run) (hmove : run.dated result = some run') :
      OdooStep odoo w (.dated n result) (w.setRun n (some run'))
  | committed {n : Nat} {run : Run} {response : Response} (hrun : w.runs n = some run)
      (hstage : run.stage = .returned response) (hfree : run.tx.conflicts w.log = false) :
      OdooStep odoo w (.commit n)
        { w.setRun n none with
          log := run.tx.writes :: w.log
          answers := ⟨run.request, response, some run.tx⟩ :: w.answers }
  | commitFailed {n : Nat} {run : Run} (hrun : w.runs n = some run) :
      OdooStep odoo w (.commitFailed n) (w.setRun n (some { run with stage := .raised }))
  | retried {n : Nat} {run : Run} {servers : List Server} {time : ℚ} (hrun : w.runs n = some run) :
      OdooStep odoo w (.retry n servers time)
        (w.setRun n (some (begin odoo w.log run.request servers time)))
  | gaveUp {n : Nat} {run : Run} (hrun : w.runs n = some run) :
      OdooStep odoo w (.giveUp n)
        { w.setRun n none with
          answers := ⟨run.request, respond 500 none none, none⟩ :: w.answers }
  | killed {n : Nat} : OdooStep odoo w (.kill n) (w.setRun n none)
  | other {writes : Writes} : OdooStep odoo w (.other writes) { w with log := writes :: w.log }

theorem odooStep_cases (h : odooStep odoo w a = some w') : OdooStep odoo w a w' := by
  cases a with
  | arrive n request servers time =>
      simp only [odooStep, OdooWorld.arrive] at h
      split at h
      · cases h
      · cases h
        exact .arrived
  | processed n result =>
      simp only [odooStep, Option.bind_eq_bind, Option.bind_eq_some_iff] at h
      obtain ⟨run, hrun, run', hmove, heq⟩ := h
      cases heq
      exact .processed hrun hmove
  | dated n result =>
      simp only [odooStep, Option.bind_eq_bind, Option.bind_eq_some_iff] at h
      obtain ⟨run, hrun, run', hmove, heq⟩ := h
      cases heq
      exact .dated hrun hmove
  | commit n =>
      simp only [odooStep, OdooWorld.commit, Option.bind_eq_bind, Option.bind_eq_some_iff] at h
      obtain ⟨run, hrun, h⟩ := h
      split at h
      · rename_i response hstage
        obtain ⟨log, hlog, heq⟩ := Option.bind_eq_some_iff.mp h
        obtain ⟨hfree, rfl⟩ := Snapshot.Tx.commit_eq_some.mp hlog
        cases heq
        exact .committed hrun hstage hfree
      · cases h
  | commitFailed n =>
      simp only [odooStep, OdooWorld.commitFailed, Option.bind_eq_bind,
        Option.bind_eq_some_iff] at h
      obtain ⟨run, hrun, h⟩ := h
      split at h
      · cases h
        exact .commitFailed hrun
      · cases h
  | retry n servers time =>
      simp only [odooStep, OdooWorld.retry, Option.bind_eq_bind, Option.bind_eq_some_iff] at h
      obtain ⟨run, hrun, h⟩ := h
      split at h
      · cases h
        exact .retried hrun
      · cases h
  | giveUp n =>
      simp only [odooStep, OdooWorld.giveUp, Option.bind_eq_bind, Option.bind_eq_some_iff] at h
      obtain ⟨run, hrun, h⟩ := h
      split at h
      · cases h
        exact .gaveUp hrun
      · cases h
  | kill n =>
      cases h
      exact .killed
  | other writes =>
      cases h
      exact .other

/-! ### The handler -/

/-- The message has been inserted or was seen, or has been dropped. -/
def MessageAccounted (m : Str) (drops : Prop) (tx : Tx) (threadId : Option Nat) : Prop :=
  tx.writes.effect = some m ∨ Holds m tx.snapshot ∨
    drops ∧ threadId = none ∧ tx.writes.effect = none

/-- What is known of a request, about the message and at each point of the handler. -/
def StageSound (odoo : Odoo) (m : Str) (s : Nat) (drops : Prop) (run : Run) : Prop :=
  match run.stage with
  | .processing server call =>
    odoo.messageId call.message = run.request.messageId odoo ∧
      (run.request.messageId odoo = some m → server.id = s)
  | .dating server threadId =>
    (run.tx.writes.effect = some m → server.id = s ∧ ¬ Holds m run.tx.snapshot) ∧
      (run.request.messageId odoo = some m → MessageAccounted m drops run.tx threadId)
  | .returned response =>
    (run.tx.writes.effect = some m →
        .server s ∈ run.tx.writes.updates ∧ ¬ Holds m run.tx.snapshot) ∧
      (response.status = 200 → run.request.messageId odoo = some m →
        ∃ values ∈ response.values, MessageAccounted m drops run.tx values.1)
  | .raised => True

theorem stageSound_begin {log : List Writes} {request : InboundRequest} {servers : List Server}
    {time : ℚ} (hserver : request.messageId odoo = some m →
      ∀ server ∈ cloudflareFindByKey servers request.key, server.id = s) :
    StageSound odoo m s drops (begin odoo log request servers time) := by
  have hrefused : ∀ status error, status ≠ 200 →
      receive odoo request servers time = .returned (respond status error none) →
      StageSound odoo m s drops (begin odoo log request servers time) := by
    intro status error hstatus hreceive
    simp [StageSound, begin, hreceive, respond, hstatus]
  cases hfind : cloudflareFindByKey servers request.key with
  | none =>
      exact hrefused 404 (some "unknown webhook key".toList) (by decide) (by simp [receive, hfind])
  | some server =>
      by_cases hverify : cloudflareVerifySignature odoo.py odoo.hmac server.webhookSecret
          (request.header HEADER_TIMESTAMP) (request.header HEADER_SIGNATURE)
          (.bytes request.body) none time = true
      · cases hprepare : cloudflarePrepareMessage (.bytes request.body)
            (request.header HEADER_ENVELOPE_FROM) (request.header HEADER_ENVELOPE_TO) with
        | error text =>
            exact hrefused 422 (some text) (by decide)
              (by simp [receive, hfind, hverify, hprepare])
        | ok message =>
            have hid : request.messageId odoo = odoo.messageId message := by
              simp [InboundRequest.messageId, hprepare]
            have hreceive : StageSound odoo m s drops ⟨request, ⟨log, ⟨[], none⟩⟩,
                .processing server
                { fetchmailServer := server.id
                  model := server.model
                  message := message
                  saveOriginal := server.original
                  stripAttachments := !server.attach }⟩ :=
              ⟨hid.symm, fun hm => hserver hm server hfind⟩
            simpa [begin, receive, hfind, hverify, hprepare] using hreceive
      · exact hrefused 401 (some "invalid signature".toList) (by decide)
          (by simp [receive, hfind, hverify])

theorem stageSound_handle (run : Run) (raised : Raised) :
    StageSound odoo m s drops (run.handle raised) := by
  cases raised <;> simp [StageSound, Run.handle, Run.rollback, respond]

theorem handle_tx (run : Run) (raised : Raised) :
    (run.handle raised).tx.snapshot = run.tx.snapshot := by
  cases raised <;> rfl

/-- The duplicate check of `message_process` is good for its snapshot. -/
theorem stageSound_processed {run run' : Run} {result : Except Raised Processed}
    (hlaw : ∀ p, result = .ok p → ∀ call ∈ run.stage.call?, ∀ id ∈ odoo.messageId call.message,
      if Holds id run.tx.snapshot then p.inserted = false ∧ p.threadId = none
      else p.inserted = true ∨ drops ∧ p.inserted = false ∧ p.threadId = none)
    (h : StageSound odoo m s drops run) (hmove : run.processed odoo result = some run') :
    StageSound odoo m s drops run' ∧ run'.tx.snapshot = run.tx.snapshot := by
  unfold Run.processed at hmove
  split at hmove
  · rename_i server call hstage
    cases result with
    | error raised =>
        cases hmove
        exact ⟨stageSound_handle run raised, handle_tx run raised⟩
    | ok p =>
        cases hmove
        refine ⟨?_, rfl⟩
        simp only [StageSound, hstage] at h
        obtain ⟨hid, hserver⟩ := h
        have hlaw := hlaw p rfl call (by simp [hstage, Stage.call?]) m
        refine ⟨?_, ?_⟩
        · intro heffect
          obtain ⟨hinserted, hm⟩ : p.inserted = true ∧ odoo.messageId call.message = some m := by
            simpa [ite_eq_iff] using heffect
          refine ⟨hserver (hid ▸ hm), fun hseen => ?_⟩
          have hnot := hlaw hm
          rw [if_pos hseen, hinserted] at hnot
          cases hnot.1
        · intro hm
          have hm' : odoo.messageId call.message = some m := hid.trans hm
          by_cases hseen : Holds m run.tx.snapshot
          · exact Or.inr (Or.inl hseen)
          · have hfate := hlaw hm'
            rw [if_neg hseen] at hfate
            rcases hfate with hinserted | ⟨hdrops, hinserted, hthread⟩
            · exact Or.inl (by simp [hinserted, hm'])
            · exact Or.inr (Or.inr ⟨hdrops, hthread, by simp [hinserted]⟩)
  · cases hmove

theorem stageSound_dated {run run' : Run} {result : Except Raised (List Row)}
    (hlaw : ∀ rows, result = .ok rows → ∀ server ∈ run.stage.dating?, .server server.id ∈ rows)
    (h : StageSound odoo m s drops run) (hmove : run.dated result = some run') :
    StageSound odoo m s drops run' ∧ run'.tx.snapshot = run.tx.snapshot := by
  unfold Run.dated at hmove
  split at hmove
  · rename_i server threadId hstage
    cases result with
    | error raised =>
        cases hmove
        exact ⟨stageSound_handle run raised, handle_tx run raised⟩
    | ok rows =>
        cases hmove
        refine ⟨?_, rfl⟩
        simp only [StageSound, hstage] at h
        obtain ⟨hinserted, hdone⟩ := h
        have hrow := hlaw rows rfl server (by simp [hstage, Stage.dating?])
        refine ⟨fun heffect => ?_, fun _ hm => ⟨_, rfl, ?_⟩⟩
        · obtain ⟨rfl, hunseen⟩ := hinserted heffect
          exact ⟨List.mem_append_left _ hrow, hunseen⟩
        · rcases hdone hm with heffect | hseen | ⟨hdrops, rfl, hnothing⟩
          · exact Or.inl heffect
          · exact Or.inr (Or.inl hseen)
          · exact Or.inr (Or.inr ⟨hdrops, rfl, hnothing⟩)
  · cases hmove

/-! ### Every request together -/

/-- A request answered 200 has committed, and the message is accounted for. -/
def AnswerSound (odoo : Odoo) (m : Str) (drops : Prop) (log : List Writes) (answer : Answer) :
    Prop :=
  answer.request.messageId odoo = some m → answer.response.status = 200 →
    ∃ tx ∈ answer.committed, ∃ newer older, log = newer ++ tx.writes :: older ∧
      tx.snapshot <:+ older ∧
        ∃ values ∈ answer.response.values, MessageAccounted m drops tx values.1

structure Sound (odoo : Odoo) (m : Str) (s : Nat) (drops : Prop) (w : OdooWorld) : Prop where
  /-- A snapshot shows the beginning of what has committed. -/
  snapshot : ∀ n run, w.runs n = some run → run.tx.snapshot <:+ w.log
  stage : ∀ n run, w.runs n = some run → StageSound odoo m s drops run
  /-- What has inserted the message has updated the row of its server. -/
  updates : ∀ c ∈ w.log, c.effect = some m → .server s ∈ c.updates
  once : w.log.countP (fun c => c.effect = some m) ≤ 1
  answers : ∀ answer ∈ w.answers, AnswerSound odoo m drops w.log answer

theorem AnswerSound.cons {log : List Writes} {answer : Answer}
    (h : AnswerSound odoo m drops log answer) (writes : Writes) :
    AnswerSound odoo m drops (writes :: log) answer := by
  intro hm hstatus
  obtain ⟨tx, htx, newer, older, hlog, hrest⟩ := h hm hstatus
  exact ⟨tx, htx, writes :: newer, older, by rw [hlog]; rfl, hrest⟩

/-- One request moves and nothing commits. -/
theorem Sound.setRun (h : Sound odoo m s drops w) {n : Nat} {run' : Option Run}
    (hrun : ∀ run, run' = some run → run.tx.snapshot <:+ w.log ∧ StageSound odoo m s drops run) :
    Sound odoo m s drops (w.setRun n run') where
  snapshot := by
    intro k run hk
    by_cases hn : k = n
    · subst hn
      exact (hrun run (by simpa [OdooWorld.setRun] using hk)).1
    · exact h.snapshot k run (by simpa [OdooWorld.setRun, hn] using hk)
  stage := by
    intro k run hk
    by_cases hn : k = n
    · subst hn
      exact (hrun run (by simpa [OdooWorld.setRun] using hk)).2
    · exact h.stage k run (by simpa [OdooWorld.setRun, hn] using hk)
  updates := h.updates
  once := h.once
  answers := h.answers

/--
A commit keeps the message single: what has inserted it has updated the row of its server,
so a request that inserts it too has seen it or conflicts.
-/
theorem Sound.commit (h : Sound odoo m s drops w) {n : Nat} {run : Run} {response : Response}
    (hrun : w.runs n = some run) (hstage : run.stage = .returned response)
    (hfree : run.tx.conflicts w.log = false) :
    Sound odoo m s drops { w.setRun n none with
      log := run.tx.writes :: w.log
      answers := ⟨run.request, response, some run.tx⟩ :: w.answers } := by
  have hgone : Sound odoo m s drops (w.setRun n none) := h.setRun (by simp)
  have hsnapshot := h.snapshot n run hrun
  have hsound := h.stage n run hrun
  simp only [StageSound, hstage] at hsound
  obtain ⟨hinserted, hdone⟩ := hsound
  have hupdates : ∀ c ∈ run.tx.writes :: w.log, c.effect = some m → .server s ∈ c.updates := by
    intro c hc heffect
    rcases List.mem_cons.mp hc with rfl | hc
    · exact (hinserted heffect).1
    · exact h.updates c hc heffect
  refine ⟨?_, hgone.stage, hupdates, ?_, ?_⟩
  · intro k other hk
    exact (hgone.snapshot k other hk).trans (List.suffix_cons _ _)
  · refine Snapshot.Tx.countP_commit_le_one hsnapshot hfree (r := .server s) ?_ ?_ h.once
    · intro c hc heffect
      exact hupdates c hc (by simpa using heffect)
    · intro heffect c hc
      have hunseen := (hinserted (by simpa using heffect)).2
      simpa using fun hceffect => hunseen ⟨c, hc, hceffect⟩
  · intro answer hanswer
    rcases List.mem_cons.mp hanswer with rfl | hanswer
    · intro hm hstatus
      exact ⟨run.tx, rfl, [], w.log, rfl, hsnapshot, hdone hstatus hm⟩
    · exact (h.answers answer hanswer).cons run.tx.writes

theorem sound_step (hs : OdooStep odoo w a w') (hok : DeduplicatesOrDrops odoo m s drops w a)
    (h : Sound odoo m s drops w) : Sound odoo m s drops w' := by
  obtain ⟨hlaw, hone⟩ := hok
  cases hs with
  | arrived =>
      refine h.setRun fun run hrun => ?_
      cases hrun
      exact ⟨List.suffix_refl _, stageSound_begin hone⟩
  | processed hrun hmove =>
      have hmoved := stageSound_processed (fun p hp => by subst hp; exact hlaw _ hrun)
        (h.stage _ _ hrun) hmove
      refine h.setRun fun run hnew => ?_
      cases hnew
      exact ⟨hmoved.2 ▸ h.snapshot _ _ hrun, hmoved.1⟩
  | dated hrun hmove =>
      have hmoved := stageSound_dated (fun rows hrows => by subst hrows; exact hlaw _ hrun)
        (h.stage _ _ hrun) hmove
      refine h.setRun fun run hnew => ?_
      cases hnew
      exact ⟨hmoved.2 ▸ h.snapshot _ _ hrun, hmoved.1⟩
  | @commitFailed n run hrun =>
      refine h.setRun fun raised hnew => ?_
      cases hnew
      exact ⟨h.snapshot n run hrun, trivial⟩
  | retried hrun =>
      refine h.setRun fun run hnew => ?_
      cases hnew
      exact ⟨List.suffix_refl _, stageSound_begin (hone _ hrun)⟩
  | killed => exact h.setRun (by simp)
  | @gaveUp n run hrun =>
      have hgone : Sound odoo m s drops (w.setRun n none) := h.setRun (by simp)
      refine ⟨hgone.snapshot, hgone.stage, hgone.updates, hgone.once, ?_⟩
      intro answer hanswer
      rcases List.mem_cons.mp hanswer with rfl | hanswer
      · intro _ hstatus
        cases hstatus
      · exact hgone.answers answer hanswer
  | @other writes =>
      refine ⟨?_, h.stage, ?_, ?_, fun answer hanswer => (h.answers answer hanswer).cons writes⟩
      · intro n run hrun
        exact (h.snapshot n run hrun).trans (List.suffix_cons _ _)
      · intro c hc heffect
        rcases List.mem_cons.mp hc with rfl | hc
        · exact absurd heffect hone
        · exact h.updates c hc heffect
      · have hne : writes.effect ≠ some m := hone
        rw [List.countP_cons_of_neg (by simpa using hne)]
        exact h.once
  | committed hrun hstage hfree => exact h.commit hrun hstage hfree

theorem sound_reachable
    (h : Reachable (odooStep odoo) (DeduplicatesOrDrops odoo m s drops) .init w) :
    Sound odoo m s drops w := by
  refine Reachable.invariant ?_ ?_ h
  · refine ⟨?_, ?_, ?_, ?_, ?_⟩ <;> simp [OdooWorld.init]
  · intro w a w' _ hinv hok hs
    exact sound_step (odooStep_cases hs) hok hinv

/--
**Overlapping deliveries of one message insert it once**, and a request is answered 200 only
when its transaction has committed and has inserted the message or seen it.
-/
theorem inserted_at_most_once
    (h : Reachable (odooStep odoo) (Deduplicates odoo m s) .init w) :
    w.log.countP (fun c => c.effect = some m) ≤ 1 ∧
      ∀ answer ∈ w.answers, answer.request.messageId odoo = some m →
        answer.response.status = 200 →
          ∃ tx ∈ answer.committed, ∃ newer older, w.log = newer ++ tx.writes :: older ∧
            tx.snapshot <:+ older ∧ (tx.writes.effect = some m ∨ Holds m tx.snapshot) := by
  have hsound : Sound odoo m s False w :=
    sound_reachable (h.weaken fun _ _ => Deduplicates.dropsNothing)
  refine ⟨hsound.once, fun answer hanswer hm hstatus => ?_⟩
  obtain ⟨tx, htx, newer, older, hlog, hsnapshot, values, -, haccounted⟩ :=
    hsound.answers answer hanswer hm hstatus
  refine ⟨tx, htx, newer, older, hlog, hsnapshot, ?_⟩
  exact haccounted.imp_right fun hrest => hrest.resolve_right fun hdropped => hdropped.1

/-! ### Two requests that overlap -/

instance (odoo : Odoo) (w : OdooWorld) : DecidablePred (GatewayLaw odoo w)
  | .processed n (.ok p) => inferInstanceAs (Decidable (∀ run ∈ w.runs n,
      ∀ call ∈ run.stage.call?, ∀ id ∈ odoo.messageId call.message,
        if Holds id run.tx.snapshot then p.inserted = false ∧ p.threadId = none
        else p.inserted = true))
  | .dated n (.ok rows) => inferInstanceAs (Decidable (∀ run ∈ w.runs n,
      ∀ server ∈ run.stage.dating?, .server server.id ∈ rows))
  | .processed _ (.error _) | .dated _ (.error _) | .arrive .. | .commit _ | .commitFailed _
  | .retry .. | .giveUp _ | .kill _ | .other _ => isTrue trivial

instance (odoo : Odoo) (drops : Prop) [Decidable drops] (w : OdooWorld) :
    DecidablePred (DroppingLaw odoo drops w)
  | .processed n (.ok p) => inferInstanceAs (Decidable (∀ run ∈ w.runs n,
      ∀ call ∈ run.stage.call?, ∀ id ∈ odoo.messageId call.message,
        if Holds id run.tx.snapshot then p.inserted = false ∧ p.threadId = none
        else p.inserted = true ∨ drops ∧ p.inserted = false ∧ p.threadId = none))
  | .dated n (.ok rows) => inferInstanceAs (Decidable (∀ run ∈ w.runs n,
      ∀ server ∈ run.stage.dating?, .server server.id ∈ rows))
  | .processed _ (.error _) | .dated _ (.error _) | .arrive .. | .commit _ | .commitFailed _
  | .retry .. | .giveUp _ | .kill _ | .other _ => isTrue trivial

instance (odoo : Odoo) (m : Str) (s : Nat) (w : OdooWorld) : DecidablePred (OneServer odoo m s w)
  | .arrive _ request servers _ => inferInstanceAs (Decidable (request.messageId odoo = some m →
      ∀ server ∈ cloudflareFindByKey servers request.key, server.id = s))
  | .retry n servers _ => inferInstanceAs (Decidable (∀ run ∈ w.runs n,
      run.request.messageId odoo = some m →
        ∀ server ∈ cloudflareFindByKey servers run.request.key, server.id = s))
  | .other writes => inferInstanceAs (Decidable (writes.effect ≠ some m))
  | .processed .. | .dated .. | .commit _ | .commitFailed _ | .giveUp _ | .kill _ => isTrue trivial

instance (odoo : Odoo) (m : Str) (s : Nat) (w : OdooWorld) :
    DecidablePred (Deduplicates odoo m s w) := fun a =>
  inferInstanceAs (Decidable (GatewayLaw odoo w a ∧ OneServer odoo m s w a))

instance (odoo : Odoo) (m : Str) (s : Nat) (drops : Prop) [Decidable drops] (w : OdooWorld) :
    DecidablePred (DeduplicatesOrDrops odoo m s drops w) := fun a =>
  inferInstanceAs (Decidable (DroppingLaw odoo drops w a ∧ OneServer odoo m s w a))

def sampleOdoo : Odoo where
  py := asciiData
  hmac := sampleHmac
  messageId := fun _ => some "<a@b>".toList

def sampleServer : Server where
  id := 1
  active := true
  serverType := .cloudflare
  state := .done
  webhookKey := some "key".toList
  webhookSecret := some "s3cret".toList
  model := none
  attach := true
  original := false

def sampleRequest : InboundRequest where
  key := "key".toList
  headers := [(HEADER_TIMESTAMP, "1700000000".toList),
    (HEADER_SIGNATURE, SIGNATURE_SCHEME ++ '=' :: hexdigest (List.replicate 32 0xAB))]
  body := utf8 "Message-Id: <a@b>\r\n\r\nhi".toList

/-- Both requests insert the message, one of them commits, and the other runs again. -/
def overlappingRun : List OdooAction :=
  [.arrive 0 sampleRequest [sampleServer] 1700000001,
    .arrive 1 sampleRequest [sampleServer] 1700000002,
    .processed 0 (.ok ⟨some 7, true, []⟩), .processed 1 (.ok ⟨some 8, true, []⟩),
    .dated 0 (.ok [.server 1]), .dated 1 (.ok [.server 1]), .commit 0, .commitFailed 1,
    .retry 1 [sampleServer] 1700000003, .processed 1 (.ok ⟨none, false, []⟩),
    .dated 1 (.ok [.server 1]), .commit 1]

/-- The second of them cannot commit what it inserted. -/
example : (runActions (odooStep sampleOdoo) (Deduplicates sampleOdoo "<a@b>".toList 1) .init
    (overlappingRun.take 7 ++ [.commit 1])).isNone = true := by
  decide +kernel

theorem inserted_at_most_once_overlapping : ∃ w : OdooWorld,
    w.answers.map (·.response.status) = [200, 200] ∧
      w.log.countP (fun c => c.effect = some "<a@b>".toList) ≤ 1 ∧
      ∀ answer ∈ w.answers, answer.request.messageId sampleOdoo = some "<a@b>".toList →
        answer.response.status = 200 →
          ∃ tx ∈ answer.committed, ∃ newer older, w.log = newer ++ tx.writes :: older ∧
            tx.snapshot <:+ older ∧
              (tx.writes.effect = some "<a@b>".toList ∨ Holds "<a@b>".toList tx.snapshot) := by
  have hrun : (runActions (odooStep sampleOdoo) (Deduplicates sampleOdoo "<a@b>".toList 1) .init
      overlappingRun).any (fun w => w.answers.map (·.response.status) = [200, 200]) = true := by
    decide +kernel
  obtain ⟨w, hreach, hgood⟩ := exists_reachable_of_runActions overlappingRun hrun
  exact ⟨w, by simpa using hgood, inserted_at_most_once hreach⟩

end MailCloudflare
