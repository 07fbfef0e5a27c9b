/-
A message from one end to the other.

Each end keeps to what has been proved of it alone, since a run of both is a run of each.
What is proved here is the link: a 2xx that the Worker settles is an answer Odoo gave to a
POST of that very message, so what the Worker lets go of as delivered is in the database,
or the mail gateway has chosen to drop it.  With the Worker never letting go of anything
else, and Odoo never inserting a message twice, a message that was accepted is still held,
or is in the database once, or was dropped.
-/
import MailCloudflare.Proofs.Answers
import MailCloudflare.Proofs.Arrival
import MailCloudflare.Proofs.Provenance

namespace MailCloudflare

open Unicode Python Keyed Transition

variable {env : Worker} {odoo : Odoo} {network : Network} {w w' : World} {a : Action} {id : String}

/-! ### The POST under way -/

theorem lastPosted_append {new history : List Event}
    (h : ∀ id n request, .posted id n request ∉ new) :
    lastPosted (new ++ history) = lastPosted history := by
  induction new with
  | nil => rfl
  | cons e rest ih =>
      have hrest := ih fun id n request hmem => h id n request (List.mem_cons_of_mem e hmem)
      cases e with
      | posted id n request => exact absurd List.mem_cons_self (h id n request)
      | _ => exact hrest

/-- A step POSTs, or leaves the POST under way. -/
inductive PostChange (w w' : World) : Prop
  | kept (hlast : lastPosted w'.history = lastPosted w.history)
      (hstage : ∀ p row due config, w'.pass = some p → p.stage = .posting row due config →
        w.pass = some p)
  | posted {p : Pass} {row : InboxRow} {due : List InboxRow} {config : LoadedConfig}
      {request : Request} (hpass : w'.pass = some { p with stage := .posting row due config })
      (hlog : w'.history = .posted row.id (row.attempts + 1) request :: w.history)

theorem postChange (hs : Step env w a w') : PostChange w w' := by
  cases hs with
  | email hs =>
      refine .kept ?_ fun p row due config hp _ => hs.pass ▸ hp
      cases hs <;> rfl
  | crash _ hw =>
      rw [hw]
      exact .kept rfl fun p row due config hp _ => by cases hp
  | request hs =>
      refine .kept ?_ fun p row due config hp _ => hs.pass ▸ hp
      cases hs with
      | requeuedAll => exact lastPosted_append (by simp)
      | _ => rfl
  | pass hs =>
      cases hs with
      | posted hpass => exact .posted rfl rfl
      | ended | endedFailed => exact .kept rfl fun p row due config hp _ => by cases hp
      | _ =>
          refine .kept rfl fun p row due config hp hstage => ?_
          cases hp
          cases hstage

/-- An answer is awaited because `fetch` has returned a status. -/
theorem answering_cases (hs : Step env w a w') {p' : Pass} {row : InboxRow} {due : List InboxRow}
    {config : LoadedConfig} {status : Nat} (hp : w'.pass = some p')
    (hstage : p'.stage = .answering row due config status) :
    w.pass = some p' ∨ ∃ p now, w.pass = some p ∧ p.stage = .posting row due config ∧
      a = .fetched (.response status) now := by
  cases hs with
  | email hs => exact Or.inl (hs.pass ▸ hp)
  | request hs => exact Or.inl (hs.pass ▸ hp)
  | crash _ hw =>
      rw [hw] at hp
      cases hp
  | pass hs =>
      cases hs with
      | responded hpass hold =>
          cases hp
          cases hstage
          exact Or.inr ⟨_, _, hpass, hold, rfl⟩
      | ended | endedFailed => cases hp
      | _ =>
          cases hp
          cases hstage

/-! ### The two ends -/

variable {d d' : Deployment} {b : DeploymentAction} {which : Nat → Prop}

/-- A step of a deployment is a step of one of its ends. -/
theorem deploymentStep_cases (h : deploymentStep env odoo d b = some d') :
    (∃ a, b = .worker a ∧ step env d.worker a = some d'.worker ∧ d'.odoo = d.odoo) ∨
      ∃ a, b = .odoo a ∧ odooStep odoo d.odoo a = some d'.odoo ∧ d'.worker = d.worker := by
  cases b with
  | worker a =>
      obtain ⟨w, hw, rfl⟩ := Option.map_eq_some_iff.mp h
      exact Or.inl ⟨a, rfl, hw, rfl⟩
  | odoo a =>
      obtain ⟨w, hw, rfl⟩ := Option.map_eq_some_iff.mp h
      exact Or.inr ⟨a, rfl, hw, rfl⟩

/-- An answer stays given. -/
theorem mem_answers {o o' : OdooWorld} {a : OdooAction} (hs : OdooStep odoo o a o')
    {answer : Answer} (h : answer ∈ o.answers) : answer ∈ o'.answers := by
  cases hs with
  | committed | gaveUp => exact List.mem_cons_of_mem _ h
  | _ => exact h

/-- Odoo has answered a POST of the message with this status. -/
def AnsweredFor (network : Network) (d : Deployment) (id : String) (status : Nat) : Prop :=
  ∃ n request, .posted id n request ∈ d.worker.history ∧ ∃ answer ∈ d.odoo.answers,
    answer.request = network.arrival request ∧ answer.response.status = status

/-- What the Worker takes for an answer of Odoo is one, to a POST of the message it is about. -/
structure Linked (network : Network) (which : Nat → Prop) (d : Deployment) : Prop where
  posting : ∀ p row due config, d.worker.pass = some p → p.stage = .posting row due config →
    ∃ n request, lastPosted d.worker.history = some request ∧
      .posted row.id n request ∈ d.worker.history
  answering : ∀ p row due config status, d.worker.pass = some p →
    p.stage = .answering row due config status → which status →
      AnsweredFor network d row.id status
  settled : ∀ id n outcome status applied,
    .settled id n outcome (some status) applied ∈ d.worker.history → which status →
      AnsweredFor network d id status

theorem AnsweredFor.mono {id : String} {status : Nat} (h : AnsweredFor network d id status)
    (hhistory : ∀ e ∈ d.worker.history, e ∈ d'.worker.history)
    (hanswers : ∀ answer ∈ d.odoo.answers, answer ∈ d'.odoo.answers) :
    AnsweredFor network d' id status := by
  obtain ⟨n, request, hposted, answer, hanswer, hrest⟩ := h
  exact ⟨n, request, hhistory _ hposted, answer, hanswers answer hanswer, hrest⟩

theorem linked_worker_step (hs : Step env d.worker a d'.worker) (hodoo : d'.odoo = d.odoo)
    (hok : Relays network which d (.worker a)) (h : Linked network which d) :
    Linked network which d' := by
  have hmono : ∀ {id status}, AnsweredFor network d id status →
      AnsweredFor network d' id status := fun hanswered =>
    hanswered.mono (fun _ he => hs.mem_history he) fun _ hanswer => hodoo ▸ hanswer
  refine ⟨?_, ?_, ?_⟩
  · intro p row due config hp hstage
    cases postChange hs with
    | kept hlast hkept =>
        obtain ⟨n, request, hrequest, hposted⟩ :=
          h.posting p row due config (hkept p row due config hp hstage) hstage
        exact ⟨n, request, hlast.trans hrequest, hs.mem_history hposted⟩
    | posted hpass hlog =>
        rw [hpass, Option.some.injEq] at hp
        subst hp
        cases hstage
        rw [hlog]
        exact ⟨_, _, rfl, List.mem_cons_self⟩
  · intro p row due config status hp hstage hwhich
    rcases answering_cases hs hp hstage with hold | ⟨p, now, hpass, hposting, rfl⟩
    · exact hmono (h.answering p row due config status hold hstage hwhich)
    · obtain ⟨n, request, hlast, hposted⟩ := h.posting p row due config hpass hposting
      obtain ⟨request', hrequest', answer, hanswer, hsame, hstatus⟩ := hok hwhich
      obtain rfl : request = request' := Option.some.inj (hlast.symm.trans hrequest')
      exact hmono ⟨n, request, hposted, answer, hanswer, hsame, hstatus⟩
  · intro id n outcome status applied hsettled hwhich
    rcases hs.loggedNow hsettled with hold | ⟨p, row, due, config, verdict, now, hpass,
      hsettling, rfl, -⟩
    · exact hmono (h.settled id n outcome status applied hold hwhich)
    · generalize hp : p.stage = stage at hsettling
      cases hsettling with
      | answered => exact hmono (h.answering p row due config status hpass hp hwhich)

theorem linked_step (hs : deploymentStep env odoo d b = some d')
    (hok : Relays network which d b) (h : Linked network which d) : Linked network which d' := by
  rcases deploymentStep_cases hs with ⟨a, rfl, hstep, hodoo⟩ | ⟨a, rfl, hstep, hworker⟩
  · exact linked_worker_step (step_cases hstep) hodoo hok h
  · have hmono : ∀ {id status}, AnsweredFor network d id status →
        AnsweredFor network d' id status := fun hanswered =>
      hanswered.mono (fun _ he => hworker ▸ he) fun _ hanswer =>
        mem_answers (odooStep_cases hstep) hanswer
    refine ⟨?_, ?_, ?_⟩
    · intro p row due config hp hstage
      rw [hworker] at hp ⊢
      exact h.posting p row due config hp hstage
    · intro p row due config status hp hstage hwhich
      rw [hworker] at hp
      exact hmono (h.answering p row due config status hp hstage hwhich)
    · intro id n outcome status applied hsettled hwhich
      rw [hworker] at hsettled
      exact hmono (h.settled id n outcome status applied hsettled hwhich)

/--
What is asked of the parties, and the network between them; `drops` says whether the mail
gateway may drop a message it does not see.
-/
structure Delivers (odoo : Odoo) (network : Network) (m : Str) (s : Nat) (drops : Prop)
    (d : Deployment) (b : DeploymentAction) : Prop where
  worker : ∀ a, b = .worker a → HandlerOnly d.worker a
  odoo : ∀ a, b = .odoo a → DeduplicatesOrDrops odoo m s drops d.odoo a
  network : Relays network IsSuccess d b

variable {ok : Deployment → DeploymentAction → Prop}

theorem linked_reachable (hok : ∀ d b, ok d b → Relays network which d b)
    (h : Reachable (deploymentStep env odoo) ok .init d) : Linked network which d := by
  refine Reachable.invariant ?_ ?_ h
  · refine ⟨?_, ?_, ?_⟩ <;> simp [Deployment.init, World.init]
  · intro d b d' _ hinv hokb hs
    exact linked_step hs (hok d b hokb) hinv

/-- A run of both is a run of the Worker. -/
theorem worker_reachable {okWorker : World → Action → Prop}
    (hok : ∀ d a, ok d (.worker a) → okWorker d.worker a)
    (h : Reachable (deploymentStep env odoo) ok .init d) :
    Reachable (step env) okWorker .init d.worker := by
  refine Reachable.project Deployment.worker ?_ h
  intro d b d' hokb hs
  rcases deploymentStep_cases hs with ⟨a, rfl, hstep, -⟩ | ⟨a, rfl, -, hworker⟩
  · exact Or.inr ⟨a, hok d a hokb, hstep⟩
  · exact Or.inl hworker

/-- A run of both is a run of Odoo. -/
theorem odoo_reachable {okOdoo : OdooWorld → OdooAction → Prop}
    (hok : ∀ d a, ok d (.odoo a) → okOdoo d.odoo a)
    (h : Reachable (deploymentStep env odoo) ok .init d) :
    Reachable (odooStep odoo) okOdoo .init d.odoo := by
  refine Reachable.project Deployment.odoo ?_ h
  intro d b d' hokb hs
  rcases deploymentStep_cases hs with ⟨a, rfl, -, hodoo⟩ | ⟨a, rfl, hstep, -⟩
  · exact Or.inl hodoo
  · exact Or.inr ⟨a, hok d a hokb, hstep⟩

/-! ### What is POSTed -/

/-- What is POSTed under an id is the message that was stored under it. -/
theorem posted_message (h : Reachable (step env) HandlerOnly .init w) {stored : Bytes} {n : Nat}
    {request : Request} (hacc : .accepted id stored ∈ w.history)
    (hposted : .posted id n request ∈ w.history) :
    ∃ row config now raw, row.id = id ∧
      prependHeaders raw (envelopeHeaders row.envelopeFrom row.envelopeTo) = .ok stored ∧
        deliveryRequest env config row n stored now = some request := by
  obtain ⟨origin, hsourced⟩ := sourced_reachable h
  obtain ⟨o, ho, rfl⟩ := hsourced.accepted id stored hacc
  obtain ⟨o', ho', row, config, now, hrow, hrequest⟩ := hsourced.posted id n request hposted
  obtain rfl : o = o' := Option.some.inj (ho.symm.trans ho')
  obtain ⟨hid, -, raw, hstored⟩ := (hsourced.written id o ho).1
  rw [← hrow.envelopeFrom, ← hrow.envelopeTo] at hstored
  exact ⟨row, config, now, raw, hrow.id.trans hid, hstored, hrequest⟩

/--
**No delivery is mixed up with another.**  Whatever interleaves, every POST for a message
that was accepted carries its id, its bytes and an envelope that Odoo takes for the one the
bytes begin with, so what Odoo makes of it is exactly what was stored.
-/
theorem posts_carry_accepted (h : Reachable (step env) HandlerOnly .init w) {stored : Bytes}
    {n : Nat} {request : Request} (hacc : .accepted id stored ∈ w.history)
    (hposted : .posted id n request ∈ w.history) :
    request.body = stored ∧
      (JavaScript.js "X-Mail-Cloudflare-Id", JavaScript.js id) ∈ request.headers ∧
      ∀ network : Network, cloudflarePrepareMessage (.bytes (network.arrival request).body)
        ((network.arrival request).header HEADER_ENVELOPE_FROM)
        ((network.arrival request).header HEADER_ENVELOPE_TO) = .ok stored := by
  obtain ⟨row, config, now, raw, hid, hstored, hrequest⟩ := posted_message h hacc hposted
  refine ⟨?_, ?_, fun network => prepared_arrival network hstored hrequest⟩
  · exact (arrived_of_deliveryRequest ⟨fun _ => []⟩ hrequest).body
  · simp only [deliveryRequest, Option.bind_eq_bind, Option.bind_eq_some_iff] at hrequest
    obtain ⟨encodedFrom, -, encodedTo, -, heq⟩ := hrequest
    cases heq
    simp [hid]

/-! ### What arrives -/

section Arrives

variable {m : Str} {s : Nat} {drops : Prop}

/--
Odoo has answered a POST of the message with success and without a record: it did not see
the message, and its mail gateway did not insert it.
-/
def DroppedFor (network : Network) (m : Str) (d : Deployment) (id : String) : Prop :=
  ∃ n request, .posted id n request ∈ d.worker.history ∧ ∃ answer ∈ d.odoo.answers,
    answer.request = network.arrival request ∧ answer.response.status = 200 ∧
      answer.response.values.map (·.1) = some none ∧
      ∃ tx ∈ answer.committed, tx.writes.effect = none ∧ ¬ Holds m tx.snapshot

/-- A message whose delivery has been settled is in the database, or was dropped. -/
theorem delivered_accounted
    (h : Reachable (deploymentStep env odoo) (Delivers odoo network m s drops) .init d)
    {stored : Bytes} (hacc : .accepted id stored ∈ d.worker.history)
    (hm : odoo.messageId stored = some m) (hdelivered : Delivered d.worker.history id) :
    Holds m d.odoo.log ∨ drops ∧ DroppedFor network m d id := by
  have hworker : Reachable (step env) HandlerOnly .init d.worker :=
    worker_reachable (fun d a hok => hok.worker a rfl) h
  have hodoo : Reachable (odooStep odoo) (DeduplicatesOrDrops odoo m s drops) .init d.odoo :=
    odoo_reachable (fun d a hok => hok.odoo a rfl) h
  have hlinked := linked_reachable (fun d b hok => hok.network) h
  obtain ⟨attempt, status, hlo, hhi, hsettled⟩ := hdelivered
  obtain ⟨n, request, hposted, answer, hanswer, hrequest, hstatus⟩ :=
    hlinked.settled id attempt .delivered status true hsettled ⟨hlo, hhi⟩
  obtain ⟨row, config, now, raw, -, hstored, hsent⟩ := posted_message hworker hacc hposted
  have hid : answer.request.messageId odoo = some m := by
    rw [hrequest, messageId_arrival network hstored hsent, hm]
  have hok : answer.response.status = 200 := by
    have hcontract : Contract (fun _ => True) d.odoo :=
      contract_reachable (hodoo.weaken fun _ a _ => by cases a <;> trivial)
    rcases hcontract.answers answer hanswer with ⟨hok, -⟩ | ⟨hrefusal, -⟩
    · exact hok
    · simp only [Response.IsRefusal, List.mem_cons, List.not_mem_nil, or_false] at hrefusal
      omega
  obtain ⟨tx, htx, newer, older, hlog, hsnapshot, values, hvalues, haccounted⟩ :=
    (sound_reachable hodoo).answers answer hanswer hid hok
  by_cases hseen : Holds m tx.snapshot
  · obtain ⟨c, hc, heffect⟩ := hseen
    exact Or.inl ⟨c, by simp [hlog, hsnapshot.subset hc], heffect⟩
  · rcases haccounted with heffect | hheld | ⟨hdrops, hthread, hnothing⟩
    · exact Or.inl ⟨tx.writes, by simp [hlog], heffect⟩
    · exact absurd hheld hseen
    · refine Or.inr ⟨hdrops, n, request, hposted, answer, hanswer, hrequest, hok, ?_, tx, htx,
        hnothing, hseen⟩
      rw [Option.mem_def.mp hvalues, Option.map_some, hthread]

/--
**A message that was accepted is held until it is in the database, and is there once.**  In
every run of the Worker, Odoo and the network between them, with every way to fail that
their models have, the message is inserted at most once; and at any time after it was
accepted its row and its bytes are in the Worker's store, or it is in the database, or an
operator has called `remove` on it, or Odoo has answered for it that its mail gateway has
dropped it, where the gateway does that.
-/
theorem accepted_arrives_once
    (h : Reachable (deploymentStep env odoo) (Delivers odoo network m s drops) .init d) :
    d.odoo.log.countP (fun c => c.effect = some m) ≤ 1 ∧
      ∀ id stored, .accepted id stored ∈ d.worker.history → odoo.messageId stored = some m →
        (∃ row, d.worker.queue.inbox.get? id = some row ∧
            d.worker.bucket row.r2Key = some stored) ∨
          d.odoo.log.countP (fun c => c.effect = some m) = 1 ∨
          .removeCalled id ∈ d.worker.history ∨ drops ∧ DroppedFor network m d id := by
  have hworker : Reachable (step env) HandlerOnly .init d.worker :=
    worker_reachable (fun d a hok => hok.worker a rfl) h
  have hodoo : Reachable (odooStep odoo) (DeduplicatesOrDrops odoo m s drops) .init d.odoo :=
    odoo_reachable (fun d a hok => hok.odoo a rfl) h
  have honce := (sound_reachable hodoo).once
  refine ⟨honce, ?_⟩
  intro id stored hacc hm
  have hsafe : Safe env d.worker :=
    safe_reachable (hworker.weaken fun _ _ => HandlerOnly.distinctIds)
  by_cases hdelivered : Delivered d.worker.history id
  · rcases delivered_accounted h hacc hm hdelivered with ⟨c, hc, heffect⟩ | hdropped
    · have hpos : 0 < d.odoo.log.countP (fun c => c.effect = some m) :=
        List.countP_pos_iff.mpr ⟨c, hc, by simpa using heffect⟩
      exact Or.inr (Or.inl (by omega))
    · exact Or.inr (Or.inr (Or.inr hdropped))
  · by_cases hremoved : .removeCalled id ∈ d.worker.history
    · exact Or.inr (Or.inr (Or.inl hremoved))
    · obtain ⟨hobject, hrow⟩ := (hsafe.accepted id stored hacc).2 ⟨hdelivered, hremoved⟩
      obtain ⟨row, hget⟩ := Option.isSome_iff_exists.mp hrow
      exact Or.inl ⟨row, hget, by rw [hsafe.rowKey id row hget, hobject]⟩

end Arrives

/-! ### A delivery written out -/

instance (network : Network) (which : Nat → Prop) [DecidablePred which] (d : Deployment) :
    DecidablePred (Relays network which d)
  | .worker (.fetched (.response status) _) =>
    inferInstanceAs (Decidable (which status →
      ∃ request ∈ lastPosted d.worker.history, ∃ answer ∈ d.odoo.answers,
        answer.request = network.arrival request ∧ answer.response.status = status))
  | .worker (.fetched (.failed _) _) => isTrue trivial
  | .odoo _ => isTrue trivial
  | .worker (.email ..) | .worker (.putReturn ..) | .worker (.emailEnqueue ..)
  | .worker (.emailReturn ..) | .worker (.enqueue ..) | .worker (.retry ..)
  | .worker (.retryAll ..) | .worker (.remove ..) | .worker (.removeObject ..)
  | .worker (.removeReturn ..) | .worker (.alarm ..) | .worker .deliverNext | .worker .getObject
  | .worker (.getReturn ..) | .worker (.answered ..) | .worker (.purgeExpired ..)
  | .worker (.purgeObject ..) | .worker (.purgeReturn ..) | .worker (.rearm ..)
  | .worker .crash => isTrue trivial

instance (odoo : Odoo) (network : Network) (m : Str) (s : Nat) (drops : Prop) [Decidable drops]
    (d : Deployment) : DecidablePred (Delivers odoo network m s drops d)
  | .worker a => decidable_of_iff (HandlerOnly d.worker a ∧ Relays network IsSuccess d (.worker a))
      ⟨fun h => ⟨fun _ ha => (DeploymentAction.worker.inj ha) ▸ h.1, nofun, h.2⟩,
        fun h => ⟨h.worker a rfl, h.network⟩⟩
  | .odoo a => decidable_of_iff (DeduplicatesOrDrops odoo m s drops d.odoo a)
      ⟨fun h => ⟨nofun, fun _ ha => (DeploymentAction.odoo.inj ha) ▸ h, trivial⟩,
        fun h => h.odoo a rfl⟩

/-- What the Worker POSTs in `deliveredRun`, as Odoo finds it. -/
def samplePost : InboundRequest :=
  ((runActions (step signingWorker) HandlerOnly .init (deliveredRun.take 8)).bind fun w =>
    (lastPosted w.history).map sampleNetwork.arrival).getD sampleRequest

/-- The same run with Odoo at the other end, to which the POST comes twice. -/
def arrivedRun : List DeploymentAction :=
  (deliveredRun.take 8).map .worker ++
    [.odoo (.arrive 0 samplePost [sampleServer] 1), .odoo (.arrive 1 samplePost [sampleServer] 2),
      .odoo (.processed 0 (.ok ⟨some 7, true, []⟩)), .odoo (.processed 1 (.ok ⟨some 8, true, []⟩)),
      .odoo (.dated 0 (.ok [.server 1])), .odoo (.dated 1 (.ok [.server 1])), .odoo (.commit 0)] ++
    (deliveredRun.drop 8).map .worker ++
    [.odoo (.commitFailed 1), .odoo (.retry 1 [sampleServer] 3),
      .odoo (.processed 1 (.ok ⟨none, false, []⟩)), .odoo (.dated 1 (.ok [.server 1])),
      .odoo (.commit 1)]

theorem posts_carry_accepted_delivered : ∃ (w : World) (request : Request),
    .accepted "A" sampleStored ∈ w.history ∧ .posted "A" 1 request ∈ w.history ∧
      request.body = sampleStored ∧
        (JavaScript.js "X-Mail-Cloudflare-Id", JavaScript.js "A") ∈ request.headers ∧
        ∀ network : Network, cloudflarePrepareMessage (.bytes (network.arrival request).body)
          ((network.arrival request).header HEADER_ENVELOPE_FROM)
          ((network.arrival request).header HEADER_ENVELOPE_TO) = .ok sampleStored := by
  have hrun : (runActions (step signingWorker) HandlerOnly .init deliveredRun).any
      (fun w => .accepted "A" sampleStored ∈ w.history ∧
        (lastPosted w.history).any fun request => .posted "A" 1 request ∈ w.history) = true := by
    decide +kernel
  obtain ⟨w, hreach, hgood⟩ := exists_reachable_of_runActions deliveredRun hrun
  simp only [Option.any_eq_true, decide_eq_true_eq] at hgood
  obtain ⟨hacc, request, -, hposted⟩ := hgood
  exact ⟨w, request, hacc, hposted, posts_carry_accepted hreach hacc hposted⟩

/-- The rest of the pass, in which what was delivered is purged. -/
def purgedAfter : List DeploymentAction :=
  [.worker .deliverNext, .worker (.purgeExpired 10), .worker (.purgeObject "inbox/A.eml"),
    .worker (.purgeReturn true), .worker (.rearm 10)]

/-- A delivery of a message that the mail gateway drops. -/
def droppedRun : List DeploymentAction :=
  (deliveredRun.take 8).map .worker ++
    [.odoo (.arrive 0 samplePost [sampleServer] 1), .odoo (.processed 0 (.ok ⟨none, false, []⟩)),
      .odoo (.dated 0 (.ok [.server 1])), .odoo (.commit 0)] ++
    (deliveredRun.drop 8).map .worker

/-- Where nothing is dropped a message that is gone is in the database; elsewhere it may not be. -/
theorem accepted_arrives_once_arrived :
    (∃ d : Deployment, .accepted "A" sampleStored ∈ d.worker.history ∧
      d.worker.queue.inbox.get? "A" = none ∧
      d.odoo.answers.map (·.response.status) = [200, 200] ∧
      d.odoo.log.countP (fun c => c.effect = some "<a@b>".toList) = 1) ∧
    ∃ d : Deployment, .accepted "A" sampleStored ∈ d.worker.history ∧
      d.worker.queue.inbox.get? "A" = none ∧
      d.odoo.log.countP (fun c => c.effect = some "<a@b>".toList) = 0 ∧
      DroppedFor sampleNetwork "<a@b>".toList d "A" := by
  refine ⟨?_, ?_⟩
  · have hrun : (runActions (deploymentStep signingWorker sampleOdoo)
        (Delivers sampleOdoo sampleNetwork "<a@b>".toList 1 False) .init
        (arrivedRun ++ purgedAfter)).any (fun d => .accepted "A" sampleStored ∈ d.worker.history ∧
          d.worker.queue.inbox.get? "A" = none ∧
          d.odoo.answers.map (·.response.status) = [200, 200] ∧
          .removeCalled "A" ∉ d.worker.history) = true := by decide +kernel
    obtain ⟨d, hreach, hgood⟩ := exists_reachable_of_runActions _ hrun
    simp only [decide_eq_true_eq] at hgood
    obtain ⟨hacc, hgone, hanswers, hcalled⟩ := hgood
    refine ⟨d, hacc, hgone, hanswers, ?_⟩
    rcases (accepted_arrives_once hreach).2 "A" sampleStored hacc rfl with
      ⟨row, hrow, -⟩ | hone | hremoved | ⟨hdrops, -⟩
    · rw [hgone] at hrow
      cases hrow
    · exact hone
    · exact absurd hremoved hcalled
    · exact hdrops.elim
  · have hrun : (runActions (deploymentStep signingWorker sampleOdoo)
        (Delivers sampleOdoo sampleNetwork "<a@b>".toList 1 True) .init
        (droppedRun ++ purgedAfter)).any (fun d => .accepted "A" sampleStored ∈ d.worker.history ∧
          d.worker.queue.inbox.get? "A" = none ∧
          d.odoo.log.countP (fun c => c.effect = some "<a@b>".toList) = 0 ∧
          .removeCalled "A" ∉ d.worker.history) = true := by decide +kernel
    obtain ⟨d, hreach, hgood⟩ := exists_reachable_of_runActions _ hrun
    simp only [decide_eq_true_eq] at hgood
    obtain ⟨hacc, hgone, hnone, hcalled⟩ := hgood
    refine ⟨d, hacc, hgone, hnone, ?_⟩
    rcases (accepted_arrives_once hreach).2 "A" sampleStored hacc rfl with
      ⟨row, hrow, -⟩ | hone | hremoved | ⟨-, hdropped⟩
    · rw [hgone] at hrow
      cases hrow
    · rw [hnone] at hone
      cases hone
    · exact absurd hremoved hcalled
    · exact hdropped

end MailCloudflare
