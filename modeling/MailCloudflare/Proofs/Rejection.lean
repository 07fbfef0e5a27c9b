/-
What it takes for a message to be rejected.

A rejection parks a message until an operator puts it back, so it had better mean what it
says.  Odoo rejects a request for four things: a key it does not know, a signature it cannot
verify, an envelope that could smuggle a header, and a `ValueError` of the gateway.  The
first two are a matter of configuration and clocks, and `InOrder` asks for them and for a
gateway that takes the message; the third cannot happen to what the Worker sends.  With that
no message is ever rejected, whatever fails, overlaps or is sent by others.
-/
import MailCloudflare.Proofs.Delivery

namespace MailCloudflare

open Unicode JavaScript Python Transition

variable {env : Worker} {odoo : Odoo} {network : Network} {secret : Str} {w w' : World} {a : Action}
  {id : String}

/-! ### Requests that are signed -/

/-- When a request says it was signed. -/
def InboundRequest.issuedAt (py : UnicodeData) (request : InboundRequest) : Option Int :=
  (request.header HEADER_TIMESTAMP).bind fun timestamp => int py (strip timestamp)

/-- The request bears a signature made with the secret when it says. -/
def InboundRequest.Signed (odoo : Odoo) (secret : Str) (request : InboundRequest) : Prop :=
  ∃ issuedAt ∈ request.issuedAt odoo.py,
    cloudflareVerifySignature odoo.py odoo.hmac (some secret) (request.header HEADER_TIMESTAMP)
      (request.header HEADER_SIGNATURE) (.bytes request.body) none issuedAt = true

instance (odoo : Odoo) (secret : Str) (request : InboundRequest) :
    Decidable (request.Signed odoo secret) :=
  inferInstanceAs (Decidable (∃ issuedAt ∈ request.issuedAt odoo.py,
    cloudflareVerifySignature odoo.py odoo.hmac (some secret) (request.header HEADER_TIMESTAMP)
      (request.header HEADER_SIGNATURE) (.bytes request.body) none issuedAt = true))

/-- A request the Worker builds at `now` for a message it has stored, as Odoo finds it. -/
def Genuine (env : Worker) (network : Network) (secret : Str) (request : InboundRequest)
    (now : Nat) : Prop :=
  ∃ config row n raw stored sent, config.webhookSecret = units secret ∧
    now ≤ MAX_SAFE_INTEGER ∧
    prependHeaders raw (envelopeHeaders row.envelopeFrom row.envelopeTo) = .ok stored ∧
    deliveryRequest env config row n stored now = some sent ∧ request = network.arrival sent

/-! ### What is assumed -/

/-- Whoever signs with the secret comes to a server that has it, while the signature is good. -/
def ServedInTime (odoo : Odoo) (secret : Str) (request : InboundRequest) (servers : List Server)
    (time : ℚ) : Prop :=
  request.Signed odoo secret →
    (∃ server ∈ cloudflareFindByKey servers request.key, server.webhookSecret = some secret) ∧
      ∀ issuedAt ∈ request.issuedAt odoo.py,
        (truncate time - issuedAt).natAbs ≤ SIGNATURE_TOLERANCE

/-- Every signed request is served in time, and the gateway finds a route for it. -/
def WellServed (odoo : Odoo) (secret : Str) (w : OdooWorld) : OdooAction → Prop
  | .arrive _ request servers time => ServedInTime odoo secret request servers time
  | .retry n servers time => ∀ run ∈ w.runs n, ServedInTime odoo secret run.request servers time
  | .processed n (.error (.valueError _)) | .dated n (.error (.valueError _)) =>
    ∀ run ∈ w.runs n, ¬ run.request.Signed odoo secret
  | _ => True

/-- The Worker signs with the secret, by a clock whose milliseconds are exact. -/
def SignsWith (secret : Str) (w : World) (a : Action) : Prop :=
  HandlerOnly w a ∧
    (∀ now c, a = .alarm now (some c) → c.webhookSecret = units secret) ∧
    ∀ ok now, a = .getReturn ok now → now ≤ MAX_SAFE_INTEGER

/-- Both ends are configured for each other, and answers come from Odoo. -/
structure InOrder (odoo : Odoo) (network : Network) (secret : Str) (d : Deployment)
    (b : DeploymentAction) : Prop where
  worker : ∀ a, b = .worker a → SignsWith secret d.worker a
  odoo : ∀ a, b = .odoo a → WellServed odoo secret d.odoo a
  network : Relays network (fun _ => True) d b

/-! ### What the Worker sends -/

/-- The configuration a pass works with is the one its alarm loaded. -/
theorem configChange (hs : Step env w a w') {p' : Pass} {config : LoadedConfig}
    (hp : w'.pass = some p') (hconfig : p'.stage.config? = some config) :
    (∃ p, w.pass = some p ∧ p.stage.config? = some config) ∨
      ∃ now, a = .alarm now (some config) := by
  cases hs with
  | email hs => exact Or.inl ⟨p', hs.pass ▸ hp, hconfig⟩
  | request hs => exact Or.inl ⟨p', hs.pass ▸ hp, hconfig⟩
  | crash _ hw =>
      rw [hw] at hp
      cases hp
  | pass hs =>
      cases hs with
      | idle | configFailed | loopEnd | nothingExpired | purging | objectPurged | purged
      | purgeFailed =>
          cases hp
          cases hconfig
      | ended | endedFailed => cases hp
      | started =>
          cases hp
          cases hconfig
          exact Or.inr ⟨_, rfl⟩
      | loopNext hpass hstage | read hpass hstage | threw hpass hstage | posted hpass hstage
      | responded hpass hstage =>
          cases hp
          cases hconfig
          exact Or.inl ⟨_, hpass, by rw [hstage]; rfl⟩
      | settled hpass hsettling =>
          cases hp
          cases hconfig
          exact Or.inl ⟨_, hpass, hsettling.stage_config⟩

def PassSigns (secret : Str) (w : World) : Prop :=
  ∀ p config, w.pass = some p → p.stage.config? = some config →
    config.webhookSecret = units secret

theorem passSigns_reachable (h : Reachable (step env) (SignsWith secret) .init w) :
    PassSigns secret w := by
  refine Reachable.invariant ?_ ?_ h
  · intro p config hp
    cases hp
  · intro w a w' _ hinv hok hs p' config hp hconfig
    rcases configChange (step_cases hs) hp hconfig with ⟨p, hpass, hold⟩ | ⟨now, ha⟩
    · exact hinv p config hpass hold
    · exact hok.2.1 now config ha

/-- Everything the Worker has POSTed is genuine. -/
def PostsGenuine (env : Worker) (network : Network) (secret : Str) (w : World) : Prop :=
  ∀ id n sent, .posted id n sent ∈ w.history →
    ∃ now, Genuine env network secret (network.arrival sent) now

theorem postsGenuine_reachable (network : Network)
    (h : Reachable (step env) (SignsWith secret) .init w) : PostsGenuine env network secret w := by
  refine Reachable.invariant ?_ ?_ h
  · simp [PostsGenuine, World.init]
  · intro w a w' hreach hinv hok hs id n sent hposted
    rcases (step_cases hs).loggedNow hposted with hold | ⟨p, row, due, config, body, hpass, hstage,
      -, -, ha, hrequest⟩
    · exact hinv id n sent hold
    · obtain ⟨origin, hsourced⟩ := sourced_reachable (hreach.weaken fun _ _ hok => hok.1)
      obtain ⟨o, ho, rfl⟩ := hsourced.got p row due config body hpass hstage
      obtain ⟨o', ho', hrow⟩ := hsourced.todo p hpass row (PassStage.mem_todo_of_got hstage)
      obtain rfl : o = o' := Option.some.inj (ho.symm.trans ho')
      obtain ⟨-, -, raw, hstored⟩ := (hsourced.written row.id o ho).1
      rw [← hrow.envelopeFrom, ← hrow.envelopeTo] at hstored
      have hsecret := passSigns_reachable hreach p config hpass (by rw [hstage]; rfl)
      exact ⟨_, config, row, n, raw, o.stored, sent, hsecret, hok.2.2 true _ ha, hstored, hrequest,
        rfl⟩

/-! ### What Odoo makes of it -/

section Genuine

variable {request : InboundRequest} {now : Nat}

theorem Genuine.issuedAt (h : Genuine env network secret request now) (py : UnicodeData) :
    request.issuedAt py = some (unixSeconds now : Int) := by
  obtain ⟨config, row, n, raw, stored, sent, -, hnow, -, hsent, rfl⟩ := h
  obtain ⟨-, htimestamp, -⟩ := arrived_of_deliveryRequest network hsent
  obtain ⟨hreceived, hstrip⟩ := timestamp_received (unixSeconds now)
  rw [InboundRequest.issuedAt, htimestamp, Option.bind_some, hreceived, hstrip,
    int_toDigits py (length_unixSeconds hnow)]
  rfl

theorem Genuine.verified (h : Genuine env network secret request now) (hhmac : odoo.hmac = env.hmac)
    (hsecret : secret ≠ []) (time : ℚ) :
    cloudflareVerifySignature odoo.py odoo.hmac (some secret) (request.header HEADER_TIMESTAMP)
        (request.header HEADER_SIGNATURE) (.bytes request.body) none time = true ↔
      (truncate time - unixSeconds now).natAbs ≤ SIGNATURE_TOLERANCE := by
  obtain ⟨config, row, n, raw, stored, sent, hconfig, hnow, -, hsent, rfl⟩ := h
  rw [hhmac]
  exact verified_arrival network odoo.py hsecret hconfig hnow hsent time

theorem Genuine.signed (h : Genuine env network secret request now) (hhmac : odoo.hmac = env.hmac)
    (hsecret : secret ≠ []) : request.Signed odoo secret := by
  refine ⟨unixSeconds now, h.issuedAt odoo.py, ?_⟩
  rw [h.verified hhmac hsecret]
  simp [truncate]

/-- A genuine request that is served goes on to the gateway. -/
theorem Genuine.processing (h : Genuine env network secret request now)
    (hhmac : odoo.hmac = env.hmac) (hsecret : secret ≠ []) {servers : List Server} {time : ℚ}
    (hserves : ServedInTime odoo secret request servers time) :
    ∃ server call, receive odoo request servers time = .processing server call := by
  obtain ⟨⟨server, hfind, hserver⟩, hclock⟩ := hserves (h.signed hhmac hsecret)
  have hverified := (h.verified hhmac hsecret time).mpr (hclock _ (h.issuedAt odoo.py))
  obtain ⟨config, row, n, raw, stored, sent, -, -, hstored, hsent, rfl⟩ := h
  have hprepared := prepared_arrival network hstored hsent
  unfold receive
  simp only [Option.mem_def.mp hfind, hserver, hverified, hprepared, if_true]
  exact ⟨_, _, rfl⟩

end Genuine

/-- An answer after which the Worker has nothing more to do, or tries again. -/
def Response.IsKind (response : Response) : Prop := response.status = 200 ∨ response.status = 500

/-- A request that was not refused before the gateway, and is not by it. -/
def Run.IsKind (run : Run) : Prop :=
  match run.stage with
  | .returned response => response.IsKind
  | .processing _ _ | .dating _ _ | .raised => True

theorem isKind_handle (run : Run) {raised : Raised} (h : ∀ text, raised ≠ .valueError text) :
    (run.handle raised).IsKind := by
  cases raised with
  | valueError text => exact absurd rfl (h text)
  | concurrency => trivial
  | other => exact Or.inr rfl

theorem isKind_processed {run run' : Run} {result : Except Raised Processed}
    (hmove : run.processed odoo result = some run')
    (h : ∀ text, result ≠ .error (.valueError text)) : run'.IsKind := by
  unfold Run.processed at hmove
  split at hmove
  · cases result with
    | error raised =>
        cases hmove
        exact isKind_handle run fun text hraised => h text (hraised ▸ rfl)
    | ok p =>
        cases hmove
        trivial
  · cases hmove

theorem isKind_dated {run run' : Run} {result : Except Raised (List Row)}
    (hmove : run.dated result = some run')
    (h : ∀ text, result ≠ .error (.valueError text)) : run'.IsKind := by
  unfold Run.dated at hmove
  split at hmove
  · cases result with
    | error raised =>
        cases hmove
        exact isKind_handle run fun text hraised => h text (hraised ▸ rfl)
    | ok rows =>
        cases hmove
        exact Or.inl rfl
  · cases hmove

/-- Genuine requests come to the gateway and are answered 200 or 500. -/
structure Kind (env : Worker) (network : Network) (secret : Str) (w : OdooWorld) : Prop where
  runs : ∀ n run, w.runs n = some run → ∀ now, Genuine env network secret run.request now →
    run.IsKind
  answers : ∀ answer ∈ w.answers, ∀ now, Genuine env network secret answer.request now →
    answer.response.IsKind

section Kind

variable {o o' : OdooWorld} {b : OdooAction}

/-- One request moves and nothing is answered. -/
theorem Kind.setRun (h : Kind env network secret o) {n : Nat} {run' : Option Run}
    (hrun : ∀ run, run' = some run → ∀ now, Genuine env network secret run.request now →
      run.IsKind) : Kind env network secret (o.setRun n run') where
  runs := by
    intro k run hk
    by_cases hn : k = n
    · subst hn
      exact hrun run (by simpa [OdooWorld.setRun] using hk)
    · exact h.runs k run (by simpa [OdooWorld.setRun, hn] using hk)
  answers := h.answers

theorem isKind_begin (hhmac : odoo.hmac = env.hmac) (hsecret : secret ≠ []) {log : List Writes}
    {request : InboundRequest} {servers : List Server} {time : ℚ} {now : Nat}
    (hserves : ServedInTime odoo secret request servers time)
    (h : Genuine env network secret request now) :
    (begin odoo log request servers time).IsKind := by
  obtain ⟨server, call, hreceive⟩ := h.processing hhmac hsecret hserves
  simp [Run.IsKind, begin, hreceive]

theorem processed_request {run run' : Run} {result : Except Raised Processed}
    (hmove : run.processed odoo result = some run') : run'.request = run.request := by
  unfold Run.processed at hmove
  split at hmove
  · cases result with
    | error raised =>
        cases hmove
        cases raised <;> rfl
    | ok p =>
        cases hmove
        rfl
  · cases hmove

theorem dated_request {run run' : Run} {result : Except Raised (List Row)}
    (hmove : run.dated result = some run') : run'.request = run.request := by
  unfold Run.dated at hmove
  split at hmove
  · cases result with
    | error raised =>
        cases hmove
        cases raised <;> rfl
    | ok rows =>
        cases hmove
        rfl
  · cases hmove

theorem kind_step (hhmac : odoo.hmac = env.hmac) (hsecret : secret ≠ [])
    (hs : OdooStep odoo o b o') (hok : WellServed odoo secret o b)
    (h : Kind env network secret o) : Kind env network secret o' := by
  cases hs with
  | arrived =>
      refine h.setRun fun run hnew now hgenuine => ?_
      cases hnew
      exact isKind_begin hhmac hsecret hok hgenuine
  | retried hrun =>
      refine h.setRun fun run hnew now hgenuine => ?_
      cases hnew
      exact isKind_begin hhmac hsecret (hok _ hrun) hgenuine
  | @processed n run run' result hrun hmove =>
      refine h.setRun fun moved hnew now hgenuine => ?_
      cases hnew
      refine isKind_processed hmove fun text hraised => ?_
      subst hraised
      rw [processed_request hmove] at hgenuine
      exact hok _ hrun (hgenuine.signed hhmac hsecret)
  | @dated n run run' result hrun hmove =>
      refine h.setRun fun moved hnew now hgenuine => ?_
      cases hnew
      refine isKind_dated hmove fun text hraised => ?_
      subst hraised
      rw [dated_request hmove] at hgenuine
      exact hok _ hrun (hgenuine.signed hhmac hsecret)
  | commitFailed hrun =>
      refine h.setRun fun run hnew now hgenuine => ?_
      cases hnew
      trivial
  | killed => exact h.setRun (by simp)
  | other => exact ⟨h.runs, h.answers⟩
  | @committed n run response hrun hstage hfree =>
      have hnone : Kind env network secret (o.setRun n none) := h.setRun (by simp)
      refine ⟨hnone.runs, ?_⟩
      intro answer hanswer now hgenuine
      rcases List.mem_cons.mp hanswer with rfl | hold
      · have hkind := h.runs n run hrun now hgenuine
        simpa only [Run.IsKind, hstage] using hkind
      · exact h.answers answer hold now hgenuine
  | @gaveUp n =>
      have hnone : Kind env network secret (o.setRun n none) := h.setRun (by simp)
      refine ⟨hnone.runs, ?_⟩
      intro answer hanswer now hgenuine
      rcases List.mem_cons.mp hanswer with rfl | hold
      · exact Or.inr rfl
      · exact h.answers answer hold now hgenuine

theorem kind_reachable (hhmac : odoo.hmac = env.hmac) (hsecret : secret ≠ [])
    (h : Reachable (odooStep odoo) (WellServed odoo secret) .init o) :
    Kind env network secret o := by
  refine Reachable.invariant ?_ ?_ h
  · refine ⟨?_, ?_⟩ <;> simp [OdooWorld.init]
  · intro o b o' _ hinv hok hs
    exact kind_step hhmac hsecret (odooStep_cases hs) hok hinv

end Kind

/-! ### Every run of both -/

/-- A message is settled as rejected for an answer that is one. -/
def RejectedByAnswer (w : World) : Prop :=
  ∀ id n status applied, .settled id n .rejected status applied ∈ w.history →
    ∃ s, status = some s ∧ classifyStatus s = .rejected

theorem rejectedByAnswer_reachable {ok : World → Action → Prop}
    (h : Reachable (step env) ok .init w) : RejectedByAnswer w := by
  refine Reachable.invariant ?_ ?_ h
  · simp [RejectedByAnswer, World.init]
  · intro w a w' _ hinv _ hs id n status applied hsettled
    rcases (step_cases hs).loggedNow hsettled with hold | ⟨p, row, due, config, verdict, now, -,
      hsettling, -, houtcome⟩
    · exact hinv id n status applied hold
    · have hverdict : verdict = .rejected := by
        unfold outcomeOf at houtcome
        split at houtcome
        · cases houtcome
        · exact houtcome.symm
      generalize p.stage = stage at hsettling
      cases hsettling with
      | missing | unanswered => cases hverdict
      | @answered _ _ _ s =>
          refine ⟨s, rfl, ?_⟩
          cases hclass : classifyStatus s with
          | rejected => rfl
          | delivered | retry =>
              rw [hclass] at hverdict
              cases hverdict

instance (secret : Str) (w : World) : DecidablePred (SignsWith secret w)
  | .alarm now none => isTrue ⟨trivial, by simp, by simp⟩
  | .alarm now (some c) => decidable_of_iff (c.webhookSecret = units secret)
      ⟨fun h => ⟨trivial, fun _ _ ha => by cases ha; exact h, by simp⟩,
        fun h => h.2.1 now c rfl⟩
  | .getReturn ok now => decidable_of_iff (now ≤ MAX_SAFE_INTEGER)
      ⟨fun h => ⟨trivial, by simp, fun _ _ ha => by cases ha; exact h⟩,
        fun h => h.2.2 ok now rfl⟩
  | .email id m receivedAt => decidable_of_iff (HandlerOnly w (.email id m receivedAt))
      ⟨fun h => ⟨h, by simp, by simp⟩, fun h => h.1⟩
  | .enqueue .. => isFalse fun h => h.1
  | .emailEnqueue .. | .putReturn .. | .emailReturn .. | .retry .. | .retryAll .. | .remove ..
  | .removeObject .. | .removeReturn .. | .deliverNext | .getObject | .fetched .. | .answered ..
  | .purgeExpired .. | .purgeObject .. | .purgeReturn .. | .rearm .. | .crash =>
    isTrue ⟨trivial, by simp, by simp⟩

instance (odoo : Odoo) (secret : Str) (request : InboundRequest) (servers : List Server)
    (time : ℚ) : Decidable (ServedInTime odoo secret request servers time) :=
  inferInstanceAs (Decidable (request.Signed odoo secret →
    (∃ server ∈ cloudflareFindByKey servers request.key, server.webhookSecret = some secret) ∧
      ∀ issuedAt ∈ request.issuedAt odoo.py,
        (truncate time - issuedAt).natAbs ≤ SIGNATURE_TOLERANCE))

instance (odoo : Odoo) (secret : Str) (w : OdooWorld) : DecidablePred (WellServed odoo secret w)
  | .arrive _ request servers time => inferInstanceAs (Decidable (ServedInTime odoo secret request
      servers time))
  | .retry n servers time => inferInstanceAs (Decidable (∀ run ∈ w.runs n,
      ServedInTime odoo secret run.request servers time))
  | .processed n (.error (.valueError _)) | .dated n (.error (.valueError _)) =>
    inferInstanceAs (Decidable (∀ run ∈ w.runs n, ¬ run.request.Signed odoo secret))
  | .processed _ (.ok _) | .processed _ (.error .concurrency) | .processed _ (.error .other)
  | .dated _ (.ok _) | .dated _ (.error .concurrency) | .dated _ (.error .other) | .commit _
  | .commitFailed _ | .giveUp _ | .kill _ | .other _ => isTrue trivial

instance (odoo : Odoo) (network : Network) (secret : Str) (d : Deployment) :
    DecidablePred (InOrder odoo network secret d)
  | .worker a => decidable_of_iff (SignsWith secret d.worker a ∧
        Relays network (fun _ => True) d (.worker a))
      ⟨fun h => ⟨fun _ ha => (DeploymentAction.worker.inj ha) ▸ h.1, nofun, h.2⟩,
        fun h => ⟨h.worker a rfl, h.network⟩⟩
  | .odoo a => decidable_of_iff (WellServed odoo secret d.odoo a)
      ⟨fun h => ⟨nofun, fun _ ha => (DeploymentAction.odoo.inj ha) ▸ h, trivial⟩,
        fun h => h.odoo a rfl⟩

end MailCloudflare
