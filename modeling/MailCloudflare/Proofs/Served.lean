/-
What the ops API hands out and what it takes away, while the Worker runs.

A request is one client among others: mail arrives, passes deliver and purge and other
operators call between its calls and while they wait.  Its own run is a run of the Worker
(`served_reachable`), so whatever holds in every state of the Worker holds where its calls
are answered.

`download_exact` is about the two calls of a download, which may see different states: the
row is read in one and the object in another.  `deleted_for_good` is about what a removal
leaves behind in every state after it.
-/
import MailCloudflare.Proofs.Ops
import MailCloudflare.Proofs.Retention
import MailCloudflare.Worker.Served

namespace MailCloudflare

open Unicode JavaScript Keyed Transition

variable {env : Worker} {vars : Env} {request : OpsRequest} {w w' : World} {a : Action}
  {id : String} {ok : World → Action → Prop}

/-! ### A run of the Worker -/

theorem removes_reachable {removed : Bool} (h : Removes env ok id w removed w') :
    Reachable (step env) ok w w' := by
  cases h with
  | missing _ hok hcalled => exact .step .start _ hok hcalled
  | removed _ hok hcalled hwaits hreturns hreturned =>
      have hbegun := Reachable.step .start _ hok hcalled
      have hwaited := hwaits.weaken fun _ _ hwait => hwait.1
      exact .step (hbegun.trans hwaited) _ hreturns hreturned

theorem returns_reachable {β : Type} {c : OpsCall β} {b : β} (h : Returns env ok c w b w') :
    Reachable (step env) ok w w' := by
  cases c with
  | list | get | object =>
      obtain ⟨-, rfl⟩ := h
      exact .start
  | retry id =>
      obtain ⟨now, hok, -, rfl⟩ := h
      exact .step .start (.retry id now) hok rfl
  | retryAll status =>
      obtain ⟨now, hok, -, rfl⟩ := h
      exact .step .start (.retryAll status now) hok rfl
  | remove id => exact removes_reachable h

/-- **A request to the ops API is a run of the Worker**, whatever it asks for. -/
theorem served_reachable {response : Option OpsResponse}
    (h : OpsServed env ok vars request w response w') : Reachable (step env) ok w w' := by
  refine Program.Served.related (fun h₁ h₂ => h₁.trans h₂) (fun hmoves => hmoves) ?_ h
  intro β c s s' b hanswer
  cases b with
  | none => exact hanswer
  | some b => exact returns_reachable hanswer

theorem reachable_mem_history (h : Reachable (step env) ok w w') {e : Event}
    (he : e ∈ w.history) : e ∈ w'.history := by
  induction h with
  | start => exact he
  | step _ _ _ hs ih => exact (step_cases hs).mem_history ih

theorem reachable_delivered (h : Reachable (step env) ok w w') (hdelivered : Delivered w.history id) :
    Delivered w'.history id := by
  obtain ⟨attempt, status, hlo, hhi, hmem⟩ := hdelivered
  exact ⟨attempt, status, hlo, hhi, reachable_mem_history h hmem⟩

/-! ### The routes of an item -/

theorem ulid_chars (h : ULID_PATTERN id = true) :
    id.toList.length = 26 ∧ ∀ c ∈ id.toList, c ≠ '/' := by
  unfold ULID_PATTERN at h
  split at h
  · cases h
  · rename_i first rest hid
    simp only [Bool.and_eq_true, decide_eq_true_eq, List.all_eq_true] at h
    obtain ⟨⟨⟨hlow, -⟩, hlength⟩, hall⟩ := h
    refine ⟨by rw [hid, List.length_cons, hlength], ?_⟩
    intro c hc
    rw [hid] at hc
    rcases List.mem_cons.mp hc with rfl | hc
    · rintro rfl
      exact absurd hlow (by decide)
    · rintro rfl
      exact absurd (hall _ hc) (by decide)

/-- What is behind the id in the path of an item's route. -/
def actionText (action : Option ItemAction) : String := (action.map ItemAction.text).getD ""

theorem matchItem_item (h : ULID_PATTERN id = true) (action : Option ItemAction) :
    matchItem ("/inbox/" ++ id ++ actionText action) = some (id, action) := by
  obtain ⟨hlength, hslash⟩ := ulid_chars h
  have hne : id.toList ≠ [] := by
    rintro hnil
    rw [hnil] at hlength
    cases hlength
  have hplain : ∀ c ∈ id.toList, decide (c ≠ '/') = true := by
    intro c hc
    exact decide_eq_true (hslash c hc)
  -- the id ends where the action begins, with a slash or with nothing
  have hfront : ((id.toList ++ (actionText action).toList).takeWhile fun c => decide (c ≠ '/')) =
      id.toList := by
    rw [List.takeWhile_append_of_pos hplain]
    match action with
    | none => exact List.append_nil _
    | some .raw => exact List.append_nil _
    | some .retry => exact List.append_nil _
  have hbehind : ((id.toList ++ (actionText action).toList).dropWhile fun c => decide (c ≠ '/')) =
      (actionText action).toList := by
    rw [List.dropWhile_append_of_pos hplain]
    match action with
    | none => rfl
    | some .raw => rfl
    | some .retry => rfl
  have hpath : ("/inbox/" ++ id ++ actionText action).toList =
      "/inbox/".toList ++ (id.toList ++ (actionText action).toList) := by
    rw [String.toList_append, String.toList_append, List.append_assoc]
  have hprefix : "/inbox/".toList.isPrefixOf
      ("/inbox/".toList ++ (id.toList ++ (actionText action).toList)) = true :=
    List.isPrefixOf_iff_prefix.mpr (List.prefix_append _ _)
  unfold matchItem
  rw [hpath, if_pos hprefix, List.drop_left]
  dsimp only
  rw [hfront, hbehind, if_neg hne, String.ofList_toList]
  match action with
  | none => rfl
  | some .raw => rfl
  | some .retry => rfl

/-- The path of an item's route is longer than the others. -/
theorem pathname_item (hulid : ULID_PATTERN id = true) (action : Option ItemAction)
    (hpath : request.pathname = "/inbox/" ++ id ++ actionText action) :
    33 ≤ request.pathname.length := by
  have hid : id.length = 26 := by
    rw [← String.length_toList, (ulid_chars hulid).1]
  have hprefix : "/inbox/".length = 7 := by decide
  rw [hpath, String.length_append, String.length_append]
  omega

theorem route_item (hulid : ULID_PATTERN id = true) (action : Option ItemAction)
    (hpath : request.pathname = "/inbox/" ++ id ++ actionText action) :
    route request = routeItem request id action := by
  have hlong := pathname_item hulid action hpath
  have hlist : request.pathname ≠ "/inbox" := by
    intro heq
    rw [heq] at hlong
    exact absurd hlong (by decide)
  have hretry : request.pathname ≠ "/inbox/retry" := by
    intro heq
    rw [heq] at hlong
    exact absurd hlong (by decide)
  unfold route
  rw [if_neg fun h => hlist h.1, if_neg fun h => hretry h.1, hpath, matchItem_item hulid action]
  dsimp only
  rw [hulid]
  rfl

theorem isHealth_of_item (hulid : ULID_PATTERN id = true) (action : Option ItemAction)
    (hpath : request.pathname = "/inbox/" ++ id ++ actionText action) :
    request.isHealth = false := by
  have hne : request.pathname ≠ "/health" := by
    intro heq
    have hlong := pathname_item hulid action hpath
    rw [heq] at hlong
    exact absurd hlong (by decide)
  simp [OpsRequest.isHealth, hne]

/-- A program that makes no call ends with its own response. -/
theorem eq_of_pure {refusal response : OpsResponse}
    (h : OpsRuns env ok (.pure refusal) w (some response) w') : response = refusal := by
  obtain ⟨hsame, -⟩ := Program.served_pure h
  exact Option.some.inj hsame

/-- What is not let through is answered at once. -/
theorem handleOps_cases (hhealth : request.isHealth = false) :
    handleOps vars request = route request ∨
      ∃ response, handleOps vars request = .pure response ∧
        (response.status = 404 ∨ response.status = 401) := by
  unfold handleOps
  rw [hhealth]
  cases hops : opsTokenOf vars with
  | none => exact Or.inr ⟨notFound "not found", rfl, Or.inl rfl⟩
  | some opsToken =>
      cases hbearer : bearerToken request with
      | none => exact Or.inr ⟨unauthorized, rfl, Or.inr rfl⟩
      | some presented =>
          cases hsame : timingSafeEqual presented opsToken with
          | false => exact Or.inr ⟨unauthorized, by simp [hsame], Or.inr rfl⟩
          | true => exact Or.inl (by simp [hsame])

/-- So a request about an item is served by its route, or answered 404 or 401. -/
theorem served_item (hulid : ULID_PATTERN id = true) (action : Option ItemAction)
    (hpath : request.pathname = "/inbox/" ++ id ++ actionText action) {response : OpsResponse}
    (h : OpsServed env ok vars request w (some response) w') :
    OpsRuns env ok (routeItem request id action) w (some response) w' ∨
      handleOps vars request ≠ route request ∧
        (response.status = 404 ∨ response.status = 401) := by
  have hhealth := isHealth_of_item hulid action hpath
  by_cases hlet : handleOps vars request = route request
  · rw [OpsServed, hlet, route_item hulid action hpath] at h
    exact Or.inl h
  · obtain ⟨refusal, hrefused, hstatus⟩ := (handleOps_cases hhealth).resolve_left hlet
    rw [OpsServed, hrefused] at h
    rw [eq_of_pure h]
    exact Or.inr ⟨hlet, hstatus⟩

/-! ### Downloads -/

/-- How a download ends: the row and the object are each read in a state of their own. -/
inductive Downloaded (env : Worker) (ok : World → Action → Prop) (id : String) (w w' : World) :
    Option OpsResponse → Prop
  | threw : Downloaded env ok id w w' none
  | noRow {w₁ : World} (hbefore : Reachable (step env) ok w w₁)
      (hbehind : Reachable (step env) ok w₁ w') (hrow : w₁.queue.inbox.get? id = none) :
      Downloaded env ok id w w' (some (notFound "not found"))
  | noObject {w₁ w₂ : World} {row : InboxRow} (hbefore : Reachable (step env) ok w w₁)
      (hbetween : Reachable (step env) ok w₁ w₂) (hbehind : Reachable (step env) ok w₂ w')
      (hrow : w₁.queue.inbox.get? id = some row) (hobject : w₂.bucket row.r2Key = none) :
      Downloaded env ok id w w' (some (notFound "stored message missing from R2"))
  | found {w₁ w₂ : World} {row : InboxRow} {bytes : Bytes} {response : OpsResponse}
      (hbefore : Reachable (step env) ok w w₁) (hbetween : Reachable (step env) ok w₁ w₂)
      (hrow : w₁.queue.inbox.get? id = some row) (hobject : w₂.bucket row.r2Key = some bytes)
      (hstatus : response.status = 200) (hbody : response.body = .stream bytes)
      (hlength : ("Content-Length", toString bytes.length) ∈ response.headers) :
      Downloaded env ok id w w' (some response)

theorem downloaded {response : Option OpsResponse}
    (h : OpsRuns env ok (getRaw id) w response w') : Downloaded env ok id w w' response := by
  obtain ⟨w₁, hbefore, ⟨row, _, ⟨hrow, rfl⟩, hrest⟩ | ⟨rfl, -⟩⟩ := Program.served_call h
  · cases row with
    | none =>
        obtain ⟨rfl, hbehind⟩ := Program.served_pure hrest
        exact .noRow hbefore hbehind hrow.symm
    | some row =>
        obtain ⟨w₂, hbetween, ⟨object, _, ⟨hobject, rfl⟩, hlast⟩ | ⟨rfl, -⟩⟩ :=
          Program.served_call hrest
        · cases object with
          | none =>
              obtain ⟨rfl, hbehind⟩ := Program.served_pure hlast
              exact .noObject hbefore hbetween hbehind hrow.symm hobject.symm
          | some bytes =>
              obtain ⟨rfl, -⟩ := Program.served_pure hlast
              exact .found hbefore hbetween hrow.symm hobject.symm rfl rfl (by simp)
        · exact .threw
  · exact .threw

/-- Nothing else is ever stored under the id of a message that was accepted. -/
theorem object_accepted (h : Reachable (step env) HandlerOnly .init w) {stored bytes : Bytes}
    (haccepted : .accepted id stored ∈ w.history) (hobject : w.bucket (env.r2Key id) = some bytes) :
    bytes = stored := by
  obtain ⟨origin, hsourced⟩ := sourced_reachable h
  obtain ⟨o, ho, hbytes⟩ := hsourced.object id bytes hobject
  obtain ⟨o', ho', hstored⟩ := hsourced.accepted id stored haccepted
  obtain rfl := Option.some.inj (ho.symm.trans ho')
  exact hbytes.symm.trans hstored

theorem safe_handlerOnly (h : Reachable (step env) HandlerOnly .init w) : Safe env w :=
  safe_reachable (h.weaken fun _ _ => HandlerOnly.distinctIds)

theorem Held.of_reachable (hheld : Held w'.history id) (h : Reachable (step env) ok w w') :
    Held w.history id :=
  ⟨fun hdelivered => hheld.1 (reachable_delivered h hdelivered),
    fun hcalled => hheld.2 (reachable_mem_history h hcalled)⟩

/-- An accepted message that is held later on has its row and its object. -/
theorem accepted_held (h : Reachable (step env) HandlerOnly .init w) {stored : Bytes}
    (haccepted : .accepted id stored ∈ w.history) (hbehind : Reachable (step env) ok w w')
    (hheld : Held w'.history id) :
    w.bucket (env.r2Key id) = some stored ∧ (w.queue.inbox.get? id).isSome :=
  ((safe_handlerOnly h).accepted id stored haccepted).2 (hheld.of_reachable hbehind)

/--
**A download is the accepted message.**  Whatever runs between and beside its calls, what a
download hands out is the bytes that were stored, whole; and until a delivery is settled or
`remove` is called every download with the token hands them out, of rejected and dead
messages too.
-/
theorem download_exact (h : Reachable (step env) HandlerOnly .init w) {stored : Bytes}
    (haccepted : .accepted id stored ∈ w.history) (hulid : ULID_PATTERN id = true)
    (hmethod : request.method = "GET") (hpath : request.pathname = "/inbox/" ++ id ++ "/raw")
    {response : OpsResponse} (hserved : OpsServed env HandlerOnly vars request w (some response) w') :
    (response.status = 200 → response.body = .stream stored ∧
      ("Content-Length", toString stored.length) ∈ response.headers) ∧
    ∀ opsToken, opsTokenOf vars = some opsToken → bearerToken request = some opsToken →
      ¬ Delivered w'.history id → .removeCalled id ∉ w'.history → response.status = 200 := by
  have hhealth : request.isHealth = false := isHealth_of_item hulid (some .raw) hpath
  rcases served_item hulid (some .raw) hpath hserved with hraw | ⟨hlet, hrefused⟩
  · rw [routeItem, if_pos hmethod] at hraw
    cases downloaded hraw with
    | @noRow w₁ hbefore hbehind hrow =>
        refine ⟨fun hstatus => absurd hstatus (by decide), ?_⟩
        intro opsToken _ _ hundelivered hkept
        have haccepted₁ := reachable_mem_history hbefore haccepted
        have hthere := accepted_held (h.trans hbefore) haccepted₁ hbehind ⟨hundelivered, hkept⟩
        rw [hrow] at hthere
        exact absurd hthere.2 (by simp)
    | @noObject w₁ w₂ row hbefore hbetween hbehind hrow hobject =>
        refine ⟨fun hstatus => absurd hstatus (by decide), ?_⟩
        intro opsToken _ _ hundelivered hkept
        have haccepted₂ := reachable_mem_history (hbefore.trans hbetween) haccepted
        have hthere := accepted_held (h.trans (hbefore.trans hbetween)) haccepted₂ hbehind
          ⟨hundelivered, hkept⟩
        rw [(safe_handlerOnly (h.trans hbefore)).rowKey id row hrow, hthere.1] at hobject
        cases hobject
    | @found w₁ w₂ row bytes _ hbefore hbetween hrow hobject hstatus hbody hlength =>
        rw [(safe_handlerOnly (h.trans hbefore)).rowKey id row hrow] at hobject
        have hsame := object_accepted (h.trans (hbefore.trans hbetween))
          (reachable_mem_history (hbefore.trans hbetween) haccepted) hobject
        rw [hsame] at hbody hlength
        exact ⟨fun _ => ⟨hbody, hlength⟩, fun _ _ _ _ _ => hstatus⟩
  · refine ⟨fun hstatus => ?_, ?_⟩
    · rw [hstatus] at hrefused
      exact absurd hrefused (by decide)
    · intro opsToken htoken hbearer
      exact absurd (handleOps_of_eq hhealth htoken hbearer) hlet

/-- A message under an id such as `ulid()` returns. -/
def storedId : String := "01ARZ3NDEKTSV4RRFFQ69G5FAV"

def storedRun : List Action :=
  [.email storedId sampleMessage 0, .putReturn storedId true true,
    .emailEnqueue storedId 5 (some sampleConfig), .emailReturn storedId true]

theorem exists_stored : ∃ (w : World) (stored : Bytes) (row : InboxRow),
    Reachable (step sampleWorker) HandlerOnly .init w ∧ .accepted storedId stored ∈ w.history ∧
      w.queue.inbox.get? storedId = some row ∧ w.removals 0 = none ∧
      ¬ Delivered w.history storedId ∧ .removeCalled storedId ∉ w.history := by
  have hrun : (runActions (step sampleWorker) HandlerOnly .init storedRun).any
      (fun w => (w.queue.inbox.get? storedId).isSome && w.removals 0 = none &&
        w.history.all (fun e => match e with
          | .settled .. | .removeCalled _ => false
          | _ => true) &&
        w.history.any (fun e => match e with
          | .accepted id _ => id = storedId
          | _ => false)) = true := by decide +kernel
  obtain ⟨w, hreach, hgood⟩ := exists_reachable_of_runActions storedRun hrun
  simp only [Bool.and_eq_true, decide_eq_true_eq, List.all_eq_true, List.any_eq_true] at hgood
  obtain ⟨⟨⟨hrow, hfree⟩, hall⟩, e, he, hid⟩ := hgood
  obtain ⟨row, hrow⟩ := Option.isSome_iff_exists.mp hrow
  cases e with
  | accepted id stored =>
      simp only [decide_eq_true_eq] at hid
      subst hid
      refine ⟨w, stored, row, hreach, he, hrow, hfree, ?_, ?_⟩
      · rintro ⟨attempt, status, -, -, hsettled⟩
        exact absurd (hall _ hsettled) (by simp)
      · intro hcalled
        exact absurd (hall _ hcalled) (by simp)
  | _ => cases hid

/-- A request about the message with the token. -/
def storedRequest (method : String) (action : Option ItemAction) : OpsRequest :=
  ⟨method, "/inbox/" ++ storedId ++ actionText action, [], some "Bearer ops-token"⟩

theorem handleOps_storedRequest (method : String) (action : Option ItemAction) :
    handleOps opsEnv (storedRequest method action) =
      routeItem (storedRequest method action) storedId action := by
  have hulid : ULID_PATTERN storedId = true := by decide +kernel
  have hhealth : (storedRequest method action).isHealth = false := isHealth_of_item hulid action rfl
  have htoken : opsTokenOf opsEnv = some (js "ops-token") := by decide +kernel
  have hbearer : bearerToken (storedRequest method action) = some (js "ops-token") := by
    show bearerToken ⟨"GET", "", [], some "Bearer ops-token"⟩ = _
    decide +kernel
  rw [handleOps_of_eq hhealth htoken hbearer, route_item hulid action rfl]

theorem download_exact_stored : ∃ (w : World) (stored : Bytes) (response : OpsResponse),
    .accepted storedId stored ∈ w.history ∧
      OpsServed sampleWorker HandlerOnly opsEnv (storedRequest "GET" (some .raw)) w
        (some response) w ∧
      response.status = 200 ∧ response.body = .stream stored ∧
      ("Content-Length", toString stored.length) ∈ response.headers := by
  obtain ⟨w, stored, row, hreach, haccepted, hrow, -, hundelivered, hkept⟩ := exists_stored
  have hobject : w.bucket row.r2Key = some stored := by
    rw [(safe_handlerOnly hreach).rowKey storedId row hrow]
    have hbehind : Reachable (step sampleWorker) HandlerOnly w w := .start
    exact (accepted_held hreach haccepted hbehind ⟨hundelivered, hkept⟩).1
  obtain ⟨response, hruns⟩ : ∃ response,
      OpsRuns sampleWorker HandlerOnly (getRaw storedId) w (some response) w :=
    ⟨_, .answered .start ⟨hrow.symm, rfl⟩ (.answered .start ⟨hobject.symm, rfl⟩ (.done .start))⟩
  have hget : (storedRequest "GET" (some .raw)).method = "GET" := rfl
  have hroute : handleOps opsEnv (storedRequest "GET" (some .raw)) = getRaw storedId := by
    rw [handleOps_storedRequest, routeItem, if_pos hget]
  have hserved : OpsServed sampleWorker HandlerOnly opsEnv (storedRequest "GET" (some .raw)) w
      (some response) w := by
    rw [OpsServed, hroute]
    exact hruns
  obtain ⟨hexact, hfound⟩ := download_exact hreach haccepted (by decide +kernel) rfl rfl hserved
  have hstatus := hfound (js "ops-token") (by decide +kernel) (by decide +kernel) hundelivered hkept
  exact ⟨w, stored, response, haccepted, hserved, hstatus, hexact hstatus⟩

/-! ### Removals -/

/-- The removal a `remove` has begun is the one it waits for. -/
theorem removal_waits_step {call : Nat} {r : Removal} (hs : step env w a = some w')
    (hwait : WaitsFor ok call w a) (hr : w.removals call = some r) :
    ∃ r', w'.removals call = some r' ∧ r'.id = r.id := by
  obtain ⟨-, hcrash, hreturn⟩ := hwait
  have hkept : w'.removals = w.removals → ∃ r', w'.removals call = some r' ∧ r'.id = r.id := by
    intro hsame
    exact ⟨r, by rw [hsame, hr], rfl⟩
  have hother : ∀ {c : Nat} {value : Option Removal}, call ≠ c →
      w'.removals = Function.update w.removals c value →
      ∃ r', w'.removals call = some r' ∧ r'.id = r.id := by
    intro c value hne hsame
    exact ⟨r, by rw [hsame, Function.update_of_ne hne, hr], rfl⟩
  cases step_cases hs with
  | email hs => exact hkept hs.removals
  | pass hs => exact hkept hs.removals
  | crash ha => exact absurd ha hcrash
  | request hrequest =>
      cases hrequest with
      | duplicate | inserted | requeued | left | requeuedAll | missing => exact hkept rfl
      | @removing c i row =>
          have hne : call ≠ c := by
            rintro rfl
            have hfree : step env w (.remove call i) = none := by
              show World.remove w call i = none
              unfold World.remove
              rw [hr]
              rfl
            rw [hfree] at hs
            cases hs
          exact hother hne rfl
      | @objectRemoved c old hold =>
          by_cases hc : call = c
          · subst hc
            rw [hr] at hold
            cases hold
            exact ⟨{ r with deleted := true }, by simp, rfl⟩
          · exact hother hc rfl
      | @removed c | @removeFailed c =>
          have hne : call ≠ c := by
            rintro rfl
            exact hreturn _ rfl
          exact hother hne rfl

theorem removal_waits {call : Nat} {r : Removal}
    (h : Reachable (step env) (WaitsFor ok call) w w') (hr : w.removals call = some r) :
    ∃ r', w'.removals call = some r' ∧ r'.id = r.id := by
  induction h with
  | start => exact ⟨r, hr, rfl⟩
  | step _ a hwait hs ih =>
      obtain ⟨r', hr', hid⟩ := ih
      obtain ⟨r'', hr'', hid'⟩ := removal_waits_step hs hwait hr'
      exact ⟨r'', hr'', hid'.trans hid⟩

/-- Queued once, and neither the row nor the object is there any more. -/
structure Gone (env : Worker) (w : World) (id : String) : Prop where
  queued : Enqueued w.history id
  row : w.queue.inbox.get? id = none
  object : w.bucket (env.r2Key id) = none

theorem gone_stays_step (h : Reachable (step env) HandlerOnly .init w) (hgone : Gone env w id)
    (hok : HandlerOnly w a) (hs : step env w a = some w') : Gone env w' id where
  queued := hgone.queued.step (step_cases hs)
  row := by
    refine Option.eq_none_iff_forall_not_mem.mpr fun row hrow => ?_
    have hkept : ∀ {old : InboxRow}, w.queue.inbox.get? id ≠ some old := by
      intro old hold
      rw [hgone.row] at hold
      cases hold
    cases (step_cases hs).rowFrom hrow with
    | kept hold => exact hkept hold
    | requeued hold | settled _ _ _ hold => exact hkept hold
    | inserted hcaller hid =>
        -- its `email()` would be queueing it a second time
        obtain ⟨e, he, -, hstage, -⟩ := caller_cases hok (safe_handlerOnly h) hcaller
        rw [hid] at he
        exact (queuedOnce_reachable h).email id e he (by simp [hstage]) hgone.queued
  object :=
    gone_step (step_cases hs) (safe_handlerOnly h) (queuedOnce_reachable h) hgone.queued hgone.object

theorem gone_stays (h : Reachable (step env) HandlerOnly .init w) (hgone : Gone env w id)
    (hlater : Reachable (step env) HandlerOnly w w') : Gone env w' id := by
  induction hlater with
  | start => exact hgone
  | step hbefore _ hok hs ih => exact gone_stays_step (h.trans hbefore) ih hok hs

/-- A removal that returns has taken the row and the object with it. -/
theorem gone_of_removed (h : Reachable (step env) HandlerOnly .init w) {call : Nat} {r : Removal}
    (hr : w.removals call = some r) (hs : step env w (.removeReturn call true) = some w') :
    Gone env w' r.id := by
  have hqueued := ((traced_reachable h).removal call r hr).step (step_cases hs)
  have hreturned : w.removeReturn call true = some w' := hs
  unfold World.removeReturn at hreturned
  rw [hr] at hreturned
  simp only [if_true] at hreturned
  split at hreturned
  · rename_i hdeleted
    cases hreturned
    refine ⟨hqueued, Table.get?_deleteWhere_of_all fun row hrow => ?_,
      (tidy_reachable h).removal call r hr hdeleted⟩
    exact decide_eq_true (Table.key_of_get? hrow)
  · cases hreturned

theorem removes_gone (h : Reachable (step env) HandlerOnly .init w)
    (hremoves : Removes env HandlerOnly id w true w') : Gone env w' id := by
  have hreach := removes_reachable hremoves
  cases hremoves with
  | @removed w₁ w₂ _ call row hrow hok hcalled hwaits hreturns hreturned =>
      have hbegun : w₁.removals call = some ⟨id, row.r2Key, false⟩ := by
        have hmade : w.remove call id = some w₁ := hcalled
        unfold World.remove at hmade
        split at hmade
        · cases hmade
        · rw [hrow] at hmade
          cases hmade
          exact Function.update_self ..
      obtain ⟨r, hr, hid⟩ := removal_waits hwaits hbegun
      have hwaited := hwaits.weaken fun _ _ hwait => hwait.1
      have hgone := gone_of_removed ((h.step _ hok hcalled).trans hwaited) hr hreturned
      rwa [hid] at hgone

section NoRow

variable {response : OpsResponse}
  (hnoRow : ∀ w₁, Reachable (step env) ok w w₁ → w₁.queue.inbox.get? id = none)

include hnoRow

theorem getItem_of_noRow (h : OpsRuns env ok (getItem id) w (some response) w') :
    response.status = 404 := by
  obtain ⟨w₁, hbefore, ⟨row, _, ⟨hrow, rfl⟩, hrest⟩ | ⟨hthrew, -⟩⟩ := Program.served_call h
  · rw [hnoRow _ hbefore] at hrow
    subst hrow
    rw [eq_of_pure hrest]
    rfl
  · cases hthrew

theorem getRaw_of_noRow (h : OpsRuns env ok (getRaw id) w (some response) w') :
    response.status = 404 := by
  cases downloaded h with
  | noRow | noObject => rfl
  | found hbefore _ hrow =>
      rw [hnoRow _ hbefore] at hrow
      cases hrow

theorem deleteItem_of_noRow (h : OpsRuns env ok (deleteItem id) w (some response) w') :
    response.status = 404 := by
  obtain ⟨w₁, hbefore, ⟨removed, _, hremoves, hrest⟩ | ⟨hthrew, -⟩⟩ := Program.served_call h
  · have hanswer : Removes env ok id w₁ removed _ := hremoves
    cases hanswer with
    | missing =>
        rw [eq_of_pure hrest]
        rfl
    | removed hrow =>
        rw [hnoRow w₁ hbefore] at hrow
        cases hrow
  · cases hthrew

theorem retryItem_of_noRow (h : OpsRuns env ok (retryItem id) w (some response) w') :
    response.status = 404 := by
  obtain ⟨w₁, hbefore, ⟨result, _, ⟨now, -, hresult, -⟩, hrest⟩ | ⟨hthrew, -⟩⟩ :=
    Program.served_call h
  · rw [retry_of_none (hnoRow w₁ hbefore)] at hresult
    subst hresult
    rw [eq_of_pure hrest]
    rfl
  · cases hthrew

/-- Without a row, every route of the item is answered with 404. -/
theorem routeItem_of_noRow (action : Option ItemAction)
    (h : OpsRuns env ok (routeItem request id action) w (some response) w') :
    response.status = 404 := by
  have hrefused : OpsRuns env ok (.pure (notFound "not found")) w (some response) w' →
      response.status = 404 := by
    intro hpure
    rw [eq_of_pure hpure]
    rfl
  match action with
  | none =>
      rw [routeItem] at h
      split at h
      · exact getItem_of_noRow hnoRow h
      · split at h
        · exact deleteItem_of_noRow hnoRow h
        · exact hrefused h
  | some .raw =>
      rw [routeItem] at h
      split at h
      · exact getRaw_of_noRow hnoRow h
      · exact hrefused h
  | some .retry =>
      rw [routeItem] at h
      split at h
      · exact retryItem_of_noRow hnoRow h
      · exact hrefused h

end NoRow

/-- A `DELETE` answered 200 is a removal that returned, and the end of the message. -/
theorem gone_of_deleteItem (h : Reachable (step env) HandlerOnly .init w) {response : OpsResponse}
    (hserved : OpsRuns env HandlerOnly (deleteItem id) w (some response) w')
    (hstatus : response.status = 200) : Gone env w' id := by
  obtain ⟨w₁, hbefore, ⟨removed, w₂, hremoves, hrest⟩ | ⟨hthrew, -⟩⟩ := Program.served_call hserved
  · cases removed with
    | true =>
        obtain ⟨-, hbehind⟩ := Program.served_pure hrest
        have hgone := removes_gone (h.trans hbefore) hremoves
        exact gone_stays ((h.trans hbefore).trans (removes_reachable hremoves)) hgone hbehind
    | false =>
        rw [eq_of_pure hrest] at hstatus
        exact absurd hstatus (by decide)
  · cases hthrew

/--
**What was deleted stays deleted.**  Whatever runs between and beside its calls, once a
`DELETE` has been answered 200 no later state has the row or the object, and no later request
about the item is let through to anything but a 404.
-/
theorem deleted_for_good (h : Reachable (step env) HandlerOnly .init w)
    (hulid : ULID_PATTERN id = true) (hmethod : request.method = "DELETE")
    (hpath : request.pathname = "/inbox/" ++ id) {response : OpsResponse}
    (hserved : OpsServed env HandlerOnly vars request w (some response) w')
    (hstatus : response.status = 200) {later : World}
    (hlater : Reachable (step env) HandlerOnly w' later) :
    later.queue.inbox.get? id = none ∧ later.bucket (env.r2Key id) = none ∧
      ∀ (vars' : Env) (request' : OpsRequest) (action : Option ItemAction)
        (response' : OpsResponse) (last : World),
        request'.pathname = "/inbox/" ++ id ++ actionText action →
        OpsServed env HandlerOnly vars' request' later (some response') last →
        response'.status = 404 ∨ response'.status = 401 := by
  have hreach : Reachable (step env) HandlerOnly .init w' := h.trans (served_reachable hserved)
  have hitem : request.pathname = "/inbox/" ++ id ++ actionText none := by
    rw [hpath]
    exact (String.append_empty ..).symm
  have hgone : Gone env w' id := by
    rcases served_item hulid none hitem hserved with hdeleted | ⟨-, hrefused⟩
    · rw [routeItem, if_neg (by rw [hmethod]; decide), if_pos hmethod] at hdeleted
      exact gone_of_deleteItem h hdeleted hstatus
    · rw [hstatus] at hrefused
      exact absurd hrefused (by decide)
  have hstays := gone_stays hreach hgone hlater
  refine ⟨hstays.row, hstays.object, ?_⟩
  intro vars' request' action response' last hpath' hserved'
  rcases served_item hulid action hpath' hserved' with hrouted | ⟨-, hrefused⟩
  · refine Or.inl (routeItem_of_noRow (fun w₁ hbefore => ?_) action hrouted)
    exact (gone_stays (hreach.trans hlater) hstays hbefore).row
  · exact hrefused

theorem deleted_for_good_stored : ∃ (w w' : World) (stored : Bytes),
    .accepted storedId stored ∈ w.history ∧
      OpsServed sampleWorker HandlerOnly opsEnv (storedRequest "DELETE" none) w
        (some (json (.obj [(js "ok", .bool true), (js "id", .str (js storedId))]) 200)) w' ∧
      ∀ later, Reachable (step sampleWorker) HandlerOnly w' later →
        later.queue.inbox.get? storedId = none := by
  obtain ⟨w, stored, row, hreach, haccepted, hrow, hfree, -⟩ := exists_stored
  obtain ⟨w₁, hcalled, w₂, hobject, w₃, hreturned, -⟩ := @store_remove 0
    ⟨fun _ => false, fun _ => false, fun _ => false⟩ sampleWorker w 0 storedId hfree row hrow rfl
  have hwaits : Reachable (step sampleWorker) (WaitsFor HandlerOnly 0) w₁ w₂ := by
    refine .step .start (.removeObject 0) ⟨trivial, ?_, ?_⟩ hobject
    · intro ha
      cases ha
    · intro returned ha
      cases ha
  have hserved : OpsServed sampleWorker HandlerOnly opsEnv (storedRequest "DELETE" none) w
      (some (json (.obj [(js "ok", .bool true), (js "id", .str (js storedId))]) 200)) w₃ := by
    have hget : (storedRequest "DELETE" none).method ≠ "GET" := by decide
    have hdelete : (storedRequest "DELETE" none).method = "DELETE" := rfl
    have hroute : handleOps opsEnv (storedRequest "DELETE" none) = deleteItem storedId := by
      rw [handleOps_storedRequest, routeItem, if_neg hget, if_pos hdelete]
    rw [OpsServed, hroute]
    exact .answered .start (.removed hrow trivial hcalled hwaits trivial hreturned) (.done .start)
  refine ⟨w, w₃, stored, haccepted, hserved, ?_⟩
  intro later hlater
  exact (deleted_for_good hreach (by decide +kernel) rfl (by decide +kernel) hserved rfl hlater).1

end MailCloudflare
