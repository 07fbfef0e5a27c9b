/-
The ops API is sealed.

A request without the token is answered by a program that makes no call, so there is nothing
its answer could depend on and nothing it could change.  Behind the token, each route makes
the calls of its method: reads only for GET, and one call that writes for the others.
-/
import MailCloudflare.Proofs.Queue
import MailCloudflare.Worker.Ops
import MailCloudflare.Worker.Step

namespace MailCloudflare

open Unicode JavaScript

variable {env : Env} {request : OpsRequest} {now : Nat} {faults : R2Faults} {s s' : Store}

/-! ### The comparison -/

theorem or_xor_eq_zero_iff (diff x y : UInt8) : diff ||| (x ^^^ y) = 0 ↔ diff = 0 ∧ x = y := by
  rw [UInt8.or_eq_zero_iff, UInt8.xor_eq_zero_iff]

/-- The loop over the bytes finds a difference when there is one. -/
theorem foldl_diff_eq_zero_iff {ab bb : Bytes} {start : Nat} (hlength : start + ab.length = bb.length)
    (diff : UInt8) :
    ((ab.zipIdx start).foldl (fun diff entry => diff ||| (entry.1 ^^^ bb[entry.2]?.getD 0)) diff) = 0 ↔
      diff = 0 ∧ ab = bb.drop start := by
  induction ab generalizing start diff with
  | nil =>
      have hend : bb.length ≤ start := by simpa using Nat.le_of_eq hlength.symm
      rw [List.drop_eq_nil_of_le hend]
      simp
  | cons x rest ih =>
      rw [List.length_cons] at hlength
      have hstart : start < bb.length := by omega
      rw [List.zipIdx_cons, List.foldl_cons, ih (by omega), or_xor_eq_zero_iff,
        List.drop_eq_getElem_cons hstart, List.getElem?_eq_getElem hstart, Option.getD_some,
        List.cons.injEq, and_assoc]

theorem timingSafeEqual_iff (a b : Units) :
    timingSafeEqual a b = true ↔ textEncode a = textEncode b := by
  unfold timingSafeEqual
  dsimp only
  split
  · rename_i hne
    refine iff_of_false Bool.false_ne_true ?_
    intro heq
    exact hne (congrArg List.length heq)
  · rename_i hlength
    rw [decide_eq_true_eq, foldl_diff_eq_zero_iff (by omega), List.drop_zero]
    simp

/-! ### The token -/

theorem wellFormed_matchBearer {header token : Units} (hheader : WellFormed header)
    (h : matchBearer header = some token) : WellFormed token := by
  unfold matchBearer at h
  dsimp only at h
  split at h
  · rename_i hmatch
    simp only [Bool.and_eq_true] at hmatch
    obtain ⟨⟨⟨-, hspace⟩, -⟩, -⟩ := hmatch
    cases h
    refine WellFormed.takeWhile_not (fun _ => isSurrogate_of_isSpace) ?_
    cases hbehind : header.drop 6 with
    | nil =>
        rw [hbehind] at hspace
        cases hspace
    | cons u rest =>
        rw [hbehind, List.head?_cons, Option.any_some] at hspace
        rw [List.dropWhile_cons_of_pos hspace]
        -- the header is cut at the first space behind the scheme
        have hsplit : header = header.take 6 ++ u :: rest := by
          rw [← hbehind, List.take_append_drop]
        rw [hsplit] at hheader
        exact (hheader.cut (isSurrogate_of_isSpace hspace)).2.dropWhile
          fun _ => isSurrogate_of_isSpace
  · cases h

theorem wellFormed_bearerToken {token : Units} (h : bearerToken request = some token) :
    WellFormed token := by
  obtain ⟨header, -, hmatch⟩ := Option.bind_eq_some_iff.mp h
  exact wellFormed_matchBearer ⟨_, rfl⟩ hmatch

theorem opsTokenOf_eq_some {value : Units} (h : env .OPS_TOKEN = some value)
    (hvalue : trim value ≠ []) : opsTokenOf env = some (trim value) := by
  unfold opsTokenOf presentVars
  rw [h, Option.bind_some, if_pos hvalue]

theorem opsTokenOf_eq_none (h : ∀ value, env .OPS_TOKEN = some value → trim value = []) :
    opsTokenOf env = none := by
  unfold opsTokenOf presentVars
  cases hvar : env .OPS_TOKEN with
  | none => rfl
  | some value => rw [Option.bind_some, if_neg (not_not.mpr (h value hvar))]

/-! ### What is answered -/

section Answer

variable (hhealth : request.isHealth = false)

include hhealth

theorem handleOps_of_none (h : opsTokenOf env = none) :
    handleOps env request = .pure (notFound "not found") := by
  unfold handleOps
  rw [hhealth, h]
  rfl

theorem handleOps_of_ne {opsToken : Units} (htoken : WellFormed opsToken)
    (h : opsTokenOf env = some opsToken) (hne : bearerToken request ≠ some opsToken) :
    handleOps env request = .pure unauthorized := by
  unfold handleOps
  rw [hhealth, h]
  cases hbearer : bearerToken request with
  | none => rfl
  | some presented =>
      have hdiffers : timingSafeEqual presented opsToken = false := by
        rw [Bool.eq_false_iff]
        intro hsame
        rw [timingSafeEqual_iff, (wellFormed_bearerToken hbearer).textEncode_inj htoken] at hsame
        exact hne (hbearer.trans (congrArg some hsame))
      show (if !timingSafeEqual presented opsToken then _ else _) = _
      rw [hdiffers]
      rfl

theorem handleOps_of_eq {opsToken : Units} (h : opsTokenOf env = some opsToken)
    (heq : bearerToken request = some opsToken) : handleOps env request = route request := by
  unfold handleOps
  rw [hhealth, h, heq]
  have hsame : timingSafeEqual opsToken opsToken = true := (timingSafeEqual_iff _ _).mpr rfl
  show (if !timingSafeEqual opsToken opsToken then _ else _) = _
  rw [hsame]
  rfl

end Answer

/-! ### What is called -/

/-- A call that reads. -/
def OpsCall.reads : {β : Type} → OpsCall β → Prop
  | _, .list _ _ | _, .get _ | _, .object _ => True
  | _, .retry _ | _, .retryAll _ | _, .remove _ => False

theorem answerCall_of_reads {β : Type} (c : OpsCall β) (s : Store) (h : c.reads) :
    (answerCall now faults c s).2 = s := by
  cases c with
  | list status limit => rfl
  | get id => rfl
  | object key => rfl
  | retry id => exact h.elim
  | retryAll status => exact h.elim
  | remove id => exact h.elim

/-- A program that only reads leaves everything as it is. -/
theorem run_of_reads {program : Program OpsCall OpsResponse} (h : program.Uses OpsCall.reads) :
    (program.run (storeService now faults) s).2 = s :=
  (Program.run_related (R := Eq) (fun _ => rfl) (fun h₁ h₂ => h₁.trans h₂)
    (fun c s hreads => (answerCall_of_reads c s hreads).symm) h s).symm

theorem listInbox_reads : (listInbox request).Uses OpsCall.reads := by
  unfold listInbox
  split
  · exact ⟨trivial, fun _ => trivial⟩
  · split
    · trivial
    · exact ⟨trivial, fun _ => trivial⟩

theorem getItem_reads (id : String) : (getItem id).Uses OpsCall.reads := by
  refine ⟨trivial, ?_⟩
  intro row
  cases row with
  | none => trivial
  | some item => trivial

theorem getRaw_reads (id : String) : (getRaw id).Uses OpsCall.reads := by
  refine ⟨trivial, ?_⟩
  intro row
  cases row with
  | none => trivial
  | some item =>
      refine ⟨trivial, ?_⟩
      intro object
      cases object with
      | none => trivial
      | some bytes => trivial

theorem routeItem_reads (hget : request.method = "GET") (id : String) (action : Option ItemAction) :
    (routeItem request id action).Uses OpsCall.reads := by
  match action with
  | none =>
      rw [routeItem, if_pos hget]
      exact getItem_reads id
  | some .raw =>
      rw [routeItem, if_pos hget]
      exact getRaw_reads id
  | some .retry =>
      rw [routeItem, if_neg (by rw [hget]; decide)]
      trivial

/-- GET routes only read. -/
theorem route_reads (hget : request.method = "GET") : (route request).Uses OpsCall.reads := by
  unfold route
  split
  · exact listInbox_reads
  · split
    · rename_i hpost
      exact absurd (hget.symm.trans hpost.2) (by decide)
    · split
      · trivial
      · split
        · trivial
        · exact routeItem_reads hget _ _

/-! ### The path of an item -/

def ItemAction.text : ItemAction → String
  | .raw => "/raw"
  | .retry => "/retry"

/-- The path of an item's route is made of its id and its action. -/
theorem matchItem_eq_some {pathname id : String} {action : Option ItemAction}
    (h : matchItem pathname = some (id, action)) :
    pathname = "/inbox/" ++ id ++ (action.map ItemAction.text).getD "" := by
  unfold matchItem at h
  dsimp only at h
  split at h
  · rename_i hprefix
    obtain ⟨behind, hbehind⟩ := List.isPrefixOf_iff_prefix.mp hprefix
    rw [← hbehind, List.drop_left] at h
    have hsplit := List.takeWhile_append_dropWhile (p := fun c : Char => decide (c ≠ '/')) (l := behind)
    have hwhole : ∀ rest : List Char, behind.dropWhile (fun c => decide (c ≠ '/')) = rest →
        pathname = "/inbox/" ++ String.ofList (behind.takeWhile fun c => decide (c ≠ '/')) ++
          String.ofList rest := by
      rintro rest rfl
      rw [← String.toList_inj, ← hbehind, String.toList_append, String.toList_append,
        List.append_assoc]
      simp only [String.toList_ofList, hsplit]
    split at h
    · cases h
    · split at h
      · rename_i hrest
        cases h
        exact hwhole [] hrest
      · split at h
        · rename_i hrest
          cases h
          exact hwhole _ hrest
        · split at h
          · rename_i hrest
            cases h
            exact hwhole _ hrest
          · cases h
  · cases h

/-! ### The calls as moves of the Worker -/

/-- What the calls see of the running Worker. -/
def World.store (w : World) : Store := ⟨w.queue, w.bucket⟩

theorem store_retry (w : World) (id : String) (now : Nat) (faults : R2Faults) :
    (w.retry id now).store = (answerCall now faults (.retry id) w.store).2 := by
  show (World.retry w id now).store = ⟨(retry w.queue id now).1, w.bucket⟩
  unfold World.retry
  split
  · rename_i queue hretry
    rw [hretry]
    rfl
  · rename_i queue result hretry
    rw [hretry]
    rfl

theorem store_retryAll (w : World) (status : RetryableStatus) (now : Nat) (faults : R2Faults) :
    (w.retryAll status now).store = (answerCall now faults (.retryAll status) w.store).2 := rfl

theorem answerCall_remove {id : String} {row : InboxRow} (s : Store)
    (hrow : s.queue.inbox.get? id = some row) (hreturns : faults.delete row.r2Key = false) :
    answerCall now faults (.remove id) s =
      (some true, ⟨removeRow s.queue id, (s.deleteObject row.r2Key).bucket⟩) := by
  show s.remove faults id = _
  unfold Store.remove
  rw [hrow]
  dsimp only
  rw [hreturns]
  rfl

/-- A removal that nothing interrupts: the call, the object, and the row on return. -/
theorem store_remove (worker : Worker) (w : World) (call : Nat) (id : String)
    (hfree : w.removals call = none) {row : InboxRow} (hrow : w.queue.inbox.get? id = some row)
    (hreturns : faults.delete row.r2Key = false) :
    ∃ w₁, step worker w (.remove call id) = some w₁ ∧
      ∃ w₂, step worker w₁ (.removeObject call) = some w₂ ∧
      ∃ w₃, step worker w₂ (.removeReturn call true) = some w₃ ∧
      w₃.store = (answerCall now faults (.remove id) w.store).2 := by
  have hkey : w.store.queue.inbox.get? id = some row := hrow
  have hbucket : (w.store.deleteObject row.r2Key).bucket = Function.update w.bucket row.r2Key none := by
    funext key
    by_cases hsame : key = row.r2Key
    · simp [Store.deleteObject, World.store, hsame]
    · simp [Store.deleteObject, World.store, hsame]
  rw [answerCall_remove w.store hkey hreturns, hbucket]
  have hcalled : step worker w (.remove call id) =
      some ((w.log (.removeCalled id)).setRemoval call (some ⟨id, row.r2Key, false⟩)) := by
    show World.remove w call id = _
    unfold World.remove
    rw [hfree, hrow]
    rfl
  refine ⟨_, hcalled, ?_⟩
  simp only [step, World.removeObject, World.removeReturn, World.setRemoval, World.setObject,
    World.log, Function.update_self, Option.map_some, if_true, Option.some.injEq, exists_eq_left']
  rfl

/-! ### What is changed -/

/-- At most the row of this id and its object, and the alarm. -/
structure ChangesItem (id : String) (s s' : Store) : Prop where
  rows : ∀ other ≠ id, s'.queue.inbox.get? other = s.queue.inbox.get? other
  objects : ∀ key, (∀ row, s.queue.inbox.get? id = some row → row.r2Key ≠ key) →
    s'.bucket key = s.bucket key

/-- At most the rows in this status, and the alarm. -/
structure ChangesParked (status : RetryableStatus) (s s' : Store) : Prop where
  rows : ∀ id, (∀ row, s.queue.inbox.get? id = some row → row.status ≠ status.toStatus) →
    s'.queue.inbox.get? id = s.queue.inbox.get? id
  objects : s'.bucket = s.bucket

theorem ChangesItem.refl (id : String) (s : Store) : ChangesItem id s s :=
  ⟨fun _ _ => rfl, fun _ _ => rfl⟩

theorem changesItem_deleteObject {id : String} {row : InboxRow}
    (h : s.queue.inbox.get? id = some row) : ChangesItem id s (s.deleteObject row.r2Key) := by
  refine ⟨fun _ _ => rfl, ?_⟩
  intro key hkey
  exact if_neg (Ne.symm (hkey row h))

theorem changesItem_remove (s : Store) (faults : R2Faults) (id : String) :
    ChangesItem id s (s.remove faults id).2 := by
  unfold Store.remove
  split
  · exact .refl id s
  · rename_i row hrow
    split
    · show ChangesItem id s (if _ then _ else _)
      split
      · exact changesItem_deleteObject hrow
      · exact .refl id s
    · refine ⟨?_, (changesItem_deleteObject hrow).objects⟩
      intro other hother
      refine Keyed.Table.get?_deleteWhere_of_not ?_
      intro r hr
      exact decide_eq_false fun heq => Keyed.Table.key_ne_of_get? hr hother.symm heq

theorem changesItem_retry (s : Store) (now : Nat) (id : String) :
    ChangesItem id s { s with queue := (retry s.queue id now).1 } := by
  refine ⟨?_, fun _ _ => rfl⟩
  intro other hother
  cases hrow : s.queue.inbox.get? id with
  | none => rw [retry_of_none hrow]
  | some row =>
      by_cases hpending : row.status = .pending
      · rw [retry_of_pending hrow hpending]
      · rw [retry_of_parked hrow hpending, armNoLaterThan_inbox]
        refine Keyed.Table.get?_updateWhere_of_not (InboxRow.requeue_id now) ?_
        intro r hr
        rw [decide_eq_false fun heq => Keyed.Table.key_ne_of_get? hr hother.symm heq]
        rfl

theorem changesParked_retryAll (s : Store) (now : Nat) (status : RetryableStatus) :
    ChangesParked status s { s with queue := (retryAll s.queue status now).1 } := by
  refine ⟨?_, rfl⟩
  intro id hid
  show (retryAll s.queue status now).1.inbox.get? id = _
  rw [retryAll_inbox]
  refine Keyed.Table.get?_updateWhere_of_not _ ?_
  intro row hrow
  exact decide_eq_false (hid row hrow)

/-! ### What the routes that write call -/

/-- `DELETE` of an item's path removes the item, or makes no call. -/
theorem route_delete {id : String} (hmethod : request.method = "DELETE")
    (hpath : request.pathname = "/inbox/" ++ id) :
    (∃ response, route request = .pure response) ∨ route request = deleteItem id := by
  have hget : request.method ≠ "GET" := by
    rw [hmethod]
    decide
  have hpost : request.method ≠ "POST" := by
    rw [hmethod]
    decide
  unfold route
  rw [if_neg fun h => hget h.2, if_neg fun h => hpost h.2]
  split
  · exact Or.inl ⟨_, rfl⟩
  · rename_i found action hmatch
    split
    · exact Or.inl ⟨_, rfl⟩
    · match action with
      | none =>
          have hsame := matchItem_eq_some hmatch
          rw [hpath] at hsame
          have hid : id = found := by simpa [← String.toList_inj] using hsame
          rw [routeItem, if_neg hget, if_pos hmethod, hid]
          exact Or.inr rfl
      | some .raw =>
          rw [routeItem, if_neg hget]
          exact Or.inl ⟨_, rfl⟩
      | some .retry =>
          rw [routeItem, if_neg hpost]
          exact Or.inl ⟨_, rfl⟩

/-- `POST` of an item's retry path requeues the item, or makes no call. -/
theorem route_retry {id : String} (hmethod : request.method = "POST")
    (hpath : request.pathname = "/inbox/" ++ id ++ "/retry") :
    (∃ response, route request = .pure response) ∨ route request = retryItem id := by
  have hlong : request.pathname ≠ "/inbox/retry" := by
    intro heq
    have hlength := congrArg String.length (hpath.symm.trans heq)
    have hprefix : "/inbox/".length = 7 := by decide
    have hsuffix : "/retry".length = 6 := by decide
    have hall : "/inbox/retry".length = 12 := by decide
    rw [String.length_append, String.length_append, hprefix, hsuffix, hall] at hlength
    omega
  have hget : request.method ≠ "GET" := by
    rw [hmethod]
    decide
  have hdelete : request.method ≠ "DELETE" := by
    rw [hmethod]
    decide
  unfold route
  rw [if_neg fun h => hget h.2, if_neg fun h => hlong h.1]
  split
  · exact Or.inl ⟨_, rfl⟩
  · rename_i found action hmatch
    split
    · exact Or.inl ⟨_, rfl⟩
    · match action with
      | none =>
          rw [routeItem, if_neg hget, if_neg hdelete]
          exact Or.inl ⟨_, rfl⟩
      | some .raw =>
          rw [routeItem, if_neg hget]
          exact Or.inl ⟨_, rfl⟩
      | some .retry =>
          have hsame := matchItem_eq_some hmatch
          rw [hpath] at hsame
          have hid : id = found := by simpa [← String.toList_inj, ItemAction.text] using hsame
          rw [routeItem, if_pos hmethod, hid]
          exact Or.inr rfl

theorem run_deleteItem (id : String) (s : Store) :
    ChangesItem id s ((deleteItem id).run (storeService now faults) s).2 := by
  have hrun : ((deleteItem id).run (storeService now faults) s).2 = (s.remove faults id).2 := by
    refine Program.run_call_of_pure ?_ _ s
    intro removed
    cases removed with
    | true => exact ⟨_, rfl⟩
    | false => exact ⟨_, rfl⟩
  rw [hrun]
  exact changesItem_remove s faults id

theorem run_retryItem (id : String) (s : Store) :
    ChangesItem id s ((retryItem id).run (storeService now faults) s).2 := by
  have hrun : ((retryItem id).run (storeService now faults) s).2 =
      { s with queue := (retry s.queue id now).1 } := by
    refine Program.run_call_of_pure ?_ _ s
    intro result
    cases result with
    | requeued => exact ⟨_, rfl⟩
    | not_found => exact ⟨_, rfl⟩
    | already_pending => exact ⟨_, rfl⟩
  rw [hrun]
  exact changesItem_retry s now id

/-- The status a bulk retry is asked for. -/
def OpsRequest.parkedStatus (request : OpsRequest) : Option RetryableStatus :=
  (request.param "status").bind retryableStatusOf

theorem run_retryInbox_of_some {status : RetryableStatus} (h : request.parkedStatus = some status)
    (s : Store) :
    ChangesParked status s ((retryInbox request).run (storeService now faults) s).2 := by
  unfold OpsRequest.parkedStatus at h
  unfold retryInbox
  rw [h]
  exact changesParked_retryAll s now status

theorem run_retryInbox_of_none (h : request.parkedStatus = none) (s : Store) :
    ((retryInbox request).run (storeService now faults) s).2 = s := by
  unfold OpsRequest.parkedStatus at h
  unfold retryInbox
  rw [h]
  rfl

/-! ### The API -/

/-- Answered with this status, without a call: the same whatever is stored, and nothing changes. -/
def Sealed (program : Program OpsCall OpsResponse) (status : Nat) : Prop :=
  program.Uses (fun _ => False) ∧ ∃ response : OpsResponse, response.status = status ∧
    ∀ now faults s, program.run (storeService now faults) s = (some response, s)

theorem sealed_pure (response : OpsResponse) : Sealed (.pure response) response.status :=
  ⟨trivial, response, rfl, fun _ _ _ => rfl⟩

/-- What a request with the right token may change. -/
structure Confined (request : OpsRequest) (s s' : Store) : Prop where
  get : request.method = "GET" → s' = s
  delete : ∀ id, request.method = "DELETE" → request.pathname = "/inbox/" ++ id →
    ChangesItem id s s'
  retry : ∀ id, request.method = "POST" → request.pathname = "/inbox/" ++ id ++ "/retry" →
    ChangesItem id s s'
  retryAll : request.method = "POST" → request.pathname = "/inbox/retry" →
    match request.parkedStatus with
    | some status => ChangesParked status s s'
    | none => s' = s

theorem confined_route (request : OpsRequest) (now : Nat) (faults : R2Faults) (s : Store) :
    Confined request s ((route request).run (storeService now faults) s).2 where
  get := fun hget => run_of_reads (route_reads hget)
  delete := by
    intro id hmethod hpath
    rcases route_delete hmethod hpath with ⟨response, hroute⟩ | hroute
    · rw [hroute]
      exact .refl id s
    · rw [hroute]
      exact run_deleteItem id s
  retry := by
    intro id hmethod hpath
    rcases route_retry hmethod hpath with ⟨response, hroute⟩ | hroute
    · rw [hroute]
      exact .refl id s
    · rw [hroute]
      exact run_retryItem id s
  retryAll := by
    intro hmethod hpath
    have hroute : route request = retryInbox request := by
      unfold route
      rw [if_neg fun h => absurd (hpath.symm.trans h.1) (by decide), if_pos ⟨hpath, hmethod⟩]
    rw [hroute]
    split
    · rename_i status hstatus
      exact run_retryInbox_of_some hstatus s
    · rename_i hstatus
      exact run_retryInbox_of_none hstatus s

/--
**The ops API is sealed.**  Without OPS_TOKEN every request is answered 404 and with another
token 401, by a program that makes no call; with the token a request changes only what its
route names.
-/
theorem handleOps_sealed (hhealth : request.isHealth = false)
    (henv : ∀ name value, env name = some value → WellFormed value) :
    ((∀ value, env .OPS_TOKEN = some value → trim value = []) →
      Sealed (handleOps env request) 404) ∧
    ∀ value, env .OPS_TOKEN = some value → trim value ≠ [] →
      (bearerToken request ≠ some (trim value) → Sealed (handleOps env request) 401) ∧
      (bearerToken request = some (trim value) → ∀ now faults s,
        Confined request s ((handleOps env request).run (storeService now faults) s).2) := by
  refine ⟨?_, ?_⟩
  · intro hblank
    rw [handleOps_of_none hhealth (opsTokenOf_eq_none hblank)]
    exact sealed_pure _
  · intro value hvalue hsays
    have htoken := opsTokenOf_eq_some hvalue hsays
    refine ⟨?_, ?_⟩
    · intro hne
      rw [handleOps_of_ne hhealth (wellFormed_trim (henv _ _ hvalue)) htoken hne]
      exact sealed_pure _
    · intro heq now faults s
      rw [handleOps_of_eq hhealth htoken heq]
      exact confined_route request now faults s

/-- An environment with nothing but an ops token. -/
def opsEnv : Env
  | .OPS_TOKEN => some (js " ops-token ")
  | _ => none

theorem wellFormed_opsEnv (name : VarName) (value : Units) (h : opsEnv name = some value) :
    WellFormed value := by
  cases name with
  | OPS_TOKEN =>
      cases h
      exact ⟨" ops-token ".toList, rfl⟩
  | _ => cases h

/-- A prefix of the token is refused, and the token may list the queue. -/
theorem handleOps_sealed_prefix :
    Sealed (handleOps opsEnv ⟨"DELETE", "/inbox/01ARZ3NDEKTSV4RRFFQ69G5FAV", [],
      some "Bearer ops-toke"⟩) 401 ∧
    ∀ now faults s, ((handleOps opsEnv ⟨"GET", "/inbox", [("limit", "5")],
      some "bearer  ops-token"⟩).run (storeService now faults) s).2 = s := by
  refine ⟨?_, ?_⟩
  · exact ((handleOps_sealed (by decide +kernel) wellFormed_opsEnv).2 _ rfl
      (by decide +kernel)).1 (by decide +kernel)
  · intro now faults s
    exact (((handleOps_sealed (by decide +kernel) wellFormed_opsEnv).2 _ rfl
      (by decide +kernel)).2 (by decide +kernel) now faults s).get rfl

end MailCloudflare
