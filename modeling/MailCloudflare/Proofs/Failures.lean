/-
How a send ends, and how long it waits.

A send is meant to return or to raise a `CloudflareEmailError`, and to wait no longer than
`MAX_RETRY_AFTER`.  It does unless one of the answers it comes to read is not shaped as the
API documents, or has a negative Retry-After.  Each attempt is judged on its own: what it
needs for its part is stated of its outcome, and an attempt is made when the outcomes
before it are retried.
-/
import MailCloudflare.Proofs.Session

namespace MailCloudflare

open Unicode Python Keyed Value

variable {F : Type} {lib : ClientLibrary F} {payload : Payload}

/-! ### The result of a 200 -/

/-- What addresses can be read from: nothing, a list of texts, a text, an object. -/
def AddressesReadable (lib : ClientLibrary F) (value : Value F) : Prop :=
  value.truthy lib.floats = false ∨ (∃ items, value = .list items ∧ ∀ item ∈ items, item.IsText) ∨
    (∃ s, value = .str s) ∨ ∃ members, value = .dict members

/-- What is iterated over is texts, and some. -/
theorem iterate_of_readable {value : Value F} (h : AddressesReadable lib value)
    (htruthy : value.truthy lib.floats = true) :
    ∃ texts : List Text, value.iterate = .ok (texts.map .str) ∧ texts ≠ [] := by
  rcases h with hfalse | ⟨items, rfl, hitems⟩ | ⟨s, rfl⟩ | ⟨members, rfl⟩
  · exact nomatch hfalse.symm.trans htruthy
  · obtain ⟨texts, rfl⟩ := exists_texts hitems
    refine ⟨texts, rfl, ?_⟩
    rintro rfl
    cases htruthy
  · refine ⟨s.map fun c => [c], ?_, ?_⟩
    · rw [List.map_map]
      rfl
    · intro hnil
      rw [List.map_eq_nil_iff.mp hnil] at htruthy
      cases htruthy
  · refine ⟨members.map Prod.fst, ?_, ?_⟩
    · rw [List.map_map]
      rfl
    · intro hnil
      rw [List.map_eq_nil_iff.mp hnil] at htruthy
      cases htruthy

theorem addressSet_of_readable {value : Value F} (h : AddressesReadable lib value) :
    ∃ addresses, addressSet lib value = .ok addresses ∧
      (addresses = [] ↔ value.truthy lib.floats = false) := by
  unfold addressSet Value.orElse
  by_cases htruthy : value.truthy lib.floats = true
  · obtain ⟨texts, hiterate, hne⟩ := iterate_of_readable h htruthy
    refine ⟨texts.map (lower lib.py), ?_, ?_⟩
    · rw [if_pos htruthy, hiterate]
      exact mapM_lowered_texts lib.py texts
    · rw [htruthy]
      exact iff_of_false (fun hnil => hne (List.map_eq_nil_iff.mp hnil)) (by decide)
  · rw [if_neg htruthy]
    exact ⟨[], rfl, iff_of_true rfl (Bool.eq_false_iff.mpr htruthy)⟩

theorem addressSet_of_not_readable {value : Value F} (h : ¬ AddressesReadable lib value) :
    ∃ e, addressSet lib value = .error e := by
  have htruthy : value.truthy lib.floats = true := by
    by_contra hfalse
    exact h (Or.inl (Bool.eq_false_iff.mpr hfalse))
  unfold addressSet Value.orElse
  rw [if_pos htruthy]
  cases value with
  | none => cases htruthy
  | bool b => exact ⟨_, rfl⟩
  | int n => exact ⟨_, rfl⟩
  | float x => exact ⟨_, rfl⟩
  | str s => exact absurd (Or.inr (Or.inr (Or.inl ⟨s, rfl⟩))) h
  | dict members => exact absurd (Or.inr (Or.inr (Or.inr ⟨members, rfl⟩))) h
  | list items =>
      show ∃ e, items.mapM (lowered lib.py) = .error e
      cases hitems : items.mapM (lowered lib.py) with
      | error e => exact ⟨e, rfl⟩
      | ok texts => exact absurd (Or.inr (Or.inl ⟨items, rfl, isText_of_mapM_lowered hitems⟩)) h

/-- What was delivered and what was queued, as they are added. -/
def Summable (lib : ClientLibrary F) (members : Members F) : Prop :=
  Addable lib.floats ((member members "delivered").orElse lib.floats (.list []))
    ((member members "queued").orElse lib.floats (.list []))

/-- A result that can be checked. -/
def ResultReadable (lib : ClientLibrary F) (result : Value F) : Prop :=
  ∃ members, result = .dict members ∧
    AddressesReadable lib (member members "permanent_bounces") ∧
    AddressesReadable lib (member members "suppressed_recipients") ∧
    ((member members "permanent_bounces").truthy lib.floats = true ∨
        (member members "suppressed_recipients").truthy lib.floats = true →
      Summable lib members)

/-- The recipients of a request, up to letter case. -/
def recipientKeys (lib : ClientLibrary F) (payload : Payload) : List Text :=
  payload.addresses.map fun address => lower lib.py (ofStr address)

/-- The check of a result whose failed recipients can be read. -/
theorem concludeSend_dict {members : Members F} {bounced suppressed : List Text}
    (hbounced : addressSet lib (member members "permanent_bounces") = .ok bounced)
    (hsuppressed : addressSet lib (member members "suppressed_recipients") = .ok suppressed) :
    concludeSend lib payload (.dict members) =
      if bounced ++ suppressed = [] then
        .ok ((member members "message_id").orElse lib.floats (.str []))
      else
        match add lib.floats ((member members "delivered").orElse lib.floats (.list []))
          ((member members "queued").orElse lib.floats (.list [])) with
        | .error e => .error (.python e)
        | .ok reached =>
          if (recipientKeys lib payload).all (· ∈ bounced ++ suppressed) ||
              !reached.truthy lib.floats then
            .error (.cloudflare (nobodyReached lib bounced suppressed))
          else .ok ((member members "message_id").orElse lib.floats (.str [])) := by
  unfold concludeSend checkRecipients
  simp only [Value.get, bind, Except.bind, hbounced, hsuppressed, Except.mapError]
  by_cases hnone : bounced ++ suppressed = []
  · rw [if_pos hnone, if_pos hnone]
    rfl
  · rw [if_neg hnone, if_neg hnone]
    cases add lib.floats ((member members "delivered").orElse lib.floats (.list []))
      ((member members "queued").orElse lib.floats (.list [])) with
    | error e => rfl
    | ok reached =>
        dsimp only
        unfold recipientKeys
        generalize ((payload.addresses.map fun address => lower lib.py (ofStr address)).all
          (· ∈ bounced ++ suppressed) || !reached.truthy lib.floats) = nobody
        cases nobody <;> rfl

/-- Every failure is a `CloudflareEmailError`. -/
def EndsAsExpected (result : Except (Failure (SendError F)) (Value F)) : Prop :=
  ∀ failure, result = .error failure → failure.isCloudflare = true

theorem not_endsAsExpected_python (e : PyError) :
    ¬ EndsAsExpected (.error (.python e) : Except (Failure (SendError F)) (Value F)) := by
  intro h
  exact nomatch h _ rfl

theorem endsAsExpected_ok (value : Value F) : EndsAsExpected (.ok value) := by
  rintro failure ⟨⟩

theorem endsAsExpected_cloudflare (error : SendError F) :
    EndsAsExpected (.error (.cloudflare error)) := by
  rintro failure ⟨⟩
  rfl

theorem concludeSend_of_not_dict {result : Value F} (h : ¬ ∃ members, result = .dict members) :
    concludeSend lib payload result = .error (.python .attributeError) := by
  cases result with
  | dict members => exact absurd ⟨members, rfl⟩ h
  | _ => rfl

/-- The check of a result whose failed recipients cannot be read. -/
theorem concludeSend_of_not_readable (payload : Payload) {members : Members F}
    (h : ¬ (AddressesReadable lib (member members "permanent_bounces") ∧
      AddressesReadable lib (member members "suppressed_recipients"))) :
    ∃ e, concludeSend lib payload (.dict members) = .error (.python e) := by
  unfold concludeSend checkRecipients
  by_cases hbounces : AddressesReadable lib (member members "permanent_bounces")
  · obtain ⟨bounced, hbounced, -⟩ := addressSet_of_readable hbounces
    obtain ⟨e, he⟩ := addressSet_of_not_readable fun hsuppress => h ⟨hbounces, hsuppress⟩
    refine ⟨e, ?_⟩
    simp only [Value.get, bind, Except.bind, hbounced, he, Except.mapError]
  · obtain ⟨e, he⟩ := addressSet_of_not_readable hbounces
    refine ⟨e, ?_⟩
    simp only [Value.get, bind, Except.bind, he, Except.mapError]

/-- Somebody is named as failed when one of the two lists is truthy. -/
theorem resultReadable_dict_iff {members : Members F} {bounced suppressed : List Text}
    (hbounces : AddressesReadable lib (member members "permanent_bounces"))
    (hsuppress : AddressesReadable lib (member members "suppressed_recipients"))
    (hbounced : bounced = [] ↔ (member members "permanent_bounces").truthy lib.floats = false)
    (hsuppressed : suppressed = [] ↔
      (member members "suppressed_recipients").truthy lib.floats = false) :
    ResultReadable lib (.dict members) ↔ (bounced ++ suppressed ≠ [] → Summable lib members) := by
  have hnames : bounced ++ suppressed ≠ [] ↔
      (member members "permanent_bounces").truthy lib.floats = true ∨
        (member members "suppressed_recipients").truthy lib.floats = true := by
    rw [ne_eq, List.append_eq_nil_iff, hbounced, hsuppressed]
    cases (member members "permanent_bounces").truthy lib.floats <;> simp
  rw [hnames]
  constructor
  · rintro ⟨found, hfound, -, -, hsum⟩
    cases hfound
    exact hsum
  · intro hsum
    exact ⟨members, rfl, hbounces, hsuppress, hsum⟩

/-- **The check of a result raises nothing else exactly when the result can be read.** -/
theorem concludeSend_endsAsExpected_iff {result : Value F} :
    EndsAsExpected (concludeSend lib payload result) ↔ ResultReadable lib result := by
  by_cases hdict : ∃ members, result = .dict members
  case neg =>
    rw [concludeSend_of_not_dict hdict]
    refine iff_of_false (not_endsAsExpected_python _) ?_
    rintro ⟨members, hmembers, -⟩
    exact hdict ⟨members, hmembers⟩
  obtain ⟨members, rfl⟩ := hdict
  by_cases hreadable : AddressesReadable lib (member members "permanent_bounces") ∧
      AddressesReadable lib (member members "suppressed_recipients")
  case neg =>
    obtain ⟨e, he⟩ := concludeSend_of_not_readable payload hreadable
    rw [he]
    refine iff_of_false (not_endsAsExpected_python e) ?_
    rintro ⟨found, ⟨⟩, hbounces, hsuppress, -⟩
    exact hreadable ⟨hbounces, hsuppress⟩
  obtain ⟨hbounces, hsuppress⟩ := hreadable
  obtain ⟨bounced, hbounced, hbouncedNil⟩ := addressSet_of_readable hbounces
  obtain ⟨suppressed, hsuppressed, hsuppressedNil⟩ := addressSet_of_readable hsuppress
  rw [resultReadable_dict_iff hbounces hsuppress hbouncedNil hsuppressedNil,
    concludeSend_dict hbounced hsuppressed]
  by_cases hnone : bounced ++ suppressed = []
  · rw [if_pos hnone]
    exact iff_of_true (endsAsExpected_ok _) fun hne => absurd hnone hne
  · rw [if_neg hnone]
    unfold Summable
    rw [← add_isOk_iff]
    cases add lib.floats ((member members "delivered").orElse lib.floats (.list []))
        ((member members "queued").orElse lib.floats (.list [])) with
    | error e =>
        refine iff_of_false (not_endsAsExpected_python e) ?_
        intro h
        obtain ⟨value, hvalue⟩ := h hnone
        cases hvalue
    | ok reached =>
        refine iff_of_true ?_ fun _ => ⟨reached, rfl⟩
        dsimp only
        split
        · exact endsAsExpected_cloudflare _
        · exact endsAsExpected_ok _

/-! ### One attempt -/

variable {body : Bytes} {outcomes : Nat → HttpOutcome F} {attempt : Nat}

/-- What an attempt needs for its part. -/
structure AnswerSane (lib : ClientLibrary F) (attempt : Nat) (response : HttpResponse F) :
    Prop where
  result : IsAccepted lib response → ResultReadable lib (acceptedResult lib response)
  errors : ¬ IsAccepted lib response → ErrorsReadable lib (parseJson response)
  delay : response.status = 429 → attempt < MAX_ATTEMPTS →
    ∀ delay, retryAfter lib response = some delay → 0 ≤ delay

def OutcomeSane (lib : ClientLibrary F) (attempt : Nat) : HttpOutcome F → Prop
  | .networkError _ => True
  | .response response => AnswerSane lib attempt response

def WaitsSanely (delay : Int) : Prop := 0 ≤ delay ∧ delay ≤ MAX_RETRY_AFTER

/-- What is wanted of an attempt: its waits, and its end when it is the last. -/
structure AttemptFine (lib : ClientLibrary F) (payload : Payload) (body : Bytes)
    (outcomes : Nat → HttpOutcome F) (attempt : Nat) : Prop where
  waits : ∀ delay ∈ delays (postAttempt lib body outcomes attempt).log, WaitsSanely delay
  ends : ∀ postEnd, (postAttempt lib body outcomes attempt).next = .done postEnd →
    EndsAsExpected (postEnd.result >>= concludeSend lib payload)

theorem attemptFine_of_done {postEnd : PostEnd F}
    (h : judge lib attempt (outcomes attempt) = .done postEnd) :
    AttemptFine lib payload body outcomes attempt ↔
      EndsAsExpected (postEnd.result >>= concludeSend lib payload) := by
  have hattempt : postAttempt lib body outcomes attempt =
      ⟨[.posted body (outcomes attempt)], .done postEnd⟩ := by
    unfold postAttempt
    rw [h]
  constructor
  · intro hfine
    exact hfine.ends postEnd (by rw [hattempt])
  · intro hends
    refine ⟨?_, ?_⟩
    · rw [hattempt]
      exact List.forall_mem_nil _
    · intro found hfound
      rw [hattempt] at hfound
      cases hfound
      exact hends

theorem attemptFine_of_retry {lastError : SendError F} {delay : Int}
    (h : judge lib attempt (outcomes attempt) = .retry lastError delay) :
    AttemptFine lib payload body outcomes attempt ↔ (attempt < MAX_ATTEMPTS → 0 ≤ delay) := by
  by_cases hlast : attempt < MAX_ATTEMPTS
  · have hlog : delays (postAttempt lib body outcomes attempt).log =
        [min delay MAX_RETRY_AFTER] := by
      unfold postAttempt
      rw [h]
      dsimp only
      rw [if_pos hlast]
      cases sleep (min delay MAX_RETRY_AFTER) <;> rfl
    constructor
    · intro hfine _
      have hwait := hfine.waits (min delay MAX_RETRY_AFTER) (by simp [hlog])
      exact le_trans hwait.1 (min_le_left _ _)
    · intro hdelay
      have hgoes : Retry.GoesOn (postAttempt lib body outcomes) attempt :=
        goesOn_iff.mpr ⟨lastError, delay, h, hdelay⟩
      refine ⟨?_, ?_⟩
      · rw [hlog]
        refine List.forall_mem_singleton.mpr ⟨le_min (hdelay hlast) (by decide), min_le_right _ _⟩
      · intro postEnd hdone
        obtain ⟨error, hagain⟩ := hgoes
        exact nomatch hdone.symm.trans hagain
  · refine iff_of_true ⟨?_, ?_⟩ fun hlt => absurd hlt hlast
    · unfold postAttempt
      rw [h]
      dsimp only
      rw [if_neg hlast]
      exact List.forall_mem_nil _
    · intro postEnd hdone
      unfold postAttempt at hdone
      rw [h] at hdone
      dsimp only at hdone
      rw [if_neg hlast] at hdone
      cases hdone

theorem limitDelay_nonneg_iff {response : HttpResponse F} :
    0 ≤ limitDelay lib attempt response ↔
      ∀ delay, retryAfter lib response = some delay → 0 ≤ delay := by
  unfold limitDelay
  cases retryAfter lib response with
  | none =>
      refine iff_of_true ?_ (fun _ h => nomatch h)
      exact Int.natCast_nonneg _
  | some delay =>
      constructor
      · rintro h found ⟨⟩
        by_cases hzero : delay ≠ 0
        · dsimp only at h
          rwa [if_pos hzero] at h
        · omega
      · intro h
        have hdelay := h delay rfl
        dsimp only
        split
        · exact hdelay
        · exact Int.natCast_nonneg _

/-- Of an answer that is no success and has errors to read, only the delay is left. -/
theorem answerSane_iff_of_readable {response : HttpResponse F} (hnot : ¬ IsAccepted lib response)
    (herrors : ErrorsReadable lib (parseJson response)) :
    AnswerSane lib attempt response ↔
      (response.status = 429 → attempt < MAX_ATTEMPTS →
        ∀ delay, retryAfter lib response = some delay → 0 ≤ delay) := by
  constructor
  · intro hsane
    exact hsane.delay
  · intro hdelay
    exact ⟨fun haccepted => absurd haccepted hnot, fun _ => herrors, hdelay⟩

/-- **An attempt does its part exactly when its outcome is what it needs.** -/
theorem attemptFine_iff :
    AttemptFine lib payload body outcomes attempt ↔ OutcomeSane lib attempt (outcomes attempt) := by
  cases houtcome : outcomes attempt with
  | networkError exc =>
      have hretry : judge lib attempt (outcomes attempt) =
          .retry { message := text "Could not reach Cloudflare: " ++ exc }
            (Nat.pow 2 (attempt - 1)) := by
        rw [houtcome]
        rfl
      rw [attemptFine_of_retry hretry]
      exact iff_of_true (fun _ => Int.natCast_nonneg _) trivial
  | response response =>
      have hjudge : judge lib attempt (outcomes attempt) = judgeResponse lib attempt response := by
        rw [houtcome]
        rfl
      have hjudged := judged lib attempt response
      rw [← hjudge] at hjudged
      show AttemptFine lib payload body outcomes attempt ↔ AnswerSane lib attempt response
      generalize heq : judge lib attempt (outcomes attempt) = judgement at hjudged
      cases hjudged with
      | accepted haccepted =>
          rw [attemptFine_of_done heq]
          refine concludeSend_endsAsExpected_iff.trans ?_
          constructor
          · intro hresult
            exact ⟨fun _ => hresult, fun hnot => absurd haccepted hnot,
              fun h429 => absurd (haccepted.1.symm.trans h429) (by decide)⟩
          · intro hsane
            exact hsane.result haccepted
      | unreadable hnot herrors =>
          rw [attemptFine_of_done heq]
          exact iff_of_false (not_endsAsExpected_python _) fun hsane => herrors (hsane.errors hnot)
      | refused hnot herrors hfatal hretried =>
          rw [attemptFine_of_done heq, answerSane_iff_of_readable hnot herrors]
          refine iff_of_true (endsAsExpected_cloudflare _) ?_
          intro h429
          simp [isRetried, h429] at hretried
      | fatal hnot herrors hstatus hfatal =>
          rw [attemptFine_of_done heq, answerSane_iff_of_readable hnot herrors]
          refine iff_of_true (endsAsExpected_cloudflare _) ?_
          intro h429
          simp [isFatalStatus, h429] at hstatus
      | limited hnot herrors hstatus =>
          rw [attemptFine_of_retry heq, answerSane_iff_of_readable hnot herrors,
            limitDelay_nonneg_iff]
          exact ⟨fun hdelay _ => hdelay, fun hdelay => hdelay hstatus⟩
      | serverError hnot herrors hstatus =>
          rw [attemptFine_of_retry heq, answerSane_iff_of_readable hnot herrors]
          refine iff_of_true (fun _ => Int.natCast_nonneg _) ?_
          intro h429
          omega

theorem goesOn_of_isRetried (hretried : isRetried (outcomes attempt) = true)
    (hsane : OutcomeSane lib attempt (outcomes attempt)) :
    Retry.GoesOn (postAttempt lib body outcomes) attempt := by
  refine goesOn_iff.mpr ?_
  cases houtcome : outcomes attempt with
  | networkError exc => exact ⟨_, _, rfl, fun _ => Int.natCast_nonneg _⟩
  | response response =>
      rw [houtcome] at hretried hsane
      have hsane : AnswerSane lib attempt response := hsane
      have hstatus : response.status = 429 ∨ response.status ≥ 500 := by
        simpa [isRetried] using hretried
      have hjudged := judged lib attempt response
      show ∃ lastError delay, judgeResponse lib attempt response = .retry lastError delay ∧ _
      generalize judgeResponse lib attempt response = judgement at hjudged
      cases hjudged with
      | accepted haccepted =>
          have h200 := haccepted.1
          omega
      | unreadable hnot herrors => exact absurd (hsane.errors hnot) herrors
      | refused _ _ _ hnotRetried => exact absurd hretried (Bool.eq_false_iff.mp hnotRetried)
      | fatal _ _ hfatal _ =>
          simp [isFatalStatus] at hfatal
          omega
      | limited _ _ h429 =>
          exact ⟨_, _, rfl, fun hlast => limitDelay_nonneg_iff.mpr (hsane.delay h429 hlast)⟩
      | serverError => exact ⟨_, _, rfl, fun _ => Int.natCast_nonneg _⟩

/-! ### The whole of `_post` -/

theorem delays_post :
    ∀ delay, delay ∈ delays (post lib body outcomes).1 ↔
      ∃ k ∈ madeAttempts lib body outcomes,
        delay ∈ delays (postAttempt lib body outcomes k).log := by
  intro delay
  unfold post delays madeAttempts
  rw [Retry.loop_log, List.filterMap_flatMap]
  exact List.mem_flatMap

/-- **`_post` does its part exactly when every attempt it makes does.** -/
theorem post_endsAsExpected_iff :
    (EndsAsExpected ((post lib body outcomes).2.result >>= concludeSend lib payload) ∧
        ∀ delay ∈ delays (post lib body outcomes).1, WaitsSanely delay) ↔
      ∀ k ∈ madeAttempts lib body outcomes, AttemptFine lib payload body outcomes k := by
  constructor
  · rintro ⟨hends, hwaits⟩ k hk
    refine ⟨fun delay hdelay => hwaits delay ((delays_post delay).mpr ⟨k, hk, hdelay⟩), ?_⟩
    intro postEnd hdone
    obtain ⟨before, rest, hsplit, hbefore⟩ := Retry.exists_before_of_mem_tried hk
    unfold post at hends
    rwa [hsplit, Retry.loop_of_done hbefore hdone] at hends
  · intro hfine
    refine ⟨?_, ?_⟩
    · rcases Retry.goesOn_or_done (postAttempt lib body outcomes) (List.range' 1 MAX_ATTEMPTS) with
        hall | ⟨before, k, rest, postEnd, hsplit, hbefore, hdone⟩
      · obtain ⟨error, hresult⟩ := Retry.loop_of_goesOn givingUp none hall (fun h => by cases h)
        unfold post
        rw [hresult]
        exact endsAsExpected_cloudflare _
      · have hmade : k ∈ madeAttempts lib body outcomes := by
          unfold madeAttempts
          rw [hsplit]
          exact Retry.mem_tried hbefore
        unfold post
        rw [hsplit, Retry.loop_of_done hbefore hdone]
        exact (hfine k hmade).ends postEnd hdone
    · intro delay hdelay
      obtain ⟨k, hk, hin⟩ := (delays_post delay).mp hdelay
      exact (hfine k hk).waits delay hin

/-- The attempts that are made are those whose predecessors are all retried. -/
theorem madeAttempts_fine_iff :
    (∀ k ∈ madeAttempts lib body outcomes, AttemptFine lib payload body outcomes k) ↔
      ∀ k, 1 ≤ k → k ≤ MAX_ATTEMPTS → (∀ j, 1 ≤ j → j < k → isRetried (outcomes j) = true) →
        OutcomeSane lib k (outcomes k) := by
  unfold madeAttempts
  constructor
  · intro hfine k hone hle hretried
    -- An attempt that is made and retried has the loop go on, so the next one is made.
    have hgoes : ∀ j, 1 ≤ j → j < k → Retry.GoesOn (postAttempt lib body outcomes) j := by
      intro j
      induction j using Nat.strong_induction_on with
      | _ j ih =>
          intro hj hlt
          have hmade := Retry.mem_tried_range'.mpr
            ⟨⟨hj, (by omega : j ≤ MAX_ATTEMPTS)⟩, fun i hi hij => ih i hij hi (by omega)⟩
          exact goesOn_of_isRetried (hretried j hj hlt) (attemptFine_iff.mp (hfine j hmade))
    exact attemptFine_iff.mp (hfine k (Retry.mem_tried_range'.mpr ⟨⟨hone, hle⟩, hgoes⟩))
  · intro hsane k hk
    obtain ⟨⟨hone, hle⟩, hgoes⟩ := Retry.mem_tried_range'.mp hk
    refine attemptFine_iff.mpr (hsane k hone hle ?_)
    intro j hj hlt
    exact isRetried_of_goesOn (hgoes j hj hlt)

/-! ### The whole send -/

/--
When a send ends as its callers expect: the session fails fast, or the payload is text that
can be sent and either too large to be sent or answered sanely wherever an answer is read.
-/
def SendsSanely (lib : ClientLibrary F) (session : CloudflareSendingSession F) (payload : Payload)
    (outcomes : Nat → HttpOutcome F) : Prop :=
  session.fatalError.isSome = true ∨
    ∃ chars, characters payload.json = some chars ∧
      (MAX_BODY_BYTES < (utf8 chars).length ∨
        ∀ k, 1 ≤ k → k ≤ MAX_ATTEMPTS → (∀ j, 1 ≤ j → j < k → isRetried (outcomes j) = true) →
          OutcomeSane lib k (outcomes k))

/--
**When a send ends in one of the two ways its callers expect and waits sanely.**  It returns
or raises a `CloudflareEmailError`, and hands `_sleep` delays from 0 to `MAX_RETRY_AFTER`
only, exactly when the session is latched, the body is too large, or every answer that comes
to be read has errors and a result that the code can take apart, which is more than the
documented shapes, and no negative Retry-After where one is waited for.
-/
theorem sendMessage_endsAsExpected_iff (lib : ClientLibrary F)
    (session : CloudflareSendingSession F) {message : MimeMessage} {smtpToList : List Str}
    (outcomes : Nat → HttpOutcome F)
    (hpayload : buildPayload lib.toMailLibrary message smtpToList = .ok payload) :
    (EndsAsExpected (sendMessage lib session message smtpToList outcomes).result ∧
        ∀ delay ∈ delays (sendMessage lib session message smtpToList outcomes).events,
          WaitsSanely delay) ↔
      SendsSanely lib session payload outcomes := by
  unfold sendMessage SendsSanely
  cases hlatch : session.fatalError with
  | some error =>
      exact iff_of_true ⟨endsAsExpected_cloudflare _, List.forall_mem_nil _⟩ (Or.inl rfl)
  | none =>
      dsimp only
      rw [hpayload, or_iff_right (by simp)]
      dsimp only
      unfold encodeUtf8
      cases characters payload.json with
      | none =>
          refine iff_of_false (fun h => not_endsAsExpected_python _ h.1) ?_
          rintro ⟨chars, hchars, -⟩
          cases hchars
      | some chars =>
          dsimp only
          by_cases hlarge : (utf8 chars).length > MAX_BODY_BYTES
          · rw [if_pos hlarge]
            exact iff_of_true ⟨endsAsExpected_cloudflare _, List.forall_mem_nil _⟩
              ⟨chars, rfl, Or.inl hlarge⟩
          · rw [if_neg hlarge]
            refine post_endsAsExpected_iff.trans (madeAttempts_fine_iff.trans ?_)
            constructor
            · intro hsane
              exact ⟨chars, rfl, Or.inr hsane⟩
            · rintro ⟨found, ⟨⟩, hfits⟩
              exact hfits.resolve_left hlarge

/-!
A 429 with a negative Retry-After, which `int` reads, and an accepted mail with a list for a
result.
-/

def negativeRetryAfter (_ : Nat) : HttpOutcome Empty :=
  .response { status := 429, retryAfter := some "-5".toList, body := .json (.dict []) }

def listResult (_ : Nat) : HttpOutcome Empty :=
  answer 200 [(text "success", .bool true), (text "result", .list [.none])]

theorem sendMessage_negativeRetryAfter :
    (∃ payload, buildPayload sampleClient.toMailLibrary helloMail helloEnvelope = .ok payload) ∧
      delays (sendMessage sampleClient {} helloMail helloEnvelope negativeRetryAfter).events =
        [-5] ∧
      ¬ EndsAsExpected
        (sendMessage sampleClient {} helloMail helloEnvelope negativeRetryAfter).result ∧
      ¬ EndsAsExpected (sendMessage sampleClient {} helloMail helloEnvelope listResult).result := by
  obtain ⟨payload, body, hpayload, hbody, hlength⟩ := exists_helloBody
  rw [sendMessage_of_body rfl hpayload hbody hlength, sendMessage_of_body rfl hpayload hbody hlength]
  exact ⟨⟨payload, hpayload⟩, rfl, not_endsAsExpected_python .valueError,
    not_endsAsExpected_python .attributeError⟩

/-- Cloudflare cannot be reached. -/
def unreachable (_ : Nat) : HttpOutcome Empty := .networkError (text "timed out")

theorem sendMessage_endsAsExpected_iff_hello :
    ∃ payload, buildPayload sampleClient.toMailLibrary helloMail helloEnvelope = .ok payload ∧
      ¬ SendsSanely sampleClient {} payload negativeRetryAfter ∧
      SendsSanely sampleClient {} payload unreachable ∧
      EndsAsExpected
        (sendMessage sampleClient {} helloMail helloEnvelope unreachable).result ∧
      delays (sendMessage sampleClient {} helloMail helloEnvelope unreachable).events = [1, 2] := by
  obtain ⟨payload, body, hpayload, hbody, hlength⟩ := exists_helloBody
  refine ⟨payload, hpayload, ?_, ?_⟩
  · rw [← sendMessage_endsAsExpected_iff sampleClient {} negativeRetryAfter hpayload,
      sendMessage_of_body rfl hpayload hbody hlength]
    rintro ⟨hends, -⟩
    exact not_endsAsExpected_python .valueError hends
  · have hends := endsAsExpected_cloudflare (F := Empty)
    rw [← sendMessage_endsAsExpected_iff sampleClient {} unreachable hpayload,
      sendMessage_of_body rfl hpayload hbody hlength]
    have hwaits : delays (post sampleClient body unreachable).1 = [1, 2] := rfl
    refine ⟨⟨hends _, ?_⟩, hends _, hwaits⟩
    rw [hwaits]
    simp [WaitsSanely, MAX_RETRY_AFTER]

end MailCloudflare
