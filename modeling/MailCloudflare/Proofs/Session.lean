/-
A session never hammers the API.

A call makes at most `MAX_ATTEMPTS` requests, all with one body, and a request is followed
by another only after a network error, a 429 or a server error.  A 401 or 403 sets the
latch, and a session whose latch is set makes no more requests.
-/
import MailCloudflare.Odoo.Session
import MailCloudflare.Proofs.Content
import MailCloudflare.Proofs.Recipients

namespace MailCloudflare

open Unicode Python Keyed

variable {F : Type} {lib : ClientLibrary F}

/-! ### What is in a log -/

/-- The requests of a call, each with what came of it. -/
def posts (events : List (SessionEvent F)) : List (Bytes × HttpOutcome F) :=
  events.filterMap fun
    | .posted body outcome => some (body, outcome)
    | .slept _ => none

/-- The delays handed to `_sleep`. -/
def delays (events : List (SessionEvent F)) : List Int :=
  events.filterMap fun
    | .posted _ _ => none
    | .slept delay => some delay

/-- A network error, a 429 or a server error. -/
def isRetried : HttpOutcome F → Bool
  | .networkError _ => true
  | .response response => response.status = 429 || response.status ≥ 500

/-! ### Reading the errors of an answer -/

/-- The errors of an answer are none, a list or a text. -/
def ErrorsReadable (lib : ClientLibrary F) (payload : Option (Members F)) : Prop :=
  (payloadMember payload "errors").truthy lib.floats = false ∨
    (∃ items, payloadMember payload "errors" = .list items) ∨
    ∃ s, payloadMember payload "errors" = .str s

theorem answerError_of_readable {payload : Option (Members F)} (h : ErrorsReadable lib payload)
    (before after : String) (status : Nat) :
    ∃ error, answerError lib before after status payload = .ok error ∧
      error.fatal = isFatalStatus status := by
  unfold answerError describe firstCode errorsOf Value.orElse
  unfold ErrorsReadable at h
  generalize payloadMember payload "errors" = errors at h
  rcases h with hfalse | ⟨items, rfl⟩ | ⟨s, rfl⟩
  · rw [hfalse]
    exact ⟨_, rfl, rfl⟩
  · cases items with
    | nil => exact ⟨_, rfl, rfl⟩
    | cons item rest =>
        cases item <;> exact ⟨_, rfl, rfl⟩
  · cases s with
    | nil => exact ⟨_, rfl, rfl⟩
    | cons c rest => exact ⟨_, rfl, rfl⟩

theorem answerError_of_not_readable {payload : Option (Members F)}
    (h : ¬ ErrorsReadable lib payload) (before after : String) (status : Nat) :
    ∃ e, answerError lib before after status payload = .error e := by
  unfold answerError describe firstCode errorsOf Value.orElse
  unfold ErrorsReadable at h
  generalize payloadMember payload "errors" = errors at h
  have htrue : errors.truthy lib.floats = true := by
    by_contra hfalse
    exact h (Or.inl (Bool.eq_false_iff.mpr hfalse))
  rw [htrue]
  cases errors with
  | none => exact ⟨_, rfl⟩
  | bool b => exact ⟨_, rfl⟩
  | int n => exact ⟨_, rfl⟩
  | float x => exact ⟨_, rfl⟩
  | str s => exact absurd (Or.inr (Or.inr ⟨s, rfl⟩)) h
  | list items => exact absurd (Or.inr (Or.inl ⟨items, rfl⟩)) h
  | dict members =>
      cases members with
      | nil => cases htrue
      | cons member rest => exact ⟨_, rfl⟩

/-! ### One attempt -/

variable {body : Bytes} {outcomes : Nat → HttpOutcome F} {attempt : Nat}

/-- An attempt is one request. -/
theorem posts_log (lib : ClientLibrary F) (body : Bytes) (outcomes : Nat → HttpOutcome F)
    (attempt : Nat) :
    posts (postAttempt lib body outcomes attempt).log = [(body, outcomes attempt)] := by
  unfold postAttempt
  cases judge lib attempt (outcomes attempt) with
  | done postEnd => rfl
  | retry lastError delay =>
      dsimp only
      split
      · cases sleep (min delay MAX_RETRY_AFTER) <;> rfl
      · rfl

/-- Cloudflare took the message. -/
def IsAccepted (lib : ClientLibrary F) (response : HttpResponse F) : Prop :=
  response.status = 200 ∧ (payloadMember (parseJson response) "success").truthy lib.floats = true

/-- `payload.get("result") or {}`. -/
def acceptedResult (lib : ClientLibrary F) (response : HttpResponse F) : Value F :=
  (payloadMember (parseJson response) "result").orElse lib.floats (.dict [])

/-- What an answer may be made into. -/
inductive Judged (lib : ClientLibrary F) (attempt : Nat) (response : HttpResponse F) :
    Judgement F → Prop
  | accepted (haccepted : IsAccepted lib response) :
      Judged lib attempt response (.done ⟨.ok (acceptedResult lib response), none⟩)
  | unreadable {e : PyError} (hnot : ¬ IsAccepted lib response)
      (herrors : ¬ ErrorsReadable lib (parseJson response)) :
      Judged lib attempt response (.done (.raised (.python e)))
  | refused {error : SendError F} (hnot : ¬ IsAccepted lib response)
      (herrors : ErrorsReadable lib (parseJson response))
      (hfatal : isFatalStatus response.status = false)
      (hretried : isRetried (.response response) = false) :
      Judged lib attempt response (.done (.raised (.cloudflare error)))
  | fatal {error : SendError F} (hnot : ¬ IsAccepted lib response)
      (herrors : ErrorsReadable lib (parseJson response))
      (hstatus : isFatalStatus response.status = true) (hfatal : error.fatal = true) :
      Judged lib attempt response (.done ⟨.error (.cloudflare error), some error⟩)
  | limited {error : SendError F} (hnot : ¬ IsAccepted lib response)
      (herrors : ErrorsReadable lib (parseJson response)) (hstatus : response.status = 429) :
      Judged lib attempt response (.retry error (limitDelay lib attempt response))
  | serverError {error : SendError F} (hnot : ¬ IsAccepted lib response)
      (herrors : ErrorsReadable lib (parseJson response)) (hstatus : response.status ≥ 500) :
      Judged lib attempt response (.retry error (Nat.pow 2 (attempt - 1)))

theorem judged (lib : ClientLibrary F) (attempt : Nat) (response : HttpResponse F) :
    Judged lib attempt response (judgeResponse lib attempt response) := by
  by_cases haccepted : IsAccepted lib response
  · have hjudge : judgeResponse lib attempt response =
        .done ⟨.ok (acceptedResult lib response), none⟩ := by
      unfold judgeResponse
      rw [if_pos haccepted.1, if_pos haccepted.2]
      rfl
    rw [hjudge]
    exact .accepted haccepted
  by_cases hok : response.status = 200
  · have hsuccess : ¬ (payloadMember (parseJson response) "success").truthy lib.floats = true :=
      fun h => haccepted ⟨hok, h⟩
    unfold judgeResponse
    rw [if_pos hok, if_neg hsuccess]
    by_cases hreadable : ErrorsReadable lib (parseJson response)
    · obtain ⟨error, heq, -⟩ := answerError_of_readable hreadable "Cloudflare answered "
        " without success: true" response.status
      rw [heq]
      exact .refused haccepted hreadable (by simp [isFatalStatus, hok]) (by simp [isRetried, hok])
    · obtain ⟨e, heq⟩ := answerError_of_not_readable hreadable "Cloudflare answered "
        " without success: true" response.status
      rw [heq]
      exact .unreadable haccepted hreadable
  · unfold judgeResponse
    rw [if_neg hok]
    by_cases hreadable : ErrorsReadable lib (parseJson response)
    · obtain ⟨error, heq, hfatal⟩ := answerError_of_readable hreadable
        "Cloudflare refused the message: " "" response.status
      rw [heq]
      dsimp only
      rw [hfatal]
      by_cases hstatus : isFatalStatus response.status = true
      · rw [if_pos hstatus]
        exact .fatal haccepted hreadable hstatus (hfatal.trans hstatus)
      · rw [if_neg hstatus]
        by_cases h429 : response.status = 429
        · rw [if_pos h429]
          exact .limited haccepted hreadable h429
        · rw [if_neg h429]
          by_cases h500 : response.status ≥ 500
          · rw [if_pos h500]
            exact .serverError haccepted hreadable h500
          · rw [if_neg h500]
            exact .refused haccepted hreadable (Bool.eq_false_iff.mpr hstatus)
              (by simp [isRetried, h429, Nat.lt_of_not_ge h500])
    · obtain ⟨e, heq⟩ := answerError_of_not_readable hreadable
        "Cloudflare refused the message: " "" response.status
      rw [heq]
      exact .unreadable haccepted hreadable

/-- **A request is made again only after a network error, a 429 or a server error.** -/
theorem isRetried_of_retry {outcome : HttpOutcome F} {lastError : SendError F} {delay : Int}
    (h : judge lib attempt outcome = .retry lastError delay) : isRetried outcome = true := by
  cases outcome with
  | networkError exc => rfl
  | response response =>
      have hjudged := judged lib attempt response
      rw [show judgeResponse lib attempt response = .retry lastError delay from h] at hjudged
      cases hjudged with
      | limited _ _ hstatus => simp [isRetried, hstatus]
      | serverError _ _ hstatus => simp [isRetried, hstatus]

/-- The loop goes on after such a request, and after a wait that can be waited. -/
theorem goesOn_iff :
    Retry.GoesOn (postAttempt lib body outcomes) attempt ↔
      ∃ lastError delay, judge lib attempt (outcomes attempt) = .retry lastError delay ∧
        (attempt < MAX_ATTEMPTS → 0 ≤ delay) := by
  unfold Retry.GoesOn postAttempt
  cases judge lib attempt (outcomes attempt) with
  | done postEnd => simp
  | retry lastError delay =>
      dsimp only
      by_cases hlast : attempt < MAX_ATTEMPTS
      · have hsleep : sleep (min delay MAX_RETRY_AFTER) = .ok () ↔ 0 ≤ delay := by
          unfold sleep MAX_RETRY_AFTER
          split
          · simp only [reduceCtorEq, false_iff]
            omega
          · split
            · simp only [reduceCtorEq, false_iff]
              omega
            · simp only [true_iff]
              omega
        rw [if_pos hlast]
        cases hslept : sleep (min delay MAX_RETRY_AFTER) with
        | error e =>
            rw [hslept] at hsleep
            simp only [reduceCtorEq, false_iff] at hsleep
            refine iff_of_false (fun ⟨error, h⟩ => nomatch h) ?_
            rintro ⟨error, found, heq, hdelay⟩
            cases heq
            exact hsleep (hdelay hlast)
        | ok slept =>
            exact iff_of_true ⟨lastError, rfl⟩ ⟨lastError, delay, rfl, fun _ => hsleep.mp hslept⟩
      · rw [if_neg hlast]
        exact iff_of_true ⟨lastError, rfl⟩ ⟨lastError, delay, rfl, fun h => absurd h hlast⟩

theorem isRetried_of_goesOn (h : Retry.GoesOn (postAttempt lib body outcomes) attempt) :
    isRetried (outcomes attempt) = true := by
  obtain ⟨lastError, delay, hretry, -⟩ := goesOn_iff.mp h
  exact isRetried_of_retry hretry

/-! ### The requests of a call -/

/-- The attempts `_post` makes. -/
def madeAttempts (lib : ClientLibrary F) (body : Bytes) (outcomes : Nat → HttpOutcome F) :
    List Nat :=
  Retry.tried (postAttempt lib body outcomes) (List.range' 1 MAX_ATTEMPTS)

theorem posts_post (lib : ClientLibrary F) (body : Bytes) (outcomes : Nat → HttpOutcome F) :
    posts (post lib body outcomes).1 =
      (madeAttempts lib body outcomes).map fun k => (body, outcomes k) := by
  unfold post posts
  rw [Retry.loop_log, List.filterMap_flatMap]
  have hlog : ∀ k, ((postAttempt lib body outcomes k).log.filterMap fun
      | .posted body outcome => some (body, outcome)
      | .slept _ => none) = [(body, outcomes k)] := posts_log lib body outcomes
  simp only [hlog]
  exact List.flatMap_pure_eq_map _ _

/-- A call keeps to its bounds. -/
structure Restrained (call : SendCall F) (run : SendRun F) : Prop where
  /-- The requests got the first outcomes, of which there are `MAX_ATTEMPTS` at most. -/
  outcomes : ∃ n ≤ MAX_ATTEMPTS,
    (posts run.events).map Prod.snd = (List.range' 1 n).map call.outcomes
  retried : ∀ request ∈ (posts run.events).dropLast, isRetried request.2 = true
  body : ∃ body, body.length ≤ MAX_BODY_BYTES ∧ ∀ request ∈ posts run.events, request.1 = body

/-- The call was told that the token is not good. -/
def MetFatal (run : SendRun F) : Prop :=
  ∃ request ∈ posts run.events, ∃ response, request.2 = .response response ∧
    isFatalStatus response.status = true

theorem restrained_post {call : SendCall F} {run : SendRun F}
    (hlength : body.length ≤ MAX_BODY_BYTES)
    (hevents : run.events = (post lib body call.outcomes).1) : Restrained call run := by
  have hposts : posts run.events = (madeAttempts lib body call.outcomes).map fun k =>
      (body, call.outcomes k) := by
    rw [hevents, posts_post]
  refine ⟨?_, ?_, body, hlength, ?_⟩
  · obtain ⟨n, hn, hmade⟩ :=
      Retry.exists_tried_range' (postAttempt lib body call.outcomes) MAX_ATTEMPTS
    refine ⟨n, hn, ?_⟩
    rw [hposts, madeAttempts, hmade, List.map_map]
    rfl
  · intro request hrequest
    rw [hposts, ← List.map_dropLast] at hrequest
    obtain ⟨k, hk, rfl⟩ := List.mem_map.mp hrequest
    exact isRetried_of_goesOn (Retry.goesOn_of_mem_dropLast hk)
  · intro request hrequest
    rw [hposts] at hrequest
    obtain ⟨k, -, rfl⟩ := List.mem_map.mp hrequest
    rfl

theorem restrained_silent {call : SendCall F} {run : SendRun F} (hevents : run.events = []) :
    Restrained call run := by
  have hposts : posts run.events = [] := by
    rw [hevents]
    rfl
  refine ⟨⟨0, Nat.zero_le _, ?_⟩, ?_, [], Nat.zero_le _, ?_⟩
  · rw [hposts]
    rfl
  · rw [hposts]
    exact List.forall_mem_nil _
  · rw [hposts]
    exact List.forall_mem_nil _

/-! ### The latch -/

/-- What the API documents of an answer: no errors, or a list of them. -/
def DocumentedErrors : HttpOutcome F → Prop
  | .networkError _ => True
  | .response response =>
    ∀ members, parseJson response = some members →
      Value.member members "errors" = .none ∨ ∃ items, Value.member members "errors" = .list items

theorem readable_of_documented {response : HttpResponse F}
    (h : DocumentedErrors (.response response)) : ErrorsReadable lib (parseJson response) := by
  cases hparse : parseJson response with
  | none => exact Or.inl rfl
  | some members =>
      rcases h members hparse with hnone | ⟨items, hitems⟩
      · refine Or.inl ?_
        show (Value.member members "errors").truthy lib.floats = false
        rw [hnone]
        rfl
      · exact Or.inr (Or.inl ⟨items, hitems⟩)

/-- **A 401 or 403 sets the latch.** -/
theorem latched_of_fatal {response : HttpResponse F}
    (hmade : attempt ∈ madeAttempts lib body outcomes)
    (houtcome : outcomes attempt = .response response)
    (hdocumented : DocumentedErrors (.response response))
    (hstatus : isFatalStatus response.status = true) :
    ∃ error, (post lib body outcomes).2.fatalError = some error := by
  obtain ⟨before, rest, hsplit, hbefore⟩ := Retry.exists_before_of_mem_tried hmade
  have hjudged := judged lib attempt response
  have h200 : response.status ≠ 200 := by
    intro h
    simp [isFatalStatus, h] at hstatus
  have hdone : ∃ error, judge lib attempt (outcomes attempt) =
      .done ⟨.error (.cloudflare error), some error⟩ := by
    rw [houtcome]
    show ∃ error, judgeResponse lib attempt response = _
    generalize judgeResponse lib attempt response = judgement at hjudged
    cases hjudged with
    | accepted haccepted => exact absurd haccepted.1 h200
    | unreadable _ herrors => exact absurd (readable_of_documented hdocumented) herrors
    | refused _ _ hfatal _ => exact nomatch hstatus.symm.trans hfatal
    | @fatal error _ _ _ _ => exact ⟨error, rfl⟩
    | limited _ _ h429 => simp [isFatalStatus, h429] at hstatus
    | serverError _ _ h500 =>
        simp [isFatalStatus] at hstatus
        omega
  obtain ⟨error, hjudge⟩ := hdone
  have hnext : (postAttempt lib body outcomes attempt).next =
      .done ⟨.error (.cloudflare error), some error⟩ := by
    unfold postAttempt
    rw [hjudge]
  refine ⟨error, ?_⟩
  unfold post
  rw [hsplit, Retry.loop_of_done hbefore hnext]

/-! ### One call -/

/-- How a call may go. -/
inductive Sent (lib : ClientLibrary F) (session : CloudflareSendingSession F) (call : SendCall F) :
    SendRun F → Prop
  | latched {error : SendError F} (hlatch : session.fatalError = some error) :
      Sent lib session call ⟨[], .error (.cloudflare (notRetried error)), session⟩
  | unsent {failure : Failure (SendError F)} (hlatch : session.fatalError = none) :
      Sent lib session call ⟨[], .error failure, session⟩
  | sent {payload : Payload} {body : Bytes} (hlatch : session.fatalError = none)
      (hpayload : buildPayload lib.toMailLibrary call.message call.smtpToList = .ok payload)
      (hbody : encodeUtf8 payload.json = .ok body) (hlength : body.length ≤ MAX_BODY_BYTES) :
      Sent lib session call ⟨(post lib body call.outcomes).1,
        (post lib body call.outcomes).2.result >>= concludeSend lib payload,
        ⟨(post lib body call.outcomes).2.fatalError⟩⟩

/-- A call whose body is within the limit is what `_post` does. -/
theorem sendMessage_of_body {session : CloudflareSendingSession F} {message : MimeMessage}
    {smtpToList : List Str} {payload : Payload} (hlatch : session.fatalError = none)
    (hpayload : buildPayload lib.toMailLibrary message smtpToList = .ok payload)
    (hbody : encodeUtf8 payload.json = .ok body) (hlength : body.length ≤ MAX_BODY_BYTES)
    (outcomes : Nat → HttpOutcome F) :
    sendMessage lib session message smtpToList outcomes = ⟨(post lib body outcomes).1,
      (post lib body outcomes).2.result >>= concludeSend lib payload,
      ⟨(post lib body outcomes).2.fatalError⟩⟩ := by
  unfold sendMessage
  rw [hlatch]
  dsimp only
  rw [hpayload]
  dsimp only
  rw [hbody]
  dsimp only
  rw [if_neg (Nat.not_lt.mpr hlength)]

theorem runCall_sent (lib : ClientLibrary F) (session : CloudflareSendingSession F)
    (call : SendCall F) : Sent lib session call (runCall lib session call) := by
  unfold runCall
  cases hlatch : session.fatalError with
  | some error =>
      unfold sendMessage
      rw [hlatch]
      exact .latched hlatch
  | none =>
      cases hpayload : buildPayload lib.toMailLibrary call.message call.smtpToList with
      | error failure =>
          unfold sendMessage
          rw [hlatch, hpayload]
          exact .unsent hlatch
      | ok payload =>
          cases hbody : encodeUtf8 payload.json with
          | error e =>
              unfold sendMessage
              rw [hlatch, hpayload]
              dsimp only
              rw [hbody]
              exact .unsent hlatch
          | ok body =>
              by_cases hlength : body.length ≤ MAX_BODY_BYTES
              · rw [sendMessage_of_body hlatch hpayload hbody hlength]
                exact .sent hlatch hpayload hbody hlength
              · unfold sendMessage
                rw [hlatch, hpayload]
                dsimp only
                rw [hbody]
                dsimp only
                rw [if_pos (Nat.lt_of_not_le hlength)]
                exact .unsent hlatch

theorem restrained_runCall (lib : ClientLibrary F) (session : CloudflareSendingSession F)
    (call : SendCall F) : Restrained call (runCall lib session call) := by
  have hsent := runCall_sent lib session call
  generalize runCall lib session call = run at hsent
  cases hsent with
  | latched hlatch => exact restrained_silent rfl
  | unsent hlatch => exact restrained_silent rfl
  | sent hlatch hpayload hbody hlength => exact restrained_post hlength rfl

theorem latched_of_metFatal {session : CloudflareSendingSession F} {call : SendCall F}
    (hdocumented : ∀ attempt, DocumentedErrors (call.outcomes attempt))
    (h : MetFatal (runCall lib session call)) :
    ∃ error, (runCall lib session call).session.fatalError = some error := by
  obtain ⟨request, hrequest, response, hresponse, hstatus⟩ := h
  have hsent := runCall_sent lib session call
  generalize runCall lib session call = run at hsent hrequest
  cases hsent with
  | latched hlatch => cases hrequest
  | unsent hlatch => cases hrequest
  | sent hlatch hpayload hbody hlength =>
      rw [posts_post] at hrequest
      obtain ⟨attempt, hmade, rfl⟩ := List.mem_map.mp hrequest
      exact latched_of_fatal hmade hresponse (hresponse ▸ hdocumented attempt) hstatus

/-- A call that fails fast. -/
def FailsFast (run : SendRun F) : Prop :=
  posts run.events = [] ∧ ∃ error, run.result = .error (.cloudflare error) ∧ error.fatal = true

theorem failsFast_of_latched (lib : ClientLibrary F) {session : CloudflareSendingSession F}
    {error : SendError F} (h : session.fatalError = some error) (call : SendCall F) :
    FailsFast (runCall lib session call) ∧ (runCall lib session call).session = session := by
  unfold runCall sendMessage
  rw [h]
  exact ⟨⟨rfl, notRetried error, rfl, rfl⟩, rfl⟩

/-- **A session whose latch is set makes no more requests.** -/
theorem failsFast_runCalls {session : CloudflareSendingSession F} {error : SendError F}
    (h : session.fatalError = some error) (calls : List (SendCall F)) :
    ∀ run ∈ runCalls lib session calls, FailsFast run := by
  induction calls with
  | nil => exact List.forall_mem_nil _
  | cons call rest ih =>
      obtain ⟨hfast, hsession⟩ := failsFast_of_latched lib h call
      refine List.forall_mem_cons.mpr ⟨hfast, ?_⟩
      rw [hsession]
      exact ih

/--
**A session never hammers the API.**  Whatever the calls on it are, each makes at most
`MAX_ATTEMPTS` requests, again only after a network error, a 429 or a server error, all with
one body within the limit; and after a call that met a 401 or 403 the later ones make none
and raise a fatal error.
-/
theorem runCalls_restrained (lib : ClientLibrary F) (session : CloudflareSendingSession F)
    (calls : List (SendCall F))
    (hdocumented : ∀ call ∈ calls, ∀ attempt, DocumentedErrors (call.outcomes attempt)) :
    List.Forall₂ Restrained calls (runCalls lib session calls) ∧
      (runCalls lib session calls).Pairwise fun earlier later =>
        MetFatal earlier → FailsFast later := by
  induction calls generalizing session with
  | nil => exact ⟨.nil, .nil⟩
  | cons call rest ih =>
      obtain ⟨hcall, hrest⟩ := List.forall_mem_cons.mp hdocumented
      obtain ⟨hall, hpairs⟩ := ih (runCall lib session call).session hrest
      refine ⟨.cons (restrained_runCall lib session call) hall, .cons ?_ hpairs⟩
      intro later hlater hmet
      obtain ⟨error, hlatch⟩ := latched_of_metFatal hcall hmet
      exact failsFast_runCalls hlatch rest later hlater

/-! A short mail, and a session whose token is revoked after a server error. -/

def helloLeaf : Part := plainLeaf 0

def helloMail : MimeMessage where
  items := [("From".toList, "bob@example.com".toList), ("To".toList, "alice@example.com".toList)]
  root := helloLeaf
  htmlPart := none
  textPart := some helloLeaf
  nodup_ids := by decide
  html_isBody := nofun
  text_isBody := by
    rintro part ⟨⟩
    exact ⟨.head _, by decide⟩
  html_ne_text := nofun

/-- The libraries as they are for bare addresses and answers of integers and texts. -/
def sampleClient : ClientLibrary Empty where
  py := asciiData
  email := sampleEmail
  emailSplitTuples header := if header = [] then [] else [([], header)]
  floats := { isZero := nofun, add := nofun, ofInt := fun _ => none }
  repr
    | .int n => decimalText n
    | _ => text "None"

def helloEnvelope : List Str := ["alice@example.com".toList]

theorem exists_helloBody : ∃ payload body,
    buildPayload sampleClient.toMailLibrary helloMail helloEnvelope = .ok payload ∧
      encodeUtf8 payload.json = .ok body ∧ body.length ≤ MAX_BODY_BYTES := by
  have hall : ((buildPayload sampleClient.toMailLibrary helloMail helloEnvelope).toOption.any
      fun payload => (encodeUtf8 payload.json).toOption.any
        fun body => decide (body.length ≤ MAX_BODY_BYTES)) = true := by
    decide +kernel
  obtain ⟨payload, hpayload, hencodes⟩ := exists_ok hall
  obtain ⟨body, hbody, hlength⟩ := exists_ok hencodes
  exact ⟨payload, body, hpayload, hbody, of_decide_eq_true hlength⟩

def answer (status : Nat) (members : Members Empty) : HttpOutcome Empty :=
  .response { status, retryAfter := none, body := .json (.dict members) }

def unauthorizedAnswer : HttpOutcome Empty :=
  answer 401 [(text "errors", .list [.dict [(text "code", .int 10101)]])]

def revokedCall : SendCall Empty where
  message := helloMail
  smtpToList := helloEnvelope
  outcomes attempt := if attempt = 1 then answer 503 [] else unauthorizedAnswer

theorem revokedCall_documented (attempt : Nat) :
    DocumentedErrors (revokedCall.outcomes attempt) := by
  show DocumentedErrors (if attempt = 1 then answer 503 [] else unauthorizedAnswer)
  split
  · rintro members ⟨⟩
    exact Or.inl rfl
  · rintro members ⟨⟩
    exact Or.inr ⟨_, rfl⟩

theorem revokedCall_metFatal : MetFatal (runCall sampleClient {} revokedCall) := by
  obtain ⟨payload, body, hpayload, hbody, hlength⟩ := exists_helloBody
  have hposts : posts (runCall sampleClient {} revokedCall).events =
      [(body, answer 503 []), (body, unauthorizedAnswer)] := by
    show posts (sendMessage sampleClient {} helloMail helloEnvelope revokedCall.outcomes).events = _
    rw [sendMessage_of_body rfl hpayload hbody hlength]
    rfl
  refine ⟨(body, unauthorizedAnswer), ?_, _, rfl, rfl⟩
  rw [hposts]
  exact List.mem_cons_of_mem _ (List.mem_singleton_self _)

theorem runCalls_restrained_revoked :
    FailsFast (runCall sampleClient (runCall sampleClient {} revokedCall).session revokedCall) := by
  have hdocumented : ∀ call ∈ [revokedCall, revokedCall], ∀ attempt,
      DocumentedErrors (call.outcomes attempt) := by
    intro call hcall attempt
    have hsame : call = revokedCall := by simpa using hcall
    rw [hsame]
    exact revokedCall_documented attempt
  have hpairs := (runCalls_restrained sampleClient {} [revokedCall, revokedCall] hdocumented).2
  exact (List.pairwise_cons.mp hpairs).1 _ (List.mem_singleton_self _) revokedCall_metFatal

end MailCloudflare
