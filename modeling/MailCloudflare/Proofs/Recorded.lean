/-
What the queue records is what Odoo answered.

An answer is written as JSON at one end and read at the other, so the first half is a round
trip: the thread id and the error of a response are the ones the Worker finds in its body.
The second half is whose answer it is.  A pass waits for one answer at a time, the one to
what was POSTed last, and that was POSTed for the row the pass is at; what is settled is
written into this row.  So the status, the error and the record a row shows belong to an
answer that Odoo gave to the message of this row.
-/
import MailCloudflare.Deployment.Answer
import MailCloudflare.Proofs.Delivery

namespace MailCloudflare

open Unicode JavaScript Python Keyed Transition

/-! ### The text of an answer -/

/-- A text without surrogates. -/
def IsStr (t : Text) : Prop := ∃ s : Str, t = ofStr s

theorem isStr_text (s : String) : IsStr (text s) := ⟨s.toList, rfl⟩

theorem IsStr.append {a b : Text} (ha : IsStr a) (hb : IsStr b) : IsStr (a ++ b) := by
  obtain ⟨s, rfl⟩ := ha
  obtain ⟨t, rfl⟩ := hb
  exact ⟨s ++ t, (List.map_append ..).symm⟩

theorem isStr_escapeChar (c : Char) : IsStr (escapeChar (.char c)) := by
  unfold escapeChar
  split_ifs
  · exact isStr_text _
  · exact isStr_text _
  · exact isStr_text _
  · exact isStr_text _
  · exact isStr_text _
  · exact isStr_text _
  · exact isStr_text _
  · exact (isStr_text _).append ⟨_, rfl⟩
  · exact ⟨[c], rfl⟩

theorem isStr_quote (s : Str) : IsStr (quote (ofStr s)) := by
  have hescaped : IsStr ((ofStr s).flatMap escapeChar) := by
    induction s with
    | nil => exact ⟨[], rfl⟩
    | cons c s ih => exact (isStr_escapeChar c).append ih
  exact ((isStr_text _).append hescaped).append (isStr_text _)

theorem isStr_decimalText (n : Int) : IsStr (decimalText n) := by
  unfold decimalText
  split
  · exact ⟨'-' :: Nat.toDigits 10 n.natAbs, rfl⟩
  · exact ⟨_, rfl⟩

theorem isStr_dumps_orFalse {α : Type} {f : α → Value Empty} (h : ∀ a, IsStr (dumps (f a)))
    (value : Option α) : IsStr (dumps (orFalse value f)) := by
  cases value with
  | none => exact isStr_text "false"
  | some a => exact h a

theorem isStr_dumpsMembers {members : List (Text × Value Empty)}
    (h : ∀ row ∈ members, IsStr row.1 ∧ IsStr (dumps row.2)) :
    IsStr ((text ", ").intercalate (dumpsMembers members)) := by
  induction members with
  | nil => exact ⟨[], rfl⟩
  | cons row rest ih =>
      obtain ⟨name, value⟩ := row
      obtain ⟨⟨⟨s, hname⟩, hvalue⟩, hrest⟩ := List.forall_mem_cons.mp h
      have hfirst : IsStr (quote name ++ text ": " ++ dumps value) := by
        rw [show name = ofStr s from hname]
        exact ((isStr_quote s).append (isStr_text _)).append hvalue
      cases rest with
      | nil =>
          show IsStr ((text ", ").intercalate [_])
          rw [intercalate_single]
          exact hfirst
      | cons next others =>
          show IsStr ((text ", ").intercalate (_ :: _ :: dumpsMembers others))
          rw [intercalate_pair]
          exact hfirst.append ((isStr_text _).append (ih hrest))

theorem Response.isStr_members (response : Response) :
    ∀ row ∈ response.members, IsStr row.1 ∧ IsStr (dumps row.2) := by
  have hentry : ∀ (name : String) (value : Value Empty), IsStr (dumps value) →
      ∀ row ∈ entry name value, IsStr row.1 ∧ IsStr (dumps row.2) := by
    intro name value hvalue row hrow
    rw [List.mem_singleton.mp hrow]
    exact ⟨isStr_text name, hvalue⟩
  have hok : IsStr (dumps (.bool response.ok)) := isStr_text _
  have hvalues : ∀ threadId id, ∀ row ∈ entry "thread_id" (threadValue threadId) ++
      entry "id" (orFalse id strValue), IsStr row.1 ∧ IsStr (dumps row.2) := by
    intro threadId id
    refine List.forall_mem_append.mpr ⟨hentry _ _ ?_, hentry _ _ ?_⟩
    · exact isStr_dumps_orFalse (f := fun n : Nat => .int n) (fun n => isStr_decimalText n) threadId
    · exact isStr_dumps_orFalse isStr_quote id
  refine List.forall_mem_append.mpr ⟨List.forall_mem_append.mpr ⟨hentry _ _ hok, ?_⟩, ?_⟩
  · cases response.values with
    | none => exact List.forall_mem_nil _
    | some values => exact hvalues values.1 values.2
  · cases response.error with
    | none => exact List.forall_mem_nil _
    | some error => exact hentry _ _ (isStr_quote error)

/-- Every response can be written: an object in braces. -/
theorem Response.exists_text (response : Response) :
    ∃ s, response.text = some ('\x7b' :: (s ++ ['\x7d'])) := by
  obtain ⟨s, hs⟩ := isStr_dumpsMembers response.isStr_members
  have hdumps : dumps response.payload = ofStr ('\x7b' :: (s ++ ['\x7d'])) := by
    show Python.text "\x7b" ++ (Python.text ", ").intercalate (dumpsMembers response.members) ++
      Python.text "\x7d" = _
    rw [hs]
    simp [ofStr, Python.text]
  exact ⟨s, by rw [Response.text, hdumps, characters_ofStr]⟩

/-! ### Reading it -/

variable {env : Worker} {response : Response} {s : Str}

theorem textUnits_ofStr (s : Str) : textUnits (ofStr s) = units s := by
  induction s with
  | nil => rfl
  | cons c s ih =>
      show unitsOfChar c ++ textUnits (ofStr s) = _
      rw [ih, units_cons]

/-- A double can hold the number of the record. -/
def Response.IsExact (response : Response) : Prop :=
  ∀ n ∈ response.threadId, n ≤ MAX_SAFE_INTEGER

theorem isExactMembers_eq (members : List (Text × Value Empty)) :
    isExactMembers members = members.all fun row => isExact row.2 := by
  induction members with
  | nil => rfl
  | cons row rest ih => rw [List.all_cons, ← ih]; rfl

theorem Response.isExact_payload (h : response.IsExact) : isExact response.payload = true := by
  have hthread : ∀ threadId id, response.values = some (threadId, id) →
      isExact (threadValue threadId) = true := by
    intro threadId id hvalues
    cases threadId with
    | none => rfl
    | some n => exact decide_eq_true (h n (by rw [Response.threadId, hvalues]; rfl))
  have hid : ∀ id, isExact (orFalse id strValue) = true := by
    intro id
    cases id <;> rfl
  have herror : ∀ error : Option Str,
      (optional "error" error strValue).all (fun row => isExact row.2) = true := by
    intro error
    cases error <;> rfl
  show isExactMembers response.members = true
  rw [isExactMembers_eq, Response.members, List.all_append, List.all_append, herror, Bool.and_true]
  cases hvalues : response.values with
  | none => rfl
  | some values =>
      simp [entry, isExact, hthread values.1 values.2 hvalues, hid]

/-- `JSON.parse` of the body of an answer. -/
theorem jsonParse_text (hparse : ParsesJson env) (hexact : response.IsExact)
    (hs : response.text = some s) : env.jsonParse (units s) = some (toJson response.payload) := by
  refine hparse s response.payload ?_ (Response.isExact_payload hexact)
  rw [← ofStr_of_characters hs, loads_dumps]

/-- The body stands between braces, and nothing is trimmed off it. -/
theorem trim_text (hs : response.text = some s) : trim (units s) = units s := by
  obtain ⟨inner, hinner⟩ := response.exists_text
  rw [hinner, Option.some.injEq] at hs
  have hunits : units s = units ['\x7b'] ++ (units inner ++ units ['\x7d']) := by
    rw [← hs, ← List.singleton_append, units_append, units_append]
  rw [hunits]
  refine trim_eq_self ?_ ?_
  · rintro u ⟨⟩
    decide
  · rw [← List.append_assoc, show units ['\x7d'] = [0x7D] by decide, List.getLast?_concat]
    rintro u ⟨⟩
    decide

theorem Response.field?_threadId (response : Response) :
    (toJson response.payload).field? (js "thread_id") =
      response.values.map fun values => toJson (threadValue values.1) := by
  obtain ⟨status, ok, error, values⟩ := response
  cases values <;> cases error <;> rfl

theorem Response.field?_error (response : Response) :
    (toJson response.payload).field? (js "error") =
      response.error.map fun error => .str (units error) := by
  obtain ⟨status, ok, error, values⟩ := response
  cases error with
  | none => cases values <;> rfl
  | some error =>
      rw [Option.map_some, ← textUnits_ofStr error]
      cases values <;> rfl

/-- The thread id of an answer is read back. -/
theorem threadIdOf_text (hparse : ParsesJson env) (hexact : response.IsExact)
    (hs : response.text = some s) :
    threadIdOf env (some (units s)) = response.threadId.map fun n : Nat => (n : ℚ) := by
  rw [threadIdOf, Option.bind_some, jsonParse_text hparse hexact hs, Option.bind_some,
    response.field?_threadId, Response.threadId]
  cases response.values with
  | none => rfl
  | some values =>
      cases hthread : values.1 with
      | none => simp [hthread, threadValue, orFalse, toJson]
      | some n =>
          rw [Option.map_some, Option.bind_some, hthread]
          rfl

/-- The error of an answer is read back. -/
theorem errorOf_text (hparse : ParsesJson env) (hexact : response.IsExact)
    (hs : response.text = some s) {error : Str} (herror : response.error = some error)
    (status : Nat) :
    errorOf env status (some (units s)) =
      (httpError status (units error)).take MAX_ERROR_CHARS := by
  have hfield := response.field?_error
  rw [herror, Option.map_some] at hfield
  simp only [errorOf, Option.map_some, Option.getD_some, trim_text hs,
    jsonParse_text hparse hexact hs, Option.bind_some, hfield]

/-! ### The attempt that is settled -/

variable {w w' : World} {p : Pass} {id : String} {row snapshot : InboxRow} {due : List InboxRow}
  {config : LoadedConfig} {status now : Nat} {body : Option Units}

/-- What a row says about its last attempt. -/
structure SaysAnswered (env : Worker) (status : Nat) (body : Option Units) (row : InboxRow) :
    Prop where
  lastStatus : row.lastStatus = some status
  threadId : row.threadId =
    if (classifyStatus status).toVerdict = .delivered then threadIdOf env body else none
  lastError : row.lastError =
    if (classifyStatus status).toVerdict = .delivered then none
    else some (columnText ((errorOf env status body).take MAX_ERROR_CHARS))

theorem row_settleAttempt {verdict : Verdict} {error : Option Units} {threadId : Option ℚ}
    (h : (w.settleAttempt p snapshot due config verdict (some status) error threadId now).queue.inbox.get?
      id = some row) :
    w.queue.inbox.get? id = some row ∨
      snapshot.id = id ∧ row.lastStatus = some status ∧ row.threadId = threadId ∧
        row.lastError = error.map fun e => columnText (e.take MAX_ERROR_CHARS) := by
  obtain ⟨delay, -, hsettle⟩ := settle_eq w.queue.inbox snapshot.id config (snapshot.attempts + 1)
    verdict (some status) error threadId now
  simp only [World.settleAttempt, hsettle] at h
  have hget : (w.queue.inbox.updateWhere (InboxRow.isPendingId snapshot.id)
      (settlementOf config (snapshot.attempts + 1) verdict (some status) error threadId now
        delay).apply (Settlement.apply_id _)).get? id = some row := h
  rw [Table.get?_updateWhere, Option.map_eq_some_iff] at hget
  obtain ⟨old, hold, hrow⟩ := hget
  split at hrow
  · rename_i hpending
    have hid : old.id = snapshot.id := by
      simp only [InboxRow.isPendingId, Bool.and_eq_true, decide_eq_true_eq] at hpending
      exact hpending.1
    refine Or.inr ⟨hid.symm.trans (Table.key_of_get? hold), ?_⟩
    rw [← hrow]
    exact ⟨rfl, rfl, rfl⟩
  · exact Or.inl (hrow ▸ hold)

/-- What the answer says is written into the row the pass is at. -/
theorem row_answered (h : step env w (.answered body now) = some w') (hpass : w.pass = some p)
    (hstage : p.stage = .answering snapshot due config status)
    (hrow : w'.queue.inbox.get? id = some row) :
    w.queue.inbox.get? id = some row ∨ snapshot.id = id ∧ SaysAnswered env status body row := by
  simp only [step, World.answered, hpass, hstage] at h
  split at h
  · rename_i hdelivered
    cases h
    rcases row_settleAttempt hrow with hold | ⟨hid, hstatus, hthread, herror⟩
    · exact Or.inl hold
    · refine Or.inr ⟨hid, hstatus, ?_, ?_⟩
      · rw [hthread, if_pos hdelivered]
      · rw [herror, if_pos hdelivered]
        rfl
  · rename_i hdelivered
    cases h
    rcases row_settleAttempt hrow with hold | ⟨hid, hstatus, hthread, herror⟩
    · exact Or.inl hold
    · refine Or.inr ⟨hid, hstatus, ?_, ?_⟩
      · rw [hthread, if_neg hdelivered]
      · rw [herror, if_neg hdelivered]
        rfl

/-! ### Whose answer it is -/

variable {odoo : Odoo} {network : Network} {d d' : Deployment} {a : Action}

/-- Odoo gave this answer to a POST of the message. -/
def GaveAnswer (network : Network) (d : Deployment) (id : String) (answer : Answer) : Prop :=
  answer ∈ d.odoo.answers ∧
    ∃ n request, .posted id n request ∈ d.worker.history ∧ answer.request = network.arrival request

theorem GaveAnswer.mono {answer : Answer} (h : GaveAnswer network d id answer)
    (hhistory : ∀ e ∈ d.worker.history, e ∈ d'.worker.history)
    (hanswers : ∀ answer ∈ d.odoo.answers, answer ∈ d'.odoo.answers) :
    GaveAnswer network d' id answer := by
  obtain ⟨hanswer, n, request, hposted, hrequest⟩ := h
  exact ⟨hanswers answer hanswer, n, request, hhistory _ hposted, hrequest⟩

/--
The row says what the answer said: where it is delivered to, or why it is not.  The cut may
leave half a pair of surrogates, and then the column holds U+FFFD in its place.
-/
structure Records (answer : Answer) (row : InboxRow) : Prop where
  lastStatus : row.lastStatus = some answer.response.status
  delivered : IsSuccess answer.response.status → row.lastError = none ∧
    (answer.response.Speaks → answer.response.IsExact →
      row.threadId = answer.response.threadId.map fun n : Nat => (n : ℚ))
  refused : ¬ IsSuccess answer.response.status → row.threadId = none ∧
    (answer.response.IsExact → ∀ error ∈ answer.response.error, row.lastError =
      some (columnText
        ((httpError answer.response.status (units error)).take MAX_ERROR_CHARS)))

theorem toVerdict_delivered_iff :
    (classifyStatus status).toVerdict = .delivered ↔ IsSuccess status := by
  constructor
  · intro h
    refine classifyStatus_delivered ?_
    cases hclass : classifyStatus status with
    | delivered => rfl
    | retry | rejected =>
        rw [hclass] at h
        cases h
  · intro h
    rw [show classifyStatus status = .delivered from if_pos h]
    rfl

/-- A row that was written from the body of an answer says what the answer said. -/
theorem records_of_saysAnswered (hparse : ParsesJson env) {answer : Answer}
    (hstatus : answer.response.status = status)
    (hbody : answer.response.Speaks → ∃ s ∈ answer.response.text, body = some (units s))
    (h : SaysAnswered env status body row) : Records answer row := by
  subst hstatus
  obtain ⟨hlast, hthread, herror⟩ := h
  simp only [toVerdict_delivered_iff] at hthread herror
  refine ⟨hlast, ?_, ?_⟩
  · intro hsuccess
    rw [if_pos hsuccess] at hthread herror
    refine ⟨herror, ?_⟩
    intro hspeaks hexact
    obtain ⟨s, hs, rfl⟩ := hbody hspeaks
    rw [hthread, threadIdOf_text hparse hexact hs]
  · intro hfailure
    rw [if_neg hfailure] at hthread herror
    refine ⟨hthread, ?_⟩
    intro hexact error hgiven
    obtain ⟨s, hs, rfl⟩ := hbody (Or.inl (by rw [hgiven]; rfl))
    rw [herror, errorOf_text hparse hexact hs hgiven, List.take_take, Nat.min_self]

/--
The POST under way, or awaiting an answer, is of the row the pass is at, and rows say what
the answers to their own POSTs said.
-/
structure Awaits (network : Network) (d : Deployment) : Prop where
  posted : ∀ p row due config, d.worker.pass = some p →
    (p.stage = .posting row due config ∨ ∃ status, p.stage = .answering row due config status) →
      ∃ n request, lastPosted d.worker.history = some request ∧
        .posted row.id n request ∈ d.worker.history
  row : ∀ id row, d.worker.queue.inbox.get? id = some row → row.lastStatus.isSome = true →
    ∃ answer, GaveAnswer network d id answer ∧ Records answer row

theorem awaits_posted_step (hs : Step env w a w')
    (h : ∀ p row due config, w.pass = some p →
      (p.stage = .posting row due config ∨ ∃ status, p.stage = .answering row due config status) →
        ∃ n request, lastPosted w.history = some request ∧ .posted row.id n request ∈ w.history) :
    ∀ p row due config, w'.pass = some p →
      (p.stage = .posting row due config ∨ ∃ status, p.stage = .answering row due config status) →
        ∃ n request, lastPosted w'.history = some request ∧
          .posted row.id n request ∈ w'.history := by
  intro p row due config hp hstage
  cases postChange hs with
  | kept hlast hkept =>
      have hold : ∃ p₀, w.pass = some p₀ ∧ (p₀.stage = .posting row due config ∨
          ∃ status, p₀.stage = .answering row due config status) := by
        rcases hstage with hposting | ⟨status, hanswering⟩
        · exact ⟨p, hkept p row due config hp hposting, Or.inl hposting⟩
        · rcases answering_cases hs hp hanswering with hsame | ⟨p₀, now, hpass, hposting, -⟩
          · exact ⟨p, hsame, Or.inr ⟨status, hanswering⟩⟩
          · exact ⟨p₀, hpass, Or.inl hposting⟩
      obtain ⟨p₀, hpass, hstage₀⟩ := hold
      obtain ⟨n, request, hrequest, hposted⟩ := h p₀ row due config hpass hstage₀
      exact ⟨n, request, hlast.trans hrequest, hs.mem_history hposted⟩
  | posted hpass hlog =>
      rw [hpass, Option.some.injEq] at hp
      subst hp
      rcases hstage with hposting | ⟨status, hanswering⟩
      · cases hposting
        rw [hlog]
        exact ⟨_, _, rfl, List.mem_cons_self⟩
      · cases hanswering

theorem awaits_row_step (hparse : ParsesJson env) (hs : step env d.worker a = some d'.worker)
    (hodoo : d'.odoo = d.odoo) (hok : RelaysBody network d (.worker a)) (h : Awaits network d) :
    ∀ id row, d'.worker.queue.inbox.get? id = some row → row.lastStatus.isSome = true →
      ∃ answer, GaveAnswer network d' id answer ∧ Records answer row := by
  intro id row hrow hanswered
  have hstep := step_cases hs
  have hold : ∀ old, d.worker.queue.inbox.get? id = some old → old.lastStatus = row.lastStatus →
      old.threadId = row.threadId → old.lastError = row.lastError →
      ∃ answer, GaveAnswer network d' id answer ∧ Records answer row := by
    intro old hget hstatus hthread herror
    obtain ⟨answer, hgave, hlast, hdelivered, hrefused⟩ :=
      h.row id old hget (by rw [hstatus]; exact hanswered)
    refine ⟨answer, hgave.mono (fun _ he => hstep.mem_history he) fun _ hmem => hodoo ▸ hmem, ?_⟩
    rw [hstatus] at hlast
    rw [hthread, herror] at hdelivered hrefused
    exact ⟨hlast, hdelivered, hrefused⟩
  cases hstep.rowFrom hrow with
  | kept hget => exact hold row hget rfl rfl rfl
  | inserted => cases hanswered
  | requeued hget => exact hold _ hget rfl rfl rfl
  | @settled p old snapshot due config verdict status error threadId delay hpass hsettling =>
      generalize hstage : p.stage = stage at hsettling
      cases hsettling with
      | missing | unanswered => cases hanswered
      | @answered _ _ _ status body now =>
          rcases row_answered hs hpass hstage hrow with hget | ⟨rfl, hsays⟩
          · exact hold _ hget rfl rfl rfl
          · obtain ⟨request, hrequest, answer, hanswer, hsame, hstatus, hbody⟩ :=
              hok p hpass status (by rw [hstage]; rfl)
            obtain ⟨n, request', hlast, hposted⟩ :=
              h.posted p snapshot due config hpass (Or.inr ⟨status, hstage⟩)
            obtain rfl : request' = request := Option.some.inj (hlast.symm.trans hrequest)
            exact ⟨answer, ⟨hodoo ▸ hanswer, n, request', hstep.mem_history hposted, hsame⟩,
              records_of_saysAnswered hparse hstatus hbody hsays⟩

theorem awaits_step (hparse : ParsesJson env) {b : DeploymentAction}
    (hs : deploymentStep env odoo d b = some d') (hok : RelaysBody network d b)
    (h : Awaits network d) : Awaits network d' := by
  rcases deploymentStep_cases hs with ⟨a, rfl, hstep, hodoo⟩ | ⟨a, rfl, hstep, hworker⟩
  · exact ⟨awaits_posted_step (step_cases hstep) h.posted,
      awaits_row_step hparse hstep hodoo hok h⟩
  · refine ⟨?_, ?_⟩
    · rw [hworker]
      exact h.posted
    · intro id row hrow hanswered
      rw [hworker] at hrow
      obtain ⟨answer, hgave, hrecords⟩ := h.row id row hrow hanswered
      exact ⟨answer, hgave.mono (fun _ he => hworker ▸ he) fun _ hmem =>
        mem_answers (odooStep_cases hstep) hmem, hrecords⟩

/--
**What the queue records is what Odoo answered.**  Whatever interleaves, a row that shows a
status shows the one of an answer Odoo gave to a POST of that very message, and with it the
record the message was posted on, or the reason it was refused for, cut to its length as
the column keeps it.
-/
theorem recorded_as_answered (hparse : ParsesJson env)
    (h : Reachable (deploymentStep env odoo) (RelaysBody network) .init d) :
    ∀ row ∈ d.worker.queue.inbox.rows, row.lastStatus.isSome = true →
      ∃ answer, GaveAnswer network d row.id answer ∧ Records answer row := by
  have hawaits : Awaits network d := by
    refine Reachable.invariant ?_ ?_ h
    · refine ⟨?_, ?_⟩ <;> simp [Deployment.init, World.init, Queue.init]
    · intro d b d' _ hinv hok hs
      exact awaits_step hparse hs hok hinv
  intro row hrow hanswered
  exact hawaits.row row.id row (Table.get?_of_mem hrow) hanswered

/-! ### An answer written out -/

instance (response : Response) : Decidable response.Speaks :=
  inferInstanceAs (Decidable (_ ∨ _))

instance (network : Network) (d : Deployment) (status : Nat) (body : Option Units) :
    Decidable (IsBodyOf network d status body) :=
  inferInstanceAs (Decidable (∃ request ∈ lastPosted d.worker.history, ∃ answer ∈ d.odoo.answers,
    answer.request = network.arrival request ∧ answer.response.status = status ∧
      (answer.response.Speaks → ∃ s ∈ answer.response.text, body = some (units s))))

instance (network : Network) (d : Deployment) : DecidablePred (RelaysBody network d)
  | .worker (.answered body _) =>
    inferInstanceAs (Decidable (∀ p ∈ d.worker.pass, ∀ status ∈ p.stage.awaited,
      IsBodyOf network d status body))
  | .odoo _ => isTrue trivial
  | .worker (.email ..) | .worker (.putReturn ..) | .worker (.emailEnqueue ..)
  | .worker (.emailReturn ..) | .worker (.enqueue ..) | .worker (.retry ..)
  | .worker (.retryAll ..) | .worker (.remove ..) | .worker (.removeObject ..)
  | .worker (.removeReturn ..) | .worker (.alarm ..) | .worker .deliverNext | .worker .getObject
  | .worker (.getReturn ..) | .worker (.fetched ..) | .worker (.purgeExpired ..)
  | .worker (.purgeObject ..) | .worker (.purgeReturn ..) | .worker (.rearm ..)
  | .worker .crash => isTrue trivial

/-- A Worker that reads JSON. -/
def readingWorker : Worker :=
  { signingWorker with
    jsonParse := fun body => (loads (ofStr ((codePoints body).map scalarOf))).map toJson }

theorem parsesJson_readingWorker : ParsesJson readingWorker := by
  intro s value hread _
  have hscalars : (codePoints (units s)).map scalarOf = s := by
    rw [codePoints_units, List.map_map]
    exact (List.map_congr_left fun c _ => scalarOf_toNat c).trans (List.map_id s)
  show (loads (ofStr ((codePoints (units s)).map scalarOf))).map toJson = _
  rw [hscalars, hread, Option.map_some]

/-- A delivery with its answer. -/
def recordedRun : List DeploymentAction :=
  (deliveredRun.take 8).map .worker ++
    [.odoo (.arrive 0 samplePost [sampleServer] 1), .odoo (.processed 0 (.ok ⟨some 7, true, []⟩)),
      .odoo (.dated 0 (.ok [.server 1])), .odoo (.commit 0), .worker (.fetched (.response 200) 8),
      .worker (.answered
        ((respond 200 none (some (some 7, some "A".toList))).text.map units) 9)]

theorem recorded_as_answered_recorded : ∃ d : Deployment,
    d.worker.queue.inbox.rows.map (fun row => (row.lastStatus, row.threadId)) =
        [(some 200, some 7)] ∧
      ∀ row ∈ d.worker.queue.inbox.rows, row.lastStatus.isSome = true →
        ∃ answer, GaveAnswer sampleNetwork d row.id answer ∧ Records answer row := by
  have hrun : (runActions (deploymentStep readingWorker sampleOdoo) (RelaysBody sampleNetwork) .init
      recordedRun).any (fun d => d.worker.queue.inbox.rows.map (fun row =>
        (row.lastStatus, row.threadId)) = [(some 200, some 7)]) = true := by decide +kernel
  obtain ⟨d, hreach, hgood⟩ := exists_reachable_of_runActions recordedRun hrun
  exact ⟨d, of_decide_eq_true hgood, recorded_as_answered parsesJson_readingWorker hreach⟩

end MailCloudflare
