/-
What an answer says about the database.

The handler rolls back before it answers with anything but 200, and a request that raises a
concurrency error is run again from nothing or given up.  So the Worker may send a message
again after any other answer: the request that was answered has left no trace.
-/
import MailCloudflare.Proofs.Dedup

namespace MailCloudflare

open Unicode Python Transition

variable {odoo : Odoo} {w w' : OdooWorld} {a : OdooAction}

/-! ### One request -/

/-- A transaction that writes nothing. -/
def Writes.none : Writes := ⟨[], Option.none⟩

/-- An answer that is not 200, and is one of the contract's. -/
def Response.IsRefusal (response : Response) : Prop :=
  response.status ∈ [401, 404, 422, 500]

/-- Until `message_process` returns nothing is written, and a refusal is given after a rollback. -/
def Run.Clean (run : Run) : Prop :=
  match run.stage with
  | .processing _ _ => run.tx.writes = Writes.none
  | .returned response =>
    response.status = 200 ∨ response.IsRefusal ∧ run.tx.writes = Writes.none
  | .dating _ _ | .raised => True

theorem receive_cases (odoo : Odoo) (request : InboundRequest) (servers : List Server) (time : ℚ) :
    (∃ response, receive odoo request servers time = .returned response ∧ response.IsRefusal) ∨
      ∃ server call, receive odoo request servers time = .processing server call := by
  unfold receive
  split
  · exact Or.inl ⟨_, rfl, by simp [Response.IsRefusal, respond]⟩
  · split
    · split
      · exact Or.inl ⟨_, rfl, by simp [Response.IsRefusal, respond]⟩
      · exact Or.inr ⟨_, _, rfl⟩
    · exact Or.inl ⟨_, rfl, by simp [Response.IsRefusal, respond]⟩

theorem clean_begin (log : List Writes) (request : InboundRequest) (servers : List Server)
    (time : ℚ) : (begin odoo log request servers time).Clean := by
  rcases receive_cases odoo request servers time with
    ⟨response, hreceive, hrefusal⟩ | ⟨server, call, hreceive⟩
  · simp [Run.Clean, begin, hreceive, hrefusal, Writes.none]
  · simp [Run.Clean, begin, hreceive, Writes.none]

/-- The `except` clauses roll back, or leave the request to be run again. -/
theorem clean_handle (run : Run) (raised : Raised) : (run.handle raised).Clean := by
  cases raised with
  | valueError text =>
      exact Or.inr ⟨by simp [Response.IsRefusal, respond], rfl⟩
  | concurrency => trivial
  | other => exact Or.inr ⟨by simp [Response.IsRefusal, respond], rfl⟩

theorem clean_processed {run run' : Run} {result : Except Raised Processed}
    (h : run.processed odoo result = some run') : run'.Clean := by
  unfold Run.processed at h
  split at h
  · cases result with
    | error raised =>
        cases h
        exact clean_handle run raised
    | ok p =>
        cases h
        trivial
  · cases h

theorem clean_dated {run run' : Run} {result : Except Raised (List Row)}
    (h : run.dated result = some run') : run'.Clean := by
  unfold Run.dated at h
  split at h
  · cases result with
    | error raised =>
        cases h
        exact clean_handle run raised
    | ok rows =>
        cases h
        exact Or.inl rfl
  · cases h

/-! ### Every request together -/

/-- What an answer says: 200 that its transaction is in the database, else that nothing is. -/
def Answer.Honest (log : List Writes) (answer : Answer) : Prop :=
  (answer.response.status = 200 ∧ ∃ tx, answer.committed = some tx ∧ tx.writes ∈ log) ∨
    (answer.response.IsRefusal ∧ ∀ tx, answer.committed = some tx → tx.writes = Writes.none)

theorem Answer.Honest.cons {log : List Writes} {answer : Answer} (h : answer.Honest log)
    (writes : Writes) : answer.Honest (writes :: log) := by
  refine h.imp_left ?_
  rintro ⟨hstatus, tx, htx, hmem⟩
  exact ⟨hstatus, tx, htx, List.mem_cons_of_mem writes hmem⟩

/-- What else uses the database writes only what `foreign` says. -/
def OthersWrite (foreign : Writes → Prop) (_ : OdooWorld) : OdooAction → Prop
  | .other writes => foreign writes
  | _ => True

/-- Where a committed transaction comes from. -/
def FromAnswer (foreign : Writes → Prop) (answers : List Answer) (c : Writes) : Prop :=
  foreign c ∨ c = Writes.none ∨ ∃ answer ∈ answers, answer.response.status = 200 ∧
    ∃ tx, answer.committed = some tx ∧ tx.writes = c

structure Contract (foreign : Writes → Prop) (w : OdooWorld) : Prop where
  runs : ∀ n run, w.runs n = some run → run.Clean
  answers : ∀ answer ∈ w.answers, answer.Honest w.log
  log : ∀ c ∈ w.log, FromAnswer foreign w.answers c

theorem FromAnswer.cons {foreign : Writes → Prop} {answers : List Answer} {c : Writes}
    (h : FromAnswer foreign answers c) (answer : Answer) :
    FromAnswer foreign (answer :: answers) c := by
  refine h.imp_right (Or.imp_right ?_)
  rintro ⟨old, hold, hanswer⟩
  exact ⟨old, List.mem_cons_of_mem answer hold, hanswer⟩

variable {foreign : Writes → Prop}

/-- One request moves and nothing commits. -/
theorem Contract.setRun (h : Contract foreign w) {n : Nat} {run' : Option Run}
    (hrun : ∀ run, run' = some run → run.Clean) : Contract foreign (w.setRun n run') where
  runs := by
    intro k run hk
    by_cases hn : k = n
    · subst hn
      exact hrun run (by simpa [OdooWorld.setRun] using hk)
    · exact h.runs k run (by simpa [OdooWorld.setRun, hn] using hk)
  answers := h.answers
  log := h.log

/-- One request is over and nothing commits. -/
theorem Contract.setNone (h : Contract foreign w) {n : Nat} :
    Contract foreign (w.setRun n none) :=
  h.setRun (by simp)

/-- A request has returned, commits and is answered. -/
theorem Contract.commit (h : Contract foreign w) {n : Nat} {run : Run} {response : Response}
    (hrun : w.runs n = some run) (hstage : run.stage = .returned response) :
    Contract foreign { w.setRun n none with
      log := run.tx.writes :: w.log
      answers := ⟨run.request, response, some run.tx⟩ :: w.answers } := by
  have hclean := h.runs n run hrun
  simp only [Run.Clean, hstage] at hclean
  refine ⟨h.setNone.runs, ?_, ?_⟩
  · intro answer hanswer
    rcases List.mem_cons.mp hanswer with rfl | hanswer
    · rcases hclean with hok | ⟨hrefusal, hnothing⟩
      · exact Or.inl ⟨hok, run.tx, rfl, List.mem_cons_self⟩
      · refine Or.inr ⟨hrefusal, fun tx htx => ?_⟩
        cases htx
        exact hnothing
    · exact (h.answers answer hanswer).cons _
  · intro c hc
    rcases List.mem_cons.mp hc with rfl | hc
    · rcases hclean with hok | ⟨-, hnothing⟩
      · exact Or.inr (Or.inr ⟨_, List.mem_cons_self, hok, run.tx, rfl, rfl⟩)
      · exact Or.inr (Or.inl hnothing)
    · exact (h.log c hc).cons _

theorem contract_step (hs : OdooStep odoo w a w') (hok : OthersWrite foreign w a)
    (h : Contract foreign w) : Contract foreign w' := by
  cases hs with
  | arrived | retried =>
      refine h.setRun fun run hrun => ?_
      cases hrun
      exact clean_begin ..
  | processed hrun hmove =>
      refine h.setRun fun run hnew => ?_
      cases hnew
      exact clean_processed hmove
  | dated hrun hmove =>
      refine h.setRun fun run hnew => ?_
      cases hnew
      exact clean_dated hmove
  | commitFailed =>
      refine h.setRun fun run hnew => ?_
      cases hnew
      trivial
  | killed => exact h.setNone
  | @gaveUp n =>
      refine ⟨h.setNone.runs, ?_, ?_⟩
      · intro answer hanswer
        rcases List.mem_cons.mp hanswer with rfl | hanswer
        · exact Or.inr ⟨by simp [Response.IsRefusal, respond], by simp⟩
        · exact h.answers answer hanswer
      · exact fun c hc => (h.log c hc).cons _
  | @other writes =>
      refine ⟨h.runs, fun answer hanswer => (h.answers answer hanswer).cons writes, ?_⟩
      intro c hc
      rcases List.mem_cons.mp hc with rfl | hc
      · exact Or.inl hok
      · exact h.log c hc
  | committed hrun hstage => exact h.commit hrun hstage

theorem contract_reachable (h : Reachable (odooStep odoo) (OthersWrite foreign) .init w) :
    Contract foreign w := by
  refine Reachable.invariant ?_ ?_ h
  · refine ⟨?_, ?_, ?_⟩ <;> simp [OdooWorld.init]
  · intro w a w' _ hinv hok hs
    exact contract_step (odooStep_cases hs) hok hinv

/--
**Only 200 leaves a trace.**  However requests overlap, fail, are run again or are given up,
each is answered with 200, when its transaction has been committed, or with 401, 404, 422 or
500, when it has written nothing; and what is in the database has been written by something
else or belongs to a request that was answered 200.
-/
theorem answers_honest (h : Reachable (odooStep odoo) (OthersWrite foreign) .init w) :
    (∀ answer ∈ w.answers, answer.Honest w.log) ∧
      ∀ c ∈ w.log, FromAnswer foreign w.answers c :=
  ⟨(contract_reachable h).answers, (contract_reachable h).log⟩

instance (w : OdooWorld) : DecidablePred (OthersWrite (fun _ => False) w)
  | .other _ => isFalse id
  | .arrive .. | .processed .. | .dated .. | .commit _ | .commitFailed _ | .retry .. | .giveUp _
  | .kill _ => isTrue trivial

/-- A key nobody has, a delivery that fails, and the same delivery again. -/
def refusedRun : List OdooAction :=
  [.arrive 0 sampleRequest [] 1700000001, .commit 0, .arrive 1 sampleRequest [sampleServer] 1700000002,
    .processed 1 (.ok ⟨some 7, true, []⟩), .dated 1 (.error .other), .commit 1,
    .arrive 2 sampleRequest [sampleServer] 1700000003, .processed 2 (.ok ⟨some 8, true, []⟩),
    .dated 2 (.ok [.server 1]), .commit 2]

theorem answers_honest_refused : ∃ w : OdooWorld,
    w.answers.map (·.response.status) = [200, 500, 404] ∧
      (∀ answer ∈ w.answers, answer.Honest w.log) ∧
      ∀ c ∈ w.log, FromAnswer (fun _ => False) w.answers c := by
  have hrun : (runActions (odooStep sampleOdoo) (OthersWrite fun _ => False) .init
      refusedRun).any (fun w => w.answers.map (·.response.status) = [200, 500, 404]) = true := by
    decide +kernel
  obtain ⟨w, hreach, hgood⟩ := exists_reachable_of_runActions refusedRun hrun
  exact ⟨w, by simpa using hgood, answers_honest hreach⟩

end MailCloudflare
