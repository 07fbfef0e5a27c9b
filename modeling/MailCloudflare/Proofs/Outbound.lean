/-
Every request to Cloudflare is attributable.

The constraint keeps every server of the type supplied with an account, a token and a FROM
filter: it runs whenever a field it reads is written, and what does not write one changes
none.  A session keeps what its server had when it was opened, for as long as it is neither
replaced nor closed.  So whatever a call sends goes to the account and with the token its
server had at the very connect that returned the session, and says what was handed to it;
and core is never given such a server to reach by SMTP.
-/
import MailCloudflare.Base.Transition
import MailCloudflare.Odoo.MailServer
import MailCloudflare.Proofs.Wire

namespace MailCloudflare

open Unicode Python Keyed Transition

variable {F : Type} {lib : MailServerLibrary F} {servers servers' : MailServers} {id : Nat}
  {ids : List Nat} {record : ServerRecord} {values : Values}

/-! ### The constraint -/

/-- A server that can send. -/
structure Credentialed (record : ServerRecord) : Prop where
  type : usesCloudflare record = true
  accountId : (record CLOUDFLARE_ACCOUNT_ID).truthy = true
  apiToken : (record CLOUDFLARE_API_TOKEN).truthy = true
  fromFilter : (record FROM_FILTER).truthy = true

/-- Every server of the type can send. -/
def MailServersOk (servers : MailServers) : Prop :=
  ∀ id record, servers.records id = some record → usesCloudflare record = true →
    Credentialed record

theorem credentialed_of_check (h : checkCredentials record = .ok ())
    (htype : usesCloudflare record = true) : Credentialed record := by
  unfold checkCredentials at h
  simp only [htype, Bool.not_true, Bool.false_eq_true, if_false, Bool.not_eq_true'] at h
  split at h
  · cases h
  · split at h
    · cases h
    · split at h
      · cases h
      · rename_i haccount htoken hfilter
        exact ⟨htype, by simpa using haccount, by simpa using htoken, by simpa using hfilter⟩

theorem forM_eq_ok {f : Nat → Except MailServerError Unit} (h : forM ids f = .ok ()) :
    ∀ id ∈ ids, f id = .ok () := by
  induction ids with
  | nil => exact List.forall_mem_nil _
  | cons first rest ih =>
      rw [List.forM_cons] at h
      cases hfirst : f first with
      | error e =>
          rw [hfirst] at h
          cases h
      | ok u =>
          rw [hfirst] at h
          exact List.forall_mem_cons.mpr ⟨hfirst, ih h⟩

theorem credentialed_of_checked (h : checkCloudflareCredentials servers ids = .ok ())
    (hid : id ∈ ids) (hrecord : servers.records id = some record)
    (htype : usesCloudflare record = true) : Credentialed record := by
  have hcheck := forM_eq_ok h id hid
  rw [hrecord] at hcheck
  exact credentialed_of_check hcheck htype

/-! ### What writes no credentials -/

/-- The second table has no server that the first has not, with the constrained fields as they were. -/
def SameCredentials (servers servers' : MailServers) : Prop :=
  ∀ id record', servers'.records id = some record' →
    ∃ record, servers.records id = some record ∧ ∀ name ∈ CONSTRAINED, record' name = record name

theorem SameCredentials.refl (servers : MailServers) : SameCredentials servers servers :=
  fun _ record hrecord => ⟨record, hrecord, fun _ _ => rfl⟩

theorem SameCredentials.trans {servers'' : MailServers} (h : SameCredentials servers servers')
    (h' : SameCredentials servers' servers'') : SameCredentials servers servers'' := by
  intro id record'' hrecord''
  obtain ⟨record', hrecord', hsame'⟩ := h' id record'' hrecord''
  obtain ⟨record, hrecord, hsame⟩ := h id record' hrecord'
  exact ⟨record, hrecord, fun name hname => (hsame' name hname).trans (hsame name hname)⟩

theorem SameCredentials.ok (h : SameCredentials servers servers') (hok : MailServersOk servers) :
    MailServersOk servers' := by
  intro id record' hrecord' htype'
  obtain ⟨record, hrecord, hsame⟩ := h id record' hrecord'
  have htype : usesCloudflare record = true := by
    rw [usesCloudflare, ← hsame _ (by decide)]
    exact htype'
  obtain ⟨-, haccount, htoken, hfilter⟩ := hok id record hrecord htype
  refine ⟨htype', ?_, ?_, ?_⟩
  · rw [hsame _ (by decide), haccount]
  · rw [hsame _ (by decide), htoken]
  · rw [hsame _ (by decide), hfilter]

theorem sameCredentials_store (hvalues : ∀ name ∈ CONSTRAINED, values.lookup name = none)
    (h : storeMailServer values servers id = .ok servers') : SameCredentials servers servers' := by
  unfold storeMailServer at h
  split at h
  · cases h
  · rename_i record hrecord
    cases h
    intro other found hfound
    dsimp only at hfound
    by_cases hother : other = id
    · subst hother
      rw [if_pos rfl, Option.some.injEq] at hfound
      refine ⟨record, hrecord, fun name hname => ?_⟩
      rw [← hfound, store, hvalues name hname, Option.getD_none]
    · rw [if_neg hother] at hfound
      exact ⟨found, hfound, fun _ _ => rfl⟩

/-- A loop whose turns are related to a run of it. -/
theorem foldlM_related {R : MailServers → MailServers → Prop} (hrefl : ∀ s, R s s)
    (htrans : ∀ s t u, R s t → R t u → R s u)
    {f : MailServers → Nat → Except MailServerError MailServers}
    (hf : ∀ s id s', id ∈ ids → f s id = .ok s' → R s s')
    (h : ids.foldlM f servers = .ok servers') : R servers servers' := by
  induction ids generalizing servers with
  | nil =>
      cases h
      exact hrefl _
  | cons first rest ih =>
      rw [List.foldlM_cons] at h
      cases hfirst : f servers first with
      | error e =>
          rw [hfirst] at h
          cases h
      | ok next =>
          rw [hfirst] at h
          exact htrans _ _ _ (hf _ _ _ List.mem_cons_self hfirst)
            (ih (fun s id s' hid => hf s id s' (List.mem_cons_of_mem _ hid)) h)

/-! ### The table -/

theorem records_insertAll (defaults : ServerRecord) (servers : MailServers) (valsList : List Values)
    (id : Nat) :
    (valsList.foldl (insertMailServer defaults) servers).records id = servers.records id ∨
      id ∈ List.range' servers.nextId valsList.length := by
  induction valsList generalizing servers with
  | nil => exact Or.inl rfl
  | cons values rest ih =>
      rw [List.foldl_cons, List.length_cons, List.range'_succ, List.mem_cons]
      rcases ih (insertMailServer defaults servers values) with hsame | hin
      · by_cases hid : id = servers.nextId
        · exact Or.inr (Or.inl hid)
        · rw [hsame]
          exact Or.inl (if_neg hid)
      · exact Or.inr (Or.inr hin)

theorem mailServersOk_create {defaults : ServerRecord} {valsList : List Values}
    (hok : MailServersOk servers)
    (h : createMailServers defaults servers valsList = .ok servers') : MailServersOk servers' := by
  unfold createMailServers at h
  cases hcheck : checkCloudflareCredentials (valsList.foldl (insertMailServer defaults) servers)
      (List.range' servers.nextId valsList.length) with
  | error e =>
      simp only [hcheck] at h
      cases h
  | ok u =>
      simp only [hcheck] at h
      cases h
      intro id record hrecord htype
      rcases records_insertAll defaults servers valsList id with hsame | hin
      · rw [hsame] at hrecord
        exact hok id record hrecord htype
      · exact credentialed_of_checked hcheck hin hrecord htype

theorem records_storeAll (h : ids.foldlM (storeMailServer values) servers = .ok servers') (id : Nat) :
    servers'.records id = servers.records id ∨ id ∈ ids := by
  refine foldlM_related (R := fun s s' => s'.records id = s.records id ∨ id ∈ ids)
    (fun _ => Or.inl rfl) ?_ ?_ h
  · intro s t u hst htu
    rcases htu with hsame | hin
    · rw [hsame]
      exact hst
    · exact Or.inr hin
  · intro s first s' hfirst hstore
    unfold storeMailServer at hstore
    split at hstore
    · cases hstore
    · cases hstore
      by_cases hid : id = first
      · exact Or.inr (hid ▸ hfirst)
      · exact Or.inl (if_neg hid)

theorem mailServersOk_write (hok : MailServersOk servers)
    (h : writeMailServers servers ids values = .ok servers') : MailServersOk servers' := by
  unfold writeMailServers at h
  cases hwritten : ids.foldlM (storeMailServer values) servers with
  | error e =>
      rw [hwritten] at h
      cases h
  | ok written =>
      rw [hwritten] at h
      change (do
        if CONSTRAINED.any fun name => (values.lookup name).isSome then
          checkCloudflareCredentials written ids
        return written) = Except.ok servers' at h
      by_cases hconstrained : (CONSTRAINED.any fun name => (values.lookup name).isSome) = true
      · -- what was not written is as it was, what was written is checked
        rw [if_pos hconstrained] at h
        cases hcheck : checkCloudflareCredentials written ids with
        | error e =>
            rw [hcheck] at h
            cases h
        | ok u =>
            rw [hcheck] at h
            cases h
            intro id record hrecord htype
            rcases records_storeAll hwritten id with hsame | hin
            · rw [hsame] at hrecord
              exact hok id record hrecord htype
            · exact credentialed_of_checked hcheck hin hrecord htype
      · rw [if_neg hconstrained] at h
        cases h
        have hnone : ∀ name ∈ CONSTRAINED, values.lookup name = none := by
          intro name hname
          by_contra hsome
          exact hconstrained (List.any_eq_true.mpr ⟨name, hname, Option.isSome_iff_ne_none.mpr hsome⟩)
        have hsame : SameCredentials servers servers' :=
          foldlM_related SameCredentials.refl (fun _ _ _ => SameCredentials.trans)
            (fun _ _ _ _ => sameCredentials_store hnone) hwritten
        exact hsame.ok hok

theorem sameCredentials_unlink (servers : MailServers) (ids : List Nat) :
    SameCredentials servers (unlinkMailServers servers ids) := by
  intro id record hrecord
  unfold unlinkMailServers at hrecord
  dsimp only at hrecord
  split at hrecord
  · cases hrecord
  · exact ⟨record, hrecord, fun _ _ => rfl⟩

/-! ### Testing -/

/-- Core's test detects a size at most. -/
structure MailServerLibrary.Sound (lib : MailServerLibrary F) : Prop where
  same : ∀ autodetect s ids s', lib.testConnection autodetect s ids = .ok s' → SameCredentials s s'
  exist : ∀ autodetect s ids s', lib.testConnection autodetect s ids = .ok s' →
    ∀ id, (s.records id).isSome = true → (s'.records id).isSome = true

theorem sameCredentials_testServer {client : ClientLibrary F} {autodetect : Bool}
    {outcome : HttpOutcome F}
    (h : testServer client autodetect outcome servers id record = .ok servers') :
    SameCredentials servers servers' := by
  unfold testServer at h
  split at h
  · cases h
  · cases h
  · split at h
    · refine sameCredentials_store ?_ h
      intro name hname
      rw [Dict.lookup_set, if_neg]
      · rfl
      · rintro rfl
        exact absurd hname (by decide)
    · cases h
      exact .refl _

/-- A token that is sent is the one of a server there was before the test. -/
theorem testServers_spec (client : ClientLibrary F) (autodetect : Bool)
    (outcomes : Nat → HttpOutcome F) (servers : MailServers) (ids : List Nat) :
    (∀ servers', (testServers client autodetect outcomes servers ids).2 = .ok servers' →
      SameCredentials servers servers') ∧
    ∀ record ∈ (testServers client autodetect outcomes servers ids).1,
      ∃ id ∈ ids, ∃ found, servers.records id = some found ∧
        ∀ name ∈ CONSTRAINED, record name = found name := by
  induction ids generalizing servers with
  | nil =>
      refine ⟨?_, List.forall_mem_nil _⟩
      intro servers' h
      cases h
      exact .refl _
  | cons id rest ih =>
      unfold testServers
      split
      · exact ⟨fun _ h => (by cases h), List.forall_mem_nil _⟩
      · rename_i record hrecord
        split
        · refine ⟨fun _ h => (by cases h), ?_⟩
          intro tested htested
          rw [List.mem_singleton.mp htested]
          exact ⟨id, List.mem_cons_self, record, hrecord, fun _ _ => rfl⟩
        · rename_i next hnext
          have hsame := sameCredentials_testServer hnext
          obtain ⟨hservers, htokens⟩ := ih next
          refine ⟨fun servers' h => hsame.trans (hservers servers' h), ?_⟩
          intro tested htested
          rcases List.mem_cons.mp htested with rfl | htested
          · exact ⟨id, List.mem_cons_self, _, hrecord, fun _ _ => rfl⟩
          · obtain ⟨other, hother, found, hfound, hfields⟩ := htokens tested htested
            obtain ⟨before, hbefore, hkept⟩ := hsame other found hfound
            exact ⟨other, List.mem_cons_of_mem _ hother, before, hbefore, fun name hname =>
              (hfields name hname).trans (hkept name hname)⟩

/-- What a test may do to the servers, and whom it involves. -/
structure TestSpec (servers : MailServers) (ids : List Nat)
    (test : List Nat × List ServerRecord × Except MailServerError MailServers) : Prop where
  kept : ∀ servers', test.2.2 = .ok servers' → SameCredentials servers servers'
  others : ∀ record ∈ servers.browse test.1,
    usesCloudflare record = false ∧ ∃ id, servers.records id = some record
  tested : ∀ record ∈ test.2.1, ∃ id ∈ ids, ∃ found, servers.records id = some found ∧
    usesCloudflare found = true ∧ ∀ name ∈ CONSTRAINED, record name = found name

theorem testSmtpConnection_spec (hlib : lib.Sound) (autodetect : Bool)
    (outcomes : Nat → HttpOutcome F) (servers : MailServers) (ids : List Nat) :
    TestSpec servers ids (testSmtpConnection lib autodetect outcomes servers ids) := by
  have hothers : ∀ record ∈ servers.browse
      (ids.filter fun id => !isCloudflareMailServer servers id),
      usesCloudflare record = false ∧ ∃ id, servers.records id = some record := by
    intro record hrecord
    obtain ⟨id, hid, hfound⟩ := List.mem_filterMap.mp hrecord
    have hnot := (List.mem_filter.mp hid).2
    rw [isCloudflareMailServer, hfound] at hnot
    exact ⟨by simpa using hnot, id, hfound⟩
  -- the tokens are sent of servers that had the type before core's test
  have htested : ∀ next, SameCredentials servers next → ∀ record ∈ (testServers lib.client autodetect
      outcomes next (ids.filter (isCloudflareMailServer servers))).1,
      ∃ id ∈ ids, ∃ found, servers.records id = some found ∧ usesCloudflare found = true ∧
        ∀ name ∈ CONSTRAINED, record name = found name := by
    intro next hsame record hrecord
    obtain ⟨id, hid, found', hfound', hfields⟩ :=
      (testServers_spec lib.client autodetect outcomes next _).2 record hrecord
    obtain ⟨found, hfound, hkept⟩ := hsame id found' hfound'
    have htype := (List.mem_filter.mp hid).2
    rw [isCloudflareMailServer, hfound] at htype
    exact ⟨id, (List.mem_filter.mp hid).1, found, hfound, htype, fun name hname =>
      (hfields name hname).trans (hkept name hname)⟩
  unfold testSmtpConnection
  dsimp only
  split
  · exact ⟨(testServers_spec _ _ _ _ _).1, List.forall_mem_nil _, htested servers (.refl _)⟩
  · split
    · exact ⟨fun _ h => (by cases h), hothers, List.forall_mem_nil _⟩
    · rename_i next hnext
      have hsame : SameCredentials servers next := hlib.same _ _ _ _ hnext
      exact ⟨fun servers' h => hsame.trans ((testServers_spec _ _ _ _ _).1 servers' h), hothers,
        htested next hsame⟩

/-! ### Connecting -/

/-- What is known when `connect` returns a session. -/
theorem connect_session {args : ConnectArgs} {session : SessionArgs}
    (h : connect lib servers args = .ok (.session session)) :
    lib.currentTest = false ∧ ∃ id record, (resolve lib servers args).1 = some id ∧
      servers.records id = some record ∧ usesCloudflare record = true ∧
      (args.allowArchived = true ∨ (record ACTIVE).truthy = true) ∧
      session = cloudflareSession record (resolve lib servers args).2 := by
  unfold connect at h
  split at h
  · cases h
  · rename_i htest
    dsimp only at h
    split at h
    · cases h
    · split at h
      · cases h
      · rename_i id hresolve found record hrecord
        split at h
        · rename_i htype
          split at h
          · cases h
          · rename_i harchived
            cases h
            refine ⟨by simpa using htest, id, record, hresolve, hrecord, htype, ?_, rfl⟩
            cases hallow : args.allowArchived
            · simp [hallow] at harchived
              exact Or.inr harchived
            · exact Or.inl rfl
        · cases h

/-- Core is given servers of other types alone. -/
theorem connect_core {args : ConnectArgs} {mailServerId : Option Nat} {smtpFrom : Option Str}
    (h : connect lib servers args = .ok (.core mailServerId smtpFrom)) :
    ∀ record ∈ servers.browse (mailServerId.filter (· ≠ 0)).toList,
      usesCloudflare record = false ∧ ∃ id, servers.records id = some record := by
  unfold connect at h
  split at h
  · cases h
  · dsimp only at h
    split at h
    · rename_i hresolve
      cases h
      have hnone : args.mailServerId.filter (· ≠ 0) = none := by
        cases hid : args.mailServerId.filter (· ≠ 0) with
        | none => rfl
        | some id => rw [resolve, hid] at hresolve; cases hresolve
      rw [hnone]
      exact List.forall_mem_nil _
    · split at h
      · cases h
      · rename_i id _ _ record hrecord
        split at h
        · split at h <;> cases h
        · rename_i htype
          cases h
          intro found hfound
          obtain ⟨other, hother, hrecord'⟩ := List.mem_filterMap.mp hfound
          obtain ⟨hsome, -⟩ := Option.mem_filter_iff.mp (Option.mem_toList.mp hother)
          cases hsome
          cases hrecord.symm.trans hrecord'
          exact ⟨by simpa using htype, id, hrecord⟩

/-! ### Attribution -/

variable {w w' : Outbound F} {action : OutboundAction F} {n : Nat}

abbrev OutboundReachable (lib : MailServerLibrary F) : Outbound F → Outbound F → Prop :=
  Reachable (outboundStep lib) fun _ _ => True

/-- The session called `n` is replaced or closed. -/
def OutboundAction.Ends (lib : MailServerLibrary F) (n : Nat) (w : Outbound F) :
    OutboundAction F → Prop
  | .connect m args =>
    m = n ∧ ∃ session, MailCloudflare.connect lib w.servers args = .ok (.session session)
  | .quit m => m = n
  | _ => False

/--
A `connect` with `args` settled on a server that stood as `record` then and returned the
session called `n`, which has been neither replaced nor closed on the way from there to `w`.
-/
def OpenedFor (lib : MailServerLibrary F) (n : Nat) (args : ConnectArgs) (record : ServerRecord)
    (w : Outbound F) : Prop :=
  ∃ w₀ id session, OutboundReachable lib .init w₀ ∧
    (resolve lib w₀.servers args).1 = some id ∧ w₀.servers.records id = some record ∧
    connect lib w₀.servers args = .ok (.session session) ∧
    Reachable (outboundStep lib) (fun w action => ¬ action.Ends lib n w)
      (w₀.connected n (.session session)) w

/-- What is said of an event an action adds to the log in the state `w`. -/
def Attributed (lib : MailServerLibrary F) (w : Outbound F) (action : OutboundAction F) :
    OutboundEvent F → Prop
  | .posted url authorization call body =>
    ∃ n, action = .send n call ∧ lib.currentTest = false ∧
      (∃ args record, OpenedFor lib n args record w) ∧
      (∀ args record, OpenedFor lib n args record w → Credentialed record ∧
        (args.allowArchived = true ∨ (record ACTIVE).truthy = true) ∧
        url = sendUrl (record CLOUDFLARE_ACCOUNT_ID) ∧
        authorization = bearer (record CLOUDFLARE_API_TOKEN)) ∧
      ∃ mail, (readJson body).bind readMail = some mail ∧
        Conveys lib.client call.message call.smtpToList mail
  | .verified authorization =>
    ∃ ids autodetect outcomes, action = .test ids autodetect outcomes ∧
      ∃ id ∈ ids, ∃ record, w.servers.records id = some record ∧ Credentialed record ∧
        authorization = bearer (record CLOUDFLARE_API_TOKEN)
  | .handed record => usesCloudflare record = false ∧ ∃ id, w.servers.records id = some record

/-! ### One step -/

theorem ok_of_toOption {ε α : Type} {e : Except ε α} {a : α} (h : e.toOption = some a) : e = .ok a := by
  cases e <;> cases h
  rfl

/-- Every call leaves the servers of the type with what they need. -/
theorem mailServersOk_step (hlib : lib.Sound) (hs : outboundStep lib w action = some w')
    (hok : MailServersOk w.servers) : MailServersOk w'.servers := by
  cases action with
  | create valsList =>
      obtain ⟨servers, hservers, rfl⟩ := Option.map_eq_some_iff.mp hs
      exact mailServersOk_create hok (ok_of_toOption hservers)
  | write ids values =>
      obtain ⟨servers, hservers, rfl⟩ := Option.map_eq_some_iff.mp hs
      exact mailServersOk_write hok (ok_of_toOption hservers)
  | unlink ids =>
      cases hs
      exact (sameCredentials_unlink w.servers ids).ok hok
  | connect m args =>
      obtain ⟨connection, -, rfl⟩ := Option.map_eq_some_iff.mp hs
      cases connection <;> exact hok
  | send m call =>
      obtain ⟨session, -, rfl⟩ := Option.map_eq_some_iff.mp hs
      exact hok
  | quit m =>
      cases hs
      exact hok
  | test ids autodetect outcomes =>
      cases hs
      have hspec := testSmtpConnection_spec hlib autodetect outcomes w.servers ids
      unfold Outbound.test
      generalize testSmtpConnection lib autodetect outcomes w.servers ids = test at hspec ⊢
      obtain ⟨others, tested, result⟩ := test
      cases result with
      | error e => exact hok
      | ok servers' => exact (hspec.kept servers' rfl).ok hok

/-- A session keeps what it was made with until it is replaced or closed. -/
theorem args_step (hs : outboundStep lib w action = some w') (hkept : ¬ action.Ends lib n w) :
    (w'.sessions n).map (·.args) = (w.sessions n).map (·.args) := by
  cases action with
  | create valsList =>
      obtain ⟨servers, -, rfl⟩ := Option.map_eq_some_iff.mp hs
      rfl
  | write ids values =>
      obtain ⟨servers, -, rfl⟩ := Option.map_eq_some_iff.mp hs
      rfl
  | unlink ids =>
      cases hs
      rfl
  | connect m args =>
      obtain ⟨connection, hconnect, rfl⟩ := Option.map_eq_some_iff.mp hs
      cases connection with
      | nothing | core => rfl
      | session session =>
          have hm : n ≠ m := fun hm => hkept ⟨hm.symm, session, ok_of_toOption hconnect⟩
          show (Function.update w.sessions m _ n).map _ = _
          rw [Function.update_of_ne hm]
  | send m call =>
      obtain ⟨session, hsession, rfl⟩ := Option.map_eq_some_iff.mp hs
      show (Function.update w.sessions m _ n).map _ = _
      by_cases hm : n = m
      · rw [hm, Function.update_self, hsession]
        rfl
      · rw [Function.update_of_ne hm]
  | quit m =>
      cases hs
      have hm : n ≠ m := fun hm => hkept hm.symm
      show (Function.update w.sessions m none n).map _ = _
      rw [Function.update_of_ne hm]
  | test ids autodetect outcomes =>
      cases hs
      rfl

theorem OpenedFor.later {args : ConnectArgs} (h : OpenedFor lib n args record w)
    (hs : outboundStep lib w action = some w') (hkept : ¬ action.Ends lib n w) :
    OpenedFor lib n args record w' := by
  obtain ⟨w₀, id, session, hinit, hresolve, hrecord, hconnect, hreach⟩ := h
  exact ⟨w₀, id, session, hinit, hresolve, hrecord, hconnect, .step hreach action hkept hs⟩

/-- A session that there is after a step was there before, or has just been opened. -/
theorem openedFor_step (hreach : OutboundReachable lib .init w)
    (h : ∀ n, (w.sessions n).isSome = true → ∃ args record, OpenedFor lib n args record w)
    (hs : outboundStep lib w action = some w') :
    ∀ n, (w'.sessions n).isSome = true → ∃ args record, OpenedFor lib n args record w' := by
  intro n hsession
  by_cases hends : action.Ends lib n w
  · cases action with
    | connect m args =>
        obtain ⟨rfl, session, hconnect⟩ := hends
        obtain ⟨-, id, record, hresolve, hrecord, -⟩ := connect_session hconnect
        have hopen : outboundStep lib w (.connect m args) =
            some (w.connected m (.session session)) := by
          simp [outboundStep, hconnect, Except.toOption]
        cases hopen.symm.trans hs
        exact ⟨args, record, w, id, session, hreach, hresolve, hrecord, hconnect, .start⟩
    | quit m =>
        obtain rfl : m = n := hends
        cases hs
        change (Function.update w.sessions m none m).isSome = true at hsession
        rw [Function.update_self] at hsession
        cases hsession
    | create | write | unlink | send | test => exact hends.elim
  · have hargs := congrArg Option.isSome (args_step hs hends)
    rw [Option.isSome_map, Option.isSome_map] at hargs
    obtain ⟨args, record, hopened⟩ := h n (hargs ▸ hsession)
    exact ⟨args, record, hopened.later hs hends⟩

/-! ### Every run -/

theorem mailServersOk_reachable (hlib : lib.Sound) (hreach : OutboundReachable lib .init w) :
    MailServersOk w.servers := by
  induction hreach with
  | start =>
      intro id record hrecord
      cases hrecord
  | step _ action _ hs ih => exact mailServersOk_step hlib hs ih

theorem openedFor_reachable (hreach : OutboundReachable lib .init w) :
    ∀ n, (w.sessions n).isSome = true → ∃ args record, OpenedFor lib n args record w := by
  induction hreach with
  | start =>
      intro n hsession
      cases hsession
  | step hreach action _ hs ih => exact openedFor_step hreach ih hs

/-- **A session has what its server had when it was opened.** -/
theorem OpenedFor.session (hlib : lib.Sound) {args : ConnectArgs}
    (h : OpenedFor lib n args record w) :
    Credentialed record ∧ (args.allowArchived = true ∨ (record ACTIVE).truthy = true) ∧
      ∃ session smtpFrom, w.sessions n = some session ∧
        session.args = cloudflareSession record smtpFrom := by
  obtain ⟨w₀, id, opened, hinit, hresolve, hrecord, hconnect, hreach⟩ := h
  obtain ⟨-, id', record', hresolve', hrecord', htype, hactive, rfl⟩ := connect_session hconnect
  cases hresolve.symm.trans hresolve'
  cases hrecord.symm.trans hrecord'
  refine ⟨mailServersOk_reachable hlib hinit id record hrecord htype, hactive, ?_⟩
  have hargs : (w.sessions n).map (·.args) =
      some (cloudflareSession record (resolve lib w₀.servers args).2) := by
    induction hreach with
    | start =>
        show (Function.update w₀.sessions n _ n).map _ = _
        rw [Function.update_self]
        rfl
    | step _ action hkept hs ih => exact (args_step hs hkept).trans ih
  obtain ⟨session, hsession, hmade⟩ := Option.map_eq_some_iff.mp hargs
  exact ⟨session, _, hsession, hmade⟩

/-- A session is opened outside test mode. -/
theorem OpenedFor.currentTest {args : ConnectArgs} (h : OpenedFor lib n args record w) :
    lib.currentTest = false := by
  obtain ⟨w₀, id, opened, -, -, -, hconnect, -⟩ := h
  exact (connect_session hconnect).1

theorem attributed_send (hlib : lib.Sound) (hreach : OutboundReachable lib .init w)
    {call : SendCall F} {session : OpenSession F} (hsession : w.sessions n = some session) :
    ∀ event ∈ session.posts call (runCall lib.client session.latch call),
      Attributed lib w (.send n call) event := by
  intro event hevent
  obtain ⟨sessionEvent, hmade, hposted⟩ := List.mem_filterMap.mp hevent
  cases sessionEvent with
  | slept delay => cases hposted
  | posted body outcome =>
      cases hposted
      obtain ⟨args, record, hopened⟩ := openedFor_reachable hreach n (by rw [hsession]; rfl)
      refine ⟨n, rfl, hopened.currentTest, ⟨args, record, hopened⟩, ?_, ?_⟩
      · intro args record hopened
        obtain ⟨hcredentialed, hactive, found, smtpFrom, hfound, hargs⟩ := hopened.session hlib
        cases hsession.symm.trans hfound
        rw [hargs]
        exact ⟨hcredentialed, hactive, rfl, rfl⟩
      · have hbody : (body, outcome) ∈ posts (runCall lib.client session.latch call).events :=
          List.mem_filterMap.mpr ⟨_, hmade, rfl⟩
        exact conveysAll_runCall lib.client session.latch call _ hbody

theorem attributed_test (hlib : lib.Sound) (hok : MailServersOk w.servers) {autodetect : Bool}
    {outcomes : Nat → HttpOutcome F} :
    ∃ new, (w.test lib ids autodetect outcomes).log = new ++ w.log ∧
      ∀ event ∈ new, Attributed lib w (.test ids autodetect outcomes) event := by
  have hspec := testSmtpConnection_spec hlib autodetect outcomes w.servers ids
  unfold Outbound.test
  generalize testSmtpConnection lib autodetect outcomes w.servers ids = test at hspec ⊢
  obtain ⟨others, tested, result⟩ := test
  refine ⟨_, rfl, ?_⟩
  intro event hevent
  rcases List.mem_append.mp hevent with hverified | hhanded
  · obtain ⟨record, hrecord, rfl⟩ := List.mem_map.mp hverified
    obtain ⟨id, hid, found, hfound, htype, hfields⟩ := hspec.tested record hrecord
    refine ⟨ids, autodetect, outcomes, rfl, id, hid, found, hfound, hok id found hfound htype, ?_⟩
    rw [hfields _ (by decide)]
  · obtain ⟨record, hrecord, rfl⟩ := List.mem_map.mp hhanded
    exact hspec.others record hrecord

/--
**Everything that leaves Odoo is attributable.**  In every run a server of the type has its
account, its token and its FROM filter.  Whatever the next call adds: a POST is one of a send,
outside test mode, goes to the account and with the token that the server had at the connect
its session was opened by, not archived unless that connect allowed it, and is read as the
message of the call; a token that is verified is that of a server the test is of, as it
stands; and what core is given to reach by SMTP is a server of another type.
-/
theorem outbound_attributed (hlib : lib.Sound) (hreach : OutboundReachable lib .init w) :
    (∀ id record, w.servers.records id = some record → usesCloudflare record = true →
      Credentialed record) ∧
    ∀ action w', outboundStep lib w action = some w' →
      ∃ new, w'.log = new ++ w.log ∧ ∀ event ∈ new, Attributed lib w action event := by
  have hok := mailServersOk_reachable hlib hreach
  refine ⟨hok, fun action w' hs => ?_⟩
  cases action with
  | create valsList =>
      obtain ⟨servers, -, rfl⟩ := Option.map_eq_some_iff.mp hs
      exact ⟨[], rfl, List.forall_mem_nil _⟩
  | write ids values =>
      obtain ⟨servers, -, rfl⟩ := Option.map_eq_some_iff.mp hs
      exact ⟨[], rfl, List.forall_mem_nil _⟩
  | unlink ids =>
      cases hs
      exact ⟨[], rfl, List.forall_mem_nil _⟩
  | connect m args =>
      obtain ⟨connection, hconnect, rfl⟩ := Option.map_eq_some_iff.mp hs
      cases connection with
      | nothing | session => exact ⟨[], rfl, List.forall_mem_nil _⟩
      | core mailServerId smtpFrom =>
          refine ⟨_, rfl, ?_⟩
          intro event hevent
          obtain ⟨record, hrecord, rfl⟩ := List.mem_map.mp hevent
          exact connect_core (ok_of_toOption hconnect) record hrecord
  | send m call =>
      obtain ⟨session, hsession, rfl⟩ := Option.map_eq_some_iff.mp hs
      exact ⟨_, rfl, attributed_send hlib hreach hsession⟩
  | quit m =>
      cases hs
      exact ⟨[], rfl, List.forall_mem_nil _⟩
  | test ids autodetect outcomes =>
      cases hs
      exact attributed_test hlib hok

/-! ### A run -/

def sampleMailServers : MailServerLibrary Empty where
  client := sampleClient
  currentTest := false
  defaults := fun name => if name = ACTIVE then .number 1 else .no
  findMailServer := fun _ smtpFrom => (some 1, smtpFrom)
  testConnection := fun _ servers _ => .ok servers

theorem sampleMailServers_sound : sampleMailServers.Sound where
  same := by
    intro autodetect s ids s' h
    cases h
    exact .refl s
  exist := by
    intro autodetect s ids s' h id hid
    cases h
    exact hid

def apiToken (token : String) : Values := Dict.set .empty CLOUDFLARE_API_TOKEN (.text token.toList)

def sampleServerValues : Values :=
  (((apiToken "t0k3n").set SMTP_AUTHENTICATION CLOUDFLARE).set CLOUDFLARE_ACCOUNT_ID
    (.text "4cc0unt".toList)).set FROM_FILTER (.text "cf.example.com".toList)

/-- The token is replaced after the session has been opened, and before it is used. -/
def replacedRun : List (OutboundAction Empty) :=
  [.create [sampleServerValues],
    .connect 0 ⟨none, some "bob@example.com".toList, none, false⟩,
    .write [1] (apiToken "n3w")]

/-- What an event was authorized with. -/
def OutboundEvent.authorization? : OutboundEvent F → Option Str
  | .posted _ authorization _ _ => some authorization
  | .verified authorization => some authorization
  | .handed _ => none

theorem outbound_attributed_replaced :
    ∃ w w' new, OutboundReachable sampleMailServers .init w ∧
      (w.servers.records 1).map (· CLOUDFLARE_API_TOKEN) = some (.text "n3w".toList) ∧
      outboundStep sampleMailServers w (.send 0 revokedCall) = some w' ∧
      w'.log = new ++ w.log ∧
      new.map OutboundEvent.authorization? =
        [some "Bearer t0k3n".toList, some "Bearer t0k3n".toList] ∧
      ∀ event ∈ new, Attributed sampleMailServers w (.send 0 revokedCall) event := by
  have hrun : (runActions (outboundStep sampleMailServers) (fun _ _ => True) .init
      replacedRun).any (fun w =>
        (w.servers.records 1).map (· CLOUDFLARE_API_TOKEN) = some (.text "n3w".toList) &&
        w.log.length = 0 &&
        (outboundStep sampleMailServers w (.send 0 revokedCall)).any fun w' =>
          w'.log.map OutboundEvent.authorization? =
            [some "Bearer t0k3n".toList, some "Bearer t0k3n".toList]) = true := by
    decide +kernel
  obtain ⟨w, hreach, hgood⟩ := exists_reachable_of_runActions replacedRun hrun
  simp only [Bool.and_eq_true, decide_eq_true_eq, Option.any_eq_true] at hgood
  obtain ⟨⟨htoken, hlog⟩, w', hs, hauthorized⟩ := hgood
  obtain ⟨-, hnews⟩ := outbound_attributed sampleMailServers_sound hreach
  obtain ⟨new, hnew, hattributed⟩ := hnews _ _ hs
  rw [hnew, List.eq_nil_of_length_eq_zero hlog, List.append_nil] at hauthorized
  exact ⟨w, w', new, hreach, htoken, hs, hnew, hauthorized, hattributed⟩

end MailCloudflare
