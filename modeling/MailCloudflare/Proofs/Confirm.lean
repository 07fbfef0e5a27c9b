/-
Confirming a server.

Confirming a server of the type fails without its credentials or on the base URL.  In every
state that calls lead to which pass no credentials, it has them, so only the base URL is
left.  When confirming succeeds the server is found under the URL that its form shows,
unless it is archived, and that URL is as secure as the base URL was found to be: a path
behind it changes neither its scheme nor its host.
-/
import MailCloudflare.Proofs.Webhook

namespace MailCloudflare

open Unicode Python Keyed Transition

variable {orm : Orm} {servers later : Servers} {id : Nat} {record : ServerRecord} {ids : List Nat}
  {c : Confirming} {key : Str}

/-! ### The base URL -/

theorem hostname_nil (py : UnicodeData) : hostname py [] = none := rfl

/-- **What the base URL was checked for holds of the webhook URL.** -/
theorem isSecure_webhookUrl (h : c.checkBaseUrl = true) (hkey : ∀ a ∈ key, isUrlSafe a = true)
    {parts : SplitResult}
    (hparts : urlsplit c.validNetloc
      (rstripSlash (c.baseUrl.getD []) ++ inboundPath key) = some parts) :
    isSecure c.py parts = true := by
  obtain ⟨base, hbase, hsecure⟩ := (Option.any_eq_true _ _).mp h
  obtain ⟨hscheme, hnetloc⟩ :=
    location_append_path (c.baseUrl.getD []) (isPlainPath_inboundPath hkey)
  rw [← location_of_urlsplit hbase, ← location_of_urlsplit hparts] at hscheme hnetloc
  dsimp only at hscheme hnetloc
  unfold isSecure at hsecure ⊢
  rw [hscheme]
  by_cases hhost : base.netloc = []
  · rw [hhost, hostname_nil] at hsecure
    have hhttps : decide (base.scheme = "https".toList) = true := by simpa using hsecure
    rw [hhttps, Bool.true_or]
  · rw [hnetloc hhost]
    exact hsecure

/-! ### One server -/

/-- A record that has been confirmed. -/
def doneValues : Values := Dict.set .empty STATE DONE

theorem store_doneValues (record : ServerRecord) (name : Str) :
    store record doneValues name = if name = STATE then DONE else record name := by
  unfold store doneValues
  rw [Dict.lookup_set]
  split <;> rfl

/-- The servers after some of them have been confirmed. -/
def Servers.markDone (servers : Servers) (ids : List Nat) : Servers :=
  { servers with
    records := fun id =>
      (servers.records id).map fun record => if id ∈ ids then store record doneValues else record }

theorem records_markDone (servers : Servers) (ids : List Nat) (id : Nat) :
    (servers.markDone ids).records id = (servers.records id).map fun record =>
      if id ∈ ids then store record doneValues else record := rfl

theorem markDone_nil (servers : Servers) : servers.markDone [] = servers := by
  simp [Servers.markDone]

theorem markDone_cons (servers : Servers) (id : Nat) (ids : List Nat) :
    (servers.markDone [id]).markDone ids = servers.markDone (id :: ids) := by
  have hstore : ∀ record, store (store record doneValues) doneValues = store record doneValues := by
    intro record
    funext name
    simp only [store_doneValues]
    split <;> rfl
  unfold Servers.markDone
  congr 1
  funext other
  rw [Option.map_map]
  refine congrArg (Option.map · _) (funext fun record => ?_)
  simp only [Function.comp, List.mem_cons]
  by_cases hid : other = id <;> by_cases hids : other ∈ ids <;> simp [hid, hids, hstore]

theorem isCloudflareServer_iff : isCloudflareServer servers id = true ↔
    ∃ record, servers.records id = some record ∧ record SERVER_TYPE = CLOUDFLARE := by
  simp [isCloudflareServer, Option.any_eq_true]

/-- The type of a server does not change. -/
theorem isCloudflareServer_markDone (servers : Servers) (ids : List Nat) (id : Nat) :
    isCloudflareServer (servers.markDone ids) id = isCloudflareServer servers id := by
  have htype : ∀ record : ServerRecord,
      (if id ∈ ids then store record doneValues else record) SERVER_TYPE = record SERVER_TYPE := by
    intro record
    split
    · rw [store_doneValues, if_neg (by decide)]
    · rfl
  unfold isCloudflareServer
  rw [records_markDone]
  cases servers.records id with
  | none => rfl
  | some record => simp [htype]

theorem write_doneValues (h : (servers.records id).isSome = true) :
    write orm servers [id] doneValues = some (servers.markDone [id]) := by
  obtain ⟨record, hrecord⟩ := Option.isSome_iff_exists.mp h
  have hplain : doneValues.lookup SERVER_TYPE ≠ some CLOUDFLARE := by
    rw [doneValues, Dict.lookup_set, if_neg (by decide)]
    exact (Option.some_ne_none CLOUDFLARE).symm
  have hrecords : (fun other => if other = id then some (store record doneValues)
      else servers.records other) = (servers.markDone [id]).records := by
    funext other
    rw [records_markDone]
    by_cases hother : other = id
    · rw [hother, if_pos rfl, hrecord]
      simp
    · simp [hother]
  rw [write, if_pos hplain, List.foldlM_cons, storeServer, hrecord]
  exact congrArg (fun records => some { servers with records := records }) hrecords

theorem noCredentials_doneValues : NoCredentials doneValues := by
  constructor <;> rw [doneValues, Dict.lookup_set, if_neg (by decide)] <;> rfl

theorem reachable_markDone (hids : ∀ id ∈ ids, (servers.records id).isSome = true) :
    ServersReachable orm servers (servers.markDone ids) := by
  induction ids generalizing servers with
  | nil =>
      rw [markDone_nil]
      exact .start
  | cons id ids ih =>
      obtain ⟨hid, hids⟩ := List.forall_mem_cons.mp hids
      have hfirst : ServersReachable orm servers (servers.markDone [id]) :=
        .step .start (.write [id] doneValues) noCredentials_doneValues (write_doneValues hid)
      have hrest : ServersReachable orm (servers.markDone [id])
          ((servers.markDone [id]).markDone ids) :=
        ih fun other hother => by
          rw [records_markDone, Option.isSome_map]
          exact hids other hother
      rw [markDone_cons] at hrest
      exact hfirst.trans hrest

/-- A server with a key and a secret. -/
def hasCredentials (servers : Servers) (id : Nat) : Bool :=
  (servers.records id).any fun record =>
    (record WEBHOOK_KEY).truthy && (record WEBHOOK_SECRET).truthy

theorem hasCredentials_markDone (servers : Servers) (ids : List Nat) (id : Nat) :
    hasCredentials (servers.markDone ids) id = hasCredentials servers id := by
  have hkept : ∀ (record : ServerRecord) (name : Str), name ≠ STATE →
      (if id ∈ ids then store record doneValues else record) name = record name := by
    intro record name hname
    split
    · rw [store_doneValues, if_neg hname]
    · rfl
  unfold hasCredentials
  rw [records_markDone]
  cases servers.records id with
  | none => rfl
  | some record =>
      simp only [Option.map_some, Option.any_some]
      rw [hkept record WEBHOOK_KEY (by decide), hkept record WEBHOOK_SECRET (by decide)]

/-- Confirming a server changes its state, or fails on its credentials or the base URL. -/
theorem confirm_eq (hid : (servers.records id).isSome = true) :
    c.confirm orm servers id =
      if hasCredentials servers id = true ∧ c.checkBaseUrl = true then some (servers.markDone [id])
      else none := by
  obtain ⟨record, hrecord⟩ := Option.isSome_iff_exists.mp hid
  have hwrite : write orm servers [id] (Dict.set .empty STATE DONE) = _ := write_doneValues hid
  have hcredentials : hasCredentials servers id =
      ((record WEBHOOK_KEY).truthy && (record WEBHOOK_SECRET).truthy) := by
    rw [hasCredentials, hrecord, Option.any_some]
  unfold Confirming.confirm
  rw [hrecord, hwrite, hcredentials]
  cases hkey : (record WEBHOOK_KEY).truthy <;> cases hsecret : (record WEBHOOK_SECRET).truthy <;>
    cases hbase : c.checkBaseUrl <;> simp [hkey, hsecret, guard]

/-! ### Several servers -/

/-- The loop in `button_confirm_login`. -/
theorem foldlM_confirm (hids : ∀ id ∈ ids, (servers.records id).isSome = true) :
    ids.foldlM (c.confirm orm) servers =
      if ids.all (hasCredentials servers) = true ∧ (c.checkBaseUrl = true ∨ ids = []) then
        some (servers.markDone ids)
      else none := by
  induction ids generalizing servers with
  | nil =>
      rw [if_pos ⟨rfl, Or.inr rfl⟩, markDone_nil]
      rfl
  | cons id ids ih =>
      obtain ⟨hid, hids⟩ := List.forall_mem_cons.mp hids
      have hrest := @ih (servers.markDone [id]) fun other hother => by
        rw [records_markDone, Option.isSome_map]
        exact hids other hother
      have hall : ids.all (hasCredentials (servers.markDone [id])) =
          ids.all (hasCredentials servers) :=
        congrArg ids.all (funext (hasCredentials_markDone servers [id]))
      rw [hall, markDone_cons] at hrest
      rw [List.foldlM_cons, confirm_eq hid]
      by_cases hfirst : hasCredentials servers id = true ∧ c.checkBaseUrl = true
      · rw [if_pos hfirst]
        change ids.foldlM (c.confirm orm) (servers.markDone [id]) = _
        rw [hrest]
        simp [hfirst.1, hfirst.2]
      · rw [if_neg hfirst, if_neg]
        · rfl
        · rintro ⟨hcredentials, hbase⟩
          rw [List.all_cons, Bool.and_eq_true] at hcredentials
          exact hfirst ⟨hcredentials.1, hbase.resolve_right (List.cons_ne_nil id ids)⟩

/-- What `button_confirm_login` comes to. -/
theorem buttonConfirmLogin_eq (hids : ∀ id ∈ ids, (servers.records id).isSome = true) :
    c.buttonConfirmLogin orm servers ids =
      if (ids.filter (isCloudflareServer servers)).all (hasCredentials servers) = true ∧
          (c.checkBaseUrl = true ∨ ids.filter (isCloudflareServer servers) = []) then
        c.core (servers.markDone (ids.filter (isCloudflareServer servers)))
          (ids.filter fun id => !isCloudflareServer servers id)
      else none := by
  have hexist : (ids.all fun id => (servers.records id).isSome) = true :=
    List.all_eq_true.mpr hids
  unfold Confirming.buttonConfirmLogin
  rw [hexist, foldlM_confirm fun id hid => hids id (List.mem_filter.mp hid).1]
  split
  · rfl
  · rfl

/-- Core writes no credentials, and only to the servers it is given. -/
structure Confirming.Sound (c : Confirming) (orm : Orm) : Prop where
  reachable : ∀ s ids s', c.core s ids = some s' → ServersReachable orm s s'
  others : ∀ s ids s', c.core s ids = some s' → ∀ id, id ∉ ids → s'.records id = s.records id

/--
The server is confirmed, and under the URL its form shows, which is secure, the route finds
it if it is active.
-/
def IsServed (c : Confirming) (servers : Servers) (id : Nat) : Prop :=
  ∃ record key url, servers.records id = some record ∧ record STATE = DONE ∧
    cloudflareWebhookUrl c.baseUrl record = some url ∧
    url = rstripSlash (c.baseUrl.getD []) ++ inboundPath key ∧
    (∀ parts, urlsplit c.validNetloc url = some parts → isSecure c.py parts = true) ∧
    ∀ model rows, rows.Perm (servers.table model) →
      cloudflareFindByKey rows key =
        if (record ACTIVE).truthy = true then some (toServer model id record) else none

/-- A server of the type that is done is served, if the base URL is secure. -/
theorem isServed_of_done (horm : orm.Sound) (hsafe : orm.UrlSafe) (hok : CredentialsOk orm servers)
    (hbase : c.checkBaseUrl = true) (hrecord : servers.records id = some record)
    (htype : record SERVER_TYPE = CLOUDFLARE) (hdone : record STATE = DONE) :
    IsServed c servers id := by
  obtain ⟨n, hkey⟩ : ∃ n, record WEBHOOK_KEY = .text (orm.token n) := by
    rcases hok.issued id record hrecord _ (Or.inl rfl) with hno | ⟨n, -, -, htoken⟩
    · have htruthy := (hok.complete id record hrecord htype).1
      rw [hno] at htruthy
      cases htruthy
    · exact ⟨n, htoken⟩
  refine ⟨record, orm.token n, _, hrecord, hdone, ?_, rfl, ?_, ?_⟩
  · rw [cloudflareWebhookUrl, if_pos htype, hkey]
    show (present (some (orm.token n))).map _ = _
    rw [present_some (horm.token_ne n)]
    rfl
  · intro parts hparts
    exact isSecure_webhookUrl hbase (hsafe n) hparts
  · intro model rows hrows
    rw [findByKey_table hok hrecord hkey (horm.token_ne n) hrows]
    by_cases hactive : (record ACTIVE).truthy = true
    · rw [if_pos hactive, if_pos ⟨htype, hactive, hdone⟩]
    · rw [if_neg hactive, if_neg fun hlive => hactive hlive.2.1]

/-- In a state that calls lead to which pass no credentials, every server of the type has them. -/
theorem hasCredentials_of_ok (hok : CredentialsOk orm servers)
    (h : isCloudflareServer servers id = true) : hasCredentials servers id = true := by
  obtain ⟨record, hrecord, htype⟩ := isCloudflareServer_iff.mp h
  obtain ⟨hkey, hsecret⟩ := hok.complete id record hrecord htype
  rw [hasCredentials, hrecord, Option.any_some, hkey, hsecret]
  rfl

/--
**Confirming is refused for missing credentials or an insecure base URL alone, and a
confirmed server is served.**  The first holds in any state.  As long as no call has passed
the credential fields, the servers of the type have their credentials, so that only an
insecure base URL, or core's way with the servers of other types, makes it raise; and what it
has confirmed is done and is found.
-/
theorem confirmed_served (horm : orm.Sound) (hsafe : orm.UrlSafe) (hcore : c.Sound orm) :
    (∀ (servers : Servers) (ids : List Nat),
      (∀ id ∈ ids, (servers.records id).isSome = true) →
      c.buttonConfirmLogin orm servers ids =
        if (ids.filter (isCloudflareServer servers)).all (hasCredentials servers) = true ∧
            (c.checkBaseUrl = true ∨ ids.filter (isCloudflareServer servers) = []) then
          c.core (servers.markDone (ids.filter (isCloudflareServer servers)))
            (ids.filter fun id => !isCloudflareServer servers id)
        else none) ∧
    ∀ initial servers, NoneYet initial → ServersReachable orm initial servers →
      (∀ id, isCloudflareServer servers id = true → hasCredentials servers id = true) ∧
      ∀ ids later, (∀ id ∈ ids, (servers.records id).isSome = true) →
        c.buttonConfirmLogin orm servers ids = some later →
          ∀ id ∈ ids, isCloudflareServer servers id = true → IsServed c later id := by
  refine ⟨fun _ _ => buttonConfirmLogin_eq, fun initial servers hinit hreach => ?_⟩
  have hok : CredentialsOk orm servers := credentialsOk_reachable horm hinit.credentialsOk hreach
  refine ⟨fun _ => hasCredentials_of_ok hok, ?_⟩
  intro ids later hids hconfirmed id hid htype
  have hmem : id ∈ ids.filter (isCloudflareServer servers) := List.mem_filter.mpr ⟨hid, htype⟩
  rw [buttonConfirmLogin_eq hids] at hconfirmed
  split at hconfirmed
  · rename_i hpassed
    have hbase : c.checkBaseUrl = true := hpassed.2.resolve_right fun hnil => by
      rw [hnil] at hmem
      cases hmem
    have hmarked : ServersReachable orm servers
        (servers.markDone (ids.filter (isCloudflareServer servers))) :=
      reachable_markDone fun id hid => hids id (List.mem_filter.mp hid).1
    have hlater : CredentialsOk orm later := credentialsOk_reachable horm
      (credentialsOk_reachable horm hok hmarked) (hcore.reachable _ _ _ hconfirmed)
    -- core was not given this server
    have hout : id ∉ ids.filter fun id => !isCloudflareServer servers id := by
      intro hother
      have hnot := (List.mem_filter.mp hother).2
      rw [htype] at hnot
      cases hnot
    obtain ⟨record, hrecord, hcloudflare⟩ := isCloudflareServer_iff.mp htype
    have hstored : later.records id = some (store record doneValues) := by
      rw [hcore.others _ _ _ hconfirmed id hout, records_markDone, hrecord, Option.map_some,
        if_pos hmem]
    refine isServed_of_done horm hsafe hlater hbase hstored ?_ ?_
    · rw [store_doneValues, if_neg (by decide), hcloudflare]
    · rw [store_doneValues, if_pos rfl]
  · cases hconfirmed

/-! ### A run -/

/-- Core, when it is given no server of its own. -/
def sampleConfirming : Confirming where
  py := asciiData
  validNetloc := fun _ => true
  baseUrl := some "https://odoo.example.com/".toList
  core := fun servers ids => if ids = [] then some servers else none

theorem sampleConfirming_sound : sampleConfirming.Sound orm where
  reachable := by
    intro s ids s' h
    simp only [sampleConfirming, Option.ite_none_right_eq_some, Option.some.injEq] at h
    rw [← h.2]
    exact .start
  others := by
    intro s ids s' h id _
    simp only [sampleConfirming, Option.ite_none_right_eq_some, Option.some.injEq] at h
    rw [← h.2]

theorem confirmed_served_created :
    ∃ servers later, ServersReachable tokenOrm noServers servers ∧
      sampleConfirming.buttonConfirmLogin tokenOrm servers [0] = some later ∧
      IsServed sampleConfirming later 0 := by
  have hrun : (runActions (serverStep tokenOrm) (fun _ action => action.Allowed) noServers
      [.create [ofType "cloudflare"]]).any (fun servers =>
        (servers.records 0).isSome && isCloudflareServer servers 0) = true := by
    decide +kernel
  obtain ⟨servers, hreach, hgood⟩ := exists_reachable_of_runActions _ hrun
  rw [Bool.and_eq_true] at hgood
  have hinit : NoneYet noServers := ⟨fun _ _ => rfl, fun _ _ h => by cases h⟩
  have hids : ∀ id ∈ [0], (servers.records id).isSome = true := by
    intro id hid
    rw [List.mem_singleton.mp hid]
    exact hgood.1
  obtain ⟨heq, hruns⟩ := confirmed_served (c := sampleConfirming) tokenOrm_sound tokenOrm_urlSafe
    sampleConfirming_sound
  obtain ⟨hcredentials, hserved⟩ := hruns noServers servers hinit hreach
  have hbase : sampleConfirming.checkBaseUrl = true := by decide +kernel
  have hfilter : [0].filter (isCloudflareServer servers) = [0] := by simp [hgood.2]
  have hconfirmed : sampleConfirming.buttonConfirmLogin tokenOrm servers [0] =
      some (servers.markDone [0]) := by
    rw [heq servers [0] hids, hfilter, if_pos ⟨by simp [hcredentials 0 hgood.2], Or.inl hbase⟩]
    simp [hgood.2, sampleConfirming]
  exact ⟨servers, _, hreach, hconfirmed, hserved [0] _ hids hconfirmed 0 (by simp) hgood.2⟩

end MailCloudflare
