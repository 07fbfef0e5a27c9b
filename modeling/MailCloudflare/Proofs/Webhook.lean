/-
A deployed Worker stays with its server.

The form of a server shows a URL and a secret, and a Worker is deployed with the two.  The
URL is `web.base.url` with a path that ends in the server's key, so splitting and routing it
gives the key back; the key is this server's alone and is never given up, so a search for it
finds this server or, when that is not confirmed or is archived, none.  With the secret, what
the Worker signs is accepted.
-/
import MailCloudflare.Proofs.Arrival
import MailCloudflare.Proofs.Credentials
import MailCloudflare.Proofs.Timestamps

namespace MailCloudflare

open Unicode JavaScript Python Keyed Transition

variable {orm : Orm} {servers later : Servers} {id : Nat} {record : ServerRecord} {key : Str}

/-! ### A key in a URL -/

/-- A character that stands for itself in a URL. -/
def isUrlSafe (c : Char) : Bool := c.isAlphanum || c = '-' || c = '_'

/-- `secrets.token_urlsafe` needs no escaping. -/
def Orm.UrlSafe (orm : Orm) : Prop := ∀ n, ∀ c ∈ orm.token n, isUrlSafe c = true

theorem isUrlSafe_range {c : Char} (h : isUrlSafe c = true) : 0x20 < c.toNat ∧ c.toNat < 0x80 := by
  simp only [isUrlSafe, Bool.or_eq_true, decide_eq_true_eq] at h
  rcases h with (h | rfl) | rfl
  · change ((decide (65 ≤ c.val ∧ c.val ≤ 90) ||
      decide (97 ≤ c.val) && decide (c.val ≤ 122)) ||
      decide (48 ≤ c.val) && decide (c.val ≤ 57)) = true at h
    simp only [Bool.or_eq_true, Bool.and_eq_true, decide_eq_true_eq] at h
    change ((65 ≤ c.toNat ∧ c.toNat ≤ 90) ∨ (97 ≤ c.toNat ∧ c.toNat ≤ 122)) ∨
      (48 ≤ c.toNat ∧ c.toNat ≤ 57) at h
    omega
  · decide
  · decide

/-- The characters that mean something in a URL are not among them. -/
theorem ne_of_isUrlSafe {c : Char} (h : isUrlSafe c = true) :
    c ≠ '/' ∧ c ≠ ':' ∧ c ≠ '?' ∧ c ≠ '#' ∧ c ≠ '%' := by
  refine ⟨?_, ?_, ?_, ?_, ?_⟩ <;> rintro rfl <;> cases h

theorem isPlainPath_inboundPath (h : ∀ c ∈ key, isUrlSafe c = true) :
    IsPlainPath (inboundPath key) where
  slash := rfl
  plain := by
    intro c hc
    have hfront : (INBOUND_PATH ++ ['/']).all (fun c => decide (0x20 < c.toNat) && decide (c ≠ ':') &&
        decide (c ≠ '?') && decide (c ≠ '#')) = true := by decide
    have hsplit : c ∈ INBOUND_PATH ++ ['/'] ∨ c ∈ key := by
      rw [← List.mem_append, List.append_assoc]
      exact hc
    rcases hsplit with hc | hc
    · simpa [and_assoc] using List.all_eq_true.mp hfront c hc
    · obtain ⟨-, hcolon, hquery, hfragment, -⟩ := ne_of_isUrlSafe (h c hc)
      exact ⟨(isUrlSafe_range (h c hc)).1, hcolon, hquery, hfragment⟩

theorem routedKey_inboundPath (h : ∀ c ∈ key, isUrlSafe c = true) (hne : key ≠ []) :
    routedKey (inboundPath key) = some key := by
  have hplain : '%' ∉ inboundPath key := by
    intro hmem
    rcases List.mem_append.mp hmem with hmem | hmem
    · exact absurd hmem (by decide)
    · rcases List.mem_cons.mp hmem with heq | hmem
      · cases heq
      · exact (ne_of_isUrlSafe (h _ hmem)).2.2.2.2 rfl
  have hslash : '/' ∉ key := fun hmem => (ne_of_isUrlSafe (h _ hmem)).1 rfl
  have hpath : inboundPath key = inboundPath [] ++ key := by simp [inboundPath]
  unfold routedKey
  rw [unquote, if_neg hplain, hpath]
  simp [hslash, present_some hne]

/-- **The route finds the key of a webhook URL.** -/
theorem webhookKey_url (origin : Origin) (k : Nat) (h : ∀ c ∈ key, isUrlSafe c = true)
    (hne : key ≠ []) :
    routedNetwork.webhookKey
      (units (rstripSlash (origin.text ++ List.replicate k '/') ++ inboundPath key)) = key := by
  simp only [routedNetwork, charactersOf_units, rstripSlash_origin,
    urlsplit_origin _ _ (isPlainPath_inboundPath h), if_true, Option.bind_some,
    routedKey_inboundPath h hne, Option.getD_some]

/-! ### The server a key leads to -/

/-- A server the route serves: of the type, active and confirmed. -/
def IsLive (record : ServerRecord) : Prop :=
  record SERVER_TYPE = CLOUDFLARE ∧ (record ACTIVE).truthy = true ∧ record STATE = DONE

instance : DecidablePred IsLive := fun _ => inferInstanceAs (Decidable (_ ∧ _ ∧ _))

variable {model : FieldValue → Option Str} {rows : List Server}

theorem mem_table (hok : CredentialsOk orm servers) {s : Server} :
    s ∈ servers.table model ↔
      ∃ id record, servers.records id = some record ∧ s = toServer model id record := by
  rw [Servers.table, List.mem_filterMap]
  constructor
  · rintro ⟨id, -, hs⟩
    obtain ⟨record, hrecord, rfl⟩ := Option.map_eq_some_iff.mp hs
    exact ⟨id, record, hrecord, rfl⟩
  · rintro ⟨id, record, hrecord, rfl⟩
    have hid : id < servers.nextId := by
      by_contra hlarge
      rw [hok.unused id (by omega)] at hrecord
      cases hrecord
    exact ⟨id, List.mem_range.mpr hid, by rw [hrecord]; rfl⟩

theorem text?_eq_some {value : FieldValue} {s : Str} : value.text? = some s ↔ value = .text s := by
  cases value <;> simp [FieldValue.text?]

/-- What is searched for. -/
theorem matches_toServer (model : FieldValue → Option Str) (id : Nat) (record : ServerRecord)
    (key : Str) :
    ((toServer model id record).active && (toServer model id record).webhookKey = some key &&
        (toServer model id record).serverType = .cloudflare &&
        (toServer model id record).state = .done) = true ↔
      IsLive record ∧ record WEBHOOK_KEY = .text key := by
  have htype : (toServer model id record).serverType = .cloudflare ↔
      record SERVER_TYPE = CLOUDFLARE := by
    by_cases h : record SERVER_TYPE = CLOUDFLARE <;> simp [toServer, h]
  have hstate : (toServer model id record).state = .done ↔ record STATE = DONE := by
    by_cases h : record STATE = DONE <;> simp [toServer, h]
  have hkey : (toServer model id record).webhookKey = some key ↔ record WEBHOOK_KEY = .text key :=
    text?_eq_some
  have hactive : (toServer model id record).active = (record ACTIVE).truthy := rfl
  simp only [Bool.and_eq_true, decide_eq_true_eq, htype, hstate, hkey, hactive, IsLive]
  tauto

/-- **A key leads to the server that has it, while that is live, and never to another one.** -/
theorem findByKey_table (hok : CredentialsOk orm servers) (hrecord : servers.records id = some record)
    (hkey : record WEBHOOK_KEY = .text key) (hne : key ≠ [])
    (hrows : rows.Perm (servers.table model)) :
    cloudflareFindByKey rows key =
      if IsLive record then some (toServer model id record) else none := by
  have hunique : ∀ s ∈ rows, (s.active && s.webhookKey = some key && s.serverType = .cloudflare &&
      s.state = .done) = true → IsLive record ∧ s = toServer model id record := by
    intro s hs hmatches
    obtain ⟨other, found, hfound, rfl⟩ := (mem_table hok).mp (hrows.mem_iff.mp hs)
    obtain ⟨hlive, hsame⟩ := (matches_toServer model other found key).mp hmatches
    by_cases hother : other = id
    · subst hother
      cases hfound.symm.trans hrecord
      exact ⟨hlive, rfl⟩
    · have htruthy : (found WEBHOOK_KEY).truthy = true := by
        rw [hsame]
        exact decide_eq_true hne
      exact absurd (hsame.trans hkey.symm)
        (hok.distinct other id found record hother hfound hrecord _ (Or.inl rfl) htruthy)
  rw [cloudflareFindByKey, if_neg hne]
  cases hfind : rows.find? _ with
  | some s =>
      have hmatches := List.find?_some hfind
      obtain ⟨hlive, rfl⟩ := hunique s (List.mem_of_find?_eq_some hfind) hmatches
      rw [if_pos hlive]
  | none =>
      have hnone := List.find?_eq_none.mp hfind
      rw [if_neg]
      intro hlive
      have hmem : toServer model id record ∈ rows :=
        hrows.mem_iff.mpr ((mem_table hok).mpr ⟨id, record, hrecord, rfl⟩)
      exact hnone _ hmem ((matches_toServer model id record key).mpr ⟨hlive, hkey⟩)

/-! ### What the form shows -/

/-- The key in a URL is one the server was issued. -/
theorem exists_key_of_webhookUrl (horm : orm.Sound) (hok : CredentialsOk orm servers)
    (hrecord : servers.records id = some record) {baseUrl : Option Str} {url : Str}
    (hurl : cloudflareWebhookUrl baseUrl record = some url) :
    ∃ n, record WEBHOOK_KEY = .text (orm.token n) ∧
      url = rstripSlash (baseUrl.getD []) ++ inboundPath (orm.token n) := by
  unfold cloudflareWebhookUrl at hurl
  split at hurl
  · obtain ⟨key, hkey, rfl⟩ := Option.map_eq_some_iff.mp hurl
    rcases hok.issued id record hrecord _ (Or.inl rfl) with hno | ⟨n, -, -, htoken⟩
    · rw [hno] at hkey
      cases hkey
    · refine ⟨n, htoken, ?_⟩
      rw [htoken] at hkey
      change present (some (orm.token n)) = some key at hkey
      rw [present_some (horm.token_ne n), Option.some.injEq] at hkey
      rw [hkey]
  · cases hurl

/-- A Worker is deployed with what the form of a server shows. -/
structure Deployed (zod : Zod) (baseUrl : Str) (record : ServerRecord) (vars : Env)
    (config : WorkerConfig) : Prop where
  url : ∃ url, cloudflareWebhookUrl (some baseUrl) record = some url ∧
    vars .ODOO_INBOUND_URL = some (units url)
  secret : ∃ secret, record WEBHOOK_SECRET = .text secret ∧
    vars .ODOO_WEBHOOK_SECRET = some (units secret)
  loaded : loadConfig zod vars = .ok config

variable {zod : Zod} {vars : Env} {config : WorkerConfig}

/-- The URL and the secret are read as they stand in the vars, without white space around. -/
theorem loadConfig_inbound (h : loadConfig zod vars = .ok config) :
    presentVars vars .ODOO_INBOUND_URL = some config.inboundUrl ∧
      presentVars vars .ODOO_WEBHOOK_SECRET = some config.webhookSecret := by
  unfold loadConfig at h
  split at h
  · cases h
  · rename_i v hv
    cases h
    unfold EnvSchema at hv
    dsimp only at hv
    split at hv
    · rename_i url secret _ _ _ _ _ hurl hsecret _ _ _ _ _ _
      cases hv
      constructor
      · unfold inboundUrlField at hurl
        split at hurl
        · cases hurl
        · rename_i raw hraw
          split at hurl
          · cases hurl
            exact hraw
          · cases hurl
      · unfold webhookSecretField at hsecret
        split at hsecret
        · cases hsecret
        · rename_i raw hraw
          split at hsecret
          · cases hsecret
          · cases hsecret
            exact hraw
    · cases hv

/-- Text between printable ASCII characters is left alone by `trim`. -/
theorem trim_units {s : Str} (hfirst : ∀ c ∈ s.head?, 0x20 < c.toNat ∧ c.toNat < 0x80)
    (hlast : ∀ c ∈ s.getLast?, 0x20 < c.toNat ∧ c.toNat < 0x80) : trim (units s) = units s := by
  have hspace : ∀ n : Fin 0x80, 0x20 < n.val → JavaScript.isSpace (UInt16.ofNat n) = false := by
    decide +kernel
  have hchar : ∀ c : Char, c.toNat < 0x80 → unitsOfChar c = [UInt16.ofNat c.toNat] :=
    fun c hc => unitsOfChar_of_lt (by omega)
  refine trim_eq_self ?_ ?_
  · intro u hu
    cases s with
    | nil => cases hu
    | cons c s =>
        obtain ⟨hlo, hhi⟩ := hfirst c rfl
        rw [units_cons, hchar c hhi] at hu
        cases hu
        exact hspace ⟨c.toNat, hhi⟩ hlo
  · intro u hu
    rcases List.eq_nil_or_concat s with rfl | ⟨s, c, rfl⟩
    · cases hu
    · rw [List.concat_eq_append] at hlast hu
      obtain ⟨hlo, hhi⟩ := hlast c (by simp)
      rw [units_append, show units [c] = [UInt16.ofNat c.toNat] by simp [units, hchar c hhi],
        List.getLast?_concat] at hu
      cases hu
      exact hspace ⟨c.toNat, hhi⟩ hlo

theorem eq_of_presentVars {name : VarName} {s : Str} {value : Units}
    (hvar : vars name = some (units s)) (hfirst : ∀ c ∈ s.head?, 0x20 < c.toNat ∧ c.toNat < 0x80)
    (hlast : ∀ c ∈ s.getLast?, 0x20 < c.toNat ∧ c.toNat < 0x80)
    (h : presentVars vars name = some value) : value = units s := by
  rw [presentVars, hvar, Option.bind_some, trim_units hfirst hlast] at h
  split at h
  · exact (Option.some.inj h).symm
  · cases h

/-- A webhook URL begins and ends with a plain character. -/
theorem url_ends (origin : Origin) (h : ∀ c ∈ key, isUrlSafe c = true) (hne : key ≠ []) :
    (∀ c ∈ (origin.text ++ inboundPath key).head?, 0x20 < c.toNat ∧ c.toNat < 0x80) ∧
      (∀ c ∈ (origin.text ++ inboundPath key).getLast?, 0x20 < c.toNat ∧ c.toNat < 0x80) := by
  constructor
  · intro c hc
    have halpha := origin.scheme_alpha
    cases hscheme : origin.scheme with
    | nil =>
        rw [hscheme] at halpha
        cases halpha
    | cons d rest =>
        rw [hscheme] at halpha
        have hd : d.isAlpha = true := halpha
        have hc : c = d := by simpa [Origin.text, hscheme, eq_comm] using hc
        rw [hc]
        exact isUrlSafe_range (by simp [isUrlSafe, Char.isAlphanum, hd])
  · intro c hc
    obtain ⟨s, d, rfl⟩ : ∃ s d, key = s ++ [d] := by
      rcases List.eq_nil_or_concat key with hnil | ⟨s, d, hs⟩
      · exact absurd hnil hne
      · exact ⟨s, d, by rw [hs, List.concat_eq_append]⟩
    rw [inboundPath, ← List.cons_append, ← List.append_assoc, ← List.append_assoc,
      List.getLast?_concat] at hc
    cases hc
    exact isUrlSafe_range (h c (by simp))

/-- What the Worker is configured with is what the form showed. -/
theorem Deployed.config_eq (horm : orm.Sound) (hsafe : orm.UrlSafe) (hok : CredentialsOk orm servers)
    (hrecord : servers.records id = some record) {origin : Origin} {k : Nat} {baseUrl : Str}
    (hbase : baseUrl = origin.text ++ List.replicate k '/')
    (h : Deployed zod baseUrl record vars config) :
    ∃ m n, record WEBHOOK_KEY = .text (orm.token m) ∧ record WEBHOOK_SECRET = .text (orm.token n) ∧
      config.inboundUrl = units (rstripSlash baseUrl ++ inboundPath (orm.token m)) ∧
      config.webhookSecret = units (orm.token n) := by
  obtain ⟨⟨url, hurl, hvarUrl⟩, ⟨secret, hsecret, hvarSecret⟩, hload⟩ := h
  obtain ⟨m, hkey, rfl⟩ := exists_key_of_webhookUrl horm hok hrecord hurl
  obtain ⟨n, rfl⟩ : ∃ n, secret = orm.token n := by
    rcases hok.issued id record hrecord _ (Or.inr rfl) with hno | ⟨n, -, -, htoken⟩
    · rw [hno] at hsecret
      cases hsecret
    · exact ⟨n, FieldValue.text.inj (hsecret.symm.trans htoken)⟩
  obtain ⟨hconfigUrl, hconfigSecret⟩ := loadConfig_inbound hload
  have hends := url_ends origin (hsafe m) (horm.token_ne m)
  rw [← rstripSlash_origin origin k, ← hbase] at hends
  refine ⟨m, n, hkey, hsecret, eq_of_presentVars hvarUrl hends.1 hends.2 hconfigUrl,
    eq_of_presentVars hvarSecret ?_ ?_ hconfigSecret⟩
  · intro c hc
    exact isUrlSafe_range (hsafe n c (List.mem_of_head? hc))
  · intro c hc
    exact isUrlSafe_range (hsafe n c (List.mem_of_getLast? hc))

/-! ### Deliveries -/

variable {env : Worker} {odoo : Odoo} {loaded : LoadedConfig} {row : InboxRow}
  {attempt now : Nat} {raw stored : Bytes} {request : Request}

/--
**A deployed Worker stays with its server.**  Let the base URL be an origin and slashes, and
let no call, before the Worker was deployed or after, pass the credential fields or give this
server a new secret since.  Then every delivery is for this server: while it is live the
gateway is handed the stored bytes, unless the signature is too old, and otherwise the answer
is that there is no such key.
-/
theorem deployed_worker_served (horm : orm.Sound) (hsafe : orm.UrlSafe) {initial : Servers}
    (hinit : NoneYet initial) (hreach : ServersReachable orm initial servers)
    (hrecord : servers.records id = some record) {origin : Origin} {k : Nat} {baseUrl : Str}
    (hbase : baseUrl = origin.text ++ List.replicate k '/')
    (hdeployed : Deployed zod baseUrl record vars loaded.toWorkerConfig)
    (hlater : Reachable (serverStep orm) (fun _ action => action.Allowed ∧ id ∉ action.renewed)
      servers later)
    (hrows : rows.Perm (later.table model)) (hhmac : odoo.hmac = env.hmac)
    (hnow : now ≤ MAX_SAFE_INTEGER)
    (hstored : prependHeaders raw (envelopeHeaders row.envelopeFrom row.envelopeTo) = .ok stored)
    (hrequest : deliveryRequest env loaded row attempt stored now = some request) (time : ℚ) :
    ∃ record', later.records id = some record' ∧
      receive odoo (routedNetwork.arrival request) rows time =
        if IsLive record' then
          if (truncate time - unixSeconds now).natAbs ≤ SIGNATURE_TOLERANCE then
            .processing (toServer model id record')
              { fetchmailServer := id
                model := model (record' OBJECT_ID)
                message := stored
                saveOriginal := (record' ORIGINAL).truthy
                stripAttachments := !(record' ATTACH).truthy }
          else .returned (respond 401 (some "invalid signature".toList) none)
        else .returned (respond 404 (some "unknown webhook key".toList) none) := by
  have hok : CredentialsOk orm servers := credentialsOk_reachable horm hinit.credentialsOk hreach
  have hok' : CredentialsOk orm later :=
    credentialsOk_reachable horm hok (hlater.weaken fun _ _ hboth => hboth.1)
  obtain ⟨m, n, hkey, hsecret, hurl, hsigned⟩ := hdeployed.config_eq horm hsafe hok hrecord hbase
  have htruthy := truthy_token horm
  -- both credentials are still there
  obtain ⟨record', hrecord', hkey'⟩ := keeps_reachable horm hok (Or.inl rfl) (htruthy m)
    ⟨record, hrecord, hkey⟩ (hlater.weaken fun _ _ hboth => ⟨hboth.1, Or.inl rfl⟩)
  obtain ⟨found, hfound, hsecret'⟩ := keeps_reachable horm hok (Or.inr rfl) (htruthy n)
    ⟨record, hrecord, hsecret⟩ (hlater.weaken fun _ _ hboth => ⟨hboth.1, Or.inr hboth.2⟩)
  cases hfound.symm.trans hrecord'
  have hrouted : routedNetwork.webhookKey loaded.inboundUrl = orm.token m := by
    rw [hurl, hbase, webhookKey_url origin k (hsafe m) (horm.token_ne m)]
  have hfind := findByKey_table hok' hrecord' hkey' (horm.token_ne m) hrows
  refine ⟨record', hrecord', ?_⟩
  by_cases hlive : IsLive record'
  · rw [if_pos hlive] at hfind ⊢
    rw [← hrouted] at hfind
    exact receive_arrival hhmac (horm.token_ne n) hsigned hfind (text?_eq_some.mpr hsecret') hnow
      hstored hrequest time
  · rw [if_neg hlive] at hfind ⊢
    unfold receive
    rw [arrival_key routedNetwork hrequest, hrouted, hfind]

/-! ### A run -/

/-- New servers are active and poll with IMAP, and the tokens are of growing length. -/
def tokenOrm : Orm where
  defaults := fun name =>
    if name = SERVER_TYPE then .text "imap".toList else if name = ACTIVE then .number 1 else .no
  configuration := "Deploy the Cloudflare Email Worker".toList
  token := fun n => List.replicate (n + 16) 'a'

theorem tokenOrm_sound : tokenOrm.Sound where
  type_default := by decide
  key_default := by decide
  secret_default := by decide
  token_ne := fun n => by simp [tokenOrm]
  token_fresh := by
    intro m n hsame
    have hlength := congrArg List.length hsame
    simpa [tokenOrm] using hlength

theorem tokenOrm_urlSafe : tokenOrm.UrlSafe := by
  intro n c hc
  rw [List.eq_of_mem_replicate hc]
  decide

def sampleOrigin : Origin where
  scheme := "https".toList
  netloc := "odoo.example.com".toList
  scheme_alpha := by decide
  scheme_char := by decide
  netloc_ne := by decide
  netloc_char := by
    intro c hc
    have hall : "odoo.example.com".toList.all
        (fun c => decide (0x20 < c.toNat) && !endsNetloc c) = true := by decide
    simpa using List.all_eq_true.mp hall c hc

/-- A server is created and confirmed. -/
def confirmedRun : List ServerAction :=
  [.create [ofType "cloudflare"], .write [0] (Dict.set .empty STATE DONE)]

/-- It is switched to another type and back, and created servers follow. -/
def laterRun : List ServerAction :=
  [.write [0] (ofType "imap"), .create [ofType "cloudflare"], .write [0, 1] (ofType "cloudflare")]

/-- The vars of a Worker deployed with the tokens of the first server. -/
def deployedVars : Env
  | .ODOO_INBOUND_URL =>
    some (js "https://odoo.example.com/mail_cloudflare/inbound/aaaaaaaaaaaaaaaa")
  | .ODOO_WEBHOOK_SECRET => some (js "aaaaaaaaaaaaaaaaa")
  | _ => none

def deployedConfig : LoadedConfig :=
  { sampleConfig with
    inboundUrl := js "https://odoo.example.com/mail_cloudflare/inbound/aaaaaaaaaaaaaaaa"
    webhookSecret := js "aaaaaaaaaaaaaaaaa"
    retentionMs := 30 * DAY_MS
    maxAttempts := 32
    deliveryTimeoutMs := 30000
    maxAttempts_pos := by decide }

theorem deployed_worker_served_later : ∃ servers later request,
    ServersReachable tokenOrm noServers servers ∧ ServersReachable tokenOrm servers later ∧
      deliveryRequest signingWorker deployedConfig sampleRow 1 sampleStored 7 = some request ∧
      ∃ record, later.records 0 = some record ∧
        receive sampleOdoo (routedNetwork.arrival request) (later.table fun _ => none) 100 =
          .processing (toServer (fun _ => none) 0 record)
            { fetchmailServer := 0
              model := none
              message := sampleStored
              saveOriginal := (record ORIGINAL).truthy
              stripAttachments := !(record ATTACH).truthy } := by
  have hrun : (runActions (serverStep tokenOrm) (fun _ action => action.Allowed) noServers
      confirmedRun).any (fun servers =>
        (credentialsOf servers 0 =
            some (.text (tokenOrm.token 0), .text (tokenOrm.token 1)) &&
          isCloudflareServer servers 0) &&
          (runActions (serverStep tokenOrm) (fun _ action => action.Allowed ∧ 0 ∉ action.renewed)
            servers laterRun).any fun later => (later.records 0).any fun record => IsLive record) =
        true := by
    decide +kernel
  obtain ⟨servers, hreach, hgood⟩ := exists_reachable_of_runActions _ hrun
  rw [Bool.and_eq_true, Bool.and_eq_true, decide_eq_true_eq] at hgood
  obtain ⟨⟨hcredentials, htype⟩, hrun'⟩ := hgood
  obtain ⟨later, hlater, hlive⟩ := exists_reachable_of_runActions _ hrun'
  obtain ⟨record, hrecord, hpair⟩ := Option.map_eq_some_iff.mp hcredentials
  obtain ⟨hkey, hsecret⟩ := Prod.mk.inj hpair
  have hcloudflare : record SERVER_TYPE = CLOUDFLARE := by
    simpa [isCloudflareServer, hrecord] using htype
  have hinit : NoneYet noServers := ⟨fun _ _ => rfl, fun _ _ h => by cases h⟩
  have hbase : "https://odoo.example.com".toList =
      sampleOrigin.text ++ List.replicate 0 '/' := by decide
  have hdeployed : Deployed plainZod "https://odoo.example.com".toList record deployedVars
      deployedConfig.toWorkerConfig := by
    refine ⟨⟨"https://odoo.example.com/mail_cloudflare/inbound/aaaaaaaaaaaaaaaa".toList, ?_, rfl⟩,
      ⟨tokenOrm.token 1, hsecret, rfl⟩, ?_⟩
    · rw [cloudflareWebhookUrl, if_pos hcloudflare, hkey]
      decide +kernel
    · rfl
  have hstored : prependHeaders sampleMessage.raw
      (envelopeHeaders sampleRow.envelopeFrom sampleRow.envelopeTo) = .ok sampleStored := by
    decide +kernel
  have hsome : (deliveryRequest signingWorker deployedConfig sampleRow 1 sampleStored 7).isSome := by
    decide +kernel
  obtain ⟨request, hrequest⟩ := Option.isSome_iff_exists.mp hsome
  obtain ⟨record', hrecord', hreceive⟩ := deployed_worker_served tokenOrm_sound tokenOrm_urlSafe
    hinit hreach hrecord hbase hdeployed hlater (List.Perm.refl (later.table fun _ => none))
    (show sampleOdoo.hmac = signingWorker.hmac from rfl) (by decide) hstored hrequest 100
  have hlive' : IsLive record' := by simpa [hrecord'] using hlive
  refine ⟨servers, later, request, hreach, hlater.weaken fun _ _ h => h.1, hrequest, record',
    hrecord', ?_⟩
  rw [hreceive, if_pos hlive', if_pos (by decide +kernel)]

end MailCloudflare
