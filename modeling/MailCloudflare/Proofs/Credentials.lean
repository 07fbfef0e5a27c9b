/-
Webhook credentials are complete and stable.

Whatever a method does, it does one server at a time: it stores values over what one record
has, after taking some tokens.  `Stores` says what the values may be, for the two credentials
alike: there is none, or it is a token that was just taken and, unless the secret is being
regenerated, the server had none.  A server is created or written in this way (`Change`), and
every statement about runs is one about changes.
-/
import MailCloudflare.Base.Transition
import MailCloudflare.Odoo.Servers

namespace MailCloudflare

open Unicode Python Keyed

variable {orm : Orm} {servers servers' : Servers} {record : ServerRecord} {values : Values}

/-! ### Setting a default -/

theorem lookup_setDefault (values : Values) (name other : Str) (value : FieldValue) :
    (setDefault values name value).lookup other =
      if other = name then some ((values.lookup name).getD value) else values.lookup other := by
  unfold setDefault
  cases hname : values.lookup name with
  | some found =>
      rw [if_pos Option.isSome_some, Option.getD_some]
      split
      · rename_i heq
        rw [heq, hname]
      · rfl
  | none => rw [if_neg (by simp), Dict.lookup_set, Option.getD_none]

theorem lookup_setDefault_of_ne {name other : Str} (h : other ≠ name) (value : FieldValue) :
    (setDefault values name value).lookup other = values.lookup other := by
  rw [lookup_setDefault, if_neg h]

theorem lookup_setDefault_of_none {name : Str} (h : values.lookup name = none)
    (value : FieldValue) : (setDefault values name value).lookup name = some value := by
  rw [lookup_setDefault, if_pos rfl, h, Option.getD_none]

theorem store_of_none {name : Str} (h : values.lookup name = none) :
    store record values name = record name := by
  rw [store, h, Option.getD_none]

theorem store_of_some {name : Str} {value : FieldValue} (h : values.lookup name = some value) :
    store record values name = value := by
  rw [store, h, Option.getD_some]

/-! ### What a server may be given -/

/-- The two fields that hold a credential. -/
def IsCredential (name : Str) : Prop := name = WEBHOOK_KEY ∨ name = WEBHOOK_SECRET

/-- The value is a token taken at or after `first` and before `last`. -/
def IsToken (orm : Orm) (first last : Nat) (value : FieldValue) : Prop :=
  ∃ n, first ≤ n ∧ n < last ∧ value = .text (orm.token n)

/-- A server of this type has both credentials. -/
def Complete (record : ServerRecord) : Prop :=
  record SERVER_TYPE = CLOUDFLARE →
    (record WEBHOOK_KEY).truthy = true ∧ (record WEBHOOK_SECRET).truthy = true

/--
What is stored over a record when the tokens from `first` to `last` have been taken for it;
`renews` when the secret is being regenerated.
-/
structure Stores (orm : Orm) (renews : Bool) (first last : Nat) (record : ServerRecord)
    (values : Values) : Prop where
  taken : first ≤ last
  credential : ∀ name, IsCredential name →
    values.lookup name = none ∨
      ((renews = true ∧ name = WEBHOOK_SECRET) ∨ (record name).truthy = false) ∧
        ∃ value, values.lookup name = some value ∧ IsToken orm first last value
  complete : Complete record → Complete (store record values)

/-- Callers never pass the two credentials themselves. -/
def NoCredentials (values : Values) : Prop :=
  values.lookup WEBHOOK_KEY = none ∧ values.lookup WEBHOOK_SECRET = none

/-- What the database and the token source are relied on for. -/
structure Orm.Sound (orm : Orm) : Prop where
  type_default : orm.defaults SERVER_TYPE ≠ CLOUDFLARE
  key_default : orm.defaults WEBHOOK_KEY = .no
  secret_default : orm.defaults WEBHOOK_SECRET = .no
  token_ne : ∀ n, orm.token n ≠ []
  token_fresh : ∀ m n, orm.token m = orm.token n → m = n

theorem truthy_token (horm : orm.Sound) (n : Nat) :
    (FieldValue.text (orm.token n)).truthy = true :=
  decide_eq_true (horm.token_ne n)

theorem NoCredentials.lookup {name : Str} (h : NoCredentials values) (hname : IsCredential name) :
    values.lookup name = none := by
  rcases hname with rfl | rfl
  · exact h.1
  · exact h.2

/-- Values that name neither a credential nor the type are stored as they are. -/
theorem stores_plain (hvalues : NoCredentials values)
    (htype : values.lookup SERVER_TYPE ≠ some CLOUDFLARE) (first : Nat) :
    Stores orm false first first record values where
  taken := Nat.le_refl first
  credential := fun name hname => Or.inl (hvalues.lookup hname)
  complete := by
    intro hcomplete hcloudflare
    rw [store_of_none hvalues.1, store_of_none hvalues.2]
    refine hcomplete ?_
    cases hlookup : values.lookup SERVER_TYPE with
    | none => rwa [store_of_none hlookup] at hcloudflare
    | some value =>
        rw [store_of_some hlookup] at hcloudflare
        exact absurd (hcloudflare ▸ hlookup) htype

theorem stores_newServerValues (horm : orm.Sound) (hvalues : NoCredentials values) (first : Nat) :
    Stores orm false first (newServerValues orm first values).2 orm.defaults
      (newServerValues orm first values).1 := by
  unfold newServerValues
  split
  · dsimp only
    have hkey : (setDefault (setDefault (setDefault values WEBHOOK_KEY (.text (orm.token first)))
        WEBHOOK_SECRET (.text (orm.token (first + 1)))) CONFIGURATION
          (.text orm.configuration)).lookup WEBHOOK_KEY = some (.text (orm.token first)) := by
      rw [lookup_setDefault_of_ne (by decide), lookup_setDefault_of_ne (by decide),
        lookup_setDefault_of_none hvalues.1]
    have hsecret : (setDefault (setDefault (setDefault values WEBHOOK_KEY (.text (orm.token first)))
        WEBHOOK_SECRET (.text (orm.token (first + 1)))) CONFIGURATION
          (.text orm.configuration)).lookup WEBHOOK_SECRET =
            some (.text (orm.token (first + 1))) := by
      rw [lookup_setDefault_of_ne (by decide), lookup_setDefault_of_none]
      rw [lookup_setDefault_of_ne (by decide), hvalues.2]
    refine ⟨by omega, ?_, ?_⟩
    · rintro name (rfl | rfl)
      · exact Or.inr ⟨Or.inr (by rw [horm.key_default]; rfl), _, hkey, first, by omega, by omega, rfl⟩
      · exact Or.inr ⟨Or.inr (by rw [horm.secret_default]; rfl), _, hsecret, first + 1, by omega,
          by omega, rfl⟩
    · intro _ _
      rw [store_of_some hkey, store_of_some hsecret]
      exact ⟨truthy_token horm _, truthy_token horm _⟩
  · rename_i htype
    exact stores_plain hvalues htype first

theorem IsToken.mono {first first' last last' : Nat} {value : FieldValue}
    (h : IsToken orm first last value) (hfirst : first' ≤ first) (hlast : last ≤ last') :
    IsToken orm first' last' value := by
  obtain ⟨n, hle, hlt, hvalue⟩ := h
  exact ⟨n, by omega, by omega, hvalue⟩

theorem IsToken.truthy (horm : orm.Sound) {first last : Nat} {value : FieldValue}
    (h : IsToken orm first last value) : value.truthy = true := by
  obtain ⟨n, -, -, rfl⟩ := h
  exact truthy_token horm n

/-- A credential is given to a record that has none, and to no other. -/
def Given (orm : Orm) (first last : Nat) (record : ServerRecord) (values : Values) (name : Str) :
    Prop :=
  (record name).truthy = true ∧ values.lookup name = none ∨
    (record name).truthy = false ∧
      ∃ value, values.lookup name = some value ∧ IsToken orm first last value

theorem given_missingCredential (orm : Orm) (record : ServerRecord) {name : Str}
    (state : Values × Nat) (h : state.1.lookup name = none) :
    Given orm state.2 (missingCredential orm record name state).2 record
        (missingCredential orm record name state).1 name ∧
      state.2 ≤ (missingCredential orm record name state).2 ∧
      ∀ other, other ≠ name →
        (missingCredential orm record name state).1.lookup other = state.1.lookup other := by
  unfold missingCredential Given
  cases htruthy : (record name).truthy with
  | true => exact ⟨Or.inl ⟨rfl, h⟩, Nat.le_refl _, fun _ _ => rfl⟩
  | false =>
      refine ⟨Or.inr ⟨rfl, _, lookup_setDefault_of_none h _, state.2, Nat.le_refl _,
        Nat.lt_succ_self _, rfl⟩, Nat.le_succ _, ?_⟩
      intro other hne
      exact lookup_setDefault_of_ne hne _

theorem Given.mono {first first' last last' : Nat} {name : Str}
    (h : Given orm first last record values name) (hfirst : first' ≤ first) (hlast : last ≤ last') :
    Given orm first' last' record values name := by
  rcases h with hhas | ⟨hlacks, value, hvalue, htoken⟩
  · exact Or.inl hhas
  · exact Or.inr ⟨hlacks, value, hvalue, htoken.mono hfirst hlast⟩

theorem Given.truthy (horm : orm.Sound) {first last : Nat} {name : Str}
    (h : Given orm first last record values name) : (store record values name).truthy = true := by
  rcases h with ⟨htruthy, hnone⟩ | ⟨-, value, hvalue, htoken⟩
  · rw [store_of_none hnone]
    exact htruthy
  · rw [store_of_some hvalue]
    exact htoken.truthy horm

theorem given_cloudflareServerValues (orm : Orm) (record : ServerRecord)
    (hvalues : NoCredentials values) (first : Nat) :
    first ≤ (cloudflareServerValues orm first record values).2 ∧
      ∀ name, IsCredential name →
        Given orm first (cloudflareServerValues orm first record values).2 record
          (cloudflareServerValues orm first record values).1 name := by
  have hnone : ∀ name, IsCredential name →
      (setDefault values CONFIGURATION (.text orm.configuration)).lookup name = none := by
    intro name hname
    have hne : name ≠ CONFIGURATION := by
      rcases hname with rfl | rfl
      · decide
      · decide
    rw [lookup_setDefault_of_ne hne, hvalues.lookup hname]
  unfold cloudflareServerValues
  dsimp only
  obtain ⟨hkey, hle, hothers⟩ := given_missingCredential orm record
    (setDefault values CONFIGURATION (.text orm.configuration), first)
    (hnone WEBHOOK_KEY (Or.inl rfl))
  have hsecret := (hothers WEBHOOK_SECRET (by decide)).trans (hnone WEBHOOK_SECRET (Or.inr rfl))
  generalize missingCredential orm record WEBHOOK_KEY
    (setDefault values CONFIGURATION (.text orm.configuration), first) = state at *
  obtain ⟨hgiven, hle', hothers'⟩ := given_missingCredential orm record state hsecret
  refine ⟨Nat.le_trans hle hle', ?_⟩
  rintro name (rfl | rfl)
  · unfold Given
    rw [hothers' _ (by decide)]
    exact hkey.mono (Nat.le_refl _) hle'
  · exact hgiven.mono hle (Nat.le_refl _)

theorem stores_cloudflareServerValues (horm : orm.Sound) (hvalues : NoCredentials values)
    (first : Nat) :
    Stores orm false first (cloudflareServerValues orm first record values).2 record
      (cloudflareServerValues orm first record values).1 := by
  obtain ⟨hle, hgiven⟩ := given_cloudflareServerValues orm record hvalues first
  refine ⟨hle, ?_, ?_⟩
  · intro name hname
    rcases hgiven name hname with ⟨-, hnone⟩ | ⟨hlacks, htoken⟩
    · exact Or.inl hnone
    · exact Or.inr ⟨Or.inr hlacks, htoken⟩
  · intro _ _
    exact ⟨(hgiven WEBHOOK_KEY (Or.inl rfl)).truthy horm,
      (hgiven WEBHOOK_SECRET (Or.inr rfl)).truthy horm⟩

/-- A new secret, whatever the server had. -/
theorem stores_newSecret (horm : orm.Sound) (first : Nat) :
    Stores orm true first (first + 1) record
      (Dict.set .empty WEBHOOK_SECRET (.text (orm.token first))) := by
  have hsecret : (Dict.set .empty WEBHOOK_SECRET (.text (orm.token first)) : Values).lookup
      WEBHOOK_SECRET = some (.text (orm.token first)) := by
    rw [Dict.lookup_set, if_pos rfl]
  have hothers : ∀ name, name ≠ WEBHOOK_SECRET →
      (Dict.set .empty WEBHOOK_SECRET (.text (orm.token first)) : Values).lookup name = none := by
    intro name hne
    rw [Dict.lookup_set, if_neg hne]
    rfl
  refine ⟨Nat.le_succ first, ?_, ?_⟩
  · rintro name (rfl | rfl)
    · exact Or.inl (hothers _ (by decide))
    · exact Or.inr ⟨Or.inl ⟨rfl, rfl⟩, _, hsecret, first, Nat.le_refl _, Nat.lt_succ_self _, rfl⟩
  · intro hcomplete hcloudflare
    rw [store_of_none (hothers _ (by decide))] at hcloudflare
    rw [store_of_none (hothers _ (by decide)), store_of_some hsecret]
    exact ⟨(hcomplete hcloudflare).1, truthy_token horm first⟩

/-! ### One server at a time -/

def setRecord (servers : Servers) (id : Nat) (record : ServerRecord) : Nat → Option ServerRecord :=
  fun other => if other = id then some record else servers.records other

/-- A server is created, or one that exists is written; `renewed` are those given a new secret. -/
inductive Change (orm : Orm) (renewed : List Nat) : Servers → Servers → Prop
  | created {servers : Servers} {values : Values} {last : Nat}
      (h : Stores orm false servers.nextToken last orm.defaults values) :
      Change orm renewed servers
        ⟨setRecord servers servers.nextId (store orm.defaults values), servers.nextId + 1, last⟩
  | written {servers : Servers} {id : Nat} {record : ServerRecord} {values : Values} {last : Nat}
      (hrecord : servers.records id = some record)
      (h : Stores orm (id ∈ renewed) servers.nextToken last record values) :
      Change orm renewed servers
        ⟨setRecord servers id (store record values), servers.nextId, last⟩

/-- A run of changes. -/
abbrev Changes (orm : Orm) (renewed : List Nat) : Servers → Servers → Prop :=
  Relation.ReflTransGen (Change orm renewed)

theorem Stores.weaken {renews : Bool} {first last : Nat}
    (h : Stores orm false first last record values) : Stores orm renews first last record values where
  taken := h.taken
  credential := by
    intro name hname
    rcases h.credential name hname with hnone | ⟨⟨hrenews, -⟩ | hlacks, htoken⟩
    · exact Or.inl hnone
    · cases hrenews
    · exact Or.inr ⟨Or.inr hlacks, htoken⟩
  complete := h.complete

/-- Creating the first of several servers. -/
theorem create_cons (orm : Orm) (servers : Servers) (values : Values) (rest : List Values) :
    create orm servers (values :: rest) =
      create orm
        ⟨setRecord servers servers.nextId
            (store orm.defaults (newServerValues orm servers.nextToken values).1),
          servers.nextId + 1, (newServerValues orm servers.nextToken values).2⟩ rest := rfl

theorem changes_create (horm : orm.Sound) {valsList : List Values}
    (hvalues : ∀ values ∈ valsList, NoCredentials values) (servers : Servers) :
    Changes orm [] servers (create orm servers valsList) := by
  induction valsList generalizing servers with
  | nil => exact .refl
  | cons values rest ih =>
      rw [create_cons]
      refine .head (.created (stores_newServerValues horm (hvalues values (by simp)) _)) (ih ?_ _)
      intro others hothers
      exact hvalues others (List.mem_cons_of_mem _ hothers)

theorem storeServer_eq_some {id : Nat} (h : storeServer servers id values = some servers') :
    ∃ record, servers.records id = some record ∧
      servers' = ⟨setRecord servers id (store record values), servers.nextId, servers.nextToken⟩ := by
  obtain ⟨record, hrecord, rfl⟩ := Option.map_eq_some_iff.mp h
  exact ⟨record, hrecord, rfl⟩

theorem changes_write (horm : orm.Sound) (hvalues : NoCredentials values) {ids : List Nat}
    (h : write orm servers ids values = some servers') : Changes orm [] servers servers' := by
  unfold write at h
  split at h
  · rename_i htype
    refine Transition.reflTransGen_foldlM ?_ h
    intro id _ s s' hturn
    obtain ⟨record, hrecord, rfl⟩ := storeServer_eq_some hturn
    exact .written hrecord (stores_plain hvalues htype _).weaken
  · refine Transition.reflTransGen_foldlM ?_ h
    intro id _ s s' hturn
    obtain ⟨record, hrecord, hstore⟩ := Option.bind_eq_some_iff.mp hturn
    obtain ⟨found, hfound, rfl⟩ := storeServer_eq_some hstore
    have hsame : record = found := Option.some.inj (hrecord.symm.trans hfound)
    subst hsame
    exact .written hrecord (stores_cloudflareServerValues horm hvalues _).weaken

theorem changes_regenerate (horm : orm.Sound) {ids : List Nat}
    (h : actionRegenerateSecret orm servers ids = some servers') :
    Changes orm ids servers servers' := by
  refine Transition.reflTransGen_foldlM ?_ h
  intro id hid s s' hturn
  have htype : (Dict.set .empty WEBHOOK_SECRET (.text (orm.token s.nextToken)) : Values).lookup
      SERVER_TYPE ≠ some CLOUDFLARE := by
    rw [Dict.lookup_set, if_neg (by decide)]
    exact (Option.some_ne_none CLOUDFLARE).symm
  unfold regenerateSecret write at hturn
  rw [if_pos htype] at hturn
  obtain ⟨s₁, hstore, hdone⟩ := Option.bind_eq_some_iff.mp hturn
  cases hdone
  obtain ⟨record, hrecord, rfl⟩ := storeServer_eq_some hstore
  refine .written hrecord ?_
  rw [decide_eq_true hid]
  exact stores_newSecret horm s.nextToken

/-- Callers never pass the credentials themselves. -/
def ServerAction.Allowed : ServerAction → Prop
  | .create valsList => ∀ values ∈ valsList, NoCredentials values
  | .write _ values => NoCredentials values
  | .regenerate _ => True

/-- The servers that are given a new secret. -/
def ServerAction.renewed : ServerAction → List Nat
  | .create _ | .write _ _ => []
  | .regenerate ids => ids

/-- **Every call is a run of changes of one server each.** -/
theorem changes_serverStep (horm : orm.Sound) {action : ServerAction} (hallowed : action.Allowed)
    (h : serverStep orm servers action = some servers') :
    Changes orm action.renewed servers servers' := by
  cases action with
  | create valsList =>
      cases h
      exact changes_create horm hallowed servers
  | write ids values => exact changes_write horm hallowed h
  | regenerate ids => exact changes_regenerate horm h

/-! ### The invariant -/

/-- What is in a credential field has come from the token source. -/
def Issued (orm : Orm) (last : Nat) (record : ServerRecord) (name : Str) : Prop :=
  record name = .no ∨ IsToken orm 0 last (record name)

structure CredentialsOk (orm : Orm) (servers : Servers) : Prop where
  /-- No server is at an id still to be given out. -/
  unused : ∀ id, servers.nextId ≤ id → servers.records id = none
  complete : ∀ id record, servers.records id = some record → Complete record
  issued : ∀ id record, servers.records id = some record →
    ∀ name, IsCredential name → Issued orm servers.nextToken record name
  /-- No two servers share a credential. -/
  distinct : ∀ id id' record record', id ≠ id' → servers.records id = some record →
    servers.records id' = some record' → ∀ name, IsCredential name →
      (record name).truthy = true → record name ≠ record' name

/-- A token is not what was issued before it. -/
theorem IsToken.ne_of_issued (horm : orm.Sound) {first last : Nat} {value : FieldValue}
    (h : IsToken orm first last value) {other : ServerRecord} {name : Str}
    (hother : Issued orm first other name) : value ≠ other name := by
  obtain ⟨n, hle, -, rfl⟩ := h
  rcases hother with hno | ⟨m, -, hlt, htoken⟩
  · rw [hno]
    exact FieldValue.noConfusion
  · rw [htoken]
    intro heq
    have hsame := horm.token_fresh n m (FieldValue.text.inj heq)
    omega

theorem Issued.mono {last last' : Nat} {name : Str} (h : Issued orm last record name)
    (hle : last ≤ last') : Issued orm last' record name :=
  h.imp_right fun htoken => htoken.mono (Nat.le_refl 0) hle

/-- What a credential field holds after values were stored: what it held, or a new token. -/
theorem Stores.cases {renews : Bool} {first last : Nat}
    (h : Stores orm renews first last record values) {name : Str} (hname : IsCredential name) :
    store record values name = record name ∨
      IsToken orm first last (store record values name) := by
  rcases h.credential name hname with hnone | ⟨-, value, hvalue, htoken⟩
  · exact Or.inl (store_of_none hnone)
  · rw [store_of_some hvalue]
    exact Or.inr htoken

theorem setRecord_self (servers : Servers) (id : Nat) (record : ServerRecord) :
    setRecord servers id record id = some record := if_pos rfl

theorem setRecord_of_ne {id other : Nat} (h : other ≠ id) (record : ServerRecord) :
    setRecord servers id record other = servers.records other := if_neg h

/-- Storing values over a record that keeps to the invariant keeps to it. -/
theorem CredentialsOk.put (horm : orm.Sound) (h : CredentialsOk orm servers) {id nextId : Nat}
    {renews : Bool} {last : Nat} (hstores : Stores orm renews servers.nextToken last record values)
    (hcomplete : Complete record)
    (hissued : ∀ name, IsCredential name → Issued orm servers.nextToken record name)
    (hdistinct : ∀ other record', other ≠ id → servers.records other = some record' →
      ∀ name, IsCredential name → (record name).truthy = true → record name ≠ record' name)
    (hid : id < nextId) (hnext : servers.nextId ≤ nextId) :
    CredentialsOk orm ⟨setRecord servers id (store record values), nextId, last⟩ where
  unused := by
    intro other hother
    have hlarge : nextId ≤ other := hother
    show setRecord servers id (store record values) other = none
    rw [setRecord_of_ne (by omega)]
    exact h.unused other (by omega)
  complete := by
    intro other found hfound
    change setRecord servers id (store record values) other = some found at hfound
    by_cases hother : other = id
    · rw [hother, setRecord_self] at hfound
      cases hfound
      exact hstores.complete hcomplete
    · rw [setRecord_of_ne hother] at hfound
      exact h.complete other found hfound
  issued := by
    intro other found hfound name hname
    change setRecord servers id (store record values) other = some found at hfound
    by_cases hother : other = id
    · rw [hother, setRecord_self] at hfound
      cases hfound
      rcases hstores.cases hname with hsame | htoken
      · unfold Issued
        rw [hsame]
        exact (hissued name hname).mono hstores.taken
      · exact Or.inr (htoken.mono (Nat.zero_le _) (Nat.le_refl _))
    · rw [setRecord_of_ne hother] at hfound
      exact (h.issued other found hfound name hname).mono hstores.taken
  distinct := by
    have hstored : ∀ other found', other ≠ id → servers.records other = some found' →
        ∀ name, IsCredential name → (store record values name).truthy = true →
          store record values name ≠ found' name := by
      intro other found' hother hfound' name hname htruthy
      rcases hstores.cases hname with hsame | htoken
      · rw [hsame] at htruthy ⊢
        exact hdistinct other found' hother hfound' name hname htruthy
      · exact htoken.ne_of_issued horm (h.issued other found' hfound' name hname)
    intro a b found found' hne hfound hfound' name hname htruthy
    change setRecord servers id (store record values) a = some found at hfound
    change setRecord servers id (store record values) b = some found' at hfound'
    by_cases ha : a = id
    · have hb : b ≠ id := fun hb => hne (ha.trans hb.symm)
      rw [setRecord_of_ne hb] at hfound'
      rw [ha, setRecord_self] at hfound
      cases hfound
      exact hstored b found' hb hfound' name hname htruthy
    · rw [setRecord_of_ne ha] at hfound
      by_cases hb : b = id
      · rw [hb, setRecord_self] at hfound'
        cases hfound'
        intro heq
        rw [heq] at htruthy
        exact hstored a found ha hfound name hname htruthy heq.symm
      · rw [setRecord_of_ne hb] at hfound'
        exact h.distinct a b found found' hne hfound hfound' name hname htruthy

theorem defaults_credential (horm : orm.Sound) {name : Str} (hname : IsCredential name) :
    orm.defaults name = .no := by
  rcases hname with rfl | rfl
  · exact horm.key_default
  · exact horm.secret_default

/-- One change. -/
theorem credentialsOk_change (horm : orm.Sound) {renewed : List Nat}
    (hchange : Change orm renewed servers servers') (h : CredentialsOk orm servers) :
    CredentialsOk orm servers' := by
  cases hchange with
  | created hstores =>
      refine h.put horm hstores (fun htype => absurd htype horm.type_default) ?_ ?_
        (Nat.lt_succ_self _) (Nat.le_succ _)
      · intro name hname
        exact Or.inl (defaults_credential horm hname)
      · intro other record' _ _ name hname htruthy
        rw [defaults_credential horm hname] at htruthy
        cases htruthy
  | @written id record values last hrecord hstores =>
      have hid : id < servers.nextId := by
        by_contra hlarge
        rw [h.unused id (by omega)] at hrecord
        cases hrecord
      refine h.put horm hstores (h.complete id record hrecord) (h.issued id record hrecord) ?_
        hid (Nat.le_refl _)
      intro other record' hne hother
      exact h.distinct id other record record' (Ne.symm hne) hrecord hother

/-- A run of changes. -/
theorem credentialsOk_changes (horm : orm.Sound) {renewed : List Nat}
    (hchanges : Changes orm renewed servers servers') (h : CredentialsOk orm servers) :
    CredentialsOk orm servers' := by
  induction hchanges with
  | refl => exact h
  | tail _ hchange ih => exact credentialsOk_change horm hchange ih

/-! ### A credential that is there stays -/

/-- The server still has what it had in this field. -/
def Keeps (id : Nat) (name : Str) (value : FieldValue) (servers : Servers) : Prop :=
  ∃ record, servers.records id = some record ∧ record name = value

theorem keeps_change {renewed : List Nat} (hchange : Change orm renewed servers servers')
    (h : CredentialsOk orm servers) {id : Nat} {name : Str} {value : FieldValue}
    (hname : IsCredential name) (hstays : name = WEBHOOK_KEY ∨ id ∉ renewed)
    (htruthy : value.truthy = true) (hkeeps : Keeps id name value servers) :
    Keeps id name value servers' := by
  obtain ⟨record, hrecord, rfl⟩ := hkeeps
  cases hchange with
  | created hstores =>
      have hne : id ≠ servers.nextId := by
        rintro rfl
        rw [h.unused _ (Nat.le_refl _)] at hrecord
        cases hrecord
      exact ⟨record, (setRecord_of_ne hne _).trans hrecord, rfl⟩
  | @written other found values last hfound hstores =>
      by_cases hother : id = other
      · subst hother
        have hsame : found = record := Option.some.inj (hfound.symm.trans hrecord)
        subst hsame
        refine ⟨_, setRecord_self servers id _, ?_⟩
        rcases hstores.credential name hname with hnone | ⟨⟨hrenews, hsecret⟩ | hlacks, -⟩
        · exact store_of_none hnone
        · rcases hstays with hkey | hout
          · exact absurd (hkey.symm.trans hsecret) (by decide)
          · exact absurd (of_decide_eq_true hrenews) hout
        · rw [htruthy] at hlacks
          cases hlacks
      · exact ⟨record, (setRecord_of_ne hother _).trans hrecord, rfl⟩

theorem keeps_changes (horm : orm.Sound) {renewed : List Nat}
    (hchanges : Changes orm renewed servers servers') (h : CredentialsOk orm servers) {id : Nat}
    {name : Str} {value : FieldValue} (hname : IsCredential name)
    (hstays : name = WEBHOOK_KEY ∨ id ∉ renewed) (htruthy : value.truthy = true)
    (hkeeps : Keeps id name value servers) : Keeps id name value servers' := by
  induction hchanges with
  | refl => exact hkeeps
  | tail hbefore hchange ih =>
      exact keeps_change hchange (credentialsOk_changes horm hbefore h) hname hstays htruthy ih

/-! ### Runs -/

/-- Servers from before the type existed. -/
structure NoneYet (servers : Servers) : Prop where
  unused : ∀ id, servers.nextId ≤ id → servers.records id = none
  plain : ∀ id record, servers.records id = some record →
    record SERVER_TYPE ≠ CLOUDFLARE ∧ record WEBHOOK_KEY = .no ∧ record WEBHOOK_SECRET = .no

theorem NoneYet.credentialsOk (h : NoneYet servers) : CredentialsOk orm servers := by
  have hno : ∀ id record, servers.records id = some record → ∀ name, IsCredential name →
      record name = .no := by
    rintro id record hrecord name (rfl | rfl)
    · exact (h.plain id record hrecord).2.1
    · exact (h.plain id record hrecord).2.2
  refine ⟨h.unused, ?_, ?_, ?_⟩
  · intro id record hrecord htype
    exact absurd htype (h.plain id record hrecord).1
  · intro id record hrecord name hname
    exact Or.inl (hno id record hrecord name hname)
  · intro id id' record record' _ hrecord _ name hname htruthy
    rw [hno id record hrecord name hname] at htruthy
    cases htruthy

/-- The servers after some calls of which none passes a credential. -/
abbrev ServersReachable (orm : Orm) : Servers → Servers → Prop :=
  Transition.Reachable (serverStep orm) fun _ action => action.Allowed

theorem credentialsOk_reachable (horm : orm.Sound) (h : CredentialsOk orm servers)
    (hreach : ServersReachable orm servers servers') : CredentialsOk orm servers' := by
  refine hreach.invariant h ?_
  intro s action s' _ hok hallowed hstep
  exact credentialsOk_changes horm (changes_serverStep horm hallowed hstep) hok

/-- A key stays in every run, and a secret in every run without its regeneration. -/
theorem keeps_reachable (horm : orm.Sound) (h : CredentialsOk orm servers) {id : Nat} {name : Str}
    {value : FieldValue} (hname : IsCredential name) (htruthy : value.truthy = true)
    (hkeeps : Keeps id name value servers)
    (hreach : Transition.Reachable (serverStep orm)
      (fun _ action => action.Allowed ∧ (name = WEBHOOK_KEY ∨ id ∉ action.renewed)) servers servers') :
    Keeps id name value servers' := by
  refine hreach.invariant hkeeps ?_
  intro s action s' hs hkept hok hstep
  have hok' := credentialsOk_reachable horm h (hs.weaken fun _ _ hboth => hboth.1)
  exact keeps_changes horm (changes_serverStep horm hok.1 hstep) hok' hname hok.2 htruthy hkept

/--
**Webhook credentials are complete and stable**, after any calls: a server of the type has
both, a key stays, a secret stays unless it is regenerated, and no two servers share one.
-/
theorem credentials_stable (horm : orm.Sound) (hinit : NoneYet servers)
    (hreach : ServersReachable orm servers servers') :
    (∀ id record, servers'.records id = some record → record SERVER_TYPE = CLOUDFLARE →
      (record WEBHOOK_KEY).truthy = true ∧ (record WEBHOOK_SECRET).truthy = true) ∧
    (∀ id record, servers'.records id = some record → (record WEBHOOK_KEY).truthy = true →
      ∀ later, ServersReachable orm servers' later →
        Keeps id WEBHOOK_KEY (record WEBHOOK_KEY) later) ∧
    (∀ id record, servers'.records id = some record → (record WEBHOOK_SECRET).truthy = true →
      ∀ later, Transition.Reachable (serverStep orm)
          (fun _ action => action.Allowed ∧ id ∉ action.renewed) servers' later →
        Keeps id WEBHOOK_SECRET (record WEBHOOK_SECRET) later) ∧
    (∀ id id' record record', id ≠ id' → servers'.records id = some record →
      servers'.records id' = some record' →
        ((record WEBHOOK_KEY).truthy = true → record WEBHOOK_KEY ≠ record' WEBHOOK_KEY) ∧
        ((record WEBHOOK_SECRET).truthy = true → record WEBHOOK_SECRET ≠ record' WEBHOOK_SECRET)) := by
  have hok : CredentialsOk orm servers' := credentialsOk_reachable horm hinit.credentialsOk hreach
  refine ⟨hok.complete, ?_, ?_, ?_⟩
  · intro id record hrecord htruthy later hlater
    exact keeps_reachable horm hok (Or.inl rfl) htruthy ⟨record, hrecord, rfl⟩
      (hlater.weaken fun _ _ hallowed => ⟨hallowed, Or.inl rfl⟩)
  · intro id record hrecord htruthy later hlater
    exact keeps_reachable horm hok (Or.inr rfl) htruthy ⟨record, hrecord, rfl⟩
      (hlater.weaken fun _ _ hboth => ⟨hboth.1, Or.inr hboth.2⟩)
  · intro id id' record record' hne hrecord hrecord'
    exact ⟨hok.distinct id id' record record' hne hrecord hrecord' _ (Or.inl rfl),
      hok.distinct id id' record record' hne hrecord hrecord' _ (Or.inr rfl)⟩

/-! ### A run -/

instance : DecidablePred NoCredentials := fun _ => inferInstanceAs (Decidable (_ ∧ _))

instance : DecidablePred ServerAction.Allowed
  | .create valsList => inferInstanceAs (Decidable (∀ values ∈ valsList, NoCredentials values))
  | .write _ values => inferInstanceAs (Decidable (NoCredentials values))
  | .regenerate _ => isTrue trivial

/-- New servers poll with IMAP, and the tokens are of growing length. -/
def imapOrm : Orm where
  defaults := fun name => if name = SERVER_TYPE then .text "imap".toList else .no
  configuration := "Deploy the Cloudflare Email Worker".toList
  token := fun n => List.replicate (n + 1) 'a'

theorem imapOrm_sound : imapOrm.Sound where
  type_default := by decide
  key_default := by decide
  secret_default := by decide
  token_ne := fun n => by simp [imapOrm]
  token_fresh := by
    intro m n hsame
    have hlength := congrArg List.length hsame
    simpa [imapOrm] using hlength

def noServers : Servers := ⟨fun _ => none, 0, 0⟩

def ofType (type : String) : Values := Dict.set .empty SERVER_TYPE (.text type.toList)

/-- Two servers, of which one is switched to the type later, away and back. -/
def switches : List ServerAction :=
  [.create [ofType "cloudflare", .empty], .write [0, 1] (ofType "cloudflare"), .regenerate [1],
    .write [1] (ofType "imap"), .write [0, 1] (ofType "cloudflare")]

/-- The two credentials of a server. -/
def credentialsOf (servers : Servers) (id : Nat) : Option (FieldValue × FieldValue) :=
  (servers.records id).map fun record => (record WEBHOOK_KEY, record WEBHOOK_SECRET)

theorem credentials_stable_switches :
    ∃ servers, ServersReachable imapOrm noServers servers ∧
      credentialsOf servers 0 = some (.text "a".toList, .text "aa".toList) ∧
      credentialsOf servers 1 = some (.text "aaa".toList, .text "aaaaa".toList) ∧
      ∀ later, ServersReachable imapOrm servers later →
        Keeps 1 WEBHOOK_KEY (.text "aaa".toList) later := by
  have hrun : (Transition.runActions (serverStep imapOrm) (fun _ action => action.Allowed) noServers
      switches).any (fun servers =>
        credentialsOf servers 0 = some (.text "a".toList, .text "aa".toList) &&
          credentialsOf servers 1 = some (.text "aaa".toList, .text "aaaaa".toList)) = true := by
    decide +kernel
  obtain ⟨servers, hreach, hgood⟩ := Transition.exists_reachable_of_runActions switches hrun
  rw [Bool.and_eq_true, decide_eq_true_eq, decide_eq_true_eq] at hgood
  have hinit : NoneYet noServers := ⟨fun _ _ => rfl, fun _ _ h => by cases h⟩
  obtain ⟨-, hkeys, -, -⟩ := credentials_stable imapOrm_sound hinit hreach
  refine ⟨servers, hreach, hgood.1, hgood.2, ?_⟩
  intro later hlater
  obtain ⟨record, hrecord, hpair⟩ := Option.map_eq_some_iff.mp hgood.2
  obtain ⟨hkey, -⟩ := Prod.mk.inj hpair
  rw [← hkey]
  refine hkeys 1 record hrecord ?_ later hlater
  rw [hkey]
  decide

end MailCloudflare
