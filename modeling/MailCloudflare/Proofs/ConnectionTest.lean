/-
What a passed connection test says.

A test passes when core's does and Cloudflare has called the token of every server of the
type active.  Core is asked first, then Cloudflare once for each server, up to the first
that does not pass; and when the maximal size is to be detected, what is stored is the
limit that a mail is measured against.
-/
import MailCloudflare.Proofs.Outbound

namespace MailCloudflare

open Unicode Python Keyed

variable {F : Type} {lib : MailServerLibrary F} {client : ClientLibrary F}
  {servers servers' : MailServers} {id : Nat} {ids : List Nat} {record : ServerRecord}
  {outcome : HttpOutcome F} {outcomes : Nat → HttpOutcome F} {autodetect : Bool}

/-! ### One token -/

/-- Cloudflare answers that the token is active. -/
def IsVerified (client : ClientLibrary F) (outcome : HttpOutcome F) : Prop :=
  ∃ response members result, outcome = .response response ∧ response.status = 200 ∧
    parseJson response = some members ∧
    (Value.member members "success").truthy client.floats = true ∧
    Value.member members "result" = .dict result ∧
    Value.member result "status" = .str (text "active")

theorem isActive_iff {value : Value F} : isActive value = true ↔ value = .str (text "active") := by
  cases value <;> simp [isActive]

/-- An error that is raised about an answer, or on the way to it. -/
theorem raised_ne_ok (error : Except PyError (SendError F)) (value : Value F) :
    (do
      let error ← error.mapError Failure.python
      Except.error (Failure.cloudflare error) : Except (Failure (SendError F)) (Value F)) ≠
        .ok value := by
  intro h
  cases error <;> cases h

/-- `verify_token` returns when the token is active, and raises otherwise. -/
theorem verifyToken_ok_iff :
    (∃ value, verifyToken client outcome = .ok value) ↔ IsVerified client outcome := by
  constructor
  · rintro ⟨value, h⟩
    cases outcome with
    | networkError exc => cases h
    | response response =>
        unfold verifyToken at h
        dsimp only at h
        split at h
        · exact absurd h (raised_ne_ok _ _)
        split at h
        · exact absurd h (raised_ne_ok _ _)
        rename_i hanswer
        simp only [Bool.or_eq_true, decide_eq_true_eq, Bool.not_eq_true', not_or,
          Decidable.not_not, Bool.not_eq_false] at hanswer
        obtain ⟨hstatus, hsuccess⟩ := hanswer
        obtain ⟨members, hjson⟩ : ∃ members, parseJson response = some members := by
          cases hjson : parseJson response with
          | none => rw [hjson] at hsuccess; cases hsuccess
          | some members => exact ⟨members, rfl⟩
        rw [hjson] at h hsuccess
        change (do
          let tokenStatus ← (((Value.member members "result").orElse client.floats
            (.dict [])).get "status").mapError Failure.python
          if isActive tokenStatus then _ else _) = Except.ok value at h
        unfold Value.orElse at h
        split at h
        · cases hresult : Value.member members "result" with
          | dict result =>
              rw [hresult] at h
              change (if isActive (Value.member result "status") then _ else _) = Except.ok value at h
              split at h
              · rename_i hactive
                exact ⟨response, members, result, rfl, hstatus, hjson, hsuccess, hresult,
                  isActive_iff.mp hactive⟩
              · cases h
          | _ => rw [hresult] at h; cases h
        · cases h
  · rintro ⟨response, members, result, rfl, hstatus, hjson, hsuccess, hresult, hactive⟩
    have hmember : ∃ row rest, result = row :: rest := by
      cases result with
      | nil => cases hactive
      | cons row rest => exact ⟨row, rest, rfl⟩
    obtain ⟨row, rest, rfl⟩ := hmember
    have hgood : payloadMember (some members) "success" = Value.member members "success" := rfl
    have hobject : payloadMember (some members) "result" = .dict (row :: rest) := hresult
    refine ⟨.dict (row :: rest), ?_⟩
    simp only [verifyToken, hjson, hgood, hsuccess, hobject, hstatus]
    show (if isActive (Value.member (row :: rest) "status") then _ else _) = _
    rw [if_pos (isActive_iff.mpr hactive)]
    rfl

/-! ### Every token -/

theorem storeMailServer_of_some (values : Values) (hrecord : servers.records id = some record) :
    storeMailServer values servers id = .ok { servers with
      records := fun other =>
        if other = id then some (store record values) else servers.records other } := by
  unfold storeMailServer
  rw [hrecord]

/-- A turn of the loop passes when the token is active. -/
theorem testServer_ok_iff (hrecord : servers.records id = some record) :
    (∃ servers', testServer client autodetect outcome servers id record = .ok servers') ↔
      IsVerified client outcome := by
  rw [← verifyToken_ok_iff]
  unfold testServer
  constructor
  · rintro ⟨servers', h⟩
    split at h
    · cases h
    · cases h
    · rename_i value hvalue
      exact ⟨value, hvalue⟩
  · rintro ⟨value, hvalue⟩
    rw [hvalue]
    dsimp only
    split
    · exact ⟨_, storeMailServer_of_some _ hrecord⟩
    · exact ⟨_, rfl⟩

/-- A turn leaves every record where it is, and this one with the size if it is detected. -/
structure Turned (autodetect : Bool) (servers : MailServers) (id : Nat) (servers' : MailServers) :
    Prop where
  exist : ∀ other, (servers'.records other).isSome = (servers.records other).isSome
  sized : autodetect = true → ∀ record, servers'.records id = some record →
    record MAX_EMAIL_SIZE = .number MAX_EMAIL_SIZE_MB
  keep : ∀ other record, servers'.records other = some record →
    ∃ before, servers.records other = some before ∧
      (record MAX_EMAIL_SIZE = before MAX_EMAIL_SIZE ∨
        record MAX_EMAIL_SIZE = .number MAX_EMAIL_SIZE_MB)

theorem turned_testServer (hrecord : servers.records id = some record)
    (h : testServer client autodetect outcome servers id record = .ok servers') :
    Turned autodetect servers id servers' := by
  have hstored : ∀ record : ServerRecord, store record (Dict.set .empty MAX_EMAIL_SIZE
      (.number MAX_EMAIL_SIZE_MB)) MAX_EMAIL_SIZE = .number MAX_EMAIL_SIZE_MB := by
    intro record
    rw [store, Dict.lookup_set, if_pos rfl, Option.getD_some]
  unfold testServer at h
  split at h
  · cases h
  · cases h
  · split at h
    · rw [storeMailServer_of_some _ hrecord] at h
      cases h
      refine ⟨?_, ?_, ?_⟩
      · intro other
        dsimp only
        by_cases hother : other = id
        · rw [if_pos hother, hother, hrecord]
          rfl
        · rw [if_neg hother]
      · intro _ found hfound
        dsimp only at hfound
        rw [if_pos rfl, Option.some.injEq] at hfound
        rw [← hfound, hstored]
      · intro other found hfound
        dsimp only at hfound
        by_cases hother : other = id
        · rw [if_pos hother, Option.some.injEq] at hfound
          rw [hother]
          exact ⟨record, hrecord, Or.inr (by rw [← hfound, hstored])⟩
        · rw [if_neg hother] at hfound
          exact ⟨found, hfound, Or.inl rfl⟩
    · rename_i hnot
      cases h
      exact ⟨fun _ => rfl, fun hauto => absurd hauto hnot, fun _ found hfound =>
        ⟨found, hfound, Or.inl rfl⟩⟩

theorem testServers_ok_iff (hids : ∀ id ∈ ids, (servers.records id).isSome = true) :
    (∃ servers', (testServers client autodetect outcomes servers ids).2 = .ok servers') ↔
      ∀ id ∈ ids, IsVerified client (outcomes id) := by
  induction ids generalizing servers with
  | nil => exact ⟨fun _ => List.forall_mem_nil _, fun _ => ⟨servers, rfl⟩⟩
  | cons id rest ih =>
      obtain ⟨hid, hrest⟩ := List.forall_mem_cons.mp hids
      obtain ⟨record, hrecord⟩ := Option.isSome_iff_exists.mp hid
      have hturn : (∃ servers', testServer client autodetect (outcomes id) servers id record =
          .ok servers') ↔ IsVerified client (outcomes id) := testServer_ok_iff hrecord
      unfold testServers
      rw [hrecord, List.forall_mem_cons, ← hturn]
      dsimp only
      cases hnext : testServer client autodetect (outcomes id) servers id record with
      | error e => simp
      | ok next =>
          have hexist := (turned_testServer hrecord hnext).exist
          have hrest' : (∃ servers', (testServers client autodetect outcomes next rest).2 =
              .ok servers') ↔ ∀ id ∈ rest, IsVerified client (outcomes id) :=
            ih fun other hother => by
              rw [hexist]
              exact hrest other hother
          dsimp only
          rw [hrest']
          simp

/-- What the loop leaves behind. -/
theorem testServers_sized (h : (testServers client autodetect outcomes servers ids).2 = .ok servers') :
    (autodetect = true → ∀ id ∈ ids, ∀ record, servers'.records id = some record →
      record MAX_EMAIL_SIZE = .number MAX_EMAIL_SIZE_MB) ∧
    (∀ other, (servers'.records other).isSome = (servers.records other).isSome) ∧
    ∀ other record, servers'.records other = some record →
      ∃ before, servers.records other = some before ∧
        (record MAX_EMAIL_SIZE = before MAX_EMAIL_SIZE ∨
          record MAX_EMAIL_SIZE = .number MAX_EMAIL_SIZE_MB) := by
  induction ids generalizing servers with
  | nil =>
      cases h
      exact ⟨fun _ _ hid => absurd hid List.not_mem_nil, fun _ => rfl, fun _ record hrecord =>
        ⟨record, hrecord, Or.inl rfl⟩⟩
  | cons id rest ih =>
      unfold testServers at h
      split at h
      · cases h
      · rename_i record hrecord
        split at h
        · cases h
        · rename_i next hnext
          obtain ⟨hexist, hsized, hkeep⟩ := turned_testServer hrecord hnext
          obtain ⟨hsized', hexist', hkeep'⟩ := ih h
          refine ⟨?_, fun other => (hexist' other).trans (hexist other), ?_⟩
          · intro hauto other hother found hfound
            rcases List.mem_cons.mp hother with rfl | hother
            · -- the size it was given, which later turns do not take back
              obtain ⟨before, hbefore, hsame | hset⟩ := hkeep' _ found hfound
              · rw [hsame, hsized hauto before hbefore]
              · exact hset
            · exact hsized' hauto other hother found hfound
          · intro other found hfound
            obtain ⟨middle, hmiddle, hsame | hset⟩ := hkeep' other found hfound
            · obtain ⟨before, hbefore, hold⟩ := hkeep other middle hmiddle
              exact ⟨before, hbefore, by rw [hsame]; exact hold⟩
            · obtain ⟨before, hbefore, -⟩ := hkeep other middle hmiddle
              exact ⟨before, hbefore, Or.inr hset⟩

/-! ### The test -/

/--
**A connection test passes when core's does and Cloudflare calls every token active.**  And
when the maximal size was to be detected, a mail through any of the servers of the type is
measured against the limit of Cloudflare from then on.
-/
theorem test_passes_iff (hlib : lib.Sound) (hids : ∀ id ∈ ids, (servers.records id).isSome = true) :
    ((∃ servers', (testSmtpConnection lib autodetect outcomes servers ids).2.2 = .ok servers') ↔
      ((∀ id ∈ ids, isCloudflareMailServer servers id = true) ∨
        ∃ next, lib.testConnection autodetect servers
          (ids.filter fun id => !isCloudflareMailServer servers id) = .ok next) ∧
      ∀ id ∈ ids, isCloudflareMailServer servers id = true → IsVerified lib.client (outcomes id)) ∧
    (autodetect = true → ∀ servers',
      (testSmtpConnection lib autodetect outcomes servers ids).2.2 = .ok servers' →
      ∀ id ∈ ids, isCloudflareMailServer servers id = true → ∀ core,
        (servers'.records id).map (getMaxEmailSize core) = some (.number MAX_EMAIL_SIZE_MB)) := by
  have hothers : (ids.filter fun id => !isCloudflareMailServer servers id) = [] ↔
      ∀ id ∈ ids, isCloudflareMailServer servers id = true := by
    simp [List.filter_eq_nil_iff]
  have hverified : (∀ id ∈ ids.filter (isCloudflareMailServer servers),
        IsVerified lib.client (outcomes id)) ↔
      ∀ id ∈ ids, isCloudflareMailServer servers id = true →
        IsVerified lib.client (outcomes id) := by
    simp [List.mem_filter]
  have hexist : ∀ id ∈ ids.filter (isCloudflareMailServer servers),
      (servers.records id).isSome = true := fun id hid => hids id (List.mem_filter.mp hid).1
  have hspec := testSmtpConnection_spec hlib autodetect outcomes servers ids
  -- the loop begins with the servers core leaves, and ends the test
  have hloop : ∀ servers',
      (testSmtpConnection lib autodetect outcomes servers ids).2.2 = .ok servers' →
      ∃ next, (∀ id, (servers.records id).isSome = true → (next.records id).isSome = true) ∧
        (testServers lib.client autodetect outcomes next
          (ids.filter (isCloudflareMailServer servers))).2 = .ok servers' := by
    intro servers' h
    unfold testSmtpConnection at h
    dsimp only at h
    split at h
    · exact ⟨servers, fun _ hid => hid, h⟩
    · split at h
      · cases h
      · rename_i next hnext
        exact ⟨next, hlib.exist _ _ _ _ hnext, h⟩
  refine ⟨?_, ?_⟩
  · rw [← hothers, ← hverified]
    unfold testSmtpConnection
    dsimp only
    by_cases hnone : (ids.filter fun id => !isCloudflareMailServer servers id) = []
    · rw [if_pos hnone, testServers_ok_iff hexist]
      simp [hnone]
    · rw [if_neg hnone]
      cases hcore : lib.testConnection autodetect servers
          (ids.filter fun id => !isCloudflareMailServer servers id) with
      | error e => simp [hnone]
      | ok next =>
          dsimp only
          rw [testServers_ok_iff fun id hid => hlib.exist _ _ _ _ hcore id (hexist id hid)]
          simp
  · intro hauto servers' h id hid htype core
    have hmem : id ∈ ids.filter (isCloudflareMailServer servers) := List.mem_filter.mpr ⟨hid, htype⟩
    obtain ⟨next, hkept, hlast⟩ := hloop servers' h
    obtain ⟨hsized, hstay, -⟩ := testServers_sized hlast
    have hsome : (servers'.records id).isSome = true := by
      rw [hstay]
      exact hkept id (hexist id hmem)
    obtain ⟨record', hrecord'⟩ := Option.isSome_iff_exists.mp hsome
    obtain ⟨record, hrecord, hsame⟩ := hspec.kept servers' h id record' hrecord'
    have htype' : usesCloudflare record' = true := by
      rw [isCloudflareMailServer, hrecord] at htype
      rw [usesCloudflare, hsame _ (by decide)]
      exact htype
    rw [hrecord', Option.map_some, getMaxEmailSize, if_pos htype',
      hsized hauto id hmem record' hrecord']
    rfl

/-! ### A test -/

def activeAnswer : HttpOutcome Empty :=
  answer 200 [(text "success", .bool true),
    (text "result", .dict [(text "status", .str (text "active"))])]

/-- The last server's verification gets no answer. -/
def unansweredThird (id : Nat) : HttpOutcome Empty :=
  if id = 3 then .networkError (text "timed out") else activeAnswer

/-- Two servers of the type, and one that is not between them. -/
def sampleTable : MailServers where
  records := fun id =>
    if id = 1 ∨ id = 3 then some (store sampleMailServers.defaults sampleServerValues)
    else if id = 2 then some sampleMailServers.defaults else none
  nextId := 4

theorem isVerified_activeAnswer : IsVerified sampleClient activeAnswer :=
  ⟨_, _, _, rfl, rfl, rfl, rfl, rfl, rfl⟩

/-- With both tokens active the test passes, and with one of them unanswered it does not. -/
theorem test_passes_iff_active :
    (∃ servers',
      (testSmtpConnection sampleMailServers true (fun _ => activeAnswer) sampleTable [1, 2, 3]).2.2 =
        .ok servers' ∧
      ∀ id ∈ [1, 3], ∀ core,
        (servers'.records id).map (getMaxEmailSize core) = some (.number MAX_EMAIL_SIZE_MB)) ∧
    ¬ ∃ servers',
      (testSmtpConnection sampleMailServers true unansweredThird sampleTable [1, 2, 3]).2.2 =
        .ok servers' := by
  have hids : ∀ id ∈ [1, 2, 3], (sampleTable.records id).isSome = true := by decide
  have htype : ∀ id ∈ [1, 3], isCloudflareMailServer sampleTable id = true := by decide +kernel
  refine ⟨?_, ?_⟩
  · obtain ⟨hpasses, hsized⟩ := @test_passes_iff _ sampleMailServers sampleTable [1, 2, 3]
      (fun _ => activeAnswer) true sampleMailServers_sound hids
    obtain ⟨servers', h⟩ := hpasses.mpr ⟨Or.inr ⟨_, rfl⟩, fun _ _ _ => isVerified_activeAnswer⟩
    refine ⟨servers', h, fun id hid => hsized rfl servers' h id ?_ (htype id hid)⟩
    exact List.Sublist.subset (by simp) hid
  · obtain ⟨hpasses, -⟩ := @test_passes_iff _ sampleMailServers sampleTable [1, 2, 3]
      unansweredThird true sampleMailServers_sound hids
    rw [hpasses]
    rintro ⟨-, hverified⟩
    obtain ⟨response, -, -, hresponse, -⟩ := hverified 3 (by simp) (htype 3 (by simp))
    cases hresponse

end MailCloudflare
