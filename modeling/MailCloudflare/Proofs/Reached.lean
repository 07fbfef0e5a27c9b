/-
A mail is reported sent exactly when somebody was reached.

The check compares the recipients that failed with all of them.  When Cloudflare deals the
recipients out to the four lists, nobody was reached exactly when all of them failed; and
there is a recipient, so then something failed and the check does not end early.
-/
import MailCloudflare.Proofs.Failures

namespace MailCloudflare

open Unicode Python Keyed Value

variable {F : Type} {lib : ClientLibrary F} {payload : Payload}

/-! ### The recipients of a payload -/

/-- A list of addresses, up to letter case. -/
def textKeys (lib : ClientLibrary F) (addresses : List Text) : List Text :=
  addresses.map (lower lib.py)

theorem recipients_of_buildPayload {lib : MailLibrary} {message : MimeMessage}
    {smtpToList : List Str} (h : buildPayload lib message smtpToList = .ok payload) :
    splitRecipients lib.py lib.emailSplitTuples message.toMessage smtpToList =
      .ok payload.recipients := by
  unfold buildPayload at h
  split at h
  · cases h
  · cases hsplit : splitRecipients lib.py lib.emailSplitTuples message.toMessage smtpToList with
    | error e =>
        rw [hsplit] at h
        cases h
    | ok recipients =>
        rw [hsplit] at h
        cases hcontent : extractContent lib.email message with
        | error e =>
            rw [hcontent] at h
            cases h
        | ok content =>
            rw [hcontent] at h
            simp only [Except.mapError, bind, Except.bind] at h
            split at h
            · cases h
            · cases hheaders : passthroughHeaders lib.py message.toMessage with
              | error e =>
                  rw [hheaders] at h
                  cases h
              | ok headers =>
                  rw [hheaders] at h
                  cases h
                  rfl

/-- The recipients of a request are those of the envelope, up to letter case. -/
theorem recipientKeys_perm {message : MimeMessage} {smtpToList : List Str}
    (h : buildPayload lib.toMailLibrary message smtpToList = .ok payload) :
    (recipientKeys lib payload).Perm ((envelopeKeys lib.py smtpToList).map ofStr) := by
  have hrecipients := (splitRecipients_ok_iff.mp (recipients_of_buildPayload h)).1
  have hperm := recipientsOf_perm lib.py lib.emailSplitTuples message.toMessage smtpToList
  rw [← hrecipients] at hperm
  have hkeys : recipientKeys lib payload = (addressKeys lib.py (payload.recipients.toList ++
      payload.recipients.ccList ++ payload.recipients.bccList)).map ofStr := by
    unfold recipientKeys Payload.addresses addressKeys
    rw [List.map_map, List.map_map]
    refine List.map_congr_left ?_
    intro address _
    exact lower_ofStr lib.py address.address
  rw [hkeys]
  exact hperm.map ofStr

/-- A payload that was built is for somebody. -/
theorem recipientKeys_ne_nil {message : MimeMessage} {smtpToList : List Str}
    (h : buildPayload lib.toMailLibrary message smtpToList = .ok payload) :
    recipientKeys lib payload ≠ [] := by
  have hpos := (splitRecipients_ok_iff.mp (recipients_of_buildPayload h)).2.1
  intro hnil
  have hlength := (recipientKeys_perm h).length_eq
  rw [hnil, List.length_map] at hlength
  exact absurd hpos (hlength ▸ Nat.lt_irrefl 0)

/-! ### What Cloudflare reports -/

/-- The addresses of an answer by what became of them. -/
structure Report where
  delivered : List Text
  queued : List Text
  permanentBounces : List Text
  suppressed : List Text

/-- A list of addresses in a result; one that is not there names nobody. -/
def ListsAt (members : Members F) (name : String) (addresses : List Text) : Prop :=
  member members name = .list (addresses.map .str) ∨ member members name = .none ∧ addresses = []

/-- The result has the lists of the report. -/
structure Reports (members : Members F) (report : Report) : Prop where
  delivered : ListsAt members "delivered" report.delivered
  queued : ListsAt members "queued" report.queued
  permanentBounces : ListsAt members "permanent_bounces" report.permanentBounces
  suppressed : ListsAt members "suppressed_recipients" report.suppressed

/-- The lists are disjoint and together name the recipients of the request, up to letter case. -/
structure DealsOut (lib : ClientLibrary F) (payload : Payload) (report : Report) : Prop where
  disjoint : [textKeys lib report.delivered, textKeys lib report.queued,
    textKeys lib report.permanentBounces, textKeys lib report.suppressed].Pairwise List.Disjoint
  covers : ∀ key, key ∈ textKeys lib (report.delivered ++ report.queued ++
    report.permanentBounces ++ report.suppressed) ↔ key ∈ recipientKeys lib payload

theorem addressSet_of_listsAt {members : Members F} {name : String} {addresses : List Text}
    (h : ListsAt members name addresses) :
    addressSet lib (member members name) = .ok (textKeys lib addresses) := by
  unfold addressSet Value.orElse
  rcases h with hlist | ⟨hnone, rfl⟩
  · rw [hlist]
    cases addresses with
    | nil => rfl
    | cons address rest =>
        show ((address :: rest).map (Value.str (F := F))).mapM (lowered lib.py) = _
        exact mapM_lowered_texts lib.py (address :: rest)
  · rw [hnone]
    rfl

theorem orElse_of_listsAt {members : Members F} {name : String} {addresses : List Text}
    (h : ListsAt members name addresses) :
    (member members name).orElse lib.floats (.list []) = .list (addresses.map .str) := by
  unfold Value.orElse
  rcases h with hlist | ⟨hnone, rfl⟩
  · rw [hlist]
    cases addresses with
    | nil => rfl
    | cons address rest => rfl
  · rw [hnone]
    rfl

variable {members : Members F} {report : Report}

/-- When the recipients are dealt out, all of them failed exactly when nobody was reached. -/
theorem all_failed_iff (h : DealsOut lib payload report) :
    (recipientKeys lib payload).all (· ∈ textKeys lib report.permanentBounces ++
        textKeys lib report.suppressed) = true ↔
      report.delivered = [] ∧ report.queued = [] := by
  obtain ⟨hdisjoint, hcovers⟩ := h
  have hpairs : ∀ key, (key ∈ textKeys lib report.delivered ∨ key ∈ textKeys lib report.queued) →
      key ∉ textKeys lib report.permanentBounces ∧ key ∉ textKeys lib report.suppressed := by
    simp only [List.pairwise_cons, List.mem_cons, List.not_mem_nil, or_false, forall_eq_or_imp,
      forall_eq] at hdisjoint
    obtain ⟨⟨-, hdb, hds⟩, ⟨hqb, hqs⟩, -⟩ := hdisjoint
    rintro key (hin | hin)
    · exact ⟨fun hb => hdb hin hb, fun hs => hds hin hs⟩
    · exact ⟨fun hb => hqb hin hb, fun hs => hqs hin hs⟩
  have hnone : ∀ addresses : List Text, (∀ key, key ∉ textKeys lib addresses) → addresses = [] := by
    intro addresses hkeys
    exact List.map_eq_nil_iff.mp (List.eq_nil_iff_forall_not_mem.mpr hkeys)
  have hkeys : ∀ key, key ∈ recipientKeys lib payload ↔
      (key ∈ textKeys lib report.delivered ∨ key ∈ textKeys lib report.queued) ∨
        key ∈ textKeys lib report.permanentBounces ∨ key ∈ textKeys lib report.suppressed := by
    intro key
    rw [← hcovers]
    simp only [textKeys, List.map_append, List.mem_append]
    tauto
  rw [List.all_eq_true]
  constructor
  · intro hall
    have hfailed : ∀ key,
        ¬ (key ∈ textKeys lib report.delivered ∨ key ∈ textKeys lib report.queued) := by
      intro key hreached
      have hin := hall key ((hkeys key).mpr (Or.inl hreached))
      rw [decide_eq_true_iff, List.mem_append] at hin
      exact hin.elim (hpairs key hreached).1 (hpairs key hreached).2
    exact ⟨hnone _ fun key hin => hfailed key (Or.inl hin),
      hnone _ fun key hin => hfailed key (Or.inr hin)⟩
  · rintro ⟨hdelivered, hqueued⟩ key hkey
    rw [decide_eq_true_iff, List.mem_append]
    refine ((hkeys key).mp hkey).resolve_left ?_
    rw [hdelivered, hqueued]
    simp [textKeys]

/-- **The check tells whether somebody was reached.** -/
theorem concludeSend_reached (hreports : Reports members report)
    (hdeals : DealsOut lib payload report) (hsomebody : recipientKeys lib payload ≠ []) :
    if report.delivered = [] ∧ report.queued = [] then
      ∃ error, concludeSend lib payload (.dict members) = .error (.cloudflare error)
    else ∃ value, concludeSend lib payload (.dict members) = .ok value := by
  rw [concludeSend_dict (addressSet_of_listsAt hreports.permanentBounces)
    (addressSet_of_listsAt hreports.suppressed), orElse_of_listsAt hreports.delivered,
    orElse_of_listsAt hreports.queued]
  have hadd : add lib.floats (.list (report.delivered.map .str)) (.list (report.queued.map .str)) =
      .ok (.list ((report.delivered ++ report.queued).map .str)) := by
    rw [List.map_append]
    rfl
  rw [hadd]
  dsimp only
  by_cases hnobody : report.delivered = [] ∧ report.queued = []
  · have hall := (all_failed_iff hdeals).mpr hnobody
    have hfailed : textKeys lib report.permanentBounces ++ textKeys lib report.suppressed ≠ [] := by
      intro hnil
      rw [hnil] at hall
      obtain ⟨key, hkey⟩ := List.exists_mem_of_ne_nil _ hsomebody
      have hin := List.all_eq_true.mp hall key hkey
      simp at hin
    rw [if_pos hnobody, if_neg hfailed, hall, Bool.true_or, if_pos rfl]
    exact ⟨_, rfl⟩
  · rw [if_neg hnobody]
    by_cases hfailed : textKeys lib report.permanentBounces ++ textKeys lib report.suppressed = []
    · rw [if_pos hfailed]
      exact ⟨_, rfl⟩
    · have hall := Bool.eq_false_iff.mpr fun h => hnobody ((all_failed_iff hdeals).mp h)
      have hreached : truthy lib.floats
          (.list ((report.delivered ++ report.queued).map (Value.str (F := F)))) = true := by
        show (!((report.delivered ++ report.queued).map Value.str).isEmpty) = true
        simpa [List.isEmpty_iff, -not_and] using hnobody
      rw [if_neg hfailed, hall, hreached]
      exact ⟨_, rfl⟩

/-! ### The whole send -/

variable {body : Bytes} {outcomes : Nat → HttpOutcome F}

/-- A network error, a server error or a 429, with what the API documents. -/
structure RetriedAsDocumented (lib : ClientLibrary F) (outcome : HttpOutcome F) : Prop where
  retried : isRetried outcome = true
  errors : DocumentedErrors outcome
  /-- The Retry-After of a 429 is absent, not numeric or not negative. -/
  delay : ∀ response, outcome = .response response → response.status = 429 →
    ∀ delay, retryAfter lib response = some delay → 0 ≤ delay

theorem outcomeSane_of_documented {outcome : HttpOutcome F} {attempt : Nat}
    (h : RetriedAsDocumented lib outcome) : OutcomeSane lib attempt outcome := by
  obtain ⟨hretried, herrors, hdelay⟩ := h
  cases outcome with
  | networkError exc => trivial
  | response response =>
      refine ⟨?_, fun _ => readable_of_documented herrors, fun h429 _ => hdelay response rfl h429⟩
      intro haccepted
      have h200 := haccepted.1
      simp [isRetried, h200] at hretried

/-- `_post` comes to the answer that takes the message. -/
theorem post_of_accepted {n : Nat} {response : HttpResponse F} (hone : 1 ≤ n)
    (hle : n ≤ MAX_ATTEMPTS) (houtcome : outcomes n = .response response)
    (haccepted : IsAccepted lib response)
    (hearlier : ∀ j, 1 ≤ j → j < n → RetriedAsDocumented lib (outcomes j)) :
    (post lib body outcomes).2 = ⟨.ok (acceptedResult lib response), none⟩ := by
  have hgoes : ∀ j, 1 ≤ j → j < n → Retry.GoesOn (postAttempt lib body outcomes) j := by
    intro j hj hlt
    exact goesOn_of_isRetried (hearlier j hj hlt).retried
      (outcomeSane_of_documented (hearlier j hj hlt))
  have hdone : (postAttempt lib body outcomes n).next =
      .done ⟨.ok (acceptedResult lib response), none⟩ := by
    have hjudge : judge lib n (outcomes n) = .done ⟨.ok (acceptedResult lib response), none⟩ := by
      rw [houtcome]
      show judgeResponse lib n response = _
      unfold judgeResponse
      rw [if_pos haccepted.1, if_pos haccepted.2]
      rfl
    unfold postAttempt
    rw [hjudge]
  obtain ⟨before, rest, hsplit, hbefore⟩ := Retry.exists_before_of_mem_tried
    (Retry.mem_tried_range'.mpr ⟨⟨hone, hle⟩, hgoes⟩)
  unfold post
  rw [hsplit, Retry.loop_of_done hbefore hdone]

/--
**A mail is reported sent exactly when somebody was reached.**  When Cloudflare takes a
message, after answers that are retried, and deals its recipients out to the four lists,
`send_message` returns exactly when a recipient was delivered to or queued, and otherwise
raises a `CloudflareEmailError`.
-/
theorem sendMessage_reached_iff {session : CloudflareSendingSession F} {message : MimeMessage}
    {smtpToList : List Str} {n : Nat} {response : HttpResponse F}
    (hlatch : session.fatalError = .none)
    (hpayload : buildPayload lib.toMailLibrary message smtpToList = .ok payload)
    (hbody : encodeUtf8 payload.json = .ok body) (hlength : body.length ≤ MAX_BODY_BYTES)
    (hone : 1 ≤ n) (hle : n ≤ MAX_ATTEMPTS)
    (hearlier : ∀ j, 1 ≤ j → j < n → RetriedAsDocumented lib (outcomes j))
    (houtcome : outcomes n = .response response) (haccepted : IsAccepted lib response)
    (hresult : payloadMember (parseJson response) "result" = .dict members)
    (hreports : Reports members report) (hdeals : DealsOut lib payload report) :
    ((∃ value, (sendMessage lib session message smtpToList outcomes).result = .ok value) ↔
        ¬ (report.delivered = [] ∧ report.queued = [])) ∧
      (report.delivered = [] ∧ report.queued = [] →
        ∃ error, (sendMessage lib session message smtpToList outcomes).result =
          .error (.cloudflare error)) := by
  have htaken : acceptedResult lib response = .dict members := by
    unfold acceptedResult Value.orElse
    rw [hresult]
    cases members with
    | nil => rfl
    | cons member rest => rfl
  have hsend : (sendMessage lib session message smtpToList outcomes).result =
      concludeSend lib payload (.dict members) := by
    rw [sendMessage_of_body hlatch hpayload hbody hlength,
      post_of_accepted hone hle houtcome haccepted hearlier, htaken]
    rfl
  have hreached := concludeSend_reached hreports hdeals (recipientKeys_ne_nil hpayload)
  rw [← hsend] at hreached
  by_cases hnobody : report.delivered = [] ∧ report.queued = []
  · rw [if_pos hnobody] at hreached
    obtain ⟨error, herror⟩ := hreached
    refine ⟨iff_of_false ?_ (fun h => h hnobody), fun _ => ⟨error, herror⟩⟩
    rintro ⟨value, hvalue⟩
    exact nomatch hvalue.symm.trans herror
  · rw [if_neg hnobody] at hreached
    exact ⟨iff_of_true hreached hnobody, fun h => absurd h hnobody⟩

/-! After a server error the mail is taken, and its one recipient bounces under another spelling. -/

def bouncedResult : Members Empty :=
  [(text "delivered", .list []),
    (text "permanent_bounces", .list [.str (text "Alice@Example.com")])]

def bouncedResponse : HttpResponse Empty where
  status := 200
  retryAfter := none
  body := .json (.dict [(text "success", .bool true), (text "result", .dict bouncedResult)])

def bouncedOutcomes (attempt : Nat) : HttpOutcome Empty :=
  if attempt = 1 then answer 503 [] else .response bouncedResponse

def bouncedReport : Report where
  delivered := []
  queued := []
  permanentBounces := [text "Alice@Example.com"]
  suppressed := []

theorem sendMessage_reached_iff_bounced :
    ∃ error, (sendMessage sampleClient {} helloMail helloEnvelope bouncedOutcomes).result =
      .error (.cloudflare error) := by
  obtain ⟨payload, body, hpayload, hbody, hlength⟩ := exists_helloBody
  have hkeys : recipientKeys sampleClient payload = [text "alice@example.com"] :=
    List.perm_singleton.mp (recipientKeys_perm hpayload)
  have hreports : Reports bouncedResult bouncedReport :=
    ⟨Or.inl rfl, Or.inr ⟨rfl, rfl⟩, Or.inl rfl, Or.inr ⟨rfl, rfl⟩⟩
  have hdeals : DealsOut sampleClient payload bouncedReport := by
    refine ⟨?_, ?_⟩
    · show [[], [], [text "alice@example.com"], []].Pairwise List.Disjoint
      simp
    · intro key
      rw [hkeys]
      exact Iff.rfl
  have hearlier : ∀ j, 1 ≤ j → j < 2 → RetriedAsDocumented sampleClient (bouncedOutcomes j) := by
    intro j hone htwo
    have hfirst : j = 1 := by omega
    subst hfirst
    refine ⟨rfl, ?_, ?_⟩
    · rintro members ⟨⟩
      exact Or.inl rfl
    · rintro response ⟨⟩ h429
      cases h429
  exact (sendMessage_reached_iff rfl hpayload hbody hlength (by decide) (by decide) hearlier rfl
    ⟨rfl, rfl⟩ rfl hreports hdeals).2 ⟨rfl, rfl⟩

end MailCloudflare
