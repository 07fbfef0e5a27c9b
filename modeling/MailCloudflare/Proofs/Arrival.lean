/-
A delivery at the other end.

What Odoo finds in a request of the Worker is what the Worker put there: the key and the
body as they are, and of the headers the ones the handler reads, with the white space that
HTTP takes off their ends gone.  An encoded address may begin or end with a space, and
taking it off is the same before or after the encoding, so the address is still one without
control characters and the message still has both envelope headers.

So the two ends agree about every delivery: with the key, the secret and the clocks in
order, the handler passes on to the mail gateway exactly the bytes the Worker stored.
-/
import MailCloudflare.Deployment.Network
import MailCloudflare.Proofs.Dedup
import MailCloudflare.Proofs.Prepare
import MailCloudflare.Proofs.RowInvariant

namespace MailCloudflare

open Unicode JavaScript Python Rfc5322

variable {env : Worker} {odoo : Odoo} {network : Network} {config : LoadedConfig} {row : InboxRow}
  {attempt now : Nat} {raw stored : Bytes} {request : Request}

/-! ### The headers -/

/-- A header value without white space arrives as it was sent. -/
theorem arrived_value {value : Units} {s : Str} (hvalue : headerText value = s)
    (hspace : ∀ c ∈ s, isHttpSpace c = false) :
    stripBy isHttpSpace (headerText value) = s := by
  rw [hvalue, stripBy_eq_self hspace]

/-- An encoded address arrives as one, and without control characters if it had none. -/
theorem arrived_address {value encoded : Units} (hencoded : asciiValue value = some encoded)
    (hcontrol : NoControl value) (which : Str) :
    ∃ decoded, cloudflareCheckEnvelope which (some (stripBy isHttpSpace (headerText encoded))) =
      .ok (some decoded) := by
  obtain ⟨s, rfl, -, rfl⟩ := of_asciiValue_eq_some hencoded
  have hallowed : ∀ c ∈ s, isEnvelopeForbidden c = false := fun c hc =>
    isEnvelopeForbidden_of_noControl hcontrol hc
  have hkeep : ∀ c ∈ s, isHttpSpace c = true → addressAlphabet.keep c = true := by
    intro c hc hspace
    have hnot := hallowed c hc
    simp only [isHttpSpace, Bool.or_eq_true, decide_eq_true_eq] at hspace
    rcases hspace with ((rfl | rfl) | rfl) | rfl
    · exact absurd hnot (by decide)
    · exact absurd hnot (by decide)
    · exact absurd hnot (by decide)
    · decide
  rw [headerText_encode, Percent.stripBy_encode (by decide) (by decide +kernel) hkeep,
    ← headerText_encode]
  exact ⟨_, checkEnvelope_encode which fun c hc => hallowed c (mem_of_mem_stripBy hc)⟩

/-- The digits of a timestamp and of a digest arrive as they were sent. -/
theorem arrived_timestamp (timestamp : Nat) :
    stripBy isHttpSpace (headerText (decimal timestamp)) = headerText (decimal timestamp) := by
  refine arrived_value rfl fun c hc => ?_
  rw [(timestamp_received timestamp).1] at hc
  have hdigit := isDigit_range (Nat.isDigit_of_mem_toDigits (by decide) (by decide) hc)
  have hne : ∀ d : Char, d.toNat < 0x30 → c ≠ d := by
    rintro d hd rfl
    omega
  simp [isHttpSpace, hne _ (show '\t'.toNat < 0x30 by decide),
    hne _ (show '\n'.toNat < 0x30 by decide), hne _ (show '\r'.toNat < 0x30 by decide),
    hne _ (show ' '.toNat < 0x30 by decide)]

theorem arrived_signature (hmac : Hmac) (secret : Units) (timestamp : Nat) (body : Bytes) :
    stripBy isHttpSpace (headerText (signBody hmac secret timestamp body)) =
      headerText (signBody hmac secret timestamp body) := by
  refine arrived_value rfl fun c hc => ?_
  have hsigned : signBody hmac secret timestamp body = units (SIGNATURE_SCHEME ++ '=' ::
      hexdigest (hmac (textEncode secret) (signaturePayload timestamp body)).val) := by
    unfold signBody hmacSha256Hex
    rw [toHex_eq, js, ← units_append]
    rfl
  rw [hsigned, (signature_received _).1] at hc
  have hhex : ∀ d : Fin 16, isHttpSpace (Nat.digitChar d) = false := by decide
  rcases List.mem_append.mp hc with hc | hc
  · have hscheme : SIGNATURE_SCHEME.all fun c => !isHttpSpace c := by decide
    simpa using List.all_eq_true.mp hscheme c hc
  · rcases List.mem_cons.mp hc with rfl | hc
    · decide
    · obtain ⟨d, hd, rfl⟩ := mem_hexdigest hc
      exact hhex ⟨d, hd⟩

/-- What the handler reads in a request of the Worker. -/
structure Arrived (env : Worker) (config : LoadedConfig) (row : InboxRow) (stored : Bytes)
    (now : Nat) (arrival : InboundRequest) : Prop where
  body : arrival.body = stored
  timestamp : arrival.header HEADER_TIMESTAMP = some (headerText (decimal (unixSeconds now)))
  signature : arrival.header HEADER_SIGNATURE =
    some (headerText (signBody env.hmac config.webhookSecret (unixSeconds now) stored))
  envelopeFrom : ∃ encoded, asciiValue row.envelopeFrom = some encoded ∧
    arrival.header HEADER_ENVELOPE_FROM = some (stripBy isHttpSpace (headerText encoded))
  envelopeTo : ∃ encoded, asciiValue row.envelopeTo = some encoded ∧
    arrival.header HEADER_ENVELOPE_TO = some (stripBy isHttpSpace (headerText encoded))

section Lookup

variable {key name other value : Str} {fields : List (Str × Str)} {body : Bytes}

theorem header_cons_of_ne (h : other.map Char.toLower ≠ name.map Char.toLower) :
    InboundRequest.header ⟨key, (other, value) :: fields, body⟩ name =
      InboundRequest.header ⟨key, fields, body⟩ name := by
  unfold InboundRequest.header
  rw [List.find?_cons_of_neg (by simpa using h)]

theorem header_cons_of_eq (h : other.map Char.toLower = name.map Char.toLower) :
    InboundRequest.header ⟨key, (other, value) :: fields, body⟩ name = some value := by
  unfold InboundRequest.header
  rw [List.find?_cons_of_pos (by simpa using h)]
  rfl

end Lookup

theorem arrived_of_deliveryRequest (network : Network)
    (h : deliveryRequest env config row attempt stored now = some request) :
    Arrived env config row stored now (network.arrival request) := by
  simp only [deliveryRequest, Option.bind_eq_bind, Option.bind_eq_some_iff] at h
  obtain ⟨encodedFrom, hfrom, encodedTo, hto, hrequest⟩ := h
  cases hrequest
  unfold Network.arrival
  simp only [List.cons_append, List.map_cons]
  refine ⟨rfl, ?_, ?_, ⟨encodedFrom, hfrom, ?_⟩, ⟨encodedTo, hto, ?_⟩⟩
  · repeat rw [header_cons_of_ne (by decide +kernel)]
    rw [header_cons_of_eq (by decide +kernel), arrived_timestamp]
  · repeat rw [header_cons_of_ne (by decide +kernel)]
    rw [header_cons_of_eq (by decide +kernel), arrived_signature]
  · repeat rw [header_cons_of_ne (by decide +kernel)]
    rw [header_cons_of_eq (by decide +kernel)]
  · repeat rw [header_cons_of_ne (by decide +kernel)]
    rw [header_cons_of_eq (by decide +kernel)]

theorem arrival_key (network : Network)
    (h : deliveryRequest env config row attempt stored now = some request) :
    (network.arrival request).key = network.webhookKey config.inboundUrl := by
  simp only [deliveryRequest, Option.bind_eq_bind, Option.bind_eq_some_iff] at h
  obtain ⟨encodedFrom, -, encodedTo, -, hrequest⟩ := h
  cases hrequest
  rfl

/-! ### The message -/

/-- The names the handler finds in what the Worker stores. -/
theorem existingHeaderNames_stored {envelopeFrom envelopeTo : Units}
    (h : prependHeaders raw (envelopeHeaders envelopeFrom envelopeTo) = .ok stored) :
    existingHeaderNames stored =
      "delivered-to".toList :: "return-path".toList :: fieldNames raw := by
  obtain ⟨hcontrolFrom, hcontrolTo⟩ := noControl_of_prependHeaders h
  obtain ⟨-, -, rfl⟩ := prependHeaders_iff.mp h
  have hwritableTo := deliveredTo_writable hcontrolTo
  have hnamed : lowerName (deliveredTo envelopeTo).name = "delivered-to".toList ∧
      lowerName (returnPath envelopeFrom).name = "return-path".toList :=
    ⟨show lowerName (utf8 "Delivered-To".toList) = _ by decide,
      show lowerName (utf8 "Return-Path".toList) = _ by decide⟩
  rw [existingHeaderNames_eq (afterEmptyLine_render hwritableTo _), fieldNames_render hwritableTo,
    fieldNames_render (returnPath_writable hcontrolFrom), hnamed.1, hnamed.2]

/-- **Odoo leaves the message of a delivery as the Worker stored it.** -/
theorem prepared_arrival (network : Network)
    (hstored : prependHeaders raw (envelopeHeaders row.envelopeFrom row.envelopeTo) = .ok stored)
    (h : deliveryRequest env config row attempt stored now = some request) :
    cloudflarePrepareMessage (.bytes (network.arrival request).body)
        ((network.arrival request).header HEADER_ENVELOPE_FROM)
        ((network.arrival request).header HEADER_ENVELOPE_TO) = .ok stored := by
  obtain ⟨hcontrolFrom, hcontrolTo⟩ := noControl_of_prependHeaders hstored
  obtain ⟨hbody, -, -, ⟨encodedFrom, hfrom, hheaderFrom⟩, ⟨encodedTo, hto, hheaderTo⟩⟩ :=
    arrived_of_deliveryRequest network h
  obtain ⟨decodedFrom, hdecodedFrom⟩ :=
    arrived_address hfrom hcontrolFrom "envelope-from".toList
  obtain ⟨decodedTo, hdecodedTo⟩ := arrived_address hto hcontrolTo "envelope-to".toList
  have hmissing : missingFields stored (some decodedFrom) (some decodedTo) = [] := by
    rw [missingFields_eq_nil_iff, existingHeaderNames_stored hstored, forall_envelopeFields
      (· ∈ "delivered-to".toList :: "return-path".toList :: fieldNames raw)]
    exact ⟨fun _ => List.mem_cons_self, fun _ => List.mem_cons_of_mem _ List.mem_cons_self⟩
  rw [hbody, hheaderFrom, hheaderTo, cloudflarePrepareMessage_eq hdecodedFrom hdecodedTo,
    Body.encode, hmissing]
  rfl

theorem messageId_arrival (network : Network)
    (hstored : prependHeaders raw (envelopeHeaders row.envelopeFrom row.envelopeTo) = .ok stored)
    (h : deliveryRequest env config row attempt stored now = some request) :
    (network.arrival request).messageId odoo = odoo.messageId stored := by
  simp [InboundRequest.messageId, prepared_arrival network hstored h]

/-! ### The handler -/

/-- The signature of a delivery is good for as long as the tolerance says. -/
theorem verified_arrival (network : Network) (py : UnicodeData) {secret : Str} (hsecret : secret ≠ [])
    (hconfig : config.webhookSecret = units secret) (hnow : now ≤ MAX_SAFE_INTEGER)
    (h : deliveryRequest env config row attempt stored now = some request) (time : ℚ) :
    cloudflareVerifySignature py env.hmac (some secret)
        ((network.arrival request).header HEADER_TIMESTAMP)
        ((network.arrival request).header HEADER_SIGNATURE)
        (.bytes (network.arrival request).body) none time = true ↔
      (truncate time - unixSeconds now).natAbs ≤ SIGNATURE_TOLERANCE := by
  obtain ⟨hbody, htimestamp, hsignature, -, -⟩ := arrived_of_deliveryRequest network h
  obtain ⟨hreceived, hstrip⟩ := timestamp_received (unixSeconds now)
  obtain ⟨hheader, hstripped, hparts⟩ := signature_received
    (env.hmac (utf8 secret) (signedOctets (Nat.toDigits 10 (unixSeconds now)) stored)).val
  rw [hbody, htimestamp, hsignature, hconfig, verifySignature_iff hsecret, signBody_eq, hreceived,
    hheader, hstrip, hstripped, hparts, int_toDigits py (length_unixSeconds hnow), lower_hexdigest]
  simp [Body.encode]

/--
**The two ends agree about every delivery.**  A request the Worker builds for a stored
message is passed on to the mail gateway with exactly the bytes that were stored, or
refused because its signature is too old; it is refused for nothing else.
-/
theorem receive_arrival {secret : Str} {server : Server} {servers : List Server}
    (hhmac : odoo.hmac = env.hmac) (hsecret : secret ≠ [])
    (hconfig : config.webhookSecret = units secret)
    (hfind : cloudflareFindByKey servers (network.webhookKey config.inboundUrl) = some server)
    (hserver : server.webhookSecret = some secret) (hnow : now ≤ MAX_SAFE_INTEGER)
    (hstored : prependHeaders raw (envelopeHeaders row.envelopeFrom row.envelopeTo) = .ok stored)
    (h : deliveryRequest env config row attempt stored now = some request) (time : ℚ) :
    receive odoo (network.arrival request) servers time =
      if (truncate time - unixSeconds now).natAbs ≤ SIGNATURE_TOLERANCE then
        .processing server
          { fetchmailServer := server.id
            model := server.model
            message := stored
            saveOriginal := server.original
            stripAttachments := !server.attach }
      else .returned (respond 401 (some "invalid signature".toList) none) := by
  have hverify := verified_arrival network odoo.py hsecret hconfig hnow h time
  have hprepared := prepared_arrival network hstored h
  unfold receive
  rw [arrival_key network h, hfind]
  simp only [hserver, hhmac, hprepared]
  by_cases hclock : (truncate time - unixSeconds now).natAbs ≤ SIGNATURE_TOLERANCE
  · rw [if_pos (hverify.mpr hclock), if_pos hclock]
  · rw [if_neg fun hgood => hclock (hverify.mp hgood), if_neg hclock]

/-- A Worker that signs as Odoo does. -/
def signingWorker : Worker := { sampleWorker with hmac := sampleHmac }

def sampleNetwork : Network := ⟨fun _ => "key".toList⟩

/-- What is stored of the sample message. -/
def sampleStored : Bytes :=
  (prependHeaders sampleMessage.raw
    (envelopeHeaders sampleMessage.envelopeFrom sampleMessage.envelopeTo)).toOption.getD []

def sampleRow : InboxRow :=
  newRow (World.emailInput signingWorker "A" sampleMessage 0 sampleStored) 5

end MailCloudflare
