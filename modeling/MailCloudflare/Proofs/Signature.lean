/-
The two ends of a signed delivery.

The Worker renders a number, signs and sends; Odoo parses the text it received, signs that
text and compares.  What makes them agree is that the number is rendered as a plain
numeral, which `int` reads back and `strip` leaves alone, and that both ends put the same
octets before the same body.

The signed octets are the timestamp, a full stop and the body, with nothing to say how long
the timestamp is.  They can be taken apart in one way only, because no text `int` reads has
a full stop in it (`dot_notMem_of_int`), whatever signs, underscores, zeros and digits of
other scripts it is written with.
-/
import MailCloudflare.Odoo.Signature
import Mathlib.Data.Set.Function

namespace MailCloudflare

open Unicode JavaScript Python

variable {py : UnicodeData} {hmac : Hmac}

/-! ### The verifier -/

theorem present_some {s : Str} (h : s ≠ []) : present (some s) = some s := by
  cases s with
  | nil => exact absurd rfl h
  | cons c s => rfl

/-- What it takes for a signature to be accepted. -/
theorem verifySignature_iff {secret timestamp signature : Str} {body : Body} {now : Option ℚ}
    {time : ℚ} (hsecret : secret ≠ []) :
    cloudflareVerifySignature py hmac (some secret) (some timestamp) (some signature) body now
        time = true ↔
      (∃ issuedAt, int py (strip timestamp) = some issuedAt ∧
          (truncate (now.getD time) - issuedAt).natAbs ≤ SIGNATURE_TOLERANCE) ∧
        (partition '=' (strip signature)).1 = SIGNATURE_SCHEME ∧
        py.lower (partition '=' (strip signature)).2 =
          hexdigest (hmac (utf8 secret) (signedOctets (strip timestamp) body.encode)).val := by
  unfold cloudflareVerifySignature checkSignature
  simp only [present_some hsecret, Option.bind_eq_bind, Option.bind_some]
  by_cases htimestamp : timestamp = []
  · -- `int` reads nothing from an empty text.
    subst htimestamp
    refine iff_of_false (by simp [present]) ?_
    rintro ⟨⟨issuedAt, hint, -⟩, -⟩
    cases hint
  by_cases hsignature : signature = []
  · subst hsignature
    refine iff_of_false (by simp [present]) ?_
    rintro ⟨-, hscheme, -⟩
    cases hscheme
  simp only [present_some htimestamp, present_some hsignature, Option.bind_some]
  cases hint : int py (strip timestamp) with
  | none => simp
  | some issuedAt =>
      generalize hdigest : (partition '=' (strip signature)).2 = digest
      by_cases hclock : (truncate (now.getD time) - issuedAt).natAbs ≤ SIGNATURE_TOLERANCE
      · by_cases hscheme : (partition '=' (strip signature)).1 = SIGNATURE_SCHEME
        · by_cases hempty : digest = []
          · -- A digest has 64 digits.
            refine iff_of_false (by simp [hempty]) ?_
            rintro ⟨-, -, hlower⟩
            have hlength := congrArg List.length hlower
            rw [hempty, py.lower_ascii [] (by simp), length_hexdigest, (hmac _ _).property] at hlength
            cases hlength
          · simp [hclock, hscheme, hempty, compareDigest_hexdigest]
        · simp [hscheme]
      · simp [hclock]

/-! ### The signer -/

/-- ASCII text arrives as it was sent. -/
theorem headerText_units {s : Str} (h : ∀ c ∈ s, c.toNat < 0x80) : headerText (units s) = s := by
  induction s with
  | nil => rfl
  | cons c rest ih =>
      have hc := h c List.mem_cons_self
      have hval : (UInt16.ofNat c.toNat).toNat = c.toNat := by
        rw [UInt16.toNat_ofNat']
        omega
      rw [units_cons, unitsOfChar_of_lt (by omega), List.singleton_append, headerText,
        List.map_cons, hval, Char.ofNat_toNat]
      exact congrArg (c :: ·) (ih fun d hd => h d (List.mem_cons_of_mem _ hd))

/-- The Worker writes digests as Python does. -/
theorem toHex_eq (bytes : Bytes) : toHex bytes = units (hexdigest bytes) := by
  have hbyte : ∀ n < 256, List.replicate (2 - (units (Nat.toDigits 16 n)).length) 0x30 ++
      units (Nat.toDigits 16 n) = units [Nat.digitChar (n / 16), Nat.digitChar (n % 16)] := by
    decide +kernel
  induction bytes with
  | nil => rfl
  | cons b rest ih =>
      have hcons : hexdigest (b :: rest) =
          [Nat.digitChar (b.toNat / 16), Nat.digitChar (b.toNat % 16)] ++ hexdigest rest := by
        simp [hexdigest]
      rw [hcons, units_append, ← ih, ← hbyte b.toNat b.toNat_lt]
      simp [toHex]

/-- Both ends sign the same octets. -/
theorem signaturePayload_eq (timestamp : Nat) (body : Bytes) :
    signaturePayload timestamp body = signedOctets (Nat.toDigits 10 timestamp) body := by
  unfold signaturePayload signedOctets
  rw [decimal, js, ← units_append, textEncode_units]
  rfl

theorem signBody_eq (secret : Str) (timestamp : Nat) (body : Bytes) :
    signBody hmac (units secret) timestamp body =
      units (SIGNATURE_SCHEME ++ '=' ::
        hexdigest (hmac (utf8 secret) (signedOctets (Nat.toDigits 10 timestamp) body)).val) := by
  unfold signBody hmacSha256Hex
  rw [textEncode_units, signaturePayload_eq, toHex_eq, js, ← units_append]
  rfl

/-- The timestamp header as Odoo receives it. -/
theorem timestamp_received (timestamp : Nat) :
    headerText (decimal timestamp) = Nat.toDigits 10 timestamp ∧
      strip (Nat.toDigits 10 timestamp) = Nat.toDigits 10 timestamp := by
  have hrange : ∀ c ∈ Nat.toDigits 10 timestamp, 0x30 ≤ c.toNat ∧ c.toNat ≤ 0x39 := by
    intro c hc
    exact isDigit_range (Nat.isDigit_of_mem_toDigits (by decide) (by decide) hc)
  refine ⟨headerText_units fun c hc => ?_, stripBy_eq_self fun c hc => ?_⟩
  · have := hrange c hc
    omega
  · have := hrange c hc
    simp [Python.isSpace]
    omega

/-- The signature header as Odoo receives it, and what it is taken apart into. -/
theorem signature_received (bytes : Bytes) :
    let signature := SIGNATURE_SCHEME ++ '=' :: hexdigest bytes
    headerText (units signature) = signature ∧ strip signature = signature ∧
      partition '=' signature = (SIGNATURE_SCHEME, hexdigest bytes) := by
  intro signature
  have hmem : ∀ c ∈ signature, c ∈ ['v', '1', '='] ∨ ∃ d < 16, c = Nat.digitChar d := by
    intro c hc
    rcases List.mem_append.mp hc with hc | hc
    · exact Or.inl (List.mem_append_left ['='] hc)
    · rcases List.mem_cons.mp hc with rfl | hc
      · exact Or.inl (by decide)
      · exact Or.inr (mem_hexdigest hc)
  have hchars : ∀ c ∈ signature, c.toNat < 0x80 ∧ Python.isSpace c = false := by
    intro c hc
    have hscheme : ∀ c ∈ ['v', '1', '='], c.toNat < 0x80 ∧ Python.isSpace c = false := by
      simp [Python.isSpace]
    have hhex : ∀ d < 16, (Nat.digitChar d).toNat < 0x80 ∧
        Python.isSpace (Nat.digitChar d) = false := by
      decide +kernel
    rcases hmem c hc with hc | ⟨d, hd, rfl⟩
    · exact hscheme c hc
    · exact hhex d hd
  refine ⟨headerText_units fun c hc => (hchars c hc).1,
    stripBy_eq_self fun c hc => (hchars c hc).2, partition_append (by decide) _⟩

/-- A clock whose milliseconds are exact shows a number of seconds that `int` reads. -/
theorem length_unixSeconds {now : Nat} (hnow : now ≤ MAX_SAFE_INTEGER) :
    (Nat.toDigits 10 (unixSeconds now)).length ≤ MAX_STR_DIGITS := by
  have hsmall : unixSeconds now < 10 ^ 16 := by
    calc unixSeconds now ≤ now := Nat.div_le_self now 1000
      _ ≤ MAX_SAFE_INTEGER := hnow
      _ < 10 ^ 16 := by decide
  calc (Nat.toDigits 10 (unixSeconds now)).length ≤ 16 :=
        (Nat.length_toDigits_le_iff (by decide) (by decide)).mpr hsmall
    _ ≤ MAX_STR_DIGITS := by decide

/--
**The Worker's signature is accepted exactly within the tolerance**, whatever the secret,
the body and the two clocks are.
-/
theorem verify_signBody_iff {secret : Str} (hsecret : secret ≠ []) (body : Bytes) {sent : Nat}
    (hsent : sent ≤ MAX_SAFE_INTEGER) (now : Option ℚ) (time : ℚ) :
    cloudflareVerifySignature py hmac (some secret)
        (some (headerText (decimal (unixSeconds sent))))
        (some (headerText (signBody hmac (units secret) (unixSeconds sent) body)))
        (.bytes body) now time = true ↔
      (truncate (now.getD time) - unixSeconds sent).natAbs ≤ SIGNATURE_TOLERANCE := by
  have hlength := length_unixSeconds hsent
  obtain ⟨hreceived, hstrip⟩ := timestamp_received (unixSeconds sent)
  obtain ⟨hheader, hsignature, hparts⟩ := signature_received
    (hmac (utf8 secret) (signedOctets (Nat.toDigits 10 (unixSeconds sent)) body)).val
  rw [verifySignature_iff hsecret, signBody_eq, hreceived, hheader, hstrip, hsignature, hparts,
    int_toDigits py hlength, lower_hexdigest]
  simp [Body.encode]

/-- A database that knows ASCII only. -/
def asciiData : UnicodeData where
  decimal := fun _ => none
  lower := fun s => s.map Char.toLower
  lower_ascii := fun _ _ => rfl

def sampleHmac : Hmac := fun _ _ => ⟨List.replicate 32 0xAB, rfl⟩

theorem verify_signBody_iff_late :
    cloudflareVerifySignature asciiData sampleHmac (some "s3cret".toList)
        (some (headerText (decimal (unixSeconds 1700000000999))))
        (some (headerText (signBody sampleHmac (units "s3cret".toList)
          (unixSeconds 1700000000999) [72, 105])))
        (.bytes [72, 105]) none (1700000300 + 9 / 10) = true :=
  (verify_signBody_iff (by decide) [72, 105] (by decide) none _).mpr (by decide +kernel)

/-! ### Two accepted requests -/

/--
**A signature is good for one body and one timestamp**: two accepted requests with one
digest have the same body and the same timestamp, and were received within twice the
tolerance of each other.
-/
theorem accepted_digest_unique {secret t₁ t₂ s₁ s₂ : Str} {b₁ b₂ : Bytes} {n₁ n₂ : Option ℚ}
    {time₁ time₂ : ℚ}
    (h₁ : cloudflareVerifySignature py hmac (some secret) (some t₁) (some s₁) (.bytes b₁) n₁ time₁ =
      true)
    (h₂ : cloudflareVerifySignature py hmac (some secret) (some t₂) (some s₂) (.bytes b₂) n₂ time₂ =
      true)
    (hdigest : py.lower (partition '=' (strip s₁)).2 = py.lower (partition '=' (strip s₂)).2)
    (hinj : Set.InjOn (hmac (utf8 secret))
      {signedOctets (strip t₁) b₁, signedOctets (strip t₂) b₂}) :
    b₁ = b₂ ∧ strip t₁ = strip t₂ ∧
      (truncate (n₁.getD time₁) - truncate (n₂.getD time₂)).natAbs ≤ 2 * SIGNATURE_TOLERANCE := by
  have hsecret : secret ≠ [] := by
    rintro rfl
    cases h₁
  obtain ⟨⟨issued₁, hint₁, hclock₁⟩, -, hlower₁⟩ := (verifySignature_iff hsecret).mp h₁
  obtain ⟨⟨issued₂, hint₂, hclock₂⟩, -, hlower₂⟩ := (verifySignature_iff hsecret).mp h₂
  have hsame : hexdigest (hmac (utf8 secret) (signedOctets (strip t₁) b₁)).val =
      hexdigest (hmac (utf8 secret) (signedOctets (strip t₂) b₂)).val :=
    hlower₁.symm.trans (hdigest.trans hlower₂)
  have hoctets : signedOctets (strip t₁) b₁ = signedOctets (strip t₂) b₂ :=
    hinj (Or.inl rfl) (Or.inr rfl) (Subtype.ext (hexdigest_injective hsame))
  obtain ⟨hstrip, hbody⟩ := utf8_separated (by decide) (dot_notMem_of_int hint₁)
    (dot_notMem_of_int hint₂) hoctets
  refine ⟨hbody, hstrip, ?_⟩
  rw [hstrip, hint₂] at hint₁
  cases hint₁
  omega

/-- The digits as they are sent and in upper case, at the two ends of the tolerance. -/
theorem accepted_digest_unique_spaced :
    let s₁ := SIGNATURE_SCHEME ++ '=' :: hexdigest (List.replicate 32 0xAB)
    let s₂ := SIGNATURE_SCHEME ++ '=' :: (hexdigest (List.replicate 32 0xAB)).map Char.toUpper
    cloudflareVerifySignature asciiData sampleHmac (some "k".toList) (some "0042".toList) (some s₁)
        (.bytes [1]) (some (-258)) 0 = true ∧
      cloudflareVerifySignature asciiData sampleHmac (some "k".toList) (some " 0042".toList)
        (some s₂) (.bytes [1]) (some 342) 0 = true ∧
      strip "0042".toList = strip " 0042".toList ∧ (truncate (-258) - truncate 342).natAbs ≤ 600 := by
  intro s₁ s₂
  have h₁ : cloudflareVerifySignature asciiData sampleHmac (some "k".toList) (some "0042".toList)
      (some s₁) (.bytes [1]) (some (-258)) 0 = true := by decide +kernel
  have h₂ : cloudflareVerifySignature asciiData sampleHmac (some "k".toList) (some " 0042".toList)
      (some s₂) (.bytes [1]) (some 342) 0 = true := by decide +kernel
  have hunique := accepted_digest_unique h₁ h₂ (by decide +kernel) (by
    have hsame : signedOctets (strip " 0042".toList) [1] = signedOctets (strip "0042".toList) [1] :=
      rfl
    rw [hsame]
    simp)
  exact ⟨h₁, h₂, hunique.2⟩

end MailCloudflare
