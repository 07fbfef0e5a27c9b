/-
The envelope on its way out of the Worker: written into the message as two header lines,
and encoded into two request headers.

`asciiValue` percent-encodes with an alphabet of its own, so what is proved of any such
encoder in `Base/Percent` holds of it: Odoo reads the address back.  The exception is a
character outside the Basic Multilingual Plane.  The expression has no `u` flag and hands
the encoder half of it, which is an error and not a shorter encoding, so `asciiValue` is
total exactly on what has no such character.

The two header lines are fields that can be written, and a field is read back whatever
comes behind it, except when that is a continuation line.  The message is what comes
behind `Return-Path`, and it is the sender's.
-/
import MailCloudflare.Base.Percent
import MailCloudflare.Base.Rfc5322
import MailCloudflare.Odoo.Prepare
import MailCloudflare.Proofs.Signature
import MailCloudflare.Worker.Step

namespace MailCloudflare

open Unicode JavaScript Python

/-! ### Encoding an address -/

/-- Printable ASCII without `%`. -/
def addressAlphabet : Percent.Alphabet where
  keep c := (0x20 ≤ c.toNat && c.toNat ≤ 0x24) || (0x26 ≤ c.toNat && c.toNat ≤ 0x7E)
  printable := by
    intro c h
    simp only [Bool.or_eq_true, Bool.and_eq_true, decide_eq_true_eq] at h
    refine ⟨by omega, by omega, ?_⟩
    rintro rfl
    exact absurd h (by decide)

/-- One code unit, as `replaceAll` hands it to the encoder. -/
private def asciiUnit (u : UInt16) : Option Units :=
  if isAsciiEscaped u then encodeURIComponent [u] else some [u]

private theorem asciiValue_nil : asciiValue [] = some [] := rfl

private theorem asciiValue_cons (u : UInt16) (rest : Units) :
    asciiValue (u :: rest) =
      (asciiUnit u).bind fun value => (asciiValue rest).map (value ++ ·) := by
  unfold asciiValue
  rw [List.mapM_cons]
  show ((asciiUnit u).bind fun value =>
    (rest.mapM asciiUnit).bind fun values => some (value :: values)).map List.flatten = _
  cases asciiUnit u with
  | none => rfl
  | some value =>
      show ((rest.mapM asciiUnit).bind fun values => some (value :: values)).map List.flatten =
        ((rest.mapM asciiUnit).map List.flatten).map (value ++ ·)
      cases rest.mapM asciiUnit <;> rfl

private theorem asciiUnit_surrogate {u : UInt16} (h : 0xD800 ≤ u.toNat ∧ u.toNat ≤ 0xDFFF) :
    asciiUnit u = none := by
  have hescaped : isAsciiEscaped u = true := by
    simp only [isAsciiEscaped, UInt16.le_iff_toNat_le, UInt16.reduceToNat, Bool.not_eq_true',
      Bool.or_eq_false_iff, Bool.and_eq_false_iff, decide_eq_false_iff_not]
    omega
  have hreserved : isUnreserved u.toNat = false := by
    simp [isUnreserved]
    omega
  simp [asciiUnit, hescaped, encodeURIComponent, codePoints, hreserved, h]

private theorem asciiUnit_char {c : Char} (h : c.toNat < 0x10000) :
    asciiUnit (UInt16.ofNat c.toNat) = some (units (Percent.encodeChar addressAlphabet c)) := by
  have hval : (UInt16.ofNat c.toNat).toNat = c.toNat := by
    rw [UInt16.toNat_ofNat']
    omega
  have hescaped : isAsciiEscaped (UInt16.ofNat c.toNat) = !addressAlphabet.keep c := by
    simp only [isAsciiEscaped, addressAlphabet, UInt16.le_iff_toNat_le, hval, UInt16.reduceToNat]
  unfold asciiUnit Percent.encodeChar
  rw [hescaped]
  cases hkeep : addressAlphabet.keep c with
  | true => simp [units, unitsOfChar_of_lt h]
  | false =>
      have hsurrogate : ¬ (0xD800 ≤ c.toNat ∧ c.toNat ≤ 0xDFFF) := by
        rcases char_lt c with hc | hc <;> omega
      have hreserved : isUnreserved c.toNat = false := by
        simp only [addressAlphabet, Bool.or_eq_false_iff, Bool.and_eq_false_iff,
          decide_eq_false_iff_not] at hkeep
        simp [isUnreserved]
        omega
      have hbytes : ∀ bytes : Bytes, bytes.flatMap percentByte =
          units (bytes.flatMap Percent.escapeByte) := by
        intro bytes
        induction bytes with
        | nil => rfl
        | cons b bytes ih =>
            rw [List.flatMap_cons, List.flatMap_cons, units_append, ih, Percent.escapeByte_eq]
      simp [encodeURIComponent, codePoints, hval, hreserved, hsurrogate, hbytes]

/-- Text of the Basic Multilingual Plane is percent-encoded. -/
theorem asciiValue_units {s : Str} (h : ∀ c ∈ s, c.toNat < 0x10000) :
    asciiValue (units s) = some (units (Percent.encode addressAlphabet s)) := by
  induction s with
  | nil => rfl
  | cons c s ih =>
      have hc := h c List.mem_cons_self
      rw [units_cons, unitsOfChar_of_lt hc, List.singleton_append, asciiValue_cons, asciiUnit_char hc,
        ih fun d hd => h d (List.mem_cons_of_mem _ hd), Percent.encode_cons, units_append]
      rfl

/-- Nothing else is encoded. -/
theorem of_asciiValue_eq_some {value text : Units} (h : asciiValue value = some text) :
    ∃ s, value = units s ∧ (∀ c ∈ s, c.toNat < 0x10000) ∧
      text = units (Percent.encode addressAlphabet s) := by
  induction value generalizing text with
  | nil =>
      rw [asciiValue_nil, Option.some.injEq] at h
      exact ⟨[], rfl, by simp, h.symm⟩
  | cons u rest ih =>
      rw [asciiValue_cons, Option.bind_eq_some_iff] at h
      obtain ⟨first, hfirst, hrest⟩ := h
      obtain ⟨more, hmore, rfl⟩ := Option.map_eq_some_iff.mp hrest
      obtain ⟨s, rfl, hs, rfl⟩ := ih hmore
      have hu : ¬ (0xD800 ≤ u.toNat ∧ u.toNat ≤ 0xDFFF) := by
        intro hsurrogate
        rw [asciiUnit_surrogate hsurrogate] at hfirst
        cases hfirst
      have hlt := u.toNat_lt
      have hvalid : u.toNat.isValidChar := by
        unfold Nat.isValidChar
        omega
      have hval : (Char.ofNat u.toNat).toNat = u.toNat := toNat_charOfNat hvalid
      have hback : UInt16.ofNat (Char.ofNat u.toNat).toNat = u := by
        rw [hval, UInt16.ofNat_toNat]
      have hlt' : (Char.ofNat u.toNat).toNat < 0x10000 := by omega
      have hchar := asciiUnit_char hlt'
      rw [hback, hfirst, Option.some.injEq] at hchar
      refine ⟨Char.ofNat u.toNat :: s, ?_, ?_, ?_⟩
      · rw [units_cons, unitsOfChar_of_lt hlt', hback, List.singleton_append]
      · intro c hc
        rcases List.mem_cons.mp hc with rfl | hc
        · omega
        · exact hs c hc
      · rw [Percent.encode_cons, units_append, hchar]

/-- An encoded address as Odoo receives it. -/
theorem headerText_encode (s : Str) :
    headerText (units (Percent.encode addressAlphabet s)) = Percent.encode addressAlphabet s :=
  headerText_units fun c hc => by
    have := Percent.mem_encode hc
    omega

/-- An address passes exactly when it is decoded to one without control characters. -/
theorem cloudflareCheckEnvelope_ok (which : Str) {value : Str}
    (h : ∀ c ∈ unquote value, isEnvelopeForbidden c = false) :
    cloudflareCheckEnvelope which (some value) = .ok (some (strip (unquote value))) := by
  have hany : (unquote value).any isEnvelopeForbidden = false := by
    rw [List.any_eq_false]
    exact fun c hc => by simp [h c hc]
  simp [cloudflareCheckEnvelope, hany]

/-- What Odoo takes an encoded address for. -/
theorem checkEnvelope_encode (which : Str) {s : Str} (h : ∀ c ∈ s, isEnvelopeForbidden c = false) :
    cloudflareCheckEnvelope which
        (some (headerText (units (Percent.encode addressAlphabet s)))) = .ok (some (strip s)) := by
  have hback : unquote (Percent.encode addressAlphabet s) = s := Percent.unquote_encode s
  rw [headerText_encode, cloudflareCheckEnvelope_ok which (by rwa [hback]), hback]

/-! ### What may stand in a header line -/

def NoControl (value : Units) : Prop :=
  ∀ code ∈ codePoints value, 0x20 ≤ code ∧ code ≠ 0x7F

instance (value : Units) : Decidable (NoControl value) :=
  inferInstanceAs (Decidable (∀ code ∈ codePoints value, 0x20 ≤ code ∧ code ≠ 0x7F))

theorem assertHeaderSafe_iff {name value : Units} :
    assertHeaderSafe name value = .ok () ↔
      NoControl value ∧ (textEncode (name ++ js ": " ++ value)).length ≤ MAX_LINE_OCTETS := by
  have hany : ((codePoints value).any fun code => code < 0x20 || code = 0x7f) = true ↔
      ¬ NoControl value := by
    simp only [List.any_eq_true, Bool.or_eq_true, decide_eq_true_eq, NoControl]
    grind
  unfold assertHeaderSafe
  split
  · rename_i hcontrol
    exact iff_of_false (by simp) fun h => hany.mp hcontrol h.1
  · rename_i hcontrol
    rw [hany, not_not] at hcontrol
    split
    · rename_i hlong
      exact iff_of_false (by simp) fun h => absurd h.2 (by omega)
    · rename_i hshort
      exact iff_of_true rfl ⟨hcontrol, by omega⟩

/-- What has no control character is no control character for Odoo either. -/
theorem isEnvelopeForbidden_of_noControl {s : Str} (h : NoControl (units s)) {c : Char}
    (hc : c ∈ s) : isEnvelopeForbidden c = false := by
  rw [NoControl, codePoints_units] at h
  have hcode := h c.toNat (List.mem_map_of_mem hc)
  simp [isEnvelopeForbidden]
  omega

/-! ### The envelope survives the trip -/

/-- The address `s` is encoded, and both ways of decoding it give it back. -/
def Survives (which s : Str) : Prop :=
  ∃ value, asciiValue (units s) = some value ∧
    (∀ u ∈ value, 0x20 ≤ u.toNat ∧ u.toNat ≤ 0x7E) ∧
    decodeURIComponent value = some (units s) ∧
    cloudflareCheckEnvelope which (some (headerText value)) = .ok (some (strip s))

theorem mem_units_encode {A : Percent.Alphabet} {s : Str} {u : UInt16}
    (h : u ∈ units (Percent.encode A s)) : 0x20 ≤ u.toNat ∧ u.toNat ≤ 0x7E := by
  obtain ⟨c, hc, hu⟩ := List.mem_flatMap.mp h
  have hrange := Percent.mem_encode hc
  rw [unitsOfChar_of_lt (by omega), List.mem_singleton] at hu
  rw [hu, UInt16.toNat_ofNat']
  omega

/-- **An address survives exactly when it has no character beyond U+FFFF.** -/
theorem survives_iff (name : Units) (which : Str) {s : Str}
    (h : assertHeaderSafe name (units s) = .ok ()) :
    Survives which s ↔ ∀ c ∈ s, c.toNat < 0x10000 := by
  constructor
  · rintro ⟨value, hvalue, -⟩
    obtain ⟨t, hunits, ht, -⟩ := of_asciiValue_eq_some hvalue
    have hpoints := congrArg codePoints hunits
    rw [codePoints_units, codePoints_units] at hpoints
    intro c hc
    obtain ⟨d, hd, heq⟩ := List.mem_map.mp (hpoints ▸ List.mem_map_of_mem (f := Char.toNat) hc)
    rw [← heq]
    exact ht d hd
  · intro hs
    have hcontrol := (assertHeaderSafe_iff.mp h).1
    exact ⟨_, asciiValue_units hs, fun u hu => mem_units_encode hu,
      Percent.decodeURIComponent_encode s,
      checkEnvelope_encode which fun c hc => isEnvelopeForbidden_of_noControl hcontrol hc⟩

theorem survives_iff_accented :
    Survives "envelope-from".toList "jürgen+100%@erp.example.com".toList ↔
      ∀ c ∈ "jürgen+100%@erp.example.com".toList, c.toNat < 0x10000 :=
  survives_iff (js "Return-Path") _ (by decide +kernel)

/-- An emoji in the local part is an address like any other, and cannot be encoded. -/
theorem not_survives_astral :
    assertHeaderSafe (js "Delivered-To") (units "😀@erp.example.com".toList) = .ok () ∧
      ¬ Survives "envelope-to".toList "😀@erp.example.com".toList := by
  refine ⟨by decide +kernel, ?_⟩
  rintro ⟨value, hvalue, -⟩
  have hnone : asciiValue (units "😀@erp.example.com".toList) = none := by decide +kernel
  rw [hnone] at hvalue
  cases hvalue

/-! ### The header lines -/

/-- `Delivered-To`, as the Worker means it. -/
def deliveredTo (envelopeTo : Units) : Rfc5322.HeaderField where
  name := utf8 "Delivered-To".toList
  value := textEncode envelopeTo

/-- `Return-Path`, as the Worker means it. -/
def returnPath (envelopeFrom : Units) : Rfc5322.HeaderField where
  name := utf8 "Return-Path".toList
  value := textEncode (js "<" ++ envelopeFrom ++ js ">")

theorem textEncode_line (name : String) (value block : Units) :
    textEncode (js name ++ js ": " ++ value ++ js "\r\n" ++ block) =
      (Rfc5322.HeaderField.mk (utf8 name.toList) (textEncode value)).render ++ textEncode block := by
  have hsep : utf8 ": ".toList = [Rfc5322.COLON, Rfc5322.SPACE] := by decide
  have hcrlf : utf8 "\r\n".toList = [Rfc5322.CR, Rfc5322.LF] := by decide
  unfold js
  rw [← units_append, List.append_assoc, List.append_assoc, textEncode_units_append, utf8_append,
    textEncode_append_units_append _ (by decide), hsep, hcrlf]
  simp [Rfc5322.HeaderField.render]

theorem headerBlock_cons {name value block : Units} {rest : List HeaderPair} :
    headerBlock ((name, value) :: rest) = .ok block ↔
      assertHeaderSafe name value = .ok () ∧
        ∃ tail, headerBlock rest = .ok tail ∧
          block = name ++ js ": " ++ value ++ js "\r\n" ++ tail := by
  have hcons : headerBlock ((name, value) :: rest) = (assertHeaderSafe name value).bind fun _ =>
      (headerBlock rest).bind fun tail => .ok (name ++ js ": " ++ value ++ js "\r\n" ++ tail) := rfl
  rw [hcons]
  cases assertHeaderSafe name value with
  | error e => simp [Except.bind]
  | ok u => cases headerBlock rest <;> simp [Except.bind, eq_comm]

/-- When the writer succeeds, and what it writes. -/
theorem prependHeaders_iff {raw stored : Bytes} {envelopeFrom envelopeTo : Units} :
    prependHeaders raw (envelopeHeaders envelopeFrom envelopeTo) = .ok stored ↔
      assertHeaderSafe (js "Delivered-To") envelopeTo = .ok () ∧
        assertHeaderSafe (js "Return-Path") (js "<" ++ envelopeFrom ++ js ">") = .ok () ∧
        stored = (deliveredTo envelopeTo).render ++ ((returnPath envelopeFrom).render ++ raw) := by
  have hheaders : envelopeHeaders envelopeFrom envelopeTo =
      [(js "Delivered-To", envelopeTo), (js "Return-Path", js "<" ++ envelopeFrom ++ js ">")] := by
    unfold envelopeHeaders
    split
    · rename_i hempty
      rw [hempty]
      rfl
    · rfl
  have hprepend : prependHeaders raw (envelopeHeaders envelopeFrom envelopeTo) = .ok stored ↔
      ∃ block, headerBlock (envelopeHeaders envelopeFrom envelopeTo) = .ok block ∧
        stored = textEncode block ++ raw := by
    unfold prependHeaders
    cases headerBlock (envelopeHeaders envelopeFrom envelopeTo) <;>
      simp [bind, Except.bind, pure, Except.pure, eq_comm]
  rw [hprepend, hheaders]
  constructor
  · rintro ⟨block, hblock, rfl⟩
    obtain ⟨hto, tail, htail, rfl⟩ := headerBlock_cons.mp hblock
    obtain ⟨hfrom, last, hlast, rfl⟩ := headerBlock_cons.mp htail
    cases hlast
    refine ⟨hto, hfrom, ?_⟩
    rw [textEncode_line, textEncode_line]
    simp [deliveredTo, returnPath, textEncode, utf8, codePoints]
  · rintro ⟨hto, hfrom, rfl⟩
    refine ⟨_, headerBlock_cons.mpr ⟨hto, _, headerBlock_cons.mpr ⟨hfrom, [], rfl, rfl⟩, rfl⟩, ?_⟩
    rw [textEncode_line, textEncode_line]
    simp [deliveredTo, returnPath, textEncode, utf8, codePoints]

theorem noControl_brackets {value : Units} :
    NoControl (js "<" ++ value ++ js ">") ↔ NoControl value := by
  unfold NoControl js
  rw [List.append_assoc, codePoints_units_append, codePoints_append_units]
  simp only [List.forall_mem_append]
  constructor
  · exact fun h => h.2.1
  · exact fun h => ⟨by decide, h, by decide⟩

private theorem notMem_textEncode {value : Units} (h : NoControl value) {b : UInt8}
    (hb : b.toNat < 0x20) : b ∉ textEncode value := by
  intro hmem
  have hcode := h _ (mem_of_mem_textEncode hmem (by omega))
  omega

private theorem writable_of_noControl {name : Bytes}
    (hname : name ≠ [] ∧ Rfc5322.COLON ∉ name ∧ name.all Rfc5322.isPrintable = true)
    {value : Units} (h : NoControl value) :
    (Rfc5322.HeaderField.mk name (textEncode value)).Writable where
  name_ne := hname.1
  colon := hname.2.1
  printable := hname.2.2
  cr := notMem_textEncode h (by decide)
  lf := notMem_textEncode h (by decide)

theorem deliveredTo_writable {envelopeTo : Units} (h : NoControl envelopeTo) :
    (deliveredTo envelopeTo).Writable :=
  writable_of_noControl (by decide) h

theorem returnPath_writable {envelopeFrom : Units} (h : NoControl envelopeFrom) :
    (returnPath envelopeFrom).Writable :=
  writable_of_noControl (by decide) (noControl_brackets.mpr h)

/-- What the writer accepted has no control character. -/
theorem noControl_of_prependHeaders {raw stored : Bytes} {envelopeFrom envelopeTo : Units}
    (h : prependHeaders raw (envelopeHeaders envelopeFrom envelopeTo) = .ok stored) :
    NoControl envelopeFrom ∧ NoControl envelopeTo := by
  obtain ⟨hto, hfrom, -⟩ := prependHeaders_iff.mp h
  exact ⟨noControl_brackets.mp (assertHeaderSafe_iff.mp hfrom).1, (assertHeaderSafe_iff.mp hto).1⟩

/-! ### The sender's bytes -/

/-- The first two fields are the ones the Worker vouches for. -/
def EnvelopeFirst (envelopeFrom envelopeTo : Units) (stored : Bytes) : Prop :=
  (Rfc5322.fields stored).take 2 = [deliveredTo envelopeTo, returnPath envelopeFrom]

/--
**The message leaves the envelope headers alone exactly when it does not begin with a space
or a tab**: what does is the continuation of `Return-Path`.
-/
theorem envelopeFirst_iff {raw stored : Bytes} {envelopeFrom envelopeTo : Units}
    (h : prependHeaders raw (envelopeHeaders envelopeFrom envelopeTo) = .ok stored) :
    EnvelopeFirst envelopeFrom envelopeTo stored ↔
      raw.head? ≠ some Rfc5322.SPACE ∧ raw.head? ≠ some Rfc5322.TAB := by
  obtain ⟨hfrom, hto⟩ := noControl_of_prependHeaders h
  obtain ⟨-, -, rfl⟩ := prependHeaders_iff.mp h
  have hcont : Rfc5322.isContinuation raw = false ↔
      raw.head? ≠ some Rfc5322.SPACE ∧ raw.head? ≠ some Rfc5322.TAB := by
    simp [Rfc5322.isContinuation]
  have hline : Rfc5322.isContinuation ((returnPath envelopeFrom).render ++ raw) = false := rfl
  rw [← hcont, ← Rfc5322.head_fields_render_iff (returnPath_writable hfrom), EnvelopeFirst,
    Rfc5322.fields_render (deliveredTo_writable hto) hline]
  cases Rfc5322.fields ((returnPath envelopeFrom).render ++ raw) with
  | nil => simp
  | cons f rest => simp

theorem envelopeFirst_iff_lf :
    EnvelopeFirst [] (js "sales@erp.example.com")
        (utf8 "Delivered-To: sales@erp.example.com\r\nReturn-Path: <>\r\n\nbody".toList) ↔
      (utf8 "\nbody".toList).head? ≠ some Rfc5322.SPACE ∧
        (utf8 "\nbody".toList).head? ≠ some Rfc5322.TAB :=
  envelopeFirst_iff (by decide +kernel)

/-- A bounce whose `Return-Path` names somebody. -/
theorem not_envelopeFirst_folded :
    prependHeaders (utf8 " <boss@example.com>\r\nSubject: x\r\n\r\n".toList)
          (envelopeHeaders [] (js "sales@erp.example.com")) =
        .ok (utf8 ("Delivered-To: sales@erp.example.com\r\nReturn-Path: <>\r\n" ++
          " <boss@example.com>\r\nSubject: x\r\n\r\n").toList) ∧
      ¬ EnvelopeFirst [] (js "sales@erp.example.com")
        (utf8 ("Delivered-To: sales@erp.example.com\r\nReturn-Path: <>\r\n" ++
          " <boss@example.com>\r\nSubject: x\r\n\r\n").toList) := by
  refine ⟨by decide +kernel, ?_⟩
  unfold EnvelopeFirst
  decide +kernel

/-! ### The pre-check -/

theorem length_textEncode_line (name : String) (value : Units) :
    (textEncode (js name ++ js ": " ++ value)).length =
      (utf8 name.toList).length + 2 + (textEncode value).length := by
  unfold js
  rw [← units_append, textEncode_units_append, utf8_append, List.length_append, List.length_append]
  rfl

theorem length_textEncode_brackets (value : Units) :
    (textEncode (js "<" ++ value ++ js ">")).length = (textEncode value).length + 2 := by
  unfold js
  rw [List.append_assoc, textEncode_units_append, textEncode_append_units, List.length_append,
    List.length_append]
  have hopen : (utf8 "<".toList).length = 1 := by decide
  have hclose : (utf8 ">".toList).length = 1 := by decide
  omega

private theorem deliveredTo_safe_iff {value : Units} :
    assertHeaderSafe (js "Delivered-To") value = .ok () ↔
      NoControl value ∧ (textEncode value).length ≤ 984 := by
  have hname : (utf8 "Delivered-To".toList).length = 12 := by decide
  rw [assertHeaderSafe_iff, length_textEncode_line, hname, MAX_LINE_OCTETS]
  exact and_congr_right fun _ => by omega

private theorem returnPath_safe_iff {value : Units} :
    assertHeaderSafe (js "Return-Path") value = .ok () ↔
      NoControl value ∧ (textEncode value).length ≤ 985 := by
  have hname : (utf8 "Return-Path".toList).length = 11 := by decide
  rw [assertHeaderSafe_iff, length_textEncode_line, hname, MAX_LINE_OCTETS]
  exact and_congr_right fun _ => by omega

/-- What the pre-check lets through. -/
theorem checkEnvelope_iff {m : EmailMessage} :
    World.checkEnvelope m = .ok () ↔
      (NoControl m.envelopeTo ∧ (textEncode m.envelopeTo).length ≤ 984) ∧
        NoControl m.envelopeFrom ∧ (textEncode m.envelopeFrom).length ≤ 985 := by
  rw [← deliveredTo_safe_iff, ← returnPath_safe_iff]
  unfold World.checkEnvelope
  cases assertHeaderSafe (js "Delivered-To") m.envelopeTo <;> simp [bind, Except.bind]

/-- What the writer writes: two octets less of the sender, for the angle brackets. -/
theorem prependHeaders_ok_iff {m : EmailMessage} :
    (∃ stored, prependHeaders m.raw (envelopeHeaders m.envelopeFrom m.envelopeTo) = .ok stored) ↔
      (NoControl m.envelopeTo ∧ (textEncode m.envelopeTo).length ≤ 984) ∧
        NoControl m.envelopeFrom ∧ (textEncode m.envelopeFrom).length ≤ 983 := by
  simp only [prependHeaders_iff, deliveredTo_safe_iff, returnPath_safe_iff, noControl_brackets,
    length_textEncode_brackets]
  constructor
  · rintro ⟨_, hto, ⟨hcontrol, hle⟩, _⟩
    exact ⟨hto, hcontrol, by omega⟩
  · rintro ⟨hto, hcontrol, hle⟩
    exact ⟨_, hto, ⟨hcontrol, by omega⟩, rfl⟩

/-- What the pre-check refuses is rejected for good. -/
theorem email_of_checkEnvelope_ne {m : EmailMessage} (hcheck : World.checkEnvelope m ≠ .ok ())
    {env : Worker} {w w' : World} {id : String} {receivedAt : Nat}
    (h : w.email env id m receivedAt = some w') : w' = w.log (.rejected id) := by
  unfold World.email at h
  split at h
  · cases h
  · split at h
    · exact (Option.some.inj h).symm
    · rename_i hok
      exact absurd hok hcheck

/-- The pre-check and the writer agree, and what cannot be written is rejected, nothing stored. -/
structure PrecheckAgrees (m : EmailMessage) : Prop where
  agree : World.checkEnvelope m = .ok () ↔
    ∃ stored, prependHeaders m.raw (envelopeHeaders m.envelopeFrom m.envelopeTo) = .ok stored
  rejected : ∀ {e : EnvelopeError},
    prependHeaders m.raw (envelopeHeaders m.envelopeFrom m.envelopeTo) = .error e →
      ∀ {env : Worker} {w w' : World} {id : String} {receivedAt : Nat},
        w.email env id m receivedAt = some w' → w' = w.log (.rejected id)

/--
**The two disagree exactly on a sender of 984 or 985 octets**, which fits in the line without
the angle brackets only.
-/
theorem precheckAgrees_iff (m : EmailMessage) :
    PrecheckAgrees m ↔
      ¬ ((NoControl m.envelopeTo ∧ (textEncode m.envelopeTo).length ≤ 984) ∧
        NoControl m.envelopeFrom ∧
        ((textEncode m.envelopeFrom).length = 984 ∨ (textEncode m.envelopeFrom).length = 985)) := by
  constructor
  · rintro h ⟨hto, hcontrol, hlength⟩
    have hcheck := checkEnvelope_iff.mpr ⟨hto, hcontrol, by omega⟩
    have hwritten := prependHeaders_ok_iff.mp (h.agree.mp hcheck)
    omega
  · intro hlength
    have hagree : World.checkEnvelope m = .ok () ↔
        ∃ stored, prependHeaders m.raw (envelopeHeaders m.envelopeFrom m.envelopeTo) =
          .ok stored := by
      rw [checkEnvelope_iff, prependHeaders_ok_iff]
      constructor
      · rintro ⟨hto, hcontrol, hle⟩
        refine ⟨hto, hcontrol, ?_⟩
        by_contra hgt
        exact hlength ⟨hto, hcontrol, by omega⟩
      · rintro ⟨hto, hcontrol, hle⟩
        exact ⟨hto, hcontrol, by omega⟩
    refine ⟨hagree, ?_⟩
    intro e herror env w w' id receivedAt hemail
    refine email_of_checkEnvelope_ne ?_ hemail
    intro hcheck
    obtain ⟨stored, hstored⟩ := hagree.mp hcheck
    rw [hstored] at herror
    cases herror

/-- A sender of 984 octets passes the pre-check and makes the writer throw. -/
theorem not_precheckAgrees_long :
    ¬ PrecheckAgrees ⟨List.replicate 984 0x61, js "sales@erp.example.com", [], none⟩ := by
  intro h
  have hcheck : World.checkEnvelope ⟨List.replicate 984 0x61, js "sales@erp.example.com", [], none⟩ =
      .ok () := by decide +kernel
  obtain ⟨stored, hstored⟩ := h.agree.mp hcheck
  have herror : prependHeaders []
      (envelopeHeaders (List.replicate 984 0x61) (js "sales@erp.example.com")) =
        .error ⟨js "Return-Path exceeds 998 octets"⟩ := by decide +kernel
  rw [herror] at hstored
  cases hstored

end MailCloudflare
