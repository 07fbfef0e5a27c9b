/-
Percent-encoding, written by one language and read by another.

An encoder is the characters it leaves alone.  Which ones those are differs from one encoder
to the next and does not matter to a reader: as long as they are printable ASCII and `%` is
not among them, what comes out is printable ASCII, and both `decodeURIComponent`, which
reads code units, and `unquote`, which reads runs of ASCII characters, give the text back.
-/
import MailCloudflare.Base.JavaScript
import MailCloudflare.Base.Python
import Mathlib.Data.List.DropRight
import Mathlib.Data.List.SplitBy

namespace Percent

open Unicode

/-- The characters an encoder leaves alone. -/
structure Alphabet where
  keep : Char → Bool
  printable : ∀ {c : Char}, keep c = true → 0x20 ≤ c.toNat ∧ c.toNat ≤ 0x7E ∧ c ≠ '%'

def hexDigit (n : Nat) : Char :=
  Char.ofNat (if n < 10 then 0x30 + n else 0x41 + (n - 10))

/-- `%XX`. -/
def escapeByte (b : UInt8) : List Char :=
  ['%', hexDigit (b.toNat / 16), hexDigit (b.toNat % 16)]

def encodeChar (A : Alphabet) (c : Char) : List Char :=
  if A.keep c then [c] else (String.utf8EncodeChar c).flatMap escapeByte

def encode (A : Alphabet) (s : List Char) : List Char :=
  s.flatMap (encodeChar A)

variable {A : Alphabet}

theorem encode_cons (c : Char) (s : List Char) :
    encode A (c :: s) = encodeChar A c ++ encode A s := by
  simp [encode]

/-! ### What an escape is made of -/

theorem escapeByte_eq (b : UInt8) : JavaScript.percentByte b = units (escapeByte b) := by
  have hbyte : ∀ n < 256,
      JavaScript.percentByte (UInt8.ofNat n) = units (escapeByte (UInt8.ofNat n)) := by
    decide +kernel
  simpa using hbyte b.toNat b.toNat_lt

theorem mem_escapeByte {b : UInt8} {c : Char} (h : c ∈ escapeByte b) :
    0x20 ≤ c.toNat ∧ c.toNat ≤ 0x7E := by
  have hdigit : ∀ n < 16, 0x20 ≤ (hexDigit n).toNat ∧ (hexDigit n).toNat ≤ 0x7E := by
    decide +kernel
  have hb := b.toNat_lt
  simp only [escapeByte, List.mem_cons, List.not_mem_nil, or_false] at h
  rcases h with rfl | rfl | rfl
  · decide
  · exact hdigit _ (by omega)
  · exact hdigit _ (by omega)

/-- What is encoded is printable ASCII. -/
theorem mem_encode {s : List Char} {c : Char} (h : c ∈ encode A s) :
    0x20 ≤ c.toNat ∧ c.toNat ≤ 0x7E := by
  obtain ⟨d, -, hc⟩ := List.mem_flatMap.mp h
  unfold encodeChar at hc
  split at hc
  · rename_i hkeep
    rw [List.mem_singleton] at hc
    obtain ⟨hlo, hhi, -⟩ := A.printable hkeep
    rw [hc]
    exact ⟨hlo, hhi⟩
  · obtain ⟨b, -, hmem⟩ := List.mem_flatMap.mp hc
    exact mem_escapeByte hmem

/-! ### Read as code units -/

private theorem readEscape_escapeByte (b : UInt8) (rest : Units) :
    JavaScript.readEscape (units (escapeByte b) ++ rest) = some (b, rest) := by
  have hdigit : ∀ n < 16, units [hexDigit n] = [UInt16.ofNat (hexDigit n).toNat] ∧
      JavaScript.hexDigitValue (UInt16.ofNat (hexDigit n).toNat) = some n := by
    decide +kernel
  have hb := b.toNat_lt
  obtain ⟨hhigh, hhighValue⟩ := hdigit (b.toNat / 16) (by omega)
  obtain ⟨hlow, hlowValue⟩ := hdigit (b.toNat % 16) (by omega)
  have hunits : units (escapeByte b) = units ['%'] ++ (units [hexDigit (b.toNat / 16)] ++
      units [hexDigit (b.toNat % 16)]) := by
    rw [← units_append, ← units_append]
    rfl
  have hpercent : units ['%'] = [0x25] := rfl
  have hvalue : UInt8.ofNat (b.toNat / 16 * 16 + b.toNat % 16) = b := by
    rw [Nat.div_add_mod']
    exact UInt8.ofNat_toNat
  rw [hunits, hpercent, hhigh, hlow]
  simp only [List.cons_append, List.nil_append, JavaScript.readEscape, if_true, hhighValue,
    hlowValue, Option.bind_some, Option.map_some, hvalue]

private theorem readEscapes_escapeByte (bytes : Bytes) (rest : Units) :
    JavaScript.readEscapes bytes.length (units (bytes.flatMap escapeByte) ++ rest) =
      some (bytes, rest) := by
  induction bytes with
  | nil => rfl
  | cons b bytes ih =>
      rw [List.flatMap_cons, units_append, List.append_assoc, List.length_cons,
        JavaScript.readEscapes, readEscape_escapeByte]
      simp only [Option.bind_some, ih, Option.map_some]

private theorem octetCount_utf8EncodeChar (c : Char) :
    ∃ b bytes, String.utf8EncodeChar c = b :: bytes ∧
      JavaScript.octetCount b = some (bytes.length + 1) := by
  have hbytes := utf8Of c
  generalize String.utf8EncodeChar c = bytes at hbytes ⊢
  unfold JavaScript.octetCount
  simp only [UInt8.lt_iff_toNat_lt, UInt8.reduceToNat]
  cases hbytes with
  | one hv hb =>
      refine ⟨_, _, rfl, ?_⟩
      rw [if_pos (by omega)]
      rfl
  | two hv hb hb₁ =>
      refine ⟨_, _, rfl, ?_⟩
      rw [if_neg (by omega), if_neg (by omega), if_pos (by omega)]
      rfl
  | three hv hb hb₁ hb₂ =>
      refine ⟨_, _, rfl, ?_⟩
      rw [if_neg (by omega), if_neg (by omega), if_neg (by omega), if_pos (by omega)]
      rfl
  | four hv hb hb₁ hb₂ hb₃ =>
      refine ⟨_, _, rfl, ?_⟩
      rw [if_neg (by omega), if_neg (by omega), if_neg (by omega), if_neg (by omega),
        if_pos (by omega)]
      rfl

private theorem decodeOctets_utf8EncodeChar (c : Char) :
    JavaScript.decodeOctets (String.utf8EncodeChar c) = some c := by
  have hencode : [c].utf8Encode = (String.utf8EncodeChar c).toByteArray := by
    simp [List.utf8Encode]
  unfold JavaScript.decodeOctets
  rw [← hencode, List.utf8Decode?_utf8Encode]
  rfl

private theorem readEscapedChar_escaped (c : Char) (rest : Units) :
    JavaScript.readEscapedChar (units ((String.utf8EncodeChar c).flatMap escapeByte) ++ rest) =
      some (c, rest) := by
  obtain ⟨b, bytes, hbytes, hcount⟩ := octetCount_utf8EncodeChar c
  have hall := readEscapes_escapeByte (String.utf8EncodeChar c) rest
  have hchar := decodeOctets_utf8EncodeChar c
  rw [hbytes] at hall hchar ⊢
  have hone : JavaScript.readEscape (units ((b :: bytes).flatMap escapeByte) ++ rest) =
      some (b, units (bytes.flatMap escapeByte) ++ rest) := by
    rw [List.flatMap_cons, units_append, List.append_assoc, readEscape_escapeByte]
  rw [List.length_cons] at hall
  simp only [JavaScript.readEscapedChar, hone, hcount, hall, hchar, Option.bind_some,
    Option.map_some]

private theorem decodeURIComponent_escaped {u : UInt16} {c : Char} {s rest : Units}
    (h : JavaScript.readEscapedChar (u :: s) = some (c, rest)) (hu : u = 0x25) :
    JavaScript.decodeURIComponent (u :: s) =
      (JavaScript.decodeURIComponent rest).map (unitsOfChar c ++ ·) := by
  rw [JavaScript.decodeURIComponent, if_pos hu]
  split
  · rename_i c' rest' heq
    rw [h] at heq
    cases heq
    rfl
  · rename_i heq
    rw [h] at heq
    cases heq

theorem decodeURIComponent_encodeChar (c : Char) (rest : Units) :
    JavaScript.decodeURIComponent (units (encodeChar A c) ++ rest) =
      (JavaScript.decodeURIComponent rest).map (unitsOfChar c ++ ·) := by
  unfold encodeChar
  split
  · rename_i hkeep
    obtain ⟨hlo, hhi, hne⟩ := A.printable hkeep
    have hunits : unitsOfChar c = [UInt16.ofNat c.toNat] := unitsOfChar_of_lt (by omega)
    have hpercent : UInt16.ofNat c.toNat ≠ 0x25 := by
      intro heq
      have hval := congrArg UInt16.toNat heq
      simp only [UInt16.toNat_ofNat', UInt16.reduceToNat] at hval
      have hcode : c.toNat = ('%').toNat := by
        show c.toNat = 0x25
        omega
      exact hne (Char.toNat_inj.mp hcode)
    have hone : units [c] = [UInt16.ofNat c.toNat] := by rw [units_cons, hunits]; rfl
    rw [hone, hunits, List.singleton_append, JavaScript.decodeURIComponent, if_neg hpercent]
    simp only [List.singleton_append]
  · have hread := readEscapedChar_escaped c rest
    obtain ⟨b, bytes, hbytes, -⟩ := octetCount_utf8EncodeChar c
    obtain ⟨s, hs⟩ : ∃ s,
        units ((String.utf8EncodeChar c).flatMap escapeByte) ++ rest = 0x25 :: s := by
      have hpercent : unitsOfChar '%' = [0x25] := rfl
      simp [hbytes, units, escapeByte, hpercent]
    rw [hs] at hread ⊢
    exact decodeURIComponent_escaped hread rfl

/-- **`decodeURIComponent` gives the text back.** -/
theorem decodeURIComponent_encode (s : List Char) :
    JavaScript.decodeURIComponent (units (encode A s)) = some (units s) := by
  induction s with
  | nil => rw [show units (encode A []) = [] from rfl, JavaScript.decodeURIComponent]; rfl
  | cons c s ih =>
      rw [encode_cons, units_append, decodeURIComponent_encodeChar, ih]
      simp [units]

/-! ### Read as characters -/

private theorem unquoteToBytes_cons {c : Char} (hc : c ≠ '%') (rest : List Char) :
    Python.unquoteToBytes (c :: rest) = UInt8.ofNat c.toNat :: Python.unquoteToBytes rest := by
  match rest with
  | [] => simp [Python.unquoteToBytes]
  | [_] => simp [Python.unquoteToBytes]
  | a :: b :: rest =>
      rw [Python.unquoteToBytes]
      exact fun x y heq => absurd heq hc

private theorem unquoteToBytes_escapeByte (b : UInt8) (rest : List Char) :
    Python.unquoteToBytes (escapeByte b ++ rest) = b :: Python.unquoteToBytes rest := by
  have hdigit : ∀ n < 16, Python.hexValue (hexDigit n) = some n := by decide +kernel
  have hb := b.toNat_lt
  have hvalue : UInt8.ofNat (b.toNat / 16 * 16 + b.toNat % 16) = b := by
    rw [Nat.div_add_mod']
    exact UInt8.ofNat_toNat
  simp only [escapeByte, List.cons_append, List.nil_append, Python.unquoteToBytes,
    hdigit (b.toNat / 16) (by omega), hdigit (b.toNat % 16) (by omega), hvalue]

private theorem unquoteToBytes_escaped (bytes : Bytes) (rest : List Char) :
    Python.unquoteToBytes (bytes.flatMap escapeByte ++ rest) =
      bytes ++ Python.unquoteToBytes rest := by
  induction bytes with
  | nil => rfl
  | cons b bytes ih =>
      rw [List.flatMap_cons, List.append_assoc, unquoteToBytes_escapeByte, ih, List.cons_append]

theorem unquoteToBytes_encode (s : List Char) :
    Python.unquoteToBytes (encode A s) = utf8 s := by
  induction s with
  | nil => rfl
  | cons c s ih =>
      have hcons : utf8 (c :: s) = String.utf8EncodeChar c ++ utf8 s := by simp [utf8]
      rw [encode_cons, hcons, encodeChar]
      split
      · rename_i hkeep
        obtain ⟨-, hhi, hne⟩ := A.printable hkeep
        have hascii : String.utf8EncodeChar c = [UInt8.ofNat c.toNat] := by
          have hval : c.val.toNat = c.toNat := rfl
          have hle : c.toNat ≤ 0x7F := by omega
          simp [String.utf8EncodeChar, hval, hle]
        rw [List.singleton_append, unquoteToBytes_cons hne, ih, hascii, List.singleton_append]
      · rw [unquoteToBytes_escaped, ih]

/-- Without an escape nothing was encoded. -/
theorem encode_eq_self {s : List Char} (h : '%' ∉ encode A s) : encode A s = s := by
  induction s with
  | nil => rfl
  | cons c s ih =>
      rw [encode_cons, List.mem_append, not_or] at h
      rw [encode_cons, ih h.2]
      have hchar := h.1
      unfold encodeChar at hchar ⊢
      split at hchar
      · rename_i hkeep
        rw [if_pos hkeep, List.singleton_append]
      · obtain ⟨b, bytes, hbytes, -⟩ := octetCount_utf8EncodeChar c
        rw [hbytes] at hchar
        exact absurd (by simp [escapeByte]) hchar

/-- **So does `unquote`.** -/
theorem unquote_encode (s : List Char) : Python.unquote (encode A s) = s := by
  unfold Python.unquote
  split
  · rename_i hpercent
    have hascii : ∀ c ∈ encode A s, Python.isAscii c = true := by
      intro c hc
      obtain ⟨-, hhi⟩ := mem_encode hc
      simp only [Python.isAscii, decide_eq_true_eq]
      omega
    have hrun : (encode A s).splitBy (fun a b => Python.isAscii a = Python.isAscii b) =
        [encode A s] := by
      refine List.splitBy_of_isChain (List.ne_nil_of_mem hpercent) ?_
      refine List.Pairwise.isChain ?_
      exact List.pairwise_of_forall_mem_list fun a ha b hb => by simp [hascii a ha, hascii b hb]
    rw [hrun, List.flatMap_cons, List.flatMap_nil, List.append_nil,
      if_pos (List.all_eq_true.mpr hascii), unquoteToBytes_encode, Python.decodeReplace_utf8]
  · rename_i hpercent
    exact encode_eq_self hpercent

/-! ### Stripping what is encoded -/

section Strip

variable {p : Char → Bool} (hpercent : p '%' = false) (hdigit : ∀ n < 16, p (hexDigit n) = false)

private theorem encodeChar_of_keep {c : Char} (h : A.keep c = true) : encodeChar A c = [c] :=
  if_pos h

include hpercent in
private theorem encodeChar_eq_cons {c : Char} (h : p c = false) :
    ∃ d rest, encodeChar A c = d :: rest ∧ p d = false := by
  unfold encodeChar
  split
  · exact ⟨c, [], rfl, h⟩
  · obtain ⟨b, bytes, hbytes, -⟩ := octetCount_utf8EncodeChar c
    rw [hbytes]
    exact ⟨'%', _, rfl, hpercent⟩

include hdigit in
private theorem encodeChar_eq_concat {c : Char} (h : p c = false) :
    ∃ rest d, encodeChar A c = rest ++ [d] ∧ p d = false := by
  unfold encodeChar
  split
  · exact ⟨[], c, rfl, h⟩
  · obtain ⟨b, bytes, hbytes, -⟩ := octetCount_utf8EncodeChar c
    obtain ⟨front, last, hlast⟩ := (List.eq_nil_or_concat' (b :: bytes)).resolve_left (by simp)
    have hlt := last.toNat_lt
    rw [hbytes, hlast, List.flatMap_append, List.flatMap_singleton]
    exact ⟨front.flatMap escapeByte ++ ['%', hexDigit (last.toNat / 16)],
      hexDigit (last.toNat % 16), by simp [escapeByte], hdigit _ (by omega)⟩

include hpercent in
private theorem dropWhile_encode {s : List Char} (hkeep : ∀ c ∈ s, p c = true → A.keep c = true) :
    (encode A s).dropWhile p = encode A (s.dropWhile p) := by
  induction s with
  | nil => rfl
  | cons c s ih =>
      rw [encode_cons]
      cases hp : p c with
      | true =>
          have hself := encodeChar_of_keep (hkeep c List.mem_cons_self hp)
          have hrest := ih fun d hd => hkeep d (List.mem_cons_of_mem c hd)
          simp [hself, hp, hrest]
      | false =>
          obtain ⟨d, rest, hd, hhead⟩ := encodeChar_eq_cons (A := A) hpercent hp
          rw [List.dropWhile_cons_of_neg (by simp [hp]), encode_cons, hd]
          simp [hhead]

include hdigit in
private theorem rdropWhile_encode {s : List Char} (hkeep : ∀ c ∈ s, p c = true → A.keep c = true) :
    (encode A s).rdropWhile p = encode A (s.rdropWhile p) := by
  induction s using List.reverseRecOn with
  | nil => rfl
  | append_singleton s c ih =>
      have hlast : encode A (s ++ [c]) = encode A s ++ encodeChar A c := by simp [encode]
      cases hp : p c with
      | true =>
          have hself := encodeChar_of_keep (hkeep c (by simp) hp)
          rw [hlast, hself, List.rdropWhile_concat_pos _ _ _ hp, List.rdropWhile_concat_pos _ _ _ hp,
            ih fun d hd => hkeep d (List.mem_append_left _ hd)]
      | false =>
          obtain ⟨rest, d, hd, hend⟩ := encodeChar_eq_concat (A := A) hdigit hp
          rw [List.rdropWhile_concat_neg _ _ _ (by simp [hp]), hlast, hd, ← List.append_assoc,
            List.rdropWhile_concat_neg _ _ _ (by simp [hend])]

include hpercent hdigit in
/-- **What an encoder leaves alone is stripped before or after.** -/
theorem stripBy_encode {s : List Char} (hkeep : ∀ c ∈ s, p c = true → A.keep c = true) :
    Python.stripBy p (encode A s) = encode A (Python.stripBy p s) := by
  show ((encode A s).dropWhile p).rdropWhile p = encode A ((s.dropWhile p).rdropWhile p)
  rw [dropWhile_encode hpercent hkeep, rdropWhile_encode hdigit]
  intro c hc
  exact hkeep c ((List.dropWhile_suffix p).subset hc)

end Strip

end Percent
