/-
The pieces of the JavaScript standard library the Worker's text handling uses.

Strings are sequences of UTF-16 code units, as the language has them: `trim`, `slice`
and regular expressions without the `u` flag work on units, not on characters.
`JSON.parse` itself is not modelled; `Json` is the type of what it returns.
-/
import MailCloudflare.Base.Unicode
import Mathlib.Data.Rat.Defs

namespace JavaScript

open Unicode

/-- The code units of a literal. -/
def js (s : String) : Units :=
  units s.toList

/-! ### Strings -/

/-- White space and line terminators, what `trim` removes. -/
def isSpace (u : UInt16) : Bool :=
  u ∈ [0x09, 0x0A, 0x0B, 0x0C, 0x0D, 0x20, 0xA0, 0x1680, 0x2028, 0x2029, 0x202F, 0x205F, 0x3000,
    0xFEFF] || (0x2000 ≤ u && u ≤ 0x200A)

def trim (s : Units) : Units :=
  ((s.dropWhile isSpace).reverse.dropWhile isSpace).reverse

/-- Nothing is trimmed off a string that neither begins nor ends with white space. -/
theorem trim_eq_self {s : Units} (hfirst : ∀ u ∈ s.head?, isSpace u = false)
    (hlast : ∀ u ∈ s.getLast?, isSpace u = false) : trim s = s := by
  have hstays : ∀ t : Units, (∀ u ∈ t.head?, isSpace u = false) → t.dropWhile isSpace = t := by
    intro t ht
    cases t with
    | nil => rfl
    | cons u t => exact List.dropWhile_cons_of_neg (by simp [ht u rfl])
  rw [trim, hstays s hfirst, hstays s.reverse (by rwa [List.head?_reverse]), List.reverse_reverse]

/-- White space is no half of a pair. -/
theorem isSurrogate_of_isSpace {u : UInt16} (h : isSpace u = true) : isSurrogate u = false := by
  unfold isSpace at h
  rw [Bool.or_eq_true] at h
  rcases h with hin | hrange
  · have hall : ([0x09, 0x0A, 0x0B, 0x0C, 0x0D, 0x20, 0xA0, 0x1680, 0x2028, 0x2029, 0x202F, 0x205F,
        0x3000, 0xFEFF] : List UInt16).all (fun u => !isSurrogate u) = true := by decide
    have hu := List.all_eq_true.mp hall u (of_decide_eq_true hin)
    simpa using hu
  · rw [Bool.and_eq_true, decide_eq_true_eq, decide_eq_true_eq, UInt16.le_iff_toNat_le,
      UInt16.le_iff_toNat_le] at hrange
    have hlow : u.toNat ≤ 0x200A := hrange.2
    unfold isSurrogate isHigh isLow
    simp only [UInt16.le_iff_toNat_le, Bool.or_eq_false_iff, Bool.and_eq_false_iff,
      decide_eq_false_iff_not]
    refine ⟨Or.inl ?_, Or.inl ?_⟩
    · show ¬ 0xD800 ≤ u.toNat
      omega
    · show ¬ 0xDC00 ≤ u.toNat
      omega

theorem wellFormed_trim {s : Units} (h : WellFormed s) : WellFormed (trim s) :=
  (h.dropWhile fun _ => isSurrogate_of_isSpace).dropWhile_reverse fun _ => isSurrogate_of_isSpace

/-- `text.split(/\r?\n/, 1)[0]`. -/
def firstLine : Units → Units
  | [] => []
  | [u] => if u = 0x0A then [] else [u]
  | u :: v :: rest =>
    if u = 0x0A then []
    else if u = 0x0D && v = 0x0A then []
    else u :: firstLine (v :: rest)

/-! ### Numbers -/

/-- The largest integer up to which a number is exact. -/
def MAX_SAFE_INTEGER : Nat := 9007199254740991

/-- A match of `^\d+$`. -/
def isDigits (s : Units) : Bool := s ≠ [] && s.all fun u => 0x30 ≤ u && u ≤ 0x39

/-- The number a text of decimal digits writes. -/
def digitsValue (s : Units) : Nat := s.foldl (fun n u => n * 10 + (u.toNat - 0x30)) 0

/--
`Number` of a text of decimal digits, when it is a safe integer.  From 2^53 on it is
rounded, and never to a safe integer.
-/
def safeInteger (s : Units) : Option Nat :=
  if digitsValue s ≤ MAX_SAFE_INTEGER then some (digitsValue s) else none

/-! ### URI encoding -/

private def upperHexDigit (n : Nat) : UInt16 :=
  UInt16.ofNat (if n < 10 then 0x30 + n else 0x41 + (n - 10))

/-- `%XX`. -/
def percentByte (b : UInt8) : Units :=
  [0x25, upperHexDigit (b.toNat / 16), upperHexDigit (b.toNat % 16)]

/-- `A-Z a-z 0-9 - _ . ! ~ * ' ( )`, what `encodeURIComponent` leaves alone. -/
def isUnreserved (n : Nat) : Bool :=
  (0x41 ≤ n && n ≤ 0x5A) || (0x61 ≤ n && n ≤ 0x7A) || (0x30 ≤ n && n ≤ 0x39) ||
    n ∈ [0x2D, 0x5F, 0x2E, 0x21, 0x7E, 0x2A, 0x27, 0x28, 0x29]

/-- `none` is the URIError a surrogate standing alone raises. -/
def encodeURIComponent (s : Units) : Option Units :=
  ((codePoints s).mapM fun n =>
    if isUnreserved n then some (unitsOfChar (Char.ofNat n))
    else if 0xD800 ≤ n && n ≤ 0xDFFF then none
    else some ((String.utf8EncodeChar (Char.ofNat n)).flatMap percentByte)).map List.flatten

/-- The value of a hexadecimal digit. -/
def hexDigitValue (u : UInt16) : Option Nat :=
  if 0x30 ≤ u && u ≤ 0x39 then some (u.toNat - 0x30)
  else if 0x41 ≤ u && u ≤ 0x46 then some (u.toNat - 0x37)
  else if 0x61 ≤ u && u ≤ 0x66 then some (u.toNat - 0x57)
  else none

/-- The octet a string that begins with `%XX` stands for, and what comes behind it. -/
def readEscape : Units → Option (UInt8 × Units)
  | u :: high :: low :: rest =>
    if u = 0x25 then
      (hexDigitValue high).bind fun h => (hexDigitValue low).map fun l =>
        (UInt8.ofNat (h * 16 + l), rest)
    else none
  | _ => none

def readEscapes : Nat → Units → Option (Bytes × Units)
  | 0, s => some ([], s)
  | n + 1, s =>
    (readEscape s).bind fun (octet, rest) => (readEscapes n rest).map fun (octets, rest) =>
      (octet :: octets, rest)

/-- How many octets a character has whose first one this is. -/
def octetCount (b : UInt8) : Option Nat :=
  if b < 0x80 then some 1
  else if b < 0xC0 then none
  else if b < 0xE0 then some 2
  else if b < 0xF0 then some 3
  else if b < 0xF8 then some 4
  else none

/-- The one character these octets are the UTF-8 form of. -/
def decodeOctets (octets : Bytes) : Option Char :=
  match octets.toByteArray.utf8Decode? with
  | some #[c] => some c
  | _ => none

/-- The character the escapes at the beginning of a string stand for. -/
def readEscapedChar (s : Units) : Option (Char × Units) :=
  (readEscape s).bind fun (octet, _) => (octetCount octet).bind fun n =>
    (readEscapes n s).bind fun (octets, rest) => (decodeOctets octets).map fun c => (c, rest)

private theorem readEscape_length {s rest : Units} {b : UInt8} (h : readEscape s = some (b, rest)) :
    rest.length < s.length := by
  match s with
  | [] | [_] | [_, _] => cases h
  | u :: high :: low :: tail =>
      simp only [readEscape] at h
      split at h
      · simp only [Option.bind_eq_some_iff, Option.map_eq_some_iff, Prod.mk.injEq] at h
        obtain ⟨-, -, -, -, -, rfl⟩ := h
        simp only [List.length_cons]
        omega
      · cases h

private theorem readEscapes_length {n : Nat} {s rest : Units} {octets : Bytes}
    (h : readEscapes n s = some (octets, rest)) : rest.length + n ≤ s.length := by
  induction n generalizing s octets with
  | zero =>
      simp only [readEscapes, Option.some.injEq, Prod.mk.injEq] at h
      simp [h.2]
  | succ n ih =>
      simp only [readEscapes, Option.bind_eq_some_iff, Option.map_eq_some_iff, Prod.mk.injEq] at h
      obtain ⟨⟨octet, tail⟩, hone, ⟨more, last⟩, hmore, -, rfl⟩ := h
      have hlt := readEscape_length hone
      have hle := ih hmore
      dsimp only at hlt hle ⊢
      omega

private theorem readEscapedChar_length {s rest : Units} {c : Char}
    (h : readEscapedChar s = some (c, rest)) : rest.length < s.length := by
  simp only [readEscapedChar, Option.bind_eq_some_iff, Option.map_eq_some_iff, Prod.mk.injEq] at h
  obtain ⟨⟨octet, tail⟩, hone, n, hn, ⟨octets, last⟩, hall, d, hd, -, rfl⟩ := h
  have hpos : 0 < n := by
    unfold octetCount at hn
    split at hn
    · cases hn
      decide
    · split at hn
      · cases hn
      · split at hn
        · cases hn
          decide
        · split at hn
          · cases hn
            decide
          · split at hn <;> cases hn
            decide
  have hle := readEscapes_length hall
  dsimp only at hle ⊢
  omega

/-- `none` is the URIError. -/
def decodeURIComponent : Units → Option Units
  | [] => some []
  | u :: rest =>
    if u = 0x25 then
      match _h : readEscapedChar (u :: rest) with
      | some (c, rest') => (decodeURIComponent rest').map (unitsOfChar c ++ ·)
      | none => none
    else (decodeURIComponent rest).map (u :: ·)
termination_by s => s.length
decreasing_by
  · exact readEscapedChar_length _h
  · simp

/-! ### JSON -/

/-- What `JSON.parse` returns. -/
inductive Json
  | null
  | bool (b : Bool)
  | num (n : ℚ)
  | str (s : Units)
  | arr (items : List Json)
  | obj (fields : List (Units × Json))

/-- A property of an object; the last of several members with one name counts. -/
def Json.field? (value : Json) (name : Units) : Option Json :=
  match value with
  | .obj fields => (fields.reverse.find? fun f => f.1 = name).map (·.2)
  | _ => none

end JavaScript
