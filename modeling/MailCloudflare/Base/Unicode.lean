/-
Text as code points, as UTF-16 code units and as UTF-8 bytes.

Two languages meet in a message: one keeps a string as UTF-16 code units and lets a
surrogate stand alone, the other keeps it as code points.  `units` and `codePoints`
translate between the two, `utf8` is the byte form both sides put on the wire, and
`textEncode` is what an encoder that starts from code units does, which replaces a
surrogate standing alone by U+FFFD; `toWellFormed` is the string that is left when it is
read back.

The facts proved are the ones a program that crosses this boundary leans on: nothing is
lost on the way to code units and back, a slice of code units never has more code points
than it has units, and UTF-8 is injective.
-/
import Mathlib.Data.List.Basic
import Mathlib.Data.List.Induction
import Mathlib.Tactic.Common

namespace Unicode

/-- A string as a sequence of UTF-16 code units, surrogates in pairs or not. -/
abbrev Units := List UInt16

/-- A string as a sequence of bytes. -/
abbrev Bytes := List UInt8

def isHigh (u : UInt16) : Bool := 0xD800 ≤ u && u ≤ 0xDBFF

def isLow (u : UInt16) : Bool := 0xDC00 ≤ u && u ≤ 0xDFFF

/-- The code point a surrogate pair stands for. -/
def pairValue (u v : UInt16) : Nat :=
  0x10000 + (u.toNat - 0xD800) * 0x400 + (v.toNat - 0xDC00)

/-- The code points of a string; a surrogate standing alone is one of its own. -/
def codePoints : Units → List Nat
  | [] => []
  | [u] => [u.toNat]
  | u :: v :: rest =>
    if isHigh u && isLow v then pairValue u v :: codePoints rest
    else u.toNat :: codePoints (v :: rest)

/-- The code units of one character. -/
def unitsOfChar (c : Char) : Units :=
  if c.toNat < 0x10000 then [UInt16.ofNat c.toNat]
  else
    [UInt16.ofNat (0xD800 + (c.toNat - 0x10000) / 0x400),
      UInt16.ofNat (0xDC00 + (c.toNat - 0x10000) % 0x400)]

/-- The code units of a well-formed string. -/
def units (s : List Char) : Units :=
  s.flatMap unitsOfChar

theorem units_cons (c : Char) (s : List Char) : units (c :: s) = unitsOfChar c ++ units s :=
  List.flatMap_cons

theorem unitsOfChar_of_lt {c : Char} (h : c.toNat < 0x10000) :
    unitsOfChar c = [UInt16.ofNat c.toNat] :=
  if_pos h

/-- A code point as a character, U+FFFD when it is a surrogate. -/
def scalarOf (n : Nat) : Char :=
  if n.isValidChar then Char.ofNat n else Char.ofNat 0xFFFD

/-- The UTF-8 bytes of a well-formed string. -/
def utf8 (s : List Char) : Bytes :=
  s.flatMap String.utf8EncodeChar

/-- The UTF-8 bytes of a string of code units. -/
def textEncode (s : Units) : Bytes :=
  utf8 ((codePoints s).map scalarOf)

/-! ### Counting code points -/

/-- A string has at most as many code points as code units. -/
theorem length_codePoints_le (s : Units) : (codePoints s).length ≤ s.length := by
  induction s using codePoints.induct with
  | case1 => simp [codePoints]
  | case2 u => simp [codePoints]
  | case3 u v rest hpair ih =>
      simp only [codePoints, hpair, if_true, List.length_cons]
      omega
  | case4 u v rest hpair ih =>
      simp only [codePoints, hpair, List.length_cons] at ih ⊢
      simpa using ih

/-! ### To code units and back -/

private theorem toNat_ofNat_lt {n : Nat} (h : n < 0x10000) : (UInt16.ofNat n).toNat = n := by
  simp only [UInt16.toNat_ofNat']
  omega

/-- A character is not a surrogate. -/
theorem char_lt (c : Char) : c.toNat < 0xD800 ∨ 0xE000 ≤ c.toNat ∧ c.toNat < 0x110000 := by
  rcases c.valid with h | ⟨h₁, h₂⟩
  · exact Or.inl h
  · exact Or.inr ⟨h₁, h₂⟩

private theorem isHigh_iff (u : UInt16) : isHigh u = true ↔ 0xD800 ≤ u.toNat ∧ u.toNat ≤ 0xDBFF := by
  simp [isHigh, UInt16.le_iff_toNat_le]

private theorem isLow_iff (u : UInt16) : isLow u = true ↔ 0xDC00 ≤ u.toNat ∧ u.toNat ≤ 0xDFFF := by
  simp [isLow, UInt16.le_iff_toNat_le]

theorem codePoints_cons_of_not_high {u : UInt16} (h : isHigh u = false) (rest : Units) :
    codePoints (u :: rest) = u.toNat :: codePoints rest := by
  cases rest with
  | nil => rfl
  | cons v rest => simp [codePoints, h]

theorem codePoints_pair {u v : UInt16} (hu : isHigh u = true) (hv : isLow v = true) (rest : Units) :
    codePoints (u :: v :: rest) = pairValue u v :: codePoints rest := by
  simp [codePoints, hu, hv]

theorem codePoints_unitsOfChar_append (c : Char) (rest : Units) :
    codePoints (unitsOfChar c ++ rest) = c.toNat :: codePoints rest := by
  unfold unitsOfChar
  split
  · rename_i hlt
    have hval : (UInt16.ofNat c.toNat).toNat = c.toNat := toNat_ofNat_lt hlt
    have hhigh : isHigh (UInt16.ofNat c.toNat) = false := by
      rw [Bool.eq_false_iff]
      intro h
      rw [isHigh_iff, hval] at h
      rcases char_lt c with hc | hc <;> omega
    rw [List.singleton_append, codePoints_cons_of_not_high hhigh, hval]
  · rename_i hge
    have hc : c.toNat < 0x110000 := by rcases char_lt c with hc | hc <;> omega
    generalize hhi : UInt16.ofNat (0xD800 + (c.toNat - 0x10000) / 0x400) = u
    generalize hlo : UInt16.ofNat (0xDC00 + (c.toNat - 0x10000) % 0x400) = v
    have hu : u.toNat = 0xD800 + (c.toNat - 0x10000) / 0x400 := by
      rw [← hhi]
      exact toNat_ofNat_lt (by omega)
    have hv : v.toNat = 0xDC00 + (c.toNat - 0x10000) % 0x400 := by
      rw [← hlo]
      exact toNat_ofNat_lt (by omega)
    have hhigh : isHigh u = true := (isHigh_iff u).mpr ⟨by omega, by omega⟩
    have hlow : isLow v = true := (isLow_iff v).mpr ⟨by omega, by omega⟩
    have hval : pairValue u v = c.toNat := by
      have hdiv := Nat.div_add_mod (c.toNat - 0x10000) 0x400
      unfold pairValue
      omega
    rw [List.cons_append, List.singleton_append, codePoints_pair hhigh hlow, hval]

/-- **Reading the code units of a well-formed string gives its code points back.** -/
theorem codePoints_units (s : List Char) : codePoints (units s) = s.map Char.toNat := by
  induction s with
  | nil => rfl
  | cons c rest ih =>
      rw [units_cons, codePoints_unitsOfChar_append, ih, List.map_cons]

theorem toNat_charOfNat {n : Nat} (h : n.isValidChar) : (Char.ofNat n).toNat = n := by
  unfold Char.ofNat
  rw [dif_pos h]
  rfl

theorem scalarOf_toNat (c : Char) : scalarOf c.toNat = c := by
  have hvalid : c.toNat.isValidChar := c.valid
  rw [scalarOf, if_pos hvalid, Char.ofNat_toNat]

private theorem map_scalarOf (s : List Char) : (s.map Char.toNat).map scalarOf = s := by
  rw [List.map_map]
  exact (List.map_congr_left fun c _ => scalarOf_toNat c).trans (List.map_id s)

/-- Both sides put the same bytes on the wire for a well-formed string. -/
theorem textEncode_units (s : List Char) : textEncode (units s) = utf8 s := by
  unfold textEncode
  rw [codePoints_units, map_scalarOf]

/-- The characters of a string, U+FFFD for a surrogate standing alone. -/
def charactersOf (s : Units) : List Char :=
  (codePoints s).map scalarOf

theorem charactersOf_units (s : List Char) : charactersOf (units s) = s := by
  rw [charactersOf, codePoints_units, map_scalarOf]

theorem units_append (s t : List Char) : units (s ++ t) = units s ++ units t := by
  simp [units]

/-! ### Replacing what stands alone -/

/-- The string with U+FFFD for every surrogate that stands alone. -/
def toWellFormed (s : Units) : Units :=
  units (charactersOf s)

theorem toWellFormed_units (s : List Char) : toWellFormed (units s) = units s := by
  rw [toWellFormed, charactersOf_units]

theorem length_unitsOfChar_le (c : Char) : (unitsOfChar c).length ≤ 2 := by
  unfold unitsOfChar
  split <;> simp

/-- A code point of one unit is replaced by one of one unit. -/
theorem scalarOf_lt {n : Nat} (h : n < 0x10000) : (scalarOf n).toNat < 0x10000 := by
  unfold scalarOf
  split
  · rename_i hvalid
    rw [toNat_charOfNat hvalid]
    exact h
  · decide

/-- Nothing grows by being replaced. -/
theorem length_toWellFormed_le (s : Units) : (toWellFormed s).length ≤ s.length := by
  unfold toWellFormed charactersOf
  induction s using codePoints.induct with
  | case1 => simp [codePoints, units]
  | case2 u =>
      have hlt : (scalarOf u.toNat).toNat < 0x10000 := scalarOf_lt u.toNat_lt
      simp [codePoints, units, unitsOfChar_of_lt hlt]
  | case3 u v rest hpair ih =>
      have htwo := length_unitsOfChar_le (scalarOf (pairValue u v))
      simp only [codePoints, hpair, if_true, List.map_cons, units_cons, List.length_append,
        List.length_cons]
      omega
  | case4 u v rest hpair ih =>
      have hlt : (scalarOf u.toNat).toNat < 0x10000 := scalarOf_lt u.toNat_lt
      simp only [codePoints, hpair, List.length_cons] at ih ⊢
      simp only [Bool.false_eq_true, if_false, List.map_cons, units_cons,
        unitsOfChar_of_lt hlt, List.singleton_append, List.length_cons]
      omega

/-- A cut has left the first half of a pair. -/
example : toWellFormed [0x41, 0xD83D] = [0x41, 0xFFFD] := by decide

/-! ### Well-formed strings -/

/-- No surrogate of the string stands alone. -/
def WellFormed (s : Units) : Prop := ∃ t : List Char, s = units t

/-- One half of a pair. -/
def isSurrogate (u : UInt16) : Bool := isHigh u || isLow u

theorem unitsOfChar_cases (c : Char) :
    (∃ u, unitsOfChar c = [u]) ∨
      ∃ u v, unitsOfChar c = [u, v] ∧ isHigh u = true ∧ isLow v = true := by
  unfold unitsOfChar
  split
  · exact Or.inl ⟨_, rfl⟩
  · have hc := char_lt c
    refine Or.inr ⟨_, _, rfl, (isHigh_iff _).mpr ?_, (isLow_iff _).mpr ?_⟩
    · rw [toNat_ofNat_lt (by omega)]
      omega
    · rw [toNat_ofNat_lt (by omega)]
      omega

/-- A well-formed string can be cut at a unit that is no surrogate. -/
theorem WellFormed.cut {a b : Units} {u : UInt16} (hu : isSurrogate u = false)
    (h : WellFormed (a ++ u :: b)) : WellFormed a ∧ WellFormed b := by
  obtain ⟨hhigh, hlow⟩ := Bool.or_eq_false_iff.mp hu
  obtain ⟨t, ht⟩ := h
  induction t generalizing a with
  | nil =>
      rw [units, List.flatMap_nil] at ht
      exact absurd ht (List.append_ne_nil_of_right_ne_nil a (List.cons_ne_nil u b))
  | cons c t ih =>
      rw [units_cons] at ht
      rcases unitsOfChar_cases c with ⟨v, hc⟩ | ⟨v, w, hc, hv, hw⟩
      · rw [hc] at ht
        match a with
        | [] =>
            obtain ⟨-, hb⟩ := List.cons.inj ht
            exact ⟨⟨[], rfl⟩, ⟨t, hb⟩⟩
        | v' :: a =>
            obtain ⟨hv', hrest⟩ := List.cons.inj ht
            obtain ⟨⟨t₁, ht₁⟩, hb⟩ := ih hrest
            exact ⟨⟨c :: t₁, by rw [units_cons, hc, hv', ht₁]; rfl⟩, hb⟩
      · rw [hc] at ht
        match a with
        | [] =>
            obtain ⟨hsame, -⟩ := List.cons.inj ht
            rw [hsame, hv] at hhigh
            cases hhigh
        | [_] =>
            obtain ⟨hsame, -⟩ := List.cons.inj (List.cons.inj ht).2
            rw [hsame, hw] at hlow
            cases hlow
        | v' :: w' :: a =>
            obtain ⟨hv', hmore⟩ := List.cons.inj ht
            obtain ⟨hw', hrest⟩ := List.cons.inj hmore
            obtain ⟨⟨t₁, ht₁⟩, hb⟩ := ih hrest
            exact ⟨⟨c :: t₁, by rw [units_cons, hc, hv', hw', ht₁]; rfl⟩, hb⟩

/-- What is left when units that are no surrogates are dropped from the front. -/
theorem WellFormed.dropWhile {p : UInt16 → Bool} (hp : ∀ u, p u = true → isSurrogate u = false)
    {s : Units} (h : WellFormed s) : WellFormed (s.dropWhile p) := by
  induction s with
  | nil => exact h
  | cons u rest ih =>
      by_cases hpu : p u = true
      · rw [List.dropWhile_cons_of_pos hpu]
        exact ih (h.cut (a := []) (hp u hpu)).2
      · rwa [List.dropWhile_cons_of_neg hpu]

/-- What is in front of the first unit of a kind that has no surrogates. -/
theorem WellFormed.takeWhile_not {p : UInt16 → Bool}
    (hp : ∀ u, p u = true → isSurrogate u = false) {s : Units} (h : WellFormed s) :
    WellFormed (s.takeWhile fun u => !p u) := by
  cases hrest : s.dropWhile fun u => !p u with
  | nil =>
      have hall : s.takeWhile (fun u => !p u) = s := by
        have hsplit := List.takeWhile_append_dropWhile (p := fun u => !p u) (l := s)
        rwa [hrest, List.append_nil] at hsplit
      rwa [hall]
  | cons u rest =>
      have hpu : p u = true := by
        have hne : s.dropWhile (fun u => !p u) ≠ [] := by simp [hrest]
        have hhead := List.head_dropWhile_not (fun u => !p u) hne
        simpa [hrest] using hhead
      have hsplit := List.takeWhile_append_dropWhile (p := fun u => !p u) (l := s)
      rw [hrest] at hsplit
      rw [← hsplit] at h
      exact (h.cut (hp u hpu)).1

/-- What is left when units that are no surrogates are dropped from the end. -/
theorem WellFormed.dropWhile_reverse {p : UInt16 → Bool}
    (hp : ∀ u, p u = true → isSurrogate u = false) {s : Units} (h : WellFormed s) :
    WellFormed (s.reverse.dropWhile p).reverse := by
  induction s using List.reverseRecOn with
  | nil => exact h
  | append_singleton rest u ih =>
      rw [List.reverse_append, List.reverse_singleton, List.singleton_append]
      by_cases hpu : p u = true
      · rw [List.dropWhile_cons_of_pos hpu]
        exact ih (h.cut (hp u hpu)).1
      · rw [List.dropWhile_cons_of_neg hpu, List.reverse_cons, List.reverse_reverse]
        exact h

/-! ### A well-formed string before and behind code units -/

private theorem unitsOfChar_cons (c : Char) :
    ∃ u rest, unitsOfChar c = u :: rest ∧ isLow u = false := by
  unfold unitsOfChar
  split
  · rename_i hlt
    refine ⟨_, _, rfl, ?_⟩
    rw [Bool.eq_false_iff]
    intro hlow
    rw [isLow_iff, toNat_ofNat_lt hlt] at hlow
    rcases char_lt c with hc | hc <;> omega
  · refine ⟨_, _, rfl, ?_⟩
    rw [Bool.eq_false_iff]
    intro hlow
    have hc := char_lt c
    rw [isLow_iff, toNat_ofNat_lt (by omega)] at hlow
    omega

/-- What comes behind a string does not change its code points when it begins with a character. -/
theorem codePoints_append_unitsOfChar (s : Units) (c : Char) (rest : Units) :
    codePoints (s ++ (unitsOfChar c ++ rest)) = codePoints s ++ c.toNat :: codePoints rest := by
  induction s using codePoints.induct with
  | case1 => rw [List.nil_append, codePoints_unitsOfChar_append, codePoints, List.nil_append]
  | case2 u =>
      obtain ⟨v, tail, hunits, hlow⟩ := unitsOfChar_cons c
      have hnext := codePoints_unitsOfChar_append c rest
      rw [hunits] at hnext ⊢
      rw [List.cons_append] at hnext
      simp [codePoints, hlow, hnext]
  | case3 u v tail hpair ih => simpa [codePoints, hpair] using ih
  | case4 u v tail hpair ih => simpa [codePoints, hpair] using ih

theorem codePoints_append_units (s : Units) (t : List Char) :
    codePoints (s ++ units t) = codePoints s ++ t.map Char.toNat := by
  cases t with
  | nil => simp [units]
  | cons c t =>
      rw [units_cons, codePoints_append_unitsOfChar, codePoints_units, List.map_cons]

theorem codePoints_units_append (s : List Char) (t : Units) :
    codePoints (units s ++ t) = s.map Char.toNat ++ codePoints t := by
  induction s with
  | nil => rfl
  | cons c s ih =>
      rw [units_cons, List.append_assoc, codePoints_unitsOfChar_append, ih, List.map_cons,
        List.cons_append]

theorem textEncode_append_units (s : Units) (t : List Char) :
    textEncode (s ++ units t) = textEncode s ++ utf8 t := by
  unfold textEncode
  rw [codePoints_append_units, List.map_append, map_scalarOf]
  simp [utf8]

/-- A well-formed string between two others keeps them apart. -/
theorem textEncode_append_units_append (s : Units) {t : List Char} (ht : t ≠ []) (rest : Units) :
    textEncode (s ++ (units t ++ rest)) = textEncode s ++ (utf8 t ++ textEncode rest) := by
  obtain ⟨c, t, rfl⟩ := List.exists_cons_of_ne_nil ht
  unfold textEncode
  rw [units_cons, List.append_assoc, codePoints_append_unitsOfChar, codePoints_units_append,
    ← List.cons_append, ← List.map_cons, List.map_append, List.map_append, map_scalarOf]
  simp [utf8]

theorem textEncode_units_append (s : List Char) (t : Units) :
    textEncode (units s ++ t) = utf8 s ++ textEncode t := by
  unfold textEncode
  rw [codePoints_units_append, List.map_append, map_scalarOf]
  simp [utf8]

/-! ### UTF-8 takes strings apart -/

theorem utf8_append (s t : List Char) : utf8 (s ++ t) = utf8 s ++ utf8 t := by
  simp [utf8]

/-- **UTF-8 is injective.** -/
theorem utf8_injective {s t : List Char} (h : utf8 s = utf8 t) : s = t := by
  have hencode : s.utf8Encode = t.utf8Encode := congrArg List.toByteArray h
  have hdecode := congrArg ByteArray.utf8Decode? hencode
  rw [List.utf8Decode?_utf8Encode, List.utf8Decode?_utf8Encode, Option.some.injEq] at hdecode
  simpa using congrArg Array.toList hdecode

/-- **Well-formed strings that have the same bytes are the same.** -/
theorem WellFormed.textEncode_inj {s t : Units} (hs : WellFormed s) (ht : WellFormed t) :
    textEncode s = textEncode t ↔ s = t := by
  obtain ⟨x, rfl⟩ := hs
  obtain ⟨y, rfl⟩ := ht
  rw [textEncode_units, textEncode_units]
  constructor
  · intro h
    rw [utf8_injective h]
  · intro h
    rw [← textEncode_units, ← textEncode_units, h]

/-- The bytes of a code point, in the four lengths they come in. -/
inductive Utf8Of (v : Nat) : Bytes → Prop
  | one {b : UInt8} (hv : v < 0x80) (hb : b.toNat = v) : Utf8Of v [b]
  | two {b b₁ : UInt8} (hv : 0x80 ≤ v ∧ v < 0x800) (hb : b.toNat = 0xC0 + v / 0x40)
      (hb₁ : b₁.toNat = 0x80 + v % 0x40) : Utf8Of v [b, b₁]
  | three {b b₁ b₂ : UInt8} (hv : 0x800 ≤ v ∧ v < 0x10000) (hb : b.toNat = 0xE0 + v / 0x1000)
      (hb₁ : b₁.toNat = 0x80 + v / 0x40 % 0x40) (hb₂ : b₂.toNat = 0x80 + v % 0x40) :
      Utf8Of v [b, b₁, b₂]
  | four {b b₁ b₂ b₃ : UInt8} (hv : 0x10000 ≤ v ∧ v < 0x110000)
      (hb : b.toNat = 0xF0 + v / 0x40000) (hb₁ : b₁.toNat = 0x80 + v / 0x1000 % 0x40)
      (hb₂ : b₂.toNat = 0x80 + v / 0x40 % 0x40) (hb₃ : b₃.toNat = 0x80 + v % 0x40) :
      Utf8Of v [b, b₁, b₂, b₃]

theorem utf8Of (c : Char) : Utf8Of c.toNat (String.utf8EncodeChar c) := by
  have hval : c.val.toNat = c.toNat := rfl
  have hrange := char_lt c
  have hbyte : ∀ {n m : Nat}, n % 256 = m → (UInt8.ofNat n).toNat = m := by
    intro n m h
    rwa [UInt8.toNat_ofNat']
  unfold String.utf8EncodeChar
  simp only [hval]
  generalize c.toNat = v at hrange
  split
  · exact .one (by omega) (hbyte (by omega))
  · split
    · exact .two (by omega) (hbyte (by omega)) (hbyte (by omega))
    · split
      · exact .three (by omega) (hbyte (by omega)) (hbyte (by omega)) (hbyte (by omega))
      · exact .four (by omega) (hbyte (by omega)) (hbyte (by omega)) (hbyte (by omega))
          (hbyte (by omega))

/-- A byte below 0x80 is a character of its own. -/
theorem mem_utf8EncodeChar_ascii {c : Char} {b : UInt8} (hb : b ∈ String.utf8EncodeChar c)
    (hascii : b.toNat < 0x80) : c.toNat = b.toNat := by
  have hbytes := utf8Of c
  generalize String.utf8EncodeChar c = bytes at hb hbytes
  cases hbytes <;> simp only [List.mem_cons, List.not_mem_nil, or_false] at hb
  case one hv h =>
    rw [hb, h]
  case two hv h h₁ =>
    rcases hb with rfl | rfl <;> omega
  case three hv h h₁ h₂ =>
    rcases hb with rfl | rfl | rfl <;> omega
  case four hv h h₁ h₂ h₃ =>
    rcases hb with rfl | rfl | rfl | rfl <;> omega

theorem mem_of_mem_utf8 {s : List Char} {b : UInt8} (hb : b ∈ utf8 s) (hascii : b.toNat < 0x80) :
    ∃ c ∈ s, c.toNat = b.toNat := by
  obtain ⟨c, hc, hmem⟩ := List.mem_flatMap.mp hb
  exact ⟨c, hc, mem_utf8EncodeChar_ascii hmem hascii⟩

/-- A byte below 0x80 is a code point of its own. -/
theorem mem_of_mem_textEncode {s : Units} {b : UInt8} (hb : b ∈ textEncode s)
    (hascii : b.toNat < 0x80) : b.toNat ∈ codePoints s := by
  obtain ⟨c, hc, hval⟩ := mem_of_mem_utf8 hb hascii
  obtain ⟨n, hn, rfl⟩ := List.mem_map.mp hc
  unfold scalarOf at hval
  split at hval
  · rename_i hvalid
    rwa [← hval, toNat_charOfNat hvalid]
  · have hreplacement : (Char.ofNat 0xFFFD).toNat = 0xFFFD := rfl
    omega

/-- A list is cut at the first occurrence of an element in one way only. -/
theorem separated_inj {α : Type*} {sep : α} {x y u v : List α} (hx : sep ∉ x) (hy : sep ∉ y)
    (h : x ++ sep :: u = y ++ sep :: v) : x = y ∧ u = v := by
  induction x generalizing y with
  | nil =>
      cases y with
      | nil => simpa using h
      | cons b y => exact absurd (List.cons.inj h).1 fun heq => hy (heq ▸ List.mem_cons_self)
  | cons a x ih =>
      cases y with
      | nil => exact absurd (List.cons.inj h).1 fun heq => hx (heq ▸ List.mem_cons_self)
      | cons b y =>
          rw [List.cons_append, List.cons_append, List.cons.injEq] at h
          obtain ⟨rfl, hrest⟩ := h
          have hcut := ih (fun hin => hx (List.mem_cons_of_mem _ hin))
            (fun hin => hy (List.mem_cons_of_mem _ hin)) hrest
          exact ⟨by rw [hcut.1], hcut.2⟩

/--
**A text ends at the first separator.**  When two texts that do not contain the ASCII
character `sep` are followed by it and by arbitrary bytes, the same bytes come from the
same text and the same rest.
-/
theorem utf8_separated {sep : Char} (hsep : sep.toNat < 0x80) {s t : List Char} {x y : Bytes}
    (hs : sep ∉ s) (ht : sep ∉ t) (h : utf8 (s ++ [sep]) ++ x = utf8 (t ++ [sep]) ++ y) :
    s = t ∧ x = y := by
  obtain ⟨b, hb, hval⟩ : ∃ b : UInt8, utf8 [sep] = [b] ∧ b.toNat = sep.toNat := by
    have hval : sep.val.toNat = sep.toNat := rfl
    refine ⟨sep.toNat.toUInt8, ?_, ?_⟩
    · have hle : sep.toNat ≤ 0x7F := by omega
      simp [utf8, String.utf8EncodeChar, hle, hval]
    · simp only [Nat.toUInt8, UInt8.toNat_ofNat']
      omega
  have hnot : ∀ {r : List Char}, sep ∉ r → b ∉ utf8 r := by
    intro r hr hmem
    obtain ⟨c, hc, heq⟩ := mem_of_mem_utf8 hmem (by omega)
    have hsame : c = sep := Char.toNat_inj.mp (heq.trans hval)
    exact hr (hsame ▸ hc)
  rw [utf8_append, utf8_append, hb, List.append_assoc, List.append_assoc, List.singleton_append,
    List.singleton_append] at h
  obtain ⟨hst, hxy⟩ := separated_inj (hnot hs) (hnot ht) h
  exact ⟨utf8_injective hst, hxy⟩

end Unicode
