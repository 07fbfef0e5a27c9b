/-
Reading JSON.

`loads` is a reader for the JSON of RFC 8259 whose numbers are integers: white space may
stand around every token, a string may spell its characters out or escape them, and two
escapes that are a surrogate pair are one character.  What `dumps` writes, it reads back.

The fuel is the number of calls that may be nested; a value needs no more of them than its
text has characters.
-/
import MailCloudflare.Base.PythonValues

namespace Python

open Unicode

/-! ### The reader -/

def isJsonSpace (c : CodePoint) : Bool :=
  c.ord = 0x20 || c.ord = 0x09 || c.ord = 0x0A || c.ord = 0x0D

def skipSpace (s : Text) : Text := s.dropWhile isJsonSpace

def hexDigitOf : CodePoint → Option Nat
  | .char c => hexValue c
  | .surrogate _ => none

/-- A code unit of four hexadecimal digits, and what is behind it. -/
def readUnit : Text → Option (Nat × Text)
  | a :: b :: c :: d :: rest => do
    let digits ← [a, b, c, d].mapM hexDigitOf
    return (digits.foldl (fun n d => n * 16 + d) 0, rest)
  | _ => none

/-- The escaped low surrogate that follows a high one. -/
def readLow : Text → Option (Nat × Text)
  | .char '\\' :: .char 'u' :: rest =>
    (readUnit rest).filter fun read => 0xDC00 ≤ read.1 ∧ read.1 < 0xE000
  | _ => none

/-- The code point of a unit that is not half of a pair. -/
def ofUnit (n : Nat) : CodePoint :=
  if 0xD800 ≤ n ∧ n < 0xE000 then .surrogate (Fin.ofNat 0x800 (n - 0xD800))
  else .char (Char.ofNat n)

/-- The escapes of one letter. -/
def ESCAPES : List (Char × Nat) :=
  [('\u0022', 0x22), ('\\', 0x5C), ('/', 0x2F), ('b', 0x08), ('f', 0x0C), ('n', 0x0A), ('r', 0x0D),
    ('t', 0x09)]

/-- What is behind `\u`. -/
def readUnicode (s : Text) : Option (CodePoint × Text) := do
  let (unit, rest) ← readUnit s
  match if 0xD800 ≤ unit ∧ unit < 0xDC00 then readLow rest else none with
  | some (low, rest) =>
    return (.char (Char.ofNat (0x10000 + (unit - 0xD800) * 0x400 + (low - 0xDC00))), rest)
  | none => return (ofUnit unit, rest)

/-- What is behind a backslash. -/
def readEscape : Text → Option (CodePoint × Text)
  | .char c :: rest =>
    if c = 'u' then readUnicode rest
    else (ESCAPES.find? fun e => e.1 = c).map fun e => (.char (Char.ofNat e.2), rest)
  | _ => none

/-- The characters of a string up to the quotation mark that ends it. -/
def readString : Nat → Text → Option (Text × Text)
  | 0, _ => none
  | _ + 1, [] => none
  | fuel + 1, c :: rest =>
    if c.ord = 0x22 then some ([], rest)
    else if c.ord = 0x5C then do
      let (escaped, rest) ← readEscape rest
      let (s, rest) ← readString fuel rest
      return (escaped :: s, rest)
    else if c.ord < 0x20 then none
    else do
      let (s, rest) ← readString fuel rest
      return (c :: s, rest)

def digitOf : CodePoint → Option Char
  | .char c => if c.isDigit then some c else none
  | .surrogate _ => none

/-- What makes a number one with a fraction or an exponent. -/
def isFractional (c : CodePoint) : Bool := c ∈ text ".eE"

/-- An integer without leading zeros. -/
def readInt (s : Text) : Option (Int × Text) :=
  let negative := s.head? = some (.char '-')
  let s := if negative then s.drop 1 else s
  let digits := (s.takeWhile fun c => (digitOf c).isSome).filterMap digitOf
  let rest := s.dropWhile fun c => (digitOf c).isSome
  if digits = [] ∨ (digits.head? = some '0' ∧ digits ≠ ['0']) ∨ rest.head?.any isFractional then
    none
  else
    let n : Int := Nat.ofDigitChars 10 digits 0
    some (if negative then -n else n, rest)

def LITERALS : List (String × Value Empty) :=
  [("null", .none), ("true", .bool true), ("false", .bool false)]

def readScalar (s : Text) : Option (Value Empty × Text) :=
  match LITERALS.find? fun literal => (text literal.1).isPrefixOf s with
  | some literal => some (literal.2, s.drop literal.1.length)
  | none => (readInt s).map fun read => (.int read.1, read.2)

mutual

def readValue : Nat → Text → Option (Value Empty × Text)
  | 0, _ => none
  | fuel + 1, s =>
    match skipSpace s with
    | [] => none
    | c :: rest =>
      if c = .char '\u0022' then (readString fuel rest).map fun read => (.str read.1, read.2)
      else if c = .char '[' then
        if (skipSpace rest).head? = some (.char ']') then some (.list [], (skipSpace rest).drop 1)
        else (readItems fuel rest).map fun read => (.list read.1, read.2)
      else if c = .char '\x7b' then
        if (skipSpace rest).head? = some (.char '\x7d') then
          some (.dict [], (skipSpace rest).drop 1)
        else (readMembers fuel rest).map fun read => (.dict read.1, read.2)
      else readScalar (c :: rest)

/-- The items of a list that has some, up to the bracket that ends it. -/
def readItems : Nat → Text → Option (List (Value Empty) × Text)
  | 0, _ => none
  | fuel + 1, s => do
    let (item, rest) ← readValue fuel s
    match skipSpace rest with
    | .char ',' :: rest =>
      let (items, rest) ← readItems fuel rest
      return (item :: items, rest)
    | .char ']' :: rest => return ([item], rest)
    | _ => none

/-- The members of an object that has some, up to the brace that ends it. -/
def readMembers : Nat → Text → Option (List (Text × Value Empty) × Text)
  | 0, _ => none
  | fuel + 1, s =>
    match skipSpace s with
    | .char '\u0022' :: rest => do
      let (name, rest) ← readString fuel rest
      match skipSpace rest with
      | .char ':' :: rest =>
        let (value, rest) ← readValue fuel rest
        match skipSpace rest with
        | .char ',' :: rest =>
          let (members, rest) ← readMembers fuel rest
          return ((name, value) :: members, rest)
        | .char '\x7d' :: rest => return ([(name, value)], rest)
        | _ => none
      | _ => none
    | _ => none

end

/-- The value a whole text stands for. -/
def loads (s : Text) : Option (Value Empty) :=
  (readValue (s.length + 1) s).bind fun read => if skipSpace read.2 = [] then some read.1 else none

/-! ### Strings, read back -/

theorem CodePoint.ord_injective {a b : CodePoint} (h : a.ord = b.ord) : a = b := by
  have hchar : ∀ (c : Char) (n : Fin 0x800), c.toNat ≠ 0xD800 + n := by
    intro c n heq
    have := char_lt c
    omega
  cases a with
  | char c =>
      cases b with
      | char d => exact congrArg CodePoint.char (Char.toNat_inj.mp h)
      | surrogate n => exact absurd h (hchar c n)
  | surrogate m =>
      cases b with
      | char d => exact absurd h.symm (hchar d m)
      | surrogate n =>
          have hval : m.val = n.val := Nat.add_left_cancel h
          exact congrArg CodePoint.surrogate (Fin.ext hval)

theorem readUnit_append {s rest : Text} {n : Nat} (h : readUnit s = some (n, [])) :
    readUnit (s ++ rest) = some (n, rest) := by
  unfold readUnit at h
  split at h
  · rename_i a b c d behind
    simp only [Option.bind_eq_bind, Option.bind_eq_some_iff] at h
    obtain ⟨digits, hdigits, hread⟩ := h
    cases hread
    simp only [List.cons_append, List.nil_append, readUnit, hdigits]
    rfl
  · cases h

theorem ofUnit_of_lt {n : Nat} (h : n < 0xD800) : ofUnit n = .char (Char.ofNat n) :=
  if_neg (by omega)

/-- A control character is escaped by its number. -/
theorem readEscape_control {n : Nat} (h : n < 0x20) (rest : Text) :
    readEscape (text "u00" ++ ofStr (hexdigest [UInt8.ofNat n]) ++ rest) =
      some (.char (Char.ofNat n), rest) := by
  have hunit : ∀ n : Fin 0x20,
      readUnit (text "00" ++ ofStr (hexdigest [UInt8.ofNat n])) = some (n.val, []) := by decide
  have hread : readUnit (text "00" ++ ofStr (hexdigest [UInt8.ofNat n]) ++ rest) = some (n, rest) :=
    readUnit_append (hunit ⟨n, h⟩)
  have hhigh : ¬ (0xD800 ≤ n ∧ n < 0xDC00) := by omega
  show readUnicode (text "00" ++ ofStr (hexdigest [UInt8.ofNat n]) ++ rest) = _
  unfold readUnicode
  rw [hread]
  simp only [Option.bind_eq_bind, Option.bind_some, if_neg hhigh]
  rw [ofUnit_of_lt (by omega)]
  rfl

theorem readEscape_letter {c : Char} {n : Nat} (hne : c ≠ 'u')
    (h : ESCAPES.find? (fun e => e.1 = c) = some (c, n)) (rest : Text) :
    readEscape (.char c :: rest) = some (.char (Char.ofNat n), rest) := by
  show (if c = 'u' then _ else _) = _
  rw [if_neg hne, h]
  rfl

/-- A character stands for itself, or is behind a backslash. -/
theorem escapeChar_cases (c : CodePoint) :
    (escapeChar c = [c] ∧ c.ord ≠ 0x22 ∧ c.ord ≠ 0x5C ∧ ¬ c.ord < 0x20) ∨
      ∃ e, escapeChar c = .char '\\' :: e ∧ ∀ rest, readEscape (e ++ rest) = some (c, rest) := by
  have hself : ∀ n, c.ord = n → n < 0x80 → c = .char (Char.ofNat n) := by
    intro n hn hlt
    refine CodePoint.ord_injective (hn.trans ?_)
    exact (toNat_charOfNat (Or.inl (by omega))).symm
  have hletter : ∀ (e : Char) (n : Nat), c.ord = n → n < 0x80 → e ≠ 'u' →
      ESCAPES.find? (fun escape => escape.1 = e) = some (e, n) →
      ∀ rest, readEscape ([.char e] ++ rest) = some (c, rest) := by
    intro e n hn hlt hne hfind rest
    rw [hself n hn hlt]
    exact readEscape_letter hne hfind rest
  unfold escapeChar
  split_ifs with hquote hbackslash hnewline hreturn htab hfeed hback hcontrol
  · exact Or.inr ⟨_, rfl, hletter '\u0022' _ hquote (by decide) (by decide) rfl⟩
  · exact Or.inr ⟨_, rfl, hletter '\\' _ hbackslash (by decide) (by decide) rfl⟩
  · exact Or.inr ⟨_, rfl, hletter 'n' _ hnewline (by decide) (by decide) rfl⟩
  · exact Or.inr ⟨_, rfl, hletter 'r' _ hreturn (by decide) (by decide) rfl⟩
  · exact Or.inr ⟨_, rfl, hletter 't' _ htab (by decide) (by decide) rfl⟩
  · exact Or.inr ⟨_, rfl, hletter 'f' _ hfeed (by decide) (by decide) rfl⟩
  · exact Or.inr ⟨_, rfl, hletter 'b' _ hback (by decide) (by decide) rfl⟩
  · refine Or.inr ⟨text "u00" ++ ofStr (hexdigest [UInt8.ofNat c.ord]), rfl, ?_⟩
    intro rest
    rw [readEscape_control hcontrol, ← hself c.ord rfl (by omega)]
  · exact Or.inl ⟨rfl, hquote, hbackslash, hcontrol⟩

theorem readString_escapeChar (fuel : Nat) (c : CodePoint) (rest : Text) :
    readString (fuel + 1) (escapeChar c ++ rest) =
      (readString fuel rest).map fun read => (c :: read.1, read.2) := by
  rcases escapeChar_cases c with ⟨hplain, hquote, hbackslash, hcontrol⟩ | ⟨e, hescape, hread⟩
  · rw [hplain, List.singleton_append, readString, if_neg hquote, if_neg hbackslash,
      if_neg hcontrol]
    cases readString fuel rest <;> rfl
  · rw [hescape, List.cons_append, readString, if_neg (by decide), if_pos (by decide), hread]
    show (do
      let (s, rest) ← readString fuel rest
      return (c :: s, rest)) = _
    cases readString fuel rest <;> rfl

theorem readString_escaped {fuel : Nat} (s rest : Text) (hfuel : s.length < fuel) :
    readString fuel (s.flatMap escapeChar ++ .char '\u0022' :: rest) = some (s, rest) := by
  induction s generalizing fuel with
  | nil =>
      obtain ⟨fuel, rfl⟩ := Nat.exists_eq_add_one_of_ne_zero (Nat.ne_of_gt hfuel)
      rw [List.flatMap_nil, List.nil_append, readString, if_pos (by decide)]
  | cons c s ih =>
      obtain ⟨fuel, rfl⟩ := Nat.exists_eq_add_one_of_ne_zero (Nat.ne_of_gt (Nat.zero_lt_of_lt hfuel))
      rw [List.flatMap_cons, List.append_assoc, readString_escapeChar,
        ih (by simpa using hfuel)]
      rfl

/-! ### Numbers, read back -/

/-- What is behind a number does not go on with it. -/
def EndsNumber (rest : Text) : Prop :=
  ∀ c ∈ rest.head?, (digitOf c).isSome = false ∧ isFractional c = false

theorem endsNumber_cons {c : CodePoint} {rest : Text}
    (h : (digitOf c).isSome = false ∧ isFractional c = false) : EndsNumber (c :: rest) := by
  rintro _ ⟨⟩
  exact h

theorem endsNumber_nil : EndsNumber [] := nofun

theorem filterMap_digitOf {digits : Str} (h : ∀ c ∈ digits, c.isDigit = true) :
    (ofStr digits).filterMap digitOf = digits := by
  induction digits with
  | nil => rfl
  | cons c rest ih =>
      have hc : digitOf (.char c) = some c := if_pos (h c (by simp))
      show List.filterMap digitOf (.char c :: ofStr rest) = _
      rw [List.filterMap_cons_some hc, ih fun d hd => h d (List.mem_cons_of_mem c hd)]

/-- A numeral has no zero in front. -/
theorem head_toDigits_ne_zero {n : Nat} (hn : n ≠ 0) : (Nat.toDigits 10 n).head? ≠ some '0' := by
  induction n using Nat.strong_induction_on with
  | _ n ih =>
      by_cases hlt : n < 10
      · rw [Nat.toDigits_of_lt_base hlt]
        have hall : ∀ n : Fin 10, n.val ≠ 0 → [Nat.digitChar n].head? ≠ some '0' := by decide
        exact hall ⟨n, hlt⟩ hn
      · have hsmaller := ih (n / 10) (by omega) (by omega)
        rw [Nat.toDigits_of_base_le (by decide) (by omega)]
        cases hdigits : Nat.toDigits 10 (n / 10) with
        | nil => exact absurd hdigits Nat.toDigits_ne_nil
        | cons d rest =>
            rw [hdigits] at hsmaller
            simpa using hsmaller

/-- The digits of a number are read to their end. -/
theorem readInt_digits (n : Nat) {rest : Text} (hrest : EndsNumber rest) :
    readInt (ofStr (Nat.toDigits 10 n) ++ rest) = some ((n : Int), rest) ∧
      readInt (.char '-' :: (ofStr (Nat.toDigits 10 n) ++ rest)) = some (-(n : Int), rest) := by
  have hdigit : ∀ c ∈ Nat.toDigits 10 n, c.isDigit = true :=
    fun c hc => Nat.isDigit_of_mem_toDigits (by decide) (by decide) hc
  have hread : ∀ c ∈ ofStr (Nat.toDigits 10 n), (digitOf c).isSome = true := by
    intro c hc
    obtain ⟨d, hd, rfl⟩ := List.mem_map.mp hc
    simp [digitOf, hdigit d hd]
  have hstop : rest.takeWhile (fun c => (digitOf c).isSome) = [] ∧
      rest.dropWhile (fun c => (digitOf c).isSome) = rest := by
    cases rest with
    | nil => exact ⟨rfl, rfl⟩
    | cons c rest => simp [(hrest c rfl).1]
  have hzeros : ¬ ((Nat.toDigits 10 n).head? = some '0' ∧ Nat.toDigits 10 n ≠ ['0']) := by
    rintro ⟨hhead, hne⟩
    by_cases hn : n = 0
    · exact hne (by rw [hn]; rfl)
    · exact head_toDigits_ne_zero hn hhead
  have hend : ¬ rest.head?.any isFractional = true := by
    cases rest with
    | nil => simp
    | cons c rest => simp [(hrest c rfl).2]
  have hcond : ¬ (Nat.toDigits 10 n = [] ∨
      ((Nat.toDigits 10 n).head? = some '0' ∧ Nat.toDigits 10 n ≠ ['0']) ∨
        rest.head?.any isFractional = true) := by
    rintro (h | h | h)
    · exact Nat.toDigits_ne_nil h
    · exact hzeros h
    · exact hend h
  have htake : (ofStr (Nat.toDigits 10 n) ++ rest).takeWhile (fun c => (digitOf c).isSome) =
      ofStr (Nat.toDigits 10 n) := by
    rw [List.takeWhile_append_of_pos hread, hstop.1, List.append_nil]
  have hdrop : (ofStr (Nat.toDigits 10 n) ++ rest).dropWhile (fun c => (digitOf c).isSome) =
      rest := by
    rw [List.dropWhile_append_of_pos hread, hstop.2]
  have hsign : (ofStr (Nat.toDigits 10 n) ++ rest).head? ≠ some (.char '-') := by
    cases hdigits : Nat.toDigits 10 n with
    | nil => exact absurd hdigits Nat.toDigits_ne_nil
    | cons d more =>
        have hd := hdigit d (by rw [hdigits]; simp)
        show some (CodePoint.char d) ≠ _
        rintro ⟨⟩
        cases hd
  constructor
  · simp only [readInt, hsign, if_false, htake, hdrop, filterMap_digitOf hdigit, hcond,
      Nat.ofDigitChars_ten_toDigits]
  · simp only [readInt, List.head?_cons, if_true, List.drop_one, List.tail_cons, htake, hdrop,
      filterMap_digitOf hdigit, hcond, if_false, Nat.ofDigitChars_ten_toDigits]

theorem readInt_decimalText (n : Int) {rest : Text} (hrest : EndsNumber rest) :
    readInt (decimalText n ++ rest) = some (n, rest) := by
  unfold decimalText
  split
  · rename_i hneg
    rw [List.cons_append, (readInt_digits _ hrest).2]
    congr
    omega
  · rename_i hnonneg
    rw [(readInt_digits _ hrest).1]
    congr
    omega

/-! ### Values, read back -/

mutual

/-- The calls it takes to read a value. -/
def cost : Value Empty → Nat
  | .str s => s.length + 2
  | .list items => 1 + costItems items
  | .dict members => 1 + costMembers members
  | _ => 1

def costItems : List (Value Empty) → Nat
  | [] => 0
  | item :: rest => 1 + cost item + costItems rest

def costMembers : List (Text × Value Empty) → Nat
  | [] => 0
  | (name, value) :: rest => name.length + 2 + cost value + costMembers rest

end

theorem skipSpace_cons {c : CodePoint} (h : isJsonSpace c = false) (rest : Text) :
    skipSpace (c :: rest) = c :: rest := by
  simp [skipSpace, h]

theorem skipSpace_space (s : Text) : skipSpace (.char ' ' :: s) = skipSpace s := rfl

theorem readValue_space (fuel : Nat) (s : Text) :
    readValue fuel (.char ' ' :: s) = readValue fuel s := by
  cases fuel with
  | zero => rfl
  | succ fuel => rw [readValue, readValue, skipSpace_space]

theorem readItems_space (fuel : Nat) (s : Text) :
    readItems fuel (.char ' ' :: s) = readItems fuel s := by
  cases fuel with
  | zero => rfl
  | succ fuel => rw [readItems, readItems, readValue_space]

theorem readMembers_space (fuel : Nat) (s : Text) :
    readMembers fuel (.char ' ' :: s) = readMembers fuel s := by
  cases fuel with
  | zero => rfl
  | succ fuel => rw [readMembers, readMembers, skipSpace_space]

/-- A character a number begins with. -/
def BeginsNumber (c : CodePoint) : Prop := c = .char '-' ∨ (digitOf c).isSome = true

theorem decimalText_head (n : Int) : ∃ c rest, decimalText n = c :: rest ∧ BeginsNumber c := by
  unfold decimalText
  split
  · exact ⟨_, _, rfl, Or.inl rfl⟩
  · cases hdigits : Nat.toDigits 10 n.natAbs with
    | nil => exact absurd hdigits Nat.toDigits_ne_nil
    | cons d rest =>
        have hd : d.isDigit = true :=
          Nat.isDigit_of_mem_toDigits (n := n.natAbs) (b := 10) (by decide) (by decide)
            (by rw [hdigits]; simp)
        exact ⟨.char d, ofStr rest, rfl, Or.inr (by simp [digitOf, hd])⟩

theorem BeginsNumber.ne {c : CodePoint} (h : BeginsNumber c) {d : Char} (hd : d.isDigit = false)
    (hne : d ≠ '-') : c ≠ .char d := by
  rintro rfl
  rcases h with h | h
  · cases h
    exact hne rfl
  · simp [digitOf, hd] at h

theorem BeginsNumber.not_space {c : CodePoint} (h : BeginsNumber c) : isJsonSpace c = false := by
  have hne : ∀ d : Char, d.isDigit = false → d ≠ '-' → c.ord ≠ d.toNat :=
    fun d hd hdash hord => h.ne hd hdash (CodePoint.ord_injective hord)
  have h₁ := hne ' ' (by decide) (by decide)
  have h₂ := hne '\t' (by decide) (by decide)
  have h₃ := hne '\n' (by decide) (by decide)
  have h₄ := hne '\r' (by decide) (by decide)
  simp only [isJsonSpace, Bool.or_eq_false_iff, decide_eq_false_iff_not]
  exact ⟨⟨⟨h₁, h₂⟩, h₃⟩, h₄⟩

/-- No value begins with white space or with the end of a list. -/
theorem dumps_head (value : Value Empty) :
    ∃ c rest, dumps value = c :: rest ∧ isJsonSpace c = false ∧ c ≠ .char ']' := by
  cases value with
  | none => exact ⟨_, _, rfl, by decide, by decide⟩
  | bool b => cases b <;> exact ⟨_, _, rfl, by decide, by decide⟩
  | int n =>
      obtain ⟨c, rest, hdumps, hc⟩ := decimalText_head n
      exact ⟨c, rest, hdumps, hc.not_space, hc.ne (by decide) (by decide)⟩
  | float x => exact x.elim
  | str s => exact ⟨_, _, rfl, by decide, by decide⟩
  | list items => exact ⟨_, _, rfl, by decide, by decide⟩
  | dict members => exact ⟨_, _, rfl, by decide, by decide⟩

theorem readScalar_decimalText (n : Int) {rest : Text} (hrest : EndsNumber rest) :
    readScalar (decimalText n ++ rest) = some (.int n, rest) := by
  obtain ⟨c, more, hdigits, hc⟩ := decimalText_head n
  have hn : CodePoint.char 'n' ≠ c := (hc.ne (by decide) (by decide)).symm
  have ht : CodePoint.char 't' ≠ c := (hc.ne (by decide) (by decide)).symm
  have hf : CodePoint.char 'f' ≠ c := (hc.ne (by decide) (by decide)).symm
  have hfind : LITERALS.find? (fun literal =>
      (text literal.1).isPrefixOf (decimalText n ++ rest)) = Option.none := by
    rw [hdigits]
    simp [LITERALS, text, ofStr, List.isPrefixOf, hn, ht, hf]
  rw [readScalar, hfind, readInt_decimalText n hrest]
  rfl

theorem readValue_scalar (fuel : Nat) {c : CodePoint} (rest : Text) (hspace : isJsonSpace c = false)
    (hquote : c ≠ .char '\u0022') (hbracket : c ≠ .char '[') (hbrace : c ≠ .char '\x7b') :
    readValue (fuel + 1) (c :: rest) = readScalar (c :: rest) := by
  rw [readValue, skipSpace_cons hspace]
  simp only [hquote, hbracket, hbrace, if_false]

theorem readString_quote {fuel : Nat} (s rest : Text) (hfuel : s.length < fuel) :
    readString fuel ((quote s).drop 1 ++ rest) = some (s, rest) := by
  have hquote : (quote s).drop 1 = s.flatMap escapeChar ++ [.char '\u0022'] := rfl
  rw [hquote, List.append_assoc]
  exact readString_escaped s rest hfuel

theorem intercalate_pair (sep a b : Text) (rest : List Text) :
    sep.intercalate (a :: b :: rest) = a ++ (sep ++ sep.intercalate (b :: rest)) := by
  simp [List.intercalate, List.intersperse]

theorem intercalate_single (sep a : Text) : sep.intercalate [a] = a := by
  simp [List.intercalate, List.intersperse]

/-- A list that has an item does not begin like one that is over. -/
theorem head_dumpsItems (item : Value Empty) (items : List (Value Empty)) (rest : Text) :
    (skipSpace ((text ", ").intercalate (dumpsItems (item :: items)) ++ rest)).head? ≠
      some (.char ']') := by
  obtain ⟨c, more, hdumps, hspace, hend⟩ := dumps_head item
  have hbegins : ∃ behind, (text ", ").intercalate (dumpsItems (item :: items)) = c :: behind := by
    show ∃ behind, (text ", ").intercalate (dumps item :: dumpsItems items) = c :: behind
    rw [hdumps]
    cases dumpsItems items with
    | nil => exact ⟨more, intercalate_single _ _⟩
    | cons next others => exact ⟨_, intercalate_pair _ _ _ _⟩
  obtain ⟨behind, hbehind⟩ := hbegins
  rw [hbehind, List.cons_append, skipSpace_cons hspace]
  simpa using hend

theorem head_dumpsMembers (name : Text) (value : Value Empty) (members : List (Text × Value Empty))
    (rest : Text) :
    (skipSpace ((text ", ").intercalate (dumpsMembers ((name, value) :: members)) ++ rest)).head? ≠
      some (.char '\x7d') := by
  have hbegins : ∃ behind, (text ", ").intercalate (dumpsMembers ((name, value) :: members)) =
      .char '\u0022' :: behind := by
    show ∃ behind, (text ", ").intercalate
      ((quote name ++ text ": " ++ dumps value) :: dumpsMembers members) = .char '\u0022' :: behind
    cases dumpsMembers members with
    | nil => exact ⟨_, intercalate_single _ _⟩
    | cons next others => exact ⟨_, intercalate_pair _ _ _ _⟩
  obtain ⟨behind, hbehind⟩ := hbegins
  rw [hbehind, List.cons_append, skipSpace_cons (by decide)]
  simp

section Items

variable {fuel : Nat} {s rest behind name : Text} {item : Value Empty} {items : List (Value Empty)}
  {members : List (Text × Value Empty)}

theorem readItems_last (h : readValue fuel s = some (item, .char ']' :: rest)) :
    readItems (fuel + 1) s = some ([item], rest) := by
  rw [readItems, h]
  rfl

theorem readItems_next (h : readValue fuel s = some (item, .char ',' :: .char ' ' :: rest))
    (hrest : readItems fuel rest = some (items, behind)) :
    readItems (fuel + 1) s = some (item :: items, behind) := by
  rw [readItems, h]
  show (readItems fuel (.char ' ' :: rest)).bind _ = _
  rw [readItems_space, hrest]
  rfl

/-- A member up to what is behind its value. -/
theorem readMembers_name (hname : name.length < fuel) (s : Text) :
    readMembers (fuel + 1) (quote name ++ text ": " ++ s) = (readValue fuel s).bind fun read =>
      match skipSpace read.2 with
      | .char ',' :: rest => (readMembers fuel rest).map fun more =>
          ((name, read.1) :: more.1, more.2)
      | .char '\x7d' :: rest => some ([(name, read.1)], rest)
      | _ => none := by
  rw [List.append_assoc]
  show readMembers (fuel + 1) (.char '\u0022' :: ((quote name).drop 1 ++ .char ':' :: .char ' ' :: s))
    = _
  rw [readMembers, skipSpace_cons (by decide)]
  simp only [readString_quote name _ hname, Option.bind_eq_bind, Option.bind_some]
  rw [skipSpace_cons (by decide)]
  simp only [readValue_space]
  congr
  funext read
  split
  · rename_i more _
    show (readMembers fuel more).bind _ = _
    cases readMembers fuel more <;> rfl
  · rfl
  · rfl

theorem readMembers_last (hname : name.length < fuel)
    (h : readValue fuel s = some (item, .char '\x7d' :: rest)) :
    readMembers (fuel + 1) (quote name ++ text ": " ++ s) = some ([(name, item)], rest) := by
  rw [readMembers_name hname, h]
  rfl

theorem readMembers_next (hname : name.length < fuel)
    (h : readValue fuel s = some (item, .char ',' :: .char ' ' :: rest))
    (hrest : readMembers fuel rest = some (members, behind)) :
    readMembers (fuel + 1) (quote name ++ text ": " ++ s) =
      some ((name, item) :: members, behind) := by
  rw [readMembers_name hname, h, Option.bind_some, skipSpace_cons (by decide)]
  simp only [readMembers_space, hrest]
  rfl

end Items

mutual

theorem readValue_dumps : ∀ (value : Value Empty) (fuel : Nat) (rest : Text), cost value ≤ fuel →
    EndsNumber rest → readValue fuel (dumps value ++ rest) = some (value, rest)
  | .none, fuel + 1, rest, _, _ => by
    show readValue (fuel + 1) (.char 'n' :: (text "ull" ++ rest)) = _
    rw [readValue_scalar fuel _ (by decide) (by decide) (by decide) (by decide)]
    rfl
  | .bool true, fuel + 1, rest, _, _ => by
    show readValue (fuel + 1) (.char 't' :: (text "rue" ++ rest)) = _
    rw [readValue_scalar fuel _ (by decide) (by decide) (by decide) (by decide)]
    rfl
  | .bool false, fuel + 1, rest, _, _ => by
    show readValue (fuel + 1) (.char 'f' :: (text "alse" ++ rest)) = _
    rw [readValue_scalar fuel _ (by decide) (by decide) (by decide) (by decide)]
    rfl
  | .int n, fuel + 1, rest, _, hrest => by
    obtain ⟨c, more, hdigits, hc⟩ := decimalText_head n
    show readValue (fuel + 1) (decimalText n ++ rest) = _
    rw [← readScalar_decimalText n hrest, hdigits]
    exact readValue_scalar fuel _ hc.not_space (hc.ne (by decide) (by decide))
      (hc.ne (by decide) (by decide)) (hc.ne (by decide) (by decide))
  | .str s, fuel + 1, rest, hfuel, _ => by
    have hlength : s.length < fuel := by
      simp only [cost] at hfuel
      omega
    show readValue (fuel + 1) (.char '\u0022' :: ((quote s).drop 1 ++ rest)) = _
    rw [readValue, skipSpace_cons (by decide)]
    simp only [if_true, readString_quote s rest hlength, Option.map_some]
  | .list [], fuel + 1, rest, _, _ => rfl
  | .list (item :: items), fuel + 1, rest, hfuel, _ => by
    have hitems : costItems (item :: items) ≤ fuel := by
      simp only [cost] at hfuel
      omega
    have hread := readItems_dumps (item :: items) fuel rest (List.cons_ne_nil _ _) hitems
    show readValue (fuel + 1) (.char '[' ::
      ((text ", ").intercalate (dumpsItems (item :: items)) ++ text "]" ++ rest)) = _
    rw [List.append_assoc, readValue, skipSpace_cons (by decide)]
    simp only [CodePoint.char.injEq, Char.reduceEq, if_false, if_true,
      head_dumpsItems item items]
    show (readItems fuel ((text ", ").intercalate (dumpsItems (item :: items)) ++
      .char ']' :: rest)).map _ = _
    rw [hread, Option.map_some]
  | .dict [], fuel + 1, rest, _, _ => rfl
  | .dict ((name, value) :: members), fuel + 1, rest, hfuel, _ => by
    have hmembers : costMembers ((name, value) :: members) ≤ fuel := by
      simp only [cost] at hfuel
      omega
    have hread := readMembers_dumps ((name, value) :: members) fuel rest (List.cons_ne_nil _ _)
      hmembers
    show readValue (fuel + 1) (.char '\x7b' ::
      ((text ", ").intercalate (dumpsMembers ((name, value) :: members)) ++ text "\x7d" ++ rest)) = _
    rw [List.append_assoc, readValue, skipSpace_cons (by decide)]
    simp only [CodePoint.char.injEq, Char.reduceEq, if_false, if_true,
      head_dumpsMembers name value members]
    show (readMembers fuel ((text ", ").intercalate (dumpsMembers ((name, value) :: members)) ++
      .char '\x7d' :: rest)).map _ = _
    rw [hread, Option.map_some]
  | .none, 0, _, hfuel, _ | .bool _, 0, _, hfuel, _ | .int _, 0, _, hfuel, _ | .str _, 0, _, hfuel, _
  | .list _, 0, _, hfuel, _ | .dict _, 0, _, hfuel, _ => by
    simp only [cost] at hfuel
    omega

theorem readItems_dumps : ∀ (items : List (Value Empty)) (fuel : Nat) (rest : Text), items ≠ [] →
    costItems items ≤ fuel →
    readItems fuel ((text ", ").intercalate (dumpsItems items) ++ .char ']' :: rest) =
      some (items, rest)
  | [], _, _, hne, _ => absurd rfl hne
  | [item], fuel + 1, rest, _, hfuel => by
    have hcost : cost item ≤ fuel := by
      simp only [costItems] at hfuel
      omega
    show readItems (fuel + 1) ((text ", ").intercalate [dumps item] ++ .char ']' :: rest) = _
    rw [intercalate_single]
    exact readItems_last (readValue_dumps item fuel _ hcost (endsNumber_cons ⟨rfl, by decide⟩))
  | item :: next :: items, fuel + 1, rest, _, hfuel => by
    have hcost : cost item ≤ fuel := by
      simp only [costItems] at hfuel
      omega
    have hrest : costItems (next :: items) ≤ fuel := by
      simp only [costItems] at hfuel ⊢
      omega
    show readItems (fuel + 1) ((text ", ").intercalate (dumps item :: dumps next ::
      dumpsItems items) ++ .char ']' :: rest) = _
    rw [intercalate_pair, List.append_assoc, List.append_assoc]
    exact readItems_next (readValue_dumps item fuel _ hcost (endsNumber_cons ⟨rfl, by decide⟩))
      (readItems_dumps (next :: items) fuel rest (List.cons_ne_nil _ _) hrest)
  | item :: items, 0, rest, _, hfuel => by
    simp only [costItems] at hfuel
    omega

theorem readMembers_dumps : ∀ (members : List (Text × Value Empty)) (fuel : Nat) (rest : Text),
    members ≠ [] → costMembers members ≤ fuel →
    readMembers fuel ((text ", ").intercalate (dumpsMembers members) ++ .char '\x7d' :: rest) =
      some (members, rest)
  | [], _, _, hne, _ => absurd rfl hne
  | [(name, value)], fuel + 1, rest, _, hfuel => by
    simp only [costMembers] at hfuel
    have hcost : cost value ≤ fuel := by omega
    have hname : name.length < fuel := by omega
    show readMembers (fuel + 1) ((text ", ").intercalate [quote name ++ text ": " ++ dumps value] ++
      .char '\x7d' :: rest) = _
    rw [intercalate_single, List.append_assoc]
    exact readMembers_last hname
      (readValue_dumps value fuel _ hcost (endsNumber_cons ⟨rfl, by decide⟩))
  | (name, value) :: (name', value') :: members, fuel + 1, rest, _, hfuel => by
    have hrest : costMembers ((name', value') :: members) ≤ fuel := by
      simp only [costMembers] at hfuel ⊢
      omega
    simp only [costMembers] at hfuel
    have hcost : cost value ≤ fuel := by omega
    have hname : name.length < fuel := by omega
    show readMembers (fuel + 1) ((text ", ").intercalate ((quote name ++ text ": " ++ dumps value) ::
      (quote name' ++ text ": " ++ dumps value') :: dumpsMembers members) ++ .char '\x7d' :: rest) = _
    rw [intercalate_pair, List.append_assoc (_ ++ _) (dumps value), List.append_assoc (_ ++ _),
      List.append_assoc (dumps value)]
    exact readMembers_next hname
      (readValue_dumps value fuel _ hcost (endsNumber_cons ⟨rfl, by decide⟩))
      (readMembers_dumps ((name', value') :: members) fuel rest (List.cons_ne_nil _ _) hrest)
  | (name, value) :: members, 0, rest, _, hfuel => by
    simp only [costMembers] at hfuel
    omega

end

/-! ### Whole texts -/

theorem length_quote (s : Text) : s.length + 2 ≤ (quote s).length := by
  have hchar : ∀ c, 1 ≤ (escapeChar c).length := by
    intro c
    rcases escapeChar_cases c with ⟨h, -⟩ | ⟨e, h, -⟩ <;> simp [h]
  have hescaped : s.length ≤ (s.flatMap escapeChar).length := by
    induction s with
    | nil => exact Nat.le_refl 0
    | cons c s ih =>
        have := hchar c
        simp only [List.flatMap_cons, List.length_append, List.length_cons]
        omega
  simp only [quote, text, ofStr, List.length_append, List.length_map]
  show s.length + 2 ≤ 1 + _ + 1
  omega

mutual

theorem cost_le_length : ∀ value : Value Empty, cost value ≤ (dumps value).length
  | .none => by decide
  | .bool true | .bool false => by decide
  | .int n => by
    obtain ⟨c, rest, hdigits, -⟩ := decimalText_head n
    show 1 ≤ (decimalText n).length
    simp [hdigits]
  | .str s => length_quote s
  | .list items => by
    have hitems := costItems_le_length items
    show 1 + costItems items ≤ (text "[" ++ _ ++ text "]").length
    simp only [List.length_append]
    show 1 + costItems items ≤ 1 + _ + 1
    omega
  | .dict members => by
    have hmembers := costMembers_le_length members
    show 1 + costMembers members ≤ (text "\x7b" ++ _ ++ text "\x7d").length
    simp only [List.length_append]
    show 1 + costMembers members ≤ 1 + _ + 1
    omega

theorem costItems_le_length : ∀ items : List (Value Empty),
    costItems items ≤ ((text ", ").intercalate (dumpsItems items)).length + 1
  | [] => Nat.zero_le _
  | [item] => by
    have hitem := cost_le_length item
    show 1 + cost item + 0 ≤ ((text ", ").intercalate [dumps item]).length + 1
    rw [intercalate_single]
    omega
  | item :: next :: items => by
    have hitem := cost_le_length item
    have hrest := costItems_le_length (next :: items)
    show 1 + cost item + costItems (next :: items) ≤
      ((text ", ").intercalate (dumps item :: dumps next :: dumpsItems items)).length + 1
    rw [intercalate_pair, List.length_append, List.length_append]
    show _ ≤ _ + (2 + ((text ", ").intercalate (dumpsItems (next :: items))).length) + 1
    omega

theorem costMembers_le_length : ∀ members : List (Text × Value Empty),
    costMembers members ≤ ((text ", ").intercalate (dumpsMembers members)).length + 1
  | [] => Nat.zero_le _
  | [(name, value)] => by
    have hname := length_quote name
    have hvalue := cost_le_length value
    show name.length + 2 + cost value + 0 ≤
      ((text ", ").intercalate [quote name ++ text ": " ++ dumps value]).length + 1
    rw [intercalate_single, List.length_append, List.length_append]
    omega
  | (name, value) :: (name', value') :: members => by
    have hname := length_quote name
    have hvalue := cost_le_length value
    have hrest := costMembers_le_length ((name', value') :: members)
    show name.length + 2 + cost value + costMembers ((name', value') :: members) ≤
      ((text ", ").intercalate ((quote name ++ text ": " ++ dumps value) ::
        (quote name' ++ text ": " ++ dumps value') :: dumpsMembers members)).length + 1
    rw [intercalate_pair, List.length_append, List.length_append, List.length_append,
      List.length_append]
    show _ ≤ _ + (2 + ((text ", ").intercalate (dumpsMembers ((name', value') :: members))).length) + 1
    omega

end

/-- **What `json.dumps` writes is read back**, whatever the value and the texts in it. -/
theorem loads_dumps (value : Value Empty) : loads (dumps value) = some value := by
  have hcost := cost_le_length value
  have hread := readValue_dumps value ((dumps value).length + 1) [] (by omega) endsNumber_nil
  rw [List.append_nil] at hread
  rw [loads, hread]
  rfl

/-! ### UTF-8 -/

/-- The value in the bytes of a JSON text; `none` when they are not UTF-8, or no JSON. -/
def readJson (body : Bytes) : Option (Value Empty) :=
  let s := decodeReplace body
  if utf8 s = body then loads (ofStr s) else none

theorem characters_cons (c : Char) (t : Text) :
    characters (.char c :: t) = (characters t).map (c :: ·) := by
  unfold characters
  rw [List.mapM_cons]
  show (Option.bind _ fun s => some (c :: s)) = _
  rw [Option.map_eq_bind]
  rfl

theorem characters_ofStr (s : Str) : characters (ofStr s) = some s := by
  induction s with
  | nil => rfl
  | cons c s ih =>
      show characters (.char c :: ofStr s) = _
      rw [characters_cons, ih, Option.map_some]

theorem ofStr_of_characters {t : Text} {s : Str} (h : characters t = some s) : t = ofStr s := by
  induction t generalizing s with
  | nil =>
      cases h
      rfl
  | cons c t ih =>
      cases c with
      | char c =>
          rw [characters_cons, Option.map_eq_some_iff] at h
          obtain ⟨more, hmore, rfl⟩ := h
          rw [ih hmore]
          rfl
      | surrogate n =>
          unfold characters at h
          rw [List.mapM_cons] at h
          cases h

/-- What is sent as UTF-8 is read as the value that was written. -/
theorem readJson_dumps {value : Value Empty} {body : Bytes}
    (h : encodeUtf8 (dumps value) = .ok body) : readJson body = some value := by
  unfold encodeUtf8 at h
  split at h
  · rename_i s hs
    cases h
    unfold readJson
    rw [decodeReplace_utf8, if_pos rfl, ← ofStr_of_characters hs, loads_dumps]
  · cases h

/-! ### Members by name -/

namespace Value

/-- `members[name]`, if there is one; of two members of one name the later is the one. -/
def member? (members : List (Text × Value F)) (name : String) : Option (Value F) :=
  (members.reverse.find? fun row => row.1 = Python.text name).map Prod.snd

theorem member?_append (a b : List (Text × Value F)) (name : String) :
    member? (a ++ b) name = (member? b name).or (member? a name) := by
  unfold member?
  rw [List.reverse_append, List.find?_append]
  cases b.reverse.find? fun row => row.1 = Python.text name <;> rfl

theorem member?_nil (name : String) : member? ([] : List (Text × Value F)) name = Option.none := rfl

theorem member?_single (key name : String) (value : Value F) :
    member? [(Python.text key, value)] name =
      if Python.text key = Python.text name then some value else Option.none := by
  unfold member?
  by_cases h : Python.text key = Python.text name <;> simp [h]

end Value

end Python
