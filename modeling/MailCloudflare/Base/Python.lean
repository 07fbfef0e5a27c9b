/-
The pieces of the Python standard library the Odoo side uses.

A `str` is a sequence of characters.  What a character is as a decimal digit and in lower
case is in the Unicode database the interpreter was built with, which changes from one
version to the next, so that part of it is a parameter.  White space has not changed, and
what the database says of ASCII is fixed.
-/
import MailCloudflare.Base.Unicode
import Mathlib.Data.Rat.Defs

namespace Python

open Unicode

abbrev Str := List Char

instance : LawfulBEq Str := inferInstanceAs (LawfulBEq (List Char))

/-- The Unicode database of the interpreter. -/
structure UnicodeData where
  /-- `Py_UNICODE_TODECIMAL`: the value of a decimal digit. -/
  decimal : Char → Option (Fin 10)
  /-- `str.lower`. -/
  lower : Str → Str
  lower_ascii : ∀ s : Str, (∀ c ∈ s, c.toNat < 0x80) → lower s = s.map Char.toLower

/-! ### White space -/

/-- `str.isspace` of one character. -/
def isSpace (c : Char) : Bool :=
  c.toNat ∈ [0x09, 0x0A, 0x0B, 0x0C, 0x0D, 0x1C, 0x1D, 0x1E, 0x1F, 0x20, 0x85, 0xA0, 0x1680, 0x2028,
    0x2029, 0x202F, 0x205F, 0x3000] || (0x2000 ≤ c.toNat && c.toNat ≤ 0x200A)

/-- `Py_ISSPACE`, white space as C has it. -/
def isAsciiSpace (c : Char) : Bool :=
  c.toNat ∈ [0x09, 0x0A, 0x0B, 0x0C, 0x0D, 0x20]

/-- A string without the characters in `p` at its ends. -/
def stripBy (p : Char → Bool) (s : Str) : Str :=
  ((s.dropWhile p).reverse.dropWhile p).reverse

def strip (s : Str) : Str := stripBy isSpace s

/-! ### `int` -/

/-- What `int` reads a character as; everything outside ASCII that it has no use for is `?`. -/
def toAscii (py : UnicodeData) (c : Char) : Char :=
  if c.toNat < 0x7F then c
  else if isSpace c then ' '
  else
    match py.decimal c with
    | some d => Nat.digitChar d
    | none => '?'

/-- `digit ("_"? digit)*`, without the underscores. -/
def readDigits : Str → Option Str
  | [] => none
  | [c] => if c.isDigit then some [c] else none
  | c :: d :: rest =>
    if c.isDigit then
      (if d = '_' then readDigits rest else readDigits (d :: rest)).map (c :: ·)
    else none

/-- The most digits `int` takes, `sys.int_info.default_max_str_digits`. -/
def MAX_STR_DIGITS : Nat := 4300

/-- The value of an unsigned numeral. -/
def readNat (s : Str) : Option Nat :=
  (readDigits s).bind fun digits =>
    if digits.length ≤ MAX_STR_DIGITS then some (Nat.ofDigitChars 10 digits 0) else none

/-- `int(s)` of a string; `none` is the ValueError. -/
def int (py : UnicodeData) (s : Str) : Option Int :=
  match stripBy isAsciiSpace (s.map (toAscii py)) with
  | '-' :: rest => (readNat rest).map fun n : Nat => -(n : Int)
  | '+' :: rest => (readNat rest).map fun n : Nat => (n : Int)
  | rest => (readNat rest).map fun n : Nat => (n : Int)

/-- `int(x)` of a number: towards zero. -/
def truncate (x : ℚ) : Int := x.num.tdiv x.den

/-! ### Text -/

def isAscii (c : Char) : Bool := c.toNat < 0x80

/-- `s.partition(sep)`, without the separator. -/
def partition (sep : Char) (s : Str) : Str × Str :=
  (s.takeWhile (· ≠ sep), (s.dropWhile (· ≠ sep)).drop 1)

/-- `bytes.hex`, two lower-case digits a byte. -/
def hexdigest (bytes : Bytes) : Str :=
  bytes.flatMap fun b => [Nat.digitChar (b.toNat / 16), Nat.digitChar (b.toNat % 16)]

/-- `hmac.compare_digest` of two strings; `none` is the TypeError on anything but ASCII. -/
def compareDigest (a b : Str) : Option Bool :=
  if (a ++ b).all isAscii then some (a = b) else none

/-! ### `bytes.decode` and `unquote` -/

/-- A UTF-8 sequence that has begun: its bits so far, and what its next byte may be. -/
structure Sequence where
  bits : Nat
  missing : Nat
  low : UInt8
  high : UInt8

/-- A byte that does not go on with a sequence: a character, or the beginning of one. -/
def beginSequence (b : UInt8) : Str × Option Sequence :=
  let n := b.toNat
  if n < 0x80 then ([Char.ofNat n], none)
  else if n < 0xC2 then ([Char.ofNat 0xFFFD], none)
  else if n < 0xE0 then ([], some ⟨n % 0x20, 1, 0x80, 0xBF⟩)
  else if n = 0xE0 then ([], some ⟨n % 0x10, 2, 0xA0, 0xBF⟩)
  else if n = 0xED then ([], some ⟨n % 0x10, 2, 0x80, 0x9F⟩)
  else if n < 0xF0 then ([], some ⟨n % 0x10, 2, 0x80, 0xBF⟩)
  else if n = 0xF0 then ([], some ⟨n % 0x08, 3, 0x90, 0xBF⟩)
  else if n < 0xF4 then ([], some ⟨n % 0x08, 3, 0x80, 0xBF⟩)
  else if n = 0xF4 then ([], some ⟨n % 0x08, 3, 0x80, 0x8F⟩)
  else ([Char.ofNat 0xFFFD], none)

/-- What one byte adds to the text, and the sequence that is then open. -/
def decodeByte (pending : Option Sequence) (b : UInt8) : Str × Option Sequence :=
  match pending with
  | none => beginSequence b
  | some q =>
    if q.low ≤ b && b ≤ q.high then
      let bits := q.bits * 0x40 + b.toNat % 0x40
      if q.missing = 1 then ([Char.ofNat bits], none)
      else ([], some ⟨bits, q.missing - 1, 0x80, 0xBF⟩)
    else
      let (text, open') := beginSequence b
      (Char.ofNat 0xFFFD :: text, open')

def decodeFrom (pending : Option Sequence) : Bytes → Str
  | [] => if pending.isSome then [Char.ofNat 0xFFFD] else []
  | b :: rest =>
    let (text, open') := decodeByte pending b
    text ++ decodeFrom open' rest

/-- `bytes.decode("utf-8", "replace")`: U+FFFD for every sequence that breaks off. -/
def decodeReplace (bytes : Bytes) : Str := decodeFrom none bytes

def hexValue (c : Char) : Option Nat :=
  if c.isDigit then some (c.toNat - 0x30)
  else if 'a' ≤ c ∧ c ≤ 'f' then some (c.toNat - 0x57)
  else if 'A' ≤ c ∧ c ≤ 'F' then some (c.toNat - 0x37)
  else none

/-- `urllib.parse.unquote_to_bytes` of ASCII text. -/
def unquoteToBytes : Str → Bytes
  | c :: a :: b :: rest =>
    match c, hexValue a, hexValue b with
    | '%', some x, some y => UInt8.ofNat (x * 16 + y) :: unquoteToBytes rest
    | _, _, _ => UInt8.ofNat c.toNat :: unquoteToBytes (a :: b :: rest)
  | c :: rest => UInt8.ofNat c.toNat :: unquoteToBytes rest
  | [] => []

/-- `urllib.parse.unquote`: the runs of ASCII characters are unquoted, the others stay. -/
def unquote (s : Str) : Str :=
  if '%' ∈ s then
    (s.splitBy fun a b => isAscii a = isAscii b).flatMap fun run =>
      if run.all isAscii then decodeReplace (unquoteToBytes run) else run
  else s

/-! ### What strips and what reads -/

theorem mem_stripBy_or {p : Char → Bool} {s : Str} {c : Char} (h : c ∈ s) :
    c ∈ stripBy p s ∨ p c = true := by
  unfold stripBy
  by_cases hp : p c = true
  · exact Or.inr hp
  · refine Or.inl ?_
    have hkeep : ∀ {t : Str}, c ∈ t → c ∈ t.dropWhile p := by
      intro t ht
      rw [← List.takeWhile_append_dropWhile (p := p) (l := t), List.mem_append] at ht
      exact ht.resolve_left fun hin => hp (List.all_eq_true.mp List.all_takeWhile c hin)
    exact List.mem_reverse.mpr (hkeep (List.mem_reverse.mpr (hkeep h)))

theorem mem_of_mem_stripBy {p : Char → Bool} {s : Str} {c : Char} (h : c ∈ stripBy p s) : c ∈ s := by
  have hsub : ∀ t : Str, t.dropWhile p <:+ t := fun t => List.dropWhile_suffix p
  exact (hsub s).subset (List.mem_reverse.mp ((hsub _).subset (List.mem_reverse.mp h)))

theorem stripBy_eq_self {p : Char → Bool} {s : Str} (h : ∀ c ∈ s, p c = false) :
    stripBy p s = s := by
  have hkeep : ∀ {t : Str}, (∀ c ∈ t, p c = false) → t.dropWhile p = t := by
    intro t ht
    cases t with
    | nil => rfl
    | cons c t => simp [ht c]
  unfold stripBy
  rw [hkeep h, hkeep (by simpa using h), List.reverse_reverse]

theorem readDigits_of_isDigit {s : Str} (hne : s ≠ []) (h : ∀ c ∈ s, c.isDigit = true) :
    readDigits s = some s := by
  induction s using readDigits.induct with
  | case1 => exact absurd rfl hne
  | case2 c hc => simp [readDigits, hc]
  | case3 c hc => exact absurd (h c (List.mem_singleton_self c)) hc
  | case4 c d rest hc _ ih =>
      have hd : d ≠ '_' := by
        rintro rfl
        exact absurd (h '_' (by simp)) (by decide)
      simp [readDigits, hc, hd, ih (by simp) fun e he => h e (List.mem_cons_of_mem _ he)]
  | case5 c d rest hc => exact absurd (h c List.mem_cons_self) hc

theorem mem_of_readDigits {s digits : Str} (h : readDigits s = some digits) {c : Char}
    (hc : c ∈ s) : c.isDigit = true ∨ c = '_' := by
  induction s using readDigits.induct generalizing digits with
  | case1 => cases hc
  | case2 d hd =>
      rw [List.mem_singleton.mp hc]
      exact Or.inl hd
  | case3 d hd => simp [readDigits, hd] at h
  | case4 d e rest hd ihrest ihcons =>
      simp only [readDigits, hd, if_true, Option.map_eq_some_iff] at h
      obtain ⟨read, hread, -⟩ := h
      rcases List.mem_cons.mp hc with rfl | hc
      · exact Or.inl hd
      · split at hread
        · rename_i he
          rcases List.mem_cons.mp hc with rfl | hc
          · exact Or.inr he
          · exact ihrest hread hc
        · exact ihcons hread hc
  | case5 d e rest hd => simp [readDigits, hd] at h

theorem isDigit_range {c : Char} (h : c.isDigit = true) : 0x30 ≤ c.toNat ∧ c.toNat ≤ 0x39 := by
  simpa [Char.isDigit, Char.le_def, UInt32.le_iff_toNat_le] using h

/-- A decimal numeral that is not too long is read as the number it stands for. -/
theorem int_toDigits (py : UnicodeData) {n : Nat}
    (hlength : (Nat.toDigits 10 n).length ≤ MAX_STR_DIGITS) :
    int py (Nat.toDigits 10 n) = some n := by
  have hdigit : ∀ c ∈ Nat.toDigits 10 n, c.isDigit = true :=
    fun c hc => Nat.isDigit_of_mem_toDigits (by decide) (by decide) hc
  have hascii : ∀ c ∈ Nat.toDigits 10 n, 0x30 ≤ c.toNat ∧ c.toNat ≤ 0x39 :=
    fun c hc => isDigit_range (hdigit c hc)
  have hmap : (Nat.toDigits 10 n).map (toAscii py) = Nat.toDigits 10 n := by
    refine (List.map_congr_left fun c hc => ?_).trans (List.map_id _)
    have hlt : c.toNat < 0x7F := by
      have := hascii c hc
      omega
    simp [toAscii, hlt]
  have hspace : ∀ c ∈ Nat.toDigits 10 n, isAsciiSpace c = false := by
    intro c hc
    have := hascii c hc
    simp [isAsciiSpace]
    omega
  have hread : readNat (Nat.toDigits 10 n) = some n := by
    rw [readNat, readDigits_of_isDigit Nat.toDigits_ne_nil hdigit, Option.bind_some,
      if_pos hlength, Nat.ofDigitChars_ten_toDigits]
  unfold int
  rw [hmap, stripBy_eq_self hspace]
  split
  · rename_i rest heq
    exact absurd (hdigit '-' (by simp [heq])) (by decide)
  · rename_i rest heq
    exact absurd (hdigit '+' (by simp [heq])) (by decide)
  · rw [hread]
    rfl

/-- What `int` reads a numeral as is made of digits, underscores, signs and white space. -/
theorem mem_of_int {py : UnicodeData} {s : Str} {n : Int} (h : int py s = some n) {c : Char}
    (hc : c ∈ s) :
    (toAscii py c).isDigit = true ∨ toAscii py c ∈ ['_', '+', '-'] ∨
      isAsciiSpace (toAscii py c) = true := by
  have hnat : ∀ {t : Str} {m : Nat} {d : Char}, readNat t = some m → d ∈ t →
      d.isDigit = true ∨ d = '_' := by
    intro t m d hread hd
    obtain ⟨digits, hdigits, -⟩ := Option.bind_eq_some_iff.mp hread
    exact mem_of_readDigits hdigits hd
  rcases mem_stripBy_or (p := isAsciiSpace) (List.mem_map_of_mem (f := toAscii py) hc) with
    hin | hspace
  · refine (?_ : (toAscii py c).isDigit = true ∨ toAscii py c ∈ ['_', '+', '-']).imp_right Or.inl
    generalize toAscii py c = d at hin ⊢
    unfold int at h
    generalize stripBy isAsciiSpace (s.map (toAscii py)) = text at h hin
    split at h
    all_goals
      obtain ⟨m, hread, -⟩ := Option.map_eq_some_iff.mp h
    · rcases List.mem_cons.mp hin with rfl | hin
      · exact Or.inr (by simp)
      · exact (hnat hread hin).imp_right (by simp +contextual)
    · rcases List.mem_cons.mp hin with rfl | hin
      · exact Or.inr (by simp)
      · exact (hnat hread hin).imp_right (by simp +contextual)
    · exact (hnat hread hin).imp_right (by simp +contextual)
  · exact Or.inr (Or.inr hspace)

/-- **No numeral has a full stop in it.** -/
theorem dot_notMem_of_int {py : UnicodeData} {s : Str} {n : Int} (h : int py s = some n) :
    '.' ∉ s := by
  intro hdot
  have hself : toAscii py '.' = '.' := rfl
  have hread := mem_of_int h hdot
  rw [hself] at hread
  revert hread
  decide

/-! ### What UTF-8 decodes to -/

private theorem beginSequence_two {b : UInt8} (hlo : 0xC2 ≤ b.toNat) (hhi : b.toNat < 0xE0) :
    beginSequence b = ([], some ⟨b.toNat % 0x20, 1, 0x80, 0xBF⟩) := by
  unfold beginSequence
  rw [if_neg (by omega), if_neg (by omega), if_pos hhi]

private theorem beginSequence_three {b : UInt8} (hlo : 0xE0 ≤ b.toNat) (hhi : b.toNat < 0xF0) :
    beginSequence b = ([], some ⟨b.toNat % 0x10, 2, if b.toNat = 0xE0 then 0xA0 else 0x80,
      if b.toNat = 0xED then 0x9F else 0xBF⟩) := by
  unfold beginSequence
  rw [if_neg (by omega), if_neg (by omega), if_neg (by omega)]
  by_cases hfirst : b.toNat = 0xE0
  · simp [hfirst]
  · by_cases hsurrogate : b.toNat = 0xED
    · simp [hsurrogate]
    · simp [hfirst, hsurrogate, hhi]

private theorem beginSequence_four {b : UInt8} (hlo : 0xF0 ≤ b.toNat) (hhi : b.toNat ≤ 0xF4) :
    beginSequence b = ([], some ⟨b.toNat % 0x08, 3, if b.toNat = 0xF0 then 0x90 else 0x80,
      if b.toNat = 0xF4 then 0x8F else 0xBF⟩) := by
  unfold beginSequence
  rw [if_neg (by omega), if_neg (by omega), if_neg (by omega), if_neg (by omega),
    if_neg (by omega), if_neg (by omega)]
  by_cases hfirst : b.toNat = 0xF0
  · simp [hfirst]
  · by_cases hlast : b.toNat = 0xF4
    · simp [hlast]
    · have hlt : b.toNat < 0xF4 := by omega
      simp [hfirst, hlast, hlt]

private theorem decodeFrom_begin {q : Sequence} {b : UInt8} (h : beginSequence b = ([], some q))
    (rest : Bytes) : decodeFrom none (b :: rest) = decodeFrom (some q) rest := by
  rw [decodeFrom, decodeByte, h]
  rfl

private theorem decodeFrom_next {q : Sequence} {b : UInt8} {rest : Bytes}
    (hlow : q.low.toNat ≤ b.toNat) (hhigh : b.toNat ≤ q.high.toNat) (hmissing : q.missing ≠ 1) :
    decodeFrom (some q) (b :: rest) =
      decodeFrom (some ⟨q.bits * 0x40 + b.toNat % 0x40, q.missing - 1, 0x80, 0xBF⟩) rest := by
  simp [decodeFrom, decodeByte, UInt8.le_iff_toNat_le, hlow, hhigh, hmissing]

private theorem decodeFrom_last {q : Sequence} {b : UInt8} {rest : Bytes}
    (hlow : q.low.toNat ≤ b.toNat) (hhigh : b.toNat ≤ q.high.toNat) (hmissing : q.missing = 1) :
    decodeFrom (some q) (b :: rest) =
      Char.ofNat (q.bits * 0x40 + b.toNat % 0x40) :: decodeFrom none rest := by
  simp [decodeFrom, decodeByte, UInt8.le_iff_toNat_le, hlow, hhigh, hmissing]

/-- A byte that goes on with a sequence. -/
private theorem continuation_range {b : UInt8} {n : Nat} (h : b.toNat = 0x80 + n % 0x40) :
    (0x80 : UInt8).toNat ≤ b.toNat ∧ b.toNat ≤ (0xBF : UInt8).toNat := by
  simp only [UInt8.reduceToNat]
  omega

/-- The bytes of one character, whatever comes behind them. -/
theorem decodeFrom_utf8EncodeChar (c : Char) (rest : Bytes) :
    decodeFrom none (String.utf8EncodeChar c ++ rest) = c :: decodeFrom none rest := by
  have hrange := char_lt c
  have hbytes := utf8Of c
  have hback : ∀ {n}, n = c.toNat → Char.ofNat n = c := by
    rintro _ rfl
    exact Char.ofNat_toNat c
  generalize String.utf8EncodeChar c = bytes at hbytes ⊢
  generalize c.toNat = v at hrange hbytes hback
  cases hbytes with
  | one hv hb => simp [decodeFrom, decodeByte, beginSequence, hb, hv, hback]
  | two hv hb hb₁ =>
      obtain ⟨hlow₁, hhigh₁⟩ := continuation_range hb₁
      rw [List.cons_append, List.singleton_append,
        decodeFrom_begin (beginSequence_two (by omega) (by omega)),
        decodeFrom_last hlow₁ hhigh₁ rfl, hback (by dsimp only; omega)]
  | three hv hb hb₁ hb₂ =>
      obtain ⟨hlow₂, hhigh₂⟩ := continuation_range hb₂
      rw [List.cons_append, List.cons_append, List.singleton_append,
        decodeFrom_begin (beginSequence_three (by omega) (by omega)),
        decodeFrom_next ?_ ?_ (by simp), decodeFrom_last hlow₂ hhigh₂ rfl,
        hback (by dsimp only; omega)]
      · -- No character is written with more bytes than it needs.
        dsimp only
        split <;> simp only [UInt8.reduceToNat] <;> omega
      · -- Nor is a surrogate written.
        dsimp only
        split <;> simp only [UInt8.reduceToNat] <;> omega
  | four hv hb hb₁ hb₂ hb₃ =>
      obtain ⟨hlow₂, hhigh₂⟩ := continuation_range hb₂
      obtain ⟨hlow₃, hhigh₃⟩ := continuation_range hb₃
      rw [List.cons_append, List.cons_append, List.cons_append, List.singleton_append,
        decodeFrom_begin (beginSequence_four (by omega) (by omega)),
        decodeFrom_next ?_ ?_ (by simp), decodeFrom_next hlow₂ hhigh₂ (by simp),
        decodeFrom_last hlow₃ hhigh₃ rfl, hback (by dsimp only; omega)]
      · dsimp only
        split <;> simp only [UInt8.reduceToNat] <;> omega
      · dsimp only
        split <;> simp only [UInt8.reduceToNat] <;> omega

/-- **What was encoded as UTF-8 is decoded to the same text.** -/
theorem decodeReplace_utf8 (s : Str) : decodeReplace (utf8 s) = s := by
  unfold decodeReplace
  induction s with
  | nil => rfl
  | cons c rest ih =>
      have hcons : utf8 (c :: rest) = String.utf8EncodeChar c ++ utf8 rest := by simp [utf8]
      rw [hcons, decodeFrom_utf8EncodeChar, ih]

/-! ### Digests -/

theorem hexdigest_injective {a b : Bytes} (h : hexdigest a = hexdigest b) : a = b := by
  induction a generalizing b with
  | nil => cases b <;> simp_all [hexdigest]
  | cons x a ih =>
      cases b with
      | nil => simp [hexdigest] at h
      | cons y b =>
          simp only [hexdigest, List.flatMap_cons, List.cons_append, List.nil_append,
            List.cons.injEq] at h
          obtain ⟨hhigh, hlow, hrest⟩ := h
          have hdigit : ∀ i < 16, ∀ j < 16, Nat.digitChar i = Nat.digitChar j → i = j := by decide
          have hx := x.toNat_lt
          have hy := y.toNat_lt
          have hdiv := hdigit _ (by omega) _ (by omega) hhigh
          have hmod := hdigit _ (by omega) _ (by omega) hlow
          have heq : x.toNat = y.toNat := by omega
          rw [UInt8.toNat_inj.mp heq, ih hrest]

theorem length_hexdigest (bytes : Bytes) : (hexdigest bytes).length = 2 * bytes.length := by
  induction bytes with
  | nil => rfl
  | cons b rest ih =>
      have hcons : hexdigest (b :: rest) =
          [Nat.digitChar (b.toNat / 16), Nat.digitChar (b.toNat % 16)] ++ hexdigest rest := by
        simp [hexdigest]
      rw [hcons, List.length_append, ih, List.length_cons]
      simp
      omega

theorem mem_hexdigest {bytes : Bytes} {c : Char} (h : c ∈ hexdigest bytes) :
    ∃ d < 16, c = Nat.digitChar d := by
  obtain ⟨b, -, hc⟩ := List.mem_flatMap.mp h
  have hb := b.toNat_lt
  simp only [List.mem_cons, List.not_mem_nil, or_false] at hc
  rcases hc with rfl | rfl
  · exact ⟨_, by omega, rfl⟩
  · exact ⟨_, by omega, rfl⟩

theorem hexdigest_ascii {bytes : Bytes} : ∀ c ∈ hexdigest bytes, c.toNat < 0x80 := by
  intro c hc
  obtain ⟨d, hd, rfl⟩ := mem_hexdigest hc
  have hlt : ∀ d < 16, (Nat.digitChar d).toNat < 0x80 := by decide
  exact hlt d hd

/-- A digest is in lower case already. -/
theorem lower_hexdigest (py : UnicodeData) (bytes : Bytes) :
    py.lower (hexdigest bytes) = hexdigest bytes := by
  rw [py.lower_ascii _ hexdigest_ascii]
  refine (List.map_congr_left fun c hc => ?_).trans (List.map_id _)
  obtain ⟨d, hd, rfl⟩ := mem_hexdigest hc
  have hlower : ∀ d < 16, (Nat.digitChar d).toLower = Nat.digitChar d := by decide
  exact hlower d hd

theorem compareDigest_hexdigest (bytes : Bytes) (s : Str) :
    (compareDigest (hexdigest bytes) s).getD false = true ↔ s = hexdigest bytes := by
  unfold compareDigest
  split
  · simp [eq_comm]
  · rename_i hascii
    refine iff_of_false (by simp) ?_
    rintro rfl
    exact hascii (by simpa [isAscii] using hexdigest_ascii)

/-- What stands before and after the first separator. -/
theorem partition_append {sep : Char} {s : Str} (h : sep ∉ s) (t : Str) :
    partition sep (s ++ sep :: t) = (s, t) := by
  have hall : ∀ c ∈ s, decide (c ≠ sep) = true := by
    intro c hc
    have hne : c ≠ sep := fun heq => h (heq ▸ hc)
    simpa using hne
  unfold partition
  rw [List.takeWhile_append_of_pos hall, List.dropWhile_append_of_pos hall]
  simp

end Python
