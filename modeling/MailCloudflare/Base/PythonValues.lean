/-
Python values that come from outside: texts that may hold surrogates, what `json` reads
and writes, and the exceptions of the built-in operations on them.

A text whose origin rules surrogates out is a `Str`.  One that a charset or a JSON escape
may have put a surrogate into is a `Text`.  The arithmetic of floats is a parameter.
-/
import MailCloudflare.Base.Python

namespace Python

open Unicode

inductive PyError
  | typeError
  | attributeError
  | keyError
  | indexError
  | lookupError
  | valueError
  | overflowError
  | unicodeEncodeError
  deriving DecidableEq, Repr

theorem exists_ok {ε α : Type} {e : Except ε α} {p : α → Bool} (h : e.toOption.any p = true) :
    ∃ a, e = .ok a ∧ p a = true := by
  cases e with
  | error error => cases h
  | ok a => exact ⟨a, rfl, h⟩

/-! ### Texts -/

/-- A code point: a character, or one of the surrogates from U+D800 on. -/
inductive CodePoint
  | char (c : Char)
  | surrogate (n : Fin 0x800)
  deriving DecidableEq

def CodePoint.ord : CodePoint → Nat
  | .char c => c.toNat
  | .surrogate n => 0xD800 + n

abbrev Text := List CodePoint

def ofStr (s : Str) : Text := s.map .char

/-- A literal of the source. -/
def text (s : String) : Text := ofStr s.toList

/-- A number, as `str` and an f-string write it. -/
def decimalText (n : Int) : Text :=
  if n < 0 then .char '-' :: ofStr (Nat.toDigits 10 n.natAbs) else ofStr (Nat.toDigits 10 n.natAbs)

/-- `not s.strip()`. -/
def isBlank (s : Text) : Bool :=
  s.all fun
    | .char c => isSpace c
    | .surrogate _ => false

/-- The characters of a text that has no surrogate. -/
def characters (s : Text) : Option Str :=
  s.mapM fun
    | .char c => some c
    | .surrogate _ => none

/-- `s.encode("utf-8")`. -/
def encodeUtf8 (s : Text) : Except PyError Bytes :=
  match characters s with
  | some chars => .ok (utf8 chars)
  | none => .error .unicodeEncodeError

/--
`s.lower()`, with `run` read since the last surrogate.  A surrogate is no letter, and what
stands around a letter decides its lower case only up to the next one.
-/
def lowerFrom (py : UnicodeData) (run : Str) : Text → Text
  | [] => ofStr (py.lower run)
  | .char c :: rest => lowerFrom py (run ++ [c]) rest
  | .surrogate n :: rest => ofStr (py.lower run) ++ .surrogate n :: lowerFrom py [] rest

def lower (py : UnicodeData) (s : Text) : Text := lowerFrom py [] s

theorem lowerFrom_ofStr (py : UnicodeData) (run s : Str) :
    lowerFrom py run (ofStr s) = ofStr (py.lower (run ++ s)) := by
  induction s generalizing run with
  | nil =>
      rw [List.append_nil]
      rfl
  | cons c s ih =>
      show lowerFrom py (run ++ [c]) (ofStr s) = _
      rw [ih, List.append_assoc]
      rfl

theorem lower_ofStr (py : UnicodeData) (s : Str) : lower py (ofStr s) = ofStr (py.lower s) :=
  lowerFrom_ofStr py [] s

/-- The order of texts, by code points. -/
def textLe : Text → Text → Bool
  | [], _ => true
  | _ :: _, [] => false
  | a :: s, b :: t => a.ord < b.ord || (a.ord = b.ord && textLe s t)

/-! ### Decoded JSON -/

/-- The arithmetic of floats. -/
structure Floats (F : Type) where
  isZero : F → Bool
  add : F → F → F
  /-- `float(n)`; `none` is the OverflowError. -/
  ofInt : Int → Option F

inductive Value (F : Type)
  | none
  | bool (b : Bool)
  | int (n : Int)
  | float (x : F)
  | str (s : Text)
  | list (items : List (Value F))
  | dict (members : List (Text × Value F))

variable {F : Type}

namespace Value

/-- `bool(value)`. -/
def truthy (floats : Floats F) : Value F → Bool
  | .none => false
  | .bool b => b
  | .int n => n ≠ 0
  | .float x => !floats.isZero x
  | .str s => !s.isEmpty
  | .list items => !items.isEmpty
  | .dict members => !members.isEmpty

/-- `value or other`. -/
def orElse (floats : Floats F) (value other : Value F) : Value F :=
  if value.truthy floats then value else other

/-- `members.get(name)`; of two members of one name the later is the one. -/
def member (members : List (Text × Value F)) (name : String) : Value F :=
  ((members.reverse.find? fun row => row.1 = text name).map Prod.snd).getD .none

/-- `iter(value)`. -/
def iterate : Value F → Except PyError (List (Value F))
  | .str s => .ok (s.map fun c => .str [c])
  | .list items => .ok items
  | .dict members => .ok (members.map fun row => .str row.1)
  | _ => .error .typeError

/-- `value[0]`; the keys of a dictionary are texts. -/
def first : Value F → Except PyError (Value F)
  | .str (c :: _) => .ok (.str [c])
  | .list (item :: _) => .ok item
  | .str [] | .list [] => .error .indexError
  | .dict _ => .error .keyError
  | _ => .error .typeError

/-- `value.get(name)`. -/
def get (name : String) : Value F → Except PyError (Value F)
  | .dict members => .ok (member members name)
  | _ => .error .attributeError

/-- `value.lower()`. -/
def lowered (py : UnicodeData) : Value F → Except PyError Text
  | .str s => .ok (lower py s)
  | _ => .error .attributeError

/-- What a value is in arithmetic; `True` is 1. -/
def number : Value F → Option (Int ⊕ F)
  | .bool b => some (.inl (if b then 1 else 0))
  | .int n => some (.inl n)
  | .float x => some (.inr x)
  | _ => Option.none

/-- `float(n)`. -/
def toFloat (floats : Floats F) : Int ⊕ F → Except PyError F
  | .inl n => (floats.ofInt n).elim (.error .overflowError) .ok
  | .inr x => .ok x

/-- `a + b` of numbers: of integers exactly, otherwise of floats. -/
def addNumbers (floats : Floats F) : Int ⊕ F → Int ⊕ F → Except PyError (Value F)
  | .inl m, .inl n => .ok (.int (m + n))
  | a, b => do
    let x ← toFloat floats a
    let y ← toFloat floats b
    return .float (floats.add x y)

/-- `a + b`. -/
def add (floats : Floats F) (a b : Value F) : Except PyError (Value F) :=
  match a, b with
  | .list x, .list y => .ok (.list (x ++ y))
  | .str s, .str t => .ok (.str (s ++ t))
  | _, _ =>
    match a.number, b.number with
    | some m, some n => addNumbers floats m n
    | _, _ => .error .typeError

/-- `str(value)`, where `repr` writes everything but a text. -/
def toText (repr : Value F → Text) : Value F → Text
  | .str s => s
  | value => repr value

/-! What has a lower case, and what can be added -/

def IsText (value : Value F) : Prop := ∃ s, value = .str s

theorem mapM_lowered_texts (py : UnicodeData) (texts : List Text) :
    (texts.map (Value.str (F := F))).mapM (lowered py) = .ok (texts.map (lower py)) := by
  induction texts with
  | nil => rfl
  | cons s rest ih =>
      rw [List.map_cons, List.mapM_cons, ih]
      rfl

theorem exists_texts {items : List (Value F)} (h : ∀ item ∈ items, item.IsText) :
    ∃ texts : List Text, items = texts.map .str := by
  induction items with
  | nil => exact ⟨[], rfl⟩
  | cons item rest ih =>
      obtain ⟨⟨s, rfl⟩, hrest⟩ := List.forall_mem_cons.mp h
      obtain ⟨texts, rfl⟩ := ih hrest
      exact ⟨s :: texts, rfl⟩

theorem isText_of_mapM_lowered {py : UnicodeData} {items : List (Value F)} {texts : List Text}
    (h : items.mapM (lowered py) = .ok texts) : ∀ item ∈ items, item.IsText := by
  induction items generalizing texts with
  | nil => exact List.forall_mem_nil _
  | cons item rest ih =>
      rw [List.mapM_cons] at h
      cases item with
      | str s =>
          cases hrest : rest.mapM (lowered py) with
          | error e =>
              rw [hrest] at h
              cases h
          | ok found => exact List.forall_mem_cons.mpr ⟨⟨s, rfl⟩, ih hrest⟩
      | _ => cases h

/-- The number can be made a float. -/
def FitsFloat (floats : Floats F) : Int ⊕ F → Prop
  | .inl n => (floats.ofInt n).isSome = true
  | .inr _ => True

/-- Two lists, two texts, or two numbers that are integers or fit a float. -/
def Addable (floats : Floats F) (a b : Value F) : Prop :=
  (∃ x y, a = .list x ∧ b = .list y) ∨ (∃ s t, a = .str s ∧ b = .str t) ∨
    ∃ m n, a.number = some m ∧ b.number = some n ∧
      ((∃ i j, m = .inl i ∧ n = .inl j) ∨ FitsFloat floats m ∧ FitsFloat floats n)

theorem toFloat_isOk_iff {floats : Floats F} {m : Int ⊕ F} :
    (∃ x, toFloat floats m = .ok x) ↔ FitsFloat floats m := by
  cases m with
  | inl n =>
      show (∃ x, (floats.ofInt n).elim (Except.error PyError.overflowError) Except.ok = .ok x) ↔
        (floats.ofInt n).isSome = true
      cases floats.ofInt n with
      | none => simp
      | some x => simp
  | inr x => exact iff_of_true ⟨x, rfl⟩ trivial

theorem addNumbers_isOk_iff {floats : Floats F} {m n : Int ⊕ F} :
    (∃ value, addNumbers floats m n = .ok value) ↔
      (∃ i j, m = .inl i ∧ n = .inl j) ∨ FitsFloat floats m ∧ FitsFloat floats n := by
  have hfloats : ∀ a b : Int ⊕ F,
      (∃ value, (do
        let x ← toFloat floats a
        let y ← toFloat floats b
        return Value.float (floats.add x y)) = Except.ok value) ↔
        FitsFloat floats a ∧ FitsFloat floats b := by
    intro a b
    rw [← toFloat_isOk_iff, ← toFloat_isOk_iff]
    cases toFloat floats a with
    | error e => exact iff_of_false (fun ⟨_, h⟩ => nomatch h) fun ⟨⟨_, h⟩, _⟩ => nomatch h
    | ok x =>
        cases toFloat floats b with
        | error e => exact iff_of_false (fun ⟨_, h⟩ => nomatch h) fun ⟨_, _, h⟩ => nomatch h
        | ok y => exact iff_of_true ⟨_, rfl⟩ ⟨⟨x, rfl⟩, y, rfl⟩
  cases m with
  | inl i =>
      cases n with
      | inl j => exact iff_of_true ⟨_, rfl⟩ (Or.inl ⟨i, j, rfl, rfl⟩)
      | inr y => exact (hfloats _ _).trans (by simp)
  | inr x => exact (hfloats _ _).trans (by simp)

theorem add_isOk_iff {floats : Floats F} {a b : Value F} :
    (∃ value, add floats a b = .ok value) ↔ Addable floats a b := by
  have hnumbers : ∀ {a b : Value F}, (∀ x y, ¬ (a = .list x ∧ b = .list y)) →
      (∀ s t, ¬ (a = .str s ∧ b = .str t)) →
      ((∃ value, (match a.number, b.number with
        | some m, some n => addNumbers floats m n
        | _, _ => Except.error PyError.typeError) = .ok value) ↔ Addable floats a b) := by
    intro a b hlists hstrs
    unfold Addable
    rw [or_iff_right fun ⟨x, y, h⟩ => hlists x y h, or_iff_right fun ⟨s, t, h⟩ => hstrs s t h]
    cases a.number with
    | none => simp
    | some m =>
        cases b.number with
        | none => simp
        | some n => simpa using addNumbers_isOk_iff
  unfold add
  split
  · exact iff_of_true ⟨_, rfl⟩ (Or.inl ⟨_, _, rfl, rfl⟩)
  · exact iff_of_true ⟨_, rfl⟩ (Or.inr (Or.inl ⟨_, _, rfl, rfl⟩))
  · rename_i hlists hstrs
    exact hnumbers (fun x y h => hlists x y h.1 h.2) fun s t h => hstrs s t h.1 h.2

end Value

/-! ### `json.dumps` -/

/-- One character of a string, `ensure_ascii` being off. -/
def escapeChar (c : CodePoint) : Text :=
  if c.ord = 0x22 then text "\\\""
  else if c.ord = 0x5C then text "\\\\"
  else if c.ord = 0x0A then text "\\n"
  else if c.ord = 0x0D then text "\\r"
  else if c.ord = 0x09 then text "\\t"
  else if c.ord = 0x0C then text "\\f"
  else if c.ord = 0x08 then text "\\b"
  else if c.ord < 0x20 then text "\\u00" ++ ofStr (hexdigest [UInt8.ofNat c.ord])
  else [c]

def quote (s : Text) : Text := text "\"" ++ s.flatMap escapeChar ++ text "\""

mutual

/-- `json.dumps(value, ensure_ascii=False)` of a value without floats. -/
def dumps : Value Empty → Text
  | .none => text "null"
  | .bool b => text (if b then "true" else "false")
  | .int n => decimalText n
  | .str s => quote s
  | .list items => text "[" ++ (text ", ").intercalate (dumpsItems items) ++ text "]"
  | .dict members => text "\x7b" ++ (text ", ").intercalate (dumpsMembers members) ++ text "\x7d"

def dumpsItems : List (Value Empty) → List Text
  | [] => []
  | item :: rest => dumps item :: dumpsItems rest

def dumpsMembers : List (Text × Value Empty) → List Text
  | [] => []
  | (name, value) :: rest => (quote name ++ text ": " ++ dumps value) :: dumpsMembers rest

end

end Python
