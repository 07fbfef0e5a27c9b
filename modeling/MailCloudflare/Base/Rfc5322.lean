/-
The header block of a message, read in two ways.

`fields` is the strict reading: lines end with CRLF, and a line that begins with a space or
a tab goes on with the field before it.  `fieldNames` is the lenient one: lines end with
LF or CRLF, and what is asked is only which names stand at the beginning of a line.  In
both, the block is what stands before the first empty line, and what stands behind the last
line end is a line too.
-/
import MailCloudflare.Base.Unicode

namespace Rfc5322

open Unicode

abbrev CR : UInt8 := 0x0D
abbrev LF : UInt8 := 0x0A
abbrev SPACE : UInt8 := 0x20
abbrev TAB : UInt8 := 0x09
abbrev COLON : UInt8 := 0x3A

/-! ### Fields -/

structure HeaderField where
  name : Bytes
  value : Bytes
  deriving DecidableEq

/-- The lines of a text, each ended by CRLF. -/
def crlfLines : Bytes → List Bytes
  | 0x0D :: 0x0A :: rest => [] :: crlfLines rest
  | b :: rest => (crlfLines rest).modifyHead (b :: ·)
  | [] => [[]]

/-- The text begins with a space or a tab. -/
def isContinuation (text : Bytes) : Bool :=
  text.head? = some SPACE || text.head? = some TAB

/-- The line before and the lines behind it, each with the lines that continue it. -/
def unfoldFrom (line : Bytes) : List Bytes → List Bytes
  | [] => [line]
  | next :: rest =>
    if isContinuation next then unfoldFrom (line ++ next) rest else line :: unfoldFrom next rest

def unfoldLines : List Bytes → List Bytes
  | [] => []
  | line :: rest => unfoldFrom line rest

/-- What stands before the colon, and what stands behind it and the space after it. -/
def parseField (line : Bytes) : HeaderField where
  name := line.takeWhile (· ≠ COLON)
  value :=
    match (line.dropWhile (· ≠ COLON)).drop 1 with
    | 0x20 :: value => value
    | value => value

/-- The fields of the header block at the top of a text. -/
def fields (text : Bytes) : List HeaderField :=
  (unfoldLines ((crlfLines text).takeWhile (· ≠ []))).map parseField

theorem crlfLines_ne_nil (text : Bytes) : crlfLines text ≠ [] := by
  induction text using crlfLines.induct with
  | case1 rest ih => simp [crlfLines]
  | case2 b rest hcrlf ih => simpa [crlfLines] using ih
  | case3 => simp [crlfLines]

theorem crlfLines_line {line : Bytes} (h : CR ∉ line) (rest : Bytes) :
    crlfLines (line ++ CR :: LF :: rest) = line :: crlfLines rest := by
  induction line with
  | nil => rfl
  | cons b line ih =>
      rw [List.mem_cons, not_or] at h
      rw [List.cons_append, crlfLines, ih h.2]
      · rfl
      · rintro tail rfl
        exact absurd rfl h.1

/-- The first line of a text begins as the text does. -/
theorem isContinuation_crlfLines (text : Bytes) :
    ∃ line rest, crlfLines text = line :: rest ∧ isContinuation line = isContinuation text := by
  cases text with
  | nil => exact ⟨[], [], rfl, rfl⟩
  | cons b text =>
      unfold crlfLines
      split
      · rename_i tail heq
        obtain ⟨rfl, rfl⟩ := List.cons.inj heq
        exact ⟨[], _, rfl, rfl⟩
      · rename_i heq
        obtain ⟨rfl, rfl⟩ := List.cons.inj heq
        obtain ⟨line, rest, hlines⟩ := List.exists_cons_of_ne_nil (crlfLines_ne_nil text)
        rw [hlines]
        exact ⟨b :: line, rest, rfl, rfl⟩
      · rename_i heq
        cases heq

/-- A line takes up all the lines that continue it. -/
theorem unfoldFrom_eq (line : Bytes) (rest : List Bytes) :
    unfoldFrom line rest =
      (line ++ (rest.takeWhile isContinuation).flatten) ::
        unfoldLines (rest.dropWhile isContinuation) := by
  induction rest generalizing line with
  | nil => simp [unfoldFrom, unfoldLines]
  | cons next rest ih =>
      unfold unfoldFrom
      split
      · rename_i hnext
        rw [ih]
        simp [hnext]
      · rename_i hnext
        simp [hnext, unfoldLines]

theorem takeWhile_colon {name : Bytes} (h : COLON ∉ name) (rest : Bytes) :
    (name ++ COLON :: rest).takeWhile (· ≠ COLON) = name := by
  have hall : ∀ b ∈ name, decide (b ≠ COLON) = true := by
    intro b hb
    have hne : b ≠ COLON := fun heq => h (heq ▸ hb)
    simpa using hne
  rw [List.takeWhile_append_of_pos hall]
  simp

private theorem dropWhile_colon {name : Bytes} (h : COLON ∉ name) (rest : Bytes) :
    (name ++ COLON :: rest).dropWhile (· ≠ COLON) = COLON :: rest := by
  have happend := List.takeWhile_append_dropWhile (p := (· ≠ COLON)) (l := name ++ COLON :: rest)
  rw [takeWhile_colon h] at happend
  exact List.append_cancel_left happend

theorem parseField_append {name : Bytes} (h : COLON ∉ name) (value : Bytes) :
    parseField (name ++ COLON :: SPACE :: value) = ⟨name, value⟩ := by
  unfold parseField
  rw [takeWhile_colon h, dropWhile_colon h]
  rfl

/-! ### Writing a field -/

/-- `name: value`, ended by CRLF. -/
def HeaderField.render (f : HeaderField) : Bytes :=
  f.name ++ COLON :: SPACE :: f.value ++ [CR, LF]

/-- Printable ASCII. -/
def isPrintable (b : UInt8) : Bool := 0x21 ≤ b && b ≤ 0x7E

/-- The name is one, and the value does not end the line. -/
structure HeaderField.Writable (f : HeaderField) : Prop where
  name_ne : f.name ≠ []
  colon : COLON ∉ f.name
  printable : f.name.all isPrintable = true
  cr : CR ∉ f.value
  lf : LF ∉ f.value

/-- The lines of the header block at the top of a text. -/
private def blockLines (text : Bytes) : List Bytes :=
  (crlfLines text).takeWhile (· ≠ [])

private theorem isContinuation_blockLines {text : Bytes} (h : isContinuation text = true) :
    ∃ line rest, blockLines text = line :: rest ∧ isContinuation line = true ∧ line ≠ [] := by
  obtain ⟨line, rest, hlines, hsame⟩ := isContinuation_crlfLines text
  rw [h] at hsame
  have hne : line ≠ [] := by
    rintro rfl
    cases hsame
  exact ⟨line, rest.takeWhile (· ≠ []), by simp [blockLines, hlines, hne], hsame, hne⟩

private theorem takeWhile_blockLines {text : Bytes} (h : isContinuation text = false) :
    (blockLines text).takeWhile isContinuation = [] := by
  obtain ⟨line, rest, hlines, hsame⟩ := isContinuation_crlfLines text
  rw [h] at hsame
  by_cases hne : line = [] <;> simp [blockLines, hlines, hne, hsame]

variable {f : HeaderField}

private theorem HeaderField.Writable.notMem_line (h : f.Writable) {b : UInt8}
    (hname : isPrintable b = false) (hsep : b ≠ COLON ∧ b ≠ SPACE) (hvalue : b ∉ f.value) :
    b ∉ f.name ++ COLON :: SPACE :: f.value := by
  intro hmem
  rcases List.mem_append.mp hmem with hin | hin
  · rw [List.all_eq_true.mp h.printable b hin] at hname
    cases hname
  · simp [hsep, hvalue] at hin

private theorem fields_render_append (h : f.Writable) (rest : Bytes) :
    fields (f.render ++ rest) =
      ⟨f.name, f.value ++ ((blockLines rest).takeWhile isContinuation).flatten⟩ ::
        (unfoldLines ((blockLines rest).dropWhile isContinuation)).map parseField := by
  have hline := h.notMem_line (b := CR) (by decide) (by decide) h.cr
  have hne : f.name ++ COLON :: SPACE :: f.value ≠ [] := by simp
  have hlines : crlfLines (f.render ++ rest) =
      (f.name ++ COLON :: SPACE :: f.value) :: crlfLines rest := by
    rw [← crlfLines_line hline]
    simp [HeaderField.render]
  have htake : (crlfLines (f.render ++ rest)).takeWhile (· ≠ []) =
      (f.name ++ COLON :: SPACE :: f.value) :: blockLines rest := by
    rw [hlines]
    simp [blockLines]
  rw [fields, htake, unfoldLines, unfoldFrom_eq, List.map_cons, List.append_assoc,
    List.cons_append, List.cons_append, parseField_append h.colon]

/-- A field is read back before anything that does not begin with a continuation line. -/
theorem fields_render (h : f.Writable) {rest : Bytes} (hrest : isContinuation rest = false) :
    fields (f.render ++ rest) = f :: fields rest := by
  have hnone := takeWhile_blockLines hrest
  have hdrop : (blockLines rest).dropWhile isContinuation = blockLines rest := by
    have happend := List.takeWhile_append_dropWhile (p := isContinuation) (l := blockLines rest)
    rwa [hnone] at happend
  rw [fields_render_append h, hnone, hdrop]
  simp [fields, blockLines]

/-- **A field keeps its value exactly before what does not begin with a space or a tab.** -/
theorem head_fields_render_iff (h : f.Writable) (rest : Bytes) :
    (fields (f.render ++ rest)).head? = some f ↔ isContinuation rest = false := by
  constructor
  · intro hhead
    rw [Bool.eq_false_iff]
    intro hrest
    obtain ⟨line, more, hlines, hcont, hne⟩ := isContinuation_blockLines hrest
    rw [fields_render_append h, List.head?_cons, Option.some.injEq] at hhead
    have hvalue := congrArg HeaderField.value hhead
    simp [hlines, hcont, hne] at hvalue
  · intro hrest
    rw [fields_render h hrest, List.head?_cons]

/-! ### Field names -/

/-- The lines of a text, each ended by LF or CRLF. -/
def lines : Bytes → List Bytes
  | 0x0A :: rest => [] :: lines rest
  | 0x0D :: 0x0A :: rest => [] :: lines rest
  | b :: rest =>
    match lines rest with
    | [] => [[b]]
    | line :: more => (b :: line) :: more
  | [] => []

/-- The name of a field, in lower case. -/
def lowerName (name : Bytes) : List Char :=
  name.map fun b => (Char.ofNat b.toNat).toLower

/-- The name a line begins with. -/
def fieldName (line : Bytes) : Option (List Char) :=
  let name := line.takeWhile (· ≠ COLON)
  if COLON ∈ line ∧ name ≠ [] ∧ name.all isPrintable then some (lowerName name) else none

/-- The names of the fields in the header block at the top of a text. -/
def fieldNames (text : Bytes) : List (List Char) :=
  ((lines text).takeWhile (· ≠ [])).filterMap fieldName

/-- What comes behind the empty line a text begins with. -/
def afterEmptyLine : Bytes → Option Bytes
  | 0x0A :: rest => some rest
  | 0x0D :: 0x0A :: rest => some rest
  | _ => none

/-- A line as it stands before LF, without the CR that ends it too. -/
def chomp (line : Bytes) : Bytes :=
  if line.getLast? = some CR then line.dropLast else line

theorem chomp_cr (line : Bytes) : chomp (line ++ [CR]) = line := by
  simp [chomp]

/-- A text that begins with an empty line. -/
theorem afterEmptyLine_iff {text rest : Bytes} :
    afterEmptyLine text = some rest ↔
      ∃ line, LF ∉ line ∧ chomp line = [] ∧ text = line ++ LF :: rest := by
  constructor
  · intro h
    unfold afterEmptyLine at h
    split at h
    · cases h
      exact ⟨[], by simp, rfl, rfl⟩
    · cases h
      exact ⟨[CR], by decide, rfl, rfl⟩
    · cases h
  · rintro ⟨line, -, hchomp, rfl⟩
    unfold chomp at hchomp
    split at hchomp
    · rename_i hcr
      obtain ⟨start, rfl⟩ := List.getLast?_eq_some_iff.mp hcr
      rw [List.dropLast_concat] at hchomp
      rw [hchomp]
      rfl
    · rw [hchomp]
      rfl

/-- By lines: a text without LF is the last one. -/
theorem lines_induction {motive : Bytes → Prop} (last : ∀ line, LF ∉ line → motive line)
    (next : ∀ line rest, LF ∉ line → motive rest → motive (line ++ LF :: rest)) (text : Bytes) :
    motive text := by
  by_cases hlf : LF ∈ text
  · obtain ⟨line, rest, rfl, hline⟩ := List.eq_append_cons_of_mem hlf
    exact next line rest hline (lines_induction last next rest)
  · exact last text hlf
termination_by text.length
decreasing_by
  subst_vars
  simp
  omega

theorem lines_ended {line : Bytes} (h : LF ∉ line) (rest : Bytes) :
    lines (line ++ LF :: rest) = chomp line :: lines rest := by
  induction line with
  | nil => rfl
  | cons b line ih =>
      rw [List.mem_cons, not_or] at h
      have hlines := ih h.2
      cases line with
      | nil =>
          by_cases hcr : b = CR
          · subst hcr
            rfl
          · rw [List.cons_append, lines, hlines]
            · simp [chomp, hcr]
            · exact fun heq => h.1 heq.symm
            · exact fun tail heq => absurd heq hcr
      | cons c line =>
          rw [List.mem_cons, not_or] at h
          rw [List.cons_append, lines, hlines]
          · by_cases hcr : (c :: line).getLast? = some CR <;> simp [chomp, hcr]
          · exact fun heq => h.1 heq.symm
          · intro tail hb heq
            exact h.2.1 (List.cons.inj heq).1.symm

theorem lines_last {line : Bytes} (h : LF ∉ line) (hne : line ≠ []) : lines line = [line] := by
  induction line with
  | nil => exact absurd rfl hne
  | cons b line ih =>
      rw [List.mem_cons, not_or] at h
      rw [lines]
      · cases line with
        | nil => rfl
        | cons c line => rw [ih h.2 (by simp)]
      · exact fun heq => h.1 heq.symm
      · rintro tail - rfl
        exact h.2 List.mem_cons_self

theorem fieldNames_ended {line : Bytes} (h : LF ∉ line) (hne : chomp line ≠ []) (rest : Bytes) :
    fieldNames (line ++ LF :: rest) = (fieldName (chomp line)).toList ++ fieldNames rest := by
  unfold fieldNames
  rw [lines_ended h, List.takeWhile_cons_of_pos (by simpa using hne), List.filterMap_cons]
  cases fieldName (chomp line) <;> rfl

theorem fieldNames_last {line : Bytes} (h : LF ∉ line) :
    fieldNames line = (fieldName line).toList := by
  unfold fieldNames
  by_cases hne : line = []
  · subst hne
    rfl
  · rw [lines_last h hne, List.takeWhile_cons_of_pos (by simpa using hne), List.filterMap_cons]
    cases fieldName line <;> rfl

/-- A text that begins with an empty line has no header block. -/
theorem fieldNames_of_afterEmptyLine {text rest : Bytes} (h : afterEmptyLine text = some rest) :
    fieldNames text = [] := by
  unfold afterEmptyLine at h
  split at h
  · rfl
  · rfl
  · cases h

theorem fieldName_append {name : Bytes} (hne : name ≠ []) (hcolon : COLON ∉ name)
    (hprintable : name.all isPrintable = true) (rest : Bytes) :
    fieldName (name ++ COLON :: rest) = some (lowerName name) := by
  unfold fieldName
  rw [takeWhile_colon hcolon, if_pos ⟨by simp, hne, hprintable⟩]

theorem fieldName_eq_none_of_colon {line : Bytes} (h : COLON ∉ line) : fieldName line = none := by
  unfold fieldName
  rw [if_neg fun hline => h hline.1]

/-- A CR at its end does not change the name a line begins with. -/
theorem fieldName_chomp (line : Bytes) : fieldName (chomp line) = fieldName line := by
  unfold chomp
  split
  · rename_i hcr
    obtain ⟨start, rfl⟩ := List.getLast?_eq_some_iff.mp hcr
    rw [List.dropLast_concat]
    by_cases hcolon : COLON ∈ start
    · obtain ⟨name, rest, rfl, hname⟩ := List.eq_append_cons_of_mem hcolon
      unfold fieldName
      rw [List.append_assoc, List.cons_append, takeWhile_colon hname, takeWhile_colon hname]
      simp
    · have hend : COLON ∉ start ++ [CR] := by
        rw [List.mem_append, not_or]
        exact ⟨hcolon, by decide⟩
      rw [fieldName_eq_none_of_colon hcolon, fieldName_eq_none_of_colon hend]
  · rfl

/-- A field that is written before a text is one more field of it. -/
theorem fieldNames_render (h : f.Writable) (rest : Bytes) :
    fieldNames (f.render ++ rest) = lowerName f.name :: fieldNames rest := by
  have hline := h.notMem_line (b := LF) (by decide) (by decide) h.lf
  have hrender : f.render ++ rest =
      (f.name ++ COLON :: SPACE :: f.value ++ [CR]) ++ LF :: rest := by
    simp [HeaderField.render]
  have hchomp := chomp_cr (f.name ++ COLON :: SPACE :: f.value)
  have hlf : LF ∉ f.name ++ COLON :: SPACE :: f.value ++ [CR] := by
    rw [List.mem_append, not_or]
    exact ⟨hline, by decide⟩
  rw [hrender, fieldNames_ended hlf (by rw [hchomp]; simp), hchomp,
    fieldName_append h.name_ne h.colon h.printable]
  rfl

theorem fieldNames_flatMap_render {fs : List HeaderField} (h : ∀ f ∈ fs, f.Writable) (rest : Bytes) :
    fieldNames (fs.flatMap HeaderField.render ++ rest) =
      fs.map (fun f => lowerName f.name) ++ fieldNames rest := by
  induction fs with
  | nil => rfl
  | cons f fs ih =>
      rw [List.flatMap_cons, List.append_assoc, fieldNames_render (h f List.mem_cons_self),
        ih fun g hg => h g (List.mem_cons_of_mem _ hg)]
      rfl

/-- No field is an empty line. -/
theorem afterEmptyLine_render (h : f.Writable) (rest : Bytes) :
    afterEmptyLine (f.render ++ rest) = none := by
  obtain ⟨b, name, hname⟩ := List.exists_cons_of_ne_nil h.name_ne
  have hb : isPrintable b = true :=
    List.all_eq_true.mp h.printable b (by rw [hname]; exact List.mem_cons_self)
  have hrender : f.render ++ rest = b :: (name ++ COLON :: SPACE :: f.value ++ [CR, LF] ++ rest) := by
    simp [HeaderField.render, hname]
  rw [hrender]
  unfold afterEmptyLine
  split
  · rename_i heq
    cases (List.cons.inj heq).1
    cases hb
  · rename_i heq
    cases (List.cons.inj heq).1
    cases hb
  · rfl

end Rfc5322
