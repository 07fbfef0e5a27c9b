/-
What Odoo puts before a message, against what the message's header block is.

`_existing_header_names` does not parse: it looks for the first blank line anywhere and
matches names at line beginnings before it.  That comes to the field names of the header
block (`existingHeaderNames_eq`), line by line, with one exception.  A message that begins
with an empty line has no header block, but the line end of that line is not preceded by
another one, so the search goes past it and the names are those of the block behind it
(`existingHeaderNames_of_afterEmptyLine`).

What the Worker stores begins with `Delivered-To` and so is never that exception.
-/
import MailCloudflare.Proofs.Envelope
import Mathlib.Data.List.Infix

namespace MailCloudflare

open Unicode JavaScript Python Rfc5322

/-! ### A name at the beginning of a line -/

private theorem isNameByte_iff (b : UInt8) :
    isNameByte b = true ↔ isPrintable b = true ∧ b ≠ COLON := by
  have hb : b ≠ COLON ↔ b.toNat ≠ 0x3A := by
    rw [ne_eq, ← UInt8.toNat_inj]
    rfl
  rw [hb]
  simp only [isNameByte, isPrintable, UInt8.le_iff_toNat_le, UInt8.reduceToNat, Bool.or_eq_true,
    Bool.and_eq_true, decide_eq_true_eq]
  omega

private theorem isNameByte_of_all {name : Bytes} (hprintable : name.all isPrintable = true)
    (hcolon : COLON ∉ name) : ∀ b ∈ name, isNameByte b = true := by
  intro b hb
  exact (isNameByte_iff b).mpr
    ⟨List.all_eq_true.mp hprintable b hb, fun heq => hcolon (heq ▸ hb)⟩

private theorem headerName_append {name : Bytes} (h : ∀ b ∈ name, isNameByte b = true)
    (rest : Bytes) : headerName (name ++ COLON :: rest) = if name = [] then none else some name := by
  have htake : (name ++ COLON :: rest).takeWhile isNameByte = name := by
    rw [List.takeWhile_append_of_pos h, List.takeWhile_cons_of_neg (by decide), List.append_nil]
  unfold headerName
  simp only [htake, List.drop_left]

private theorem eq_of_headerName {line name : Bytes} (h : headerName line = some name) :
    name ≠ [] ∧ (∀ b ∈ name, isNameByte b = true) ∧ ∃ rest, line = name ++ COLON :: rest := by
  unfold headerName at h
  dsimp only at h
  split at h
  · rename_i rest hdrop
    split at h
    · cases h
    · rename_i hne
      cases h
      refine ⟨hne, fun b hb => List.all_eq_true.mp List.all_takeWhile b hb, rest, ?_⟩
      have happend := List.prefix_append_drop (List.takeWhile_prefix (l := line) isNameByte)
      rwa [hdrop] at happend
  · cases h

/-- The expression matches the lines that are fields. -/
theorem headerName_eq (line : Bytes) : (headerName line).map lowerName = fieldName line := by
  cases hname : headerName line with
  | some name =>
      obtain ⟨hne, hall, rest, rfl⟩ := eq_of_headerName hname
      have hcolon : COLON ∉ name := fun hin => absurd (hall _ hin) (by decide)
      have hprintable : name.all isPrintable = true :=
        List.all_eq_true.mpr fun b hb => ((isNameByte_iff b).mp (hall b hb)).1
      rw [fieldName_append hne hcolon hprintable]
      rfl
  | none =>
      cases hfield : fieldName line with
      | none => rfl
      | some lower =>
          unfold fieldName at hfield
          dsimp only at hfield
          split at hfield
          · rename_i hline
            obtain ⟨name, rest, rfl, hcolon⟩ := List.eq_append_cons_of_mem hline.1
            rw [takeWhile_colon hcolon] at hline
            rw [headerName_append (isNameByte_of_all hline.2.2 hcolon), if_neg hline.2.1] at hname
            cases hname
          · cases hfield

/-! ### What stands before the first blank line -/

private theorem endsHeaderBlock_lf (rest : Bytes) :
    endsHeaderBlock (LF :: rest) = (afterEmptyLine rest).isSome := by
  match rest with
  | [] => rfl
  | [b] => simp only [endsHeaderBlock, afterEmptyLine]; grind
  | b :: c :: rest => simp only [endsHeaderBlock, afterEmptyLine]; grind

private theorem endsHeaderBlock_crlf (rest : Bytes) :
    endsHeaderBlock (CR :: LF :: rest) = (afterEmptyLine rest).isSome := by
  match rest with
  | [] => rfl
  | [b] => simp only [endsHeaderBlock, afterEmptyLine]; grind
  | b :: c :: rest => simp only [endsHeaderBlock, afterEmptyLine]; grind

private theorem endsHeaderBlock_of_head_ne {b : UInt8} {rest : Bytes} (hlf : b ≠ LF)
    (hcrlf : b = CR → rest.head? ≠ some LF) : endsHeaderBlock (b :: rest) = false := by
  unfold endsHeaderBlock
  split <;> grind

/-- A line that is not followed by an empty one is passed over. -/
theorem messageHead_next {line rest : Bytes} (h : LF ∉ line) (hrest : afterEmptyLine rest = none) :
    messageHead (line ++ LF :: rest) = line ++ LF :: messageHead rest := by
  induction line with
  | nil =>
      rw [List.nil_append, messageHead, endsHeaderBlock_lf, hrest]
      rfl
  | cons b line ih =>
      rw [List.mem_cons, not_or] at h
      have hend : endsHeaderBlock (b :: (line ++ LF :: rest)) = false := by
        cases line with
        | nil =>
            by_cases hcr : b = CR
            · rw [hcr, List.nil_append, endsHeaderBlock_crlf, hrest]
              rfl
            · exact endsHeaderBlock_of_head_ne (fun heq => h.1 heq.symm) fun heq => absurd heq hcr
        | cons c line =>
            refine endsHeaderBlock_of_head_ne (fun heq => h.1 heq.symm) ?_
            intro _ hhead
            exact h.2 (Option.some.inj hhead ▸ List.mem_cons_self)
      rw [List.cons_append, messageHead, hend, ih h.2]
      rfl

/-- The header block ends with the line before an empty one. -/
theorem messageHead_end {line rest : Bytes} (h : LF ∉ line)
    (hrest : (afterEmptyLine rest).isSome = true) :
    messageHead (line ++ LF :: rest) = chomp line := by
  induction line with
  | nil =>
      rw [List.nil_append, messageHead, endsHeaderBlock_lf, hrest]
      rfl
  | cons b line ih =>
      rw [List.mem_cons, not_or] at h
      rw [List.cons_append, messageHead, ih h.2]
      cases line with
      | nil =>
          by_cases hcr : b = CR
          · rw [hcr, List.nil_append, endsHeaderBlock_crlf, hrest]
            rfl
          · rw [endsHeaderBlock_of_head_ne (fun heq => h.1 heq.symm) fun heq => absurd heq hcr]
            simp [chomp, hcr]
      | cons c line =>
          rw [endsHeaderBlock_of_head_ne (fun heq => h.1 heq.symm)]
          · by_cases hcr : (c :: line).getLast? = some CR <;> simp [chomp, hcr]
          · exact fun _ hhead => h.2 (Option.some.inj hhead ▸ List.mem_cons_self)

theorem messageHead_last {line : Bytes} (h : LF ∉ line) : messageHead line = line := by
  induction line with
  | nil => rfl
  | cons b line ih =>
      rw [List.mem_cons, not_or] at h
      have hend : endsHeaderBlock (b :: line) = false := by
        refine endsHeaderBlock_of_head_ne (fun heq => h.1 heq.symm) ?_
        intro _ hhead
        exact h.2 (List.mem_of_head? hhead)
      rw [messageHead, hend, ih h.2]
      rfl

/-! ### The names that are found -/

/-- The names in a text that is split at LF only. -/
private def namesBetween (text : Bytes) : List Str :=
  (text.splitOn LF).filterMap fieldName

theorem existingHeaderNames_eq_between (body : Bytes) :
    existingHeaderNames body = namesBetween (messageHead body) := by
  unfold existingHeaderNames namesBetween
  congr 1
  funext line
  exact headerName_eq line

private theorem namesBetween_next {line : Bytes} (h : LF ∉ line) (rest : Bytes) :
    namesBetween (line ++ LF :: rest) = (fieldName line).toList ++ namesBetween rest := by
  unfold namesBetween
  rw [List.splitOn_append_cons_self_of_not_mem h, List.filterMap_cons]
  cases fieldName line <;> rfl

private theorem namesBetween_last {line : Bytes} (h : LF ∉ line) :
    namesBetween line = (fieldName line).toList := by
  unfold namesBetween
  rw [List.splitOn_eq_singleton h, List.filterMap_cons]
  cases fieldName line <;> rfl

private theorem lf_notMem_chomp {line : Bytes} (h : LF ∉ line) : LF ∉ chomp line := by
  unfold chomp
  split
  · exact fun hin => h (List.dropLast_subset line hin)
  · exact h

/-- **The names found are those of the header block**, when there is one. -/
theorem existingHeaderNames_eq {body : Bytes} (h : afterEmptyLine body = none) :
    existingHeaderNames body = fieldNames body := by
  rw [existingHeaderNames_eq_between]
  induction body using lines_induction with
  | last line hline => rw [messageHead_last hline, namesBetween_last hline, fieldNames_last hline]
  | next line rest hline ih =>
      have hchomp : chomp line ≠ [] := by
        intro hempty
        rw [afterEmptyLine_iff.mpr ⟨line, hline, hempty, rfl⟩] at h
        cases h
      rw [fieldNames_ended hline hchomp, fieldName_chomp]
      cases hrest : afterEmptyLine rest with
      | none => rw [messageHead_next hline hrest, namesBetween_next hline, ih hrest]
      | some c =>
          rw [messageHead_end hline (by rw [hrest]; rfl), namesBetween_last (lf_notMem_chomp hline),
            fieldNames_of_afterEmptyLine hrest, fieldName_chomp, List.append_nil]

/-- When there is none, they are those of what looks like one behind the empty line. -/
theorem existingHeaderNames_of_afterEmptyLine {body rest : Bytes}
    (h : afterEmptyLine body = some rest) : existingHeaderNames body = fieldNames rest := by
  obtain ⟨line, hline, hchomp, rfl⟩ := afterEmptyLine_iff.mp h
  have hname : fieldName line = none := by
    rw [← fieldName_chomp, hchomp]
    rfl
  rw [existingHeaderNames_eq_between]
  cases hrest : afterEmptyLine rest with
  | none =>
      rw [messageHead_next hline hrest, namesBetween_next hline, hname,
        ← existingHeaderNames_eq_between, existingHeaderNames_eq hrest]
      rfl
  | some c =>
      rw [messageHead_end hline (by rw [hrest]; rfl), hchomp, fieldNames_of_afterEmptyLine hrest]
      rfl

/-- No name of the header block is missed. -/
theorem fieldNames_subset (body : Bytes) :
    ∀ name ∈ fieldNames body, name ∈ existingHeaderNames body := by
  intro name hname
  cases hempty : afterEmptyLine body with
  | none => rwa [existingHeaderNames_eq hempty]
  | some rest =>
      rw [fieldNames_of_afterEmptyLine hempty] at hname
      cases hname

/-! ### What is prepended -/

/-- The fields the envelope calls for. -/
def envelopeFields (envelopeFrom envelopeTo : Option Str) : List HeaderField :=
  (match envelopeTo with
    | some (c :: rest) => [⟨utf8 "Delivered-To".toList, utf8 (c :: rest)⟩]
    | _ => []) ++
  (match envelopeFrom with
    | some sender => [⟨utf8 "Return-Path".toList, utf8 ('<' :: sender ++ ['>'])⟩]
    | none => [])

/-- Those of them the message has no field of the same name for. -/
def missingFields (body : Bytes) (envelopeFrom envelopeTo : Option Str) : List HeaderField :=
  (envelopeFields envelopeFrom envelopeTo).filter fun f =>
    lowerName f.name ∉ existingHeaderNames body

private theorem utf8_line (name value : Str) :
    utf8 (name ++ ": ".toList ++ value ++ ['\r', '\n']) =
      HeaderField.render ⟨utf8 name, utf8 value⟩ := by
  have hsep : utf8 ": ".toList = [COLON, SPACE] := by decide
  have hcrlf : utf8 ['\r', '\n'] = [CR, LF] := by decide
  rw [utf8_append, utf8_append, utf8_append, hsep, hcrlf]
  simp [HeaderField.render]

/-- A line is left out with its field. -/
private theorem utf8_unless {f : HeaderField} {lower line : Str} {names : List Str}
    (hlower : lowerName f.name = lower) (hline : utf8 (line ++ ['\r', '\n']) = f.render) :
    utf8 ((if lower ∈ names then [] else [line]).flatMap fun line => line ++ ['\r', '\n']) =
      ([f].filter fun f => lowerName f.name ∉ names).flatMap HeaderField.render := by
  by_cases hname : lower ∈ names
  · simp [hlower, hname, utf8]
  · simp [hlower, hname, hline]

private theorem lowerName_deliveredTo :
    lowerName (utf8 "Delivered-To".toList) = "delivered-to".toList := by decide

private theorem lowerName_returnPath :
    lowerName (utf8 "Return-Path".toList) = "return-path".toList := by decide

/-- What the method returns, once the two addresses have passed. -/
theorem cloudflarePrepareMessage_eq {envelopeFrom envelopeTo decodedFrom decodedTo : Option Str}
    (hfrom : cloudflareCheckEnvelope "envelope-from".toList envelopeFrom = .ok decodedFrom)
    (hto : cloudflareCheckEnvelope "envelope-to".toList envelopeTo = .ok decodedTo) (body : Body) :
    cloudflarePrepareMessage body envelopeFrom envelopeTo =
      .ok ((missingFields body.encode decodedFrom decodedTo).flatMap HeaderField.render ++
        body.encode) := by
  unfold cloudflarePrepareMessage missingFields envelopeFields
  simp only [hfrom, hto, bind, Except.bind, pure, Except.pure]
  congr 2
  rw [List.filter_append, List.flatMap_append, List.flatMap_append, utf8_append]
  congr 1
  · rcases decodedTo with _ | _ | ⟨c, rest⟩
    · rfl
    · rfl
    · exact utf8_unless lowerName_deliveredTo (utf8_line "Delivered-To".toList (c :: rest))
  · rcases decodedFrom with _ | sender
    · rfl
    · exact utf8_unless lowerName_returnPath
        (utf8_line "Return-Path".toList ('<' :: sender ++ ['>']))

private theorem notMem_utf8 {s : Str} (h : ∀ c ∈ s, isEnvelopeForbidden c = false) {b : UInt8}
    (hb : b.toNat < 0x20) : b ∉ utf8 s := by
  intro hmem
  obtain ⟨c, hc, hval⟩ := mem_of_mem_utf8 hmem (by omega)
  have hallowed := h c hc
  simp only [isEnvelopeForbidden, Bool.or_eq_false_iff, decide_eq_false_iff_not] at hallowed
  omega

theorem envelopeFields_writable {envelopeFrom envelopeTo : Option Str}
    (hfrom : ∀ s ∈ envelopeFrom, ∀ c ∈ s, isEnvelopeForbidden c = false)
    (hto : ∀ s ∈ envelopeTo, ∀ c ∈ s, isEnvelopeForbidden c = false) :
    ∀ f ∈ envelopeFields envelopeFrom envelopeTo, f.Writable := by
  have hwritable : ∀ {name value : Str}, (utf8 name ≠ [] ∧ COLON ∉ utf8 name ∧
      (utf8 name).all isPrintable = true) → (∀ c ∈ value, isEnvelopeForbidden c = false) →
      (HeaderField.mk (utf8 name) (utf8 value)).Writable :=
    fun hname hvalue => ⟨hname.1, hname.2.1, hname.2.2, notMem_utf8 hvalue (by decide),
      notMem_utf8 hvalue (by decide)⟩
  intro f hf
  rcases List.mem_append.mp hf with hf | hf
  · rcases envelopeTo with _ | _ | ⟨c, rest⟩
    · cases hf
    · cases hf
    · rw [List.mem_singleton.mp hf]
      exact hwritable (by decide) (hto _ rfl)
  · rcases envelopeFrom with _ | sender
    · cases hf
    · rw [List.mem_singleton.mp hf]
      refine hwritable (by decide) ?_
      intro c hc
      rcases List.mem_append.mp hc with hc | hc
      · rcases List.mem_cons.mp hc with rfl | hc
        · decide
        · exact hfrom _ rfl c hc
      · rw [List.mem_singleton.mp hc]
        decide

/-- What is asked of the names of the fields is asked of two names. -/
theorem forall_envelopeFields (P : Str → Prop) (envelopeFrom envelopeTo : Option Str) :
    (∀ f ∈ envelopeFields envelopeFrom envelopeTo, P (lowerName f.name)) ↔
      ((∃ value, envelopeTo = some value ∧ value ≠ []) → P "delivered-to".toList) ∧
        (envelopeFrom.isSome → P "return-path".toList) := by
  unfold envelopeFields
  rw [List.forall_mem_append]
  refine and_congr ?_ ?_
  · rcases envelopeTo with _ | _ | ⟨c, rest⟩
    · simp
    · simp
    · simp only [List.forall_mem_singleton, lowerName_deliveredTo]
      exact ⟨fun h _ => h, fun h => h ⟨c :: rest, rfl, List.cons_ne_nil c rest⟩⟩
  · rcases envelopeFrom with _ | sender
    · simp
    · simp only [List.forall_mem_singleton, lowerName_returnPath]
      exact ⟨fun h _ => h, fun h => h rfl⟩

theorem missingFields_eq_nil_iff {body : Bytes} {envelopeFrom envelopeTo : Option Str} :
    missingFields body envelopeFrom envelopeTo = [] ↔
      ∀ f ∈ envelopeFields envelopeFrom envelopeTo,
        lowerName f.name ∈ existingHeaderNames body := by
  unfold missingFields
  simp only [List.filter_eq_nil_iff, decide_eq_true_eq, not_not]

/-! ### What the Worker stores -/

/--
**Odoo leaves what the Worker stores as it is**: the message ends with the bytes that were
received, and neither header is added again.
-/
theorem cloudflarePrepareMessage_stored {raw stored : Bytes}
    {envelopeFrom envelopeTo encodedFrom encodedTo : Units}
    (h : prependHeaders raw (envelopeHeaders envelopeFrom envelopeTo) = .ok stored)
    (hfrom : asciiValue envelopeFrom = some encodedFrom)
    (hto : asciiValue envelopeTo = some encodedTo) :
    raw <:+ stored ∧
      cloudflarePrepareMessage (.bytes stored) (some (headerText encodedFrom))
        (some (headerText encodedTo)) = .ok stored := by
  obtain ⟨hcontrolFrom, hcontrolTo⟩ := noControl_of_prependHeaders h
  obtain ⟨-, -, rfl⟩ := prependHeaders_iff.mp h
  obtain ⟨sender, rfl, -, rfl⟩ := of_asciiValue_eq_some hfrom
  obtain ⟨recipient, rfl, -, rfl⟩ := of_asciiValue_eq_some hto
  refine ⟨(List.suffix_append _ raw).trans (List.suffix_append _ _), ?_⟩
  have hwritableTo := deliveredTo_writable hcontrolTo
  have hwritableFrom := returnPath_writable hcontrolFrom
  have hnames : existingHeaderNames
      ((deliveredTo (units recipient)).render ++ ((returnPath (units sender)).render ++ raw)) =
        "delivered-to".toList :: "return-path".toList :: fieldNames raw := by
    rw [existingHeaderNames_eq (afterEmptyLine_render hwritableTo _), fieldNames_render hwritableTo,
      fieldNames_render hwritableFrom]
    exact congrArg₂ _ lowerName_deliveredTo (congrArg (· :: _) lowerName_returnPath)
  have hmissing : ∀ decodedFrom decodedTo : Option Str, missingFields
      ((deliveredTo (units recipient)).render ++ ((returnPath (units sender)).render ++ raw))
        decodedFrom decodedTo = [] := by
    intro decodedFrom decodedTo
    rw [missingFields_eq_nil_iff, hnames, forall_envelopeFields
      (· ∈ "delivered-to".toList :: "return-path".toList :: fieldNames raw)]
    exact ⟨fun _ => List.mem_cons_self, fun _ => List.mem_cons_of_mem _ List.mem_cons_self⟩
  rw [cloudflarePrepareMessage_eq
    (checkEnvelope_encode _ fun c hc => isEnvelopeForbidden_of_noControl hcontrolFrom hc)
    (checkEnvelope_encode _ fun c hc => isEnvelopeForbidden_of_noControl hcontrolTo hc)]
  simp only [Body.encode, hmissing, List.flatMap_nil, List.nil_append]

/-- A message that is blank lines and a folded header, with an envelope that has to be encoded. -/
theorem cloudflarePrepareMessage_stored_blank :
    let stored := utf8 ("Delivered-To: jürgen@erp.example.com\r\nReturn-Path: <50%@example.com>\r\n" ++
      "\n\nDelivered-To:\n x\n").toList
    utf8 "\n\nDelivered-To:\n x\n".toList <:+ stored ∧
      cloudflarePrepareMessage (.bytes stored) (some (headerText (js "50%25@example.com")))
        (some (headerText (js "j%C3%BCrgen@erp.example.com"))) = .ok stored := by
  intro stored
  have hstored : prependHeaders (utf8 "\n\nDelivered-To:\n x\n".toList)
      (envelopeHeaders (js "50%@example.com") (js "jürgen@erp.example.com")) = .ok stored := by
    decide +kernel
  exact cloudflarePrepareMessage_stored hstored (by decide +kernel) (by decide +kernel)

/-! ### What anybody else posts -/

/-- What the method is for: `out` is `body` with the envelope in its header block. -/
structure Prepared (body out : Bytes) (envelopeFrom envelopeTo : Option Str) : Prop where
  deliveredTo : (∃ value, envelopeTo = some value ∧ strip (unquote value) ≠ []) →
    "delivered-to".toList ∈ fieldNames out
  returnPath : envelopeFrom.isSome → "return-path".toList ∈ fieldNames out
  once : ∀ name ∈ fieldNames body, (fieldNames out).count name = (fieldNames body).count name
  again : cloudflarePrepareMessage (.bytes out) envelopeFrom envelopeTo = .ok out

variable {body : Bytes} {envelopeFrom envelopeTo : Option Str}

/-- The output of the method. -/
private def output (body : Bytes) (envelopeFrom envelopeTo : Option Str) : Bytes :=
  (missingFields body envelopeFrom envelopeTo).flatMap HeaderField.render ++ body

private theorem fieldNames_output (h : ∀ f ∈ envelopeFields envelopeFrom envelopeTo, f.Writable) :
    fieldNames (output body envelopeFrom envelopeTo) =
      (missingFields body envelopeFrom envelopeTo).map (fun f => lowerName f.name) ++
        fieldNames body :=
  fieldNames_flatMap_render (fun f hf => h f (List.mem_of_mem_filter hf)) body

private theorem lowerName_missing {name : Str}
    (h : name ∈ (missingFields body envelopeFrom envelopeTo).map fun f => lowerName f.name) :
    name ∉ existingHeaderNames body := by
  obtain ⟨f, hf, rfl⟩ := List.mem_map.mp h
  simpa using (List.mem_filter.mp hf).2

/-- All fields are there exactly when the search missed none that the block lacks. -/
private theorem forall_mem_output (h : ∀ f ∈ envelopeFields envelopeFrom envelopeTo, f.Writable) :
    (∀ f ∈ envelopeFields envelopeFrom envelopeTo,
        lowerName f.name ∈ fieldNames (output body envelopeFrom envelopeTo)) ↔
      ∀ f ∈ envelopeFields envelopeFrom envelopeTo,
        lowerName f.name ∈ existingHeaderNames body → lowerName f.name ∈ fieldNames body := by
  rw [fieldNames_output h]
  refine forall₂_congr ?_
  intro f hf
  rw [List.mem_append]
  constructor
  · rintro (hmissing | hbody) hfound
    · exact absurd hfound (lowerName_missing hmissing)
    · exact hbody
  · intro hname
    by_cases hfound : lowerName f.name ∈ existingHeaderNames body
    · exact Or.inr (hname hfound)
    · exact Or.inl (List.mem_map_of_mem (List.mem_filter.mpr ⟨hf, by simpa using hfound⟩))

/-- A second time there is nothing to add. -/
private theorem missingFields_output
    (hall : ∀ f ∈ envelopeFields envelopeFrom envelopeTo,
      lowerName f.name ∈ fieldNames (output body envelopeFrom envelopeTo)) :
    missingFields (output body envelopeFrom envelopeTo) envelopeFrom envelopeTo = [] := by
  rw [missingFields_eq_nil_iff]
  intro f hf
  exact fieldNames_subset _ _ (hall f hf)

private theorem count_output (h : ∀ f ∈ envelopeFields envelopeFrom envelopeTo, f.Writable)
    {name : Str} (hname : name ∈ fieldNames body) :
    (fieldNames (output body envelopeFrom envelopeTo)).count name =
      (fieldNames body).count name := by
  have hmissing : name ∉ (missingFields body envelopeFrom envelopeTo).map
      fun f => lowerName f.name :=
    fun hin => lowerName_missing hin (fieldNames_subset body name hname)
  rw [fieldNames_output h, List.count_append, List.count_eq_zero.mpr hmissing, Nat.zero_add]

/-- What the method goes on with, once an address has passed. -/
private def decoded (value : Option Str) : Option Str :=
  value.map fun v => strip (unquote v)

private theorem checkEnvelope_decoded (which : Str) {value : Option Str}
    (h : ∀ v ∈ value, ∀ c ∈ unquote v, isEnvelopeForbidden c = false) :
    cloudflareCheckEnvelope which value = .ok (decoded value) := by
  cases value with
  | none => rfl
  | some v => exact cloudflareCheckEnvelope_ok which (h v rfl)

private theorem allowed_decoded {value : Option Str}
    (h : ∀ v ∈ value, ∀ c ∈ unquote v, isEnvelopeForbidden c = false) :
    ∀ s ∈ decoded value, ∀ c ∈ s, isEnvelopeForbidden c = false := by
  intro s hs c hc
  obtain ⟨v, hv, rfl⟩ := Option.map_eq_some_iff.mp hs
  exact h v hv c (mem_of_mem_stripBy hc)

private theorem forall_decodedFields (P : Str → Prop) (envelopeFrom envelopeTo : Option Str) :
    (∀ f ∈ envelopeFields (decoded envelopeFrom) (decoded envelopeTo), P (lowerName f.name)) ↔
      ((∃ value, envelopeTo = some value ∧ strip (unquote value) ≠ []) → P "delivered-to".toList) ∧
        (envelopeFrom.isSome → P "return-path".toList) := by
  rw [forall_envelopeFields, decoded, decoded, Option.isSome_map]
  simp

section Decoded

variable (hfrom : ∀ v ∈ envelopeFrom, ∀ c ∈ unquote v, isEnvelopeForbidden c = false)
  (hto : ∀ v ∈ envelopeTo, ∀ c ∈ unquote v, isEnvelopeForbidden c = false)

include hfrom hto

private theorem decodedFields_writable :
    ∀ f ∈ envelopeFields (decoded envelopeFrom) (decoded envelopeTo), f.Writable :=
  envelopeFields_writable (allowed_decoded hfrom) (allowed_decoded hto)

private theorem cloudflarePrepareMessage_decoded (body : Body) :
    cloudflarePrepareMessage body envelopeFrom envelopeTo =
      .ok (output body.encode (decoded envelopeFrom) (decoded envelopeTo)) :=
  cloudflarePrepareMessage_eq (checkEnvelope_decoded _ hfrom) (checkEnvelope_decoded _ hto) body

/-- The method is right when the fields that are called for are all there. -/
private theorem exists_prepared_iff (body : Body) :
    (∃ out, cloudflarePrepareMessage body envelopeFrom envelopeTo = .ok out ∧
        Prepared body.encode out envelopeFrom envelopeTo) ↔
      ∀ f ∈ envelopeFields (decoded envelopeFrom) (decoded envelopeTo), lowerName f.name ∈
        fieldNames (output body.encode (decoded envelopeFrom) (decoded envelopeTo)) := by
  constructor
  · rintro ⟨out, hout, hprepared⟩
    rw [cloudflarePrepareMessage_decoded hfrom hto, Except.ok.injEq] at hout
    rw [hout]
    exact (forall_decodedFields (· ∈ fieldNames out) _ _).mpr
      ⟨hprepared.deliveredTo, hprepared.returnPath⟩
  · intro hall
    have hcalled := (forall_decodedFields (· ∈ fieldNames _) _ _).mp hall
    refine ⟨_, cloudflarePrepareMessage_decoded hfrom hto body, hcalled.1, hcalled.2, ?_, ?_⟩
    · intro name hname
      exact count_output (decodedFields_writable hfrom hto) hname
    · rw [cloudflarePrepareMessage_decoded hfrom hto]
      show Except.ok ((missingFields _ _ _).flatMap HeaderField.render ++ _) = _
      rw [Body.encode, missingFields_output hall]
      rfl

end Decoded

/--
**The envelope is added where the header block lacks it, except to a message that begins with
an empty line** and goes on with what looks like a field that is called for.
-/
theorem prepared_iff (hfrom : ∀ v ∈ envelopeFrom, ∀ c ∈ unquote v, isEnvelopeForbidden c = false)
    (hto : ∀ v ∈ envelopeTo, ∀ c ∈ unquote v, isEnvelopeForbidden c = false) (body : Body) :
    (∃ out, cloudflarePrepareMessage body envelopeFrom envelopeTo = .ok out ∧
        Prepared body.encode out envelopeFrom envelopeTo) ↔
      ¬ ∃ rest, afterEmptyLine body.encode = some rest ∧
        (((∃ value, envelopeTo = some value ∧ strip (unquote value) ≠ []) ∧
            "delivered-to".toList ∈ fieldNames rest) ∨
          (envelopeFrom.isSome ∧ "return-path".toList ∈ fieldNames rest)) := by
  rw [exists_prepared_iff hfrom hto, forall_mem_output (decodedFields_writable hfrom hto)]
  cases hempty : afterEmptyLine body.encode with
  | none =>
      rw [existingHeaderNames_eq hempty]
      exact iff_of_true (fun f _ hname => hname) (by simp)
  | some rest =>
      rw [existingHeaderNames_of_afterEmptyLine hempty, fieldNames_of_afterEmptyLine hempty,
        forall_decodedFields fun name => name ∈ fieldNames rest → name ∈ []]
      simp only [List.not_mem_nil, imp_false, Option.some.injEq, exists_eq_left']
      rw [not_or, not_and, not_and]

theorem prepared_iff_mixed :
    (∃ out, cloudflarePrepareMessage (.bytes (utf8 "delivered-TO :\n x\r\n\nReturn-Path: <>\n".toList))
          (some "a%40b".toList) (some " c ".toList) = .ok out ∧
        Prepared (utf8 "delivered-TO :\n x\r\n\nReturn-Path: <>\n".toList) out
          (some "a%40b".toList) (some " c ".toList)) ↔
      ¬ ∃ rest, afterEmptyLine (utf8 "delivered-TO :\n x\r\n\nReturn-Path: <>\n".toList) =
          some rest ∧
        (((∃ value, some " c ".toList = some value ∧ strip (unquote value) ≠ []) ∧
            "delivered-to".toList ∈ fieldNames rest) ∨
          ((some "a%40b".toList).isSome ∧ "return-path".toList ∈ fieldNames rest)) := by
  have hallowed : ("a%40b".toList :: [" c ".toList]).all
      (fun v => (unquote v).all fun c => !isEnvelopeForbidden c) = true := by decide +kernel
  simp only [List.all_cons, List.all_nil, Bool.and_true, Bool.and_eq_true, List.all_eq_true,
    Bool.not_eq_true'] at hallowed
  refine prepared_iff (fun v hv => ?_) (fun v hv => ?_) (.bytes _)
  · rw [← Option.some.inj hv]
    exact hallowed.1
  · rw [← Option.some.inj hv]
    exact hallowed.2

/-- A blank line, and a body that begins like a header: the recipient is nowhere in the headers. -/
theorem not_prepared_blank :
    cloudflarePrepareMessage (.bytes (utf8 "\nDelivered-To: x\n".toList)) none
          (some "sales@erp.example.com".toList) = .ok (utf8 "\nDelivered-To: x\n".toList) ∧
      ¬ Prepared (utf8 "\nDelivered-To: x\n".toList) (utf8 "\nDelivered-To: x\n".toList) none
        (some "sales@erp.example.com".toList) := by
  refine ⟨by decide +kernel, fun h => ?_⟩
  have hin := h.deliveredTo ⟨_, rfl, by decide +kernel⟩
  revert hin
  decide +kernel

end MailCloudflare
