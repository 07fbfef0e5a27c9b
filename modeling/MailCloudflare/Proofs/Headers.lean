/-
The headers that pass, against what they are to be.

Said of the message as a whole: the allowed names it uses, in lower case and in the order
they first appear, each with one spelling, that of the table or else the first one used,
and with the values of all its headers joined (`passedThrough`).  The loop keeps to this
item by item (`rows_collectHeaders`), and nothing after it changes a name, except that
References is added when there was none.

Names are compared in lower case, and a spelling is one of the name it is of, whatever
lower case means outside ASCII.  That is why no two names are equal ignoring case.
-/
import MailCloudflare.Base.Trim
import MailCloudflare.Odoo.Headers
import MailCloudflare.Proofs.Signature
import Mathlib.Data.List.Induction

namespace MailCloudflare

open Unicode Python Keyed

variable {py : UnicodeData} {items : List (Str × Str)} {message : Message}

/-! ### The table of names -/

private theorem lower_allowed {name : Str} (h : name ∈ ALLOWED_HEADERS) :
    py.lower name = name.map Char.toLower := by
  have htable : ALLOWED_HEADERS.all (fun name => name.all (·.toNat < 0x80)) = true := by
    decide +kernel
  refine py.lower_ascii name ?_
  intro c hc
  exact of_decide_eq_true (List.all_eq_true.mp (List.all_eq_true.mp htable name h) c hc)

theorem of_canonicalHeaderName {lname name : Str} (h : canonicalHeaderName py lname = some name) :
    name ∈ ALLOWED_HEADERS ∧ py.lower name = lname :=
  ⟨List.mem_of_find?_eq_some h, by simpa using List.find?_some h⟩

theorem isSome_canonicalHeaderName {lname : Str} :
    (canonicalHeaderName py lname).isSome ↔ lname ∈ ALLOWED_HEADERS.map py.lower := by
  simp [canonicalHeaderName, List.find?_isSome]

/-- The table has one spelling of each name. -/
theorem canonicalHeaderName_lower {name : Str} (h : name ∈ ALLOWED_HEADERS) :
    canonicalHeaderName py (py.lower name) = some name := by
  have hnodup : (ALLOWED_HEADERS.map (List.map Char.toLower)).Nodup := by decide +kernel
  obtain ⟨found, hfound⟩ := Option.isSome_iff_exists.mp
    (isSome_canonicalHeaderName.mpr (List.mem_map_of_mem (f := py.lower) h))
  obtain ⟨hin, hlower⟩ := of_canonicalHeaderName hfound
  rw [lower_allowed hin, lower_allowed h] at hlower
  rw [hfound, List.inj_on_of_nodup_map hnodup hin h hlower]

/-! ### What passes -/

variable (py items) in
/-- The allowed names that are used, in lower case and in the order they first appear. -/
def allowedNames : List Str :=
  ((items.map fun item => py.lower item.1).filter (isAllowedHeader py)).eraseDups

variable (py items) in
/-- The spelling a name is sent under. -/
def spelling (lname : Str) : Str :=
  (canonicalHeaderName py lname).getD
    (((items.find? fun item => py.lower item.1 = lname).map Prod.fst).getD [])

variable (py items) in
/-- The values of all headers of a name. -/
def headerValues (lname : Str) : List Str :=
  (items.filter fun item => py.lower item.1 = lname).map fun item => strip item.2

/-- The first value, and what is not empty of the others. -/
def joinValues : List Str → Str
  | [] => []
  | value :: rest => value ++ (rest.filter (· ≠ [])).flatMap (COMMA ++ ·)

variable (py items) in
def passedThrough : List (Str × Str) :=
  (allowedNames py items).map fun lname =>
    (spelling py items lname, joinValues (headerValues py items lname))

theorem mem_allowedNames {lname : Str} :
    lname ∈ allowedNames py items ↔
      isAllowedHeader py lname = true ∧ ∃ item ∈ items, py.lower item.1 = lname := by
  rw [allowedNames, List.mem_eraseDups, List.mem_filter, List.mem_map, and_comm]

theorem allowedNames_append (item : Str × Str) :
    allowedNames py (items ++ [item]) =
      if isAllowedHeader py (py.lower item.1) = true ∧ py.lower item.1 ∉ allowedNames py items then
        allowedNames py items ++ [py.lower item.1]
      else allowedNames py items := by
  unfold allowedNames
  simp only [List.map_append, List.filter_append, List.eraseDups_append, List.map_cons,
    List.map_nil, List.mem_eraseDups]
  by_cases hallowed : isAllowedHeader py (py.lower item.1) = true
  · by_cases hmem : py.lower item.1 ∈
        (items.map fun item => py.lower item.1).filter (isAllowedHeader py)
    · simp [hallowed, hmem, List.cons_removeAll]
    · simp [hallowed, hmem, List.cons_removeAll, List.eraseDups_cons]
  · simp [hallowed]

theorem nodup_allowedNames : (allowedNames py items).Nodup := by
  induction items using List.reverseRecOn with
  | nil => exact List.nodup_nil
  | append_singleton items item ih =>
      rw [allowedNames_append]
      split
      · rename_i hnew
        exact ih.append (List.nodup_singleton _) (by simpa using hnew.2)
      · exact ih

/-- A name in use has a first item. -/
private theorem exists_find_item {lname : Str} (h : lname ∈ allowedNames py items) :
    ∃ item, items.find? (fun item => py.lower item.1 = lname) = some item ∧
      py.lower item.1 = lname := by
  obtain ⟨-, first, hfirst, hlower⟩ := mem_allowedNames.mp h
  have hsome : (items.find? fun item => py.lower item.1 = lname).isSome :=
    List.find?_isSome.mpr ⟨first, hfirst, by simpa using hlower⟩
  obtain ⟨found, hfound⟩ := Option.isSome_iff_exists.mp hsome
  exact ⟨found, hfound, by simpa using List.find?_some hfound⟩

theorem lower_spelling {lname : Str} (h : lname ∈ allowedNames py items) :
    py.lower (spelling py items lname) = lname := by
  unfold spelling
  cases hcanonical : canonicalHeaderName py lname with
  | some name => exact (of_canonicalHeaderName hcanonical).2
  | none =>
      obtain ⟨found, hfound, hlower⟩ := exists_find_item h
      rw [hfound]
      exact hlower

theorem headerValues_append_of_ne {item : Str × Str} {lname : Str} (hne : lname ≠ py.lower item.1) :
    headerValues py (items ++ [item]) lname = headerValues py items lname := by
  simp [headerValues, List.filter_append, Ne.symm hne]

theorem headerValues_append (item : Str × Str) :
    headerValues py (items ++ [item]) (py.lower item.1) =
      headerValues py items (py.lower item.1) ++ [strip item.2] := by
  simp [headerValues, List.filter_append]

theorem headerValues_eq_nil_iff {lname : Str} (h : isAllowedHeader py lname = true) :
    headerValues py items lname = [] ↔ lname ∉ allowedNames py items := by
  rw [headerValues, List.map_eq_nil_iff, List.filter_eq_nil_iff, mem_allowedNames]
  simp [h]

theorem joinValues_append {values : List Str} (h : values ≠ []) (value : Str) :
    joinValues (values ++ [value]) =
      if value = [] then joinValues values else joinValues values ++ COMMA ++ value := by
  obtain ⟨first, rest, rfl⟩ := List.exists_cons_of_ne_nil h
  by_cases hvalue : value = []
  · simp [joinValues, List.filter_append, hvalue]
  · simp [joinValues, List.filter_append, hvalue]

/-- A name in use keeps its spelling. -/
theorem spelling_append {item : Str × Str} {lname : Str} (h : lname ∈ allowedNames py items) :
    spelling py (items ++ [item]) lname = spelling py items lname := by
  obtain ⟨found, hfound, -⟩ := exists_find_item h
  unfold spelling
  rw [List.find?_append, hfound]
  rfl

/-- A name that was not in use is spelled as the table has it, or as it is used now. -/
theorem spelling_append_new {item : Str × Str}
    (hallowed : isAllowedHeader py (py.lower item.1) = true)
    (hnew : py.lower item.1 ∉ allowedNames py items) :
    spelling py (items ++ [item]) (py.lower item.1) =
      (canonicalHeaderName py (py.lower item.1)).getD item.1 := by
  have hnone : (items.find? fun other => py.lower other.1 = py.lower item.1) = none := by
    rw [List.find?_eq_none]
    intro other hother hsame
    exact hnew (mem_allowedNames.mpr ⟨hallowed, other, hother, by simpa using hsame⟩)
  unfold spelling
  rw [List.find?_append, hnone]
  simp

/-! ### The loop over the items -/

section Loop

variable {headers : Headers} (hrows : headers.rows = passedThrough py items)

include hrows

private theorem keys_of_rows :
    headers.keys = (allowedNames py items).map (spelling py items) := by
  unfold Dict.keys
  rw [hrows, passedThrough, List.map_map]
  rfl

private theorem lookup_of_rows {lname : Str} (h : lname ∈ allowedNames py items) :
    headers.lookup (spelling py items lname) = some (joinValues (headerValues py items lname)) := by
  have hmem : (spelling py items lname, joinValues (headerValues py items lname)) ∈ headers.rows := by
    rw [hrows]
    exact List.mem_map_of_mem h
  exact Dict.mem_rows_iff_lookup.mp hmem

/-- The known name the loop finds is the one in use. -/
private theorem find_keys_of_rows (lname : Str) :
    (headers.keys.find? fun known => py.lower known = lname) =
      if lname ∈ allowedNames py items then some (spelling py items lname) else none := by
  rw [keys_of_rows hrows]
  split
  · rename_i h
    have hsome : (((allowedNames py items).map (spelling py items)).find? fun known =>
        py.lower known = lname).isSome :=
      List.find?_isSome.mpr ⟨_, List.mem_map_of_mem h, by simpa using lower_spelling h⟩
    obtain ⟨found, hfound⟩ := Option.isSome_iff_exists.mp hsome
    obtain ⟨other, hother, rfl⟩ := List.mem_map.mp (List.mem_of_find?_eq_some hfound)
    have hlower : py.lower (spelling py items other) = lname := by
      simpa using List.find?_some hfound
    rw [lower_spelling hother] at hlower
    rw [hfound, hlower]
  · rename_i h
    rw [List.find?_eq_none]
    intro known hknown hlower
    obtain ⟨other, hother, rfl⟩ := List.mem_map.mp hknown
    rw [lower_spelling hother, decide_eq_true_eq] at hlower
    exact h (hlower ▸ hother)

/-- The key an item goes under is the spelling of its name. -/
private theorem headerKey_of_rows {item : Str × Str}
    (hallowed : isAllowedHeader py (py.lower item.1) = true) :
    headerKey py headers item.1 = spelling py (items ++ [item]) (py.lower item.1) := by
  unfold headerKey
  rw [find_keys_of_rows hrows]
  split
  · rename_i name hcanonical
    simp [spelling, hcanonical]
  · rename_i hcanonical
    split
    · rename_i h
      rw [spelling_append h]
      rfl
    · rename_i h
      rw [spelling_append_new hallowed h, hcanonical]

/-- What a name in use is set to stands where the name stands. -/
private theorem rows_set_of_rows {lname : Str} (h : lname ∈ allowedNames py items) (value : Str) :
    (headers.set (spelling py items lname) value).rows =
      (allowedNames py items).map fun other => (spelling py items other,
        if other = lname then value else joinValues (headerValues py items other)) := by
  have hkey : spelling py items lname ∈ headers.keys := by
    rw [keys_of_rows hrows]
    exact List.mem_map_of_mem h
  rw [Dict.rows_set_of_mem hkey, hrows, passedThrough, List.map_map]
  refine List.map_congr_left ?_
  intro other hother
  by_cases hsame : other = lname
  · simp [hsame]
  · have hspelling : spelling py items other ≠ spelling py items lname := by
      intro heq
      have hlower := congrArg py.lower heq
      rw [lower_spelling hother, lower_spelling h] at hlower
      exact hsame hlower
    simp [hsame, hspelling]

end Loop

/-- What is to pass when a name in use is used again. -/
private theorem passedThrough_append {item : Str × Str}
    (h : py.lower item.1 ∈ allowedNames py items) :
    passedThrough py (items ++ [item]) =
      (allowedNames py items).map fun other => (spelling py items other,
        if other = py.lower item.1 then
          joinValues (headerValues py items (py.lower item.1) ++ [strip item.2])
        else joinValues (headerValues py items other)) := by
  unfold passedThrough
  rw [allowedNames_append, if_neg fun hnew => hnew.2 h]
  refine List.map_congr_left ?_
  intro other hother
  rw [spelling_append hother]
  by_cases hsame : other = py.lower item.1
  · rw [if_pos hsame, hsame, headerValues_append]
  · rw [if_neg hsame, headerValues_append_of_ne hsame]

/-- What is to pass when a name is used that was not. -/
private theorem passedThrough_append_new {item : Str × Str}
    (hallowed : isAllowedHeader py (py.lower item.1) = true)
    (hnew : py.lower item.1 ∉ allowedNames py items) :
    passedThrough py (items ++ [item]) =
      passedThrough py items ++
        [(spelling py (items ++ [item]) (py.lower item.1), strip item.2)] := by
  unfold passedThrough
  rw [allowedNames_append, if_pos ⟨hallowed, hnew⟩, List.map_append, List.map_singleton,
    headerValues_append, (headerValues_eq_nil_iff hallowed).mpr hnew]
  congr 1
  · refine List.map_congr_left ?_
    intro other hother
    rw [spelling_append hother, headerValues_append_of_ne fun heq => hnew (heq ▸ hother)]
  · simp [joinValues]

private theorem passedThrough_append_skipped {item : Str × Str}
    (hskipped : ¬ isAllowedHeader py (py.lower item.1) = true) :
    passedThrough py (items ++ [item]) = passedThrough py items := by
  unfold passedThrough
  rw [allowedNames_append, if_neg fun hnew => hskipped hnew.1]
  refine List.map_congr_left ?_
  intro other hother
  have hne : other ≠ py.lower item.1 := by
    rintro rfl
    exact hskipped (mem_allowedNames.mp hother).1
  rw [spelling_append hother, headerValues_append_of_ne hne]

/-- One item: the loop keeps to what is to pass. -/
theorem rows_collectHeader {headers : Headers} (hrows : headers.rows = passedThrough py items)
    (item : Str × Str) :
    (collectHeader py headers item).rows = passedThrough py (items ++ [item]) := by
  unfold collectHeader
  dsimp only
  split
  · rename_i hallowed
    rw [headerKey_of_rows hrows hallowed]
    by_cases h : py.lower item.1 ∈ allowedNames py items
    · have hvalues : headerValues py items (py.lower item.1) ≠ [] := fun hnil =>
        (headerValues_eq_nil_iff hallowed).mp hnil h
      rw [spelling_append h, lookup_of_rows hrows h, passedThrough_append h,
        joinValues_append hvalues]
      dsimp only
      split
      · rw [hrows, passedThrough]
        refine List.map_congr_left ?_
        intro other _
        by_cases hsame : other = py.lower item.1
        · rw [if_pos hsame, hsame]
        · rw [if_neg hsame]
      · rw [rows_set_of_rows hrows h]
    · have hfree : spelling py (items ++ [item]) (py.lower item.1) ∉ headers.keys := by
        intro hin
        rw [keys_of_rows hrows] at hin
        obtain ⟨other, hother, heq⟩ := List.mem_map.mp hin
        have hnew : py.lower item.1 ∈ allowedNames py (items ++ [item]) :=
          mem_allowedNames.mpr ⟨hallowed, item, by simp, rfl⟩
        have hlower := congrArg py.lower heq
        rw [lower_spelling hother, lower_spelling hnew] at hlower
        exact h (hlower ▸ hother)
      rw [Dict.lookup_eq_none_iff.mpr hfree, passedThrough_append_new hallowed h, ← hrows]
      exact Dict.rows_set_of_notMem hfree _
  · rename_i hskipped
    rw [passedThrough_append_skipped hskipped, hrows]

/-- **The loop collects what is to pass.** -/
theorem rows_collectHeaders (py : UnicodeData) (items : List (Str × Str)) :
    (collectHeaders py items).rows = passedThrough py items := by
  induction items using List.reverseRecOn with
  | nil => rfl
  | append_singleton items item ih =>
      unfold collectHeaders at ih ⊢
      rw [List.foldl_append]
      exact rows_collectHeader ih item

/-! ### The names that are sent -/

theorem keys_collectHeaders (py : UnicodeData) (items : List (Str × Str)) :
    (collectHeaders py items).keys = (allowedNames py items).map (spelling py items) :=
  keys_of_rows (rows_collectHeaders py items)

/-- A name has the join of its values. -/
theorem lookup_collectHeaders {lname : Str} (h : lname ∈ allowedNames py items) :
    (collectHeaders py items).lookup (spelling py items lname) =
      some (joinValues (headerValues py items lname)) :=
  lookup_of_rows (rows_collectHeaders py items) h

theorem map_lower_spelling :
    ((allowedNames py items).map (spelling py items)).map py.lower = allowedNames py items := by
  rw [List.map_map]
  exact (List.map_congr_left fun lname hlname => lower_spelling hlname).trans (List.map_id _)

theorem lower_references (py : UnicodeData) : py.lower REFERENCES = "references".toList :=
  lower_allowed (by decide +kernel)

theorem spelling_references : spelling py items "references".toList = REFERENCES := by
  have hcanonical : canonicalHeaderName py (py.lower REFERENCES) = some REFERENCES :=
    canonicalHeaderName_lower (by decide +kernel)
  rw [lower_references] at hcanonical
  unfold spelling
  rw [hcanonical]
  rfl

theorem references_mem_keys :
    REFERENCES ∈ (collectHeaders py items).keys ↔ "references".toList ∈ allowedNames py items := by
  rw [keys_collectHeaders]
  constructor
  · intro hin
    obtain ⟨lname, hlname, heq⟩ := List.mem_map.mp hin
    have hlower := lower_spelling hlname
    rw [heq, lower_references] at hlower
    rwa [hlower]
  · intro hin
    exact List.mem_map.mpr ⟨_, hin, spelling_references⟩

/-- The value References has before the chain is read from it. -/
theorem lookup_references :
    ((collectHeaders py items).lookup REFERENCES).getD [] =
      joinValues (headerValues py items "references".toList) := by
  have hallowed : isAllowedHeader py "references".toList = true := by
    have hin : "references".toList ∈ ALLOWED_HEADERS.map py.lower := by
      rw [← lower_references py]
      exact List.mem_map_of_mem (by decide +kernel)
    simp only [isAllowedHeader, hin, decide_true, Bool.true_or]
  by_cases h : "references".toList ∈ allowedNames py items
  · have hlookup := lookup_collectHeaders h
    rw [spelling_references] at hlookup
    rw [hlookup]
    rfl
  · rw [Dict.lookup_eq_none_iff.mpr fun hin => h (references_mem_keys.mp hin),
      (headerValues_eq_nil_iff hallowed).mpr h]
    rfl

/-! ### The chain and the limits -/

variable (py message) in
/-- The ids of the joined References headers, oldest first, and the message's own. -/
def chain : List Str :=
  let references := msgIds (joinValues (headerValues py message.items "references".toList))
  if ownId py message ≠ [] ∧ ownId py message ∉ references then references ++ [ownId py message]
  else references

variable (py message) in
/-- What is to pass besides References. -/
def otherHeaders : List (Str × Str) :=
  (passedThrough py message.items).filter fun row => row.1 ≠ REFERENCES

/-- References can be sent with these ids. -/
def Fits (others : List (Str × Str)) (ids : List Str) : Prop :=
  (utf8 (joinReferences ids)).length ≤ MAX_HEADER_VALUE_BYTES ∧
    headerSize (others ++ [(REFERENCES, joinReferences ids)]) ≤ MAX_HEADER_BYTES

instance (others : List (Str × Str)) (ids : List Str) : Decidable (Fits others ids) :=
  inferInstanceAs (Decidable (_ ∧ _))

/-- An object Cloudflare takes. -/
structure WithinLimits (rows : List (Str × Str)) : Prop where
  values : ∀ row ∈ rows, (utf8 row.2).length ≤ MAX_HEADER_VALUE_BYTES
  size : headerSize rows ≤ MAX_HEADER_BYTES
  count : rows.length ≤ MAX_HEADER_COUNT

theorem headerSize_perm {rows rows' : List (Str × Str)} (h : rows.Perm rows') :
    headerSize rows = headerSize rows' :=
  (h.map _).sum_nat

theorem headerSize_append (rows rows' : List (Str × Str)) :
    headerSize (rows ++ rows') = headerSize rows + headerSize rows' := by
  simp [headerSize]

theorem without_collectHeaders :
    (collectHeaders py message.items).without REFERENCES = otherHeaders py message := by
  rw [Dict.without, rows_collectHeaders]
  rfl

/-- Whether References is oversized depends on the ids and on what else is sent. -/
theorem referencesOversized_set (headers : Headers) (ids : List Str) :
    referencesOversized (headers.set REFERENCES (joinReferences ids)) =
      !decide (Fits (headers.without REFERENCES) ids) := by
  unfold referencesOversized
  rw [Dict.lookup_set, if_pos rfl, headerSize_perm (Dict.perm_rows_set headers REFERENCES _)]
  rw [Option.getD_some, Bool.eq_iff_iff, Bool.or_eq_true, decide_eq_true_eq, decide_eq_true_eq,
    Bool.not_eq_true', decide_eq_false_iff_not, Fits, not_and_or, not_le, not_le]

/-- The loop keeps the longest end of the chain that fits. -/
theorem trimReferences_set (headers : Headers) (ids : List Str) :
    trimReferences (headers.set REFERENCES (joinReferences ids)) ids =
      headers.set REFERENCES
        (joinReferences (Trim.trimFront (fun ids => Fits (headers.without REFERENCES) ids) ids)) := by
  induction ids using Trim.trimFront.induct
      (fun ids => decide (Fits (headers.without REFERENCES) ids)) with
  | case1 a b rest hfits =>
      rw [trimReferences, referencesOversized_set, Trim.trimFront, if_pos hfits, hfits]
      rfl
  | case2 a b rest hfits ih =>
      rw [trimReferences, referencesOversized_set, Trim.trimFront, if_neg hfits,
        Bool.eq_false_iff.mpr hfits, Dict.set_set, ih]
      rfl
  | case3 ids hids =>
      rw [Trim.trimFront]
      · rw [trimReferences]
        exact hids
      · exact hids

/-! ### The object that is sent -/

variable (py message) in
/-- What is sent when the limits allow it. -/
def sentHeaders : Headers :=
  if chain py message = [] then collectHeaders py message.items
  else
    (collectHeaders py message.items).set REFERENCES (joinReferences
      (Trim.trimFront (fun ids => Fits (otherHeaders py message) ids) (chain py message)))

theorem checkHeaders_ok_iff {headers headers' : Headers} :
    checkHeaders headers = .ok headers' ↔ headers' = headers ∧ WithinLimits headers.rows := by
  have hlong : (headers.rows.filter fun row =>
      (utf8 row.2).length > MAX_HEADER_VALUE_BYTES).map Prod.fst = [] ↔
        ∀ row ∈ headers.rows, (utf8 row.2).length ≤ MAX_HEADER_VALUE_BYTES := by
    simp [List.filter_eq_nil_iff]
  have hcount : headers.keys.length = headers.rows.length := List.length_map ..
  unfold checkHeaders
  dsimp only
  split
  · rename_i hlimit
    refine iff_of_false (by simp) ?_
    intro h
    rcases hlimit with hvalue | hsize
    · exact hvalue (hlong.mpr h.2.values)
    · exact absurd h.2.size (by omega)
  · rename_i hlimit
    rw [not_or, not_not, hlong, not_lt] at hlimit
    split
    · rename_i hmany
      exact iff_of_false (by simp) fun h => absurd h.2.count (by omega)
    · rename_i hfew
      rw [Except.ok.injEq]
      exact ⟨fun h => ⟨h.symm, hlimit.1, hlimit.2, by omega⟩, fun h => h.1.symm⟩

theorem passthroughHeaders_eq (py : UnicodeData) (message : Message) :
    passthroughHeaders py message = checkHeaders (sentHeaders py message) := by
  unfold passthroughHeaders sentHeaders
  dsimp only
  rw [lookup_references]
  show checkHeaders (trimReferences (if chain py message ≠ [] then _ else _) (chain py message)) = _
  by_cases h : chain py message = []
  · rw [if_pos h, if_neg fun hne => hne h, h]
    rfl
  · rw [if_neg h, if_pos h]
    show checkHeaders (trimReferences ((collectHeaders py message.items).set REFERENCES
      (joinReferences (chain py message))) (chain py message)) = _
    rw [trimReferences_set, without_collectHeaders]

theorem passthroughHeaders_ok_iff {headers : Headers} :
    passthroughHeaders py message = .ok headers ↔
      headers = sentHeaders py message ∧ WithinLimits (sentHeaders py message).rows := by
  rw [passthroughHeaders_eq, checkHeaders_ok_iff]

variable (py message) in
/-- References is added to the names collected when ids are found and it was not among them. -/
theorem keys_sentHeaders :
    (sentHeaders py message).keys = (collectHeaders py message.items).keys ∨
      REFERENCES ∉ (collectHeaders py message.items).keys ∧
        (sentHeaders py message).keys = (collectHeaders py message.items).keys ++ [REFERENCES] := by
  unfold sentHeaders
  split
  · exact Or.inl rfl
  · rw [Dict.keys_set]
    split
    · exact Or.inl rfl
    · rename_i h
      exact Or.inr ⟨h, rfl⟩

/-- Another name has the value that was collected. -/
theorem lookup_sentHeaders {name : Str} (h : name ≠ REFERENCES) :
    (sentHeaders py message).lookup name = (collectHeaders py message.items).lookup name := by
  unfold sentHeaders
  split
  · rfl
  · rw [Dict.lookup_set, if_neg h]

theorem nodup_lower_keys : ((sentHeaders py message).keys.map py.lower).Nodup := by
  rcases keys_sentHeaders py message with hkeys | ⟨hnew, hkeys⟩
  · rw [hkeys, keys_collectHeaders, map_lower_spelling]
    exact nodup_allowedNames
  · rw [hkeys, List.map_append, keys_collectHeaders, map_lower_spelling]
    rw [references_mem_keys] at hnew
    refine nodup_allowedNames.append (List.nodup_singleton _) ?_
    simpa [lower_references] using hnew

/-- In the table's spelling, or a name of one's own. -/
def IsCloudflareName (py : UnicodeData) (name : Str) : Prop :=
  name ∈ ALLOWED_HEADERS ∨ "x-".toList <+: py.lower name

theorem isCloudflareName_spelling {lname : Str} (h : lname ∈ allowedNames py items) :
    IsCloudflareName py (spelling py items lname) := by
  obtain ⟨hallowed, -⟩ := mem_allowedNames.mp h
  cases hcanonical : canonicalHeaderName py lname with
  | some name =>
      refine Or.inl ?_
      unfold spelling
      rw [hcanonical]
      exact (of_canonicalHeaderName hcanonical).1
  | none =>
      refine Or.inr ?_
      rw [lower_spelling h]
      have hnot : lname ∉ ALLOWED_HEADERS.map py.lower := by
        rw [← isSome_canonicalHeaderName, hcanonical]
        exact Bool.false_ne_true
      simpa [isAllowedHeader, hnot, HEADER_ALLOWED_PREFIXES] using hallowed

theorem isCloudflareName_of_mem {name : Str} (h : name ∈ (sentHeaders py message).keys) :
    IsCloudflareName py name := by
  have hcollected : ∀ name ∈ (collectHeaders py message.items).keys, IsCloudflareName py name := by
    intro name hin
    rw [keys_collectHeaders] at hin
    obtain ⟨lname, hlname, rfl⟩ := List.mem_map.mp hin
    exact isCloudflareName_spelling hlname
  rcases keys_sentHeaders py message with hkeys | ⟨-, hkeys⟩
  · exact hcollected name (hkeys ▸ h)
  · rw [hkeys] at h
    rcases List.mem_append.mp h with hin | hin
    · exact hcollected name hin
    · rw [List.mem_singleton.mp hin]
      exact Or.inl (by decide +kernel)

/-- A value is somewhere in the join. -/
theorem infix_joinValues {values : List Str} {value : Str} (h : value ∈ values) :
    value <:+: joinValues values := by
  obtain ⟨first, rest, rfl⟩ := List.exists_cons_of_ne_nil (List.ne_nil_of_mem h)
  show value <:+: first ++ (rest.filter (· ≠ [])).flatMap (COMMA ++ ·)
  rcases List.mem_cons.mp h with rfl | hin
  · exact (List.prefix_append _ _).isInfix
  · by_cases hvalue : value = []
    · rw [hvalue]
      exact List.nil_infix
    · have hmem : value ∈ rest.filter (· ≠ []) := List.mem_filter.mpr ⟨hin, by simpa using hvalue⟩
      obtain ⟨before, after, hsplit⟩ := List.append_of_mem hmem
      rw [hsplit, List.flatMap_append, List.flatMap_cons]
      exact ⟨first ++ before.flatMap (COMMA ++ ·) ++ COMMA, after.flatMap (COMMA ++ ·), by simp⟩

/-- The item is under one of the names, with its value where the value is passed on as it is. -/
def Represented (py : UnicodeData) (headers : Headers) (item : Str × Str) : Prop :=
  ∃ name, (name ∈ headers.keys ∧ py.lower name = py.lower item.1) ∧
    (∀ other ∈ headers.keys, py.lower other = py.lower item.1 → other = name) ∧
    (name ≠ REFERENCES → ∃ value, headers.lookup name = some value ∧ strip item.2 <:+: value)

theorem represented_sentHeaders {item : Str × Str} (hitem : item ∈ message.items)
    (hallowed : isAllowedHeader py (py.lower item.1) = true) :
    Represented py (sentHeaders py message) item := by
  have hname : py.lower item.1 ∈ allowedNames py message.items :=
    mem_allowedNames.mpr ⟨hallowed, item, hitem, rfl⟩
  have hkey : spelling py message.items (py.lower item.1) ∈ (sentHeaders py message).keys := by
    have hin : spelling py message.items (py.lower item.1) ∈
        (collectHeaders py message.items).keys := by
      rw [keys_collectHeaders]
      exact List.mem_map_of_mem hname
    rcases keys_sentHeaders py message with hkeys | ⟨-, hkeys⟩
    · rwa [hkeys]
    · rw [hkeys]
      exact List.mem_append_left _ hin
  refine ⟨_, ⟨hkey, lower_spelling hname⟩, ?_, ?_⟩
  · intro other hother hlower
    exact List.inj_on_of_nodup_map nodup_lower_keys hother hkey
      (hlower.trans (lower_spelling hname).symm)
  · intro hne
    refine ⟨_, (lookup_sentHeaders hne).trans (lookup_collectHeaders hname), infix_joinValues ?_⟩
    exact List.mem_map.mpr ⟨item, List.mem_filter.mpr ⟨hitem, by simp⟩, rfl⟩

/-- What Cloudflare accepts for a message. -/
structure Accepted (py : UnicodeData) (message : Message) (headers : Headers) : Prop where
  names : ∀ name ∈ headers.keys, IsCloudflareName py name
  distinct : (headers.keys.map py.lower).Nodup
  represented : ∀ item ∈ message.items, isAllowedHeader py (py.lower item.1) = true →
    Represented py headers item
  limits : WithinLimits headers.rows

/--
**Every headers object that is returned is one Cloudflare accepts**, and no allowed header of
the message is missing from it.
-/
theorem passthroughHeaders_accepted {headers : Headers}
    (h : passthroughHeaders py message = .ok headers) : Accepted py message headers := by
  obtain ⟨rfl, hlimits⟩ := passthroughHeaders_ok_iff.mp h
  refine ⟨fun name hname => isCloudflareName_of_mem hname, nodup_lower_keys, ?_, hlimits⟩
  intro item hitem hallowed
  exact represented_sentHeaders hitem hallowed

theorem exists_headers_of_isOk (h : (passthroughHeaders py message).isOk = true) :
    ∃ headers, passthroughHeaders py message = .ok headers := by
  cases hresult : passthroughHeaders py message with
  | error e =>
      rw [hresult] at h
      cases h
  | ok headers => exact ⟨headers, rfl⟩

/-- A message that names a header of its own in two spellings, and its own id twice. -/
def taggedMessage : Message where
  items := [("x-TAG".toList, " one ".toList), ("Subject".toList, "s".toList),
    ("references".toList, "<a@x>,<own@x>\n".toList), ("X-Tag".toList, "".toList),
    ("Message-ID".toList, "<own@x> ".toList), ("X-Tag".toList, "two".toList)]

theorem passthroughHeaders_accepted_tagged :
    ∃ headers, passthroughHeaders asciiData taggedMessage = .ok headers ∧
      headers.rows = [("x-TAG".toList, "one, two".toList),
        ("References".toList, "<a@x> <own@x>".toList)] ∧
      Accepted asciiData taggedMessage headers := by
  have hrows : (sentHeaders asciiData taggedMessage).rows =
      [("x-TAG".toList, "one, two".toList), ("References".toList, "<a@x> <own@x>".toList)] := by
    decide +kernel
  obtain ⟨headers, hok⟩ : ∃ headers, passthroughHeaders asciiData taggedMessage = .ok headers :=
    exists_headers_of_isOk (by decide +kernel)
  refine ⟨headers, hok, ?_, passthroughHeaders_accepted hok⟩
  rw [(passthroughHeaders_ok_iff.mp hok).1, hrows]

end MailCloudflare
