/-
When a repeated header is joined without debris.

The first value of a name is taken as it stands and only the later ones are looked at: an
empty first value leaves the separator behind that was to follow it.
-/
import MailCloudflare.Proofs.Headers

namespace MailCloudflare

open Unicode Python Keyed

variable {py : UnicodeData} {message : Message}

/-- The values that say something, joined in order. -/
def joinNonEmpty (values : List Str) : Str := COMMA.intercalate (values.filter (· ≠ []))

/-- Every name but References has the join of what its headers say. -/
def JoinedHeaders (py : UnicodeData) (message : Message) (headers : Headers) : Prop :=
  ∀ name ∈ headers.keys, name ≠ REFERENCES →
    headers.lookup name = some (joinNonEmpty (headerValues py message.items (py.lower name)))

/-- An allowed name other than References says something first, or nothing at all. -/
def FirstValuesSay (py : UnicodeData) (message : Message) : Prop :=
  ∀ lname ∈ allowedNames py message.items, lname ≠ "references".toList →
    (headerValues py message.items lname).head? = some [] →
      ∀ value ∈ headerValues py message.items lname, value = []

/-! ### One name -/

theorem intercalate_eq_flatMap (first : Str) (rest : List Str) :
    COMMA.intercalate (first :: rest) = first ++ rest.flatMap (COMMA ++ ·) := by
  induction rest generalizing first with
  | nil => simp
  | cons next rest ih =>
      rw [List.intercalate_cons_cons, ih, List.flatMap_cons]
      simp only [List.append_assoc]

/-- A separator in front of each value is one more than between them. -/
theorem flatMap_ne_intercalate (first : Str) (rest : List Str) :
    (first :: rest).flatMap (COMMA ++ ·) ≠ COMMA.intercalate (first :: rest) := by
  intro heq
  have hlength := congrArg List.length heq
  rw [intercalate_eq_flatMap, List.flatMap_cons] at hlength
  simp only [List.length_append] at hlength
  have hcomma : COMMA.length = 2 := rfl
  omega

/-- With a first value that says something the two joins are one. -/
theorem joinValues_of_ne {first : Str} (h : first ≠ []) (rest : List Str) :
    joinValues (first :: rest) = joinNonEmpty (first :: rest) := by
  unfold joinNonEmpty
  rw [List.filter_cons_of_pos (by simpa using h), intercalate_eq_flatMap]
  rfl

/-- With an empty one the join begins with the separator. -/
theorem joinValues_nil (rest : List Str) :
    joinValues ([] :: rest) = joinNonEmpty ([] :: rest) ↔ ∀ value ∈ rest, value = [] := by
  have hempty : rest.filter (· ≠ []) = [] ↔ ∀ value ∈ rest, value = [] := by
    simp [List.filter_eq_nil_iff]
  unfold joinNonEmpty
  rw [List.filter_cons_of_neg (by simp), ← hempty]
  show (rest.filter (· ≠ [])).flatMap (COMMA ++ ·) = _ ↔ _
  cases rest.filter (· ≠ []) with
  | nil => simp
  | cons said others =>
      exact iff_of_false (flatMap_ne_intercalate said others) (List.cons_ne_nil _ _)

theorem joinValues_eq_iff {values : List Str} (h : values ≠ []) :
    joinValues values = joinNonEmpty values ↔
      (values.head? = some [] → ∀ value ∈ values, value = []) := by
  obtain ⟨first, rest, rfl⟩ := List.exists_cons_of_ne_nil h
  by_cases hfirst : first = []
  · rw [hfirst, joinValues_nil]
    simp
  · rw [joinValues_of_ne hfirst]
    simp [hfirst]

/-! ### Every name -/

/-- The names sent besides References are the spellings of the names used. -/
theorem mem_keys_sentHeaders {name : Str} (hne : name ≠ REFERENCES) :
    name ∈ (sentHeaders py message).keys ↔
      ∃ lname ∈ allowedNames py message.items, spelling py message.items lname = name := by
  have hcollected : name ∈ (sentHeaders py message).keys ↔
      name ∈ (collectHeaders py message.items).keys := by
    rcases keys_sentHeaders py message with hkeys | ⟨-, hkeys⟩
    · rw [hkeys]
    · rw [hkeys, List.mem_append, List.mem_singleton, or_iff_left hne]
  rw [hcollected, keys_collectHeaders, List.mem_map]

theorem spelling_eq_references_iff {lname : Str} (h : lname ∈ allowedNames py message.items) :
    spelling py message.items lname = REFERENCES ↔ lname = "references".toList := by
  constructor
  · intro heq
    have hlower := lower_spelling h
    rw [heq, lower_references] at hlower
    exact hlower.symm
  · rintro rfl
    exact spelling_references

/--
**A headers object that is returned has its values joined without debris exactly when no name
begins with an empty value and then says something.**
-/
theorem passthroughHeaders_joined_iff {headers : Headers}
    (h : passthroughHeaders py message = .ok headers) :
    JoinedHeaders py message headers ↔ FirstValuesSay py message := by
  obtain ⟨rfl, -⟩ := passthroughHeaders_ok_iff.mp h
  have hvalues : ∀ lname ∈ allowedNames py message.items,
      headerValues py message.items lname ≠ [] := by
    intro lname hlname hnil
    exact (headerValues_eq_nil_iff (mem_allowedNames.mp hlname).1).mp hnil hlname
  constructor
  · intro hjoined lname hlname hne
    have hspelling := mt (spelling_eq_references_iff hlname).mp hne
    have hlookup := hjoined _ ((mem_keys_sentHeaders hspelling).mpr ⟨lname, hlname, rfl⟩) hspelling
    rw [lookup_sentHeaders hspelling, lookup_collectHeaders hlname, lower_spelling hlname,
      Option.some_inj] at hlookup
    exact (joinValues_eq_iff (hvalues lname hlname)).mp hlookup
  · intro hsay name hname hne
    obtain ⟨lname, hlname, rfl⟩ := (mem_keys_sentHeaders hne).mp hname
    have hlower := mt (spelling_eq_references_iff hlname).mpr hne
    rw [lookup_sentHeaders hne, lookup_collectHeaders hlname, lower_spelling hlname,
      (joinValues_eq_iff (hvalues lname hlname)).mpr (hsay lname hlname hlower)]

/-- A header of the sender's own that is empty the first time. -/
def blankTagMessage : Message where
  items := [("X-Tag".toList, []), ("x-tag".toList, "b".toList)]

theorem passthroughHeaders_joined_tagged :
    ∃ headers, passthroughHeaders asciiData taggedMessage = .ok headers ∧
      FirstValuesSay asciiData taggedMessage ∧ JoinedHeaders asciiData taggedMessage headers := by
  obtain ⟨headers, hok⟩ : ∃ headers, passthroughHeaders asciiData taggedMessage = .ok headers :=
    exists_headers_of_isOk (by decide +kernel)
  have hall : (allowedNames asciiData taggedMessage.items).all (fun lname =>
      (headerValues asciiData taggedMessage.items lname).head? != some []) = true := by
    decide +kernel
  have hsay : FirstValuesSay asciiData taggedMessage := by
    intro lname hlname _ hhead
    have hsays := List.all_eq_true.mp hall lname hlname
    rw [hhead] at hsays
    exact absurd hsays (by decide)
  exact ⟨headers, hok, hsay, (passthroughHeaders_joined_iff hok).mpr hsay⟩

/-- Its value is a comma, a space and what it says the second time. -/
theorem passthroughHeaders_blank :
    ∃ headers, passthroughHeaders asciiData blankTagMessage = .ok headers ∧
      headers.lookup "X-Tag".toList = some ", b".toList ∧
      joinNonEmpty (headerValues asciiData blankTagMessage.items "x-tag".toList) = "b".toList ∧
      ¬ JoinedHeaders asciiData blankTagMessage headers := by
  obtain ⟨headers, hok⟩ : ∃ headers, passthroughHeaders asciiData blankTagMessage = .ok headers :=
    exists_headers_of_isOk (by decide +kernel)
  have hsent := (passthroughHeaders_ok_iff.mp hok).1
  have hlookup : headers.lookup "X-Tag".toList = some ", b".toList := by
    rw [hsent]
    decide +kernel
  refine ⟨headers, hok, hlookup, by decide +kernel, ?_⟩
  intro hjoined
  have hkey : "X-Tag".toList ∈ headers.keys := by
    rw [hsent]
    decide +kernel
  have hvalue := hjoined _ hkey (by decide +kernel)
  rw [hlookup] at hvalue
  exact absurd hvalue (by decide +kernel)

end MailCloudflare
