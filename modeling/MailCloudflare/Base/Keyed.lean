/-
Tables with a primary key.

A table is a list of rows, in the order they were inserted, no two of which share a
key.  The operations are the ones an SQL statement performs on one table: insert a row
unless its key is taken, change the rows a condition selects, delete the rows a
condition selects.  Each keeps the keys distinct by construction, so nothing built with
them has to re-establish it.

Everything above is meant to read a table through `get?`, the row under a key, and the
`get?` lemmas say what each operation does to that.
-/
import Mathlib.Data.List.Nodup
import Mathlib.Tactic.Common

namespace Keyed

universe u v

variable {κ : Type u} {ρ : Type v} {key : ρ → κ}

/-- Rows no two of which share a key. -/
structure Table (key : ρ → κ) where
  rows : List ρ
  nodup : (rows.map key).Nodup

namespace Table

/-- The table without rows. -/
def empty : Table key := ⟨[], List.nodup_nil⟩

/-- Change the rows `p` selects.  The columns that make up the key are not among those `f` sets. -/
def updateWhere (t : Table key) (p : ρ → Bool) (f : ρ → ρ) (hf : ∀ r, key (f r) = key r) :
    Table key where
  rows := t.rows.map fun r => if p r then f r else r
  nodup := by
    have hkeys : (t.rows.map fun r => if p r then f r else r).map key = t.rows.map key := by
      rw [List.map_map]
      refine List.map_congr_left fun r _ => ?_
      by_cases hp : p r = true <;> simp [hp, hf]
    rw [hkeys]
    exact t.nodup

/-- Delete the rows `p` selects. -/
def deleteWhere (t : Table key) (p : ρ → Bool) : Table key where
  rows := t.rows.filter fun r => !p r
  nodup := t.nodup.sublist (List.filter_sublist.map key)

/-- Two rows of a table with one key are one row. -/
theorem eq_of_key_eq {t : Table key} {r q : ρ} (hr : r ∈ t.rows) (hq : q ∈ t.rows)
    (hkey : key r = key q) : r = q :=
  List.inj_on_of_nodup_map t.nodup hr hq hkey

@[simp] theorem rows_empty : (empty : Table key).rows = [] := rfl

theorem mem_updateWhere {t : Table key} {p : ρ → Bool} {f : ρ → ρ} {hf : ∀ r, key (f r) = key r}
    {q : ρ} : q ∈ (t.updateWhere p f hf).rows ↔
      ∃ r ∈ t.rows, (if p r then f r else r) = q := by
  simp [updateWhere]

theorem mem_deleteWhere {t : Table key} {p : ρ → Bool} {q : ρ} :
    q ∈ (t.deleteWhere p).rows ↔ q ∈ t.rows ∧ p q = false := by
  simp [deleteWhere, List.mem_filter]

/-! ### The row under a key -/

variable [DecidableEq κ]

/-- The row under a key. -/
def get? (t : Table key) (k : κ) : Option ρ :=
  t.rows.find? fun r => key r = k

/-- Add a row, unless its key is taken. -/
def insertOrIgnore (t : Table key) (r : ρ) : Table key :=
  if h : (t.get? (key r)).isSome then t
  else
    { rows := t.rows ++ [r]
      nodup := by
        rw [List.map_append, List.nodup_append]
        refine ⟨t.nodup, by simp, ?_⟩
        intro a ha b hb hab
        obtain ⟨q, hq, rfl⟩ := List.mem_map.mp ha
        have hkey : key q = key r := by simpa [hab] using hb
        exact h (List.find?_isSome.mpr ⟨q, hq, by simpa using hkey⟩) }

theorem key_of_get? {t : Table key} {k : κ} {r : ρ} (h : t.get? k = some r) : key r = k := by
  simpa using List.find?_some h

theorem mem_of_get? {t : Table key} {k : κ} {r : ρ} (h : t.get? k = some r) : r ∈ t.rows :=
  List.mem_of_find?_eq_some h

/-- A row of the table is what its key reads back. -/
theorem get?_of_mem {t : Table key} {r : ρ} (h : r ∈ t.rows) : t.get? (key r) = some r := by
  have hsome : (t.get? (key r)).isSome := List.find?_isSome.mpr ⟨r, h, by simp⟩
  obtain ⟨q, hq⟩ := Option.isSome_iff_exists.mp hsome
  rw [hq, eq_of_key_eq (mem_of_get? hq) h (key_of_get? hq)]

theorem key_ne_of_get? {t : Table key} {k k' : κ} {r : ρ} (h : t.get? k = some r) (hne : k' ≠ k) :
    key r ≠ k' :=
  fun hkey => hne (hkey.symm.trans (key_of_get? h))

theorem mem_rows_iff {t : Table key} {r : ρ} : r ∈ t.rows ↔ t.get? (key r) = some r :=
  ⟨get?_of_mem, mem_of_get?⟩

theorem get?_eq_none_iff {t : Table key} {k : κ} :
    t.get? k = none ↔ ∀ r ∈ t.rows, key r ≠ k := by
  simp [get?, List.find?_eq_none]

theorem isSome_get?_iff {t : Table key} {k : κ} : (t.get? k).isSome ↔ k ∈ t.rows.map key := by
  simp [get?, List.find?_isSome]

theorem rows_insertOrIgnore {t : Table key} {r : ρ} (h : key r ∉ t.rows.map key) :
    (t.insertOrIgnore r).rows = t.rows ++ [r] := by
  unfold insertOrIgnore
  rw [dif_neg fun htaken => h (isSome_get?_iff.mp htaken)]

theorem mem_insertOrIgnore {t : Table key} {r q : ρ} (h : q ∈ (t.insertOrIgnore r).rows) :
    q ∈ t.rows ∨ q = r := by
  unfold insertOrIgnore at h
  split at h
  · exact Or.inl h
  · simpa using h

/-- An insertion adds a key, whether it adds a row or not. -/
theorem mem_keys_insertOrIgnore {t : Table key} {r : ρ} {k : κ} :
    k ∈ (t.insertOrIgnore r).rows.map key ↔ k ∈ t.rows.map key ∨ k = key r := by
  unfold insertOrIgnore
  split
  · rename_i htaken
    rw [isSome_get?_iff] at htaken
    constructor
    · exact Or.inl
    · rintro (hk | rfl)
      · exact hk
      · exact htaken
  · simp

/-! ### What each operation does to the row under a key -/

@[simp] theorem get?_empty (k : κ) : (empty : Table key).get? k = none := rfl

theorem get?_insertOrIgnore (t : Table key) (r : ρ) (k : κ) :
    (t.insertOrIgnore r).get? k = (t.get? k).or (if key r = k then some r else none) := by
  unfold insertOrIgnore
  split
  · rename_i h
    by_cases hk : key r = k
    · subst hk
      obtain ⟨q, hq⟩ := Option.isSome_iff_exists.mp h
      simp [hq]
    · simp [hk]
  · simp only [get?, List.find?_append, List.find?_cons, List.find?_nil]
    by_cases hk : key r = k <;> simp [hk]

theorem get?_updateWhere (t : Table key) (p : ρ → Bool) (f : ρ → ρ) (hf : ∀ r, key (f r) = key r)
    (k : κ) :
    (t.updateWhere p f hf).get? k = (t.get? k).map fun r => if p r then f r else r := by
  simp only [get?, updateWhere, List.find?_map]
  congr 2
  funext r
  by_cases hp : p r = true <;> simp [hp, hf]

/-- An update that does not select a row leaves it alone. -/
theorem get?_updateWhere_of_not {t : Table key} {p : ρ → Bool} {f : ρ → ρ}
    (hf : ∀ r, key (f r) = key r) {k : κ} (h : ∀ r, t.get? k = some r → p r = false) :
    (t.updateWhere p f hf).get? k = t.get? k := by
  rw [get?_updateWhere]
  cases hget : t.get? k with
  | none => rfl
  | some r => simp [h r hget]

theorem get?_deleteWhere (t : Table key) (p : ρ → Bool) (k : κ) :
    (t.deleteWhere p).get? k = (t.get? k).filter fun r => !p r := by
  cases h : (t.deleteWhere p).get? k with
  | some r =>
      obtain ⟨hmem, hp⟩ := mem_deleteWhere.mp (mem_of_get? h)
      rw [← key_of_get? h, get?_of_mem hmem]
      simp [Option.filter, hp]
  | none =>
      cases ht : t.get? k with
      | none => rfl
      | some r =>
          have hp : p r = true := by
            by_contra hnp
            have hmem := mem_deleteWhere.mpr ⟨mem_of_get? ht, by simpa using hnp⟩
            exact get?_eq_none_iff.mp h r hmem (key_of_get? ht)
          simp [Option.filter, hp]

/-- A deletion that does not select a row leaves it alone. -/
theorem get?_deleteWhere_of_not {t : Table key} {p : ρ → Bool} {k : κ}
    (h : ∀ r, t.get? k = some r → p r = false) : (t.deleteWhere p).get? k = t.get? k := by
  rw [get?_deleteWhere]
  cases hget : t.get? k with
  | none => rfl
  | some r => simp [Option.filter, h r hget]

/-- A deletion that selects whatever is under a key leaves nothing there. -/
theorem get?_deleteWhere_of_all {t : Table key} {p : ρ → Bool} {k : κ}
    (h : ∀ r, t.get? k = some r → p r = true) : (t.deleteWhere p).get? k = none := by
  rw [get?_deleteWhere]
  cases hget : t.get? k with
  | none => rfl
  | some r => simp [Option.filter, h r hget]

end Table

end Keyed
