/-
Dictionaries that keep the order in which their keys were first set.

A dictionary is a table of pairs with the key for primary key.  Setting a key that is there
changes its value where it stands, setting one that is not puts it at the end.  The rows
under the other keys are the same before and after, in the same order, which is what lets
one entry be rewritten again and again while nothing is said about the rest.
-/
import MailCloudflare.Base.Keyed

namespace Keyed

universe u v

variable {κ : Type u} {ν : Type v}

abbrev Dict (κ : Type u) (ν : Type v) := Table (Prod.fst : κ × ν → κ)

namespace Dict

def keys (d : Dict κ ν) : List κ := d.rows.map Prod.fst

theorem nodup_rows (d : Dict κ ν) : d.rows.Nodup := d.nodup.of_map Prod.fst

variable [DecidableEq κ]

/-- `d.get(k)`. -/
def lookup (d : Dict κ ν) (k : κ) : Option ν := (d.get? k).map Prod.snd

/-- `d[k] = v`. -/
def set (d : Dict κ ν) (k : κ) (v : ν) : Dict κ ν :=
  if k ∈ d.keys then d.updateWhere (fun row => row.1 = k) (fun row => (row.1, v)) fun _ => rfl
  else d.insertOrIgnore (k, v)

/-- The rows under the other keys. -/
def without (d : Dict κ ν) (k : κ) : List (κ × ν) := d.rows.filter fun row => row.1 ≠ k

variable {d : Dict κ ν} {k : κ}

theorem lookup_eq_none_iff : d.lookup k = none ↔ k ∉ d.keys := by
  rw [lookup, Option.map_eq_none_iff, ← Option.not_isSome_iff_eq_none, Table.isSome_get?_iff, keys]

theorem mem_rows_iff_lookup {row : κ × ν} : row ∈ d.rows ↔ d.lookup row.1 = some row.2 := by
  rw [Table.mem_rows_iff, lookup]
  constructor
  · intro h
    rw [h]
    rfl
  · intro h
    obtain ⟨found, hfound, hvalue⟩ := Option.map_eq_some_iff.mp h
    rw [hfound, Option.some.injEq]
    exact Prod.ext (Table.key_of_get? hfound) hvalue

/-! ### Setting a key -/

theorem rows_set_of_mem (h : k ∈ d.keys) (v : ν) :
    (d.set k v).rows = d.rows.map fun row => if row.1 = k then (row.1, v) else row := by
  unfold set
  rw [if_pos h]
  simp [Table.updateWhere]

theorem rows_set_of_notMem (h : k ∉ d.keys) (v : ν) : (d.set k v).rows = d.rows ++ [(k, v)] := by
  unfold set
  rw [if_neg h, Table.rows_insertOrIgnore h]

theorem lookup_set (d : Dict κ ν) (k k' : κ) (v : ν) :
    (d.set k v).lookup k' = if k' = k then some v else d.lookup k' := by
  unfold lookup set
  split
  · rename_i h
    rw [Table.get?_updateWhere]
    cases hget : d.get? k' with
    | none =>
        have hne : k' ≠ k := by
          rintro rfl
          rw [keys, ← Table.isSome_get?_iff, hget] at h
          cases h
        simp [hne]
    | some row =>
        have hkey := Table.key_of_get? hget
        by_cases hk : k' = k <;> simp [hk, hkey]
  · rename_i h
    rw [Table.get?_insertOrIgnore]
    by_cases hk : k' = k
    · subst hk
      rw [keys, ← Table.isSome_get?_iff, Option.not_isSome_iff_eq_none] at h
      simp [h]
    · simp [hk, Ne.symm hk]

theorem keys_set (d : Dict κ ν) (k : κ) (v : ν) :
    (d.set k v).keys = if k ∈ d.keys then d.keys else d.keys ++ [k] := by
  split
  · rename_i h
    rw [keys, rows_set_of_mem h, List.map_map]
    refine List.map_congr_left ?_
    intro row _
    by_cases hrow : row.1 = k <;> simp [hrow]
  · rename_i h
    rw [keys, rows_set_of_notMem h, List.map_append]
    rfl

theorem mem_keys_set (d : Dict κ ν) (k : κ) (v : ν) : k ∈ (d.set k v).keys := by
  rw [keys_set]
  split
  · assumption
  · simp

/-- What was set first is not there any more. -/
theorem set_set (d : Dict κ ν) (k : κ) (v w : ν) : (d.set k v).set k w = d.set k w := by
  have hrows : ((d.set k v).set k w).rows = (d.set k w).rows := by
    rw [rows_set_of_mem (mem_keys_set d k v)]
    by_cases h : k ∈ d.keys
    · rw [rows_set_of_mem h, rows_set_of_mem h, List.map_map]
      refine List.map_congr_left ?_
      intro row _
      by_cases hrow : row.1 = k <;> simp [hrow]
    · rw [rows_set_of_notMem h, rows_set_of_notMem h, List.map_append]
      congr 1
      · refine (List.map_congr_left fun row hrow => ?_).trans (List.map_id _)
        rw [if_neg]
        · rfl
        · rintro rfl
          exact h (List.mem_map_of_mem hrow)
      · simp
  cases hfirst : (d.set k v).set k w
  cases hsecond : d.set k w
  rw [hfirst, hsecond] at hrows
  cases hrows
  rfl

/-- The other rows stay as they are. -/
theorem without_set (d : Dict κ ν) (k : κ) (v : ν) : (d.set k v).without k = d.without k := by
  by_cases h : k ∈ d.keys
  · rw [without, rows_set_of_mem h, without]
    induction d.rows with
    | nil => rfl
    | cons row rest ih =>
        rw [List.map_cons, List.filter_cons, List.filter_cons, ih]
        by_cases hrow : row.1 = k <;> simp [hrow]
  · rw [without, rows_set_of_notMem h, List.filter_append]
    simp [without]

/-- All the rows, up to their order. -/
theorem perm_rows_set (d : Dict κ ν) (k : κ) (v : ν) :
    (d.set k v).rows.Perm (d.without k ++ [(k, v)]) := by
  have hnodup : (d.without k ++ [(k, v)]).Nodup := by
    refine (d.nodup_rows.filter _).append (List.nodup_singleton _) ?_
    intro row hrow heq
    rw [List.mem_singleton.mp heq] at hrow
    simpa using (List.mem_filter.mp hrow).2
  refine (List.perm_ext_iff_of_nodup (nodup_rows _) hnodup).mpr ?_
  intro row
  rw [mem_rows_iff_lookup, lookup_set, List.mem_append, List.mem_singleton, without, List.mem_filter]
  by_cases hrow : row.1 = k
  · simp [hrow, Prod.ext_iff, eq_comm]
  · simp [hrow, mem_rows_iff_lookup, Prod.ext_iff]

end Dict

end Keyed
