/-
Dropping entries from the front of a list until the rest fits.

The last entry is never dropped.  What is left is the longest suffix that fits, or the last
entry alone when nothing does; so an entry is lost exactly when the suffix from its last
occurrence on does not fit.  Of `fits` only this is used: what fits goes on fitting when
entries are dropped from its front.
-/
import Mathlib.Data.List.Infix

namespace Trim

universe u

variable {α : Type u} {fits : List α → Bool} {l s : List α}

def trimFront (fits : List α → Bool) : List α → List α
  | a :: b :: rest => if fits (a :: b :: rest) then a :: b :: rest else trimFront fits (b :: rest)
  | l => l

/-- What fits goes on fitting, down to its last entry. -/
def SuffixClosed (fits : List α → Bool) : Prop :=
  ∀ s t : List α, s ≠ [] → s <:+ t → fits t = true → fits s = true

theorem trimFront_suffix (fits : List α → Bool) (l : List α) : trimFront fits l <:+ l := by
  induction l using trimFront.induct fits with
  | case1 a b rest hfits => rw [trimFront, if_pos hfits]
  | case2 a b rest hfits ih =>
      rw [trimFront, if_neg hfits]
      exact ih.trans (List.suffix_cons a _)
  | case3 l hl =>
      rw [trimFront]
      exact hl

theorem trimFront_ne_nil (h : l ≠ []) : trimFront fits l ≠ [] := by
  induction l using trimFront.induct fits with
  | case1 a b rest hfits =>
      rw [trimFront, if_pos hfits]
      exact h
  | case2 a b rest hfits ih =>
      rw [trimFront, if_neg hfits]
      exact ih (List.cons_ne_nil b rest)
  | case3 l hl =>
      rw [trimFront]
      · exact h
      · exact hl

/-- The loop stops because the rest fits, or because there is one entry left. -/
theorem trimFront_cases (fits : List α → Bool) (h : l ≠ []) :
    fits (trimFront fits l) = true ∨ trimFront fits l = [l.getLast h] := by
  induction l using trimFront.induct fits with
  | case1 a b rest hfits =>
      rw [trimFront, if_pos hfits]
      exact Or.inl hfits
  | case2 a b rest hfits ih =>
      rw [trimFront, if_neg hfits, List.getLast_cons (List.cons_ne_nil b rest)]
      exact ih (List.cons_ne_nil b rest)
  | case3 l hl =>
      match l with
      | [] => exact absurd rfl h
      | [a] => exact Or.inr rfl
      | a :: b :: rest => exact absurd rfl (hl a b rest)

/-- **No longer suffix fits.** -/
theorem length_le_trimFront (hne : s ≠ []) (hs : s <:+ l) (hfits : fits s = true) :
    s.length ≤ (trimFront fits l).length := by
  induction l using trimFront.induct fits with
  | case1 a b rest htop =>
      rw [trimFront, if_pos htop]
      exact hs.length_le
  | case2 a b rest htop ih =>
      rw [trimFront, if_neg htop]
      rcases List.suffix_cons_iff.mp hs with rfl | hrest
      · exact absurd hfits htop
      · exact ih hrest
  | case3 l hl =>
      rw [trimFront]
      · exact hs.length_le
      · exact hl

theorem getLast_suffix (h : l ≠ []) : [l.getLast h] <:+ l :=
  ⟨l.dropLast, List.dropLast_concat_getLast h⟩

theorem getLast_suffix_trimFront (h : l ≠ []) : [l.getLast h] <:+ trimFront fits l := by
  refine List.suffix_of_suffix_length_le (getLast_suffix h) (trimFront_suffix fits l) ?_
  exact List.length_pos_of_ne_nil (trimFront_ne_nil h)

/-- Something fits in the end exactly when the last entry does. -/
theorem fits_trimFront_iff (hclosed : SuffixClosed fits) (h : l ≠ []) :
    fits (trimFront fits l) = true ↔ fits [l.getLast h] = true := by
  rcases trimFront_cases fits h with hfits | hlast
  · exact iff_of_true hfits (hclosed _ _ (by simp) (getLast_suffix_trimFront h) hfits)
  · rw [hlast]

/-! ### The last occurrence of an entry -/

variable [DecidableEq α] {x : α}

/-- The suffix from the last occurrence of `x` on. -/
def fromLast (x : α) : List α → List α
  | [] => []
  | a :: rest => if x ∈ rest then fromLast x rest else if a = x then a :: rest else []

theorem fromLast_suffix (x : α) (l : List α) : fromLast x l <:+ l := by
  induction l with
  | nil => exact List.suffix_refl _
  | cons a rest ih =>
      unfold fromLast
      split
      · exact ih.trans (List.suffix_cons a rest)
      · split
        · exact List.suffix_refl _
        · exact List.nil_suffix

theorem mem_fromLast (h : x ∈ l) : x ∈ fromLast x l := by
  induction l with
  | nil => cases h
  | cons a rest ih =>
      unfold fromLast
      split
      · rename_i hrest
        exact ih hrest
      · rename_i hrest
        have heq : a = x := ((List.mem_cons.mp h).resolve_right hrest).symm
        rw [if_pos heq]
        exact h

/-- A suffix with `x` in it goes at least as far back as the last occurrence. -/
theorem fromLast_suffix_of_mem (hs : s <:+ l) (hx : x ∈ s) : fromLast x l <:+ s := by
  induction l with
  | nil => exact List.nil_suffix
  | cons a rest ih =>
      rcases List.suffix_cons_iff.mp hs with rfl | hrest
      · exact fromLast_suffix x _
      · unfold fromLast
        rw [if_pos (hrest.subset hx)]
        exact ih hrest

/-- **An entry is kept exactly when the suffix from its last occurrence on fits.** -/
theorem mem_trimFront_iff (hclosed : SuffixClosed fits) (hfits : fits (trimFront fits l) = true)
    (hx : x ∈ l) : x ∈ trimFront fits l ↔ fits (fromLast x l) = true := by
  have hne : fromLast x l ≠ [] := List.ne_nil_of_mem (mem_fromLast hx)
  constructor
  · intro hmem
    exact hclosed _ _ hne (fromLast_suffix_of_mem (trimFront_suffix fits l) hmem) hfits
  · intro hlast
    have hle := length_le_trimFront hne (fromLast_suffix x l) hlast
    have hsuffix := List.suffix_of_suffix_length_le (fromLast_suffix x l)
      (trimFront_suffix fits l) hle
    exact hsuffix.subset (mem_fromLast hx)

end Trim
