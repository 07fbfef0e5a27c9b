/-
Numerals of a fixed width, most significant digit first.

A numeral is its digits, and a digit carries that it is below the base.  Among numerals of
one width the value determines the digits, and the order of the texts, first difference
first, is the order of the values: this is what makes such a numeral a key that sorts.
-/
import Mathlib.Data.Nat.Digits.Defs
import Mathlib.Order.Fin.Basic
import Mathlib.Data.List.Lex
import Mathlib.Tactic.Ring

namespace Radix

variable {b : Nat}

def value (ds : List (Fin b)) : Nat := Nat.ofDigits b (ds.reverse.map Fin.val)

@[simp] theorem value_nil : value ([] : List (Fin b)) = 0 := rfl

theorem value_append (ds es : List (Fin b)) :
    value (ds ++ es) = value ds * b ^ es.length + value es := by
  unfold value
  rw [List.reverse_append, List.map_append, Nat.ofDigits_append, List.length_map,
    List.length_reverse]
  ring

@[simp] theorem value_singleton (d : Fin b) : value [d] = d.val := by
  simp [value, Nat.ofDigits_singleton]

theorem value_cons (d : Fin b) (ds : List (Fin b)) :
    value (d :: ds) = d.val * b ^ ds.length + value ds := by
  rw [← List.singleton_append, value_append, value_singleton]

theorem value_concat (ds : List (Fin b)) (d : Fin b) :
    value (ds ++ [d]) = value ds * b + d.val := by
  rw [value_append, value_singleton, List.length_singleton, pow_one]

theorem value_lt (ds : List (Fin b)) : value ds < b ^ ds.length := by
  induction ds with
  | nil => exact Nat.one_pos
  | cons d ds ih =>
      rw [value_cons, List.length_cons, pow_succ, Nat.mul_comm (b ^ ds.length)]
      calc d.val * b ^ ds.length + value ds
          < d.val * b ^ ds.length + b ^ ds.length := Nat.add_lt_add_left ih _
        _ = (d.val + 1) * b ^ ds.length := by ring
        _ ≤ b * b ^ ds.length := Nat.mul_le_mul_right _ d.isLt

/-- The first digit decides, and the rest where the first ones are the same. -/
private theorem mul_add_lt_iff {w d e u v : Nat} (hu : u < w) (hv : v < w) :
    d * w + u < e * w + v ↔ d < e ∨ d = e ∧ u < v := by
  rcases lt_trichotomy d e with hlt | rfl | hlt
  · refine iff_of_true ?_ (Or.inl hlt)
    have hle : (d + 1) * w ≤ e * w := Nat.mul_le_mul_right w hlt
    rw [Nat.add_mul] at hle
    omega
  · simp
  · have hle : (e + 1) * w ≤ d * w := Nat.mul_le_mul_right w hlt
    rw [Nat.add_mul] at hle
    omega

/-- **Texts of one width are ordered as their values are.** -/
theorem lt_iff_value_lt {ds es : List (Fin b)} (h : ds.length = es.length) :
    ds < es ↔ value ds < value es := by
  induction ds generalizing es with
  | nil =>
      rw [List.eq_nil_of_length_eq_zero h.symm]
      simp
  | cons d ds ih =>
      obtain ⟨e, es, rfl⟩ := List.exists_cons_of_length_eq_add_one h.symm
      have hlength : ds.length = es.length := by simpa using h
      rw [List.cons_lt_cons_iff, value_cons, value_cons, hlength,
        mul_add_lt_iff (hlength ▸ value_lt ds) (value_lt es), ih hlength, Fin.lt_def, Fin.ext_iff]

/-- The value determines a text of known width. -/
theorem value_injective {ds es : List (Fin b)} (h : ds.length = es.length)
    (heq : value ds = value es) : ds = es := by
  rcases lt_trichotomy ds es with hlt | hsame | hlt
  · exact absurd ((lt_iff_value_lt h).mp hlt) (by omega)
  · exact hsame
  · exact absurd ((lt_iff_value_lt h.symm).mp hlt) (by omega)

/-! ### Writing a number -/

variable [NeZero b]

/-- The last `width` digits of a number. -/
def digits (b : Nat) [NeZero b] : Nat → Nat → List (Fin b)
  | 0, _ => []
  | width + 1, n => digits b width (n / b) ++ [Fin.ofNat b n]

theorem length_digits (width n : Nat) : (digits b width n).length = width := by
  induction width generalizing n with
  | zero => rfl
  | succ width ih => rw [digits, List.length_append, ih, List.length_singleton]

theorem value_digits {width n : Nat} (h : n < b ^ width) : value (digits b width n) = n := by
  induction width generalizing n with
  | zero =>
      rw [pow_zero, Nat.lt_one_iff] at h
      rw [h]
      rfl
  | succ width ih =>
      have hdiv : n / b < b ^ width := Nat.div_lt_of_lt_mul (by rwa [pow_succ, Nat.mul_comm] at h)
      rw [digits, value_concat, ih hdiv, Fin.val_ofNat]
      exact Nat.div_add_mod' n b

end Radix
