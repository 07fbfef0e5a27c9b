/-
A loop over attempts that logs what it does.

An attempt either ends the loop with a result or has it go on, with the error that is
then the last one.  When the attempts are used up the last error decides.
-/
import Mathlib.Data.List.Infix

namespace Retry

universe u v w

variable {κ : Type u} {ω α : Type v} {ε : Type w}

/-- What comes after an attempt. -/
inductive Next (α : Type v) (ε : Type w)
  | done (result : α)
  | again (error : ε)

/-- The log of an attempt, and what comes after it. -/
structure Attempt (ω α : Type v) (ε : Type w) where
  log : List ω
  next : Next α ε

def loop (attempt : κ → Attempt ω α ε) (exhausted : Option ε → α) :
    List κ → Option ε → List ω × α
  | [], last => ([], exhausted last)
  | k :: rest, _ =>
    match (attempt k).next with
    | .done result => ((attempt k).log, result)
    | .again error =>
      let (log, result) := loop attempt exhausted rest (some error)
      ((attempt k).log ++ log, result)

/-! ### Which attempts are made -/

def tried (attempt : κ → Attempt ω α ε) : List κ → List κ
  | [] => []
  | k :: rest =>
    match (attempt k).next with
    | .done _ => [k]
    | .again _ => k :: tried attempt rest

/-- The attempt has the loop go on. -/
def GoesOn (attempt : κ → Attempt ω α ε) (k : κ) : Prop := ∃ error, (attempt k).next = .again error

variable {attempt : κ → Attempt ω α ε} {exhausted : Option ε → α} {all : List κ} {k : κ}

theorem tried_of_done {result : α} (h : (attempt k).next = .done result) (rest : List κ) :
    tried attempt (k :: rest) = [k] := by
  rw [tried, h]

theorem tried_of_goesOn (h : GoesOn attempt k) (rest : List κ) :
    tried attempt (k :: rest) = k :: tried attempt rest := by
  obtain ⟨error, hnext⟩ := h
  rw [tried, hnext]

theorem loop_log (attempt : κ → Attempt ω α ε) (exhausted : Option ε → α) (all : List κ)
    (last : Option ε) :
    (loop attempt exhausted all last).1 = (tried attempt all).flatMap fun k => (attempt k).log := by
  induction all generalizing last with
  | nil => rfl
  | cons k rest ih =>
      unfold loop tried
      cases (attempt k).next with
      | done result => simp
      | again error =>
          show (attempt k).log ++ (loop attempt exhausted rest (some error)).1 = _
          rw [ih, List.flatMap_cons]

theorem tried_prefix (attempt : κ → Attempt ω α ε) (all : List κ) : tried attempt all <+: all := by
  induction all with
  | nil => exact List.prefix_rfl
  | cons k rest ih =>
      unfold tried
      cases (attempt k).next with
      | done result => exact ⟨rest, rfl⟩
      | again error => exact List.cons_prefix_cons.mpr ⟨rfl, ih⟩

/-- **Another attempt follows only when the loop goes on.** -/
theorem goesOn_of_mem_dropLast (h : k ∈ (tried attempt all).dropLast) : GoesOn attempt k := by
  induction all with
  | nil => cases h
  | cons j rest ih =>
      cases hnext : (attempt j).next with
      | done result =>
          rw [tried_of_done hnext] at h
          cases h
      | again error =>
          rw [tried_of_goesOn ⟨error, hnext⟩] at h
          cases hrest : tried attempt rest with
          | nil =>
              rw [hrest] at h
              cases h
          | cons j' more =>
              rw [hrest, List.dropLast_cons_cons] at h
              rcases List.mem_cons.mp h with rfl | hin
              · exact ⟨error, hnext⟩
              · exact ih (hrest ▸ hin)

/-- **An attempt is made when all those before it have the loop go on.** -/
theorem mem_tried {before rest : List κ} (h : ∀ j ∈ before, GoesOn attempt j) :
    k ∈ tried attempt (before ++ k :: rest) := by
  induction before with
  | nil =>
      show k ∈ tried attempt (k :: rest)
      unfold tried
      cases (attempt k).next with
      | done result => exact List.mem_singleton_self k
      | again error => exact List.mem_cons_self
  | cons j before ih =>
      obtain ⟨hj, hbefore⟩ := List.forall_mem_cons.mp h
      rw [List.cons_append, tried_of_goesOn hj]
      exact List.mem_cons_of_mem j (ih hbefore)

/-- And only then. -/
theorem exists_before_of_mem_tried (h : k ∈ tried attempt all) :
    ∃ before rest, all = before ++ k :: rest ∧ ∀ j ∈ before, GoesOn attempt j := by
  induction all with
  | nil => cases h
  | cons j rest ih =>
      cases hnext : (attempt j).next with
      | done result =>
          rw [tried_of_done hnext, List.mem_singleton] at h
          exact ⟨[], rest, by rw [h, List.nil_append], List.forall_mem_nil _⟩
      | again error =>
          rw [tried_of_goesOn ⟨error, hnext⟩] at h
          rcases List.mem_cons.mp h with rfl | hin
          · exact ⟨[], rest, List.nil_append _, List.forall_mem_nil _⟩
          · obtain ⟨before, behind, rfl, hbefore⟩ := ih hin
            exact ⟨j :: before, behind, rfl, List.forall_mem_cons.mpr ⟨⟨error, hnext⟩, hbefore⟩⟩

/-- Of attempts numbered from 1 the first ones are made. -/
theorem exists_tried_range' (attempt : Nat → Attempt ω α ε) (n : Nat) :
    ∃ m ≤ n, tried attempt (List.range' 1 n) = List.range' 1 m := by
  have hprefix := tried_prefix attempt (List.range' 1 n)
  have hlength := hprefix.length_le
  rw [List.length_range'] at hlength
  refine ⟨_, hlength, (List.prefix_iff_eq_take.mp hprefix).trans ?_⟩
  exact List.take_range'_of_length_ge hlength

/-- **Whether one of them is made is up to those before it.** -/
theorem mem_tried_range' {attempt : Nat → Attempt ω α ε} {n k : Nat} :
    k ∈ tried attempt (List.range' 1 n) ↔
      (1 ≤ k ∧ k ≤ n) ∧ ∀ j, 1 ≤ j → j < k → GoesOn attempt j := by
  constructor
  · intro h
    obtain ⟨before, rest, hsplit, hbefore⟩ := exists_before_of_mem_tried h
    have hk : k ∈ List.range' 1 n := hsplit ▸ List.mem_append_right _ List.mem_cons_self
    rw [List.mem_range'_1] at hk
    refine ⟨by omega, ?_⟩
    intro j hone hlt
    refine hbefore j ?_
    have hj : j ∈ before ++ k :: rest := by
      rw [← hsplit, List.mem_range'_1]
      omega
    have hsorted : (before ++ k :: rest).Pairwise (· < ·) := hsplit ▸ List.pairwise_lt_range'
    rcases List.mem_append.mp hj with hin | hin
    · exact hin
    · rcases List.mem_cons.mp hin with rfl | hrest
      · omega
      · have hbehind := (List.pairwise_cons.mp (List.pairwise_append.mp hsorted).2.1).1 j hrest
        omega
  · rintro ⟨⟨hone, hle⟩, hbefore⟩
    have hsplit : List.range' 1 n = List.range' 1 (k - 1) ++ k :: List.range' (k + 1) (n - k) := by
      have hsum : List.range' 1 n = List.range' 1 ((k - 1) + ((n - k) + 1)) := by
        congr 1
        omega
      have hstart : 1 + (k - 1) = k := by omega
      rw [hsum, ← List.range'_append_1, hstart, List.range'_succ]
    rw [hsplit]
    refine mem_tried ?_
    intro j hj
    rw [List.mem_range'_1] at hj
    exact hbefore j (by omega) (by omega)

/-! ### How it ends -/

/-- **A loop ends as its first attempt that is done says.** -/
theorem loop_of_done {before rest : List κ} {result : α} (hbefore : ∀ j ∈ before, GoesOn attempt j)
    (hdone : (attempt k).next = .done result) (last : Option ε) :
    (loop attempt exhausted (before ++ k :: rest) last).2 = result := by
  induction before generalizing last with
  | nil =>
      show (loop attempt exhausted (k :: rest) last).2 = result
      rw [loop, hdone]
  | cons j before ih =>
      obtain ⟨⟨error, hj⟩, hrest⟩ := List.forall_mem_cons.mp hbefore
      rw [List.cons_append, loop, hj]
      exact ih hrest (some error)

/-- **And otherwise as the last error says.** -/
theorem loop_of_goesOn (exhausted : Option ε → α) (last : Option ε)
    (h : ∀ j ∈ all, GoesOn attempt j) (hlast : all = [] → last.isSome = true) :
    ∃ error, (loop attempt exhausted all last).2 = exhausted (some error) := by
  induction all generalizing last with
  | nil =>
      obtain ⟨error, rfl⟩ := Option.isSome_iff_exists.mp (hlast rfl)
      exact ⟨error, rfl⟩
  | cons j rest ih =>
      obtain ⟨⟨error, hj⟩, hrest⟩ := List.forall_mem_cons.mp h
      rw [loop, hj]
      exact ih (some error) hrest fun _ => Option.isSome_some

/-- The attempts go on to the end, or one of them is the first that is done. -/
theorem goesOn_or_done (attempt : κ → Attempt ω α ε) (all : List κ) :
    (∀ j ∈ all, GoesOn attempt j) ∨
      ∃ before k rest result, all = before ++ k :: rest ∧ (∀ j ∈ before, GoesOn attempt j) ∧
        (attempt k).next = .done result := by
  induction all with
  | nil => exact Or.inl (List.forall_mem_nil _)
  | cons j rest ih =>
      cases hnext : (attempt j).next with
      | done result => exact Or.inr ⟨[], j, rest, result, rfl, List.forall_mem_nil _, hnext⟩
      | again error =>
          rcases ih with hall | ⟨before, k, behind, result, rfl, hbefore, hdone⟩
          · exact Or.inl (List.forall_mem_cons.mpr ⟨⟨error, hnext⟩, hall⟩)
          · exact Or.inr ⟨j :: before, k, behind, result, rfl,
              List.forall_mem_cons.mpr ⟨⟨error, hnext⟩, hbefore⟩, hdone⟩

end Retry
