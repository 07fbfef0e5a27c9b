/-
Transition systems whose steps are computed.

A system is a function `step : σ → α → Option σ`: the action `a` says which party
moves and what its environment answered, and `none` says that the action cannot
happen in the state.  What a run may do is narrowed by a side condition `ok` on the
state and the action taken in it, so that one system serves statements made under
different assumptions about its environment.

`Reachable` is what a statement about every run quantifies over, `invariant` is the
rule such a statement is proved with, and `runActions` is the same run as a function,
for the runs that are written out.
-/
import Mathlib.Logic.Relation
import Mathlib.Tactic.Common

namespace Transition

universe u v

variable {σ : Type u} {α : Type v}

/-- The states a run from `s₀` can be in, every step of it taken under `ok`. -/
inductive Reachable (step : σ → α → Option σ) (ok : σ → α → Prop) (s₀ : σ) : σ → Prop
  | start : Reachable step ok s₀ s₀
  | step {s s' : σ} (h : Reachable step ok s₀ s) (a : α) (hok : ok s a)
      (hs : step s a = some s') : Reachable step ok s₀ s'

variable {step : σ → α → Option σ} {ok ok' : σ → α → Prop} {s₀ s₁ s : σ}

namespace Reachable

/--
**The invariant rule.**  What holds at the start and is kept by every step holds in
every state of every run.  The step may use that its own state is reachable, so
invariants already established are at hand.
-/
theorem invariant {Inv : σ → Prop} (hinit : Inv s₀)
    (hstep : ∀ s a s', Reachable step ok s₀ s → Inv s → ok s a → step s a = some s' → Inv s')
    (h : Reachable step ok s₀ s) : Inv s := by
  induction h with
  | start => exact hinit
  | @step s s' hreach a hok hs ih => exact hstep s a s' hreach ih hok hs

/-- A run under a stronger side condition is a run under a weaker one. -/
theorem weaken (himp : ∀ s a, ok s a → ok' s a) (h : Reachable step ok s₀ s) :
    Reachable step ok' s₀ s := by
  induction h with
  | start => exact .start
  | step _ a hok hs ih => exact .step ih a (himp _ a hok) hs

/-- Whatever was asked of its steps, a run is a run. -/
theorem any (h : Reachable step ok s₀ s) : Reachable step (fun _ _ => True) s₀ s :=
  h.weaken fun _ _ _ => trivial

/-- Runs compose. -/
theorem trans (h₁ : Reachable step ok s₀ s₁) (h₂ : Reachable step ok s₁ s) :
    Reachable step ok s₀ s := by
  induction h₂ with
  | start => exact h₁
  | step _ a hok hs ih => exact .step ih a hok hs

/--
**The simulation rule.**  When every step of one system is a step of another, or nothing to
it, a run of the first is a run of the second.  `R` says which states belong together.
-/
theorem simulate {τ β : Type*} {step' : τ → β → Option τ} {ok' : τ → β → Prop} {t₀ : τ}
    {R : σ → τ → Prop} (hinit : R s₀ t₀)
    (hstep : ∀ s a s' t, R s t → ok s a → step s a = some s' →
      R s' t ∨ ∃ b t', ok' t b ∧ step' t b = some t' ∧ R s' t')
    (h : Reachable step ok s₀ s) : ∃ t, Reachable step' ok' t₀ t ∧ R s t := by
  induction h with
  | start => exact ⟨t₀, .start, hinit⟩
  | @step s s' hreach a hok hs ih =>
      obtain ⟨t, hreach', hrelated⟩ := ih
      rcases hstep s a s' t hrelated hok hs with hsame | ⟨b, t', hok', hs', hrelated'⟩
      · exact ⟨t, hreach', hsame⟩
      · exact ⟨t', .step hreach' b hok' hs', hrelated'⟩

/-- A run of several parties, seen from one of them. -/
theorem project {τ β : Type*} {step' : τ → β → Option τ} {ok' : τ → β → Prop} (f : σ → τ)
    (hstep : ∀ s a s', ok s a → step s a = some s' →
      f s' = f s ∨ ∃ b, ok' (f s) b ∧ step' (f s) b = some (f s'))
    (h : Reachable step ok s₀ s) : Reachable step' ok' (f s₀) (f s) := by
  obtain ⟨t, hreach, rfl⟩ := simulate (R := fun s t => f s = t) rfl (by
    rintro s a s' _ rfl hok hs
    rcases hstep s a s' hok hs with hsame | ⟨b, hok', hs'⟩
    · exact Or.inl hsame
    · exact Or.inr ⟨b, f s', hok', hs', rfl⟩) h
  exact hreach

end Reachable

/-! ### Loops -/

/-- A loop whose every turn is a step of a relation goes along the relation. -/
theorem reflTransGen_foldlM {β : Type*} {R : σ → σ → Prop} {turn : σ → β → Option σ}
    {items : List β} (hturn : ∀ b ∈ items, ∀ s s', turn s b = some s' → R s s') {s s' : σ}
    (h : items.foldlM turn s = some s') : Relation.ReflTransGen R s s' := by
  induction items generalizing s with
  | nil =>
      cases h
      exact .refl
  | cons b rest ih =>
      rw [List.foldlM_cons] at h
      obtain ⟨s₁, hfirst, hrest⟩ := Option.bind_eq_some_iff.mp h
      refine .head (hturn b (by simp) s s₁ hfirst) (ih ?_ hrest)
      intro c hc
      exact hturn c (List.mem_cons_of_mem b hc)

/-! ### Runs that are written out -/

/-- The state the listed actions lead to, or `none` when one of them cannot be taken. -/
def runActions (step : σ → α → Option σ) (ok : σ → α → Prop)
    [∀ s a, Decidable (ok s a)] : σ → List α → Option σ
  | s, [] => some s
  | s, a :: rest =>
    if ok s a then
      match step s a with
      | some s' => runActions step ok s' rest
      | none => none
    else none

theorem reachable_runActions [∀ s a, Decidable (ok s a)] :
    ∀ (actions : List α) (s₁ : σ), Reachable step ok s₀ s₁ →
      runActions step ok s₁ actions = some s → Reachable step ok s₀ s := by
  intro actions
  induction actions with
  | nil =>
      intro s₁ h hrun
      simp only [runActions, Option.some.injEq] at hrun
      exact hrun ▸ h
  | cons a rest ih =>
      intro s₁ h hrun
      simp only [runActions] at hrun
      split at hrun
      · rename_i hok
        split at hrun
        · rename_i s' hs
          exact ih s' (.step h a hok hs) hrun
        · simp at hrun
      · simp at hrun

/-- A written-out run that ends in a state with `good` shows that some run does. -/
theorem exists_reachable_of_runActions [∀ s a, Decidable (ok s a)] {good : σ → Bool}
    (actions : List α) (h : (runActions step ok s₀ actions).any good = true) :
    ∃ s, Reachable step ok s₀ s ∧ good s = true := by
  rw [Option.any_eq_true] at h
  obtain ⟨s, hrun, hgood⟩ := h
  exact ⟨s, reachable_runActions actions s₀ .start hrun, hgood⟩

end Transition
