/-
Programs that reach their surroundings through calls.

A program is the value it ends with, or a call and what it does with the answer.  What a
call does is not part of it: a `Service` answers the calls on a state of its own, and may
fail to, which ends the program there.  So what is shown of a program's calls holds
whatever the answers are.  `run` has the state to itself; `Served` lets it change between
the calls, as it does for one of several clients.
-/
import Mathlib.Tactic.Common

inductive Program (Call : Type → Type) (α : Type) : Type 1
  | pure (a : α)
  | call {β : Type} (c : Call β) (next : β → Program Call α)

namespace Program

universe u

/-- What answers the calls; `none` is a call that fails. -/
structure Service (Call : Type → Type) (σ : Type u) where
  answer : {β : Type} → Call β → σ → Option β × σ

variable {Call : Type → Type} {σ : Type u} {α β : Type}

/-- The answer of one call, as a program. -/
def perform (c : Call β) : Program Call β := .call c .pure

def bind (program : Program Call α) (next : α → Program Call β) : Program Call β :=
  match program with
  | .pure a => next a
  | .call c rest => .call c fun b => (rest b).bind next

instance : Monad (Program Call) where
  pure := .pure
  bind := bind

@[simp] theorem pure_eq (a : α) : (Pure.pure a : Program Call α) = .pure a := rfl

@[simp] theorem perform_bind (c : Call β) (next : β → Program Call α) :
    (perform c >>= next) = .call c next := rfl

/-- What a program ends with, if no call fails, and the state it leaves behind. -/
def run (service : Service Call σ) : Program Call α → σ → Option α × σ
  | .pure a, s => (some a, s)
  | .call c next, s =>
    match service.answer c s with
    | (some b, s') => (next b).run service s'
    | (none, s') => (none, s')

/-- Every call the program makes is allowed, whatever the answers before it. -/
def Uses (allowed : {β : Type} → Call β → Prop) : Program Call α → Prop
  | .pure _ => True
  | .call c next => allowed c ∧ ∀ b, (next b).Uses allowed

/-- A program that ends with the answer to its only call leaves what the call leaves. -/
theorem run_call_of_pure {c : Call β} {next : β → Program Call α} (h : ∀ b, ∃ a, next b = .pure a)
    (service : Service Call σ) (s : σ) :
    ((Program.call c next).run service s).2 = (service.answer c s).2 := by
  unfold run
  split
  · rename_i b s' hanswer
    obtain ⟨a, hnext⟩ := h b
    rw [hanswer, hnext]
    rfl
  · rename_i s' hanswer
    rw [hanswer]

/-- **The frame rule.**  What every allowed call keeps of the state, the program keeps. -/
theorem run_related {R : σ → σ → Prop} (hrefl : ∀ s, R s s)
    (htrans : ∀ {s s' s''}, R s s' → R s' s'' → R s s'')
    {allowed : {β : Type} → Call β → Prop} {service : Service Call σ}
    (hcall : ∀ {β : Type} (c : Call β) (s : σ), allowed c → R s (service.answer c s).2)
    {program : Program Call α} (h : program.Uses allowed) (s : σ) :
    R s (program.run service s).2 := by
  induction program generalizing s with
  | pure a => exact hrefl s
  | call c next ih =>
      have hfirst := hcall c s h.1
      unfold run
      split
      · rename_i b s' hanswer
        rw [hanswer] at hfirst
        exact htrans hfirst (ih b (h.2 b) s')
      · rename_i s' hanswer
        rw [hanswer] at hfirst
        exact hfirst

/-! ### Among others -/

/--
A program that is not alone: before each call, and before it ends, the state may have moved
on.  What a call answers is a relation, `none` being a call that fails.
-/
inductive Served (moves : σ → σ → Prop)
    (answers : {β : Type} → Call β → σ → Option β → σ → Prop) :
    Program Call α → σ → Option α → σ → Prop
  | done {a : α} {s s' : σ} (hmoves : moves s s') : Served moves @answers (.pure a) s (some a) s'
  | answered {β : Type} {c : Call β} {next : β → Program Call α} {s s₁ s₂ s' : σ} {b : β}
      {r : Option α} (hmoves : moves s s₁) (hanswer : answers c s₁ (some b) s₂)
      (hrest : Served moves @answers (next b) s₂ r s') :
      Served moves @answers (.call c next) s r s'
  | failed {β : Type} {c : Call β} {next : β → Program Call α} {s s₁ s' : σ}
      (hmoves : moves s s₁) (hanswer : answers c s₁ none s') :
      Served moves @answers (.call c next) s none s'

section Served

variable {moves : σ → σ → Prop} {answers : {β : Type} → Call β → σ → Option β → σ → Prop}
  {s s' : σ} {r : Option α}

/-- What relates the states around every move and every call relates those around a program. -/
theorem Served.related {R : σ → σ → Prop} (htrans : ∀ {s s' s''}, R s s' → R s' s'' → R s s'')
    (hmoves : ∀ {s s'}, moves s s' → R s s')
    (hcall : ∀ {β : Type} {c : Call β} {s s' : σ} {b : Option β}, answers c s b s' → R s s')
    {program : Program Call α} (h : Served moves @answers program s r s') : R s s' := by
  induction h with
  | done hmoved => exact hmoves hmoved
  | answered hmoved hanswer _ ih => exact htrans (hmoves hmoved) (htrans (hcall hanswer) ih)
  | failed hmoved hanswer => exact htrans (hmoves hmoved) (hcall hanswer)

theorem served_pure {a : α} (h : Served moves @answers (.pure a) s r s') :
    r = some a ∧ moves s s' := by
  cases h with
  | done hmoves => exact ⟨rfl, hmoves⟩

/-- A program that begins with a call: it has been answered, or it failed. -/
theorem served_call {c : Call β} {next : β → Program Call α}
    (h : Served moves @answers (.call c next) s r s') :
    ∃ s₁, moves s s₁ ∧ ((∃ b s₂, answers c s₁ (some b) s₂ ∧ Served moves @answers (next b) s₂ r s') ∨
      r = none ∧ answers c s₁ none s') := by
  cases h with
  | answered hmoves hanswer hrest => exact ⟨_, hmoves, Or.inl ⟨_, _, hanswer, hrest⟩⟩
  | failed hmoves hanswer => exact ⟨_, hmoves, Or.inr ⟨rfl, hanswer⟩⟩

end Served

end Program
