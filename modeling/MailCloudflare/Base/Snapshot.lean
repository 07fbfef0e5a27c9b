/-
Transactions under snapshot isolation.

A database is the list of the transactions that have committed, newest first.  A
transaction reads the list as it was when it began, and it can commit only if nothing that
has committed since has updated a row that it has updated too: the first of two such
transactions wins and the other is aborted.

A read is not a conflict, so two transactions may each miss what the other inserts.  What
rules this out is a row that both of them update: of the transactions that update one row,
each has seen all that committed before it (`mem_snapshot_of_updates`), and so what none of
them does after seeing it done is done at most once (`countP_commit_le_one`).
-/
import Mathlib.Data.List.Basic
import Mathlib.Tactic.Common

namespace Snapshot

universe u v

variable {ρ : Type u} {ε : Type v}

/-- What a transaction writes: the rows it updates, and whatever else it does. -/
structure Writes (ρ : Type u) (ε : Type v) where
  updates : List ρ
  effect : ε
  deriving DecidableEq

/-- A transaction under way, with the database as it sees it. -/
structure Tx (ρ : Type u) (ε : Type v) where
  snapshot : List (Writes ρ ε)
  writes : Writes ρ ε
  deriving DecidableEq

namespace Tx

/-- What has committed since the transaction began. -/
def since (tx : Tx ρ ε) (log : List (Writes ρ ε)) : List (Writes ρ ε) :=
  log.take (log.length - tx.snapshot.length)

theorem since_append_snapshot {tx : Tx ρ ε} {log : List (Writes ρ ε)} (h : tx.snapshot <:+ log) :
    tx.since log ++ tx.snapshot = log := by
  obtain ⟨newer, rfl⟩ := h
  simp [since]

variable [DecidableEq ρ]

/-- A row of the transaction has been updated by another that committed since. -/
def conflicts (tx : Tx ρ ε) (log : List (Writes ρ ε)) : Bool :=
  (tx.since log).any fun c => c.updates.any fun r => r ∈ tx.writes.updates

/-- The commit; `none` is the concurrency error. -/
def commit (tx : Tx ρ ε) (log : List (Writes ρ ε)) : Option (List (Writes ρ ε)) :=
  if tx.conflicts log then none else some (tx.writes :: log)

theorem commit_eq_some {tx : Tx ρ ε} {log log' : List (Writes ρ ε)} :
    tx.commit log = some log' ↔ tx.conflicts log = false ∧ tx.writes :: log = log' := by
  unfold commit
  split <;> simp_all

/--
**Of the transactions that update one row, each has seen all before it**: what has updated
a row of a transaction that can commit is in its snapshot.
-/
theorem mem_snapshot_of_updates {tx : Tx ρ ε} {log : List (Writes ρ ε)}
    (hsnapshot : tx.snapshot <:+ log) (hfree : tx.conflicts log = false) {r : ρ}
    (hr : r ∈ tx.writes.updates) {c : Writes ρ ε} (hc : c ∈ log) (hcr : r ∈ c.updates) :
    c ∈ tx.snapshot := by
  rw [← since_append_snapshot hsnapshot, List.mem_append] at hc
  refine hc.resolve_left fun hsince => ?_
  have hconflict : tx.conflicts log = true := by
    refine List.any_eq_true.mpr ⟨c, hsince, List.any_eq_true.mpr ⟨r, hcr, ?_⟩⟩
    simpa using hr
  rw [hfree] at hconflict
  cases hconflict

/-- **What no transaction does after seeing it done is done at most once**, when all who do it
update one row. -/
theorem countP_commit_le_one {p : Writes ρ ε → Bool} {r : ρ} {tx : Tx ρ ε}
    {log : List (Writes ρ ε)} (hsnapshot : tx.snapshot <:+ log)
    (hfree : tx.conflicts log = false)
    (hupdates : ∀ c ∈ tx.writes :: log, p c = true → r ∈ c.updates)
    (hunseen : p tx.writes = true → ∀ c ∈ tx.snapshot, p c = false) (honce : log.countP p ≤ 1) :
    (tx.writes :: log).countP p ≤ 1 := by
  cases hp : p tx.writes with
  | false => rwa [List.countP_cons_of_neg (by simp [hp])]
  | true =>
      have hnone : log.countP p = 0 := by
        rw [List.countP_eq_zero]
        intro c hc hpc
        have hseen := mem_snapshot_of_updates hsnapshot hfree
          (hupdates tx.writes List.mem_cons_self hp) hc
          (hupdates c (List.mem_cons_of_mem _ hc) hpc)
        rw [hunseen hp c hseen] at hpc
        cases hpc
      have hone : (tx.writes :: log).countP p = 1 := by rw [List.countP_cons_of_pos hp, hnone]
      exact Nat.le_of_eq hone

end Tx

end Snapshot
