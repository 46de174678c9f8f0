import Mathlib.Data.Set.Insert
import Mathlib.Order.Defs.LinearOrder

/-!
# Electing the smallest candidate

Candidates are heard one after another.  One below a bound takes the place of `nobody`,
and after that one below the winner takes its place.  Who has won depends on the set of
the candidates, not on their order and not on how often each was heard.
-/

namespace PimDm.Foundation

variable {α β : Type} [LinearOrder β] {rank : α → β} {bound : β} {nobody : α}

/-- The winner among the candidates: the smallest if it is below the bound, and `nobody` if
none is. -/
def IsWinner (rank : α → β) (bound : β) (nobody : α) (heard : Set α) (winner : α) : Prop :=
  (winner = nobody ∧ ∀ a ∈ heard, bound ≤ rank a) ∨
    (winner ≠ nobody ∧ winner ∈ heard ∧ rank winner < bound ∧ ∀ a ∈ heard, rank winner ≤ rank a)

/-- The winner after one more candidate. -/
def vote [DecidableEq α] (rank : α → β) (bound : β) (nobody winner a : α) : α :=
  if winner = nobody then
    if rank a < bound then a else nobody
  else if rank a < rank winner then a
  else winner

namespace IsWinner

variable {heard others : Set α} {winner other a : α}

theorem start : IsWinner rank bound nobody ∅ nobody := Or.inl ⟨rfl, fun _ absurd => absurd.elim⟩

theorem vote [DecidableEq α] (wins : IsWinner rank bound nobody heard winner) (somebody : a ≠ nobody) :
    IsWinner rank bound nobody (insert a heard) (vote rank bound nobody winner a) := by
  unfold Foundation.vote
  rcases wins with ⟨rfl, none⟩ | ⟨one, member, below, least⟩
  · rw [if_pos rfl]
    by_cases smaller : rank a < bound
    · rw [if_pos smaller]
      refine Or.inr ⟨somebody, Set.mem_insert a heard, smaller, fun b hears => ?_⟩
      rcases Set.mem_insert_iff.mp hears with rfl | before
      · exact le_refl _
      · exact le_of_lt (lt_of_lt_of_le smaller (none b before))
    · rw [if_neg smaller]
      refine Or.inl ⟨rfl, fun b hears => ?_⟩
      rcases Set.mem_insert_iff.mp hears with rfl | before
      · exact not_lt.mp smaller
      · exact none b before
  · rw [if_neg one]
    by_cases smaller : rank a < rank winner
    · rw [if_pos smaller]
      refine Or.inr ⟨somebody, Set.mem_insert a heard, smaller.trans below, fun b hears => ?_⟩
      rcases Set.mem_insert_iff.mp hears with rfl | before
      · exact le_refl _
      · exact le_of_lt (lt_of_lt_of_le smaller (least b before))
    · rw [if_neg smaller]
      refine Or.inr ⟨one, Set.mem_insert_of_mem a member, below, fun b hears => ?_⟩
      rcases Set.mem_insert_iff.mp hears with rfl | before
      · exact not_lt.mp smaller
      · exact least b before

/-- Only one candidate wins. -/
theorem unique (wins : IsWinner rank bound nobody heard winner) (also : IsWinner rank bound nobody heard other)
    (distinct : Function.Injective rank) : winner = other := by
  rcases wins with ⟨rfl, none⟩ | ⟨_, member, below, least⟩
  · rcases also with ⟨rfl, _⟩ | ⟨_, member, below, _⟩
    · rfl
    · exact absurd below (not_lt.mpr (none other member))
  · rcases also with ⟨rfl, none⟩ | ⟨_, inside, _, lowest⟩
    · exact absurd below (not_lt.mpr (none winner member))
    · exact distinct (le_antisymm (least other inside) (lowest winner member))

end IsWinner

end PimDm.Foundation
