import Mathlib.Order.Basic

/-!
# Endless loops that are left with `break`

The body of a `while (1)` either goes on with a new state or leaves the loop with its last one.
The loop takes fuel.  An invariant with a measure that each round makes smaller gives the end of
the loop, which is the same with any fuel beyond the measure, and what holds there.
-/

namespace PimDm.Foundation

variable {σ : Type}

/-- What a round of a loop does: the next round starts in a state, or the loop is left in one. -/
inductive Round (σ : Type) where
  | again (next : σ)
  | leave (last : σ)
  deriving DecidableEq, Repr

/-- `while (1)` with the given body. -/
def whileTrue (round : σ → Round σ) : Nat → σ → Option σ
  | 0, _ => none
  | fuel + 1, state =>
      match round state with
      | .again next => whileTrue round fuel next
      | .leave last => some last

variable {round : σ → Round σ}

theorem whileTrue_again {state next : σ} (goes : round state = .again next) (fuel : Nat) :
    whileTrue round (fuel + 1) state = whileTrue round fuel next := by
  rw [whileTrue, goes]

theorem whileTrue_leave {state last : σ} (leaves : round state = .leave last) (fuel : Nat) :
    whileTrue round (fuel + 1) state = some last := by
  rw [whileTrue, leaves]

/-- What one round must do for a loop to end with `Q`: keep the invariant and come closer to the
end, or leave with `Q`. -/
structure Progress (round : σ → Round σ) (I : σ → Prop) (Q : σ → Prop) (measure : σ → Nat) : Prop where
  again : ∀ state next, I state → round state = .again next → I next ∧ measure next < measure state
  leave : ∀ state last, I state → round state = .leave last → Q last

/-- The rule of the loop: it ends, and in the same way with any fuel beyond its measure. -/
theorem whileTrue_ends {I Q : σ → Prop} {measure : σ → Nat} (progress : Progress round I Q measure)
    {state : σ} (inside : I state) :
    ∃ last, (∀ fuel, measure state < fuel → whileTrue round fuel state = some last) ∧ Q last := by
  induction left : measure state using Nat.strongRecOn generalizing state with
  | _ count ih =>
      cases turn : round state with
      | leave last =>
          refine ⟨last, fun fuel enough => ?_, progress.leave state last inside turn⟩
          obtain ⟨fuel, rfl⟩ := Nat.exists_eq_add_of_lt enough
          exact whileTrue_leave turn _
      | again next =>
          obtain ⟨kept, closer⟩ := progress.again state next inside turn
          obtain ⟨last, ends, good⟩ := ih _ (left ▸ closer) kept rfl
          refine ⟨last, fun fuel enough => ?_, good⟩
          obtain ⟨fuel, rfl⟩ := Nat.exists_eq_add_of_lt enough
          rw [whileTrue_again turn]
          exact ends _ (by omega)

end PimDm.Foundation
