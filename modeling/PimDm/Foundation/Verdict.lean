import PimDm.Foundation.Program

/-!
# How a program ends

A verdict foretells how a program ends from a state: with no fault, or with this one.  Verdicts
compose as the programs do, and a program has only one from each state.
-/

namespace PimDm.Foundation

variable {σ ε α β : Type}

/-- From this state the program completes, or stops with the fault. -/
def EndsAs (program : Program σ ε α) (start : σ) : Option ε → Prop
  | none => ∃ value final, Runs program start value final
  | some fault => Fails program start fault

section Rules

variable {program : Program σ ε α} {start middle final : σ} {value : α} {fault : ε} {verdict also : Option ε}

theorem endsAs_runs (run : Runs program start value final) : EndsAs program start none := ⟨value, final, run⟩

theorem endsAs_congr {other : Program σ ε α} (same : program start = other start) (ends : EndsAs other start verdict) :
    EndsAs program start verdict := by
  cases verdict with
  | none =>
      obtain ⟨value, final, run⟩ := ends
      exact ⟨value, final, same.trans run⟩
  | some fault => exact same.trans ends

theorem EndsAs.fails_iff (ends : EndsAs program start verdict) : Fails program start fault ↔ verdict = some fault := by
  constructor
  · intro fails
    cases verdict with
    | none =>
        obtain ⟨_, _, run⟩ := ends
        exact (not_fails_of_runs run fails).elim
    | some foretold => exact congrArg some (Except.error.inj (ends.symm.trans fails))
  · rintro rfl
    exact ends

theorem EndsAs.completes_iff {program : Program σ ε Unit} (ends : EndsAs program start verdict) :
    (∃ final, Runs program start () final) ↔ verdict = none := by
  constructor
  · rintro ⟨_, run⟩
    cases verdict with
    | none => rfl
    | some foretold => exact (not_fails_of_runs run ends).elim
  · rintro rfl
    obtain ⟨_, final, run⟩ := ends
    exact ⟨final, run⟩

theorem endsAs_bind {first : Program σ ε α} {rest : α → Program σ ε β} (value : α)
    (head : Runs first start value middle)
    (tail : EndsAs (rest value) middle verdict) : EndsAs (first >>= rest) start verdict := by
  cases verdict with
  | none =>
      obtain ⟨result, final, run⟩ := tail
      exact ⟨result, final, runs_bind.mpr ⟨value, middle, head, run⟩⟩
  | some fault => exact fails_bind.mpr (Or.inr ⟨value, middle, head, tail⟩)

theorem endsAs_bind_fails {first : Program σ ε α} {rest : α → Program σ ε β} (head : Fails first start fault) :
    EndsAs (first >>= rest) start (some fault) := fails_bind.mpr (Or.inl head)

theorem endsAs_get_bind {rest : σ → Program σ ε α} (tail : EndsAs (rest start) start verdict) :
    EndsAs (get >>= rest) start verdict :=
  endsAs_bind start (runs_get.mpr ⟨rfl, rfl⟩) tail

theorem endsAs_ite {condition : Prop} [Decidable condition] {yes no : Program σ ε α}
    (left : condition → EndsAs yes start verdict) (right : ¬ condition → EndsAs no start also) :
    EndsAs (if condition then yes else no) start (if condition then verdict else also) := by
  by_cases holds : condition
  · rw [if_pos holds, if_pos holds]
    exact left holds
  · rw [if_neg holds, if_neg holds]
    exact right holds

end Rules

end PimDm.Foundation
