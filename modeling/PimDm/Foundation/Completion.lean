import PimDm.Foundation.ListLoop

/-!
# Programs that complete

`Runs` says what a program does if it completes.  `Achieves` says that it does complete,
from every state with a property, and what it leaves.
-/

namespace PimDm.Foundation

variable {σ ε α β : Type}

/-- From every state with `P` the program completes, and its value and state have `Q`. -/
def Achieves (P : σ → Prop) (program : Program σ ε α) (Q : α → σ → Prop) : Prop :=
  ∀ s, P s → ∃ value s', Runs program s value s' ∧ Q value s'

section Rules

variable {P : σ → Prop} {Q R : α → σ → Prop}

theorem Achieves.mono {program : Program σ ε α} (achieves : Achieves P program Q)
    (weaker : ∀ value s, Q value s → R value s) : Achieves P program R := by
  intro s holds
  obtain ⟨value, s', run, left⟩ := achieves s holds
  exact ⟨value, s', run, weaker value s' left⟩

/-- A program that completes leaves what every run of it leaves. -/
theorem Achieves.of_runs {program : Program σ ε α} (achieves : Achieves P program Q)
    (left : ∀ s value s', P s → Runs program s value s' → R value s') : Achieves P program R := by
  intro s holds
  obtain ⟨value, s', run, _⟩ := achieves s holds
  exact ⟨value, s', run, left s value s' holds run⟩

theorem achieves_pure {value : α} (holds : ∀ s, P s → Q value s) :
    Achieves P (pure value : Program σ ε α) Q :=
  fun s start => ⟨value, s, runs_pure.mpr ⟨rfl, rfl⟩, holds s start⟩

theorem achieves_modify {function : σ → σ} {after : PUnit → σ → Prop}
    (holds : ∀ s, P s → after ⟨⟩ (function s)) :
    Achieves P (modify function : Program σ ε PUnit) after :=
  fun s start => ⟨⟨⟩, function s, runs_modify.mpr rfl, holds s start⟩

theorem achieves_bind {first : Program σ ε α} {rest : α → Program σ ε β} {after : β → σ → Prop}
    (head : Achieves P first Q) (tail : ∀ value, Achieves (Q value) (rest value) after) :
    Achieves P (first >>= rest) after := by
  intro s start
  obtain ⟨value, middle, ran, reached⟩ := head s start
  obtain ⟨result, s', continued, left⟩ := tail value middle reached
  exact ⟨result, s', runs_bind.mpr ⟨value, middle, ran, continued⟩, left⟩

theorem achieves_get_bind {rest : σ → Program σ ε α}
    (tail : ∀ state, P state → Achieves (fun s => s = state) (rest state) Q) :
    Achieves P (get >>= rest) Q := by
  intro s start
  obtain ⟨value, s', run, left⟩ := tail s start s rfl
  exact ⟨value, s', runs_get_bind.mpr run, left⟩

theorem achieves_ite {condition : Prop} [Decidable condition] {yes no : Program σ ε α}
    (left : condition → Achieves P yes Q) (right : ¬ condition → Achieves P no Q) :
    Achieves P (if condition then yes else no) Q := by
  by_cases holds : condition
  · simpa only [if_pos holds] using left holds
  · simpa only [if_neg holds] using right holds

theorem achieves_onlyIf {condition : Prop} [Decidable condition] {program : Program σ ε Unit}
    (inside : condition → Achieves P program fun _ => P) :
    Achieves P (onlyIf condition program) fun _ => P :=
  achieves_ite inside fun _ => achieves_pure fun _ => id

/-- A pure fact that the states ahead share may be used on the way. -/
theorem achieves_of_fact {fact : Prop} {program : Program σ ε α}
    (inside : fact → Achieves P program Q) : Achieves (fun s => fact ∧ P s) program Q :=
  fun s holds => inside holds.1 s holds.2

end Rules

/-- The loop over a list of addresses completes if every round does and keeps `P`. -/
theorem achieves_forList {P : σ → Prop} {body : Ptr → Program σ ε Unit} {addresses : List Ptr}
    (inside : ∀ address ∈ addresses, Achieves P (body address) fun _ => P) :
    Achieves P (forList body addresses) fun _ => P := by
  induction addresses with
  | nil => exact achieves_pure fun _ => id
  | cons address rest ih =>
      refine achieves_bind (inside address (List.mem_cons_self ..)) fun _ => ?_
      exact ih fun other member => inside other (List.mem_cons_of_mem _ member)

/-- So does a fold over a list, if every round keeps `P` whatever the value is. -/
theorem achieves_foldProgram {P : σ → Prop} {body : β → α → Program σ ε β} {items : List α}
    (inside : ∀ item ∈ items, ∀ value, Achieves P (body value item) fun _ => P) (value : β) :
    Achieves P (foldProgram body items value) fun _ => P := by
  induction items generalizing value with
  | nil => exact achieves_pure fun _ => id
  | cons item rest ih =>
      refine achieves_bind (inside item (List.mem_cons_self ..) value) fun next => ?_
      exact ih (fun other member => inside other (List.mem_cons_of_mem _ member)) next

/-- So does a counted loop, if every round does from whatever value it starts. -/
theorem achieves_rounds {P : σ → Prop} {body : α → Program σ ε α}
    (inside : ∀ value, Achieves P (body value) fun _ => P) (count : Nat) (value : α) :
    Achieves P (times body count value) fun _ => P := by
  induction count generalizing value with
  | zero => exact achieves_pure fun _ => id
  | succ count ih => exact achieves_bind (inside value) fun next => ih next

end PimDm.Foundation
