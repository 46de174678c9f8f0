import PimDm.Foundation.ListLoop
import Mathlib.Logic.Relation

/-!
# Programs described by the updates they make

Every program that is built from single updates of the state is within the
relation `Does P` as soon as each of its updates is in `P`.  Whatever a steady
relation says of each update in `P` it then says of the program, so a program is
looked at once for all its invariants.
-/

namespace PimDm.Foundation

variable {σ ε update α β : Type} {apply : update → σ → σ}

/-- One state is reached from another by updates in `P`. -/
def Does (apply : update → σ → σ) (P : update → Prop) : σ → σ → Prop :=
  Relation.ReflTransGen fun first last => ∃ change, P change ∧ last = apply change first

theorem steady_does (apply : update → σ → σ) (P : update → Prop) : Steady (Does apply P) :=
  ⟨fun _ => .refl, .trans⟩

/-- A steady relation across each update is one across all of them. -/
theorem does_relates {P : update → Prop} {R : σ → σ → Prop} (steady : Steady R)
    (each : ∀ change state, P change → R state (apply change state)) {first last : σ}
    (done : Does apply P first last) : R first last := by
  induction done with
  | refl => exact steady.refl _
  | tail _ taken ih =>
      obtain ⟨change, inside, rfl⟩ := taken
      exact steady.trans ih (each change _ inside)

theorem does_mono {P Q : update → Prop} (weaker : ∀ change, P change → Q change) {first last : σ}
    (done : Does apply P first last) : Does apply Q first last :=
  does_relates (steady_does apply Q)
    (fun change _ inside => .single ⟨change, weaker change inside, rfl⟩) done

theorem within_of_does {P : update → Prop} {R : σ → σ → Prop} {program : Program σ ε α}
    (done : Within (Does apply P) program) (steady : Steady R)
    (each : ∀ change state, P change → R state (apply change state)) : Within R program :=
  within_mono (fun _ _ => does_relates steady each) done

section Rules

variable {P : update → Prop}

theorem does_weaken {Q : update → Prop} {program : Program σ ε α}
    (done : Within (Does apply P) program) (weaker : ∀ change, P change → Q change) :
    Within (Does apply Q) program :=
  within_mono (fun _ _ => does_mono weaker) done

theorem does_pure (value : α) : Within (Does apply P) (pure value : Program σ ε α) :=
  within_pure (steady_does apply P) value

theorem does_bind {first : Program σ ε α} {rest : α → Program σ ε β}
    (head : Within (Does apply P) first) (tail : ∀ value, Within (Does apply P) (rest value)) :
    Within (Does apply P) (first >>= rest) :=
  within_bind (steady_does apply P) head tail

theorem does_get : Within (Does apply P) (get : Program σ ε σ) := within_get (steady_does apply P)

theorem does_modify {function : σ → σ} (change : update) (inside : P change)
    (same : ∀ state, function state = apply change state) :
    Within (Does apply P) (modify function : Program σ ε PUnit) :=
  within_modify fun state => .single ⟨change, inside, same state⟩

theorem does_onlyIf {condition : Prop} [Decidable condition] {program : Program σ ε Unit}
    (inside : condition → Within (Does apply P) program) :
    Within (Does apply P) (onlyIf condition program) :=
  within_onlyIf (steady_does apply P) inside

theorem does_times {body : α → Program σ ε α} (inside : ∀ value, Within (Does apply P) (body value))
    (count : Nat) (value : α) : Within (Does apply P) (times body count value) :=
  within_times (steady_does apply P) inside count value

theorem does_foldProgram {body : β → α → Program σ ε β} (items : List α) (value : β)
    (inside : ∀ item ∈ items, ∀ value, Within (Does apply P) (body value item)) :
    Within (Does apply P) (foldProgram body items value) :=
  within_foldProgram (steady_does apply P) items value inside

theorem does_forEach {heap : σ → Heap α} {next : α → Ptr} {raise : HeapFault → ε}
    {body : Ptr → Program σ ε Unit} (inside : ∀ address, Within (Does apply P) (body address))
    (fuel : Nat) (start : Ptr) : Within (Does apply P) (forEach heap next raise body fuel start) :=
  within_forEach (steady_does apply P) inside fuel start

end Rules

end PimDm.Foundation
