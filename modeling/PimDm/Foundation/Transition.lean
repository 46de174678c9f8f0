import Mathlib.Logic.Relation

/-!
# Runs of a labelled transition relation

`Reaches step allowed` relates two states when steps lead from the first to the
second and every event on the way was allowed in the state it happened in.  An
executable step function gives runs by replay, and a history that the system does
not read can be kept beside its steps.
-/

namespace PimDm.Foundation

variable {σ ε event fault : Type} {step : σ → event → σ → Prop}

/-- Steps lead from one state to another, each with an allowed event. -/
def Reaches (step : σ → event → σ → Prop) (allowed : σ → event → Prop) : σ → σ → Prop :=
  Relation.ReflTransGen fun first last => ∃ label, allowed first label ∧ step first label last

namespace Reaches

variable {allowed permitted : σ → event → Prop}

theorem refl (state : σ) : Reaches step allowed state state := Relation.ReflTransGen.refl

theorem trans {first middle last : σ} (left : Reaches step allowed first middle)
    (right : Reaches step allowed middle last) : Reaches step allowed first last :=
  Relation.ReflTransGen.trans left right

theorem snoc {first middle last : σ} {label : event} (run : Reaches step allowed first middle)
    (may : allowed middle label) (taken : step middle label last) :
    Reaches step allowed first last :=
  Relation.ReflTransGen.tail run ⟨label, may, taken⟩

theorem cons {first middle last : σ} {label : event} (may : allowed first label)
    (taken : step first label middle) (run : Reaches step allowed middle last) :
    Reaches step allowed first last :=
  Relation.ReflTransGen.head ⟨label, may, taken⟩ run

/-- A run whose events are allowed is one whose events are permitted, if all these are. -/
theorem mono {first last : σ} (run : Reaches step allowed first last)
    (weaker : ∀ state label, allowed state label → permitted state label) : Reaches step permitted first last := by
  induction run with
  | refl => exact .refl first
  | tail _ taken ih =>
      obtain ⟨label, may, taken⟩ := taken
      exact ih.snoc (weaker _ label may) taken

/-- What every allowed step keeps holds of every state reached. -/
theorem keeps {P : σ → Prop} {first last : σ} (run : Reaches step allowed first last)
    (start : P first)
    (kept : ∀ before label after, P before → allowed before label → step before label after →
      P after) : P last := by
  induction run with
  | refl => exact start
  | tail _ taken ih =>
      obtain ⟨label, may, taken⟩ := taken
      exact kept _ label _ ih may taken

/-- A reflexive and transitive relation across every allowed step holds across the run. -/
theorem relates {R : σ → σ → Prop} {first last : σ} (run : Reaches step allowed first last)
    (same : ∀ state, R state state)
    (joined : ∀ {a b c}, R a b → R b c → R a c)
    (kept : ∀ before label after, allowed before label → step before label after →
      R before after) : R first last := by
  refine run.keeps (same first) fun before label after so_far may taken => ?_
  exact joined so_far (kept before label after may taken)

end Reaches

/-- Every run from here ends. -/
def Ends (step : σ → event → σ → Prop) (start : σ) : Prop :=
  Acc (fun after before => ∃ label, step before label after) start

/-- A number that every step lowers. -/
theorem ends_of_measure {P : σ → Prop} (measure : σ → Nat)
    (kept : ∀ before label after, P before → step before label after → P after)
    (lower : ∀ before label after, P before → step before label after → measure after < measure before)
    {start : σ} (holds : P start) : Ends step start := by
  induction size : measure start using Nat.strongRecOn generalizing start with
  | ind bound ih =>
      refine Acc.intro start ?_
      rintro after ⟨label, taken⟩
      have less := lower start label after holds taken
      exact ih (measure after) (size ▸ less) (kept start label after holds taken) rfl

/-- A run that can always go on. -/
theorem endless {P : σ → Prop} (more : ∀ state, P state → ∃ label after, step state label after ∧ P after)
    {start : σ} (holds : P start) : ¬ Ends step start := by
  intro ends
  induction ends with
  | intro state _ ih =>
      obtain ⟨label, after, taken, still⟩ := more state holds
      exact ih after ⟨label, taken⟩ still

/-- Steps of a system beside the history that `note` keeps of them. -/
def Monitored {γ : Type} (step : σ → event → σ → Prop) (note : σ → event → σ → γ → γ) (before : σ × γ)
    (label : event) (after : σ × γ) : Prop :=
  step before.1 label after.1 ∧ after.2 = note before.1 label after.1 before.2

/-- Take the events one after another with a step function that may fail. -/
def replay (next : σ → event → Except fault σ) : List event → σ → Except fault σ
  | [], state => .ok state
  | label :: rest, state =>
      match next state label with
      | .error reason => .error reason
      | .ok after => replay next rest after

/-- A replay that ends is a run. -/
theorem reaches_of_replay {next : σ → event → Except fault σ} {allowed : σ → event → Prop}
    (sound : ∀ before label after, next before label = .ok after →
      allowed before label ∧ step before label after)
    {events : List event} {first last : σ} (ended : replay next events first = .ok last) :
    Reaches step allowed first last := by
  induction events generalizing first with
  | nil =>
      cases ended
      exact .refl _
  | cons label rest ih =>
      rw [replay] at ended
      cases taken : next first label with
      | error reason =>
          rw [taken] at ended
          cases ended
      | ok after =>
          rw [taken] at ended
          obtain ⟨may, stepped⟩ := sound _ _ _ taken
          exact .cons may stepped (ih ended)

end PimDm.Foundation
