import Mathlib.Data.Fintype.Basic
import Mathlib.Data.Multiset.Bind
import PimDm.Foundation.Transition

/-!
# The lowest of the nodes that ask

A node asks at regular times until it hears a node of lower rank, and then waits for the
silence of the lowest that it has heard.  Questions go to all other nodes, arrive in any order,
and no time passes while one is in flight.

If the wait is longer than the time between two questions, the lowest node asks for ever, nobody
else asks once its questions have arrived, and no wait ends.
-/

namespace PimDm.Foundation

/-- When a node asks next, or whom it has heard and when the wait for it ends. -/
inductive Duty (ι : Type) where
  | asks (due : Int)
  | waits (other : ι) (due : Int)
  deriving DecidableEq, Repr

def Duty.due {ι : Type} : Duty ι → Int
  | .asks due => due
  | .waits _ due => due

/-- The same under other names. -/
def Duty.map {ι κ : Type} (name : ι → κ) : Duty ι → Duty κ
  | .asks due => .asks due
  | .waits other due => .waits (name other) due

/-- The nodes, the questions in flight, each with its sender and its target, and the time. -/
@[ext] structure Circle (ι : Type) where
  duty : ι → Duty ι
  inflight : Multiset (ι × ι)
  now : Int

inductive Move (ι : Type) where
  | ask (i : ι)
  | say (i : ι)
  | take (sender target : ι)
  | pass (seconds : Nat)

variable {ι β : Type} [Fintype ι] [DecidableEq ι] [LinearOrder β]

/-- The copies of a question. -/
def questions (sender : ι) : Multiset (ι × ι) := (Finset.univ.erase sender).val.map fun target => (sender, target)

theorem mem_questions {sender : ι} {copy : ι × ι} : copy ∈ questions sender ↔ copy.1 = sender ∧ copy.2 ≠ sender := by
  obtain ⟨first, second⟩ := copy
  unfold questions
  rw [Multiset.mem_map]
  constructor
  · rintro ⟨target, member, same⟩
    cases same
    exact ⟨rfl, Finset.ne_of_mem_erase member⟩
  · rintro ⟨same, other⟩
    dsimp only at same other
    exact ⟨second, Finset.mem_erase.mpr ⟨other, Finset.mem_univ _⟩, by rw [same]⟩

/-- The rank of a node, the time between two questions and the length of a wait. -/
structure Custom (ι β : Type) where
  rank : ι → β
  period : Int
  patience : Int

namespace Custom

variable (custom : Custom ι β)

/-- What a node does after a question of another one. -/
def hear (now : Int) (me sender : ι) : Duty ι → Duty ι
  | .asks due => if custom.rank sender < custom.rank me then .waits sender (now + custom.patience) else .asks due
  | .waits other _ =>
      .waits (if custom.rank sender < custom.rank other then sender else other) (now + custom.patience)

/-- Hearing is the same under other names, if these have the same ranks. -/
theorem hear_map {ι κ β : Type} [LinearOrder β] (custom : Custom κ β) (name : ι → κ) (now : Int) (me sender : ι)
    (duty : Duty ι) : custom.hear now (name me) (name sender) (duty.map name) =
      (Duty.map name (Custom.hear ⟨custom.rank ∘ name, custom.period, custom.patience⟩ now me sender duty)) := by
  cases duty with
  | asks due =>
      simp only [Duty.map, hear, Function.comp_apply]
      split <;> rfl
  | waits other due =>
      simp only [Duty.map, hear, Function.comp_apply]
      split <;> rfl

/-- A node asks when it is time or when a wait ends, it may say more at any time, and the end of
a wait or the time of a question is never missed. -/
inductive Moves : Circle ι → Move ι → Circle ι → Prop where
  | ask {circle : Circle ι} {i : ι} (due : (circle.duty i).due = circle.now) :
      Moves circle (.ask i) ⟨Function.update circle.duty i (.asks (circle.now + custom.period)),
        circle.inflight + questions i, circle.now⟩
  | say {circle : Circle ι} (i : ι) : Moves circle (.say i) ⟨circle.duty, circle.inflight + questions i, circle.now⟩
  | take {circle : Circle ι} {sender target : ι} (flying : (sender, target) ∈ circle.inflight) :
      Moves circle (.take sender target) ⟨Function.update circle.duty target
        (custom.hear circle.now target sender (circle.duty target)), circle.inflight.erase (sender, target), circle.now⟩
  | pass {circle : Circle ι} {seconds : Nat} (quiet : circle.inflight = 0)
      (punctual : ∀ i, circle.now + seconds ≤ (circle.duty i).due) :
      Moves circle (.pass seconds) ⟨circle.duty, circle.inflight, circle.now + seconds⟩

/-- All have asked, and nobody has heard anything yet. -/
structure Opens (circle : Circle ι) : Prop where
  duty : ∀ i, circle.duty i = .asks custom.period
  flying : ∀ i other, other ≠ i → (i, other) ∈ circle.inflight
  now : circle.now = 0

/-- Moves lead from one circle to the other. -/
abbrev Leads : Circle ι → Circle ι → Prop := Reaches custom.Moves fun _ _ => True

/-- A node may say any number of things. -/
theorem leads_talk (circle : Circle ι) (i : ι) (count : Nat) :
    custom.Leads circle ⟨circle.duty, circle.inflight + count • questions i, circle.now⟩ := by
  induction count with
  | zero =>
      rw [zero_nsmul, add_zero]
      exact .refl circle
  | succ count ih =>
      rw [succ_nsmul, ← add_assoc]
      exact ih.snoc trivial (.say i)

variable {lowest i : ι} {due now : Int} {inflight after : Multiset (ι × ι)} {duty : Duty ι}

/-- What a node does that is to hear the lowest one, or has heard it since its last question, while
the next question of the lowest is due then. -/
inductive Follows (lowest : ι) (due now : Int) (inflight : Multiset (ι × ι)) (i : ι) : Duty ι → Prop where
  | called {soon : Int} (flying : (lowest, i) ∈ inflight) : Follows lowest due now inflight i (.asks soon)
  | told {other : ι} {silent : Int} (flying : (lowest, i) ∈ inflight) (lower : custom.rank lowest ≤ custom.rank other)
      (patient : now + custom.patience ≤ silent + custom.period) :
        Follows lowest due now inflight i (.waits other silent)
  | loyal {silent : Int} (patient : due + custom.patience ≤ silent + custom.period) :
      Follows lowest due now inflight i (.waits lowest silent)

/-- The lowest node asks, within a period, and the others follow it. -/
structure Reigns (lowest : ι) (due : Int) (circle : Circle ι) : Prop where
  asks : circle.duty lowest = .asks due
  coming : circle.now ≤ due
  soon : due ≤ circle.now + custom.period
  follows : ∀ i, i ≠ lowest → custom.Follows lowest due circle.now circle.inflight i (circle.duty i)

variable {custom} {circle next : Circle ι} {move : Move ι}

section Following

omit [Fintype ι] [DecidableEq ι]

/-- A wait lasts longer than it takes the lowest node to ask again. -/
theorem Follows.patient {other : ι} {silent : Int}
    (follows : custom.Follows lowest due now inflight i (.waits other silent))
    (coming : now ≤ due) : now + custom.patience ≤ silent + custom.period := by
  cases follows with
  | told flying lower patient => exact patient
  | loyal patient => exact Int.le_trans (Int.add_le_add_right coming _) patient

/-- More questions in flight do no harm. -/
theorem Follows.more (follows : custom.Follows lowest due now inflight i duty) (more : Multiset (ι × ι)) :
    custom.Follows lowest due now (inflight + more) i duty := by
  have still : ∀ copy, copy ∈ inflight → copy ∈ inflight + more := fun copy member =>
    Multiset.mem_add.mpr (Or.inl member)
  cases follows with
  | called flying => exact .called (still _ flying)
  | told flying lower patient => exact .told (still _ flying) lower patient
  | loyal patient => exact .loyal patient

/-- A question of the lowest node is on its way to all others. -/
theorem Follows.ask (follows : custom.Follows lowest due now inflight i duty) (coming : now ≤ due)
    (lower : ∀ other, custom.rank lowest ≤ custom.rank other) (flying : (lowest, i) ∈ after) (later : Int) :
    custom.Follows lowest later now after i duty := by
  cases duty with
  | asks soon => exact .called flying
  | waits other silent => exact .told flying (lower other) (follows.patient coming)

/-- A node hears the lowest one. -/
theorem Follows.hear_lowest (follows : custom.Follows lowest due now inflight i duty)
    (injective : Function.Injective custom.rank) (lower : custom.rank lowest < custom.rank i)
    (soon : due ≤ now + custom.period) (left : Multiset (ι × ι)) :
    custom.Follows lowest due now left i (custom.hear now i lowest duty) := by
  have patient : due + custom.patience ≤ now + custom.patience + custom.period := by omega
  cases duty with
  | asks next =>
      rw [hear, if_pos lower]
      exact .loyal patient
  | waits other silent =>
      have named : (if custom.rank lowest < custom.rank other then lowest else other) = lowest := by
        cases follows with
        | told flying least before =>
            by_cases less : custom.rank lowest < custom.rank other
            · exact if_pos less
            · rw [if_neg less]
              exact injective (le_antisymm (not_lt.mp less) least)
        | loyal before => exact if_neg (lt_irrefl _)
      rw [hear, named]
      exact .loyal patient

/-- A node hears another one, and may still be to hear the lowest. -/
theorem Follows.hear_other {sender : ι} (follows : custom.Follows lowest due now inflight i duty)
    (least : custom.rank lowest < custom.rank sender) (positive : 0 ≤ custom.period) (soon : due ≤ now + custom.period)
    (left : (lowest, i) ∈ inflight → (lowest, i) ∈ after) :
    custom.Follows lowest due now after i (custom.hear now i sender duty) := by
  have fresh : now + custom.patience ≤ now + custom.patience + custom.period := Int.le_add_of_nonneg_right positive
  cases follows with
  | called flying =>
      rw [hear]
      split
      · exact .told (left flying) (le_of_lt least) fresh
      · exact .called (left flying)
  | told flying lower patient =>
      rw [hear]
      refine .told (left flying) ?_ fresh
      split
      · exact le_of_lt least
      · exact lower
  | loyal patient =>
      rw [hear, if_neg (not_lt.mpr (le_of_lt least))]
      exact .loyal (by omega)

end Following

/-- The assumptions on ranks and times. -/
structure Sound (custom : Custom ι β) (lowest : ι) : Prop where
  injective : Function.Injective custom.rank
  least : ∀ other, other ≠ lowest → custom.rank lowest < custom.rank other
  positive : 0 ≤ custom.period
  longer : custom.period < custom.patience

omit [Fintype ι] [DecidableEq ι] in
theorem Sound.lower (sound : custom.Sound lowest) (other : ι) : custom.rank lowest ≤ custom.rank other := by
  by_cases same : other = lowest
  · rw [same]
  · exact le_of_lt (sound.least other same)

omit [Fintype ι] [DecidableEq ι] in
theorem Opens.reigns (opens : custom.Opens circle) (sound : custom.Sound lowest) :
    custom.Reigns lowest custom.period circle where
  asks := opens.duty lowest
  coming := by
    rw [opens.now]
    exact sound.positive
  soon := by
    rw [opens.now, Int.zero_add]
  follows other different := by
    rw [opens.duty other]
    exact .called (opens.flying lowest other different)

theorem Reigns.ask (reigns : custom.Reigns lowest due circle) (sound : custom.Sound lowest)
    (here : (circle.duty i).due = circle.now) : ∃ later, custom.Reigns lowest later
      ⟨Function.update circle.duty i (.asks (circle.now + custom.period)), circle.inflight + questions i,
        circle.now⟩ := by
  by_cases first : i = lowest
  · subst first
    refine ⟨circle.now + custom.period, ⟨Function.update_self .., ?_, Int.le_refl _, fun other different => ?_⟩⟩
    · exact Int.le_add_of_nonneg_right sound.positive
    · dsimp only
      rw [Function.update_of_ne different]
      have flying : (i, other) ∈ circle.inflight + questions i :=
        Multiset.mem_add.mpr (Or.inr (mem_questions.mpr ⟨rfl, different⟩))
      exact (reigns.follows other different).ask reigns.coming sound.lower flying _
  · refine ⟨due, ⟨?_, reigns.coming, reigns.soon, fun other different => ?_⟩⟩
    · exact (Function.update_of_ne (Ne.symm first) ..).trans reigns.asks
    · have before := (reigns.follows other different).more (questions i)
      dsimp only
      by_cases same : other = i
      · -- A wait is never over, so the node asks because it has not heard the lowest one.
        subst same
        rw [Function.update_self]
        cases duty : circle.duty other with
        | asks soon =>
            rw [duty] at before
            cases before with
            | called flying => exact .called flying
        | waits known silent =>
            rw [duty] at here before
            have patient := before.patient reigns.coming
            have longer := sound.longer
            rw [Duty.due] at here
            omega
      · rwa [Function.update_of_ne same]

omit [Fintype ι] in
theorem Reigns.take {sender target : ι} (reigns : custom.Reigns lowest due circle) (sound : custom.Sound lowest) :
    custom.Reigns lowest due ⟨Function.update circle.duty target
      (custom.hear circle.now target sender (circle.duty target)), circle.inflight.erase (sender, target),
        circle.now⟩ := by
  have apart : ∀ other, other ≠ target ∨ sender ≠ lowest → (lowest, other) ∈ circle.inflight →
      (lowest, other) ∈ circle.inflight.erase (sender, target) := by
    intro other different member
    refine (Multiset.mem_erase_of_ne fun same => ?_).mpr member
    rcases different with elsewhere | from_
    · exact elsewhere (congrArg Prod.snd same)
    · exact from_ (congrArg Prod.fst same).symm
  refine ⟨?_, reigns.coming, reigns.soon, fun other different => ?_⟩
  · dsimp only
    by_cases here : lowest = target
    · subst here
      rw [Function.update_self, reigns.asks, hear, if_neg (not_lt.mpr (sound.lower sender))]
    · rw [Function.update_of_ne here]
      exact reigns.asks
  · have before := reigns.follows other different
    dsimp only
    by_cases here : other = target
    · subst here
      rw [Function.update_self]
      by_cases first : sender = lowest
      · rw [first]
        exact before.hear_lowest sound.injective (sound.least other different) reigns.soon _
      · exact before.hear_other (sound.least sender first) sound.positive reigns.soon (apart other (Or.inr first))
    · rw [Function.update_of_ne here]
      cases duty : circle.duty other with
      | asks soon =>
          rw [duty] at before
          cases before with
          | called flying => exact .called (apart other (Or.inl here) flying)
      | waits known silent =>
          rw [duty] at before
          cases before with
          | told flying lower patient => exact .told (apart other (Or.inl here) flying) lower patient
          | loyal patient => exact .loyal patient

omit [Fintype ι] [DecidableEq ι] in
theorem Reigns.pass {seconds : Nat} (reigns : custom.Reigns lowest due circle) (quiet : circle.inflight = 0)
    (punctual : ∀ i, circle.now + seconds ≤ (circle.duty i).due) :
    custom.Reigns lowest due ⟨circle.duty, circle.inflight, circle.now + seconds⟩ := by
  have coming := punctual lowest
  rw [reigns.asks, Duty.due] at coming
  have none : ∀ copy, copy ∉ circle.inflight := fun copy => by
    rw [quiet]
    exact Multiset.notMem_zero copy
  refine ⟨reigns.asks, coming, ?_, fun i different => ?_⟩
  · have soon := reigns.soon
    dsimp only
    omega
  · have before := reigns.follows i different
    dsimp only
    cases duty : circle.duty i with
    | asks soon =>
        rw [duty] at before
        cases before with
        | called flying => exact absurd flying (none _)
    | waits other silent =>
        rw [duty] at before
        cases before with
        | told flying lower patient => exact absurd flying (none _)
        | loyal patient => exact .loyal patient

theorem Reigns.step (reigns : custom.Reigns lowest due circle) (sound : custom.Sound lowest)
    (moves : custom.Moves circle move next) : ∃ later, custom.Reigns lowest later next := by
  cases moves with
  | ask here => exact reigns.ask sound here
  | say i =>
      exact ⟨due, reigns.asks, reigns.coming, reigns.soon, fun other different =>
        (reigns.follows other different).more _⟩
  | take flying => exact ⟨due, reigns.take sound⟩
  | pass quiet punctual => exact ⟨due, reigns.pass quiet punctual⟩

/-- In every circle that is reached the lowest node reigns. -/
theorem Opens.leads (opens : custom.Opens circle) (sound : custom.Sound lowest) (run : custom.Leads circle next) :
    ∃ due, custom.Reigns lowest due next := by
  refine run.keeps (P := fun circle => ∃ due, custom.Reigns lowest due circle) ⟨_, opens.reigns sound⟩ ?_
  rintro before move after ⟨due, reigns⟩ _ moves
  exact reigns.step sound moves

end Custom

end PimDm.Foundation
