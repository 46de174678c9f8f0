import Mathlib.Data.Fintype.Card
import Mathlib.Data.Multiset.Bind
import Mathlib.Algebra.Order.BigOperators.Group.Multiset
import PimDm.Foundation.Transition

/-!
# Messages on a broadcast medium

The medium carries a message to every node on it, the sender included, and delivers
the copies in any order.  A node may answer a copy with messages of its own.  A copy
remembers whether it is an answer, and so does the record of who has answered.

If answers are never answered and the first message is answered at most once by a
node, the exchange ends in whatever order it goes.
-/

namespace PimDm.Foundation

/-- A message on its way to one node. -/
structure Copy (ι M : Type) where
  target : ι
  message : M
  answer : Bool
  deriving DecidableEq, Repr

/-- What a node does with a message: its next state and its answers, unless it stops.
The medium carries the answers that are sent onto it. -/
structure Medium (ι S M : Type) where
  receive : ι → M → S → Option (S × List M)
  carries : ι → M → Bool

/-- The nodes, the copies in flight, and for each answer so far who gave it and whether
it answered an answer. -/
@[ext] structure Net (ι S M : Type) where
  node : ι → S
  inflight : Multiset (Copy ι M)
  answered : Multiset (ι × Bool)

variable {ι S M : Type} [Fintype ι]

/-- A copy of the message for every node. -/
def copies (message : M) (answer : Bool) : Multiset (Copy ι M) :=
  Finset.univ.val.map fun target => ⟨target, message, answer⟩

theorem mem_copies {message : M} {answer : Bool} {copy : Copy ι M} :
    copy ∈ copies message answer ↔ copy.message = message ∧ copy.answer = answer := by
  unfold copies
  rw [Multiset.mem_map]
  constructor
  · rintro ⟨target, _, rfl⟩
    exact ⟨rfl, rfl⟩
  · rintro ⟨rfl, rfl⟩
    exact ⟨copy.target, Finset.mem_univ _, rfl⟩

/-- A message is put on the medium. -/
def Net.start (node : ι → S) (message : M) : Net ι S M := ⟨node, copies message false, 0⟩

namespace Medium

variable (medium : Medium ι S M)

/-- The copies of what a node answers. -/
def spread (sender : ι) (answers : List M) : Multiset (Copy ι M) :=
  Multiset.bind (answers.filter (medium.carries sender)) fun message => copies message true

theorem mem_spread {sender : ι} {answers : List M} {copy : Copy ι M} :
    copy ∈ medium.spread sender answers ↔
      copy.message ∈ answers ∧ medium.carries sender copy.message = true ∧ copy.answer = true := by
  unfold spread
  rw [Multiset.mem_bind]
  constructor
  · rintro ⟨message, sent, inside⟩
    obtain ⟨rfl, answer⟩ := mem_copies.mp inside
    obtain ⟨member, carried⟩ := List.mem_filter.mp (Multiset.mem_coe.mp sent)
    exact ⟨member, carried, answer⟩
  · rintro ⟨member, carried, answer⟩
    exact ⟨copy.message, Multiset.mem_coe.mpr (List.mem_filter.mpr ⟨member, carried⟩),
      mem_copies.mpr ⟨rfl, answer⟩⟩

/-- A copy and the copies of one answer to it. -/
def weight (copy : Copy ι M) : Nat := if copy.answer then 1 else Fintype.card ι + 1

theorem weight_spread (sender : ι) (answers : List M) :
    ((medium.spread sender answers).map weight).sum ≤ answers.length * Fintype.card ι := by
  have answer : ∀ message : M, ((copies message true : Multiset (Copy ι M)).map weight).sum = Fintype.card ι := by
    intro message
    unfold copies
    rw [Multiset.map_map]
    have one : (Finset.univ : Finset ι).val.map (weight ∘ fun target => (⟨target, message, true⟩ : Copy ι M)) =
        (Finset.univ : Finset ι).val.map fun _ => 1 := rfl
    rw [one, Multiset.map_const', Multiset.sum_replicate, Nat.nsmul_eq_mul, Nat.mul_one]
    rfl
  unfold spread
  rw [Multiset.map_bind, Multiset.sum_bind]
  simp only [answer, Multiset.map_const', Multiset.sum_replicate, Multiset.coe_card, Nat.nsmul_eq_mul]
  exact Nat.mul_le_mul_right _ (List.length_filter_le _ _)

variable [DecidableEq ι]

/-- The net after a node has taken a copy and answered it. -/
def delivered [DecidableEq M] (copy : Copy ι M) (net : Net ι S M) (after : S) (answers : List M) :
    Net ι S M where
  node := Function.update net.node copy.target after
  inflight := net.inflight.erase copy + medium.spread copy.target answers
  answered := net.answered + Multiset.replicate answers.length (copy.target, copy.answer)

/-- What the receiver keeps is as it was at every node. -/
theorem delivered_node [DecidableEq M] {β : Type} (image : S → β) {copy : Copy ι M} {net : Net ι S M} {after : S}
    (same : image after = image (net.node copy.target)) (answers : List M) (i : ι) :
    image ((medium.delivered copy net after answers).node i) = image (net.node i) := by
  unfold delivered
  by_cases here : i = copy.target
  · rw [here]
    exact (congrArg image (Function.update_self ..)).trans same
  · exact congrArg image (Function.update_of_ne here ..)

/-- Deliver a copy in flight. -/
def deliver [DecidableEq M] (copy : Copy ι M) (net : Net ι S M) : Option (Net ι S M) :=
  if copy ∈ net.inflight then
    match medium.receive copy.target copy.message (net.node copy.target) with
    | none => none
    | some (after, answers) => some (medium.delivered copy net after answers)
  else none

variable [DecidableEq M]

/-- Deliveries, as the labelled steps of the net. -/
def Delivers (net : Net ι S M) (copy : Copy ι M) (next : Net ι S M) : Prop :=
  medium.deliver copy net = some next

/-- Deliveries in some order lead from one net to the other. -/
abbrev Exchanges : Net ι S M → Net ι S M → Prop := Reaches medium.Delivers fun _ _ => True

variable {medium} {P : Net ι S M → Prop} {net next start final : Net ι S M} {copy : Copy ι M}

theorem delivers_iff : medium.Delivers net copy next ↔ copy ∈ net.inflight ∧ ∃ after answers,
    medium.receive copy.target copy.message (net.node copy.target) = some (after, answers) ∧
      next = medium.delivered copy net after answers := by
  unfold Delivers deliver
  constructor
  · intro taken
    split at taken
    · rename_i inflight
      split at taken
      · cases taken
      · rename_i after answers received
        exact ⟨inflight, after, answers, received, (Option.some.inj taken).symm⟩
    · cases taken
  · rintro ⟨inflight, after, answers, received, rfl⟩
    rw [if_pos inflight, received]

/-! ## Exchanges that settle -/

/-- In the nets of `P`, which deliveries keep, the first message is answered at most
once by a node and answers are not answered. -/
structure Settles (medium : Medium ι S M) (P : Net ι S M → Prop) : Prop where
  kept : ∀ net copy next, P net → medium.Delivers net copy next → P next
  once : ∀ net copy after answers, P net → copy ∈ net.inflight →
    medium.receive copy.target copy.message (net.node copy.target) = some (after, answers) →
      answers.length ≤ if copy.answer then 0 else 1

namespace Settles

variable (settles : medium.Settles P)
include settles

/-- No answer is answered. -/
theorem firsthand (holds : P start) (fresh : ∀ answer ∈ start.answered, answer.2 = false)
    (run : medium.Exchanges start final) : ∀ answer ∈ final.answered, answer.2 = false := by
  have both : P final ∧ ∀ answer ∈ final.answered, answer.2 = false := by
    refine run.keeps (P := fun net => P net ∧ ∀ answer ∈ net.answered, answer.2 = false) ⟨holds, fresh⟩ ?_
    rintro net copy next ⟨holds, so_far⟩ _ taken
    refine ⟨settles.kept net copy next holds taken, fun answer member => ?_⟩
    obtain ⟨inflight, after, answers, received, rfl⟩ := delivers_iff.mp taken
    rcases Multiset.mem_add.mp member with old | new
    · exact so_far answer old
    · obtain ⟨some, rfl⟩ := Multiset.mem_replicate.mp new
      have few := settles.once net copy after answers holds inflight received
      cases first : copy.answer with
      | false => rfl
      | true =>
          rw [first, if_pos rfl] at few
          exact absurd (Nat.le_zero.mp few) some
  exact both.2

/-- Who has answered, and who has the first message still to come. -/
def waiting (net : Net ι S M) : Multiset ι :=
  net.answered.map Prod.fst + (net.inflight.filter fun copy => copy.answer = false).map Copy.target

/-- A node answers in place of the first message it takes. -/
theorem waiting_le (holds : P net) (taken : medium.Delivers net copy next) : waiting next ≤ waiting net := by
  obtain ⟨inflight, after, answers, received, rfl⟩ := delivers_iff.mp taken
  have few := settles.once net copy after answers holds inflight received
  have none : (medium.spread copy.target answers).filter (fun copy => copy.answer = false) = 0 := by
    refine Multiset.filter_eq_nil.mpr fun sent member answer => ?_
    rw [((medium.mem_spread).mp member).2.2] at answer
    cases answer
  obtain ⟨rest, split⟩ := Multiset.exists_cons_of_mem inflight
  unfold waiting delivered
  dsimp only
  rw [Multiset.filter_add, none, add_zero, split, Multiset.erase_cons_head, Multiset.map_add,
    Multiset.map_replicate, add_assoc]
  refine add_le_add_right ?_ _
  cases first : copy.answer with
  | true =>
      rw [first, if_pos rfl] at few
      rw [Nat.le_zero.mp few, Multiset.replicate_zero, zero_add, Multiset.filter_cons_of_neg _ (by simp [first])]
  | false =>
      rw [first, if_neg (by decide)] at few
      have kept : (copy ::ₘ rest).filter (fun copy => copy.answer = false) =
          copy ::ₘ rest.filter fun copy => copy.answer = false := Multiset.filter_cons_of_pos _ first
      have one : Multiset.replicate answers.length copy.target ≤ {copy.target} :=
        (Multiset.replicate_le_replicate copy.target).mpr few
      rw [kept, Multiset.map_cons, ← Multiset.singleton_add]
      exact add_le_add_left one _

/-- No node answers twice. -/
theorem once_each {node : ι → S} {message : M} (holds : P (Net.start node message))
    (run : medium.Exchanges (Net.start node message) final) : (final.answered.map Prod.fst).Nodup := by
  have fewer : P final ∧ waiting final ≤ waiting (Net.start node message) := by
    refine run.keeps (P := fun net => P net ∧ waiting net ≤ waiting (Net.start node message))
      ⟨holds, le_refl _⟩ ?_
    rintro net copy next ⟨holds, so_far⟩ _ taken
    exact ⟨settles.kept net copy next holds taken, (settles.waiting_le holds taken).trans so_far⟩
  have everyone : waiting (Net.start node message : Net ι S M) = Finset.univ.val := by
    have all : (copies message false : Multiset (Copy ι M)).filter (fun copy => copy.answer = false) =
        copies message false := Multiset.filter_eq_self.mpr fun copy member => (mem_copies.mp member).2
    unfold waiting Net.start
    rw [all, copies, Multiset.map_map, Multiset.map_zero, zero_add]
    exact Multiset.map_id _
  rw [everyone] at fewer
  have below : final.answered.map Prod.fst ≤ Finset.univ.val := (Multiset.le_add_right _ _).trans fewer.2
  exact Multiset.nodup_of_le below Finset.univ.nodup

/-- The exchange ends, in whatever order it goes. -/
theorem ends (holds : P net) : Ends medium.Delivers net := by
  refine ends_of_measure (P := P) (fun net => (net.inflight.map weight).sum) settles.kept ?_ holds
  intro net copy next holds taken
  obtain ⟨inflight, after, answers, received, rfl⟩ := delivers_iff.mp taken
  have few := settles.once net copy after answers holds inflight received
  obtain ⟨rest, split⟩ := Multiset.exists_cons_of_mem inflight
  have sent : ((medium.spread copy.target answers).map weight).sum ≤ answers.length * Fintype.card ι :=
    medium.weight_spread copy.target answers
  have left : ((medium.delivered copy net after answers).inflight.map weight).sum =
      (rest.map weight).sum + ((medium.spread copy.target answers).map weight).sum := by
    unfold delivered
    rw [split, Multiset.erase_cons_head, Multiset.map_add, Multiset.sum_add]
  rw [left, split, Multiset.map_cons, Multiset.sum_cons]
  cases first : copy.answer with
  | true =>
      rw [first, if_pos rfl] at few
      rw [Nat.le_zero.mp few, Nat.zero_mul] at sent
      rw [weight, first, if_pos rfl]
      omega
  | false =>
      rw [first, if_neg (by decide)] at few
      have bound : answers.length * Fintype.card ι ≤ 1 * Fintype.card ι := Nat.mul_le_mul_right _ few
      rw [weight, first, if_neg (by decide)]
      omega

end Settles


end Medium

end PimDm.Foundation
