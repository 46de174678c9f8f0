import Mathlib.Data.List.Perm.Basic
import Mathlib.Algebra.Order.Group.Int

/-!
# Ids as tickets

Entries wait under ids that are given out in increasing order, and whoever issues an entry
keeps its id as a ticket.  A ticket may be kept longer than its entry waits; as ids are not
given twice, it never comes to stand for an entry of another kind.
-/

namespace PimDm.Foundation

variable {κ : Type}

/-- The entry that waits under this id, if there is one, is of a kind in `A`; the id is one
of those given out so far, which end with `last`. -/
structure StandsFor (waiting : List (Int × κ)) (last id : Int) (A : κ → Prop) : Prop where
  given : id ≤ last
  kind : ∀ entry ∈ waiting, entry.1 = id → A entry.2

namespace StandsFor

variable {waiting after : List (Int × κ)} {last id : Int} {A B : κ → Prop}

theorem mono (ticket : StandsFor waiting last id A) (weaker : ∀ kind, A kind → B kind) :
    StandsFor waiting last id B :=
  ⟨ticket.given, fun entry member same => weaker entry.2 (ticket.kind entry member same)⟩

/-- Entries that go do not matter to a ticket. -/
theorem fewer (ticket : StandsFor waiting last id A) (gone : ∀ entry ∈ after, entry ∈ waiting) :
    StandsFor after last id A :=
  ⟨ticket.given, fun entry member => ticket.kind entry (gone entry member)⟩

/-- Nor does an entry that is issued. -/
theorem issue (ticket : StandsFor waiting last id A) {kind : κ}
    (issued : after.Perm ((last + 1, kind) :: waiting)) : StandsFor after (last + 1) id A := by
  have given := ticket.given
  refine ⟨by omega, fun entry member same => ?_⟩
  rcases List.mem_cons.mp (issued.subset member) with rfl | old
  · dsimp only at same
    omega
  · exact ticket.kind entry old same

/-- The ticket of an entry just issued stands for it. -/
theorem issued (bounds : ∀ entry ∈ waiting, entry.1 ≤ last) {kind : κ}
    (issued : after.Perm ((last + 1, kind) :: waiting)) : StandsFor after (last + 1) (last + 1) (· = kind) := by
  refine ⟨Int.le_refl _, fun entry member same => ?_⟩
  rcases List.mem_cons.mp (issued.subset member) with rfl | old
  · rfl
  · have bound := bounds entry old
    omega

/-- An id that is never given out stands for nothing. -/
theorem blank (bounds : ∀ entry ∈ waiting, 0 < entry.1) (counts : 0 ≤ last) (nonpositive : id ≤ 0) :
    StandsFor waiting last id A := by
  refine ⟨by omega, fun entry member same => ?_⟩
  have bound := bounds entry member
  omega

/-- An entry of another kind does not wait under the id. -/
theorem other (ticket : StandsFor waiting last id A) {entry : Int × κ} (member : entry ∈ waiting)
    (unlike : ¬ A entry.2) : entry.1 ≠ id :=
  fun same => unlike (ticket.kind entry member same)

end StandsFor

end PimDm.Foundation
