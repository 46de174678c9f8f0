import Mathlib.Algebra.Order.Group.Defs
import Mathlib.Data.List.Sort
import Mathlib.Data.List.TakeWhile

/-!
# Queues of time differences

Each entry of the queue stores its time as the difference to the entry before it.  `moments` adds
the differences up.  Seen through it, insertion is the insertion into a sorted list, after the
entries of the same moment; removal is removal; and what has expired is an initial part.
-/

namespace PimDm.Foundation.DeltaQueue

variable {τ α : Type} [AddCommGroup τ] [LinearOrder τ]

/-- The entries with the moments they stand for, from `now` on. -/
def moments (now : τ) : List (τ × α) → List (τ × α)
  | [] => []
  | (gap, item) :: rest => (now + gap, item) :: moments (now + gap) rest

/-- Insert behind the entries that are not later, and shorten the difference of the next one. -/
def insert (gap : τ) (item : α) : List (τ × α) → List (τ × α)
  | [] => [(gap, item)]
  | (first, other) :: rest =>
      if gap < first then (gap, item) :: (first - gap, other) :: rest
      else (first, other) :: insert (gap - first) item rest

/-- Remove the first entry with a property, and lengthen the difference of the next one. -/
def remove (property : α → Bool) : List (τ × α) → List (τ × α)
  | [] => []
  | (gap, item) :: rest =>
      if property item then
        match rest with
        | [] => []
        | (next, other) :: rest => (next + gap, other) :: rest
      else (gap, item) :: remove property rest

/-- Take off what has expired, and shorten the difference of the first entry that is left. -/
def expire (elapsed : τ) : List (τ × α) → List (τ × α) × List (τ × α)
  | [] => ([], [])
  | (gap, item) :: rest =>
      if elapsed < gap then ([], (gap - elapsed, item) :: rest)
      else
        let (expired, left) := expire (elapsed - gap) rest
        ((gap, item) :: expired, left)

/-- One entry is due before another. -/
def Sooner (entry other : τ × α) : Prop := entry.1 < other.1

instance : DecidableRel (@Sooner τ α _) := fun entry other =>
  inferInstanceAs (Decidable (entry.1 < other.1))

/-- The entry is due by then. -/
def past (bound : τ) (entry : τ × α) : Bool := decide (entry.1 ≤ bound)

omit [AddCommGroup τ] in
theorem past_iff {bound : τ} {entry : τ × α} : past bound entry = true ↔ entry.1 ≤ bound := decide_eq_true_iff

omit [LinearOrder τ] in
theorem moments_items (now : τ) (queue : List (τ × α)) :
    (moments now queue).map Prod.snd = queue.map Prod.snd := by
  induction queue generalizing now with
  | nil => rfl
  | cons entry rest ih => rw [moments, List.map_cons, List.map_cons, ih]

omit [LinearOrder τ] in
/-- Seen from another time, all moments move by the same amount. -/
theorem moments_add (now shift : τ) (queue : List (τ × α)) :
    moments (now + shift) queue = (moments now queue).map fun entry => (entry.1 + shift, entry.2) := by
  induction queue generalizing now with
  | nil => rfl
  | cons entry rest ih =>
      rw [moments, moments, List.map_cons, add_right_comm, ih]

omit [LinearOrder τ] in
theorem moments_remove (now : τ) (property : α → Bool) (queue : List (τ × α)) :
    moments now (remove property queue) = (moments now queue).eraseP fun entry => property entry.2 := by
  induction queue generalizing now with
  | nil => rfl
  | cons entry rest ih =>
      obtain ⟨gap, item⟩ := entry
      unfold remove
      rw [moments]
      by_cases found : property item = true
      · rw [if_pos found, List.eraseP_cons_of_pos (p := fun entry : τ × α => property entry.2)
          (a := (now + gap, item)) found]
        cases rest with
        | nil => rfl
        | cons next rest => rw [moments, moments, add_assoc now gap, add_comm gap]
      · rw [if_neg found, List.eraseP_cons_of_neg (p := fun entry : τ × α => property entry.2)
          (a := (now + gap, item)) found, moments, ih]

variable [IsOrderedAddMonoid τ]

theorem moments_insert (now gap : τ) (item : α) (queue : List (τ × α)) :
    moments now (insert gap item queue) =
      (moments now queue).orderedInsert Sooner (now + gap, item) := by
  induction queue generalizing now gap with
  | nil => rfl
  | cons entry rest ih =>
      obtain ⟨first, other⟩ := entry
      rw [insert, moments]
      by_cases sooner : gap < first
      · have before : Sooner (now + gap, item) (now + first, other) := add_lt_add_right sooner now
        rw [if_pos sooner, List.orderedInsert_cons_of_le _ _ before, moments, moments,
          add_assoc now gap, add_sub_cancel]
      · have behind : ¬ Sooner (now + gap, item) (now + first, other) := fun before =>
          sooner (lt_of_add_lt_add_left before)
        rw [if_neg sooner, List.orderedInsert_of_not_le _ _ behind, moments, ih,
          add_assoc now first, add_sub_cancel]

/-- What expires are the first entries up to the end of the time that has passed. -/
theorem moments_expire (now elapsed : τ) (queue : List (τ × α)) :
    moments now (expire elapsed queue).1 = (moments now queue).takeWhile (past (now + elapsed)) ∧
      moments (now + elapsed) (expire elapsed queue).2 =
        (moments now queue).dropWhile (past (now + elapsed)) := by
  induction queue generalizing now elapsed with
  | nil => exact ⟨rfl, rfl⟩
  | cons entry rest ih =>
      obtain ⟨gap, item⟩ := entry
      rw [expire, moments]
      by_cases waits : elapsed < gap
      · have later : ¬ past (now + elapsed) (now + gap, item) = true := by
          rw [past_iff, not_le]
          exact add_lt_add_right waits now
        rw [if_pos waits, List.takeWhile_cons_of_neg later, List.dropWhile_cons_of_neg later]
        refine ⟨rfl, ?_⟩
        rw [moments, add_assoc now elapsed, add_sub_cancel]
      · have early : past (now + elapsed) (now + gap, item) = true :=
          decide_eq_true (add_le_add_right (not_lt.mp waits) now)
        obtain ⟨expired, left⟩ := ih (now + gap) (elapsed - gap)
        rw [add_assoc now gap, add_sub_cancel] at expired left
        rw [if_neg waits, List.takeWhile_cons_of_pos early, List.dropWhile_cons_of_pos early, ← expired, ← left]
        exact ⟨rfl, rfl⟩

/-! ## Order -/

/-- One entry comes before another: at an earlier moment, or at the same one and of lower rank. -/
def Ahead (lower : α → α → Prop) (entry other : τ × α) : Prop :=
  entry.1 < other.1 ∨ entry.1 = other.1 ∧ lower entry.2 other.2

variable {lower : α → α → Prop}

omit [IsOrderedAddMonoid τ] [AddCommGroup τ] in
/-- An item that ranks above all others keeps the order. -/
theorem pairwise_insert {moment : τ} {item : α} {entries : List (τ × α)} (sorted : entries.Pairwise (Ahead lower))
    (top : ∀ entry ∈ entries, lower entry.2 item) :
    (entries.orderedInsert Sooner (moment, item)).Pairwise (Ahead lower) := by
  induction entries with
  | nil => exact List.pairwise_singleton _ _
  | cons first rest ih =>
      obtain ⟨ahead, sorted⟩ := List.pairwise_cons.mp sorted
      by_cases sooner : Sooner (moment, item) first
      · rw [List.orderedInsert_cons_of_le _ _ sooner]
        refine List.pairwise_cons.mpr ⟨fun other member => Or.inl ?_, List.pairwise_cons.mpr ⟨ahead, sorted⟩⟩
        rcases List.mem_cons.mp member with rfl | later
        · exact sooner
        · rcases ahead other later with less | ⟨same, _⟩
          · exact lt_trans sooner less
          · exact lt_of_lt_of_eq sooner same
      · rw [List.orderedInsert_of_not_le _ _ sooner]
        refine List.pairwise_cons.mpr ⟨fun other member => ?_, ih sorted fun entry inside => ?_⟩
        · rcases (List.mem_orderedInsert _).mp member with rfl | old
          · rcases lt_or_eq_of_le (not_lt.mp sooner) with less | same
            · exact Or.inl less
            · exact Or.inr ⟨same, top first (List.mem_cons_self ..)⟩
          · exact ahead other old
        · exact top entry (List.mem_cons_of_mem _ inside)

omit [AddCommGroup τ] [IsOrderedAddMonoid τ] in
/-- Of entries in order, the first ones up to a moment are all up to it. -/
theorem mem_takeWhile_iff {bound : τ} {entries : List (τ × α)} (sorted : entries.Pairwise (Ahead lower))
    (entry : τ × α) :
    entry ∈ entries.takeWhile (past bound) ↔ entry ∈ entries ∧ entry.1 ≤ bound := by
  induction entries with
  | nil => simp
  | cons first rest ih =>
      obtain ⟨ahead, sorted⟩ := List.pairwise_cons.mp sorted
      by_cases early : past bound first = true
      · rw [List.takeWhile_cons_of_pos early, List.mem_cons, List.mem_cons, ih sorted]
        constructor
        · rintro (rfl | ⟨inside, before⟩)
          · exact ⟨Or.inl rfl, past_iff.mp early⟩
          · exact ⟨Or.inr inside, before⟩
        · rintro ⟨rfl | inside, before⟩
          · exact Or.inl rfl
          · exact Or.inr ⟨inside, before⟩
      · rw [List.takeWhile_cons_of_neg early]
        refine iff_of_false List.not_mem_nil ?_
        rintro ⟨member, before⟩
        rcases List.mem_cons.mp member with rfl | later
        · exact early (past_iff.mpr before)
        · rcases ahead entry later with less | ⟨same, _⟩
          · exact early (past_iff.mpr (less.le.trans before))
          · exact early (past_iff.mpr (same ▸ before))

omit [AddCommGroup τ] [IsOrderedAddMonoid τ] in
/-- And those that follow are all after it. -/
theorem mem_dropWhile_iff {bound : τ} {entries : List (τ × α)} (sorted : entries.Pairwise (Ahead lower))
    (entry : τ × α) :
    entry ∈ entries.dropWhile (past bound) ↔ entry ∈ entries ∧ bound < entry.1 := by
  induction entries with
  | nil => simp
  | cons first rest ih =>
      obtain ⟨ahead, ordered⟩ := List.pairwise_cons.mp sorted
      by_cases early : past bound first = true
      · rw [List.dropWhile_cons_of_pos early, ih ordered, List.mem_cons]
        refine and_congr_left fun after => (or_iff_right ?_).symm
        rintro rfl
        exact not_le.mpr after (past_iff.mp early)
      · rw [List.dropWhile_cons_of_neg early]
        refine iff_self_and.mpr fun member => ?_
        have after : bound < first.1 := not_le.mp fun before => early (past_iff.mpr before)
        rcases List.mem_cons.mp member with rfl | later
        · exact after
        · rcases ahead entry later with less | ⟨same, _⟩
          · exact after.trans less
          · exact same ▸ after

end PimDm.Foundation.DeltaQueue
