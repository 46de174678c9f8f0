import PimDm.Refinement.Completion
import PimDm.Refinement.Steps
import PimDm.Property.Session

/-!
# What the last leave of a group does to the table

The last member of a group has left an interface.  `del_leaf` closes the interface on the
first entry of the group in the table, whatever it was and whoever else is there, and does
not look at the other sources.
-/

namespace PimDm.Property

open PimDm.Foundation PimDm.Source PimDm.Routing PimDm.Refinement

variable {host : Host} {s : Daemon}

/-- `del_leaf` completes and closes exactly the open interfaces without a downstream router. -/
def RemovesLeaf (host : Host) (s : Daemon) (vif : Vif) (group : Addr) : Prop :=
  LeavesEntries (delLeaf host vif group) s ((table s).entries.map fun item =>
    storeIf (item.2.group = group ∧ item.2.outvif vif = 1 ∧ ¬ (table s).HasNeighbor vif) vif 0 (-1) item)

/-- The group has no entry; or its first one is open on the interface, no other one is, and
there is no router on the interface. -/
def OnlyFirstOpen (t : Table) (vif : Vif) (group : Addr) : Prop :=
  match t.find fun r => r.group == group with
  | none => True
  | some first => ¬ t.HasNeighbor vif ∧ first.2.outvif vif = 1 ∧
      ∀ item ∈ t.entries, item.2.group = group → item.2.outvif vif = 1 → item.1 = first.1

instance (t : Table) (vif : Vif) (group : Addr) : Decidable (OnlyFirstOpen t vif group) := by
  unfold OnlyFirstOpen
  split <;> infer_instance

/-- The code closes the interface on the first entry of the group. -/
theorem delLeaf_leaves (models : Models s (table s)) (vif : Vif) (group : Addr) :
    LeavesEntries (delLeaf host vif group) s ((table s).entries.map fun item =>
      storeIf ((table s).IsFirst (fun r => r.group == group) item) vif 0 (-1) item) := by
  obtain ⟨_, s', run, after⟩ := delLeaf_achieves host vif group s models
  refine ⟨s', run, ?_⟩
  rw [after.table_eq]
  exact Table.forwardFirst_stores models.entries.nodup _ vif 0 _

theorem onlyFirstOpen_iff {t : Table} (distinct : t.Distinct) (vif : Vif) (group : Addr) :
    OnlyFirstOpen t vif group ↔ ∀ item ∈ t.entries, (t.IsFirst (fun r => r.group == group) item ↔
      item.2.group = group ∧ item.2.outvif vif = 1 ∧ ¬ t.HasNeighbor vif) := by
  unfold OnlyFirstOpen
  cases found : t.find fun r => r.group == group with
  | none =>
      refine iff_of_true trivial fun item member => iff_of_false ?_ ?_
      · simp [Table.IsFirst, found]
      · have other := List.find?_eq_none.mp found item member
        exact fun both => other (beq_iff_eq.mpr both.1)
  | some first =>
      have listed := List.mem_of_find?_eq_some found
      have holds : first.2.group = group := eq_of_beq
        (List.find?_some (p := fun other : Ptr × Route => other.2.group == group) found)
      have isFirst : ∀ item, t.IsFirst (fun r => r.group == group) item ↔ item.1 = first.1 := by
        intro item
        simp [Table.IsFirst, found, eq_comm]
      simp only [isFirst]
      constructor
      · rintro ⟨alone, opened, others⟩ item member
        constructor
        · intro here
          rw [distinct.eq_of_name member listed here]
          exact ⟨holds, opened, alone⟩
        · rintro ⟨same, still, _⟩
          exact others item member same still
      · intro each
        obtain ⟨_, opened, alone⟩ := (each first listed).mp rfl
        exact ⟨alone, opened, fun item member same still => (each item member).mpr ⟨same, still, alone⟩⟩

/-- `del_leaf` does what it should on exactly these tables. -/
theorem del_leaf_removes (models : Models s (table s)) (vif : Vif) (group : Addr) :
    RemovesLeaf host s vif group ↔ OnlyFirstOpen (table s) vif group := by
  have moved : (-1 : Int) ≠ 0 := by decide
  rw [RemovesLeaf, leavesEntries_iff (delLeaf_leaves models vif group), map_storeIf_eq_iff moved,
    onlyFirstOpen_iff models.entries.nodup]

/-- A router on the interface, and no member: its traffic stops. -/
theorem del_leaf_misses :
    ¬ ∀ (host : Host) (s : Daemon) (vif : Vif) (group : Addr), Models s (table s) →
      ¬ (table s).HasMember vif group → RemovesLeaf host s vif group := by
  intro all
  have passed : endsWith router NoAssert
      [upcall 1 1 (stationOn 1 7) studio channel, helloFrom (stationOn 2 9) 105]
      (fun s => decide (¬ (table s).HasMember 2 channel ∧ ¬ OnlyFirstOpen (table s) 2 channel)) = true := by
    decide +kernel
  obtain ⟨s, reached, wrong⟩ := reachable_of_endsWith passed
  obtain ⟨left, unfit⟩ := of_decide_eq_true wrong
  have models := reachable_models router_zeroFilled reached
  have moved : (-1 : Int) ≠ 0 := by decide
  have stores := all router s 2 channel models left
  rw [RemovesLeaf, leavesEntries_iff (delLeaf_leaves models 2 channel), map_storeIf_eq_iff moved,
    ← onlyFirstOpen_iff models.entries.nodup] at stores
  exact unfit stores

/-- An interface that only a Graft has opened. -/
theorem del_leaf_removes_session :
    ∃ s, Models s (table s) ∧ ¬ (table s).HasMember 3 channel ∧ (table s).entries.length = 1 ∧
      RemovesLeaf router s 3 channel := by
  have passed : endsWith router NoAssert
      [upcall 1 1 (stationOn 1 7) studio channel, graftFrom (stationOn 3 9) (stationOn 3 1) studio channel]
      (fun s => decide (¬ (table s).HasMember 3 channel) && (table s).entries.length == 1 &&
        decide (OnlyFirstOpen (table s) 3 channel)) = true := by decide +kernel
  obtain ⟨s, reached, all⟩ := reachable_of_endsWith passed
  obtain ⟨both, fit⟩ := Bool.and_eq_true_iff.mp all
  obtain ⟨left, one⟩ := Bool.and_eq_true_iff.mp both
  have models := reachable_models router_zeroFilled reached
  refine ⟨s, models, of_decide_eq_true left, eq_of_beq one, ?_⟩
  exact (del_leaf_removes models 3 channel).mpr (of_decide_eq_true fit)

end PimDm.Property
