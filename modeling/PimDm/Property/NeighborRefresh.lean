import PimDm.Refinement.Completion
import PimDm.Refinement.Steps
import PimDm.Property.Session

/-!
# What a change of neighbours does to the table

`refresh_mrt` stores an outgoing interface in every entry that passes a test.  For a lost
neighbour the test reads the lists of the interface whose number is the mode, whichever
interface has lost the neighbour; for a new one it forgets the incoming interface.
-/

namespace PimDm.Property

open PimDm.Foundation PimDm.Source PimDm.Routing PimDm.Refinement

variable {host : Host} {s : Daemon}

/-- Nobody on the interface wants the packets of the entry. -/
def Abandoned (t : Table) (vif : Vif) (r : Route) : Prop :=
  ¬ t.HasMember vif r.group ∧ ¬ t.HasNeighbor vif

instance (t : Table) (vif : Vif) (r : Route) : Decidable (Abandoned t vif r) :=
  inferInstanceAs (Decidable (_ ∧ _))

/-- After a new neighbour exactly the closed interfaces that are not incoming are opened. -/
def RefreshesGain (host : Host) (s : Daemon) (vif : Vif) : Prop :=
  LeavesEntries (refreshMrt host vif .addNeighbor) s ((table s).entries.map fun item =>
    storeIf (item.2.outvif vif = 0 ∧ vif ≠ item.2.incoming) vif 1 1 item)

/-- After a lost neighbour exactly the open interfaces that nobody wants are closed. -/
def RefreshesLoss (host : Host) (s : Daemon) (vif : Vif) : Prop :=
  LeavesEntries (refreshMrt host vif .delNeighbor) s ((table s).entries.map fun item =>
    storeIf (item.2.outvif vif = 1 ∧ Abandoned (table s) vif item.2) vif 0 (-1) item)

/-- The same entries, and the same lists on one interface. -/
structure AgreeOn (vif : Vif) (s other : Daemon) : Prop where
  entries : (table other).entries = (table s).entries
  members : (table other).members vif = (table s).members vif
  neighbors : (table other).neighbors vif = (table s).neighbors vif

/-- `refresh_mrt` leaves the same entries in both states. -/
def RefreshAlike (host : Host) (vif : Vif) (i : Judge) (s other : Daemon) : Prop :=
  ∃ entries, LeavesEntries (refreshMrt host vif i) s entries ∧ LeavesEntries (refreshMrt host vif i) other entries

/-! ## What the code stores -/

theorem refreshes_gain (models : Models s (table s)) (vif : Vif) :
    LeavesEntries (refreshMrt host vif .addNeighbor) s ((table s).entries.map fun item =>
      storeIf (item.2.outvif vif = 0) vif 1 1 item) := by
  obtain ⟨s', run⟩ := refreshMrt_completes host models vif .addNeighbor
  refine ⟨s', run, ?_⟩
  rw [(refreshMrt_add_follows models run).models.table_eq]
  exact Table.refreshAdd_entries models.entries.nodup vif

theorem refreshes_loss (models : Models s (table s)) (vif : Vif) :
    LeavesEntries (refreshMrt host vif .delNeighbor) s ((table s).entries.map fun item =>
      storeIf (Abandoned (table s) Table.searchedVif item.2) vif 0 (-1) item) := by
  obtain ⟨s', run⟩ := refreshMrt_completes host models vif .delNeighbor
  refine ⟨s', run, ?_⟩
  rw [(refreshMrt_del_follows models run).models.table_eq, Table.refreshDel_entries models.entries.nodup]
  refine List.map_congr_left fun item _ => ?_
  have tested : (table s).Deserted item.2 = true ↔ Abandoned (table s) Table.searchedVif item.2 :=
    Table.deserted_iff
  simp only [storeIf, tested]

/-! ## When that is what is wanted -/

theorem refreshesGain_iff (models : Models s (table s)) (vif : Vif) :
    RefreshesGain host s vif ↔ ∀ item ∈ (table s).entries, item.2.outvif vif = 0 → vif ≠ item.2.incoming := by
  have moved : (1 : Int) ≠ 0 := by decide
  rw [RefreshesGain, leavesEntries_iff (refreshes_gain models vif), map_storeIf_eq_iff moved]
  simp only [iff_self_and]

theorem refreshesLoss_iff (models : Models s (table s)) (vif : Vif) :
    RefreshesLoss host s vif ↔ ∀ item ∈ (table s).entries,
      (Abandoned (table s) Table.searchedVif item.2 ↔ item.2.outvif vif = 1 ∧ Abandoned (table s) vif item.2) := by
  have moved : (-1 : Int) ≠ 0 := by decide
  rw [RefreshesLoss, leavesEntries_iff (refreshes_loss models vif), map_storeIf_eq_iff moved]

theorem refreshAlike_iff {vif : Vif} {i : Judge} {other : Daemon} {left right : List (Ptr × Route)}
    (first : LeavesEntries (refreshMrt host vif i) s left)
    (second : LeavesEntries (refreshMrt host vif i) other right) :
    RefreshAlike host vif i s other ↔ left = right := by
  constructor
  · rintro ⟨entries, one, two⟩
    exact ((leavesEntries_iff first).mp one).trans ((leavesEntries_iff second).mp two).symm
  · rintro rfl
    exact ⟨left, first, second⟩

/-- A new neighbour opens what it should on a table where the interface is not incoming or
already open; a lost one closes what it should if the interface `DEL_NEIGHBOR` is as
abandoned as the one that lost it.  What is stored for a lost neighbour depends on the lists
of that other interface. -/
theorem refresh_mrt_stores (host : Host) (models : Models s (table s)) (vif : Vif) :
    (RefreshesGain host s vif ↔
        ∀ item ∈ (table s).entries, item.2.outvif vif = 0 → vif ≠ item.2.incoming) ∧
      (RefreshesLoss host s vif ↔ ∀ item ∈ (table s).entries,
        (Abandoned (table s) Table.searchedVif item.2 ↔
          item.2.outvif vif = 1 ∧ Abandoned (table s) vif item.2)) ∧
      ∀ other, Models other (table other) → AgreeOn vif s other →
        RefreshAlike host vif .addNeighbor s other ∧
          (RefreshAlike host vif .delNeighbor s other ↔ ∀ item ∈ (table s).entries,
            (Abandoned (table s) Table.searchedVif item.2 ↔
              Abandoned (table other) Table.searchedVif item.2)) := by
  refine ⟨refreshesGain_iff models vif, refreshesLoss_iff models vif, fun other modelled agree => ?_⟩
  have moved : (-1 : Int) ≠ 0 := by decide
  constructor
  · rw [refreshAlike_iff (refreshes_gain models vif) (refreshes_gain modelled vif), agree.entries]
  · rw [refreshAlike_iff (refreshes_loss models vif) (refreshes_loss modelled vif), agree.entries,
      map_storeIf_eq_iff moved]

/-- A neighbour and an entry that forwards to it, and no one on the third interface. -/
theorem refresh_mrt_misread :
    ¬ ∀ (host : Host) (s : Daemon) (vif : Vif), Models s (table s) →
      RefreshesGain host s vif ∧ RefreshesLoss host s vif ∧
        ∀ other, Models other (table other) → AgreeOn vif s other →
          RefreshAlike host vif .addNeighbor s other ∧ RefreshAlike host vif .delNeighbor s other := by
  intro all
  have passed : endsWith router NoAssert
      [helloFrom (stationOn 2 9) 105, upcall 1 1 (stationOn 1 7) studio channel]
      (fun s => (table s).entries.any fun item => item.2.outvif 2 == 1 &&
        decide (Abandoned (table s) Table.searchedVif item.2 ∧ ¬ Abandoned (table s) 2 item.2)) = true := by
    decide +kernel
  obtain ⟨s, reached, left⟩ := reachable_of_endsWith passed
  obtain ⟨item, member, both⟩ := List.any_eq_true.mp left
  obtain ⟨none, wanted⟩ := of_decide_eq_true (Bool.and_eq_true_iff.mp both).2
  have models := reachable_models router_zeroFilled reached
  have stores := (refreshesLoss_iff models 2).mp (all router s 2 models).2.1 item member
  exact wanted (stores.mp none).2

/-- A Graft has opened the third interface of an entry, where nobody is, and the second one is closed. -/
theorem refresh_mrt_stores_session :
    ∃ s, Models s (table s) ∧ (∃ item ∈ (table s).entries,
        item.2.outvif 2 = 0 ∧ item.2.outvif 3 = 1 ∧ Abandoned (table s) 3 item.2) ∧
      RefreshesGain router s 2 ∧ RefreshesLoss router s 3 := by
  have passed : endsWith router NoAssert
      [upcall 1 1 (stationOn 1 7) studio channel, graftFrom (stationOn 3 9) (stationOn 3 1) studio channel]
      (fun s => decide ((table s).entries ≠ [] ∧ ∀ item ∈ (table s).entries, item.2.incoming = 1 ∧
        item.2.outvif 2 = 0 ∧ item.2.outvif 3 = 1 ∧ Abandoned (table s) 3 item.2)) = true := by decide +kernel
  obtain ⟨s, reached, ended⟩ := reachable_of_endsWith passed
  obtain ⟨some, each⟩ := of_decide_eq_true ended
  obtain ⟨item, member⟩ := List.exists_mem_of_ne_nil _ some
  have models := reachable_models router_zeroFilled reached
  obtain ⟨gain, _⟩ := refresh_mrt_stores router models 2
  obtain ⟨_, loss, _⟩ := refresh_mrt_stores router models 3
  refine ⟨s, models, ⟨item, member, (each item member).2⟩, gain.mpr ?_, loss.mpr ?_⟩
  · intro other listed _
    rw [(each other listed).1]
    decide
  · intro other listed
    obtain ⟨_, _, opened, left⟩ := each other listed
    exact iff_of_true left ⟨opened, left⟩

end PimDm.Property
