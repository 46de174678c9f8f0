import PimDm.Refinement.Completion
import PimDm.Refinement.Steps
import PimDm.Property.Session

/-!
# Removing a neighbour from its list

`delete_pim_neighbor` redirects the link of the record before the one it removes.  The first
record has none before it: the list is cut off at its head, and the pointer that is then
written through was never set.
-/

namespace PimDm.Property

open PimDm.Foundation PimDm.Source PimDm.Routing PimDm.Refinement

variable {host : Host} {s s' : Daemon} {vif : Vif} {entry : Ptr} {address : Addr}

/-- The list of the interface has lost this neighbour and nothing else. -/
structure WithoutNeighbor (s : Daemon) (vif : Vif) (address : Addr) (s' : Daemon) : Prop where
  list : s'.neighbors.Shows PimNeighbor.next PimNeighbor.address (s'.myvifs vif).neighbor
    (((table s).neighbors vif).filter fun item => item.2 ≠ address)
  gone : Runs (findneighbor address vif) s' 0 s'
  kept : ∀ other, other ≠ address → ∀ found,
    Runs (findneighbor other vif) s' found s' ↔ Runs (findneighbor other vif) s found s

/-- `delete_pim_neighbor` completes, and takes the neighbour out of the list. -/
def RemovesNeighbor (host : Host) (s : Daemon) (vif : Vif) (entry : Ptr) (address : Addr) : Prop :=
  ∃ s', Runs (deletePimNeighbor host entry) s () s' ∧ WithoutNeighbor s vif address s'

/-! ## The run -/

/-- Behind another record the unlinking completes. -/
theorem unlinkNeighbor_completes {t : Table} (models : Models s t) (address : Addr) {ahead behind : List (Ptr × Addr)}
    {item : Ptr × Addr} (split : t.neighbors vif = ahead ++ item :: behind) (inner : ahead ≠ []) :
    ∃ s', Runs (unlinkNeighbor vif address (ahead.getLast?.map Prod.fst) item.1) s () s' := by
  have shows := models.neighbors vif
  rw [split] at shows
  obtain ⟨first, rest, heads⟩ := List.exists_cons_of_ne_nil inner
  obtain ⟨front, last, ends⟩ := (List.eq_nil_or_concat' ahead).resolve_left inner
  have headed : (s.myvifs vif).neighbor = first.1 := by
    rw [heads, List.cons_append] at shows
    exact shows.start_eq
  obtain ⟨n, here, _⟩ := shows.found (show item ∈ ahead ++ item :: behind by simp)
  obtain ⟨head, top, _⟩ := shows.found (show first ∈ ahead ++ item :: behind by simp [heads])
  obtain ⟨before, found, _⟩ := shows.found (show last ∈ ahead ++ item :: behind by simp [ends])
  rw [← headed] at top
  have trailing : ahead.getLast?.map Prod.fst = some last.1 := by rw [ends, List.getLast?_concat]; rfl
  rw [trailing]
  unfold unlinkNeighbor
  simp only [runs_bind, runs_loadNeighbor, runs_onlyIf, runs_storeNeighbor]
  by_cases same : head.address = address
  · refine ⟨_, n, s, ⟨here, rfl⟩, s, s, runs_get.mpr ⟨rfl, rfl⟩, head, s, ⟨top, rfl⟩, (), _,
      Or.inl ⟨same, runs_modify.mpr rfl⟩, ⟨before, found⟩, rfl⟩
  · exact ⟨_, n, s, ⟨here, rfl⟩, s, s, runs_get.mpr ⟨rfl, rfl⟩, head, s, ⟨top, rfl⟩, (), s,
      Or.inr ⟨same, rfl⟩, ⟨before, found⟩, rfl⟩

/-- The search for a neighbour of a list without repeated addresses finds its record. -/
theorem findNeighborTrailing_finds {t : Table} (models : Models s t)
    (distinct : ((t.neighbors vif).map Prod.snd).Nodup) (member : (entry, address) ∈ t.neighbors vif) :
    ∃ ahead behind, t.neighbors vif = ahead ++ (entry, address) :: behind ∧
      (∀ other ∈ ahead, (other.2 == address) = false) ∧
      Runs (findNeighborTrailing vif address) s (ahead.getLast?.map Prod.fst, entry) s := by
  have read : ∀ found, s.neighbors.findTrailing PimNeighbor.next (fun n => n.address == address)
      (s.neighbors.size + 1) none (s.myvifs vif).neighbor = .ok found →
      Runs (findNeighborTrailing vif address) s found s := by
    intro found result
    rw [findNeighborTrailing, runs_get_bind, runs_liftHeap]
    exact ⟨result, rfl⟩
  rcases (models.neighbors vif).findTrailing_eq (fun n => n.address == address)
      (fun other => other == address) (fun _ => rfl) with
    ⟨last, none, absent⟩ | ⟨ahead, item, behind, split, before, here, some⟩
  · exact absurd (absent _ member) (by simp)
  · have listed : item ∈ t.neighbors vif := by simp [split]
    have same : item.2 = (entry, address).2 := eq_of_beq here
    obtain rfl := List.inj_on_of_nodup_map distinct listed member same
    exact ⟨ahead, behind, split, before, read _ some⟩

/-- On the interface of the neighbour, the call is the unlinking and `refresh_mrt`. -/
theorem deletePimNeighbor_runs {n : PimNeighbor} (record : s.neighbors.get? entry = some n)
    (direct : findVifDirect host n.address = vif) (real : vif ≠ 0) {last : Option Ptr} (nonnull : entry ≠ 0)
    (search : Runs (findNeighborTrailing vif n.address) s (last, entry) s) :
    Runs (deletePimNeighbor host entry) s () s' ↔ ∃ unlinked,
      Runs (unlinkNeighbor vif n.address last entry) s () unlinked ∧
        Runs (refreshMrt host vif .delNeighbor) unlinked () s' := by
  subst direct
  constructor
  · intro run
    obtain ⟨_, _, load, rest⟩ := runs_bind.mp run
    obtain ⟨read, rfl⟩ := runs_loadNeighbor.mp load
    obtain rfl := Option.some.inj (record.symm.trans read)
    rw [if_neg real] at rest
    obtain ⟨_, _, again, rest⟩ := runs_bind.mp rest
    obtain ⟨rfl, rfl⟩ := runs_deterministic search again
    obtain ⟨_, unlinked, unlink, refresh⟩ := runs_bind.mp rest
    rcases runs_onlyIf.mp unlink with ⟨_, unlink⟩ | ⟨null, _⟩
    · exact ⟨unlinked, unlink, refresh⟩
    · exact absurd nonnull null
  · rintro ⟨unlinked, unlink, refresh⟩
    refine runs_bind.mpr ⟨n, s, runs_loadNeighbor.mpr ⟨record, rfl⟩, ?_⟩
    rw [if_neg real]
    refine runs_bind.mpr ⟨_, s, search, runs_bind.mpr ⟨(), unlinked, ?_, refresh⟩⟩
    exact runs_onlyIf.mpr (Or.inl ⟨nonnull, unlink⟩)

/-! ## The list afterwards -/

/-- A list read from memory without one address answers searches for the others as before. -/
theorem withoutNeighbor_of_models {t t' : Table} (models : Models s t) (after : Models s' t')
    (list : t'.neighbors vif = (t.neighbors vif).filter fun item => item.2 ≠ address) :
    WithoutNeighbor s vif address s' := by
  have shows := after.neighbors vif
  rw [list] at shows
  refine ⟨by rw [models.table_eq]; exact shows, ?_, fun other different found => ?_⟩
  · refine after.runs_findneighbor.mpr ⟨?_, rfl⟩
    rw [list, List.find?_eq_none.mpr]
    · rfl
    · intro item member
      simpa using (List.mem_filter.mp member).2
  · rw [after.runs_findneighbor, models.runs_findneighbor, list, List.find?_filter]
    have same : ∀ item : Ptr × Addr, decide (decide (item.2 ≠ address) = true ∧ (item.2 == other) = true) =
        (item.2 == other) := by
      intro item
      by_cases here : item.2 = other
      · simp [here, different]
      · simp [here]
    simp only [same]

/-- On another interface, or on none, the list stays as it is. -/
theorem neighbors_apart {t : Table} (models : Models s t) {n : PimNeighbor}
    (record : s.neighbors.get? entry = some n) (apart : findVifDirect host n.address = vif → vif = 0)
    (run : Runs (deletePimNeighbor host entry) s () s') :
    ∃ t', Models s' t' ∧ t'.neighbors vif = t.neighbors vif := by
  refine ⟨_, (deletePimNeighbor_models models run).1, ?_⟩
  unfold lostNeighborChange
  simp only [record]
  by_cases none : findVifDirect host n.address = 0
  · rw [if_pos none]
    rfl
  · rw [if_neg none]
    have other : vif ≠ findVifDirect host n.address := fun same => none (same ▸ apart same.symm)
    rw [Change.apply, Table.delNeighbor, Table.refreshDel_neighbors, Table.neighbors_set_other other]

/-- Exactly the neighbours behind another one can be removed. -/
theorem neighbor_removed (models : Models s (table s)) (distinct : (((table s).neighbors vif).map Prod.snd).Nodup)
    (member : (entry, address) ∈ (table s).neighbors vif) :
    RemovesNeighbor host s vif entry address ↔
      findVifDirect host address = vif ∧ vif ≠ 0 ∧ (s.myvifs vif).neighbor ≠ entry := by
  obtain ⟨n, record, same⟩ := (models.neighbors vif).found member
  have nonnull : entry ≠ 0 := (models.neighbors vif).nonnull member
  have same : n.address = address := same
  subst same
  obtain ⟨ahead, behind, split, before, search⟩ := findNeighborTrailing_finds models distinct member
  have shows := models.neighbors vif
  rw [split] at shows
  have inner : (s.myvifs vif).neighbor ≠ entry ↔ ahead ≠ [] := not_congr shows.start_eq_iff
  have erased : ((table s).neighbors vif).filter (fun item => item.2 ≠ n.address) = ahead ++ behind := by
    have distinct := distinct
    rw [split] at distinct ⊢
    exact filter_split distinct
  rw [inner]
  constructor
  · rintro ⟨s', run, without⟩
    by_cases here : findVifDirect host n.address = vif ∧ vif ≠ 0
    · obtain ⟨unlinked, unlink, _⟩ := (deletePimNeighbor_runs record here.1 here.2 nonnull search).mp run
      exact ⟨here.1, here.2, (unlinkNeighbor_models models split before unlink).1⟩
    · have apart : findVifDirect host n.address = vif → vif = 0 := fun direct => by
        by_contra real
        exact here ⟨direct, real⟩
      obtain ⟨t', after, list⟩ := neighbors_apart models record apart run
      have unchanged := without.list.view_eq.symm.trans (after.neighbors vif).view_eq
      rw [list] at unchanged
      have still := unchanged ▸ member
      simp at still
  · rintro ⟨direct, real, inner⟩
    obtain ⟨unlinked, unlink⟩ := unlinkNeighbor_completes models n.address split inner
    have left := (unlinkNeighbor_models models split before unlink).2
    obtain ⟨s', refresh⟩ := refreshMrt_completes host left vif .delNeighbor
    refine ⟨s', (deletePimNeighbor_runs record direct real nonnull search).mpr ⟨unlinked, unlink, refresh⟩, ?_⟩
    refine withoutNeighbor_of_models models (refreshMrt_del_follows left refresh).models ?_
    rw [Table.refreshDel_neighbors, Table.neighbors_set_self, erased]

/-- The only neighbour of an interface: no record is before it. -/
theorem neighbor_removed_first :
    ¬ ∀ (host : Host) (s : Daemon) (vif : Vif) (entry : Ptr) (address : Addr), Models s (table s) →
      (((table s).neighbors vif).map Prod.snd).Nodup → (entry, address) ∈ (table s).neighbors vif →
      RemovesNeighbor host s vif entry address := by
  intro all
  have passed : endsWith router NoAssert [helloFrom (stationOn 2 9) 105]
      (fun s => decide ((((table s).neighbors 2).map Prod.snd).Nodup ∧
        ((s.myvifs 2).neighbor, stationOn 2 9) ∈ (table s).neighbors 2)) = true := by decide +kernel
  obtain ⟨s, reached, listed⟩ := reachable_of_endsWith passed
  obtain ⟨distinct, member⟩ := of_decide_eq_true listed
  have models := reachable_models router_zeroFilled reached
  have removed := all router s 2 _ _ models distinct member
  exact ((neighbor_removed models distinct member).mp removed).2.2 rfl

/-- The neighbour heard first of two. -/
theorem neighbor_removed_last :
    ∃ s entry, Models s (table s) ∧ (((table s).neighbors 2).map Prod.snd).Nodup ∧
      (entry, stationOn 2 9) ∈ (table s).neighbors 2 ∧ RemovesNeighbor router s 2 entry (stationOn 2 9) := by
  have passed : endsWith router NoAssert [helloFrom (stationOn 2 9) 105, helloFrom (stationOn 2 7) 105]
      (fun s => decide ((((table s).neighbors 2).map Prod.snd).Nodup ∧
        ∃ item ∈ (table s).neighbors 2, item.2 = stationOn 2 9 ∧ (s.myvifs 2).neighbor ≠ item.1)) = true := by
    decide +kernel
  obtain ⟨s, reached, listed⟩ := reachable_of_endsWith passed
  obtain ⟨distinct, ⟨entry, address⟩, member, rfl, later⟩ := of_decide_eq_true listed
  have models := reachable_models router_zeroFilled reached
  refine ⟨s, entry, models, distinct, member, ?_⟩
  exact (neighbor_removed models distinct member).mpr ⟨by decide +kernel, by decide, later⟩

end PimDm.Property
