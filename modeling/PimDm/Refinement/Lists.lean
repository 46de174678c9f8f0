import PimDm.Refinement.Forwarding
import PimDm.Refinement.Request

/-!
# Changes of the lists of an interface

Reports and leaves change the group list of an interface, Hellos and expiries
its neighbour list.  A record that leaves a list is in no other, so the lists of
the other interfaces stay as they are.
-/

namespace PimDm.Refinement

open PimDm.Foundation PimDm.Source PimDm.Effect PimDm.Routing

variable {s s' : Daemon} {t : Table} {host : Host}

/-! ## Records of different interfaces -/

theorem Apart.update {items : Vif → List (Ptr × Addr)} (apart : Apart items) (vif : Vif)
    {changed : List (Ptr × Addr)}
    (fresh : ∀ address ∈ changed.map Prod.fst, ∀ other, other ≠ vif →
      address ∉ (items other).map Prod.fst) : Apart (Function.update items vif changed) := by
  intro first second different address inside
  by_cases left : first = vif
  · subst left
    rw [Function.update_self] at inside
    rw [Function.update_of_ne (Ne.symm different)]
    exact fresh address inside second (Ne.symm different)
  · rw [Function.update_of_ne left] at inside
    by_cases right : second = vif
    · subst right
      rw [Function.update_self]
      exact fun again => fresh address again first left inside
    · rw [Function.update_of_ne right]
      exact apart first second different address inside

/-- A list that only lost records is still apart from the others. -/
theorem Apart.shrink {items : Vif → List (Ptr × Addr)} (apart : Apart items) (vif : Vif)
    {changed : List (Ptr × Addr)} (fewer : changed.Sublist (items vif)) :
    Apart (Function.update items vif changed) := by
  refine apart.update vif fun address inside other different => ?_
  exact apart vif other (Ne.symm different) address ((fewer.map Prod.fst).subset inside)

theorem Models.fresh_group (models : Models s t) (vif : Vif) :
    s.groups.fresh ∉ (t.members vif).map Prod.fst := by
  intro inside
  obtain ⟨item, member, same⟩ := List.mem_map.mp inside
  obtain ⟨g, found, _⟩ := (models.members vif).found member
  exact Heap.ne_fresh_of_get? found same

theorem Models.fresh_neighbor (models : Models s t) (vif : Vif) :
    s.neighbors.fresh ∉ (t.neighbors vif).map Prod.fst := by
  intro inside
  obtain ⟨item, member, same⟩ := List.mem_map.mp inside
  obtain ⟨n, found, _⟩ := (models.neighbors vif).found member
  exact Heap.ne_fresh_of_get? found same

/-! ## Linking -/

/-- A record in front of a group list; the first one is from clean memory. -/
theorem Models.linkGroup (models : Models s t) (vif : Vif) {g : IgmpGroup}
    (clean : (s.myvifs vif).groups = 0 → g.next = 0) :
    Models (s.linkGroup vif g)
      (t.setMembers vif ((s.groups.fresh, g.address) :: t.members vif)) := by
  have link : (if (s.myvifs vif).groups ≠ 0 then { g with next := (s.myvifs vif).groups }
      else g).next = (s.myvifs vif).groups := by
    by_cases empty : (s.myvifs vif).groups = 0
    · rw [if_neg (not_not.mpr empty), clean empty, empty]
    · rw [if_pos empty]
  have address : (if (s.myvifs vif).groups ≠ 0 then { g with next := (s.myvifs vif).groups }
      else g).address = g.address := by
    split <;> rfl
  refine ⟨models.entries, fun other => ?_, fun other => ?_, ?_, models.neighborsApart, models.mfc⟩
  · by_cases here : other = vif
    · subst here
      have pushed := (models.members other).push link
      rw [address] at pushed
      simpa [Daemon.linkGroup, Table.setMembers] using pushed
    · simpa [Daemon.linkGroup, Table.setMembers, here] using (models.members other).alloc_other _
  · by_cases here : other = vif
    · subst here
      simpa [Daemon.linkGroup, Table.setMembers] using models.neighbors other
    · simpa [Daemon.linkGroup, Table.setMembers, here] using models.neighbors other
  · refine models.membersApart.update vif fun record inside other different => ?_
    rcases List.mem_cons.mp inside with rfl | old
    · exact models.fresh_group other
    · exact models.membersApart vif other (Ne.symm different) record old

theorem Models.linkNeighbor (models : Models s t) (vif : Vif) {n : PimNeighbor}
    (link : n.next = (s.myvifs vif).neighbor) :
    Models (s.linkNeighbor vif n)
      (t.setNeighbors vif ((s.neighbors.fresh, n.address) :: t.neighbors vif)) := by
  refine ⟨models.entries, fun other => ?_, fun other => ?_, models.membersApart, ?_, models.mfc⟩
  · by_cases here : other = vif
    · subst here
      simpa [Daemon.linkNeighbor, Table.setNeighbors] using models.members other
    · simpa [Daemon.linkNeighbor, Table.setNeighbors, here] using models.members other
  · by_cases here : other = vif
    · subst here
      simpa [Daemon.linkNeighbor, Table.setNeighbors] using (models.neighbors other).push link
    · simpa [Daemon.linkNeighbor, Table.setNeighbors, here] using
        (models.neighbors other).alloc_other n
  · refine models.neighborsApart.update vif fun entry inside other different => ?_
    rcases List.mem_cons.mp inside with rfl | old
    · exact models.fresh_neighbor other
    · exact models.neighborsApart vif other (Ne.symm different) entry old

/-! ## Unlinking -/

theorem names_apart {ahead behind : List (Ptr × Addr)} {item : Ptr × Addr} {vif other : Vif}
    {items : Vif → List (Ptr × Addr)} (apart : Apart items)
    (split : items vif = ahead ++ item :: behind) (different : other ≠ vif) {record : Ptr × Addr}
    (inside : record ∈ ahead ++ item :: behind) : record.1 ∉ (items other).map Prod.fst := by
  rw [← split] at inside
  exact apart vif other (Ne.symm different) record.1 (List.mem_map_of_mem inside)

theorem sublist_without {ahead behind : List (Ptr × Addr)} {item : Ptr × Addr} :
    (ahead ++ behind).Sublist (ahead ++ item :: behind) :=
  (List.Sublist.refl ahead).append (List.sublist_cons_self item behind)

/-- A record that is not the head is unlinked behind the trailing pointer and freed. -/
theorem unlinkGroup_cases {vif : Vif} {temp : Option Ptr} {g : Ptr} {record : IgmpGroup}
    (run : Runs (unlinkGroup host vif temp g record) s () s') :
    (g ≠ (s.myvifs vif).groups ∧ ∃ before, temp = some before ∧
        (∃ block, (s.setGroup before fun b => { b with next := record.next }).groups.get? g = some block) ∧
        s' = (s.setGroup before fun b => { b with next := record.next }).setGroup g fun _ => host.freedGroup g) ∨
      g = (s.myvifs vif).groups ∧ s' = s.setMyvif vif fun myv => { myv with groups := record.next } := by
  unfold unlinkGroup at run
  rw [runs_get_bind] at run
  rcases runs_ite.mp run with ⟨inner, unlinked⟩ | ⟨head, unlinked⟩
  · cases temp with
    | none => exact (runs_throw.mp unlinked).elim
    | some before =>
        obtain ⟨_, _, redirect, free⟩ := runs_bind.mp unlinked
        obtain ⟨_, rfl⟩ := runs_storeGroup.mp redirect
        obtain ⟨here, rfl⟩ := runs_storeGroup.mp free
        exact Or.inl ⟨inner, before, rfl, here, rfl⟩
  · exact Or.inr ⟨not_not.mp head, runs_modify.mp unlinked⟩

/-- The unlinking of `leave_query`, and the group it then reads from the record. -/
theorem unlinkGroup_models (models : Models s t) {vif : Vif} {ahead behind : List (Ptr × Addr)}
    {item : Ptr × Addr} (split : t.members vif = ahead ++ item :: behind) {record : IgmpGroup}
    (found : s.groups.get? item.1 = some record) (address : record.address = item.2)
    (run : Runs (unlinkGroup host vif (ahead.getLast?.map Prod.fst) item.1 record) s () s') :
    Models s' (t.setMembers vif (ahead ++ behind)) ∧
      ∃ freed, s'.groups.get? item.1 = some freed ∧
        freed.address = if item.1 = (s.myvifs vif).groups then item.2
          else (host.freedGroup item.1).address := by
  have shows := models.members vif
  rw [split] at shows
  have shrunk : Apart (Function.update t.members vif (ahead ++ behind)) := by
    refine models.membersApart.shrink vif ?_
    rw [split]
    exact sublist_without
  rcases unlinkGroup_cases run with ⟨inner, trailing, last, ⟨old, here⟩, rfl⟩ | ⟨head, rfl⟩
  · have nonempty : ahead ≠ [] := fun empty => inner (shows.start_eq_iff.mpr empty).symm
    rcases List.eq_nil_or_concat' ahead with empty | ⟨front, before, rfl⟩
    · exact absurd empty nonempty
    rw [List.append_assoc, List.cons_append, List.nil_append] at shows
    have insideBefore : before ∈ front ++ [before] ++ item :: behind := by simp
    have insideItem : item ∈ front ++ [before] ++ item :: behind := by simp
    rw [List.getLast?_concat, Option.map_some] at last
    obtain rfl := Option.some.inj last
    refine ⟨⟨models.entries, fun other => ?_, models.neighbors, shrunk, models.neighborsApart,
      models.mfc⟩, host.freedGroup item.1, ?_, ?_⟩
    · by_cases same : other = vif
      · subst same
        have unlinked := shows.unlink found (fun g => { g with next := record.next })
          (fun _ => rfl) fun _ => rfl
        have gone : item.1 ∉ (front ++ before :: behind).map Prod.fst := by
          have distinct := shows.nodup
          simp only [List.map_append, List.map_cons, List.nodup_append, List.nodup_cons] at distinct
          simp only [List.map_append, List.map_cons, List.mem_append, List.mem_cons]
          grind
        have kept := unlinked.modify_other (fun _ => host.freedGroup item.1) gone
        simpa [Daemon.setGroup, Table.setMembers] using kept
      · have kept := ((models.members other).modify_other
          (fun g => { g with next := record.next })
          (names_apart models.membersApart split same insideBefore)).modify_other
          (fun _ => host.freedGroup item.1) (names_apart models.membersApart split same insideItem)
        simpa [Daemon.setGroup, Table.setMembers, same] using kept
    · simp only [Daemon.setGroup] at here ⊢
      rw [Heap.get?_modify_same, here, Option.map_some]
    · rw [if_neg inner]
  · have first : ahead = [] := shows.start_eq_iff.mp head.symm
    subst first
    refine ⟨⟨models.entries, fun other => ?_, fun other => ?_, shrunk, models.neighborsApart,
      models.mfc⟩, record, found, ?_⟩
    · by_cases same : other = vif
      · subst same
        simpa [Daemon.setMyvif, Table.setMembers] using shows.tail found
      · simpa [Daemon.setMyvif, Table.setMembers, same] using models.members other
    · by_cases same : other = vif
      · subst same
        simpa [Daemon.setMyvif, Table.setMembers] using models.neighbors other
      · simpa [Daemon.setMyvif, Table.setMembers, same] using models.neighbors other
    · rw [if_pos head, address]

/-! ## Reports and leaves -/

theorem acceptGroupReport_models (models : Models s t) {src group : Addr}
    (clean : findVifDirect host src ≠ 0 → (s.myvifs (findVifDirect host src)).groups = 0 →
      (host.mallocGroup s.groups.fresh).next = 0)
    (run : Runs (acceptGroupReport host src group) s () s') :
    Models s' ((reportChange host s src group).apply host t) := by
  unfold reportChange
  rw [models.table_eq]
  rcases runs_ite.mp run with ⟨none, stop⟩ | ⟨direct, search⟩
  · rw [if_pos (Or.inl none), (runs_pure.mp stop).2]
    exact models
  obtain ⟨_, _, looked, decided⟩ := runs_bind.mp search
  obtain ⟨rfl, rfl⟩ := models.runs_findGroup.mp looked
  rcases runs_ite.mp decided with ⟨known, cancel⟩ | ⟨unknown, link⟩
  · rw [if_pos (Or.inr (models.hasMember_iff.mp known))]
    exact models_of_quiet (cancelLeave_changes _) models cancel
  · have absent : ¬ (findVifDirect host src = 0 ∨ t.HasMember (findVifDirect host src) group) := by
      rintro (none | member)
      · exact direct none
      · exact unknown (models.hasMember_iff.mpr member)
    rw [if_neg absent]
    obtain ⟨_, _, modified, add⟩ := runs_bind.mp link
    obtain rfl := runs_modify.mp modified
    refine (addLeaf_follows (models.linkGroup _ ?_) add).models
    exact clean direct

/-- The search with a trailing pointer through the groups of an interface. -/
theorem Models.runs_findGroupTrailing (models : Models s t) {vif : Vif} {group : Addr}
    {found : Option Ptr × Ptr} (run : Runs (findGroupTrailing vif group) s found s') :
    s' = s ∧ ((found.2 = 0 ∧ ∀ item ∈ t.members vif, (item.2 == group) = false) ∨
      ∃ ahead item behind, t.members vif = ahead ++ item :: behind ∧
        (∀ other ∈ ahead, (other.2 == group) = false) ∧ (item.2 == group) = true ∧
        found = (ahead.getLast?.map Prod.fst, item.1)) := by
  rw [findGroupTrailing, runs_get_bind, runs_liftHeap] at run
  obtain ⟨result, rfl⟩ := run
  refine ⟨rfl, ?_⟩
  rcases (models.members vif).findTrailing_eq (fun g => g.address == group)
      (fun address => address == group) (fun _ => rfl) with
    ⟨last, none, absent⟩ | ⟨ahead, item, behind, split, before, here, some⟩
  · obtain rfl := Except.ok.inj (none.symm.trans result)
    exact Or.inl ⟨rfl, absent⟩
  · obtain rfl := Except.ok.inj (some.symm.trans result)
    exact Or.inr ⟨ahead, item, behind, split, before, here, rfl⟩

theorem leaveQuery_models (models : Models s t) {vif : Vif} {group : Addr}
    (run : Runs (leaveQuery host vif group) s () s') :
    Models s' ((leaveChange host s vif group).apply host t) := by
  unfold leaveChange
  rw [models.table_eq]
  obtain ⟨found, _, looked, decided⟩ := runs_bind.mp run
  obtain ⟨rfl, ⟨null, absent⟩ | ⟨ahead, item, behind, split, before, here, rfl⟩⟩ :=
    models.runs_findGroupTrailing looked
  · have none : (t.members vif).find? (fun item => item.2 == group) = none :=
      List.find?_eq_none.mpr fun item member => by simp [absent item member]
    rw [if_pos null] at decided
    rw [none, (runs_pure.mp decided).2]
    exact models
  · have member : item ∈ t.members vif := by simp [split]
    have first : (t.members vif).find? (fun item => item.2 == group) = some item := by
      rw [split]
      exact find?_split before here
    obtain ⟨g, record, address⟩ := (models.members vif).found member
    have nonnull := (models.members vif).nonnull member
    rw [if_neg nonnull] at decided
    obtain ⟨_, _, load, branches⟩ := runs_bind.mp decided
    obtain ⟨read, rfl⟩ := runs_loadGroup.mp load
    obtain rfl := Option.some.inj (record.symm.trans read)
    rw [first]
    simp only [record]
    rcases runs_ite.mp branches with ⟨twice, query⟩ | ⟨notTwice, branches⟩
    · rw [if_pos (Or.inl twice)]
      refine models_of_quiet ?_ models query
      refine does_bind (igmpOutput_changes _ _ _ _ _) fun _ => ?_
      refine does_bind (timerSetTimer_changes _ trivial) fun timer => ?_
      exact storeLeavePhase_changes _ timer 0
    · rcases runs_ite.mp branches with ⟨once, wait⟩ | ⟨notOnce, remove⟩
      · rw [if_pos (Or.inr once)]
        refine models_of_quiet ?_ models wait
        refine does_bind (timerSetTimer_changes _ trivial) fun timer => ?_
        exact storeLeavePhase_changes _ timer (-1)
      · rw [if_neg (not_or.mpr ⟨notTwice, notOnce⟩)]
        obtain ⟨_, _, again, unlinkAndRead⟩ := runs_bind.mp remove
        obtain ⟨read, rfl⟩ := runs_loadGroup.mp again
        obtain rfl := Option.some.inj (record.symm.trans read)
        obtain ⟨_, _, unlink, readAndDelete⟩ := runs_bind.mp unlinkAndRead
        obtain ⟨unlinked, freed, memory, left⟩ := unlinkGroup_models models split record address unlink
        obtain ⟨_, _, readFreed, delete⟩ := runs_bind.mp readAndDelete
        obtain ⟨freedRead, rfl⟩ := runs_loadGroup.mp readFreed
        obtain rfl := Option.some.inj (memory.symm.trans freedRead)
        have erased : (t.members vif).eraseP (fun item => item.2 == group) = ahead ++ behind := by
          rw [split]
          exact eraseP_split before here
        have deleted := (delLeaf_follows unlinked delete).models
        rw [left] at deleted
        rw [eq_of_beq here] at deleted
        simp only [Change.apply, Table.leave, erased]
        exact deleted

/-! ## Neighbours -/

/-- The search with a trailing pointer through the neighbours of an interface. -/
theorem Models.runs_findNeighborTrailing (models : Models s t) {vif : Vif} {address : Addr}
    {found : Option Ptr × Ptr} (run : Runs (findNeighborTrailing vif address) s found s') :
    s' = s ∧ ((found.2 = 0 ∧ ∀ item ∈ t.neighbors vif, (item.2 == address) = false) ∨
      ∃ ahead item behind, t.neighbors vif = ahead ++ item :: behind ∧
        (∀ other ∈ ahead, (other.2 == address) = false) ∧ (item.2 == address) = true ∧
        found = (ahead.getLast?.map Prod.fst, item.1)) := by
  rw [findNeighborTrailing, runs_get_bind, runs_liftHeap] at run
  obtain ⟨result, rfl⟩ := run
  refine ⟨rfl, ?_⟩
  rcases (models.neighbors vif).findTrailing_eq (fun n => n.address == address)
      (fun other => other == address) (fun _ => rfl) with
    ⟨last, none, absent⟩ | ⟨ahead, item, behind, split, before, here, some⟩
  · obtain rfl := Except.ok.inj (none.symm.trans result)
    exact Or.inl ⟨rfl, absent⟩
  · obtain rfl := Except.ok.inj (some.symm.trans result)
    exact Or.inr ⟨ahead, item, behind, split, before, here, rfl⟩

/-- The unlinking of `delete_pim_neighbor` completes only for a record that is
not the first of its list. -/
theorem unlinkNeighbor_models (models : Models s t) {vif : Vif} {address : Addr}
    {ahead behind : List (Ptr × Addr)} {item : Ptr × Addr}
    (split : t.neighbors vif = ahead ++ item :: behind)
    (before : ∀ other ∈ ahead, (other.2 == address) = false)
    (run : Runs (unlinkNeighbor vif address (ahead.getLast?.map Prod.fst) item.1) s () s') :
    ahead ≠ [] ∧ Models s' (t.setNeighbors vif (ahead ++ behind)) := by
  have shows := models.neighbors vif
  rw [split] at shows
  have shrunk : Apart (Function.update t.neighbors vif (ahead ++ behind)) := by
    refine models.neighborsApart.shrink vif ?_
    rw [split]
    exact sublist_without
  unfold unlinkNeighbor at run
  obtain ⟨entry, _, load, rest⟩ := runs_bind.mp run
  obtain ⟨found, rfl⟩ := runs_loadNeighbor.mp load
  rw [runs_get_bind] at rest
  obtain ⟨head, _, loadHead, reset⟩ := runs_bind.mp rest
  obtain ⟨first, rfl⟩ := runs_loadNeighbor.mp loadHead
  obtain ⟨_, middle, test, redirect⟩ := runs_bind.mp reset
  rcases List.eq_nil_or_concat' ahead with rfl | ⟨front, last, rfl⟩
  · exact (runs_throw.mp redirect).elim
  refine ⟨by simp, ?_⟩
  have apart : head.address ≠ address := by
    obtain ⟨top, others, cons⟩ := List.exists_cons_of_ne_nil (l := front ++ [last]) (by simp)
    rw [cons, List.cons_append] at shows
    rw [shows.start_eq] at first
    obtain ⟨block, here, same⟩ := shows.found (List.mem_cons_self ..)
    obtain rfl := Option.some.inj (here.symm.trans first)
    have differs := before top (by simp [cons])
    rw [same]
    exact ne_of_beq_false differs
  rcases runs_onlyIf.mp test with ⟨same, _⟩ | ⟨_, rfl⟩
  · exact absurd same apart
  rw [List.append_assoc, List.cons_append, List.nil_append] at shows
  rw [List.getLast?_concat, Option.map_some] at redirect
  obtain ⟨_, rfl⟩ := runs_storeNeighbor.mp redirect
  refine ⟨models.entries, models.members, fun other => ?_, models.membersApart, shrunk, models.mfc⟩
  by_cases same : other = vif
  · subst same
    have unlinked := shows.unlink found (fun n => { n with next := entry.next }) (fun _ => rfl)
      fun _ => rfl
    simpa [Daemon.setNeighbor, Table.setNeighbors] using unlinked
  · have inside : last ∈ front ++ [last] ++ item :: behind := by simp
    have kept := (models.neighbors other).modify_other (fun n => { n with next := entry.next })
      (names_apart models.neighborsApart split same inside)
    simpa [Daemon.setNeighbor, Table.setNeighbors, same] using kept

theorem deletePimNeighbor_models (models : Models s t) {entry : Ptr}
    (run : Runs (deletePimNeighbor host entry) s () s') :
    Models s' ((lostNeighborChange host s entry).apply host t) ∧
      ∀ vif, t.HasNeighbor vif → ((lostNeighborChange host s entry).apply host t).HasNeighbor vif := by
  unfold lostNeighborChange
  obtain ⟨n, _, load, rest⟩ := runs_bind.mp run
  obtain ⟨record, rfl⟩ := runs_loadNeighbor.mp load
  simp only [record]
  rcases runs_ite.mp rest with ⟨none, stop⟩ | ⟨direct, rest⟩
  · rw [if_pos none, (runs_pure.mp stop).2]
    exact ⟨models, fun _ => id⟩
  rw [if_neg direct]
  simp only [Change.apply, Table.delNeighbor]
  obtain ⟨found, _, search, continued⟩ := runs_bind.mp rest
  obtain ⟨_, unlinked, unlink, refresh⟩ := runs_bind.mp continued
  obtain ⟨rfl, ⟨null, absent⟩ | ⟨ahead, item, behind, split, before, here, rfl⟩⟩ :=
    models.runs_findNeighborTrailing search
  · rcases runs_onlyIf.mp unlink with ⟨nonnull, _⟩ | ⟨_, rfl⟩
    · exact absurd null nonnull
    · rw [List.eraseP_of_forall_not fun item member => by simp [absent item member]]
      rw [Table.setNeighbors_self]
      refine ⟨(refreshMrt_del_follows models refresh).models, fun vif has => ?_⟩
      rw [Table.HasNeighbor, Table.refreshDel_neighbors]
      exact has
  · have member : item ∈ t.neighbors (findVifDirect host n.address) := by simp [split]
    rcases runs_onlyIf.mp unlink with ⟨_, unlink⟩ | ⟨null, _⟩
    · obtain ⟨nonempty, unlinked⟩ := unlinkNeighbor_models models split before unlink
      rw [split, eraseP_split before here]
      refine ⟨(refreshMrt_del_follows unlinked refresh).models, fun vif has => ?_⟩
      rw [Table.HasNeighbor, Table.refreshDel_neighbors]
      exact Table.hasNeighbor_setNeighbors (by simp [nonempty]) has
    · exact absurd ((models.neighbors _).nonnull member) null

theorem addPimNeighbor_models (models : Models s t) {src : Addr} {holdtime : Int} {vif : Vif}
    (run : Runs (addPimNeighbor host src holdtime vif) s () s') :
    Models s' (t.addNeighbor host vif s.neighbors.fresh src) := by
  unfold addPimNeighbor at run
  rw [runs_get_bind] at run
  obtain ⟨timeoutid, _, set, rest⟩ := runs_bind.mp run
  obtain ⟨_, _, link, refresh⟩ := runs_bind.mp rest
  obtain ⟨rfl, rfl⟩ := runs_timerSetTimer.mp set
  obtain rfl := runs_modify.mp link
  have timed := models_quiet models (.setTimer holdtime (.deletePimNeighbor s.neighbors.fresh))
    (Level.quiet_le _)
  exact (refreshMrt_add_follows (timed.linkNeighbor vif rfl) refresh).models

/-- `valid_packet` completes only on a correct checksum, and accepts on-link senders. -/
theorem runs_validPacket {src : Addr} {data : Memory} {length : Int} {valid : Bool}
    (run : Runs (validPacket host src data length) s valid s') :
    s' = s ∧ inetCksum data length = 0 ∧ (valid = true ↔ findVifDirect host src ≠ 0) := by
  rcases runs_ite.mp run with ⟨_, fault⟩ | ⟨correct, checked⟩
  · exact (runs_throw.mp fault).elim
  have correct := not_not.mp correct
  rcases runs_ite.mp checked with ⟨none, stop⟩ | ⟨direct, stop⟩
  · obtain ⟨rfl, rfl⟩ := runs_pure.mp stop
    simp [correct, none]
  · obtain ⟨rfl, rfl⟩ := runs_pure.mp stop
    simp [correct, direct, (findVifDirect_serves direct).active]

/-- It accepts every sender on a network of the router whose checksum is correct. -/
theorem validPacket_accepts {src : Addr} {data : Memory} {length : Int} (correct : inetCksum data length = 0)
    (direct : findVifDirect host src ≠ 0) : Runs (validPacket host src data length) s true s := by
  unfold validPacket
  rw [if_neg (not_not.mpr correct), if_neg direct, (findVifDirect_serves direct).active]
  exact runs_pure.mpr ⟨rfl, rfl⟩

theorem receiveHello_models (models : Models s t) {src : Addr} {data : Memory} {length : Int}
    (run : Runs (receiveHello host src data length) s () s') :
    Models s' ((helloChange host s src data length).apply host t) ∧
      ∀ vif, t.HasNeighbor vif →
        ((helloChange host s src data length).apply host t).HasNeighbor vif := by
  unfold helloChange
  obtain ⟨valid, _, check, rest⟩ := runs_bind.mp run
  obtain ⟨rfl, _, accepted⟩ := runs_validPacket check
  rcases runs_ite.mp rest with ⟨refused, stop⟩ | ⟨passed, rest⟩
  · have none : findVifDirect host src = 0 := by
      by_contra direct
      simp [accepted.mpr direct] at refused
    rw [if_pos none, (runs_pure.mp stop).2]
    exact ⟨models, fun _ => id⟩
  have direct : findVifDirect host src ≠ 0 := accepted.mp (by simpa using passed)
  rw [if_neg direct]
  obtain ⟨holdtime, _, parse, searching⟩ := runs_bind.mp rest
  obtain ⟨parsed, rfl⟩ := runs_liftHeap.mp parse
  simp only [parsed]
  obtain ⟨entry, _, search, deciding⟩ := runs_bind.mp searching
  obtain ⟨rfl, rfl⟩ := models.runs_findneighbor.mp search
  rw [models.table_eq]
  cases found : (t.neighbors (findVifDirect host src)).find? fun item => item.2 == src with
  | none =>
      have unknown : ((t.neighbors (findVifDirect host src)).any fun item => item.2 == src) = false := by
        rw [List.any_eq_false]
        exact List.find?_eq_none.mp found
      rw [found, if_neg (by simp [addressOf])] at deciding
      rw [unknown, if_neg (by simp)]
      refine ⟨addPimNeighbor_models models deciding, fun vif has => ?_⟩
      rw [Change.apply, Table.HasNeighbor, Table.addNeighbor, Table.refreshAdd_neighbors]
      exact Table.hasNeighbor_setNeighbors (List.cons_ne_nil _ _) has
  | some item =>
      have member := List.mem_of_find?_eq_some found
      have holds := List.find?_some (p := fun other : Ptr × Addr => other.2 == src) found
      obtain ⟨n, record, address⟩ := (models.neighbors _).found member
      have nonnull := (models.neighbors _).nonnull member
      have known : ((t.neighbors (findVifDirect host src)).any fun item => item.2 == src) = true :=
        List.any_eq_true.mpr ⟨item, member, holds⟩
      rw [found, addressOf, Option.map_some, Option.getD_some, if_pos nonnull] at deciding
      rw [known, if_pos rfl]
      rcases runs_ite.mp deciding with ⟨goodbye, delete⟩ | ⟨stays, refresh⟩
      · have lost := deletePimNeighbor_models models delete
        unfold lostNeighborChange at lost
        rw [if_pos goodbye]
        simp only [record, address, eq_of_beq holds, if_neg direct] at lost
        exact lost
      · rw [if_neg stays]
        refine ⟨models_of_quiet ?_ models refresh, fun _ => id⟩
        exact refreshNeighbor_changes (fun _ => trivial) item.1 holdtime

end PimDm.Refinement
