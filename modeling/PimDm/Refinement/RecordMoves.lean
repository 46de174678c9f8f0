import PimDm.Refinement.Membership

/-!
# Changes of one record and the memberships of all groups

A record is the record of one group on one interface.  A new timer for it, its
cancellation, its linking and its unlinking change the membership of that group, and
leave the records of all others.
-/

namespace PimDm.Refinement

open PimDm.Foundation PimDm.Source PimDm.Effect PimDm.Routing

variable {s s' : Daemon} {t : Table} {host : Host}

/-! ## One record -/

theorem membership_listed {vif : Vif} {group : Addr} {record : Ptr} {g : IgmpGroup}
    (listed : Listed s (table s) vif group record g) :
    (membership s vif group).record = some (phaseOf g) := by
  simp only [membership, listed.found, Option.bind_some, listed.content, Option.map_some]

theorem membership_absent {vif : Vif} {group : Addr}
    (absent : ((table s).members vif).find? (fun item => item.2 == group) = none) :
    (membership s vif group).record = none := by
  simp only [membership, absent, Option.bind_none]

/-- A record belongs to one group on one interface. -/
theorem Models.record_unique (models : Models s t) {vif other : Vif} {group address : Addr} {record : Ptr}
    (one : (record, group) ∈ t.members vif) (two : (record, address) ∈ t.members other) :
    vif = other ∧ group = address := by
  have same : vif = other := by
    by_contra different
    exact models.membersApart vif other different record (List.mem_map_of_mem one) (List.mem_map_of_mem two)
  subst same
  obtain ⟨g, content, shown⟩ := (models.members vif).found one
  obtain ⟨_, again, shown'⟩ := (models.members vif).found two
  obtain rfl := Option.some.inj (content.symm.trans again)
  exact ⟨rfl, shown.symm.trans shown'⟩

/-- The records of a group are read alike when its list and their phases are the same. -/
theorem membership_congr {vif : Vif} {group : Addr}
    (lists : ((table s').members vif).find? (fun item => item.2 == group) =
      ((table s).members vif).find? fun item => item.2 == group)
    (phases : ∀ record, (record, group) ∈ (table s).members vif →
      (s'.groups.get? record).map phaseOf = (s.groups.get? record).map phaseOf) :
    (membership s' vif group).record = (membership s vif group).record := by
  simp only [membership, lists]
  cases found : ((table s).members vif).find? (fun item => item.2 == group) with
  | none => rfl
  | some item =>
      obtain ⟨record, address⟩ := item
      have same : address = group := by simpa using List.find?_some found
      subst same
      exact phases record (List.mem_of_find?_eq_some found)

section Stored

variable {vif : Vif} {group : Addr} {record : Ptr} {g : IgmpGroup} {function : IgmpGroup → IgmpGroup}
  (models : Models s (table s)) (listed : Listed s (table s) vif group record g)
  (lists : (table s').members = (table s).members) (heap : s'.groups = s.groups.modify record function)

include listed lists heap

/-- A store into the record of a group. -/
theorem stored_self : (membership s' vif group).record = some (phaseOf (function g)) := by
  simp only [membership, lists, listed.found, Option.bind_some, heap, Heap.get?_modify_same,
    listed.content, Option.map_some]

include models

/-- A store into the record of another group. -/
theorem stored_other {other : Vif} {address : Addr} (different : ¬ (vif = other ∧ group = address)) :
    (membership s' other address).record = (membership s other address).record := by
  refine membership_congr (by rw [lists]) fun name member => ?_
  rw [heap, Heap.get?_modify_other]
  rintro rfl
  exact different (models.record_unique listed.member member)

end Stored

/-! ## New timers -/

section Rearmed

variable {vif : Vif} {group : Addr} {record : Ptr} {g : IgmpGroup} {old delay phase : Int}

theorem rearm_alarms {entry : Int × Callback}
    (member : entry ∈ alarms (rearm s old delay vif group record phase)) :
    entry = (s.id + 1, .leaveQuery vif group) ∨ entry ∈ alarms (s.clearTimer old) := by
  have set := (alarms_setTimer (s.clearTimer old) delay (.leaveQuery vif group)).subset member
  rw [clearTimer_id] at set
  exact List.mem_cons.mp set

theorem rearm_lists (models : Models s (table s)) :
    (table (rearm s old delay vif group record phase)).members = (table s).members := by
  rw [(models.rearm old delay vif group record phase).table_eq]

theorem rearm_heap : (rearm s old delay vif group record phase).groups =
    s.groups.modify record fun g => { g with leaveQuery := s.id + 1, timeout := phase } := by
  simp [rearm, Daemon.setGroup, Daemon.setTimer]

theorem rearm_trace : (rearm s old delay vif group record phase).trace = s.trace := by
  simp [rearm, Daemon.setGroup, Daemon.setTimer]

theorem rearm_kept (kept : GroupsKept s)
    (orderly : Orderly (rearm s old delay vif group record phase)) :
    GroupsKept (rearm s old delay vif group record phase) := by
  refine .of_models orderly (kept.models.rearm ..) ?_ kept.distinct fun entry member => ?_
  · simp [rearm, Daemon.setGroup, Daemon.setTimer, kept.entries]
  · rcases rearm_alarms member with rfl | earlier
    · trivial
    · exact kept.calls entry ((alarms_clearTimer s old).subset earlier)

/-- For the other groups a new timer of a record is something else. -/
theorem rearm_other (kept : GroupsKept s) (listed : Listed s (table s) vif group record g) {other : Vif}
    {address : Addr} (different : ¬ (vif = other ∧ group = address)) :
    (membership s other address).Moves
      (membership (rearm s old delay vif group record phase) other address) .other 0 := by
  refine .other (stored_other kept.models listed (rearm_lists kept.models) rearm_heap different) ?_
  intro timer member
  rcases rearm_alarms member with new | earlier
  · have same := Callback.leaveQuery.inj (congrArg Prod.snd new)
    exact absurd ⟨same.1.symm, same.2.symm⟩ different
  · exact (alarms_clearTimer s old).subset earlier

end Rearmed

/-! ## Cancelled timers -/

section Disarmed

variable {vif : Vif} {group : Addr} {record : Ptr} {g : IgmpGroup} {old : Int}

theorem Models.disarm (models : Models s t) (old : Int) (record : Ptr) : Models (disarm s old record) t :=
  (models_quiet models (.clearTimer old) (Level.quiet_le _)).setGroup_hidden record (fun _ => rfl) fun _ => rfl

theorem disarm_heap : (disarm s old record).groups =
    s.groups.modify record fun g => { g with leaveQuery := 0, timeout := 2 } := by
  simp [disarm, Daemon.setGroup]

theorem disarm_lists (models : Models s (table s)) :
    (table (disarm s old record)).members = (table s).members := by
  rw [(models.disarm old record).table_eq]

theorem disarm_alarms {entry : Int × Callback} (member : entry ∈ alarms (disarm s old record)) :
    entry ∈ alarms (s.clearTimer old) := member

theorem disarm_trace : (disarm s old record).trace = s.trace := by
  simp [disarm, Daemon.setGroup]

theorem disarm_kept (kept : GroupsKept s) (orderly : Orderly (disarm s old record)) :
    GroupsKept (disarm s old record) := by
  refine .of_models orderly (kept.models.disarm old record) ?_ kept.distinct fun entry member => ?_
  · simp [disarm, Daemon.setGroup, kept.entries]
  · exact kept.calls entry ((alarms_clearTimer s old).subset (disarm_alarms member))

theorem disarm_other (kept : GroupsKept s) (listed : Listed s (table s) vif group record g) {other : Vif}
    {address : Addr} (different : ¬ (vif = other ∧ group = address)) :
    (membership s other address).Moves (membership (disarm s old record) other address) .other 0 := by
  refine .other (stored_other kept.models listed (disarm_lists kept.models) disarm_heap different) ?_
  exact fun timer member => (alarms_clearTimer s old).subset (disarm_alarms member)

end Disarmed

/-! ## New records -/

section Linked

variable {vif : Vif} {g : IgmpGroup}

theorem link_heap (s : Daemon) (vif : Vif) (g : IgmpGroup) : ∃ block, phaseOf block = phaseOf g ∧
    (s.linkGroup vif g).groups = s.groups.alloc block := by
  by_cases empty : (s.myvifs vif).groups ≠ 0
  · refine ⟨{ g with next := (s.myvifs vif).groups }, rfl, ?_⟩
    simp only [Daemon.linkGroup, if_pos empty]
  · refine ⟨g, rfl, ?_⟩
    simp only [Daemon.linkGroup, if_neg empty]

theorem link_kept (kept : GroupsKept s) (clean : g.next = 0)
    (absent : ((table s).members vif).find? (fun item => item.2 == g.address) = none)
    (orderly : Orderly (s.linkGroup vif g)) : GroupsKept (s.linkGroup vif g) := by
  refine .of_models orderly (kept.models.linkGroup vif fun _ => clean) kept.entries (fun other => ?_) kept.calls
  by_cases here : other = vif
  · subst here
    simp only [Table.setMembers, Function.update_self, List.map_cons]
    refine List.nodup_cons.mpr ⟨fun again => ?_, kept.distinct other⟩
    obtain ⟨item, member, same⟩ := List.mem_map.mp again
    have skipped := List.find?_eq_none.mp absent item member
    simp [same] at skipped
  · simpa [Table.setMembers, here] using kept.distinct other

theorem link_self (models : Models s (table s)) (clean : g.next = 0) :
    (membership (s.linkGroup vif g) vif g.address).record = some (phaseOf g) := by
  obtain ⟨block, phase, heap⟩ := link_heap s vif g
  simp only [membership, (models.linkGroup vif fun _ => clean).table_eq, Table.setMembers, Function.update_self]
  rw [List.find?_cons_of_pos (by simp), Option.bind_some, heap, Heap.get?_alloc, if_pos rfl, Option.map_some,
    phase]

theorem link_other (models : Models s (table s)) (clean : g.next = 0) {other : Vif} {address : Addr}
    (different : ¬ (vif = other ∧ g.address = address)) :
    (membership (s.linkGroup vif g) other address).record = (membership s other address).record := by
  obtain ⟨block, _, heap⟩ := link_heap s vif g
  refine membership_congr ?_ fun record member => ?_
  · rw [(models.linkGroup vif fun _ => clean).table_eq]
    by_cases here : other = vif
    · subst here
      have apart : ¬ (g.address == address) = true := fun same => different ⟨rfl, eq_of_beq same⟩
      simp only [Table.setMembers, Function.update_self, List.find?_cons, apart]
    · simp only [Table.setMembers, Function.update_of_ne here]
  · obtain ⟨content, found, _⟩ := (models.members other).found member
    rw [heap, Heap.get?_alloc, if_neg (Heap.ne_fresh_of_get? found)]

end Linked

/-! ## Removed records -/

section Unlinked

variable {vif : Vif} {group : Addr} {ahead behind : List (Ptr × Addr)} {record : Ptr} {g : IgmpGroup}
  {unlinked : Daemon}

/-- The unlinking changes one list, and no other record's phase. -/
theorem unlinkGroup_rest {temp : Option Ptr}
    (run : Runs (unlinkGroup host vif temp record g) s () unlinked) :
    alarms unlinked = alarms s ∧ unlinked.trace = s.trace ∧
      ∀ other, other ≠ record →
        (unlinked.groups.get? other).map phaseOf = (s.groups.get? other).map phaseOf := by
  rcases unlinkGroup_cases run with ⟨_, before, _, _, rfl⟩ | ⟨_, rfl⟩
  · refine ⟨rfl, rfl, fun other different => ?_⟩
    simp only [Daemon.setGroup]
    rw [Heap.get?_modify_other _ _ different, Heap.get?_modify]
    split
    · rw [Option.map_map]
      rfl
    · rfl
  · exact ⟨rfl, rfl, fun _ _ => rfl⟩

variable (kept : GroupsKept s) (listed : Listed s (table s) vif group record g)
  (split : (table s).members vif = ahead ++ (record, group) :: behind)
  (unlink : Runs (unlinkGroup host vif (ahead.getLast?.map Prod.fst) record g) s () unlinked)

include kept listed split unlink

theorem unlink_models : Models unlinked ((table s).setMembers vif (ahead ++ behind)) :=
  (unlinkGroup_models kept.models split listed.content listed.address unlink).1

theorem unlink_kept (orderly : Orderly unlinked) : GroupsKept unlinked := by
  obtain ⟨same, _, _⟩ := unlinkGroup_rest unlink
  refine .of_models orderly (unlink_models kept listed split unlink)
    ((unlinkGroup_empty unlink).trans kept.entries) (fun other => ?_) ?_
  · by_cases here : other = vif
    · subst here
      have distinct := kept.distinct other
      rw [split] at distinct
      simp only [Table.setMembers, Function.update_self]
      exact distinct.sublist (sublist_without.map Prod.snd)
    · simpa [Table.setMembers, here] using kept.distinct other
  · rw [same]
    exact kept.calls

/-- The group has no other record. -/
theorem unlink_self : (membership unlinked vif group).record = none := by
  refine membership_absent ?_
  rw [(unlink_models kept listed split unlink).table_eq]
  have distinct := kept.distinct vif
  rw [split] at distinct
  simp only [Table.setMembers, Function.update_self]
  refine List.find?_eq_none.mpr fun item member same => ?_
  have again : item.2 = group := eq_of_beq same
  simp only [List.map_append, List.map_cons, List.nodup_append, List.nodup_cons] at distinct
  rcases List.mem_append.mp member with front | back
  · exact distinct.2.2 _ (List.mem_map_of_mem front) _ (List.mem_cons_self ..) again
  · exact distinct.2.1.1 (List.mem_map.mpr ⟨item, back, again⟩)

theorem unlink_other {other : Vif} {address : Addr} (different : ¬ (vif = other ∧ group = address)) :
    (membership unlinked other address).record = (membership s other address).record := by
  obtain ⟨_, _, phases⟩ := unlinkGroup_rest unlink
  refine membership_congr ?_ fun name member => phases name ?_
  · rw [(unlink_models kept listed split unlink).table_eq]
    by_cases here : other = vif
    · subst here
      have apart : ¬ (group == address) = true := fun same => different ⟨rfl, eq_of_beq same⟩
      simp only [Table.setMembers, Function.update_self, split, List.find?_append, List.find?_cons, apart]
    · simp only [Table.setMembers, Function.update_of_ne here]
  · rintro rfl
    exact different (kept.models.record_unique listed.member member)

/-- What `leave_query` reads as the group after the unlinking. -/
theorem unlink_reads {freed : IgmpGroup} (memory : unlinked.groups.get? record = some freed) :
    freed.address = group ∨ freed.address = (host.freedGroup record).address := by
  obtain ⟨_, _, found, read⟩ := unlinkGroup_models kept.models split listed.content listed.address unlink
  obtain rfl := Option.some.inj (found.symm.trans memory)
  split at read
  · exact Or.inl read
  · exact Or.inr read

end Unlinked

end PimDm.Refinement
