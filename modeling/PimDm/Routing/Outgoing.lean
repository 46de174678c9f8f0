import PimDm.Routing.Entries

/-!
# What a change stores

`apply_entries` says once what a change does to the entries: which one it
creates, which ones it keeps, and which outgoing interface it stores in each.
Invariants of single entries follow from it by looking at one store.
-/

namespace PimDm.Routing

open PimDm.Foundation PimDm.Source

/-- The entry is the one the search for a property finds. -/
def Table.IsFirst (t : Table) (property : Route → Bool) (item : Ptr × Route) : Prop :=
  (t.find property).map Prod.fst = some item.1

instance (t : Table) (property : Route → Bool) (item : Ptr × Route) :
    Decidable (t.IsFirst property item) :=
  inferInstanceAs (Decidable (_ = _))

/-- The entry a search finds has the property. -/
theorem Table.IsFirst.holds {t : Table} {property : Route → Bool} {item : Ptr × Route}
    (isFirst : t.IsFirst property item) (distinct : t.Distinct) (member : item ∈ t.entries) :
    property item.2 = true := by
  obtain ⟨first, found, named⟩ := Option.map_eq_some_iff.mp isFirst
  have holds := List.find?_some (p := fun other : Ptr × Route => property other.2) found
  rw [← distinct.eq_of_name (List.mem_of_find?_eq_some found) member named]
  exact holds

/-- The interface's neighbours after one is lost. -/
def Table.withoutNeighbor (t : Table) (vif : Vif) (address : Addr) : Table :=
  t.setNeighbors vif ((t.neighbors vif).eraseP fun item => item.2 == address)

/-- The interface's members after a group is left. -/
def Table.withoutMember (t : Table) (vif : Vif) (group : Addr) : Table :=
  t.setMembers vif ((t.members vif).eraseP fun item => item.2 == group)

namespace Change

/-- The entry a change creates. -/
def created (host : Host) (t : Table) : Change → List (Ptr × Route)
  | .create mymrt upstream source group incoming =>
      [(mymrt, t.newRoute host upstream source group incoming)]
  | _ => []

/-- The entries a change does not remove. -/
def kept (t : Table) : Change → List (Ptr × Route)
  | .remove source group => t.entries.eraseP fun item => routeIsFor source group item.2
  | _ => t.entries

/-- What a change stores into an entry. -/
def stores (t : Table) : Change → Ptr × Route → Ptr × Route
  | .join vif _ group, item =>
      storeIf (t.IsFirst (fun r => r.group == group) item) vif 1 (if item.2.outvif vif = 1 then 0 else 1)
        item
  | .leave vif _ read, item => storeIf (t.IsFirst (fun r => r.group == read) item) vif 0 (-1) item
  | .addNeighbor vif _ _, item => storeIf (item.2.outvif vif = 0) vif 1 1 item
  | .delNeighbor vif address, item =>
      storeIf ((t.withoutNeighbor vif address).Deserted item.2 = true) vif 0 (-1) item
  | .prune source group vif, item => storeIf (t.IsFirst (routeIsFor source group) item) vif 0 0 item
  | .restore source group vif, item => storeIf (t.IsFirst (routeIsFor source group) item) vif 1 0 item
  | .graft vif mymrts, item => storeIf (item.1 ∈ mymrts ∧ item.2.outvif vif = 0) vif 1 0 item
  | .winner mymrt preference metric upstream, item =>
      if item.1 = mymrt then
        (item.1, { item.2 with preference := preference, metric := metric, upstream := upstream })
      else item
  | _, item => item

end Change

namespace Table

variable {host : Host} {t : Table}

theorem forwardFirst_stores (distinct : t.Distinct) (property : Route → Bool) (vif : Vif) (value : Int)
    (change : Route → Int) :
    (t.forwardFirst host property vif value change).entries =
      t.entries.map fun item =>
        storeIf (t.IsFirst property item) vif value (change item.2) item := by
  cases found : t.find property with
  | none =>
      rw [forwardFirst_none found]
      refine ((List.map_congr_left fun item _ => ?_).trans (List.map_id _)).symm
      have other : ¬ t.IsFirst property item := by simp [IsFirst, found]
      exact if_neg other
  | some first =>
      have member := List.mem_of_find?_eq_some found
      rw [forwardFirst_some found, forward_entries, amend_setOutvif]
      refine List.map_congr_left fun item inside => ?_
      by_cases here : item.1 = first.1
      · obtain rfl := distinct.eq_of_name inside member here
        have isFirst : t.IsFirst property item := by simp [IsFirst, found]
        rw [storeIf, storeIf, if_pos rfl, if_pos isFirst]
      · have other : ¬ t.IsFirst property item := by
          simpa [IsFirst, found] using fun same => here same.symm
        rw [storeIf, storeIf, if_neg here, if_neg other]

end Table

variable {host : Host} {t : Table}

/-- The entries after a change. -/
theorem Change.apply_entries (distinct : t.Distinct) (change : Change) :
    (change.apply host t).entries =
      change.created host t ++ (change.kept t).map (change.stores t) := by
  cases change with
  | idle => exact (List.map_id _).symm
  | create mymrt upstream source group incoming =>
      rw [Change.apply, Table.create, Table.changeMfc_entries]
      exact congrArg _ (List.map_id _).symm
  | remove source group =>
      refine Eq.trans ?_ (List.map_id _).symm
      rw [Change.apply, Table.remove]
      cases found : t.find (routeIsFor source group) with
      | none => exact (List.eraseP_of_forall_not (List.find?_eq_none.mp found)).symm
      | some first => rfl
  | join vif record group =>
      exact Table.forwardFirst_stores
        (t := t.setMembers vif ((record, group) :: t.members vif)) distinct _ vif 1 _
  | leave vif group read =>
      exact Table.forwardFirst_stores (t := t.withoutMember vif group) distinct _ vif 0 _
  | addNeighbor vif entry address =>
      exact Table.refreshAdd_entries
        (t := t.setNeighbors vif ((entry, address) :: t.neighbors vif)) distinct vif
  | delNeighbor vif address =>
      exact Table.refreshDel_entries (t := t.withoutNeighbor vif address) distinct vif
  | prune source group vif => exact Table.forwardFirst_stores distinct _ vif 0 _
  | restore source group vif => exact Table.forwardFirst_stores distinct _ vif 1 _
  | graft vif mymrts => exact Table.graft_entries distinct vif mymrts
  | winner mymrt preference metric upstream => rfl

/-- A property of all entries after a change. -/
theorem Change.forall_apply (distinct : t.Distinct) {change : Change} {Q : Route → Prop} :
    (∀ item ∈ (change.apply host t).entries, Q item.2) ↔
      (∀ item ∈ change.created host t, Q item.2) ∧
        ∀ item ∈ change.kept t, Q (change.stores t item).2 := by
  rw [change.apply_entries distinct, List.forall_mem_append, List.forall_mem_map]

/-- A change keeps no entry that was not in the table. -/
theorem Change.mem_of_kept {change : Change} {item : Ptr × Route} (member : item ∈ change.kept t) :
    item ∈ t.entries := by
  cases change with
  | remove source group => exact List.mem_of_mem_eraseP member
  | _ => exact member

/-- What a change stores leaves the group of an entry and its incoming interface. -/
theorem Change.stores_fixed (t : Table) (change : Change) (item : Ptr × Route) :
    (change.stores t item).2.group = item.2.group ∧
      (change.stores t item).2.incoming = item.2.incoming := by
  cases change with
  | winner mymrt preference metric upstream =>
      by_cases here : item.1 = mymrt <;> simp [Change.stores, here]
  | _ => simp [Change.stores]

/-- An Assert changes nothing of what is forwarded. -/
theorem Change.stores_winner (t : Table) (mymrt : Ptr) (preference metric : BitVec 32) (upstream : Addr)
    (item : Ptr × Route) :
    ((Change.winner mymrt preference metric upstream).stores t item).2.outvif = item.2.outvif ∧
      ((Change.winner mymrt preference metric upstream).stores t item).2.outnumber = item.2.outnumber := by
  by_cases here : item.1 = mymrt <;> simp [Change.stores, here]

/-- Only reports and leaves change a group list. -/
theorem Change.apply_members (host : Host) (t : Table) (change : Change) :
    (change.apply host t).members =
      match change with
      | .join vif record group => (t.setMembers vif ((record, group) :: t.members vif)).members
      | .leave vif group _ => (t.withoutMember vif group).members
      | _ => t.members := by
  cases change with
  | create mymrt upstream source group incoming => exact Table.changeMfc_members ..
  | remove source group => exact Table.remove_members source group t
  | join vif record group => exact Table.forwardFirst_members ..
  | leave vif group read => exact Table.forwardFirst_members ..
  | addNeighbor vif entry address => exact Table.forwardAll_members ..
  | delNeighbor vif address => exact Table.forwardAll_members ..
  | prune source group vif => exact Table.forwardFirst_members ..
  | restore source group vif => exact Table.forwardFirst_members ..
  | graft vif mymrts => exact Table.graft_members ..
  | idle => rfl
  | winner mymrt preference metric upstream => rfl

/-! ## Counting outgoing interfaces -/

/-- The number of interfaces in the table of interfaces that a cell array opens. -/
def outCount (host : Host) (outvif : Vif → Int) : Nat :=
  host.vifs.countP fun vif => decide (outvif vif = 1)

theorem countP_update_absent {vifs : List Vif} {vif : Vif} (absent : vif ∉ vifs) (outvif : Vif → Int)
    (value : Int) :
    vifs.countP (fun i => decide (Function.update outvif vif value i = 1)) =
      vifs.countP fun i => decide (outvif i = 1) := by
  refine List.countP_congr fun i member => ?_
  have other : i ≠ vif := fun same => absent (same ▸ member)
  rw [Function.update_of_ne other]

/-- Storing one cell moves the count by that cell. -/
theorem countP_update {vifs : List Vif} (distinct : vifs.Nodup) {vif : Vif} (member : vif ∈ vifs)
    (outvif : Vif → Int) (value : Int) :
    vifs.countP (fun i => decide (Function.update outvif vif value i = 1)) +
        (if outvif vif = 1 then 1 else 0) =
      vifs.countP (fun i => decide (outvif i = 1)) + if value = 1 then 1 else 0 := by
  induction vifs with
  | nil => exact absurd member List.not_mem_nil
  | cons first rest ih =>
      obtain ⟨absent, distinct⟩ := List.nodup_cons.mp distinct
      rw [List.countP_cons, List.countP_cons]
      rcases List.mem_cons.mp member with rfl | later
      · rw [countP_update_absent absent, Function.update_self]
        simp only [decide_eq_true_eq]
        omega
      · have other : first ≠ vif := fun same => absent (same ▸ later)
        have rest := ih distinct later
        rw [Function.update_of_ne other]
        omega

theorem outCount_update {vif : Vif} (member : vif ∈ host.vifs) (outvif : Vif → Int) (value : Int) :
    (outCount host (Function.update outvif vif value) : Int) + (if outvif vif = 1 then 1 else 0) =
      outCount host outvif + if value = 1 then 1 else 0 := by
  have moved := countP_update host.nodup_vifs member outvif value
  unfold outCount
  by_cases on : outvif vif = 1
  · by_cases opened : value = 1 <;> simp only [on, opened, if_true, if_false] at moved ⊢ <;> omega
  · by_cases opened : value = 1 <;> simp only [on, opened, if_true, if_false] at moved ⊢ <;> omega

theorem outCount_eq_zero {outvif : Vif → Int} :
    outCount host outvif = 0 ↔ ∀ vif ∈ host.vifs, outvif vif ≠ 1 := by
  unfold outCount
  rw [List.countP_eq_zero]
  simp

end PimDm.Routing
