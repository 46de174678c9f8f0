import PimDm.Routing.Entries

/-!
# The kernel's forwarding cache mirrors the table

`Mirrors` says that the cache has exactly the keys of the table and forwards as
the entries do.  One store of an outgoing interface, told to the kernel, keeps
it, and every change of the table is made of such stores.
-/

namespace PimDm.Routing

open PimDm.Foundation PimDm.Source

def key (item : Ptr × Route) : Addr × Addr := (item.2.source, item.2.group)

/-- A cache entry forwards as the routing entry does. -/
structure Agrees (host : Host) (m : Mfc) (r : Route) : Prop where
  parent : m.parent = r.incoming
  ttls : ∀ vif, 1 ≤ vif → vif ≤ host.maxvif → m.ttls vif = if r.outvif vif = 1 then 1 else 0

structure Mirrors (host : Host) (mfc : Addr → Addr → Option Mfc) (entries : List (Ptr × Route)) :
    Prop where
  unique : (entries.map key).Nodup
  keys : ∀ source group, mfc source group ≠ none ↔ (source, group) ∈ entries.map key
  agrees : ∀ item ∈ entries, ∃ m, mfc item.2.source item.2.group = some m ∧ Agrees host m item.2

theorem agrees_mfcOf (host : Host) (r : Route) : Agrees host (mfcOf host r r.incoming) r where
  parent := rfl
  ttls vif low high := by simp [mfcOf, low, high]

theorem routeIsFor_iff {source group : Addr} {item : Ptr × Route} :
    routeIsFor source group item.2 = true ↔ key item = (source, group) := by
  simp [routeIsFor, key]

/-- With unique keys the search for a source and group finds the entry. -/
theorem find_of_unique {t : Table} (unique : (t.entries.map key).Nodup) {item : Ptr × Route}
    (member : item ∈ t.entries) :
    t.find (routeIsFor item.2.source item.2.group) = some item := by
  cases found : t.find (routeIsFor item.2.source item.2.group) with
  | none =>
      have absent := List.find?_eq_none.mp found item member
      exact absurd (routeIsFor_iff.mpr rfl) absent
  | some other =>
      have inside := List.mem_of_find?_eq_some found
      have holds := List.find?_some (p := fun entry : Ptr × Route =>
        routeIsFor item.2.source item.2.group entry.2) found
      have same : other = item := List.inj_on_of_nodup_map unique inside member (routeIsFor_iff.mp holds)
      rw [same]

variable {host : Host} {t : Table}

/-- Telling the kernel about one entry when all others are mirrored. -/
theorem mirrors_tell {entries : List (Ptr × Route)} (unique : (entries.map key).Nodup)
    {item : Ptr × Route} (member : item ∈ entries)
    (keys : ∀ source group, (source, group) ≠ key item →
      (t.mfc source group ≠ none ↔ (source, group) ∈ entries.map key))
    (agrees : ∀ other ∈ entries, key other ≠ key item →
      ∃ m, t.mfc other.2.source other.2.group = some m ∧ Agrees host m other.2) :
    Mirrors host (t.setMfc item.2.source item.2.group
      (some (mfcOf host item.2 item.2.incoming))).mfc entries := by
  refine ⟨unique, fun source group => ?_, fun other inside => ?_⟩
  · rw [Table.setMfc_apply]
    by_cases here : (source, group) = (item.2.source, item.2.group)
    · rw [if_pos here, here]
      exact iff_of_true (Option.some_ne_none _) (List.mem_map_of_mem (f := key) member)
    · rw [if_neg here]
      exact keys source group here
  · rw [Table.setMfc_apply]
    by_cases here : key other = key item
    · obtain rfl := List.inj_on_of_nodup_map unique inside member here
      exact ⟨_, if_pos rfl, agrees_mfcOf host other.2⟩
    · obtain ⟨m, cached, agree⟩ := agrees other inside here
      exact ⟨m, (if_neg here).trans cached, agree⟩

/-- A table with different names whose entries the kernel mirrors. -/
structure Mirrored (host : Host) (t : Table) : Prop where
  distinct : t.Distinct
  mirrors : Mirrors host t.mfc t.entries

theorem Mirrored.forward (mirrored : Mirrored host t) {item : Ptr × Route} (member : item ∈ t.entries)
    (vif : Vif) (value change : Int) : Mirrored host (t.forward host vif value change item) := by
  have identities : (t.forward host vif value change item).entries.map identity =
      t.entries.map identity := Table.forward_identities vif value change item
  refine ⟨Table.distinct_of_identities identities mirrored.distinct, ?_⟩
  have keys : (amend item.1 (routeSetOutvif vif value change) t.entries).map key = t.entries.map key := by
    rw [amend_setOutvif, List.map_map]
    exact List.map_congr_left fun other _ => by simp [key]
  have unique : ((amend item.1 (routeSetOutvif vif value change) t.entries).map key).Nodup := by
    rw [keys]
    exact mirrored.mirrors.unique
  have stored : (item.1, routeSetOutvif vif value change item.2) ∈
      amend item.1 (routeSetOutvif vif value change) t.entries :=
    mem_amend.mpr ⟨item, member, by rw [if_pos rfl]⟩
  have found := find_of_unique (t := t.amendEntry item.1 (routeSetOutvif vif value change)) unique stored
  have told : t.forward host vif value change item =
      (t.amendEntry item.1 (routeSetOutvif vif value change)).setMfc item.2.source item.2.group
        (some (mfcOf host (routeSetOutvif vif value change item.2) item.2.incoming)) := by
    unfold Table.forward Table.changeMfc
    rw [show routeIsFor item.2.source item.2.group = routeIsFor
      (routeSetOutvif vif value change item.2).source
      (routeSetOutvif vif value change item.2).group from rfl, found]
  rw [told]
  refine mirrors_tell unique stored (fun source group other => ?_) fun other inside apart => ?_
  · rw [keys]
    exact mirrored.mirrors.keys source group
  · obtain ⟨old, before, rfl⟩ := mem_amend.mp inside
    by_cases here : old.1 = item.1
    · obtain rfl := mirrored.distinct.eq_of_name before member here
      rw [if_pos rfl] at apart
      exact absurd rfl apart
    · rw [if_neg here]
      exact mirrored.mirrors.agrees old before

theorem Mirrored.forwardFirst (mirrored : Mirrored host t) (property : Route → Bool) (vif : Vif)
    (value : Int) (change : Route → Int) :
    Mirrored host (t.forwardFirst host property vif value change) := by
  cases found : t.find property with
  | none =>
      rw [Table.forwardFirst_none found]
      exact mirrored
  | some item =>
      rw [Table.forwardFirst_some found]
      exact mirrored.forward (List.mem_of_find?_eq_some found) vif value _

theorem Mirrored.refresh (mirrored : Mirrored host t) (property : Route → Bool) (vif : Vif)
    (value change : Int) : Mirrored host (t.forwardAll host property vif value change t.entries) :=
  Table.forwardAll_keeps (fun _ _ mirrored member => mirrored.forward member vif value change) mirrored
    (fun _ member => member) mirrored.distinct

theorem Mirrored.graft (mirrored : Mirrored host t) (vif : Vif) (mymrts : List Ptr) :
    Mirrored host (t.graft host vif mymrts) :=
  Table.graft_keeps (fun _ _ mirrored member => mirrored.forward member vif 1 0) mirrored mymrts

/-! ## Creation and removal -/

theorem Mirrored.create (mirrored : Mirrored host t) {mymrt : Ptr}
    (fresh : mymrt ∉ t.entries.map Prod.fst) {source group : Addr} (absent : t.mfc source group = none)
    (upstream : Addr) (incoming : Vif) :
    Mirrored host (t.create host mymrt upstream source group incoming) := by
  have missing : (source, group) ∉ t.entries.map key := fun inside =>
    (mirrored.mirrors.keys source group).mpr inside absent
  have unique : (((mymrt, t.newRoute host upstream source group incoming) :: t.entries).map key).Nodup :=
    List.nodup_cons.mpr ⟨missing, mirrored.mirrors.unique⟩
  have found := find_of_unique
    (t := t.push (mymrt, t.newRoute host upstream source group incoming)) unique (List.mem_cons_self ..)
  have told : t.create host mymrt upstream source group incoming =
      (t.push (mymrt, t.newRoute host upstream source group incoming)).setMfc source group
        (some (mfcOf host (t.newRoute host upstream source group incoming) incoming)) := by
    unfold Table.create Table.changeMfc
    rw [show routeIsFor source group = routeIsFor
      (t.newRoute host upstream source group incoming).source
      (t.newRoute host upstream source group incoming).group from rfl, found]
  rw [told]
  refine ⟨List.nodup_cons.mpr ⟨fresh, mirrored.distinct⟩, ?_⟩
  refine mirrors_tell (t := t.push (mymrt, t.newRoute host upstream source group incoming)) unique
    (List.mem_cons_self ..) (fun otherSource otherGroup other => ?_) fun other inside apart => ?_
  · refine (mirrored.mirrors.keys otherSource otherGroup).trans ?_
    rw [List.map_cons, List.mem_cons]
    exact (or_iff_right other).symm
  · rcases List.mem_cons.mp inside with rfl | old
    · exact absurd rfl apart
    · exact mirrored.mirrors.agrees other old

/-- Removing an entry and its cache entry. -/
theorem mirrors_forget {ahead behind : List (Ptr × Route)} {removed : Ptr × Route}
    (mirrors : Mirrors host t.mfc (ahead ++ removed :: behind)) {source group : Addr}
    (keyed : key removed = (source, group)) :
    Mirrors host (t.setMfc source group none).mfc (ahead ++ behind) := by
  have unique := mirrors.unique
  rw [List.map_append, List.map_cons, List.nodup_middle, keyed, ← List.map_append] at unique
  obtain ⟨lost, rest⟩ := List.nodup_cons.mp unique
  refine ⟨rest, fun otherSource otherGroup => ?_, fun other inside => ?_⟩
  · rw [Table.setMfc_apply]
    by_cases here : (otherSource, otherGroup) = (source, group)
    · rw [if_pos here, here]
      exact iff_of_false (fun some => some rfl) lost
    · rw [if_neg here, mirrors.keys, List.map_append, List.map_append, List.map_cons, keyed]
      simp [here]
  · have member : other ∈ ahead ++ removed :: behind := by
      rw [List.mem_append] at inside ⊢
      exact inside.imp_right (List.mem_cons_of_mem _)
    have apart : (other.2.source, other.2.group) ≠ (source, group) := by
      intro same
      rw [← same] at lost
      exact lost (List.mem_map_of_mem (f := key) inside)
    obtain ⟨m, cached, agree⟩ := mirrors.agrees other member
    refine ⟨m, ?_, agree⟩
    rw [Table.setMfc_apply, if_neg apart]
    exact cached

theorem Mirrored.remove (mirrored : Mirrored host t) (source group : Addr) :
    Mirrored host (t.remove source group) := by
  unfold Table.remove
  cases found : t.find (routeIsFor source group) with
  | none => exact mirrored
  | some first =>
      have holds := List.find?_some (p := fun entry : Ptr × Route =>
        routeIsFor source group entry.2) found
      obtain ⟨removed, ahead, behind, _, gone, split, erased⟩ :=
        List.exists_of_eraseP (p := fun entry : Ptr × Route => routeIsFor source group entry.2)
          (List.mem_of_find?_eq_some found) holds
      have fewer : (ahead ++ behind).Sublist t.entries := by
        rw [split]
        exact (List.Sublist.refl ahead).append (List.sublist_cons_self removed behind)
      have mirrors := mirrored.mirrors
      rw [split] at mirrors
      simp only [erased]
      exact ⟨mirrored.distinct.sublist (fewer.map Prod.fst),
        mirrors_forget mirrors (routeIsFor_iff.mp gone)⟩

/-- A change of the fields the kernel does not see. -/
theorem Mirrored.amend (mirrored : Mirrored host t) (mymrt : Ptr) {function : Route → Route}
    (source : ∀ r, (function r).source = r.source) (group : ∀ r, (function r).group = r.group)
    (incoming : ∀ r, (function r).incoming = r.incoming)
    (outvif : ∀ r, (function r).outvif = r.outvif) :
    Mirrored host (t.amendEntry mymrt function) := by
  have keys : (Foundation.amend mymrt function t.entries).map key = t.entries.map key := by
    unfold Foundation.amend
    rw [List.map_map]
    refine List.map_congr_left fun other _ => ?_
    simp only [Function.comp_apply, key]
    split
    · rw [source, group]
    · rfl
  refine ⟨?_, ?_, fun otherSource otherGroup => ?_, fun item inside => ?_⟩
  · unfold Table.Distinct Table.amendEntry
    rw [amend_keys]
    exact mirrored.distinct
  · unfold Table.amendEntry
    rw [keys]
    exact mirrored.mirrors.unique
  · unfold Table.amendEntry
    rw [keys]
    exact mirrored.mirrors.keys otherSource otherGroup
  · obtain ⟨old, before, rfl⟩ := mem_amend.mp inside
    obtain ⟨m, cached, agree⟩ := mirrored.mirrors.agrees old before
    by_cases here : old.1 = mymrt
    · rw [if_pos here]
      refine ⟨m, ?_, agree.parent.trans (incoming _).symm, fun vif low high => ?_⟩
      · rw [source, group]
        exact cached
      · rw [outvif]
        exact agree.ttls vif low high
    · rw [if_neg here]
      exact ⟨m, cached, agree⟩

/-! ## Every change -/

/-- The kernel asks for an entry only while it holds none, and the entry's
memory is not in use. -/
def Change.Asked (t : Table) : Change → Prop
  | .create mymrt _ source group _ => mymrt ∉ t.entries.map Prod.fst ∧ t.mfc source group = none
  | _ => True

theorem Mirrored.apply (mirrored : Mirrored host t) {change : Change} (asked : change.Asked t) :
    Mirrored host (change.apply host t) := by
  cases change with
  | idle => exact mirrored
  | create mymrt upstream source group incoming =>
      exact mirrored.create asked.1 asked.2 upstream incoming
  | remove source group => exact mirrored.remove source group
  | join vif record group =>
      have joined : Mirrored host (t.setMembers vif ((record, group) :: t.members vif)) :=
        ⟨mirrored.distinct, mirrored.mirrors⟩
      exact joined.forwardFirst (fun r => r.group == group) vif 1 fun r => if r.outvif vif = 1 then 0 else 1
  | leave vif group read =>
      have left : Mirrored host
          (t.setMembers vif ((t.members vif).eraseP fun item => item.2 == group)) :=
        ⟨mirrored.distinct, mirrored.mirrors⟩
      exact left.forwardFirst (fun r => r.group == read) vif 0 fun _ => -1
  | addNeighbor vif entry address =>
      have added : Mirrored host (t.setNeighbors vif ((entry, address) :: t.neighbors vif)) :=
        ⟨mirrored.distinct, mirrored.mirrors⟩
      exact added.refresh (fun r => r.outvif vif == 0) vif 1 1
  | delNeighbor vif address =>
      have lost : Mirrored host
          (t.setNeighbors vif ((t.neighbors vif).eraseP fun item => item.2 == address)) :=
        ⟨mirrored.distinct, mirrored.mirrors⟩
      exact lost.refresh (Table.Deserted _) vif 0 (-1)
  | prune source group vif => exact mirrored.forwardFirst (routeIsFor source group) vif 0 fun _ => 0
  | restore source group vif => exact mirrored.forwardFirst (routeIsFor source group) vif 1 fun _ => 0
  | graft vif mymrts => exact mirrored.graft vif mymrts
  | winner mymrt preference metric upstream =>
      exact mirrored.amend mymrt (fun _ => rfl) (fun _ => rfl) (fun _ => rfl) fun _ => rfl

theorem mirrored_empty (host : Host) : Mirrored host Table.empty where
  distinct := List.nodup_nil
  mirrors := ⟨List.nodup_nil, fun _ _ => by simp [Table.empty], fun _ member => nomatch member⟩

end PimDm.Routing
