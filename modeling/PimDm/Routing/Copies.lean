import PimDm.Routing.Entries

/-!
# The entries of one source and group

A table may hold several entries of a source and group.  Their number changes only when one is
created or removed, one at a time.
-/

namespace PimDm.Routing

open PimDm.Foundation PimDm.Source

variable {host : Host} {t other : Table} {source group : Addr}

/-- The number of entries of a source and group. -/
def Table.copies (source group : Addr) (t : Table) : Nat :=
  t.entries.countP fun item => routeIsFor source group item.2

/-- The change neither creates nor removes an entry. -/
def Change.KeepsEntries : Change → Prop
  | .create .. => False
  | .remove .. => False
  | _ => True

/-! ## Lists -/

theorem countP_eraseP_self {α : Type} (p : α → Bool) (items : List α) :
    (items.eraseP p).countP p = items.countP p - 1 := by
  induction items with
  | nil => rfl
  | cons item rest ih =>
      by_cases holds : p item = true
      · rw [List.eraseP_cons_of_pos holds, List.countP_cons_of_pos holds, Nat.add_sub_cancel]
      · rw [List.eraseP_cons_of_neg holds, List.countP_cons_of_neg holds, List.countP_cons_of_neg holds, ih]

theorem countP_eraseP_other {α : Type} {p q : α → Bool} (apart : ∀ item, p item = true → ¬ q item = true)
    (items : List α) : (items.eraseP p).countP q = items.countP q := by
  induction items with
  | nil => rfl
  | cons item rest ih =>
      by_cases holds : p item = true
      · rw [List.eraseP_cons_of_pos holds, List.countP_cons_of_neg (apart item holds)]
      · rw [List.eraseP_cons_of_neg holds, List.countP_cons, List.countP_cons, ih]

/-! ## Changes -/

namespace Table

theorem copies_pos : 0 < t.copies source group ↔ ∃ item ∈ t.entries, routeIsFor source group item.2 = true :=
  List.countP_pos_iff

theorem copies_of_identities (same : other.entries.map identity = t.entries.map identity) (source group : Addr) :
    other.copies source group = t.copies source group := by
  have counts : ∀ table : Table, table.copies source group =
      (table.entries.map identity).countP fun item => item.2.1 == source && item.2.2 == group := by
    intro table
    rw [List.countP_map]
    rfl
  rw [counts, counts, same]

theorem forwardFirst_identities (property : Route → Bool) (vif : Vif) (value : Int) (change : Route → Int) :
    (t.forwardFirst host property vif value change).entries.map identity = t.entries.map identity := by
  unfold forwardFirst
  split
  · rfl
  · exact forward_identities vif value _ _

theorem forwardAll_identities (property : Route → Bool) (vif : Vif) (value change : Int) (items : List (Ptr × Route)) :
    (t.forwardAll host property vif value change items).entries.map identity = t.entries.map identity := by
  induction items generalizing t with
  | nil => rfl
  | cons item rest ih => exact ih.trans (forwardIf_identities property vif value change item)

theorem amendEntry_identities {function : Route → Route} (kept : ∀ r, (function r).source = r.source ∧
    (function r).group = r.group) (mymrt : Ptr) :
    (t.amendEntry mymrt function).entries.map identity = t.entries.map identity := by
  rw [amendEntry, amend, List.map_map]
  refine List.map_congr_left fun item _ => ?_
  rw [Function.comp_apply]
  split
  · rw [identity, identity, (kept item.2).1, (kept item.2).2]
  · rfl

theorem copies_create (mymrt : Ptr) (upstream first second : Addr) (incoming : Vif) :
    (t.create host mymrt upstream first second incoming).copies source group =
      t.copies source group + if first = source ∧ second = group then 1 else 0 := by
  rw [create, copies, changeMfc_entries, push, List.countP_cons]
  simp [routeIsFor, newRoute, copies]

/-- The first entry of the source and group goes, if there is one. -/
theorem copies_remove (source group : Addr) : (t.remove source group).copies source group =
    t.copies source group - 1 := by
  unfold remove
  split
  · rename_i none
    have absent : t.copies source group = 0 := List.countP_eq_zero.mpr (List.find?_eq_none.mp none)
    rw [absent]
  · exact countP_eraseP_self _ t.entries

theorem copies_remove_other {first second : Addr} (different : ¬ (first = source ∧ second = group)) :
    (t.remove first second).copies source group = t.copies source group := by
  unfold remove
  split
  · rfl
  · refine countP_eraseP_other (fun item gone => ?_) t.entries
    simp only [routeIsFor, Bool.and_eq_true, beq_iff_eq] at gone ⊢
    rintro ⟨rfl, rfl⟩
    exact different ⟨gone.1.symm, gone.2.symm⟩

end Table

/-- Any other change leaves the entries of every source and group. -/
theorem Change.apply_copies {change : Change} (keeps : change.KeepsEntries) (t : Table) (source group : Addr) :
    (change.apply host t).copies source group = t.copies source group := by
  refine Table.copies_of_identities ?_ source group
  cases change with
  | idle => rfl
  | create mymrt upstream source group incoming => exact keeps.elim
  | remove source group => exact keeps.elim
  | join vif record group => exact Table.forwardFirst_identities (t := t.setMembers vif _) _ vif _ _
  | leave vif group read => exact Table.forwardFirst_identities (t := t.setMembers vif _) _ vif _ _
  | addNeighbor vif entry address => exact Table.forwardAll_identities (t := t.setNeighbors vif _) _ vif _ _ _
  | delNeighbor vif address => exact Table.forwardAll_identities (t := t.setNeighbors vif _) _ vif _ _ _
  | prune source group vif => exact Table.forwardFirst_identities _ vif _ _
  | restore source group vif => exact Table.forwardFirst_identities _ vif _ _
  | graft vif mymrts => exact Table.graft_identities vif mymrts
  | winner mymrt preference metric upstream =>
      have kept : ∀ r : Route, ({ r with preference := preference, metric := metric, upstream :=
        upstream } : Route).source =
          r.source ∧ ({ r with preference := preference, metric := metric, upstream := upstream } : Route).group =
          r.group := fun _ => ⟨rfl, rfl⟩
      exact Table.amendEntry_identities kept mymrt

end PimDm.Routing
