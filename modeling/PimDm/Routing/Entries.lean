import PimDm.Routing.Table

/-!
# The entries after a change

Stores of outgoing interfaces keep the name, the source and the group of every
entry.  The loops over the table make one store after another; on a table whose
entries have different names they amount to one map over the entries.
-/

namespace PimDm.Routing

open PimDm.Foundation PimDm.Source

/-- The entries have different names. -/
def Table.Distinct (t : Table) : Prop := (t.entries.map Prod.fst).Nodup

/-- What no store into an entry changes. -/
def identity (item : Ptr × Route) : Ptr × Addr × Addr := (item.1, item.2.source, item.2.group)

/-- Store an outgoing interface of an entry if a condition holds. -/
def storeIf (condition : Prop) [Decidable condition] (vif : Vif) (value change : Int)
    (item : Ptr × Route) : Ptr × Route :=
  if condition then (item.1, routeSetOutvif vif value change item.2) else item

section StoreIf

variable (condition : Prop) [Decidable condition] (vif : Vif) (value change : Int) (item : Ptr × Route)

@[simp] theorem storeIf_name : (storeIf condition vif value change item).1 = item.1 := by
  unfold storeIf
  split <;> rfl

@[simp] theorem storeIf_source : (storeIf condition vif value change item).2.source = item.2.source := by
  unfold storeIf
  split <;> rfl

@[simp] theorem storeIf_group : (storeIf condition vif value change item).2.group = item.2.group := by
  unfold storeIf
  split <;> rfl

@[simp] theorem storeIf_incoming :
    (storeIf condition vif value change item).2.incoming = item.2.incoming := by
  unfold storeIf
  split <;> rfl

theorem storeIf_identity : identity (storeIf condition vif value change item) = identity item := by
  simp [identity]

/-- A store leaves the cells of the other interfaces. -/
theorem storeIf_outvif (other : Vif) :
    (storeIf condition vif value change item).2.outvif other =
      if condition ∧ other = vif then value else item.2.outvif other := by
  unfold storeIf
  by_cases holds : condition
  · by_cases same : other = vif
    · subst same
      simp [holds, routeSetOutvif]
    · simp [holds, same, routeSetOutvif]
  · simp [holds]

end StoreIf

theorem amend_setOutvif (mymrt : Ptr) (vif : Vif) (value change : Int) (items : List (Ptr × Route)) :
    amend mymrt (routeSetOutvif vif value change) items =
      items.map fun item => storeIf (item.1 = mymrt) vif value change item := rfl

/-- Two stores that move the counter make the same of an entry only if both are made or none. -/
theorem storeIf_eq_iff {left right : Prop} [Decidable left] [Decidable right] {vif : Vif} {value change : Int}
    (moved : change ≠ 0) {item : Ptr × Route} :
    storeIf left vif value change item = storeIf right vif value change item ↔ (left ↔ right) := by
  have other : (item.1, routeSetOutvif vif value change item.2) ≠ item := by
    intro same
    have counted : item.2.outnumber + change = item.2.outnumber :=
      congrArg (fun item : Ptr × Route => item.2.outnumber) same
    exact moved (by omega)
  by_cases first : left <;> by_cases second : right <;>
    simp [storeIf, first, second, other, other.symm]

theorem map_storeIf_eq_iff {left right : Ptr × Route → Prop} [DecidablePred left] [DecidablePred right]
    {vif : Vif} {value change : Int} (moved : change ≠ 0) {items : List (Ptr × Route)} :
    (items.map fun item => storeIf (left item) vif value change item) =
        items.map (fun item => storeIf (right item) vif value change item) ↔
      ∀ item ∈ items, left item ↔ right item := by
  rw [List.map_inj_left]
  exact forall₂_congr fun item _ => storeIf_eq_iff moved

namespace Table

variable {host : Host} {t : Table}

/-- Entries with one name are one entry. -/
theorem Distinct.eq_of_name (distinct : t.Distinct) {item other : Ptr × Route}
    (left : item ∈ t.entries) (right : other ∈ t.entries) (same : item.1 = other.1) : item = other :=
  List.inj_on_of_nodup_map distinct left right same

theorem Distinct.find?_name (distinct : t.Distinct) {item : Ptr × Route} (member : item ∈ t.entries) :
    t.entries.find? (fun other => other.1 == item.1) = some item :=
  (find?_key_iff distinct).mpr ⟨member, rfl⟩

/-! ## Identities -/

theorem forward_identities (vif : Vif) (value change : Int) (item : Ptr × Route) :
    (t.forward host vif value change item).entries.map identity = t.entries.map identity := by
  rw [forward_entries, amend_setOutvif, List.map_map]
  exact List.map_congr_left fun other _ => storeIf_identity _ _ _ _ other

theorem forwardIf_identities (property : Route → Bool) (vif : Vif) (value change : Int)
    (item : Ptr × Route) :
    (t.forwardIf host property vif value change item).entries.map identity =
      t.entries.map identity := by
  unfold forwardIf
  split
  · exact forward_identities vif value change item
  · rfl

/-- The name of the first entry of a source and group depends on the identities only. -/
theorem find_identity (source group : Addr) :
    (t.find (routeIsFor source group)).map Prod.fst =
      ((t.entries.map identity).find? fun item => item.2.1 == source && item.2.2 == group).map
        Prod.fst := by
  rw [List.find?_map, Option.map_map]
  rfl

theorem distinct_of_identities {other : Table}
    (same : other.entries.map identity = t.entries.map identity) (distinct : t.Distinct) :
    other.Distinct := by
  have names : ∀ items : List (Ptr × Route), items.map Prod.fst = (items.map identity).map Prod.fst := by
    intro items
    rw [List.map_map]
    rfl
  unfold Distinct
  rw [names, same, ← names]
  exact distinct

/-! ## Loops as maps -/

theorem forwardIf_entries (host : Host) (distinct : t.Distinct) {item : Ptr × Route} (member : item ∈ t.entries)
    (property : Route → Bool) (vif : Vif) (value change : Int) :
    (t.forwardIf host property vif value change item).entries =
      t.entries.map fun other =>
        storeIf (other.1 = item.1 ∧ property other.2 = true) vif value change other := by
  unfold forwardIf
  by_cases holds : property item.2 = true
  · rw [if_pos holds, forward_entries, amend_setOutvif]
    refine List.map_congr_left fun other inside => ?_
    by_cases same : other.1 = item.1
    · rw [distinct.eq_of_name inside member same]
      simp [holds]
    · simp [same]
  · rw [if_neg holds]
    refine ((List.map_congr_left fun other inside => ?_).trans (List.map_id _)).symm
    rw [storeIf, if_neg, id_eq]
    rintro ⟨same, again⟩
    rw [distinct.eq_of_name inside member same] at again
    exact holds again

theorem forwardAll_entries (distinct : t.Distinct) {items : List (Ptr × Route)}
    (inside : ∀ item ∈ items, item ∈ t.entries) (apart : (items.map Prod.fst).Nodup)
    (property : Route → Bool) (vif : Vif) (value change : Int) :
    (t.forwardAll host property vif value change items).entries =
      t.entries.map fun other =>
        storeIf (other.1 ∈ items.map Prod.fst ∧ property other.2 = true) vif value change other := by
  induction items generalizing t with
  | nil => simp [forwardAll, storeIf]
  | cons item rest ih =>
      obtain ⟨absent, apart⟩ := List.nodup_cons.mp apart
      have first := forwardIf_entries host distinct (inside item (List.mem_cons_self ..)) property vif
        value change
      have after : (t.forwardIf host property vif value change item).Distinct :=
        distinct_of_identities (forwardIf_identities property vif value change item) distinct
      have still : ∀ other ∈ rest,
          other ∈ (t.forwardIf host property vif value change item).entries := by
        intro other member
        refine mem_forwardIf_of_ne (inside other (List.mem_cons_of_mem _ member)) ?_ _ _ _ _
        intro same
        rw [← same] at absent
        exact absent (List.mem_map_of_mem member)
      refine (ih after still apart).trans ?_
      rw [first, List.map_map]
      refine List.map_congr_left fun other _ => ?_
      simp only [Function.comp_apply, storeIf_name, List.map_cons, List.mem_cons]
      by_cases here : other.1 = item.1
      · have outside : other.1 ∉ rest.map Prod.fst := fun again => absent (here ▸ again)
        rw [storeIf, if_neg fun both => outside both.1]
        simp only [here, absent, or_false]
      · have unchanged : storeIf (other.1 = item.1 ∧ property other.2 = true) vif value change other =
            other := if_neg fun both => here both.1
        rw [unchanged]
        simp only [here, false_or]

theorem refreshAdd_entries (distinct : t.Distinct) (vif : Vif) :
    (t.refreshAdd host vif).entries =
      t.entries.map fun item => storeIf (item.2.outvif vif = 0) vif 1 1 item := by
  refine (forwardAll_entries distinct (fun _ member => member) distinct _ vif 1 1).trans ?_
  refine List.map_congr_left fun item member => ?_
  have named : item.1 ∈ t.entries.map Prod.fst := List.mem_map_of_mem member
  simp [named, storeIf]

theorem refreshDel_entries (distinct : t.Distinct) (vif : Vif) :
    (t.refreshDel host vif).entries =
      t.entries.map fun item => storeIf (t.Deserted item.2 = true) vif 0 (-1) item := by
  refine (forwardAll_entries distinct (fun _ member => member) distinct _ vif 0 (-1)).trans ?_
  refine List.map_congr_left fun item member => ?_
  have named : item.1 ∈ t.entries.map Prod.fst := List.mem_map_of_mem member
  simp [named, storeIf]

theorem graftNamed_identities (vif : Vif) (mymrt : Ptr) :
    (t.graftNamed host vif mymrt).entries.map identity = t.entries.map identity := by
  unfold graftNamed
  split
  · rfl
  · exact forwardIf_identities _ vif 1 0 _

theorem graft_identities (vif : Vif) (mymrts : List Ptr) :
    (t.graft host vif mymrts).entries.map identity = t.entries.map identity := by
  induction mymrts generalizing t with
  | nil => rfl
  | cons mymrt rest ih => exact ih.trans (graftNamed_identities vif mymrt)

theorem graftNamed_entries (distinct : t.Distinct) (vif : Vif) (mymrt : Ptr) :
    (t.graftNamed host vif mymrt).entries =
      t.entries.map fun item => storeIf (item.1 = mymrt ∧ item.2.outvif vif = 0) vif 1 0 item := by
  unfold graftNamed
  cases found : t.entries.find? fun item => item.1 == mymrt with
  | none =>
      refine ((List.map_congr_left fun item member => ?_).trans (List.map_id _)).symm
      have other := List.find?_eq_none.mp found item member
      rw [storeIf, if_neg, id_eq]
      exact fun both => other (beq_iff_eq.mpr both.1)
  | some item =>
      have member := List.mem_of_find?_eq_some found
      have named := List.find?_some (p := fun other : Ptr × Route => other.1 == mymrt) found
      simp only [forwardIf_entries host distinct member]
      rw [eq_of_beq named]
      simp only [beq_iff_eq]

/-- A Graft opens the interface on the entries it names. -/
theorem graft_entries (distinct : t.Distinct) (vif : Vif) (mymrts : List Ptr) :
    (t.graft host vif mymrts).entries =
      t.entries.map fun item => storeIf (item.1 ∈ mymrts ∧ item.2.outvif vif = 0) vif 1 0 item := by
  induction mymrts generalizing t with
  | nil => simp [graft, storeIf]
  | cons mymrt rest ih =>
      have after : (t.graftNamed host vif mymrt).Distinct :=
        distinct_of_identities (graftNamed_identities vif mymrt) distinct
      refine (ih after).trans ?_
      rw [graftNamed_entries distinct, List.map_map]
      refine List.map_congr_left fun item _ => ?_
      simp only [Function.comp_apply, List.mem_cons, storeIf_name, storeIf_outvif]
      by_cases off : item.2.outvif vif = 0
      · by_cases here : item.1 = mymrt <;> simp [storeIf, here, off]
      · simp [storeIf, off]

/-! ## Stores one after another -/

/-- What every store into an entry of the table keeps, a loop over entries keeps. -/
theorem forwardAll_keeps {P : Table → Prop} {vif : Vif} {value change : Int}
    {property : Route → Bool}
    (each : ∀ t item, P t → item ∈ t.entries → P (t.forward host vif value change item))
    (start : P t) {items : List (Ptr × Route)} (inside : ∀ item ∈ items, item ∈ t.entries)
    (apart : (items.map Prod.fst).Nodup) : P (t.forwardAll host property vif value change items) := by
  induction items generalizing t with
  | nil => exact start
  | cons item rest ih =>
      obtain ⟨absent, apart⟩ := List.nodup_cons.mp apart
      refine ih ?_ (fun other member => ?_) apart
      · unfold forwardIf
        split
        · exact each t item start (inside item (List.mem_cons_self ..))
        · exact start
      · refine mem_forwardIf_of_ne (inside other (List.mem_cons_of_mem _ member)) ?_ _ _ _ _
        intro same
        rw [← same] at absent
        exact absent (List.mem_map_of_mem member)

theorem graft_keeps {P : Table → Prop} {vif : Vif}
    (each : ∀ t item, P t → item ∈ t.entries → P (t.forward host vif 1 0 item))
    (start : P t) (mymrts : List Ptr) : P (t.graft host vif mymrts) := by
  induction mymrts generalizing t with
  | nil => exact start
  | cons mymrt rest ih =>
      refine ih ?_
      unfold graftNamed
      split
      · exact start
      · rename_i item found
        unfold forwardIf
        split
        · exact each t item start (List.mem_of_find?_eq_some found)
        · exact start

end Table

end PimDm.Routing
