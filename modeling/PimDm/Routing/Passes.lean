import Mathlib.Data.List.TakeWhile
import PimDm.Routing.Entries

/-!
# Checks between the stores of a loop

Every store of an outgoing interface is followed by a check of the whole table.
An entry is seen with its old counter by the checks before its own store, and
with its new one from there on.
-/

namespace PimDm.Routing

open PimDm.Foundation PimDm.Source

/-- The counter at which a check announces an entry. -/
def levelOf : Judge → Int
  | .addLeaf => 1
  | .addNeighbor => 1
  | .delLeaf => 0
  | .delNeighbor => 0

/-- The upstream neighbour is a router. -/
def Far (r : Route) : Prop := r.upstream ≠ r.source

instance (r : Route) : Decidable (Far r) := inferInstanceAs (Decidable (_ ≠ _))

/-- The check sends a message for the entry. -/
def Announces (judge : Judge) (r : Route) : Prop := Far r ∧ r.outnumber = levelOf judge

instance (judge : Judge) (r : Route) : Decidable (Announces judge r) :=
  inferInstanceAs (Decidable (_ ∧ _))

namespace Table

variable {host : Host} {t : Table}

/-- The check sends a message for the entry at this address. -/
def Tells (judge : Judge) (mymrt : Ptr) (t : Table) : Prop :=
  ∃ item ∈ t.entries, item.1 = mymrt ∧ Announces judge item.2

instance (judge : Judge) (mymrt : Ptr) : DecidablePred (Tells judge mymrt) :=
  fun t => inferInstanceAs (Decidable (∃ item ∈ t.entries, _))

/-- Among entries with different names a check looks at one only. -/
theorem Distinct.tells_iff (distinct : t.Distinct) (judge : Judge) {item : Ptr × Route}
    (member : item ∈ t.entries) : t.Tells judge item.1 ↔ Announces judge item.2 := by
  constructor
  · rintro ⟨other, inside, same, announces⟩
    rw [← distinct.eq_of_name inside member same]
    exact announces
  · intro announces
    exact ⟨item, member, rfl, announces⟩

/-- `forward` on one entry after another: the table after each of them. -/
def passes (host : Host) (vif : Vif) (value : Int) (change : Route → Int) :
    List (Ptr × Route) → Table → List Table
  | [], _ => []
  | item :: rest, t =>
      let after := t.forward host vif value (change item.2) item
      after :: passes host vif value change rest after

/-- The passes over the entries with a property, the first entry apart. -/
theorem passes_filter_cons (host : Host) (property : Route → Bool) (vif : Vif) (value change : Int)
    (item : Ptr × Route) (rest : List (Ptr × Route)) (t : Table) :
    t.passes host vif value (fun _ => change) ((item :: rest).filter fun item => property item.2) =
      t.passes host vif value (fun _ => change) ([item].filter fun item => property item.2) ++
        (t.forwardIf host property vif value change item).passes host vif value (fun _ => change)
          (rest.filter fun item => property item.2) := by
  cases holds : property item.2 with
  | true => simp [holds, passes, forwardIf]
  | false => simp [holds, passes, forwardIf]

/-- A loop that does not reach an entry is ahead of it all the time. -/
theorem ahead_all {touched : List (Ptr × Route)} {mymrt : Ptr} (missing : mymrt ∉ touched.map Prod.fst) :
    touched.takeWhile (fun other => other.1 != mymrt) = touched ∧
      touched.dropWhile (fun other => other.1 != mymrt) = [] := by
  have others : ∀ other ∈ touched, (other.1 != mymrt) = true := by
    intro other member
    rw [bne_iff_ne]
    rintro rfl
    exact missing (List.mem_map_of_mem member)
  exact ⟨List.takeWhile_eq_self_iff.mpr others, List.dropWhile_eq_nil_iff.mpr others⟩

/-- The passes of the loop up to the store into an entry, and from there on. -/
theorem told_passes (host : Host) (distinct : t.Distinct) (judge : Judge) (vif : Vif) (value : Int)
    (change : Route → Int) {touched : List (Ptr × Route)} (inside : ∀ item ∈ touched, item ∈ t.entries)
    (apart : (touched.map Prod.fst).Nodup) {item : Ptr × Route} (member : item ∈ t.entries) :
    (t.passes host vif value change touched).countP (fun t => t.Tells judge item.1) =
      (if Announces judge item.2 then (touched.takeWhile fun other => other.1 != item.1).length else 0) +
        if Announces judge (routeSetOutvif vif value (change item.2) item.2) then
          (touched.dropWhile fun other => other.1 != item.1).length else 0 := by
  induction touched generalizing t item with
  | nil => simp [passes]
  | cons first rest ih =>
      obtain ⟨alone, apart⟩ := List.nodup_cons.mp apart
      have here := inside first (List.mem_cons_self ..)
      have still : (t.forward host vif value (change first.2) first).Distinct :=
        distinct_of_identities (forward_identities vif value (change first.2) first) distinct
      have later : ∀ other ∈ rest,
          other ∈ (t.forward host vif value (change first.2) first).entries := by
        intro other more
        rw [forward_entries, mem_amend]
        refine ⟨other, inside other (List.mem_cons_of_mem _ more), ?_⟩
        rw [if_neg fun same => alone (List.mem_map.mpr ⟨other, more, same⟩)]
      rw [passes, List.countP_cons]
      by_cases same : first.1 = item.1
      · obtain rfl := distinct.eq_of_name here member same
        have stored : (first.1, routeSetOutvif vif value (change first.2) first.2) ∈
            (t.forward host vif value (change first.2) first).entries := by
          rw [forward_entries, mem_amend]
          exact ⟨first, member, (if_pos rfl).symm⟩
        obtain ⟨ahead, behind⟩ := ahead_all alone
        have sees := still.tells_iff judge stored
        have more := ih still later apart stored
        rw [ahead, behind] at more
        simp only [more, sees, List.takeWhile_cons, List.dropWhile_cons]
        by_cases announces : Announces judge (routeSetOutvif vif value (change first.2) first.2)
        · simp [announces]
        · simp [announces]
      · have kept : item ∈ (t.forward host vif value (change first.2) first).entries := by
          rw [forward_entries, mem_amend]
          exact ⟨item, member, (if_neg fun other => same other.symm).symm⟩
        have passed : (first.1 != item.1) = true := bne_iff_ne.mpr same
        have more := ih still later apart kept
        have sees := still.tells_iff judge kept
        simp only [more, sees, List.takeWhile_cons, List.dropWhile_cons, passed]
        by_cases announces : Announces judge item.2
        · simp only [announces, decide_true, if_true, List.length_cons]
          omega
        · simp [announces]

end Table

end PimDm.Routing
