import PimDm.Routing.Outgoing

/-!
# Invariants of the entries, and the changes that keep them

Four properties of every entry: it does not forward back, it counts its
outgoing interfaces, it serves the members, it forwards only where someone
listens.  For each there is a condition on a change and the state before it, and
the change keeps the property exactly when the condition holds.
-/

namespace PimDm.Routing

open PimDm.Foundation PimDm.Source

variable {host : Host} {t : Table}

/-- A property of all entries after a change that creates nothing and removes
nothing holds exactly when a condition holds of each entry before it. -/
theorem Change.keeps_iff (distinct : t.Distinct) {change : Change} {Q : Route → Prop}
    {guard : Ptr × Route → Prop} (nothing : change.created host t = []) (all : change.kept t = t.entries)
    (each : ∀ item ∈ t.entries, (Q (change.stores t item).2 ↔ guard item)) :
    (∀ item ∈ (change.apply host t).entries, Q item.2) ↔ ∀ item ∈ t.entries, guard item := by
  rw [Change.forall_apply distinct, nothing, all]
  constructor
  · rintro ⟨_, stored⟩ item member
    exact (each item member).mp (stored item member)
  · intro guarded
    exact ⟨fun _ member => (List.not_mem_nil member).elim, fun item member =>
      (each item member).mpr (guarded item member)⟩

/-- What holds of a created entry and is kept by every store holds after the change. -/
theorem Change.keeps (distinct : t.Distinct) {change : Change} {Q : Route → Prop}
    (new : ∀ item ∈ change.created host t, Q item.2)
    (each : ∀ item ∈ t.entries, Q (change.stores t item).2) :
    ∀ item ∈ (change.apply host t).entries, Q item.2 :=
  (Change.forall_apply distinct).mpr ⟨new, fun item member => each item (Change.mem_of_kept member)⟩

/-! ## Not forwarding back -/

/-- The entry does not forward on its incoming interface. -/
def Safe (r : Route) : Prop := r.outvif r.incoming = 0

instance (r : Route) : Decidable (Safe r) := inferInstanceAs (Decidable (_ = _))

/-- The change does not open the incoming interface of an entry. -/
def Change.SparesIncoming (t : Table) : Change → Ptr × Route → Prop
  | .join vif _ group, item => t.IsFirst (fun r => r.group == group) item → item.2.incoming ≠ vif
  | .addNeighbor vif _ _, item => item.2.incoming ≠ vif
  | .restore source group vif, item => t.IsFirst (routeIsFor source group) item → item.2.incoming ≠ vif
  | .graft vif mymrts, item => item.1 ∈ mymrts → item.2.incoming ≠ vif
  | _, _ => True

instance decidableSparesIncoming (t : Table) :
    (change : Change) → (item : Ptr × Route) → Decidable (change.SparesIncoming t item)
  | .join vif _ group, item =>
      inferInstanceAs (Decidable (t.IsFirst (fun r => r.group == group) item → item.2.incoming ≠ vif))
  | .addNeighbor vif _ _, item => inferInstanceAs (Decidable (item.2.incoming ≠ vif))
  | .restore source group vif, item =>
      inferInstanceAs (Decidable (t.IsFirst (routeIsFor source group) item → item.2.incoming ≠ vif))
  | .graft vif mymrts, item => inferInstanceAs (Decidable (item.1 ∈ mymrts → item.2.incoming ≠ vif))
  | .idle, _ => isTrue trivial
  | .create .., _ => isTrue trivial
  | .remove .., _ => isTrue trivial
  | .leave .., _ => isTrue trivial
  | .delNeighbor .., _ => isTrue trivial
  | .prune .., _ => isTrue trivial
  | .winner .., _ => isTrue trivial

theorem safe_storeIf {condition : Prop} [Decidable condition] {vif : Vif} {value change : Int}
    {item : Ptr × Route} (safe : Safe item.2) :
    Safe (storeIf condition vif value change item).2 ↔
      (condition → item.2.incoming = vif → value = 0) := by
  unfold Safe at safe ⊢
  rw [storeIf_incoming, storeIf_outvif]
  by_cases both : condition ∧ item.2.incoming = vif
  · simp [both]
  · simp only [if_neg both, safe, true_iff]
    exact fun holds same => absurd ⟨holds, same⟩ both

theorem safe_newRoute (upstream source group : Addr) (incoming : Vif) :
    Safe (t.newRoute host upstream source group incoming) := by
  have unwanted : ¬ t.Wants host group incoming incoming := fun wants => wants.2.1 rfl
  simp [Safe, Table.newRoute, unwanted]

/-- A change keeps all entries from forwarding back exactly when it opens no
incoming interface. -/
theorem safe_apply_iff (distinct : t.Distinct) (safe : ∀ item ∈ t.entries, Safe item.2)
    (change : Change) :
    (∀ item ∈ (change.apply host t).entries, Safe item.2) ↔
      ∀ item ∈ t.entries, change.SparesIncoming t item := by
  cases change with
  | create mymrt upstream source group incoming =>
      refine iff_of_true (Change.keeps distinct ?_ safe) fun _ _ => trivial
      intro item member
      rw [List.mem_singleton.mp member]
      exact safe_newRoute upstream source group incoming
  | remove source group =>
      exact iff_of_true (Change.keeps distinct (fun _ member => (List.not_mem_nil member).elim) safe)
        fun _ _ => trivial
  | idle => exact Change.keeps_iff distinct rfl rfl fun item member => iff_of_true (safe item member) trivial
  | join vif record group =>
      refine Change.keeps_iff distinct rfl rfl fun item member => (safe_storeIf (safe item member)).trans ?_
      simp [Change.SparesIncoming]
  | leave vif group read =>
      refine Change.keeps_iff distinct rfl rfl fun item member => (safe_storeIf (safe item member)).trans ?_
      simp [Change.SparesIncoming]
  | addNeighbor vif entry address =>
      refine Change.keeps_iff distinct rfl rfl fun item member => (safe_storeIf (safe item member)).trans ?_
      have closed : item.2.outvif item.2.incoming = 0 := safe item member
      constructor
      · intro guard same
        rw [same] at closed
        exact absurd (guard closed same) (by decide)
      · intro other _ same
        exact absurd same other
  | delNeighbor vif address =>
      refine Change.keeps_iff distinct rfl rfl fun item member => (safe_storeIf (safe item member)).trans ?_
      simp [Change.SparesIncoming]
  | prune source group vif =>
      refine Change.keeps_iff distinct rfl rfl fun item member => (safe_storeIf (safe item member)).trans ?_
      simp [Change.SparesIncoming]
  | restore source group vif =>
      refine Change.keeps_iff distinct rfl rfl fun item member => (safe_storeIf (safe item member)).trans ?_
      simp [Change.SparesIncoming]
  | graft vif mymrts =>
      refine Change.keeps_iff distinct rfl rfl fun item member => (safe_storeIf (safe item member)).trans ?_
      have closed : item.2.outvif item.2.incoming = 0 := safe item member
      constructor
      · intro guard inside same
        rw [same] at closed
        exact absurd (guard ⟨inside, closed⟩ same) (by decide)
      · intro other both same
        exact absurd same (other both.1)
  | winner mymrt preference metric upstream =>
      refine Change.keeps_iff distinct rfl rfl fun item member => iff_of_true ?_ trivial
      have closed := safe item member
      by_cases here : item.1 = mymrt <;> simpa [Change.stores, here, Safe] using closed

/-! ## Counting -/

/-- The interface a change names is an active one. -/
def Change.OnServed (host : Host) : Change → Prop
  | .join vif _ _ => host.Serves vif
  | .leave vif _ _ => host.Serves vif
  | .addNeighbor vif _ _ => host.Serves vif
  | .delNeighbor vif _ => host.Serves vif
  | .prune _ _ vif => host.Serves vif
  | .restore _ _ vif => host.Serves vif
  | .graft vif _ => host.Serves vif
  | _ => True

theorem mem_vifs_of_serves {vif : Vif} (serves : host.Serves vif) : vif ∈ host.vifs :=
  Host.mem_vifs.mpr ⟨serves.positive, serves.bounded⟩

/-- The counter is the number of outgoing interfaces. -/
def Counts (host : Host) (r : Route) : Prop := r.outnumber = outCount host r.outvif

instance (host : Host) (r : Route) : Decidable (Counts host r) := inferInstanceAs (Decidable (_ = _))

theorem counts_newRoute (upstream source group : Addr) (incoming : Vif) :
    Counts host (t.newRoute host upstream source group incoming) := by
  have same : ∀ vif ∈ host.vifs, decide (t.Wants host group incoming vif) =
      decide ((t.newRoute host upstream source group incoming).outvif vif = 1) := by
    intro vif _
    by_cases wants : t.Wants host group incoming vif <;> simp [Table.newRoute, wants]
  unfold Counts outCount
  rw [List.countP_eq_length_filter, ← List.filter_congr same]
  rfl

/-- A store keeps the count exactly when it moves the counter as it moves the cell. -/
theorem counts_storeIf {condition : Prop} [Decidable condition] {vif : Vif} {value change : Int}
    {item : Ptr × Route} (counts : Counts host item.2) (inside : vif ∈ host.vifs) :
    Counts host (storeIf condition vif value change item).2 ↔
      (condition → change + (if item.2.outvif vif = 1 then 1 else 0) = if value = 1 then 1 else 0) := by
  unfold Counts at counts ⊢
  by_cases holds : condition
  · have moved := outCount_update inside item.2.outvif value
    have stored : storeIf condition vif value change item =
        (item.1, routeSetOutvif vif value change item.2) := if_pos holds
    rw [stored]
    simp only [routeSetOutvif, counts, holds, forall_const]
    omega
  · simp [storeIf, holds, counts]

/-- A closing store keeps the count exactly when the cell was open. -/
theorem counts_closeIf {condition : Prop} [Decidable condition] {vif : Vif} {item : Ptr × Route}
    (counts : Counts host item.2) (inside : vif ∈ host.vifs) :
    Counts host (storeIf condition vif 0 (-1) item).2 ↔ (condition → item.2.outvif vif = 1) := by
  refine (counts_storeIf counts inside).trans ?_
  by_cases on : item.2.outvif vif = 1 <;> simp [on]

/-- The change moves the counter of an entry as it moves the cell. -/
def Change.CountsRight (t : Table) : Change → Ptr × Route → Prop
  | .leave vif _ read, item => t.IsFirst (fun r => r.group == read) item → item.2.outvif vif = 1
  | .delNeighbor vif address, item =>
      (t.withoutNeighbor vif address).Deserted item.2 = true → item.2.outvif vif = 1
  | .prune source group vif, item => t.IsFirst (routeIsFor source group) item → item.2.outvif vif ≠ 1
  | .restore source group vif, item => t.IsFirst (routeIsFor source group) item → item.2.outvif vif = 1
  | .graft vif mymrts, item => item.1 ∈ mymrts → item.2.outvif vif ≠ 0
  | _, _ => True

instance decidableCountsRight (t : Table) :
    (change : Change) → (item : Ptr × Route) → Decidable (change.CountsRight t item)
  | .leave vif _ read, item =>
      inferInstanceAs (Decidable (t.IsFirst (fun r => r.group == read) item → item.2.outvif vif = 1))
  | .delNeighbor vif address, item =>
      inferInstanceAs (Decidable ((t.withoutNeighbor vif address).Deserted item.2 = true →
        item.2.outvif vif = 1))
  | .prune source group vif, item =>
      inferInstanceAs (Decidable (t.IsFirst (routeIsFor source group) item → item.2.outvif vif ≠ 1))
  | .restore source group vif, item =>
      inferInstanceAs (Decidable (t.IsFirst (routeIsFor source group) item → item.2.outvif vif = 1))
  | .graft vif mymrts, item => inferInstanceAs (Decidable (item.1 ∈ mymrts → item.2.outvif vif ≠ 0))
  | .idle, _ => isTrue trivial
  | .create .., _ => isTrue trivial
  | .remove .., _ => isTrue trivial
  | .join .., _ => isTrue trivial
  | .addNeighbor .., _ => isTrue trivial
  | .winner .., _ => isTrue trivial

/-- A change keeps all counters right exactly when it moves them with the cells. -/
theorem counts_apply_iff (distinct : t.Distinct) (counts : ∀ item ∈ t.entries, Counts host item.2)
    {change : Change} (served : change.OnServed host) :
    (∀ item ∈ (change.apply host t).entries, Counts host item.2) ↔
      ∀ item ∈ t.entries, change.CountsRight t item := by
  cases change with
  | create mymrt upstream source group incoming =>
      refine iff_of_true (Change.keeps distinct ?_ counts) fun _ _ => trivial
      intro item member
      rw [List.mem_singleton.mp member]
      exact counts_newRoute upstream source group incoming
  | remove source group =>
      exact iff_of_true (Change.keeps distinct (fun _ member => (List.not_mem_nil member).elim) counts)
        fun _ _ => trivial
  | idle =>
      exact Change.keeps_iff distinct rfl rfl fun item member => iff_of_true (counts item member) trivial
  | join vif record group =>
      refine Change.keeps_iff distinct rfl rfl fun item member =>
        (counts_storeIf (counts item member) (mem_vifs_of_serves served)).trans ?_
      by_cases on : item.2.outvif vif = 1 <;> simp [Change.CountsRight, on]
  | leave vif group read =>
      exact Change.keeps_iff distinct rfl rfl fun item member =>
        counts_closeIf (counts item member) (mem_vifs_of_serves served)
  | addNeighbor vif entry address =>
      refine Change.keeps_iff distinct rfl rfl fun item member =>
        (counts_storeIf (counts item member) (mem_vifs_of_serves served)).trans ?_
      refine iff_of_true (fun off => ?_) trivial
      simp [off]
  | delNeighbor vif address =>
      exact Change.keeps_iff distinct rfl rfl fun item member =>
        counts_closeIf (counts item member) (mem_vifs_of_serves served)
  | prune source group vif =>
      refine Change.keeps_iff distinct rfl rfl fun item member =>
        (counts_storeIf (counts item member) (mem_vifs_of_serves served)).trans ?_
      by_cases on : item.2.outvif vif = 1 <;> simp [Change.CountsRight, on]
  | restore source group vif =>
      refine Change.keeps_iff distinct rfl rfl fun item member =>
        (counts_storeIf (counts item member) (mem_vifs_of_serves served)).trans ?_
      by_cases on : item.2.outvif vif = 1 <;> simp [Change.CountsRight, on]
  | graft vif mymrts =>
      refine Change.keeps_iff distinct rfl rfl fun item member =>
        (counts_storeIf (counts item member) (mem_vifs_of_serves served)).trans ?_
      by_cases off : item.2.outvif vif = 0 <;> simp [Change.CountsRight, off]
  | winner mymrt preference metric upstream =>
      refine Change.keeps_iff distinct rfl rfl fun item member => iff_of_true ?_ trivial
      obtain ⟨cells, number⟩ := Change.stores_winner t mymrt preference metric upstream item
      unfold Counts
      rw [cells, number]
      exact counts item member

/-! ## Serving the members -/

/-- The entry forwards on every active interface, but the incoming one, that has
a member of its group. -/
def Serving (host : Host) (t : Table) (r : Route) : Prop :=
  ∀ vif, host.Serves vif → vif ≠ r.incoming → t.HasMember vif r.group → r.outvif vif = 1

/-- After the change an entry still forwards where it has members. -/
def Change.KeepsServing (t : Table) : Change → Ptr × Route → Prop
  | .join vif _ group, item =>
      item.2.group = group → vif ≠ item.2.incoming →
        t.IsFirst (fun r => r.group == group) item ∨ item.2.outvif vif = 1
  | .leave vif group read, item =>
      t.IsFirst (fun r => r.group == read) item → vif ≠ item.2.incoming →
        ¬ (t.withoutMember vif group).HasMember vif item.2.group
  | .delNeighbor vif address, item =>
      (t.withoutNeighbor vif address).Deserted item.2 = true → vif ≠ item.2.incoming →
        ¬ t.HasMember vif item.2.group
  | .prune source group vif, item =>
      t.IsFirst (routeIsFor source group) item → vif ≠ item.2.incoming →
        ¬ t.HasMember vif item.2.group
  | _, _ => True

instance decidableKeepsServing (t : Table) :
    (change : Change) → (item : Ptr × Route) → Decidable (change.KeepsServing t item)
  | .join vif _ group, item =>
      inferInstanceAs (Decidable (item.2.group = group → vif ≠ item.2.incoming →
        t.IsFirst (fun r => r.group == group) item ∨ item.2.outvif vif = 1))
  | .leave vif group read, item =>
      inferInstanceAs (Decidable (t.IsFirst (fun r => r.group == read) item → vif ≠ item.2.incoming →
        ¬ (t.withoutMember vif group).HasMember vif item.2.group))
  | .delNeighbor vif address, item =>
      inferInstanceAs (Decidable ((t.withoutNeighbor vif address).Deserted item.2 = true →
        vif ≠ item.2.incoming → ¬ t.HasMember vif item.2.group))
  | .prune source group vif, item =>
      inferInstanceAs (Decidable (t.IsFirst (routeIsFor source group) item → vif ≠ item.2.incoming →
        ¬ t.HasMember vif item.2.group))
  | .idle, _ => isTrue trivial
  | .create .., _ => isTrue trivial
  | .remove .., _ => isTrue trivial
  | .addNeighbor .., _ => isTrue trivial
  | .restore .., _ => isTrue trivial
  | .graft .., _ => isTrue trivial
  | .winner .., _ => isTrue trivial

theorem hasMember_congr {other : Table} (same : other.members = t.members) (vif : Vif) (group : Addr) :
    other.HasMember vif group ↔ t.HasMember vif group := by
  unfold Table.HasMember
  rw [same]

/-- Closing an interface of a serving entry. -/
theorem serving_close {condition : Prop} [Decidable condition] {vif : Vif} (serves : host.Serves vif)
    {change : Int} {item : Ptr × Route} {after : Table}
    (serving : ∀ other, host.Serves other → other ≠ item.2.incoming →
      after.HasMember other item.2.group → item.2.outvif other = 1) :
    Serving host after (storeIf condition vif 0 change item).2 ↔
      (condition → vif ≠ item.2.incoming → ¬ after.HasMember vif item.2.group) := by
  unfold Serving
  rw [storeIf_incoming, storeIf_group]
  constructor
  · intro stored holds other member
    have opened := stored vif serves other member
    rw [storeIf_outvif, if_pos ⟨holds, rfl⟩] at opened
    exact absurd opened (by decide)
  · intro guard other otherServes apart member
    rw [storeIf_outvif]
    by_cases both : condition ∧ other = vif
    · obtain ⟨holds, rfl⟩ := both
      exact absurd member (guard holds apart)
    · rw [if_neg both]
      exact serving other otherServes apart member

/-- Opening an interface keeps an entry serving. -/
theorem serving_open {condition : Prop} [Decidable condition] {vif : Vif} {change : Int}
    {item : Ptr × Route} {after : Table} (serving : Serving host after item.2) :
    Serving host after (storeIf condition vif 1 change item).2 := by
  intro other serves apart member
  rw [storeIf_incoming] at apart
  rw [storeIf_group] at member
  rw [storeIf_outvif]
  split
  · rfl
  · exact serving other serves apart member

/-- Serving depends on the lists of members only. -/
theorem serving_congr {after : Table} (same : after.members = t.members) {r : Route}
    (serving : Serving host t r) : Serving host after r := by
  intro vif serves apart member
  exact serving vif serves apart ((hasMember_congr same vif r.group).mp member)

theorem serving_newRoute (upstream source group : Addr) (incoming : Vif) {after : Table}
    (same : after.members = t.members) :
    Serving host after (t.newRoute host upstream source group incoming) := by
  intro vif serves apart member
  have wants : t.Wants host group incoming vif :=
    ⟨mem_vifs_of_serves serves, apart, Or.inr ((hasMember_congr same vif group).mp member)⟩
  simp [Table.newRoute, wants]

theorem hasMember_withoutMember {vif other : Vif} {group asked : Addr}
    (member : (t.withoutMember vif group).HasMember other asked) : t.HasMember other asked := by
  obtain ⟨item, inside, same⟩ := member
  refine ⟨item, ?_, same⟩
  by_cases here : other = vif
  · subst here
    simp only [Table.withoutMember, Table.setMembers, Function.update_self] at inside
    exact List.mem_of_mem_eraseP inside
  · simpa [Table.withoutMember, Table.setMembers, here] using inside

theorem hasMember_join {vif other : Vif} {record : Ptr} {group asked : Addr} :
    (t.setMembers vif ((record, group) :: t.members vif)).HasMember other asked ↔
      (other = vif ∧ asked = group) ∨ t.HasMember other asked := by
  unfold Table.HasMember Table.setMembers
  by_cases here : other = vif
  · subst here
    simp [eq_comm]
  · simp [here]

/-- Opening an interface of a serving entry for a new member. -/
theorem serving_join {condition : Prop} [Decidable condition] {vif : Vif} (serves : host.Serves vif)
    {change : Int} {item : Ptr × Route} {group : Addr} {after : Table}
    (members : ∀ other asked,
      after.HasMember other asked ↔ (other = vif ∧ asked = group) ∨ t.HasMember other asked)
    (serving : Serving host t item.2) :
    Serving host after (storeIf condition vif 1 change item).2 ↔
      (item.2.group = group → vif ≠ item.2.incoming → condition ∨ item.2.outvif vif = 1) := by
  unfold Serving
  rw [storeIf_incoming, storeIf_group]
  constructor
  · intro stored same apart
    have opened := stored vif serves apart ((members vif item.2.group).mpr (Or.inl ⟨rfl, same⟩))
    rw [storeIf_outvif] at opened
    by_cases holds : condition
    · exact Or.inl holds
    · rw [if_neg fun both => holds both.1] at opened
      exact Or.inr opened
  · intro guard other otherServes apart asked
    rw [storeIf_outvif]
    by_cases both : condition ∧ other = vif
    · rw [if_pos both]
    · rw [if_neg both]
      rcases (members other item.2.group).mp asked with ⟨rfl, same⟩ | old
      · exact (guard same apart).resolve_left fun holds => both ⟨holds, rfl⟩
      · exact serving other otherServes apart old

/-- A change keeps all members served exactly when no entry stops or fails to
forward to a member. -/
theorem serving_apply_iff (distinct : t.Distinct) (serving : ∀ item ∈ t.entries, Serving host t item.2)
    {change : Change} (served : change.OnServed host) :
    (∀ item ∈ (change.apply host t).entries, Serving host (change.apply host t) item.2) ↔
      ∀ item ∈ t.entries, change.KeepsServing t item := by
  have members := change.apply_members host t
  cases change with
  | create mymrt upstream source group incoming =>
      refine iff_of_true (Change.keeps distinct ?_ fun item member =>
        serving_congr members (serving item member)) fun _ _ => trivial
      intro item member
      rw [List.mem_singleton.mp member]
      exact serving_newRoute upstream source group incoming members
  | remove source group =>
      refine iff_of_true (Change.keeps distinct (fun _ member => (List.not_mem_nil member).elim) ?_)
        fun _ _ => trivial
      intro item member
      exact serving_congr members (serving item member)
  | idle =>
      exact Change.keeps_iff distinct rfl rfl fun item member => iff_of_true (serving item member) trivial
  | join vif record group =>
      refine Change.keeps_iff distinct rfl rfl fun item member =>
        serving_join served (fun other asked => ?_) (serving item member)
      exact (hasMember_congr members other asked).trans hasMember_join
  | leave vif group read =>
      refine Change.keeps_iff distinct rfl rfl fun item member => (serving_close served ?_).trans ?_
      · intro other serves apart asked
        have asked := (hasMember_congr members other _).mp asked
        exact serving item member other serves apart (hasMember_withoutMember asked)
      · simp only [Change.KeepsServing, hasMember_congr members]
  | addNeighbor vif entry address =>
      refine Change.keeps_iff distinct rfl rfl fun item member => iff_of_true (serving_open ?_) trivial
      exact serving_congr members (serving item member)
  | delNeighbor vif address =>
      refine Change.keeps_iff distinct rfl rfl fun item member =>
        (serving_close served (serving_congr members (serving item member))).trans ?_
      simp only [Change.KeepsServing, hasMember_congr members]
  | prune source group vif =>
      refine Change.keeps_iff distinct rfl rfl fun item member =>
        (serving_close served (serving_congr members (serving item member))).trans ?_
      simp only [Change.KeepsServing, hasMember_congr members]
  | restore source group vif =>
      refine Change.keeps_iff distinct rfl rfl fun item member => iff_of_true (serving_open ?_) trivial
      exact serving_congr members (serving item member)
  | graft vif mymrts =>
      refine Change.keeps_iff distinct rfl rfl fun item member => iff_of_true (serving_open ?_) trivial
      exact serving_congr members (serving item member)
  | winner mymrt preference metric upstream =>
      refine Change.keeps_iff distinct rfl rfl fun item member => iff_of_true ?_ trivial
      have cells := (Change.stores_winner t mymrt preference metric upstream item).1
      obtain ⟨group, incoming⟩ := Change.stores_fixed t (.winner mymrt preference metric upstream) item
      intro other serves apart asked
      rw [incoming] at apart
      rw [group, hasMember_congr members] at asked
      rw [cells]
      exact serving item member other serves apart asked

/-! ## Listeners -/

/-- The entry forwards only where there is a neighbour or a member of its group. -/
def Listened (t : Table) (r : Route) : Prop :=
  ∀ vif, r.outvif vif = 1 → t.HasNeighbor vif ∨ t.HasMember vif r.group

/-- After the change someone still listens where an entry forwards. -/
def Change.KeepsListened (t : Table) : Change → Ptr × Route → Prop
  | .leave vif group read, item =>
      item.2.outvif vif = 1 → t.IsFirst (fun r => r.group == read) item ∨ t.HasNeighbor vif ∨
        (t.withoutMember vif group).HasMember vif item.2.group
  | .restore source group vif, item =>
      t.IsFirst (routeIsFor source group) item → t.HasNeighbor vif ∨ t.HasMember vif item.2.group
  | .graft vif mymrts, item =>
      item.1 ∈ mymrts → item.2.outvif vif = 0 → t.HasNeighbor vif ∨ t.HasMember vif item.2.group
  | _, _ => True

instance decidableKeepsListened (t : Table) :
    (change : Change) → (item : Ptr × Route) → Decidable (change.KeepsListened t item)
  | .leave vif group read, item =>
      inferInstanceAs (Decidable (item.2.outvif vif = 1 →
        t.IsFirst (fun r => r.group == read) item ∨ t.HasNeighbor vif ∨
          (t.withoutMember vif group).HasMember vif item.2.group))
  | .restore source group vif, item =>
      inferInstanceAs (Decidable (t.IsFirst (routeIsFor source group) item →
        t.HasNeighbor vif ∨ t.HasMember vif item.2.group))
  | .graft vif mymrts, item =>
      inferInstanceAs (Decidable (item.1 ∈ mymrts → item.2.outvif vif = 0 →
        t.HasNeighbor vif ∨ t.HasMember vif item.2.group))
  | .idle, _ => isTrue trivial
  | .create .., _ => isTrue trivial
  | .remove .., _ => isTrue trivial
  | .join .., _ => isTrue trivial
  | .addNeighbor .., _ => isTrue trivial
  | .delNeighbor .., _ => isTrue trivial
  | .prune .., _ => isTrue trivial
  | .winner .., _ => isTrue trivial

/-- Opening an interface of an entry that is listened to. -/
theorem listened_open {condition : Prop} [Decidable condition] {vif : Vif} {change : Int}
    {item : Ptr × Route} {after : Table} (listened : Listened after item.2) :
    Listened after (storeIf condition vif 1 change item).2 ↔
      (condition → after.HasNeighbor vif ∨ after.HasMember vif item.2.group) := by
  unfold Listened
  rw [storeIf_group]
  constructor
  · intro stored holds
    refine stored vif ?_
    rw [storeIf_outvif, if_pos ⟨holds, rfl⟩]
  · intro guard other opened
    rw [storeIf_outvif] at opened
    by_cases both : condition ∧ other = vif
    · obtain ⟨holds, rfl⟩ := both
      exact guard holds
    · rw [if_neg both] at opened
      exact listened other opened

/-- Closing an interface keeps the other interfaces listened to. -/
theorem listened_close {condition : Prop} [Decidable condition] {vif : Vif} {change : Int}
    {item : Ptr × Route} {after : Table} (listened : Listened after item.2) :
    Listened after (storeIf condition vif 0 change item).2 := by
  intro other opened
  rw [storeIf_group]
  rw [storeIf_outvif] at opened
  by_cases both : condition ∧ other = vif
  · rw [if_pos both] at opened
    exact absurd opened (by decide)
  · rw [if_neg both] at opened
    exact listened other opened

theorem listened_newRoute (upstream source group : Addr) (incoming : Vif) :
    Listened t (t.newRoute host upstream source group incoming) := by
  intro vif opened
  by_cases wants : t.Wants host group incoming vif
  · exact wants.2.2
  · simp [Table.newRoute, wants] at opened

theorem hasMember_withoutMember_other {vif other : Vif} {group asked : Addr}
    (apart : ¬ (other = vif ∧ asked = group)) (member : t.HasMember other asked) :
    (t.withoutMember vif group).HasMember other asked := by
  obtain ⟨item, inside, same⟩ := member
  refine ⟨item, ?_, same⟩
  by_cases here : other = vif
  · subst here
    have kept : ¬ (item.2 == group) = true := fun equal =>
      apart ⟨rfl, same.symm.trans (eq_of_beq equal)⟩
    simp only [Table.withoutMember, Table.setMembers, Function.update_self]
    exact (List.mem_eraseP_of_neg (p := fun entry : Ptr × Addr => entry.2 == group) kept).mpr inside
  · simpa [Table.withoutMember, Table.setMembers, here] using inside

theorem hasNeighbor_congr {other : Table} (same : other.neighbors = t.neighbors) (vif : Vif) :
    other.HasNeighbor vif ↔ t.HasNeighbor vif := by
  unfold Table.HasNeighbor
  rw [same]

/-- Leaving a group on an interface, with one entry closed there. -/
theorem listened_leave {condition : Prop} [Decidable condition] {vif : Vif} {change : Int}
    {item : Ptr × Route} {group : Addr} {after : Table} (neighbors : after.neighbors = t.neighbors)
    (members : after.members = (t.withoutMember vif group).members) (listened : Listened t item.2) :
    Listened after (storeIf condition vif 0 change item).2 ↔
      (item.2.outvif vif = 1 → condition ∨ t.HasNeighbor vif ∨
        (t.withoutMember vif group).HasMember vif item.2.group) := by
  unfold Listened
  simp only [storeIf_group, storeIf_outvif, hasNeighbor_congr neighbors, hasMember_congr members]
  constructor
  · intro stored opened
    by_cases holds : condition
    · exact Or.inl holds
    · refine Or.inr (stored vif ?_)
      rw [if_neg fun both => holds both.1]
      exact opened
  · intro guard other opened
    by_cases both : condition ∧ other = vif
    · rw [if_pos both] at opened
      exact absurd opened (by decide)
    rw [if_neg both] at opened
    by_cases here : other = vif
    · subst here
      exact (guard opened).resolve_left fun holds => both ⟨holds, rfl⟩
    · exact (listened other opened).imp_right (hasMember_withoutMember_other fun same => here same.1)

/-- When no interface loses its last neighbour, a change keeps all entries
listened to exactly when no store and no leave forwards to nobody. -/
theorem listened_apply_iff (distinct : t.Distinct) (listened : ∀ item ∈ t.entries, Listened t item.2)
    {change : Change} (neighbors : ∀ vif, t.HasNeighbor vif → (change.apply host t).HasNeighbor vif) :
    (∀ item ∈ (change.apply host t).entries, Listened (change.apply host t) item.2) ↔
      ∀ item ∈ t.entries, change.KeepsListened t item := by
  have members := change.apply_members host t
  have kept : ∀ r, Listened t r → (∀ vif, t.HasMember vif r.group →
      (change.apply host t).HasMember vif r.group) → Listened (change.apply host t) r :=
    fun r before same vif opened => (before vif opened).imp (neighbors vif) (same vif)
  have still : (change.apply host t).members = t.members → ∀ r, Listened t r →
      Listened (change.apply host t) r :=
    fun same r before => kept r before fun vif asked => (hasMember_congr same vif r.group).mpr asked
  cases change with
  | create mymrt upstream source group incoming =>
      refine iff_of_true (Change.keeps distinct ?_ fun item member =>
        still members _ (listened item member)) fun _ _ => trivial
      intro item member
      rw [List.mem_singleton.mp member]
      exact still members _ (listened_newRoute upstream source group incoming)
  | remove source group =>
      refine iff_of_true (Change.keeps distinct (fun _ member => (List.not_mem_nil member).elim) ?_)
        fun _ _ => trivial
      exact fun item member => still members _ (listened item member)
  | idle =>
      exact Change.keeps_iff distinct rfl rfl fun item member => iff_of_true (listened item member) trivial
  | join vif record group =>
      refine Change.keeps_iff distinct rfl rfl fun item member =>
        (listened_open (kept _ (listened item member) fun other asked => ?_)).trans ?_
      · exact (hasMember_congr members other _).mpr (hasMember_join.mpr (Or.inr asked))
      · refine iff_of_true (fun isFirst => Or.inr ?_) trivial
        have same : item.2.group = group := eq_of_beq (isFirst.holds distinct member)
        exact (hasMember_congr members vif _).mpr (hasMember_join.mpr (Or.inl ⟨rfl, same⟩))
  | leave vif group read =>
      have neighbors : ((Change.leave vif group read).apply host t).neighbors = t.neighbors :=
        Change.apply_neighbors id t
      exact Change.keeps_iff distinct rfl rfl fun item member =>
        listened_leave neighbors members (listened item member)
  | addNeighbor vif entry address =>
      refine Change.keeps_iff distinct rfl rfl fun item member =>
        (listened_open (still members _ (listened item member))).trans ?_
      refine iff_of_true (fun _ => Or.inl ?_) trivial
      rw [Table.HasNeighbor, Change.apply, Table.addNeighbor, Table.refreshAdd_neighbors]
      simp [Table.setNeighbors]
  | delNeighbor vif address =>
      refine Change.keeps_iff distinct rfl rfl fun item member => iff_of_true (listened_close ?_) trivial
      exact still members _ (listened item member)
  | prune source group vif =>
      refine Change.keeps_iff distinct rfl rfl fun item member => iff_of_true (listened_close ?_) trivial
      exact still members _ (listened item member)
  | restore source group vif =>
      refine Change.keeps_iff distinct rfl rfl fun item member =>
        (listened_open (still members _ (listened item member))).trans ?_
      rw [hasMember_congr members, hasNeighbor_congr (Change.apply_neighbors id t)]
      rfl
  | graft vif mymrts =>
      refine Change.keeps_iff distinct rfl rfl fun item member =>
        (listened_open (still members _ (listened item member))).trans ?_
      rw [hasMember_congr members, hasNeighbor_congr (Change.apply_neighbors id t), and_imp]
      rfl
  | winner mymrt preference metric upstream =>
      refine Change.keeps_iff distinct rfl rfl fun item member => iff_of_true ?_ trivial
      have cells := (Change.stores_winner t mymrt preference metric upstream item).1
      obtain ⟨group, _⟩ := Change.stores_fixed t (.winner mymrt preference metric upstream) item
      have before := still members _ (listened item member)
      intro other opened
      rw [cells] at opened
      rw [group]
      exact before other opened

end PimDm.Routing
