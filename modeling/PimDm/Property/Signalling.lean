import PimDm.Refinement.Steps
import PimDm.Property.Session

/-!
# Signalling to the upstream neighbour

An entry that starts to forward owes its upstream neighbour one Graft, one that
stops owes it one Prune.  `check_pim_state` compares the counter of every entry
with a fixed level and keeps no record of what it was before.
-/

namespace PimDm.Property

open PimDm.Foundation PimDm.Source PimDm.Routing PimDm.Refinement

/-! ## The events -/

/-- The functions that change an outgoing interface and then check the table. -/
inductive Signal where
  | addLeaf (vif : Vif) (group : Addr)
  | delLeaf (vif : Vif) (group : Addr)
  | addNeighbor (vif : Vif)
  | delNeighbor (vif : Vif)
  | setPrune (data : PimPruneData)
  | pruneTimeOut (data : PimPruneData)

namespace Signal

def run (host : Host) : Signal → Act Unit
  | .addLeaf vif group => Source.addLeaf host vif group
  | .delLeaf vif group => Source.delLeaf host vif group
  | .addNeighbor vif => refreshMrt host vif .addNeighbor
  | .delNeighbor vif => refreshMrt host vif .delNeighbor
  | .setPrune data => Source.setPrune host data
  | .pruneTimeOut data => Source.pruneTimeOut host data

def vif : Signal → Vif
  | .addLeaf vif _ => vif
  | .delLeaf vif _ => vif
  | .addNeighbor vif => vif
  | .delNeighbor vif => vif
  | .setPrune data => data.vif
  | .pruneTimeOut data => data.vif

/-- The argument of the checks. -/
def judge : Signal → Judge
  | .addLeaf .. => .addLeaf
  | .delLeaf .. => .delLeaf
  | .addNeighbor .. => .addNeighbor
  | .delNeighbor .. => .delNeighbor
  | .setPrune .. => .delLeaf
  | .pruneTimeOut .. => .addLeaf

/-- What is stored in the cell. -/
def value : Signal → Int
  | .addLeaf .. => 1
  | .delLeaf .. => 0
  | .addNeighbor .. => 1
  | .delNeighbor .. => 0
  | .setPrune .. => 0
  | .pruneTimeOut .. => 1

/-- How far the counter moves. -/
def change : Signal → Route → Int
  | .addLeaf vif _, r => if r.outvif vif = 1 then 0 else 1
  | .delLeaf .., _ => -1
  | .addNeighbor .., _ => 1
  | .delNeighbor .., _ => -1
  | .setPrune .., _ => 0
  | .pruneTimeOut .., _ => 0

/-- The entries stored into, in the order of the table. -/
def touched (t : Table) : Signal → List (Ptr × Route)
  | .addLeaf _ group => (t.find fun r => r.group == group).toList
  | .delLeaf _ group => (t.find fun r => r.group == group).toList
  | .addNeighbor vif => t.entries.filter fun item => item.2.outvif vif == 0
  | .delNeighbor _ => t.entries.filter fun item => t.Deserted item.2
  | .setPrune data => (t.find (routeIsFor data.source data.group)).toList
  | .pruneTimeOut data => (t.find (routeIsFor data.source data.group)).toList

def after (host : Host) (t : Table) : Signal → Table
  | .addLeaf vif group => t.addLeaf host vif group
  | .delLeaf vif group => t.delLeaf host vif group
  | .addNeighbor vif => t.refreshAdd host vif
  | .delNeighbor vif => t.refreshDel host vif
  | .setPrune data => t.forwardFirst host (routeIsFor data.source data.group) data.vif 0 fun _ => 0
  | .pruneTimeOut data => t.forwardFirst host (routeIsFor data.source data.group) data.vif 1 fun _ => 0

end Signal

variable {host : Host} {s s' : Daemon} {t : Table} {signal : Signal}

/-- Every event makes one store and one check for each entry it touches. -/
theorem signal_follows (models : Models s t) (run : Runs (signal.run host) s () s') :
    Follows signal.judge s s' (signal.after host t)
      (t.passes host signal.vif signal.value signal.change (signal.touched t)) := by
  cases signal with
  | addLeaf vif group => exact addLeaf_follows models run
  | delLeaf vif group => exact delLeaf_follows models run
  | addNeighbor vif => exact refreshMrt_add_follows models run
  | delNeighbor vif => exact refreshMrt_del_follows models run
  | setPrune data => exact setPrune_follows models run
  | pruneTimeOut data => exact pruneTimeOut_follows models run

/-- The event stores into the entry. -/
def Signal.Touches (t : Table) (signal : Signal) (item : Ptr × Route) : Prop :=
  item.1 ∈ (signal.touched t).map Prod.fst

instance (t : Table) (signal : Signal) (item : Ptr × Route) : Decidable (signal.Touches t item) :=
  inferInstanceAs (Decidable (_ ∈ _))

theorem touched_sublist (t : Table) (signal : Signal) : (signal.touched t).Sublist t.entries := by
  have first : ∀ property, (t.find property).toList.Sublist t.entries := by
    intro property
    cases found : t.find property with
    | none => exact List.nil_sublist _
    | some item => exact List.singleton_sublist.mpr (List.mem_of_find?_eq_some found)
  cases signal with
  | addLeaf vif group => exact first _
  | delLeaf vif group => exact first _
  | addNeighbor vif => exact List.filter_sublist
  | delNeighbor vif => exact List.filter_sublist
  | setPrune data => exact first _
  | pruneTimeOut data => exact first _

/-- The entries after the event. -/
theorem after_entries (distinct : t.Distinct) (signal : Signal) :
    (signal.after host t).entries = t.entries.map fun item =>
      storeIf (signal.Touches t item) signal.vif signal.value (signal.change item.2) item := by
  have first : ∀ (property : Route → Bool) (vif : Vif) (value : Int) (change : Route → Int),
      (t.forwardFirst host property vif value change).entries = t.entries.map fun item =>
        storeIf (item.1 ∈ (t.find property).toList.map Prod.fst) vif value (change item.2) item := by
    intro property vif value change
    rw [Table.forwardFirst_stores distinct]
    refine List.map_congr_left fun item _ => if_congr ?_ rfl rfl
    cases found : t.find property with
    | none => simp [Table.IsFirst, found]
    | some item => simp [Table.IsFirst, found, eq_comm]
  have filtered : ∀ (property : Route → Bool) (item : Ptr × Route), item ∈ t.entries →
      (property item.2 = true ↔
        item.1 ∈ (t.entries.filter fun item => property item.2).map Prod.fst) := by
    intro property item member
    constructor
    · intro holds
      exact List.mem_map_of_mem (List.mem_filter.mpr ⟨member, holds⟩)
    · intro named
      obtain ⟨other, inside, same⟩ := List.mem_map.mp named
      obtain ⟨inside, holds⟩ := List.mem_filter.mp inside
      rw [← distinct.eq_of_name inside member same]
      exact holds
  cases signal with
  | addLeaf vif group => exact first _ vif 1 _
  | delLeaf vif group => exact first _ vif 0 _
  | setPrune data => exact first _ data.vif 0 _
  | pruneTimeOut data => exact first _ data.vif 1 _
  | addNeighbor vif =>
      refine (Table.refreshAdd_entries distinct vif).trans ?_
      refine List.map_congr_left fun item member => if_congr ?_ rfl rfl
      rw [← beq_iff_eq]
      exact filtered (fun r => r.outvif vif == 0) item member
  | delNeighbor vif =>
      refine (Table.refreshDel_entries distinct vif).trans ?_
      exact List.map_congr_left fun item member => if_congr (filtered t.Deserted item member) rfl rfl

/-! ## What is owed -/

/-- The entry forwards on some interface. -/
def Forwards (host : Host) (r : Route) : Prop := ∃ vif ∈ host.vifs, r.outvif vif = 1

instance (host : Host) (r : Route) : Decidable (Forwards host r) :=
  inferInstanceAs (Decidable (∃ vif ∈ host.vifs, r.outvif vif = 1))

/-- The change of an entry that owes the upstream neighbour this message. -/
def Due (host : Host) (before after : Route) : Announcement → Prop
  | .graft => ¬ Forwards host before ∧ Forwards host after
  | .prune => Forwards host before ∧ ¬ Forwards host after

instance (host : Host) (before after : Route) : (kind : Announcement) →
    Decidable (Due host before after kind)
  | .graft => inferInstanceAs (Decidable (_ ∧ _))
  | .prune => inferInstanceAs (Decidable (_ ∧ _))

/-- The only forwarding interface of an entry is the one that is changed. -/
def Edge (host : Host) (vif : Vif) (r : Route) : Announcement → Prop
  | .graft => ∀ other ∈ host.vifs, r.outvif other ≠ 1
  | .prune => r.outvif vif = 1 ∧ ∀ other ∈ host.vifs, other ≠ vif → r.outvif other ≠ 1

instance (host : Host) (vif : Vif) (r : Route) : (kind : Announcement) → Decidable (Edge host vif r kind)
  | .graft => inferInstanceAs (Decidable (∀ other ∈ host.vifs, _))
  | .prune => inferInstanceAs (Decidable (_ ∧ ∀ other ∈ host.vifs, _))

namespace Signal

/-- The event makes the entry start, or stop, to forward. -/
def Crosses (host : Host) (t : Table) (signal : Signal) (item : Ptr × Route) : Prop :=
  signal.Touches t item ∧ Edge host signal.vif item.2 (kindOf signal.judge)

instance (host : Host) (t : Table) (signal : Signal) (item : Ptr × Route) :
    Decidable (signal.Crosses host t item) :=
  inferInstanceAs (Decidable (_ ∧ _))

/-- The counter is at the level of the checks before the store into the entry. -/
def Early (signal : Signal) (r : Route) : Prop := r.outnumber = levelOf signal.judge

/-- The counter is at the level of the checks after the store into the entry. -/
def Late (signal : Signal) (r : Route) : Prop := r.outnumber + signal.change r = levelOf signal.judge

instance (signal : Signal) (r : Route) : Decidable (signal.Early r) := inferInstanceAs (Decidable (_ = _))

instance (signal : Signal) (r : Route) : Decidable (signal.Late r) := inferInstanceAs (Decidable (_ = _))

/-- The checks before the store into an entry. -/
def ahead (t : Table) (signal : Signal) (item : Ptr × Route) : Nat :=
  ((signal.touched t).takeWhile fun other => other.1 != item.1).length

/-- The checks after the store into an entry. -/
def behind (t : Table) (signal : Signal) (item : Ptr × Route) : Nat :=
  ((signal.touched t).dropWhile fun other => other.1 != item.1).length

/-- An entry behind a router is checked at the level once if it crosses, and never if
it does not. -/
def Timely (host : Host) (t : Table) (signal : Signal) (item : Ptr × Route) : Prop :=
  Far item.2 →
    (signal.Crosses host t item →
      (signal.Early item.2 ∧ signal.ahead t item = 1 ∧ (signal.Late item.2 → signal.behind t item = 0)) ∨
        (signal.Late item.2 ∧ signal.behind t item = 1 ∧ (signal.Early item.2 → signal.ahead t item = 0))) ∧
    (¬ signal.Crosses host t item →
      (signal.Early item.2 → signal.ahead t item = 0) ∧ (signal.Late item.2 → signal.behind t item = 0))

instance (host : Host) (t : Table) (signal : Signal) (item : Ptr × Route) :
    Decidable (signal.Timely host t item) :=
  inferInstanceAs (Decidable (_ → _))

/-- Half of the events open an interface and announce Grafts, the others close one and
announce Prunes. -/
theorem opens_or_closes (signal : Signal) :
    (kindOf signal.judge = .graft ∧ signal.value = 1) ∨ (kindOf signal.judge = .prune ∧ signal.value = 0) := by
  cases signal with
  | addLeaf vif group => exact Or.inl ⟨rfl, rfl⟩
  | addNeighbor vif => exact Or.inl ⟨rfl, rfl⟩
  | pruneTimeOut data => exact Or.inl ⟨rfl, rfl⟩
  | delLeaf vif group => exact Or.inr ⟨rfl, rfl⟩
  | delNeighbor vif => exact Or.inr ⟨rfl, rfl⟩
  | setPrune data => exact Or.inr ⟨rfl, rfl⟩

end Signal

theorem forwards_opened {vif : Vif} (served : vif ∈ host.vifs) (change : Int) (r : Route) :
    Forwards host (routeSetOutvif vif 1 change r) :=
  ⟨vif, served, by simp [routeSetOutvif]⟩

theorem forwards_closed_iff (host : Host) (vif : Vif) (change : Int) (r : Route) :
    Forwards host (routeSetOutvif vif 0 change r) ↔ ∃ other ∈ host.vifs, other ≠ vif ∧ r.outvif other = 1 := by
  constructor
  · rintro ⟨other, served, on⟩
    by_cases same : other = vif
    · subst same
      simp [routeSetOutvif] at on
    · refine ⟨other, served, same, ?_⟩
      simpa [routeSetOutvif, same] using on
  · rintro ⟨other, served, apart, on⟩
    refine ⟨other, served, ?_⟩
    simpa [routeSetOutvif, apart] using on

/-- What the event does to an entry owes a message exactly when it crosses. -/
theorem due_iff (served : signal.vif ∈ host.vifs) (item : Ptr × Route) (kind : Announcement) :
    Due host item.2
        (storeIf (signal.Touches t item) signal.vif signal.value (signal.change item.2) item).2 kind ↔
      kind = kindOf signal.judge ∧ signal.Crosses host t item := by
  unfold Signal.Crosses Edge
  by_cases touched : signal.Touches t item
  · rw [storeIf, if_pos touched]
    rcases signal.opens_or_closes with ⟨grafts, opens⟩ | ⟨prunes, closes⟩
    · rw [grafts, opens]
      have on := forwards_opened served (signal.change item.2) item.2
      cases kind with
      | graft =>
          have none : ¬ Forwards host item.2 ↔ ∀ vif ∈ host.vifs, item.2.outvif vif ≠ 1 := by
            simp only [Forwards, not_exists, not_and]
          simp [Due, on, touched, none]
      | prune => simp [Due, on]
    · rw [prunes, closes]
      have off := forwards_closed_iff host signal.vif (signal.change item.2) item.2
      cases kind with
      | graft =>
          simp only [Due, off]
          constructor
          · rintro ⟨none, other, inside, _, on⟩
            exact absurd ⟨other, inside, on⟩ none
          · rintro ⟨same, _⟩
            cases same
      | prune =>
          simp only [Due, off, touched, true_and]
          constructor
          · rintro ⟨⟨vif, inside, on⟩, alone⟩
            have here : vif = signal.vif := by
              by_contra apart
              exact alone ⟨vif, inside, apart, on⟩
            subst here
            exact ⟨on, fun other inside apart on => alone ⟨other, inside, apart, on⟩⟩
          · rintro ⟨on, alone⟩
            refine ⟨⟨signal.vif, served, on⟩, ?_⟩
            rintro ⟨other, inside, apart, again⟩
            exact alone other inside apart again
  · rw [storeIf, if_neg touched]
    cases kind with
    | graft => simp [Due, touched]
    | prune => simp [Due, touched]

/-! ## The property -/

/-- Timely entries are announced as often as they cross. -/
theorem timely_iff {item : Ptr × Route} (far : Far item.2) : signal.Timely host t item ↔
    ((if signal.Early item.2 then signal.ahead t item else 0) +
        if signal.Late item.2 then signal.behind t item else 0) =
      if signal.Crosses host t item then 1 else 0 := by
  unfold Signal.Timely
  by_cases crosses : signal.Crosses host t item
  · by_cases early : signal.Early item.2
    · by_cases late : signal.Late item.2
      · simp only [far, crosses, early, late, if_true, true_imp_iff, true_and, not_true, false_imp_iff,
          and_true]
        omega
      · simp [far, crosses, early, late]
    · by_cases late : signal.Late item.2
      · simp [far, crosses, early, late]
      · simp [far, crosses, early, late]
  · by_cases early : signal.Early item.2
    · by_cases late : signal.Late item.2
      · simp [far, crosses, early, late]
      · simp [far, crosses, early, late]
    · by_cases late : signal.Late item.2
      · simp [far, crosses, early, late]
      · simp [far, crosses, early, late]

/-- The messages of an event for one entry are the ones owed exactly when it is timely. -/
theorem announced_iff_timely (distinct : t.Distinct) (served : signal.vif ∈ host.vifs) {item : Ptr × Route}
    (member : item ∈ t.entries)
    (sent : Sent signal.judge (t.passes host signal.vif signal.value signal.change (signal.touched t)) s s') :
    (∀ kind, messages kind item.1 s' = messages kind item.1 s +
        if Far item.2 ∧ Due host item.2
          (storeIf (signal.Touches t item) signal.vif signal.value (signal.change item.2) item).2 kind
        then 1 else 0) ↔ signal.Timely host t item := by
  have parts := touched_sublist t signal
  have told := Table.told_passes host distinct signal.judge signal.vif signal.value signal.change
    (fun _ inside => parts.subset inside) (distinct.sublist (parts.map Prod.fst)) member
  have count : ∀ kind, messages kind item.1 s' = messages kind item.1 s +
      if kind = kindOf signal.judge ∧ Far item.2 then
        (if signal.Early item.2 then signal.ahead t item else 0) +
          if signal.Late item.2 then signal.behind t item else 0
      else 0 := by
    intro kind
    have seen : Announces signal.judge item.2 ↔ Far item.2 ∧ signal.Early item.2 := Iff.rfl
    have stored : Announces signal.judge
        (routeSetOutvif signal.vif signal.value (signal.change item.2) item.2) ↔
          Far item.2 ∧ signal.Late item.2 := Iff.rfl
    rw [sent kind item.1, told]
    simp only [seen, stored]
    by_cases far : Far item.2
    · simp only [far, true_and, and_true]
      rfl
    · simp [far]
  by_cases far : Far item.2
  · rw [timely_iff far]
    simp only [count, due_iff served, far, and_true, true_and, Nat.add_left_cancel_iff]
    constructor
    · intro each
      have own := each (kindOf signal.judge)
      simpa using own
    · intro sum kind
      by_cases same : kind = kindOf signal.judge
      · simpa [same] using sum
      · simp [same]
  · have never : signal.Timely host t item := fun near => absurd near far
    simp [count, far, never]

/-- An event sends for every entry the one message it owes, and nothing else, exactly
when every entry is timely. -/
theorem signals_on_edges (models : Models s t) (served : signal.vif ∈ host.vifs)
    (run : Runs (signal.run host) s () s') :
    (∀ before ∈ t.entries, ∀ after ∈ (table s').entries, after.1 = before.1 → ∀ kind,
      messages kind before.1 s' = messages kind before.1 s +
        if Far before.2 ∧ Due host before.2 after.2 kind then 1 else 0) ↔
      ∀ item ∈ t.entries, signal.Timely host t item := by
  obtain ⟨final, sent⟩ := signal_follows models run
  have distinct : t.Distinct := models.entries.nodup
  rw [final.table_eq, after_entries distinct]
  constructor
  · intro each item member
    refine (announced_iff_timely distinct served member sent).mp fun kind => ?_
    exact each item member _ (List.mem_map_of_mem member) (storeIf_name ..) kind
  · intro timely before member after inside same kind
    obtain ⟨other, old, rfl⟩ := List.mem_map.mp inside
    rw [storeIf_name] at same
    obtain rfl := distinct.eq_of_name old member same
    exact (announced_iff_timely distinct served member sent).mpr (timely other member) kind

/-- A session, and then one event. -/
def signalEndsWith (host : Host) (events : List Event) (signal : Signal)
    (test : Daemon → Daemon → Bool) : Bool :=
  match session host NoAssert events with
  | .error _ => false
  | .ok s =>
      match signal.run host s with
      | .error _ => false
      | .ok (_, s') => test s s'

theorem runs_of_signalEndsWith {events : List Event} {test : Daemon → Daemon → Bool}
    (passed : signalEndsWith host events signal test = true) :
    ∃ s s', Reachable host NoAssert s ∧ Runs (signal.run host) s () s' ∧ test s s' = true := by
  unfold signalEndsWith at passed
  split at passed
  · cases passed
  rename_i s ended
  split at passed
  · cases passed
  rename_i s' ran
  exact ⟨s, s', session_reachable ended, ran, passed⟩

/-- A member of another group sends a Graft again for an entry that does not change. -/
theorem signals_off_edges :
    ¬ ∀ host : Host, host.ZeroFilled → ∀ s, Reachable host NoAssert s → ∀ (signal : Signal) s',
      signal.vif ∈ host.vifs → Runs (signal.run host) s () s' →
        ∀ before ∈ (table s).entries, ∀ after ∈ (table s').entries, after.1 = before.1 → ∀ kind,
          messages kind before.1 s' = messages kind before.1 s +
            if Far before.2 ∧ Due host before.2 after.2 kind then 1 else 0 := by
  intro once
  have passed : signalEndsWith router
      [.acceptGroupReport (stationOn 3 5) channel, upcall 1 1 (stationOn 1 7) studio channel,
        upcall 1 1 0 (stationOn 1 8) otherChannel] (.addLeaf 2 otherChannel)
      (fun s s' => decide (∃ before ∈ (table s).entries, ∃ after ∈ (table s').entries,
        after.1 = before.1 ∧ messages .graft before.1 s' ≠ messages .graft before.1 s +
          if Far before.2 ∧ Due router before.2 after.2 .graft then 1 else 0)) = true := by
    decide +kernel
  obtain ⟨s, s', reached, run, again⟩ := runs_of_signalEndsWith passed
  obtain ⟨before, member, after, inside, same, more⟩ := of_decide_eq_true again
  exact more (once router router_zeroFilled s reached _ s' (by decide) run before member after inside same
    .graft)

/-- The first member of the group of the only entry. -/
theorem signals_on_edges_session :
    ∃ s s', Reachable router NoAssert s ∧ Runs ((Signal.addLeaf 2 channel).run router) s () s' ∧
      (∃ item ∈ (table s).entries, (Signal.addLeaf 2 channel).Crosses router (table s) item) ∧
      ∀ before ∈ (table s).entries, ∀ after ∈ (table s').entries, after.1 = before.1 → ∀ kind,
        messages kind before.1 s' = messages kind before.1 s +
          if Far before.2 ∧ Due router before.2 after.2 kind then 1 else 0 := by
  have passed : signalEndsWith router [upcall 1 1 (stationOn 1 7) studio channel] (.addLeaf 2 channel)
      (fun s _ => decide ((∃ item ∈ (table s).entries,
        (Signal.addLeaf 2 channel).Crosses router (table s) item) ∧
          ∀ item ∈ (table s).entries, (Signal.addLeaf 2 channel).Timely router (table s) item)) = true := by
    decide +kernel
  obtain ⟨s, s', reached, run, both⟩ := runs_of_signalEndsWith passed
  obtain ⟨crosses, timely⟩ := of_decide_eq_true both
  have models := reachable_models router_zeroFilled reached
  exact ⟨s, s', reached, run, crosses, (signals_on_edges models (by decide) run).mpr timely⟩

end PimDm.Property
