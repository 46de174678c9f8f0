import PimDm.Refinement.Lists
import PimDm.Refinement.Roles

/-!
# What IGMP does to the record of a group

Reports, leaves, queries and `leave_query` find one record in the list of an
interface.  Each of them either leaves it, or sets a new timer for it, or cancels the
one it holds, or puts it in the list, or takes it out.  The routing table is empty,
so `add_leaf` and `del_leaf` find no entry.
-/

namespace PimDm.Refinement

open PimDm.Foundation PimDm.Source PimDm.Effect PimDm.Routing

variable {s s' : Daemon} {t : Table} {host : Host}

/-! ## An empty routing table -/

theorem find_empty (empty : s.themrt = 0) (property : Mrt → Bool) {mymrt : Ptr} :
    Runs (findMrt property) s mymrt s' ↔ mymrt = 0 ∧ s' = s := by
  rw [runs_findMrt, empty, Heap.find, if_pos rfl, Except.ok.injEq, eq_comm]

theorem addLeaf_empty (empty : s.themrt = 0) {vif : Vif} {group : Addr}
    (run : Runs (addLeaf host vif group) s () s') : s' = s := by
  obtain ⟨_, _, looked, decided⟩ := runs_bind.mp run
  obtain ⟨rfl, rfl⟩ := (find_empty empty _).mp looked
  rw [if_pos rfl] at decided
  exact (runs_pure.mp decided).2

theorem delLeaf_empty (empty : s.themrt = 0) {vif : Vif} {group : Addr}
    (run : Runs (delLeaf host vif group) s () s') : s' = s.observe (.delLeaf vif group) := by
  obtain ⟨_, observed, tell, search⟩ := runs_bind.mp run
  obtain rfl := runs_modify.mp tell
  obtain ⟨_, _, looked, decided⟩ := runs_bind.mp search
  obtain ⟨rfl, rfl⟩ := (find_empty (s := s.observe (.delLeaf vif group)) empty _).mp looked
  rw [if_pos rfl] at decided
  exact (runs_pure.mp decided).2

/-! ## New timers for a record -/

/-- The timer `old` is replaced by a new one, noted in the record with its phase. -/
def rearm (s : Daemon) (old delay : Int) (vif : Vif) (group : Addr) (record : Ptr) (phase : Int) : Daemon :=
  ((s.clearTimer old).setTimer delay (.leaveQuery vif group)).setGroup record fun g =>
    { g with leaveQuery := s.id + 1, timeout := phase }

/-- The timer of a record is cancelled. -/
def disarm (s : Daemon) (old : Int) (record : Ptr) : Daemon :=
  (s.clearTimer old).setGroup record fun g => { g with leaveQuery := 0, timeout := 2 }

theorem clearTimer_zero (s : Daemon) : s.clearTimer 0 = s := if_pos (Or.inl rfl)

theorem clearTimer_observe (s : Daemon) (timer : Int) (observation : Observation) :
    (s.clearTimer timer).observe observation = (s.observe observation).clearTimer timer := by
  unfold Daemon.clearTimer
  split <;> rfl

/-- A record of the list of an interface, with its contents. -/
structure Listed (s : Daemon) (t : Table) (vif : Vif) (group : Addr) (record : Ptr) (g : IgmpGroup) :
    Prop where
  found : (t.members vif).find? (fun item => item.2 == group) = some (record, group)
  content : s.groups.get? record = some g
  address : g.address = group

theorem Listed.member {vif : Vif} {group : Addr} {record : Ptr} {g : IgmpGroup}
    (listed : Listed s t vif group record g) : (record, group) ∈ t.members vif :=
  List.mem_of_find?_eq_some listed.found

/-- The search through a list finds the record of a group, or there is none. -/
theorem Models.lookup_group (models : Models s t) (vif : Vif) (group : Addr) :
    ((t.members vif).find? (fun item => item.2 == group) = none ∧
      addressOf ((t.members vif).find? fun item => item.2 == group) = 0) ∨
    ∃ record g, Listed s t vif group record g ∧ record ≠ 0 ∧
      addressOf ((t.members vif).find? fun item => item.2 == group) = record := by
  cases found : (t.members vif).find? (fun item => item.2 == group) with
  | none => exact Or.inl ⟨rfl, rfl⟩
  | some item =>
      obtain ⟨record, address⟩ := item
      have member := List.mem_of_find?_eq_some found
      have same : address = group := by simpa using List.find?_some found
      subst same
      obtain ⟨g, content, shown⟩ := (models.members vif).found member
      exact Or.inr ⟨record, g, ⟨found, content, shown⟩, (models.members vif).nonnull member, rfl⟩

/-! ## Reports -/

theorem cancelLeave_disarms {record : Ptr} {g : IgmpGroup} (content : s.groups.get? record = some g)
    (run : Runs (cancelLeave record) s () s') :
    (g.leaveQuery = 0 ∧ s' = s) ∨ (g.leaveQuery ≠ 0 ∧ s' = disarm s g.leaveQuery record) := by
  obtain ⟨_, _, load, cancel⟩ := runs_bind.mp run
  obtain ⟨read, rfl⟩ := runs_loadGroup.mp load
  obtain rfl := Option.some.inj (content.symm.trans read)
  rcases runs_onlyIf.mp cancel with ⟨busy, cancel⟩ | ⟨idle, rfl⟩
  · obtain ⟨_, _, clear, store⟩ := runs_bind.mp cancel
    obtain rfl := runs_timerClearTimer.mp clear
    obtain ⟨_, rfl⟩ := runs_storeGroup.mp store
    exact Or.inr ⟨busy, rfl⟩
  · exact Or.inl ⟨not_not.mp idle, rfl⟩

/-- A new record, as `accept_group_report` writes it. -/
def newGroup (host : Host) (fresh : Ptr) (group : Addr) : IgmpGroup :=
  { host.mallocGroup fresh with address := group, leaveQuery := 0, timeout := 2 }

/-- A report on an interface cancels the timer of the record, or makes a new record. -/
theorem acceptGroupReport_records (models : Models s t) (empty : s.themrt = 0) {src group : Addr}
    (run : Runs (acceptGroupReport host src group) s () s') :
    (findVifDirect host src = 0 ∧ s' = s) ∨
    (findVifDirect host src ≠ 0 ∧
      ((∃ record g, Listed s t (findVifDirect host src) group record g ∧
          ((g.leaveQuery = 0 ∧ s' = s) ∨ (g.leaveQuery ≠ 0 ∧ s' = disarm s g.leaveQuery record))) ∨
        ((t.members (findVifDirect host src)).find? (fun item => item.2 == group) = none ∧
          s' = s.linkGroup (findVifDirect host src) (newGroup host s.groups.fresh group)))) := by
  rcases runs_ite.mp run with ⟨none, stop⟩ | ⟨direct, search⟩
  · exact Or.inl ⟨none, (runs_pure.mp stop).2⟩
  refine Or.inr ⟨direct, ?_⟩
  obtain ⟨_, _, looked, decided⟩ := runs_bind.mp search
  obtain ⟨rfl, rfl⟩ := models.runs_findGroup.mp looked
  rcases models.lookup_group (findVifDirect host src) group with
    ⟨absent, null⟩ | ⟨record, g, listed, nonnull, here⟩
  · rw [if_neg (not_not.mpr null)] at decided
    obtain ⟨_, _, link, add⟩ := runs_bind.mp decided
    obtain rfl := runs_modify.mp link
    exact Or.inr ⟨absent, addLeaf_empty (s := Daemon.linkGroup _ _ _) empty add⟩
  · rw [here, if_pos nonnull] at decided
    exact Or.inl ⟨record, g, listed, cancelLeave_disarms listed.content decided⟩

/-! ## Leaves -/

/-- A leave on an interface whose querier we are sets the timer of the record. -/
theorem acceptLeaveMessage_records (models : Models s t) {src group : Addr}
    (run : Runs (acceptLeaveMessage host src group) s () s') :
    (s' = s ∧ (findVifDirectLocal host src = 0 ∨ (s.myvifs (findVifDirectLocal host src)).querier ≠ 0 ∨
      (t.members (findVifDirectLocal host src)).find? (fun item => item.2 == group) = none)) ∨
    (findVifDirectLocal host src ≠ 0 ∧ (s.myvifs (findVifDirectLocal host src)).querier = 0 ∧
      ∃ record g, Listed s t (findVifDirectLocal host src) group record g ∧
        s' = rearm (s.observe (.igmp (host.iface (findVifDirectLocal host src)).address group
          igmpMembershipQuery igmpResponseTime.toNat group)) g.leaveQuery igmpQueryTime
          (findVifDirectLocal host src) group record 1) := by
  rcases runs_ite.mp run with ⟨none, stop⟩ | ⟨direct, run⟩
  · exact Or.inl ⟨(runs_pure.mp stop).2, Or.inl none⟩
  rw [runs_get_bind] at run
  rcases runs_ite.mp run with ⟨other, stop⟩ | ⟨own, run⟩
  · exact Or.inl ⟨(runs_pure.mp stop).2, Or.inr (Or.inl other)⟩
  obtain ⟨_, _, looked, decided⟩ := runs_bind.mp run
  obtain ⟨rfl, rfl⟩ := models.runs_findGroup.mp looked
  rcases models.lookup_group (findVifDirectLocal host src) group with
    ⟨absent, null⟩ | ⟨record, g, listed, nonnull, here⟩
  · rw [if_pos null] at decided
    exact Or.inl ⟨(runs_pure.mp decided).2, Or.inr (Or.inr absent)⟩
  · rw [here, if_neg nonnull] at decided
    refine Or.inr ⟨direct, not_not.mp own, record, g, listed, ?_⟩
    obtain ⟨_, loaded, load, rest⟩ := runs_bind.mp decided
    obtain ⟨read, rfl⟩ := runs_loadGroup.mp load
    obtain rfl := Option.some.inj (listed.content.symm.trans read)
    obtain ⟨_, cleared, clear, rest⟩ := runs_bind.mp rest
    obtain ⟨_, queried, query, rest⟩ := runs_bind.mp rest
    obtain ⟨_, _, set, store⟩ := runs_bind.mp rest
    obtain rfl := runs_igmpOutput.mp query
    obtain ⟨rfl, rfl⟩ := runs_timerSetTimer.mp set
    obtain ⟨_, rfl⟩ := runs_storeGroup.mp store
    have stopped : cleared = loaded.clearTimer g.leaveQuery := by
      rcases runs_onlyIf.mp clear with ⟨_, clear⟩ | ⟨unset, rfl⟩
      · exact runs_timerClearTimer.mp clear
      · rw [not_not.mp unset, clearTimer_zero]
    rw [stopped, listed.address, clearTimer_observe, rearm]
    have ids : ((loaded.observe (.igmp (host.iface (findVifDirectLocal host src)).address group
        igmpMembershipQuery igmpResponseTime.toNat group)).clearTimer g.leaveQuery).id = loaded.id := by
      rw [clearTimer_id]
      rfl
    rw [ids]
    rfl

/-! ## The timer of a record -/

/-- What `leave_query` does: the phase of the record goes on, or the record goes. -/
inductive Leaves (host : Host) (vif : Vif) (group : Addr) (s : Daemon) (t : Table) : Daemon → Prop where
  | absent (none : (t.members vif).find? (fun item => item.2 == group) = none) : Leaves host vif group s t s
  | asks {record : Ptr} {g : IgmpGroup} (listed : Listed s t vif group record g) (twice : g.timeout = 1) :
      Leaves host vif group s t (rearm (s.observe (.igmp (host.iface vif).address group
        igmpMembershipQuery 100 group)) 0 igmpQueryTime vif group record 0)
  | waits {record : Ptr} {g : IgmpGroup} (listed : Listed s t vif group record g) (once : g.timeout = 0) :
      Leaves host vif group s t (rearm s 0 (igmpResponseTime / 10) vif group record (-1))
  | removes {ahead behind : List (Ptr × Addr)} {record : Ptr} {g freed : IgmpGroup} {unlinked : Daemon}
      (listed : Listed s t vif group record g) (split : t.members vif = ahead ++ (record, group) :: behind)
      (notTwice : g.timeout ≠ 1) (notOnce : g.timeout ≠ 0)
      (unlink : Runs (unlinkGroup host vif (ahead.getLast?.map Prod.fst) record g) s () unlinked)
      (memory : unlinked.groups.get? record = some freed) :
      Leaves host vif group s t (unlinked.observe (.delLeaf vif freed.address))

theorem unlinkGroup_empty {vif : Vif} {temp : Option Ptr} {record : Ptr} {g : IgmpGroup}
    (run : Runs (unlinkGroup host vif temp record g) s () s') : s'.themrt = s.themrt := by
  rcases unlinkGroup_cases run with ⟨_, _, _, _, rfl⟩ | ⟨_, rfl⟩
  · rfl
  · rfl

theorem leaveQuery_leaves (models : Models s t) (empty : s.themrt = 0) {vif : Vif} {group : Addr}
    (run : Runs (leaveQuery host vif group) s () s') : Leaves host vif group s t s' := by
  obtain ⟨found, searched, looked, decided⟩ := runs_bind.mp run
  obtain ⟨rfl, ⟨null, absent⟩ | ⟨ahead, ⟨record, address⟩, behind, split, before, here, rfl⟩⟩ :=
    models.runs_findGroupTrailing looked
  · rw [if_pos null] at decided
    rw [(runs_pure.mp decided).2]
    exact .absent (List.find?_eq_none.mpr fun item member => by simp [absent item member])
  obtain rfl : address = group := eq_of_beq here
  have member : (record, address) ∈ t.members vif := by simp [split]
  have first : (t.members vif).find? (fun item => item.2 == address) = some (record, address) := by
    rw [split]
    exact find?_split before here
  obtain ⟨g, content, shown⟩ := (models.members vif).found member
  have listed : Listed searched t vif address record g := ⟨first, content, shown⟩
  rw [if_neg ((models.members vif).nonnull member)] at decided
  obtain ⟨_, _, load, branches⟩ := runs_bind.mp decided
  obtain ⟨read, rfl⟩ := runs_loadGroup.mp load
  obtain rfl := Option.some.inj (content.symm.trans read)
  rcases runs_ite.mp branches with ⟨twice, asking⟩ | ⟨notTwice, branches⟩
  · obtain ⟨_, _, query, rest⟩ := runs_bind.mp asking
    obtain ⟨_, _, set, store⟩ := runs_bind.mp rest
    obtain rfl := runs_igmpOutput.mp query
    obtain ⟨rfl, rfl⟩ := runs_timerSetTimer.mp set
    obtain ⟨_, rfl⟩ := runs_storeGroup.mp store
    have asks : Leaves host vif address _ t _ := .asks listed twice
    rw [rearm, clearTimer_zero] at asks
    rw [listed.address]
    exact asks
  · rcases runs_ite.mp branches with ⟨once, waiting⟩ | ⟨notOnce, removing⟩
    · obtain ⟨_, _, set, store⟩ := runs_bind.mp waiting
      obtain ⟨rfl, rfl⟩ := runs_timerSetTimer.mp set
      obtain ⟨_, rfl⟩ := runs_storeGroup.mp store
      have waits : Leaves host vif address _ t _ := .waits listed once
      rw [rearm, clearTimer_zero] at waits
      exact waits
    · obtain ⟨_, _, again, unlinkAndRead⟩ := runs_bind.mp removing
      obtain ⟨read, rfl⟩ := runs_loadGroup.mp again
      obtain rfl := Option.some.inj (content.symm.trans read)
      obtain ⟨_, unlinked, unlink, readAndDelete⟩ := runs_bind.mp unlinkAndRead
      obtain ⟨freed, _, readFreed, delete⟩ := runs_bind.mp readAndDelete
      obtain ⟨memory, rfl⟩ := runs_loadGroup.mp readFreed
      have still := (unlinkGroup_empty unlink).trans empty
      rw [delLeaf_empty still delete]
      exact .removes listed split notTwice notOnce unlink memory

/-! ## Queries of a querier -/

theorem expectReport_keeps (vif : Vif) (group : Addr) (g : Ptr) :
    Within (fun before after => after.groups.links IgmpGroup.next = before.groups.links IgmpGroup.next)
      (expectReport vif group g) := by
  intro start _ final run
  obtain ⟨_, _, load, expect⟩ := runs_bind.mp run
  obtain ⟨_, rfl⟩ := runs_loadGroup.mp load
  rcases runs_onlyIf.mp expect with ⟨_, expect⟩ | ⟨_, rfl⟩
  · obtain ⟨_, _, set, store⟩ := runs_bind.mp expect
    obtain ⟨_, rfl⟩ := runs_timerSetTimer.mp set
    obtain ⟨_, rfl⟩ := runs_storeGroup.mp store
    refine Heap.links_modify_same ?_ _ _
    exact fun _ => rfl
  · rfl

/-- One round of the loop of `accept_membership_query`. -/
theorem expectReport_rearms {vif : Vif} {group : Addr} {record : Ptr} {g : IgmpGroup}
    (content : s.groups.get? record = some g) (run : Runs (expectReport vif group record) s () s') :
    (g.address ≠ group ∧ s' = s) ∨
      (g.address = group ∧ s' = rearm s 0 (igmpQueryTime * 2 + 10) vif group record (-1)) := by
  obtain ⟨_, _, load, expect⟩ := runs_bind.mp run
  obtain ⟨read, rfl⟩ := runs_loadGroup.mp load
  obtain rfl := Option.some.inj (content.symm.trans read)
  rcases runs_onlyIf.mp expect with ⟨same, expect⟩ | ⟨other, rfl⟩
  · obtain ⟨_, _, set, store⟩ := runs_bind.mp expect
    obtain ⟨rfl, rfl⟩ := runs_timerSetTimer.mp set
    obtain ⟨_, rfl⟩ := runs_storeGroup.mp store
    refine Or.inr ⟨same, ?_⟩
    rw [rearm, clearTimer_zero]
  · exact Or.inl ⟨other, rfl⟩

theorem expectList_ignores {vif : Vif} {group : Addr} {items : List (Ptr × Addr)} (models : Models s t)
    (inside : ∀ item ∈ items, item ∈ t.members vif) (absent : ∀ item ∈ items, item.2 ≠ group)
    (run : Runs (forList (expectReport vif group) (items.map Prod.fst)) s () s') : s' = s := by
  induction items generalizing s with
  | nil => exact (runs_pure.mp run).2
  | cons item rest ih =>
      obtain ⟨_, _, now, later⟩ := runs_bind.mp run
      obtain ⟨g, content, shown⟩ := (models.members vif).found (inside item (List.mem_cons_self ..))
      rcases expectReport_rearms content now with ⟨_, rfl⟩ | ⟨here, _⟩
      · exact ih models (fun other member => inside other (List.mem_cons_of_mem _ member))
          (fun other member => absent other (List.mem_cons_of_mem _ member)) later
      · exact absurd (shown.symm.trans here) (absent item (List.mem_cons_self ..))

theorem Models.rearm (models : Models s t) (old delay : Int) (vif : Vif) (group : Addr) (record : Ptr)
    (phase : Int) : Models (rearm s old delay vif group record phase) t := by
  have cleared : Models (s.clearTimer old) t :=
    models_quiet models (.clearTimer old) (Level.quiet_le _)
  have set : Models ((s.clearTimer old).setTimer delay (.leaveQuery vif group)) t :=
    models_quiet cleared (.setTimer delay (.leaveQuery vif group)) (Level.quiet_le _)
  exact set.setGroup_hidden record (fun _ => rfl) fun _ => rfl

/-- The loop over a list with one record of the group sets its timer. -/
theorem expectList_rearms {vif : Vif} {group : Addr} {items : List (Ptr × Addr)} (models : Models s t)
    (inside : ∀ item ∈ items, item ∈ t.members vif) (distinct : (items.map Prod.snd).Nodup)
    (run : Runs (forList (expectReport vif group) (items.map Prod.fst)) s () s') :
    (items.find? (fun item => item.2 == group) = none ∧ s' = s) ∨
      ∃ item, items.find? (fun item => item.2 == group) = some item ∧
        s' = rearm s 0 (igmpQueryTime * 2 + 10) vif group item.1 (-1) := by
  induction items generalizing s with
  | nil => exact Or.inl ⟨rfl, (runs_pure.mp run).2⟩
  | cons item rest ih =>
      obtain ⟨absent, distinct⟩ := List.nodup_cons.mp distinct
      obtain ⟨_, _, now, later⟩ := runs_bind.mp run
      obtain ⟨g, content, shown⟩ := (models.members vif).found (inside item (List.mem_cons_self ..))
      have behind : ∀ other ∈ rest, other ∈ t.members vif :=
        fun other member => inside other (List.mem_cons_of_mem _ member)
      rcases expectReport_rearms content now with ⟨other, rfl⟩ | ⟨here, rfl⟩
      · have skipped : (item.2 == group) = false := by simpa [← shown] using other
        simp only [List.find?_cons, skipped]
        exact ih models behind distinct later
      · have same : item.2 = group := shown.symm.trans here
        have found : (item.2 == group) = true := by simp [same]
        simp only [List.find?_cons, found]
        have apart : ∀ other ∈ rest, other.2 ≠ group := by
          intro other member again
          exact absent (List.mem_map.mpr ⟨other, member, again.trans same.symm⟩)
        exact Or.inr ⟨item, rfl, expectList_ignores (models.rearm ..) behind apart later⟩

theorem forGroups_rearms (models : Models s t) {vif : Vif} (distinct : ((t.members vif).map Prod.snd).Nodup)
    {group : Addr} (run : Runs (forGroups vif (expectReport vif group)) s () s') :
    ((t.members vif).find? (fun item => item.2 == group) = none ∧ s' = s) ∨
      ∃ record g, Listed s t vif group record g ∧
        s' = rearm s 0 (igmpQueryTime * 2 + 10) vif group record (-1) := by
  have chain := (models.members vif).chain
  have enough := Nat.lt_succ_of_le chain.length_le
  unfold forGroups at run
  rw [runs_get_bind] at run
  have loop := (forEach_runs (expectReport_keeps vif group) chain enough).mp run
  rcases expectList_rearms models (fun _ member => member) distinct loop with
    ⟨absent, same⟩ | ⟨item, found, changed⟩
  · exact Or.inl ⟨absent, same⟩
  · rcases models.lookup_group vif group with ⟨absent, _⟩ | ⟨record, g, listed, _, _⟩
    · rw [found] at absent
      cases absent
    · have same := listed.found.symm.trans found
      cases same
      exact Or.inr ⟨record, g, listed, changed⟩

end PimDm.Refinement
