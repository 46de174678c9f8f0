import PimDm.Source.Reading
import PimDm.Refinement.Completion
import PimDm.Refinement.MembershipSteps
import PimDm.Property.Session

/-!
# The group lists of the interfaces

A report for the first group of an interface leaves the link of its record as `malloc` gave
it, and `leave_query` reads the group of a record behind the first one after it has freed it.
A run in which neither happens keeps every list finite and without repetition, and in each of
its states reports add and last expiries remove exactly their group.
-/

namespace PimDm.Property

open PimDm.Foundation PimDm.Source PimDm.Effect PimDm.Routing PimDm.Refinement

variable {host : Host} {s s' : Daemon} {src group : Addr} {vif : Vif}

/-- The groups in the list of an interface. -/
def groupsOn (s : Daemon) (vif : Vif) : List Addr := ((table s).members vif).map Prod.snd

/-- Every group list is null-terminated and has no group twice. -/
structure GroupListsSound (s : Daemon) : Prop where
  shows : ∀ vif, s.groups.Shows IgmpGroup.next IgmpGroup.address (s.myvifs vif).groups ((table s).members vif)
  distinct : ∀ vif, (groupsOn s vif).Nodup

/-! ## What happens to the lists -/

/-- What IGMP does to an interface. -/
inductive Occurrence where
  | query (src group : Addr)
  | report (src group : Addr)
  | leave (src group : Addr)
  | expiry (vif : Vif) (group : Addr)

def Occurrence.handle (host : Host) : Occurrence → Act Unit
  | .query src group => acceptMembershipQuery host src group
  | .report src group => acceptGroupReport host src group
  | .leave src group => acceptLeaveMessage host src group
  | .expiry vif group => leaveQuery host vif group

def Occurs (host : Host) (s : Daemon) (occurrence : Occurrence) (s' : Daemon) : Prop :=
  Runs (occurrence.handle host) s () s'

/-- The next call of `leave_query` removes the group. -/
def IsLastExpiry (s : Daemon) (vif : Vif) (group : Addr) : Prop :=
  ∃ record g, Listed s (table s) vif group record g ∧ g.timeout ≠ 1 ∧ g.timeout ≠ 0

/-- The record that a report would put into an empty list ends the list. -/
def CleanReport (host : Host) (s : Daemon) (src : Addr) : Prop :=
  findVifDirect host src ≠ 0 → (s.myvifs (findVifDirect host src)).groups = 0 →
    (host.mallocGroup s.groups.fresh).next = 0

/-- The group is the first one of its list. -/
def AtHead (s : Daemon) (vif : Vif) (group : Addr) : Prop :=
  (groupsOn s vif).head? = some group

/-- Reports find clean memory, and groups are removed from the front only. -/
def Harmless (host : Host) (s : Daemon) : Occurrence → Prop
  | .report src _ => CleanReport host s src
  | .expiry vif group => IsLastExpiry s vif group → AtHead s vif group
  | _ => True

/-- A report completes and adds its group to the list of its interface if it is not there,
and nothing else. -/
def ReportAdds (host : Host) (s : Daemon) (src group : Addr) : Prop :=
  ∃ s', Runs (acceptGroupReport host src group) s () s' ∧ GroupListsSound s' ∧ ∀ vif, groupsOn s' vif =
    if vif = findVifDirect host src ∧ vif ≠ 0 ∧ group ∉ groupsOn s vif then group :: groupsOn s vif
    else groupsOn s vif

/-- `leave_query` completes, takes the group out of the list and nothing else, reads no record
that it has freed, and calls `del_leaf` with the group. -/
def ExpiryRemoves (host : Host) (s : Daemon) (vif : Vif) (group : Addr) : Prop :=
  ∃ s', Runs (leaveQuery host vif group) s () s' ∧
    (∀ other, (table s').members other =
      if other = vif then ((table s).members vif).filter fun item => item.2 ≠ group else (table s).members other) ∧
    (∃ temp g, Runs (findGroupTrailing vif group) s (temp, g) s ∧ Runs (strictRemoveGroup host vif temp g) s () s') ∧
    ∃ unlinked, unlinked.trace = s.trace ∧ Runs (delLeaf host vif group) unlinked () s'

/-- What a harmless run keeps. -/
structure ListsKept (s : Daemon) : Prop where
  models : Models s (table s)
  distinct : ∀ vif, (groupsOn s vif).Nodup

theorem ListsKept.of_models {t : Table} (models : Models s t) (distinct : ∀ vif, ((t.members vif).map Prod.snd).Nodup) :
    ListsKept s := by
  have same := models.table_eq
  exact ⟨same ▸ models, fun vif => by rw [groupsOn, same]; exact distinct vif⟩

theorem ListsKept.sound (kept : ListsKept s) : GroupListsSound s :=
  ⟨kept.models.members, kept.distinct⟩

/-! ## Reports -/

theorem mem_groupsOn_iff : group ∈ groupsOn s vif ↔ (table s).HasMember vif group := by
  simp [groupsOn, Table.HasMember]

/-- The lists after a report that has found clean memory. -/
theorem report_groups (models : Models s (table s)) (clean : CleanReport host s src)
    (run : Runs (acceptGroupReport host src group) s () s') (vif : Vif) : groupsOn s' vif =
      if vif = findVifDirect host src ∧ vif ≠ 0 ∧ group ∉ groupsOn s vif then group :: groupsOn s vif
      else groupsOn s vif := by
  have after := acceptGroupReport_models models clean run
  rw [groupsOn, after.table_eq, reportChange]
  by_cases idle : findVifDirect host src = 0 ∨ (table s).HasMember (findVifDirect host src) group
  · rw [if_pos idle]
    refine (if_neg ?_).symm
    rintro ⟨rfl, direct, absent⟩
    exact absent (mem_groupsOn_iff.mpr (idle.resolve_left direct))
  · obtain ⟨direct, absent⟩ := not_or.mp idle
    rw [if_neg idle, Change.apply_members]
    by_cases here : vif = findVifDirect host src
    · subst here
      rw [if_pos ⟨rfl, direct, fun member => absent (mem_groupsOn_iff.mp member)⟩]
      simp [Table.setMembers, groupsOn]
    · rw [if_neg fun both => here both.1]
      simp [Table.setMembers, here, groupsOn]

theorem report_kept (kept : ListsKept s) (clean : CleanReport host s src)
    (run : Runs (acceptGroupReport host src group) s () s') : ListsKept s' := by
  have after := acceptGroupReport_models kept.models clean run
  refine ⟨after.table_eq ▸ after, fun vif => ?_⟩
  rw [report_groups kept.models clean run]
  split
  · rename_i joins
    exact List.nodup_cons.mpr ⟨joins.2.2, kept.distinct vif⟩
  · exact kept.distinct vif

/-- A report of a known group ends the leave phase of its record. -/
theorem cancelLeave_completes {record : Ptr} {g : IgmpGroup} (content : s.groups.get? record = some g) :
    ∃ s', Runs (cancelLeave record) s () s' := by
  by_cases busy : g.leaveQuery ≠ 0
  · refine ⟨disarm s g.leaveQuery record, runs_bind.mpr ⟨g, s, runs_loadGroup.mpr ⟨content, rfl⟩, ?_⟩⟩
    refine runs_onlyIf.mpr (Or.inl ⟨busy, ?_⟩)
    have kept : (s.clearTimer g.leaveQuery).groups.get? record = some g := by
      rw [clearTimer_groups]
      exact content
    exact runs_bind.mpr ⟨(), _, runs_timerClearTimer.mpr rfl, runs_storeGroup.mpr ⟨⟨g, kept⟩, rfl⟩⟩
  · exact ⟨s, runs_bind.mpr ⟨g, s, runs_loadGroup.mpr ⟨content, rfl⟩, runs_onlyIf.mpr (Or.inr ⟨busy, rfl⟩)⟩⟩

theorem report_completes (kept : ListsKept s) (clean : CleanReport host s src) (group : Addr) :
    ∃ s', Runs (acceptGroupReport host src group) s () s' := by
  unfold acceptGroupReport
  by_cases direct : findVifDirect host src = 0
  · exact ⟨s, runs_ite.mpr (Or.inl ⟨direct, runs_pure.mpr ⟨rfl, rfl⟩⟩)⟩
  rcases kept.models.lookup_group (findVifDirect host src) group with ⟨_, null⟩ | ⟨record, g, listed, nonnull, here⟩
  · have linked : Models (s.linkGroup (findVifDirect host src) (newGroup host s.groups.fresh group)) _ :=
      kept.models.linkGroup _ (clean direct)
    obtain ⟨_, s', add, _⟩ := addLeaf_achieves host (findVifDirect host src) group _ linked
    refine ⟨s', runs_ite.mpr (Or.inr ⟨direct, ?_⟩)⟩
    refine runs_bind.mpr ⟨0, s, kept.models.runs_findGroup.mpr ⟨null.symm, rfl⟩, ?_⟩
    rw [if_neg (not_not.mpr rfl)]
    exact runs_bind.mpr ⟨(), _, runs_modify.mpr rfl, add⟩
  · obtain ⟨s', cancel⟩ := cancelLeave_completes listed.content
    refine ⟨s', runs_ite.mpr (Or.inr ⟨direct, ?_⟩)⟩
    refine runs_bind.mpr ⟨record, s, kept.models.runs_findGroup.mpr ⟨here.symm, rfl⟩, ?_⟩
    rw [if_pos nonnull]
    exact cancel

/-! ## Reports that find other memory -/

/-- Where the group lists start, and how their records are linked. -/
def groupLinks (s : Daemon) : (Vif → Ptr) × (Ptr → Option Ptr) :=
  (fun vif => (s.myvifs vif).groups, s.groups.links IgmpGroup.next)

/-- Stores that change forwarding do not change them. -/
theorem groupLinks_update {update : Update} (below : update.level ≤ .forwarding) (s : Daemon) :
    groupLinks (update.apply s) = groupLinks s := by
  cases update with
  | clearTimer timer =>
      simp only [groupLinks, Update.apply, Daemon.clearTimer]
      split <;> rfl
  | querier vif write kept =>
      refine Prod.ext (funext fun other => ?_) rfl
      by_cases here : other = vif
      · subst here
        simp [groupLinks, Update.apply, Daemon.setMyvif, kept]
      · simp [groupLinks, Update.apply, Daemon.setMyvif, here]
  | leavePhase record leaveQuery timeout =>
      have same : ∀ g : IgmpGroup,
          ({ g with leaveQuery := leaveQuery, timeout := timeout } : IgmpGroup).next = g.next :=
        fun _ => rfl
      exact Prod.ext rfl (Heap.links_modify_same same _ _)
  | linkGroup vif record => exact absurd below (by simp only [Update.level]; decide)
  | groupHead vif record => exact absurd below (by simp only [Update.level]; decide)
  | groupNext record next => exact absurd below (by simp only [Update.level]; decide)
  | freeGroup record content => exact absurd below (by simp only [Update.level]; decide)
  | linkNeighbor vif entry => exact absurd below (by simp only [Update.level]; decide)
  | neighborHead vif entry => exact absurd below (by simp only [Update.level]; decide)
  | _ => rfl

/-- A report of a group that is not in the list is `add_leaf` behind the new record. -/
theorem report_joins (models : Models s (table s)) (direct : findVifDirect host src ≠ 0)
    (absent : ((table s).members (findVifDirect host src)).find? (fun item => item.2 == group) = none)
    (run : Runs (acceptGroupReport host src group) s () s') :
    Runs (addLeaf host (findVifDirect host src) group)
      (s.linkGroup (findVifDirect host src) (newGroup host s.groups.fresh group)) () s' := by
  rcases runs_ite.mp run with ⟨none, _⟩ | ⟨_, search⟩
  · exact absurd none direct
  obtain ⟨_, _, looked, decided⟩ := runs_bind.mp search
  obtain ⟨rfl, rfl⟩ := models.runs_findGroup.mp looked
  rw [absent, if_neg (show ¬ addressOf (none : Option (Ptr × Addr)) ≠ 0 from not_not.mpr rfl)] at decided
  obtain ⟨_, _, link, add⟩ := runs_bind.mp decided
  obtain rfl := runs_modify.mp link
  exact add

theorem addLeaf_groupLinks (run : Runs (addLeaf host vif group) s () s') : groupLinks s' = groupLinks s := by
  have changes : Within (Changes .forwarding Anything) (addLeaf host vif group) :=
    addLeaf_changes (Nat.le_refl _) (fun _ => trivial) host vif group
  have same : Within (fun before after => groupLinks after = groupLinks before) (addLeaf host vif group) :=
    within_of_does changes (steady_same groupLinks) fun update state inside => groupLinks_update inside.1 state
  exact same _ _ _ run

/-- A report into an empty list that ends well has found clean memory. -/
theorem cleanReport_of_adds (kept : ListsKept s) (adds : ReportAdds host s src group) : CleanReport host s src := by
  intro direct empty
  obtain ⟨s', run, sound, groups⟩ := adds
  have none : (table s).members (findVifDirect host src) = [] := (kept.models.members _).nil_iff.mp empty
  have alone : groupsOn s' (findVifDirect host src) = [group] := by
    rw [groups, groupsOn, none, if_pos ⟨rfl, direct, List.not_mem_nil⟩]
    rfl
  have added := addLeaf_groupLinks (report_joins kept.models direct (by rw [none]; rfl) run)
  have head : (s'.myvifs (findVifDirect host src)).groups = s.groups.fresh := by
    rw [show (s'.myvifs (findVifDirect host src)).groups = _ from congrFun (congrArg Prod.fst added) _]
    simp [groupLinks, Daemon.linkGroup]
  have link : s'.groups.links IgmpGroup.next s.groups.fresh = some (host.mallocGroup s.groups.fresh).next := by
    rw [show s'.groups.links IgmpGroup.next = _ from congrArg Prod.snd added]
    simp [groupLinks, Daemon.linkGroup, empty, Heap.links, Heap.get?_alloc, newGroup]
  obtain ⟨⟨record, address⟩, one, _⟩ := List.map_eq_singleton_iff.mp alone
  have shows := sound.shows (findVifDirect host src)
  rw [one] at shows
  obtain rfl : record = s.groups.fresh := shows.start_eq.symm.trans head
  exact Option.some.inj (link.symm.trans shows.chain.single)

theorem report_adds_iff (kept : ListsKept s) (src group : Addr) :
    ReportAdds host s src group ↔ CleanReport host s src := by
  refine ⟨cleanReport_of_adds kept, fun clean => ?_⟩
  obtain ⟨s', run⟩ := report_completes kept clean group
  exact ⟨s', run, (report_kept kept clean run).sound, report_groups kept.models clean run⟩

/-! ## Last expiries -/

theorem atHead_iff {record : Ptr} {ahead behind : List (Ptr × Addr)}
    (split : (table s).members vif = ahead ++ (record, group) :: behind)
    (before : ∀ other ∈ ahead, (other.2 == group) = false) : AtHead s vif group ↔ ahead = [] := by
  rw [AtHead, groupsOn, split]
  cases ahead with
  | nil => simp
  | cons first rest =>
      have other := before first List.mem_cons_self
      simpa using other

/-- Only the first record is read before it is gone. -/
theorem atHead_of_strict (models : Models s (table s)) (last : IsLastExpiry s vif group) {temp : Option Ptr} {g : Ptr}
    (looked : Runs (findGroupTrailing vif group) s (temp, g) s)
    (removed : Runs (strictRemoveGroup host vif temp g) s () s') :
    AtHead s vif group := by
  obtain ⟨record, block, listed, _⟩ := last
  obtain ⟨_, ⟨_, absent⟩ | ⟨ahead, item, behind, split, before, here, found⟩⟩ := models.runs_findGroupTrailing looked
  · simpa using absent _ listed.member
  obtain ⟨first, address⟩ := item
  obtain rfl : address = group := eq_of_beq here
  obtain rfl : g = first := congrArg Prod.snd found
  obtain ⟨_, _, load, unlinkAndRead⟩ := runs_bind.mp removed
  obtain ⟨_, rfl⟩ := runs_loadGroup.mp load
  rw [runs_get_bind] at unlinkAndRead
  obtain ⟨_, _, unlink, checked⟩ := runs_bind.mp unlinkAndRead
  obtain ⟨_, _, check, _⟩ := runs_bind.mp checked
  rcases runs_onlyIf.mp check with ⟨_, stuck⟩ | ⟨head, _⟩
  · exact (runs_throw.mp stuck).elim
  · have shows := models.members vif
    rw [split] at shows
    exact (atHead_iff split before).mpr (shows.start_eq_iff.mp (not_not.mp head).symm)

/-- The search stops at the first record if it is the one. -/
theorem findGroupTrailing_head (models : Models s (table s)) {record : Ptr} {behind : List (Ptr × Addr)}
    (split : (table s).members vif = (record, group) :: behind) :
    Runs (findGroupTrailing vif group) s (none, record) s := by
  rw [findGroupTrailing, runs_get_bind, runs_liftHeap]
  refine ⟨?_, rfl⟩
  rcases (models.members vif).findTrailing_eq (fun g => g.address == group)
      (fun address => address == group) (fun _ => rfl) with
    ⟨_, _, absent⟩ | ⟨ahead, item, behind', again, before, _, result⟩
  · have other := absent (record, group) (by simp [split])
    simp at other
  · cases ahead with
    | nil =>
        obtain ⟨rfl, _⟩ := List.cons.inj (split.symm.trans again)
        exact result
    | cons first rest =>
        obtain ⟨rfl, _⟩ := List.cons.inj (split.symm.trans again)
        have other := before (record, group) List.mem_cons_self
        simp at other

theorem unlinkGroup_head (host : Host) (models : Models s (table s)) {record : Ptr} {g : IgmpGroup}
    {behind : List (Ptr × Addr)} (listed : Listed s (table s) vif group record g)
    (split : (table s).members vif = (record, group) :: behind) :
    ∃ unlinked freed, Runs (unlinkGroup host vif none record g) s () unlinked ∧ unlinked.trace = s.trace ∧
      Models unlinked ((table s).setMembers vif behind) ∧ unlinked.groups.get? record = some freed ∧
      freed.address = group := by
  have shows := models.members vif
  rw [split] at shows
  have head : record = (s.myvifs vif).groups := shows.start_eq.symm
  have unlink : Runs (unlinkGroup host vif none record g) s ()
      (s.setMyvif vif fun myv => { myv with groups := g.next }) := by
    rw [unlinkGroup, runs_get_bind, if_neg (not_not.mpr head)]
    exact runs_modify.mpr rfl
  have first : (table s).members vif = [] ++ (record, group) :: behind := split
  obtain ⟨unlinked, freed, memory, left⟩ := unlinkGroup_models models first listed.content listed.address unlink
  rw [if_pos head] at left
  exact ⟨_, freed, unlink, rfl, unlinked, memory, left⟩

/-- The removal of the first record of a list. -/
theorem expiry_removes (kept : ListsKept s) (last : IsLastExpiry s vif group) (atHead : AtHead s vif group) :
    ExpiryRemoves host s vif group := by
  obtain ⟨record, g, listed, notTwice, notOnce⟩ := last
  obtain ⟨behind, split⟩ : ∃ behind, (table s).members vif = (record, group) :: behind := by
    obtain ⟨_, ahead, behind, split, before⟩ := List.find?_eq_some_iff_append.mp listed.found
    have none : ahead = [] := (atHead_iff split fun other member => by simpa using before other member).mp atHead
    exact ⟨behind, by rw [split, none, List.nil_append]⟩
  have shows := kept.models.members vif
  have nonnull : record ≠ 0 := shows.nonnull listed.member
  rw [split] at shows
  have head : record = (s.myvifs vif).groups := shows.start_eq.symm
  have search := findGroupTrailing_head kept.models split
  have load : Runs (loadGroup record) s g s := runs_loadGroup.mpr ⟨listed.content, rfl⟩
  obtain ⟨unlinked, freed, unlink, trace, shorter, memory, left⟩ := unlinkGroup_head host kept.models listed split
  obtain ⟨_, s', delete, after⟩ := delLeaf_achieves host vif group unlinked shorter
  have called : Runs (do let read ← loadGroup record; delLeaf host vif read.address) unlinked () s' := by
    refine runs_bind.mpr ⟨freed, unlinked, runs_loadGroup.mpr ⟨memory, rfl⟩, ?_⟩
    rw [left]
    exact delete
  refine ⟨s', ?_, fun other => ?_, ⟨none, record, search, ?_⟩, unlinked, trace, delete⟩
  · refine runs_bind.mpr ⟨_, s, search, ?_⟩
    rw [if_neg nonnull]
    refine runs_bind.mpr ⟨g, s, load, ?_⟩
    rw [if_neg notTwice, if_neg notOnce]
    exact runs_bind.mpr ⟨g, s, load, runs_bind.mpr ⟨(), unlinked, unlink, called⟩⟩
  · rw [after.table_eq, Table.delLeaf, Table.forwardFirst_members]
    by_cases here : other = vif
    · subst here
      have distinct : (([] ++ (record, group) :: behind).map Prod.snd).Nodup := by
        have distinct := kept.distinct other
        rw [groupsOn, split] at distinct
        exact distinct
      have others : ((record, group) :: behind).filter (fun item => item.2 ≠ group) = behind := filter_split distinct
      rw [if_pos rfl, split, others]
      simp [Table.setMembers]
    · rw [if_neg here]
      simp [Table.setMembers, here]
  · refine runs_bind.mpr ⟨g, s, load, ?_⟩
    rw [runs_get_bind]
    exact runs_bind.mpr ⟨(), unlinked, unlink, runs_bind.mpr ⟨(), unlinked,
      runs_onlyIf.mpr (Or.inr ⟨not_not.mpr head, rfl⟩), called⟩⟩

theorem expiry_removes_iff (kept : ListsKept s) (last : IsLastExpiry s vif group) :
    ExpiryRemoves host s vif group ↔ AtHead s vif group := by
  refine ⟨fun removes => ?_, expiry_removes kept last⟩
  obtain ⟨_, _, _, ⟨_, _, looked, removed⟩, _⟩ := removes
  exact atHead_of_strict kept.models last looked removed

/-! ## Runs -/

/-- `leave_query` puts no record into a list. -/
theorem leaveChange_members (host : Host) (s : Daemon) (vif : Vif) (group : Addr) (other : Vif) :
    (((leaveChange host s vif group).apply host (table s)).members other).Sublist ((table s).members other) := by
  rcases leaveChange_cases host s vif group with idle | ⟨read, leave⟩
  · rw [idle]
    exact List.Sublist.refl _
  · rw [leave, Change.apply_members]
    by_cases here : other = vif
    · subst here
      simp only [Table.withoutMember, Table.setMembers, Function.update_self]
      exact List.eraseP_sublist
    · simp [Table.withoutMember, Table.setMembers, here]

/-- What IGMP does keeps the lists if it is harmless. -/
theorem occurs_kept (kept : ListsKept s) {occurrence : Occurrence} (harmless : Harmless host s occurrence)
    (taken : Occurs host s occurrence s') : ListsKept s' := by
  cases occurrence with
  | query src group =>
      refine .of_models (models_of_quiet ?_ kept.models taken) kept.distinct
      exact acceptMembershipQuery_changes (fun _ => trivial) host (fun _ _ _ => trivial) src group
  | report src group => exact report_kept kept harmless taken
  | leave src group =>
      refine .of_models (models_of_quiet ?_ kept.models taken) kept.distinct
      exact acceptLeaveMessage_changes host (fun _ _ _ => trivial) src group
  | expiry vif group =>
      refine .of_models (leaveQuery_models kept.models taken) fun other => ?_
      exact (kept.distinct other).sublist ((leaveChange_members host s vif group other).map Prod.snd)

/-- In every state that a harmless run reaches the lists are sound, a report adds exactly its
group if and only if it finds clean memory, and a last expiry removes exactly its group if and
only if the group is the first one. -/
theorem group_lists_kept {s₀ : Daemon} (kept : ListsKept s₀) (run : Reaches (Occurs host) (Harmless host) s₀ s) :
    GroupListsSound s ∧
      (∀ src group, ReportAdds host s src group ↔ CleanReport host s src) ∧
      ∀ vif group, IsLastExpiry s vif group → (ExpiryRemoves host s vif group ↔ AtHead s vif group) := by
  have still : ListsKept s := run.keeps kept fun _ _ _ kept harmless taken => occurs_kept kept harmless taken
  exact ⟨still.sound, report_adds_iff still, fun vif group last => expiry_removes_iff still last⟩

/-- IGMP alone leads a booted daemon with zeroed memory to sound lists. -/
theorem reachable_listsKept (zero : host.ZeroFilled) (reached : Reachable host (fun _ => Igmp) s) : ListsKept s := by
  obtain ⟨start, started, run⟩ := reached
  have kept : GroupsKept s := run.keeps (start_kept started) fun _ _ _ kept igmp taken =>
    (step_refines zero kept igmp taken).1
  exact ⟨kept.models, kept.distinct⟩

/-- The group is in the list, and its record is past the queries of the leave phase. -/
def IsLate (s : Daemon) (vif : Vif) (group : Addr) : Prop :=
  (table s).HasMember vif group ∧ ∀ item ∈ (table s).members vif, item.2 = group →
    ∀ g ∈ s.groups.get? item.1, g.timeout ≠ 1 ∧ g.timeout ≠ 0

instance (s : Daemon) (vif : Vif) (group : Addr) : Decidable (IsLate s vif group) :=
  inferInstanceAs (Decidable (_ ∧ _))

theorem IsLate.last (late : IsLate s vif group) (models : Models s (table s)) : IsLastExpiry s vif group := by
  rcases models.lookup_group vif group with ⟨absent, _⟩ | ⟨record, g, listed, _⟩
  · obtain ⟨item, inside, rfl⟩ := late.1
    simpa using List.find?_eq_none.mp absent item inside
  · exact ⟨record, g, listed, late.2 _ listed.member rfl g listed.content⟩

/-- A list of two groups that is about to lose one of them. -/
def leaving (group : Addr) : List Event :=
  [.acceptGroupReport (stationOn 1 5) channel, .acceptGroupReport (stationOn 1 6) otherChannel,
    .acceptLeaveMessage (stationOn 1 5) group, .age 10, .expire 0, .expire 0, .expire 0, .age 10, .expire 0,
    .expire 0, .expire 0]

/-- The first group leaves, and the list keeps the other one. -/
theorem group_lists_kept_leave :
    ∃ s₀ s, ListsKept s₀ ∧ Reaches (Occurs loneRouter) (Harmless loneRouter) s₀ s ∧
      groupsOn s₀ 1 = [otherChannel, channel] ∧ groupsOn s 1 = [channel] ∧ GroupListsSound s ∧
      (∀ src group, ReportAdds loneRouter s src group ↔ CleanReport loneRouter s src) ∧
      ∀ vif group, IsLastExpiry s vif group → (ExpiryRemoves loneRouter s vif group ↔ AtHead s vif group) := by
  have passed : endsWith loneRouter (fun _ => Igmp) (leaving otherChannel)
      (fun s => decide (IsLate s 1 otherChannel) && (groupsOn s 1 == [otherChannel, channel])) = true := by
    decide +kernel
  obtain ⟨s₀, reached, both⟩ := reachable_of_endsWith passed
  obtain ⟨late, two⟩ := Bool.and_eq_true_iff.mp both
  have kept := reachable_listsKept loneRouter_zeroFilled reached
  have last := (of_decide_eq_true late).last kept.models
  have head : AtHead s₀ 1 otherChannel := by rw [AtHead, eq_of_beq two]; rfl
  have removes : ExpiryRemoves loneRouter s₀ 1 otherChannel := expiry_removes kept last head
  obtain ⟨s, leave, members, _⟩ := removes
  have harmless : Harmless loneRouter s₀ (.expiry 1 otherChannel) := fun _ => head
  have run : Reaches (Occurs loneRouter) (Harmless loneRouter) s₀ s := (Reaches.refl s₀).snoc harmless leave
  have one : groupsOn s 1 = [channel] := by
    have filtered := List.filter_map (f := Prod.snd) (p := fun address => decide (address ≠ otherChannel))
      (l := (table s₀).members 1)
    have both : ((table s₀).members 1).map Prod.snd = [otherChannel, channel] := eq_of_beq two
    rw [groupsOn, members, if_pos rfl]
    refine filtered.symm.trans ?_
    rw [both]
    decide
  exact ⟨s₀, s, kept, run, eq_of_beq two, one, group_lists_kept kept run⟩

/-- A router whose memory is not zeroed. -/
def unclearedRouter : Host := { loneRouter with mallocGroup := fun _ => { IgmpGroup.zero with next := 7 } }

/-- The first group of an interface in other memory, and a group that is not the first one. -/
theorem group_lists_broken :
    (¬ ∀ (host : Host) (s₀ s : Daemon), ListsKept s₀ → Reaches (Occurs host) (fun _ _ => True) s₀ s →
        ∀ src group, ReportAdds host s src group) ∧
      ¬ ∀ (host : Host) (s₀ s : Daemon), ListsKept s₀ → Reaches (Occurs host) (fun _ _ => True) s₀ s →
        ∀ vif group, IsLastExpiry s vif group → ExpiryRemoves host s vif group := by
  constructor
  · intro all
    have passed : endsWith loneRouter (fun _ => Igmp) [] (fun s => decide ((s.myvifs 1).groups = 0)) = true := by
      decide +kernel
    obtain ⟨s, reached, empty⟩ := reachable_of_endsWith passed
    have kept := reachable_listsKept loneRouter_zeroFilled reached
    have clean := cleanReport_of_adds kept (all unclearedRouter s s kept (Reaches.refl s) (stationOn 1 5) channel)
    have direct : findVifDirect unclearedRouter (stationOn 1 5) = 1 := by decide
    unfold CleanReport at clean
    rw [direct] at clean
    exact absurd (clean (by decide) (of_decide_eq_true empty)) (show (7 : Ptr) ≠ 0 by decide)
  · intro all
    have passed : endsWith loneRouter (fun _ => Igmp) (leaving channel)
        (fun s => decide (IsLate s 1 channel) && (groupsOn s 1 == [otherChannel, channel])) = true := by
      decide +kernel
    obtain ⟨s, reached, both⟩ := reachable_of_endsWith passed
    obtain ⟨late, two⟩ := Bool.and_eq_true_iff.mp both
    have kept := reachable_listsKept loneRouter_zeroFilled reached
    have last := (of_decide_eq_true late).last kept.models
    have head := (expiry_removes_iff kept last).mp (all loneRouter s s kept (Reaches.refl s) 1 channel last)
    rw [AtHead, eq_of_beq two] at head
    exact absurd head (by decide)

end PimDm.Property
