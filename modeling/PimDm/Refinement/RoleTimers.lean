import PimDm.Refinement.EntryTimers
import PimDm.Refinement.GroupRecords

/-!
# The timers that events clear

The functions of `igmp.c` as those of `pim.c` before, and then every event of a run: which
timers it may clear, whatever the state.
-/

namespace PimDm.Refinement

open PimDm.Foundation PimDm.Source PimDm.Effect PimDm.Routing

variable {host : Host} {s s' : Daemon} {A : Callback → Prop}

/-! ## Queriers -/

/-- A timer of the role of an interface. -/
def RoleOn (vif : Vif) (func : Callback) : Prop := func = .sendQuery vif ∨ func = .retryQuery vif

theorem asking_tends (vif : Vif) : Tends A s (asking s vif) := by
  refine ⟨fun owned => ?_, fun _ now entry member _ => mem_agenda_setTimer.mpr (Or.inr member)⟩
  have armed : Owned (s.setTimer igmpQueryTime (.sendQuery vif)) := owned.setTimer _ (fun _ => nofun) fun _ => nofun
  refine armed.setRole (fun _ => rfl) ?_ (ticket_blank armed.orderly (Int.le_refl 0))
  exact ticket_issued owned.orderly igmpQueryTime (.sendQuery vif)

theorem awaiting_tends {vif : Vif} {old : Int} {query : Int} (querier : Addr)
    (stands : Owned s → Ticket s old (RoleOn vif)) (asks : Owned s → Ticket s query (· = .sendQuery vif)) :
    Tends (RoleOn vif) s (awaiting s vif old querier query) := by
  have clears := tends_clearTimer stands
  refine ⟨fun owned => ?_, fun owned now entry member other =>
    mem_agenda_setTimer.mpr (Or.inr (clears.stays owned now entry member other))⟩
  have cleared := clears.owned owned
  have armed : Owned ((s.clearTimer old).setTimer igmpQuerierTimeout (.retryQuery vif)) :=
    cleared.setTimer _ (fun _ => nofun) fun _ => nofun
  refine armed.setRole (fun _ => rfl) ?_ ?_
  · exact ticket_setTimer (ticket_clearTimer (asks owned) old) igmpQuerierTimeout (.retryQuery vif)
  · have issued := ticket_issued cleared.orderly igmpQuerierTimeout (.retryQuery vif)
    rwa [clearTimer_id] at issued

theorem startQuerying_tends (vif : Vif) : Within (Tends A) (startQuerying host vif) := by
  intro s _ s' run
  rw [runs_startQuerying.mp run]
  have asked : Tends A (asking s vif) _ := tends_same (timeless_update
    (.query (host.iface vif).address allhosts igmpMembershipQuery 100 0) trivial (asking s vif))
  exact (asking_tends vif).trans asked

/-- A query clears at most the timers of the role of its interface. -/
theorem hears_tends {src : Addr} {vif : Vif} (hears : Hears host src vif s s') : Tends (RoleOn vif) s s' := by
  have renews : ∀ state : Daemon, Tends (RoleOn vif) state
      (awaiting state vif (state.myvifs vif).querierRetryId (state.myvifs vif).querier
        (state.myvifs vif).igmpQuerytimerId) := by
    intro state
    exact awaiting_tends _ (fun owned => (owned.retries vif).mono fun _ => Or.inr) fun owned => owned.queries vif
  cases hears with
  | ignored own larger => exact .refl s
  | deferred own smaller =>
      refine awaiting_tends src (fun owned => (owned.queries vif).mono fun _ => Or.inl) fun owned => ?_
      exact ticket_blank owned.orderly (Int.le_refl 0)
  | renewed waits later => exact renews s
  | yielded waits smaller =>
      refine (renews s).trans (awaiting_tends src (fun owned => ?_) fun owned => ?_)
      · have retry := owned.retries vif
        rw [awaiting, setMyvif_self] at retry
        exact retry.mono fun _ => Or.inr
      · have query := owned.queries vif
        rw [awaiting, setMyvif_self] at query
        exact query

/-! ## Group records -/

/-- The record that `find` finds in the list of an interface is one of the group. -/
theorem Owned.found {vif : Vif} {group : Addr} {record : Ptr} (owned : Owned s)
    (run : Runs (findGroup vif group) s record s') (nonnull : record ≠ 0) :
    (record, group) ∈ (table s).members vif := by
  rw [findGroup, runs_get_bind, runs_liftHeap] at run
  have search := (owned.members vif).find_eq (fun g => g.address == group) (fun address => address == group)
    fun _ => rfl
  rw [search] at run
  have result := Except.ok.inj run.1
  cases listed : ((table s).members vif).find? fun item => item.2 == group with
  | none =>
      rw [listed] at result
      exact absurd result.symm nonnull
  | some item =>
      rw [listed] at result
      have same : item.2 = group := by simpa using List.find?_some listed
      have member := List.mem_of_find?_eq_some listed
      obtain rfl : item.1 = record := result
      rwa [← same]

/-- A record of a list gets a new timer for its group. -/
theorem armGroup_tends {vif : Vif} {record : Ptr} {group : Addr}
    (listed : Owned s → (record, group) ∈ (table s).members vif) (delay timeout : Int) :
    Tends A s ((s.setTimer delay (.leaveQuery vif group)).setGroup record fun g =>
      { g with leaveQuery := s.id + 1, timeout := timeout }) := by
  refine ⟨fun owned => ?_, fun _ now entry member _ => mem_agenda_setTimer.mpr (Or.inr member)⟩
  have armed : Owned (s.setTimer delay (.leaveQuery vif group)) := owned.setTimer _ (fun _ => nofun) fun _ => nofun
  have member : (record, group) ∈ (table (s.setTimer delay (.leaveQuery vif group))).members vif := listed owned
  exact armed.setLeavePhase member (ticket_issued owned.orderly delay (.leaveQuery vif group)) timeout

/-- To tend means something only where ids are with their records. -/
theorem tends_of_owned (tends : Owned s → Tends A s s') : Tends A s s' :=
  ⟨fun owned => (tends owned).owned owned, fun owned => (tends owned).stays owned⟩

/-- The phase of a record is not in the lists. -/
theorem members_setGroup (owned : Owned s) (record : Ptr) (timer timeout : Int) :
    (table (s.setGroup record fun g => { g with leaveQuery := timer, timeout := timeout })).members =
      (table s).members :=
  members_of_shows fun vif => (owned.members vif).modify_same record (fun _ => rfl) fun _ => rfl

theorem expectReports_tends {vif : Vif} {group : Addr} {items : List (Ptr × Addr)}
    (listed : Owned s → ∀ item ∈ items, item ∈ (table s).members vif)
    (run : Runs (forList (expectReport vif group) (items.map Prod.fst)) s () s') : Tends A s s' := by
  induction items generalizing s with
  | nil =>
      rw [(runs_pure.mp run).2]
      exact .refl s
  | cons item rest ih =>
      refine tends_of_owned fun owned => ?_
      obtain ⟨_, middle, now, later⟩ := runs_bind.mp run
      have inside := listed owned item (List.mem_cons_self ..)
      obtain ⟨g, content, shown⟩ := (owned.members vif).found inside
      rcases expectReport_rearms content now with ⟨_, rfl⟩ | ⟨here, rfl⟩
      · exact ih (fun owned other member => listed owned other (List.mem_cons_of_mem _ member)) later
      · obtain ⟨record, address⟩ := item
        obtain rfl : address = group := shown.symm.trans here
        rw [rearm, clearTimer_zero] at later
        have arms : Tends A s _ := armGroup_tends (fun _ => inside) (igmpQueryTime * 2 + 10) (-1)
        refine arms.trans (ih (fun _ other member => ?_) later)
        have armed : Owned (s.setTimer (igmpQueryTime * 2 + 10) (.leaveQuery vif address)) :=
          owned.setTimer _ (fun _ => Callback.noConfusion) fun _ => Callback.noConfusion
        rw [members_setGroup armed]
        exact listed owned other (List.mem_cons_of_mem _ member)

theorem acceptMembershipQuery_tends (src group : Addr) :
    Within (Tends (RoleOn (findVifDirect host src))) (acceptMembershipQuery host src group) := by
  intro s _ s' run
  rcases acceptMembershipQuery_hears run with ⟨_, rfl⟩ | ⟨_, middle, hears, expect⟩
  · exact .refl _
  refine (hears_tends hears).trans ?_
  rcases runs_onlyIf.mp expect with ⟨_, expect⟩ | ⟨_, rfl⟩
  · refine tends_of_owned fun owned => ?_
    have chain := (owned.members (findVifDirect host src)).chain
    unfold forGroups at expect
    rw [runs_get_bind] at expect
    have loop := (forEach_runs (expectReport_keeps _ group) chain (Nat.lt_succ_of_le chain.length_le)).mp expect
    exact expectReports_tends (fun _ _ => id) loop
  · exact .refl _

theorem members_clearTimer (s : Daemon) (timer : Int) : (table (s.clearTimer timer)).members = (table s).members := by
  unfold table
  rw [clearTimer_groups, clearTimer_myvifs]

/-- The phase of a group ends. -/
theorem cancelLeave_tends {vif : Vif} {group : Addr} {record : Ptr}
    (listed : Owned s → (record, group) ∈ (table s).members vif) (run : Runs (cancelLeave record) s () s') :
    Tends (· = .leaveQuery vif group) s s' := by
  obtain ⟨g, _, load, deciding⟩ := runs_bind.mp run
  obtain ⟨content, same⟩ := runs_loadGroup.mp load
  rw [same] at deciding
  rcases runs_onlyIf.mp deciding with ⟨_, cancelling⟩ | ⟨_, rfl⟩
  · obtain ⟨_, _, clear, store⟩ := runs_bind.mp cancelling
    obtain rfl := runs_timerClearTimer.mp clear
    obtain ⟨_, rfl⟩ := runs_storeGroup.mp store
    have clears : Tends (· = .leaveQuery vif group) s (s.clearTimer g.leaveQuery) :=
      tends_clearTimer fun owned => owned.leaves vif _ (listed owned) g content
    refine ⟨fun owned => ?_, clears.stays⟩
    have cleared := clears.owned owned
    have member := listed owned
    rw [← members_clearTimer s g.leaveQuery] at member
    exact cleared.setLeavePhase member (ticket_blank cleared.orderly (Int.le_refl 0)) 2
  · exact .refl _

theorem acceptGroupReport_tends (zero : host.ZeroFilled) (src group : Addr) :
    Within (Tends (· = .leaveQuery (findVifDirect host src) group)) (acceptGroupReport host src group) := by
  intro s _ s' run
  rcases runs_ite.mp run with ⟨_, stop⟩ | ⟨_, search⟩
  · rw [(runs_pure.mp stop).2]
    exact .refl s
  obtain ⟨record, _, looked, deciding⟩ := runs_bind.mp search
  have same := looked
  rw [findGroup, runs_get_bind, runs_liftHeap] at same
  rw [same.2] at deciding looked
  rcases runs_ite.mp deciding with ⟨nonnull, cancel⟩ | ⟨_, linking⟩
  · exact cancelLeave_tends (fun owned => owned.found looked nonnull) cancel
  · obtain ⟨_, linked, link, add⟩ := runs_bind.mp linking
    have links : Tends (· = .leaveQuery (findVifDirect host src) group) s linked := by
      rw [runs_modify.mp link]
      refine ⟨fun owned => owned.linkGroup _ (fun _ => ?_) rfl, fun _ _ _ member _ => member⟩
      rw [zero.group]
      rfl
    exact links.trans (addLeaf_tends _ _ _ _ _ add)

/-- `leave_query` removes a record, or sets the next timer of its group. -/
theorem leaveQuery_tends (vif : Vif) (group : Addr) : Within (Tends A) (leaveQuery host vif group) := by
  intro s _ s' run
  refine tends_of_owned fun owned => ?_
  obtain ⟨⟨temp, record⟩, _, looked, deciding⟩ := runs_bind.mp run
  rw [findGroupTrailing, runs_get_bind, runs_liftHeap] at looked
  rw [looked.2] at deciding
  rcases runs_ite.mp deciding with ⟨_, stop⟩ | ⟨nonnull, phases⟩
  · rw [(runs_pure.mp stop).2]
    exact .refl s
  have searched := (owned.members vif).findTrailing_eq (fun g => g.address == group) (fun address => address == group)
    fun _ => rfl
  rw [looked.1] at searched
  rcases searched with ⟨last, none, _⟩ | ⟨ahead, item, behind, split, _, here, some⟩
  · cases none
    exact absurd rfl nonnull
  obtain ⟨rfl, rfl⟩ := Prod.mk.inj (Except.ok.inj some)
  have same : item.2 = group := by simpa using here
  have inside : (item.1, group) ∈ (table s).members vif := by
    rw [← same, split]
    exact List.mem_append_right _ (List.mem_cons_self ..)
  obtain ⟨g, _, load, stages⟩ := runs_bind.mp phases
  obtain ⟨content, unchanged⟩ := runs_loadGroup.mp load
  rw [unchanged] at stages
  rcases runs_ite.mp stages with ⟨_, asks⟩ | ⟨_, stages⟩
  · obtain ⟨_, _, ask, arming⟩ := runs_bind.mp asks
    obtain rfl := runs_igmpOutput.mp ask
    obtain ⟨timer, _, arm, store⟩ := runs_bind.mp arming
    obtain ⟨rfl, rfl⟩ := runs_timerSetTimer.mp arm
    obtain ⟨_, rfl⟩ := runs_storeGroup.mp store
    have asked : Tends A s _ := tends_same (timeless_update
      (.query (host.iface vif).address g.address igmpMembershipQuery 100 g.address) trivial s)
    refine asked.trans (armGroup_tends (fun _ => ?_) igmpQueryTime 0)
    exact inside
  rcases runs_ite.mp stages with ⟨_, arming⟩ | ⟨_, removes⟩
  · obtain ⟨timer, _, arm, store⟩ := runs_bind.mp arming
    obtain ⟨rfl, rfl⟩ := runs_timerSetTimer.mp arm
    obtain ⟨_, rfl⟩ := runs_storeGroup.mp store
    exact armGroup_tends (fun _ => inside) (igmpResponseTime / 10) (-1)
  · obtain ⟨block, _, again, unlinking⟩ := runs_bind.mp removes
    obtain ⟨found, still⟩ := runs_loadGroup.mp again
    rw [still] at unlinking
    obtain ⟨_, unlinked, unlink, reading⟩ := runs_bind.mp unlinking
    have removed : Tends A s unlinked := by
      refine ⟨fun owned => owned.unlinkGroup split found unlink, fun _ now entry member _ => ?_⟩
      rcases unlinkGroup_cases unlink with ⟨_, _, _, _, rfl⟩ | ⟨_, rfl⟩
      · exact member
      · exact member
    refine removed.trans ?_
    exact within_bind (steady_tends A) (lookup_tends _) (fun _ => delLeaf_tends vif _) _ _ _ reading

theorem acceptLeaveMessage_tends (src group : Addr) :
    Within (Tends (· = .leaveQuery (findVifDirectLocal host src) group)) (acceptLeaveMessage host src group) := by
  intro s _ s' run
  rcases runs_ite.mp run with ⟨_, stop⟩ | ⟨_, listening⟩
  · rw [(runs_pure.mp stop).2]
    exact .refl s
  rw [runs_get_bind] at listening
  rcases runs_ite.mp listening with ⟨_, stop⟩ | ⟨_, search⟩
  · rw [(runs_pure.mp stop).2]
    exact .refl s
  obtain ⟨record, _, looked, deciding⟩ := runs_bind.mp search
  have same := looked
  rw [findGroup, runs_get_bind, runs_liftHeap] at same
  rw [same.2] at deciding looked
  rcases runs_ite.mp deciding with ⟨_, stop⟩ | ⟨nonnull, leaving⟩
  · rw [(runs_pure.mp stop).2]
    exact .refl s
  obtain ⟨g, _, load, clearing⟩ := runs_bind.mp leaving
  obtain ⟨content, unchanged⟩ := runs_loadGroup.mp load
  rw [unchanged] at clearing
  obtain ⟨_, cleared, clear, asking⟩ := runs_bind.mp clearing
  obtain ⟨_, _, ask, arming⟩ := runs_bind.mp asking
  obtain rfl := runs_igmpOutput.mp ask
  obtain ⟨timer, _, arm, store⟩ := runs_bind.mp arming
  obtain ⟨rfl, rfl⟩ := runs_timerSetTimer.mp arm
  obtain ⟨_, rfl⟩ := runs_storeGroup.mp store
  have clears : Tends (· = .leaveQuery (findVifDirectLocal host src) group) s cleared ∧
      (table cleared).members = (table s).members := by
    rcases runs_onlyIf.mp clear with ⟨_, clear⟩ | ⟨_, rfl⟩
    · obtain rfl := runs_timerClearTimer.mp clear
      refine ⟨tends_clearTimer fun owned => ?_, members_clearTimer s _⟩
      exact owned.leaves _ _ (owned.found looked nonnull) g content
    · exact ⟨.refl _, rfl⟩
  refine tends_of_owned fun owned => ?_
  have inside := owned.found looked nonnull
  rw [← clears.2] at inside
  have asked : Tends (· = .leaveQuery (findVifDirectLocal host src) group) cleared _ :=
    tends_same (timeless_update (.query (host.iface (findVifDirectLocal host src)).address g.address
      igmpMembershipQuery igmpResponseTime.toNat g.address) trivial cleared)
  refine (clears.1.trans asked).trans (armGroup_tends (fun _ => ?_) igmpQueryTime 1)
  exact inside

/-! ## Events -/

/-- The timers that the function of a timer clears: a delayed Join others of its entry, and a
check others of its entry and, with fresh traffic, the timeout. -/
def CallCancels (s : Daemon) (pktcnt : Int) : Callback → Callback → Prop
  | .sendJoin data, func => ∃ dst, func = .sendJoin ⟨data.source, data.group, dst⟩
  | .checkSg source group, func =>
      func = .checkSg source group ∨ pktcnt > s.packetNumber ∧ func = .handleSgTimeout source group
  | .handleSgTimeout source group, func => func = .checkSg source group
  | _, _ => False

/-- The timers that an event may clear: each message those it is about. -/
def MayCancel (host : Host) (s : Daemon) (event : Event) (func : Callback) : Prop :=
  match event with
  | .acceptMembershipQuery src _ => RoleOn (findVifDirect host src) func
  | .acceptGroupReport src group => func = .leaveQuery (findVifDirect host src) group
  | .acceptLeaveMessage src group => func = .leaveQuery (findVifDirectLocal host src) group
  | .pimInput .hello src _ _ =>
      ∃ entry n, func = .deletePimNeighbor entry ∧ s.neighbors.get? entry = some n ∧ n.address = src
  | .pimInput .joinPrune src _ _ => JoinsLater func ∨ HoldsOffOn (findVifDirect host src) func
  | .pimInput .graft src _ _ => HoldsOffOn (findVifDirect host src) func
  | .pimInput .graftAck _ _ _ => GraftsLater func
  | .expire pktcnt => ∃ calls, called s (.expire pktcnt) = some calls ∧ CallCancels s pktcnt calls func
  | _ => False

theorem callFunc_tends {pktcnt : Int} {func : Callback} (run : Runs (callFunc host pktcnt func) s () s') :
    Tends (CallCancels s pktcnt func) s s' := by
  cases func with
  | timer => exact timer_tends _ _ _ run
  | pimHelloOutput data => exact pimHelloOutput_tends data _ _ _ run
  | deletePimNeighbor entry => exact deletePimNeighbor_tends entry _ _ _ run
  | sendJoin data => exact sendJoin_tends data _ _ _ run
  | pruneTimeOut data => exact pruneTimeOut_tends data _ _ _ run
  | setPrune data => exact setPrune_tends data _ _ _ run
  | activeForward vif => exact activeForward_tends _ _ _ run
  | planGraft entry => exact planGraft_tends entry _ _ _ run
  | handleSgTimeout source group =>
      exact within_bind (steady_tends _) (deleteSg_tends source group)
        (fun _ => within_pure (steady_tends _) ()) _ _ _ run
  | checkSg source group => exact checkSg_tends run
  | sendQuery vif => exact startQuerying_tends vif _ _ _ run
  | retryQuery vif => exact startQuerying_tends vif _ _ _ run
  | leaveQuery vif group => exact leaveQuery_tends vif group _ _ _ run

/-- In an event in which no time passes, all timers stay but the one it calls and those it may clear. -/
theorem handle_tends (zero : host.ZeroFilled) {event : Event} (passes : ∀ elapsedTime, event ≠ .age elapsedTime)
    (run : Runs (handle host event) s () s') : Tends (MayCancel host s event) (begun s event) s' := by
  cases event with
  | multicastPacketError mydata checked routed => exact multicastPacketError_tends zero mydata checked routed _ _ _ run
  | acceptMembershipQuery src group => exact acceptMembershipQuery_tends src group _ _ _ run
  | acceptGroupReport src group => exact acceptGroupReport_tends zero src group _ _ _ run
  | acceptLeaveMessage src group => exact acceptLeaveMessage_tends src group _ _ _ run
  | pimInput type src data length =>
      cases type with
      | hello => exact receiveHello_tends run
      | joinPrune => exact receiveJoinPrune_tends src data length _ _ _ run
      | assert => exact receiveAssert_tends src data length _ _ _ run
      | graft => exact receivePimGraft_tends src data length _ _ _ run
      | graftAck => exact receivePimGraftAck_tends src data length _ _ _ run
  | age elapsedTime => exact absurd rfl (passes elapsedTime)
  | expire pktcnt =>
      rcases runs_expire run with ⟨none, rfl⟩ | ⟨func, calls, call⟩
      · rw [begun, none]
        exact .refl _
      · rw [begun, calls]
        exact (callFunc_tends call).mono fun _ cancels => ⟨func, calls, cancels⟩

/-- What an event has to do with a timer that it may clear. -/
def Clears (host : Host) (s : Daemon) (event : Event) : Callback → Prop
  | .timer | .pimHelloOutput _ => False
  | .deletePimNeighbor entry => ∃ src data length n,
      event = .pimInput .hello src data length ∧ s.neighbors.get? entry = some n ∧ n.address = src
  | .handleSgTimeout source group => called s event = some (.checkSg source group)
  | .sendQuery vif | .retryQuery vif => ∃ src group, event = .acceptMembershipQuery src group ∧
      findVifDirect host src = vif
  | _ => True

theorem HoldsOffOn.clears {vif : Vif} {event : Event} {func : Callback} (holds : HoldsOffOn vif func) :
    Clears host s event func := by
  obtain ⟨_, _, ⟨_, rfl, _⟩ | rfl⟩ := holds
  · trivial
  · trivial

/-- Of all timers that an event may clear. -/
theorem MayCancel.clears {event : Event} {func : Callback} (may : MayCancel host s event func) :
    Clears host s event func := by
  cases event with
  | multicastPacketError mydata checked routed => exact may.elim
  | acceptMembershipQuery src group =>
      rcases may with rfl | rfl
      · exact ⟨src, group, rfl, rfl⟩
      · exact ⟨src, group, rfl, rfl⟩
  | acceptGroupReport src group =>
      obtain rfl : func = _ := may
      trivial
  | acceptLeaveMessage src group =>
      obtain rfl : func = _ := may
      trivial
  | pimInput type src data length =>
      cases type with
      | hello =>
          obtain ⟨entry, n, rfl, record, address⟩ := may
          exact ⟨src, data, length, n, rfl, record, address⟩
      | joinPrune =>
          rcases may with ⟨data, rfl⟩ | holds
          · trivial
          · exact holds.clears
      | assert => exact may.elim
      | graft => exact HoldsOffOn.clears may
      | graftAck =>
          obtain ⟨mymrt, rfl⟩ := may
          trivial
  | age elapsedTime => exact may.elim
  | expire pktcnt =>
      obtain ⟨caller, calls, cancels⟩ := may
      cases caller with
      | sendJoin data =>
          obtain ⟨dst, rfl⟩ := cancels
          trivial
      | checkSg source group =>
          rcases cancels with rfl | ⟨_, rfl⟩
          · trivial
          · exact calls
      | handleSgTimeout source group =>
          obtain rfl : func = _ := cancels
          trivial
      | _ => exact cancels.elim

theorem begun_owned (owned : Owned s) (event : Event) : Owned (begun s event) := by
  unfold begun
  split
  · exact owned.popExpired
  · exact owned

/-- A timer that calls another function is not taken from the batch. -/
theorem begun_stays {event : Event} {func : Callback} (calls : called s event ≠ some func) {now time timer : Int}
    (pending : (time, timer, func) ∈ agenda now s) : (time, timer, func) ∈ agenda now (begun s event) := by
  unfold begun
  split
  · rename_i other here
    cases event with
    | expire pktcnt =>
        obtain ⟨ptr, rest, batch, same⟩ := called_batch here
        rw [agenda_popExpired batch] at pending
        refine (List.mem_cons.mp pending).resolve_left fun first => calls ?_
        rw [here, ← same]
        exact congrArg some (congrArg (fun entry => entry.2.2) first).symm
    | _ => cases here
  · exact pending

/-- A timer that an event neither calls nor may clear stays pending, due when it was. -/
theorem handle_stays (zero : host.ZeroFilled) (owned : Owned s) {event : Event} {func : Callback}
    (passes : ∀ elapsedTime, event ≠ .age elapsedTime) (calls : called s event ≠ some func)
    (kept : ¬ MayCancel host s event func) (run : Runs (handle host event) s () s') {now time timer : Int}
    (pending : (time, timer, func) ∈ agenda now s) : (time, timer, func) ∈ agenda now s' :=
  (handle_tends zero passes run).stays (begun_owned owned event) now _ (begun_stays calls pending) kept

/-- Ids stay with their records in every event. -/
theorem handle_owned (zero : host.ZeroFilled) {event : Event} (owned : Owned s)
    (run : Runs (handle host event) s () s') :
    Owned s' := by
  by_cases passes : ∀ elapsedTime, event ≠ .age elapsedTime
  · exact (handle_tends zero passes run).owned (begun_owned owned event)
  · simp only [not_forall, not_not] at passes
    obtain ⟨elapsedTime, rfl⟩ := passes
    obtain rfl := runs_modify.mp run
    exact owned.age elapsedTime

theorem get?_empty {β : Type} (address : Ptr) : (Heap.empty : Heap β).get? address = none := by
  cases address <;> rfl

/-- No record is there yet, and no timer. -/
theorem blank_owned (pimSendBuf : Memory) : Owned (Daemon.blank pimSendBuf) := by
  have orderly : Orderly (Daemon.blank pimSendBuf) :=
    ⟨fun _ member => (List.not_mem_nil member).elim, List.nodup_nil, Int.le_refl _⟩
  have members : (table (Daemon.blank pimSendBuf)).members = fun _ => [] := members_of_shows fun _ => .empty
  refine ⟨orderly, fun _ _ here => ?_, fun _ _ here => ?_, fun _ => ?_, fun _ => ?_, fun _ => ?_, ?_,
    fun vif item member => ?_, fun _ _ member => (List.not_mem_nil member).elim,
    fun _ _ member => (List.not_mem_nil member).elim⟩
  · exact nomatch (get?_empty _).symm.trans here
  · exact nomatch (get?_empty _).symm.trans here
  · exact ticket_blank orderly (Int.le_refl 0)
  · exact ticket_blank orderly (Int.le_refl 0)
  · rw [members]
    exact .empty
  · rw [members]
    exact fun _ _ _ _ member => nomatch member
  · rw [members] at member
    cases member

theorem start_owned (start : Start host s) : Owned s := by
  refine start_keeps blank_owned (fun update state neutral owned => ?_) (fun state vif _ owned => ?_) start
  · cases update with
    | setTimer delay action =>
        cases action with
        | timer => exact owned.setTimer delay (fun _ => nofun) fun _ => nofun
        | pimHelloOutput data => exact owned.setTimer delay (fun _ => nofun) fun _ => nofun
        | _ => exact neutral.elim
    | sendBuf write => exact owned.same (timeless_update (.sendBuf write) trivial state)
    | send packet entry => exact owned.same (timeless_update (.send packet entry) trivial state)
    | virtualTime seconds => exact owned.same (timeless_update (.virtualTime seconds) trivial state)
    | _ => exact neutral.elim
  · have asked := (asking_tends (A := fun _ => False) (s := state) vif).owned owned
    exact asked.same (timeless_update
      (.query (host.iface vif).address allhosts igmpMembershipQuery 100 0) trivial (asking state vif))

theorem reachable_owned (zero : host.ZeroFilled) {allowed : Daemon → Event → Prop}
    (reached : Reachable host allowed s) :
    Owned s := by
  obtain ⟨start, started, run⟩ := reached
  exact run.keeps (start_owned started) fun _ _ _ owned _ taken => handle_owned zero owned taken.2

end PimDm.Refinement
