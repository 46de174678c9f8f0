import PimDm.Refinement.RecordMoves
import PimDm.Refinement.Steps

/-!
# Every IGMP event moves every membership

The functions of `igmp.c` move the group they are about as `Moves` says of a report, a
leave, a query or a timer, and all other groups as something else.
-/

namespace PimDm.Refinement

open PimDm.Foundation PimDm.Source PimDm.Effect PimDm.Routing

variable {s s' : Daemon} {host : Host}

/-! ## Reports -/

theorem questions_of_trace (same : s'.trace = s.trace) (group : Addr) : questions group s' = questions group s := by
  rw [questions, same, questions]

theorem told_of_trace (same : s'.trace = s.trace) (vif : Vif) (group : Addr) :
    leavesTold vif group s' = leavesTold vif group s := by
  rw [leavesTold, same, leavesTold]

/-- A cleared timer is not pending. -/
theorem gone_of_cleared (orderly : Orderly s) (idle : s.expired = []) {timer old : Int} {func : Callback}
    (member : (timer, func) ∈ alarms (s.clearTimer old)) : (timer, func) ∈ alarms s ∧ timer ≠ old :=
  (mem_alarms_clearTimer orderly idle old _).mp member

theorem report_refines (zero : host.ZeroFilled) (kept : GroupsKept s) (idle : s.expired = [])
    {src reported : Addr} (orderly : Orderly s')
    (run : Runs (acceptGroupReport host src reported) s () s') :
    GroupsKept s' ∧
      ∀ vif group, ∃ sent, Refines host vif group s (.acceptGroupReport src reported) s' sent := by
  have hit : ∀ {vif group}, findVifDirect host src = vif ∧ vif ≠ 0 ∧ reported = group →
      stimulus host vif group s (.acceptGroupReport src reported) = .report := fun here => if_pos here
  have missed : ∀ {vif group}, ¬ (findVifDirect host src = vif ∧ vif ≠ 0 ∧ reported = group) →
      stimulus host vif group s (.acceptGroupReport src reported) = .other := fun other => if_neg other
  -- The pair of the report moves by `self`, and all other pairs by `other`.
  have each : findVifDirect host src ≠ 0 → s'.trace = s.trace →
      (membership s (findVifDirect host src) reported).Moves
        (membership s' (findVifDirect host src) reported) .report 0 →
      (∀ vif group, ¬ (findVifDirect host src = vif ∧ reported = group) →
        (membership s vif group).Moves (membership s' vif group) .other 0) →
      ∀ vif group, ∃ sent, Refines host vif group s (.acceptGroupReport src reported) s' sent := by
    intro direct trace self other vif group
    refine ⟨0, ?_, fun _ => questions_of_trace trace group, Or.inl (told_of_trace trace vif group)⟩
    by_cases here : findVifDirect host src = vif ∧ reported = group
    · obtain ⟨rfl, rfl⟩ := here
      rw [hit ⟨rfl, direct, rfl⟩]
      exact self
    · rw [missed fun all => here ⟨all.1, all.2.2⟩]
      exact other vif group here
  rcases acceptGroupReport_records kept.models kept.entries run with
    ⟨none, rfl⟩ | ⟨direct, ⟨record, g, listed, ⟨free, rfl⟩ | ⟨busy, rfl⟩⟩ | ⟨absent, rfl⟩⟩
  · refine ⟨kept, fun vif group => ⟨0, (Aside.refl s').refines (missed ?_)⟩⟩
    rintro ⟨rfl, nonzero, _⟩
    exact nonzero none
  · refine ⟨kept, each direct rfl ?_ fun vif group _ => .other rfl fun _ => id⟩
    have known := membership_listed listed
    have stopped := known
    rw [phaseOf, free] at stopped
    refine .cancelled known stopped fun timer pending => ⟨pending, fun same => ?_⟩
    have bounds := kept.orderly.bounds _ pending
    rw [same, free] at bounds
    omega
  · refine ⟨disarm_kept kept orderly, each direct disarm_trace ?_ fun vif group => disarm_other kept listed⟩
    refine .cancelled (membership_listed listed)
      (stored_self listed (disarm_lists kept.models) disarm_heap) fun timer member => ?_
    exact gone_of_cleared kept.orderly idle (disarm_alarms member)
  · have clean : (newGroup host s.groups.fresh reported).next = 0 := by
      rw [newGroup, zero.group, IgmpGroup.zero]
    have linked : (membership (s.linkGroup (findVifDirect host src) _) _ _).record = some _ :=
      link_self kept.models clean
    refine ⟨link_kept kept clean absent orderly, each direct rfl ?_ fun vif group different => ?_⟩
    · exact .joined (membership_absent absent) linked fun _ => id
    · exact .other (link_other kept.models clean different) fun _ => id

/-! ## Leaves -/

theorem GroupsKept.observe (kept : GroupsKept s) (observation : Observation) :
    GroupsKept (s.observe observation) :=
  ⟨⟨kept.orderly.bounds, kept.orderly.distinct, kept.orderly.started⟩, kept.models.observe _,
    kept.entries, kept.distinct, kept.calls⟩

theorem questions_observe (group : Addr) (observation : Observation) :
    questions group (s.observe observation) =
      questions group s + if isQuestion group observation = true then 1 else 0 :=
  List.countP_cons

theorem Listed.observe {vif : Vif} {group : Addr} {record : Ptr} {g : IgmpGroup}
    (listed : Listed s (table s) vif group record g) (observation : Observation) :
    Listed (s.observe observation) (table (s.observe observation)) vif group record g :=
  ⟨listed.found, listed.content, listed.address⟩

theorem leave_refines (kept : GroupsKept s) (idle : s.expired = []) {src left : Addr} (orderly : Orderly s')
    (run : Runs (acceptLeaveMessage host src left) s () s') :
    GroupsKept s' ∧
      ∀ vif group, ∃ sent, Refines host vif group s (.acceptLeaveMessage src left) s' sent := by
  have missed : ∀ {vif group}, ¬ (findVifDirectLocal host src = vif ∧ vif ≠ 0 ∧
      (s.myvifs vif).querier = 0 ∧ left = group) →
      stimulus host vif group s (.acceptLeaveMessage src left) = .other := fun other => if_neg other
  rcases acceptLeaveMessage_records kept.models run with ⟨rfl, reason⟩ | ⟨direct, own, record, g, listed, rfl⟩
  · refine ⟨kept, fun vif group => ⟨0, ?_⟩⟩
    by_cases here : findVifDirectLocal host src = vif ∧ vif ≠ 0 ∧ (s'.myvifs vif).querier = 0 ∧ left = group
    · have hit : stimulus host vif group s' (.acceptLeaveMessage src left) = .leave := if_pos here
      obtain ⟨rfl, direct, own, rfl⟩ := here
      have absent := (reason.resolve_left direct).resolve_left (not_not.mpr own)
      refine ⟨?_, fun _ => rfl, Or.inl rfl⟩
      rw [hit]
      exact .notLeft (membership_absent absent) (membership_absent absent) fun _ => id
    · exact (Aside.refl s').refines (missed here)
  · have asked := kept.observe (.igmp (host.iface (findVifDirectLocal host src)).address left
      igmpMembershipQuery igmpResponseTime.toNat left)
    refine ⟨rearm_kept asked orderly, fun vif group => ?_⟩
    have told : leavesTold vif group (rearm (s.observe (.igmp (host.iface (findVifDirectLocal host src)).address
        left igmpMembershipQuery igmpResponseTime.toNat left)) g.leaveQuery igmpQueryTime
        (findVifDirectLocal host src) left record 1) = leavesTold vif group s := by
      rw [told_of_trace rearm_trace]
      exact List.countP_cons_of_neg (by simp)
    by_cases here : findVifDirectLocal host src = vif ∧ left = group
    · obtain ⟨rfl, rfl⟩ := here
      have hit : stimulus host (findVifDirectLocal host src) left s (.acceptLeaveMessage src left) = .leave :=
        if_pos ⟨rfl, direct, own, rfl⟩
      refine ⟨1, ?_, fun _ => ?_, Or.inl told⟩
      · rw [hit]
        refine .left (membership_listed listed) (stored_self (listed.observe _)
          (rearm_lists asked.models) rearm_heap) fun timer member => ?_
        rcases rearm_alarms member with new | earlier
        · exact Or.inl (congrArg Prod.fst new)
        · exact Or.inr (gone_of_cleared asked.orderly idle earlier)
      · rw [questions_of_trace rearm_trace, questions_observe, if_pos (by simp [isQuestion])]
    · refine ⟨0, ?_, fun same => ?_, Or.inl told⟩
      · rw [missed fun all => here ⟨all.1, all.2.2.2⟩]
        exact rearm_other asked (listed.observe _) here
      · have apart : left ≠ group := fun equal => here ⟨same, equal⟩
        rw [questions_of_trace rearm_trace, questions_observe, if_neg (by simp [isQuestion, apart])]

/-! ## Queries -/

theorem ntohl_pos {word : Addr} (nonzero : word ≠ 0) : 0 < (ntohl word).toNat := by
  refine Nat.pos_of_ne_zero fun zero => nonzero ?_
  have nothing : ntohl word = 0 := BitVec.eq_of_toNat_eq zero
  have back := ntohl_ntohl word
  rw [nothing] at back
  exact back.symm.trans (by decide)

/-- Whose querier the interface is after a query. -/
theorem hears_defers {src : Addr} {vif : Vif} (hears : Hears host src vif s s') :
    (s'.myvifs vif).querier ≠ 0 ↔ Defers host s src vif := by
  unfold Defers
  cases hears with
  | ignored own larger => simp [own, larger]
  | deferred own smaller => simp [awaiting, smaller]
  | renewed waits later =>
      have nonzero : src ≠ 0 := by
        rintro rfl
        rcases later with same | larger
        · exact waits same
        · exact larger (ntohl_pos waits)
      rw [awaiting, setMyvif_self]
      exact iff_of_true waits ⟨nonzero, Or.inl waits⟩
  | yielded waits smaller =>
      rw [awaiting, setMyvif_self]
      exact ⟨fun nonzero => ⟨nonzero, Or.inl waits⟩, fun defers => defers.1⟩

/-- The record of the group that is asked for is armed again. -/
theorem rearmed_refines {middle : Daemon} {event : Event} {vif other : Vif} {group address : Addr} {record : Ptr}
    {g : IgmpGroup} {delay : Int} (aside : Aside s middle) (heard : GroupsKept middle)
    (listed : Listed middle (table middle) vif group record g) (query : stimulus host vif group s event = .query)
    (apart : ∀ {other address}, ¬ (vif = other ∧ group = address) → stimulus host other address s event = .other) :
    Refines host other address s event (rearm middle 0 delay vif group record (-1)) 0 := by
  refine ⟨?_, fun _ => ?_, Or.inl ?_⟩
  · by_cases here : vif = other ∧ group = address
    · obtain ⟨rfl, rfl⟩ := here
      rw [query]
      refine .queried ((aside.record _ _).symm.trans (membership_listed listed))
        (stored_self listed (rearm_lists heard.models) rearm_heap) fun timer member => ?_
      rcases rearm_alarms member with new | earlier
      · exact Or.inl (congrArg Prod.fst new)
      · exact Or.inr (aside.leaves timer _ _ ((alarms_clearTimer middle 0).subset earlier))
    · rw [apart here]
      exact aside.moves (rearm_other heard listed here)
  · rw [questions_of_trace rearm_trace]
    exact aside.questions address
  · rw [told_of_trace rearm_trace]
    exact aside.told other address

theorem query_refines (kept : GroupsKept s) {src asked : Addr} (orderly : Orderly s')
    (orderlyMiddle : ∀ middle, Hears host src (findVifDirect host src) s middle → Orderly middle)
    (run : Runs (acceptMembershipQuery host src asked) s () s') :
    (GroupsKept s' ∧ ∀ vif, stimulus host vif asked s (.acceptMembershipQuery src asked) = .query →
        (s'.myvifs vif).querier ≠ 0) ∧
      ∀ vif group, ∃ sent, Refines host vif group s (.acceptMembershipQuery src asked) s' sent := by
  have missed : ∀ {vif group}, ¬ ((isLocalAddress host src = 0 ∧ findVifDirect host src = vif ∧ vif ≠ 0) ∧
      asked = group ∧ asked ≠ 0 ∧ Defers host s src vif) →
      stimulus host vif group s (.acceptMembershipQuery src asked) = .other := fun other => if_neg other
  have hit : ∀ {vif group}, stimulus host vif group s (.acceptMembershipQuery src asked) = .query →
      (isLocalAddress host src = 0 ∧ findVifDirect host src = vif ∧ vif ≠ 0) ∧
        asked = group ∧ asked ≠ 0 ∧ Defers host s src vif := by
    intro vif group query
    by_contra other
    rw [missed other] at query
    cases query
  rcases acceptMembershipQuery_hears run with ⟨reason, rfl⟩ | ⟨⟨foreign, direct⟩, middle, hears, expect⟩
  · have out : ∀ vif group, stimulus host vif group s' (.acceptMembershipQuery src asked) = .other := by
      intro vif group
      refine missed ?_
      rintro ⟨⟨foreign, rfl, direct⟩, _⟩
      exact reason.elim (fun ours => ours foreign) direct
    refine ⟨⟨kept, fun vif query => ?_⟩, fun vif group => ⟨0, (Aside.refl s').refines (out vif group)⟩⟩
    rw [out] at query
    cases query
  have aside := Aside.hears hears
  have heard := aside.kept kept (orderlyMiddle middle hears)
  rcases runs_onlyIf.mp expect with ⟨⟨waits, specific⟩, loop⟩ | ⟨unasked, rfl⟩
  · have defers := (hears_defers hears).mp waits
    have query : stimulus host (findVifDirect host src) asked s (.acceptMembershipQuery src asked) = .query :=
      if_pos ⟨⟨foreign, rfl, direct⟩, rfl, specific, defers⟩
    -- The other groups are not asked for.
    have apart : ∀ {vif group}, ¬ (findVifDirect host src = vif ∧ asked = group) →
        stimulus host vif group s (.acceptMembershipQuery src asked) = .other :=
      fun other => missed fun all => other ⟨all.1.2.1, all.2.1⟩
    rcases forGroups_rearms heard.models (heard.distinct _) loop with
      ⟨absent, rfl⟩ | ⟨record, g, listed, rfl⟩
    · refine ⟨⟨heard, fun vif same => ?_⟩, fun vif group => ⟨0, ?_⟩⟩
      · obtain ⟨⟨_, rfl, _⟩, _⟩ := hit same
        exact waits
      · by_cases here : findVifDirect host src = vif ∧ asked = group
        · obtain ⟨rfl, rfl⟩ := here
          refine ⟨?_, fun _ => aside.questions _, Or.inl (aside.told _ _)⟩
          rw [query]
          have gone := membership_absent absent
          exact .notQueried ((aside.record _ _).symm.trans gone) gone fun timer => aside.leaves timer _ _
        · exact aside.refines (apart here)
    · have fields : ∀ vif, ((rearm middle 0 (igmpQueryTime * 2 + 10) (findVifDirect host src) asked record
          (-1)).myvifs vif) = middle.myvifs vif := by simp [rearm, Daemon.setGroup, Daemon.setTimer]
      refine ⟨⟨rearm_kept heard orderly, fun vif same => ?_⟩, fun vif group => ⟨0, ?_⟩⟩
      · obtain ⟨⟨_, rfl, _⟩, _⟩ := hit same
        rw [fields]
        exact waits
      · exact rearmed_refines aside heard listed query apart
  · have out : ∀ vif group, stimulus host vif group s (.acceptMembershipQuery src asked) = .other := by
      intro vif group
      refine missed ?_
      rintro ⟨⟨_, rfl, _⟩, _, specific, defers⟩
      exact unasked ⟨(hears_defers hears).mpr defers, specific⟩
    refine ⟨⟨heard, fun vif query => ?_⟩, fun vif group => ⟨0, aside.refines (out vif group)⟩⟩
    rw [out] at query
    cases query

/-! ## Timers -/

theorem orderly_hears {src : Addr} {vif : Vif} (orderly : Orderly s) (hears : Hears host src vif s s') :
    Orderly s' := by
  cases hears with
  | ignored own larger => exact orderly
  | deferred own smaller => exact orderly_awaiting orderly ..
  | renewed waits later => exact orderly_awaiting orderly ..
  | yielded waits smaller => exact orderly_awaiting (orderly_awaiting orderly ..) ..

/-- A timer that is called is pending no more. -/
theorem gone_of_popped (orderly : Orderly s) {ptr : TimeoutQ} {rest : List TimeoutQ}
    (batch : s.expired = ptr :: rest) {timer : Int} {func : Callback}
    (member : (timer, func) ∈ alarms s.popExpired) : (timer, func) ∈ alarms s ∧ timer ≠ ptr.id := by
  have all := alarms_cons batch
  refine ⟨by rw [all]; exact List.mem_cons_of_mem _ member, ?_⟩
  rintro rfl
  have distinct := orderly.distinct
  rw [all, List.map_cons] at distinct
  exact (List.nodup_cons.mp distinct).1 (List.mem_map.mpr ⟨_, member, rfl⟩)

section LeaveQuery

variable {ptr : TimeoutQ} {rest : List TimeoutQ} {vif other : Vif} {group address : Addr} {record : Ptr} {pktcnt : Int}

theorem stimulus_own (batch : s.expired = ptr :: rest) (func : ptr.func = .leaveQuery vif group) :
    stimulus host vif group s (.expire pktcnt) = .expiry ptr.id := by
  simp only [stimulus, batch, func, if_true]

theorem stimulus_apart (batch : s.expired = ptr :: rest) (func : ptr.func = .leaveQuery vif group)
    (different : ¬ (vif = other ∧ group = address)) : stimulus host other address s (.expire pktcnt) = .other := by
  simp only [stimulus, batch, func, Callback.leaveQuery.injEq, if_neg different]

theorem onVif_leaveQuery (batch : s.expired = ptr :: rest) (func : ptr.func = .leaveQuery vif group) :
    onVif host s (.expire pktcnt) = vif := by
  simp only [onVif, called, batch, List.head?_cons, Option.map_some, func]

theorem record_of_popped {g : IgmpGroup} (listed : Listed s.popExpired (table s.popExpired) vif group record g) :
    (membership s vif group).record = some (phaseOf g) :=
  ((Aside.popExpired s).record vif group).symm.trans (membership_listed listed)

/-- The timer of a record that is set again is new, or was pending beside the called one. -/
theorem pending_rearmed (orderly : Orderly s) (batch : s.expired = ptr :: rest) {now : Daemon} {delay phase timer : Int}
    (same : alarms now = alarms s.popExpired)
    (member : (timer, .leaveQuery vif group) ∈ alarms (rearm now 0 delay vif group record phase)) :
    timer = now.id + 1 ∨ (timer, .leaveQuery vif group) ∈ alarms s ∧ timer ≠ ptr.id := by
  rcases rearm_alarms member with new | earlier
  · exact Or.inl (congrArg Prod.fst new)
  · refine Or.inr (gone_of_popped orderly batch ?_)
    rw [← same]
    exact (alarms_clearTimer now 0).subset earlier

theorem absent_refines (kept : GroupsKept s) (batch : s.expired = ptr :: rest) (func : ptr.func = .leaveQuery vif group)
    (none : ((table s.popExpired).members vif).find? (fun item => item.2 == group) = none) :
    ∃ sent, Refines host other address s (.expire pktcnt) s.popExpired sent := by
  have aside := Aside.popExpired s
  refine ⟨0, ?_, fun _ => aside.questions address, Or.inl (aside.told other address)⟩
  by_cases pair : vif = other ∧ group = address
  · obtain ⟨rfl, rfl⟩ := pair
    rw [stimulus_own batch func]
    have unlisted := membership_absent none
    exact .lapsed unlisted unlisted fun timer member => gone_of_popped kept.orderly batch member
  · rw [stimulus_apart batch func pair]
    exact aside.moves (.other rfl fun _ => id)

/-- The first timer after a leave: a query for the group, and the timer again. -/
theorem asks_refines (kept : GroupsKept s) (asked : GroupsKept
    (s.popExpired.observe (.igmp (host.iface vif).address group
      igmpMembershipQuery 100 group))) (batch : s.expired = ptr :: rest) (func : ptr.func = .leaveQuery vif group)
    {g : IgmpGroup} (listed : Listed s.popExpired (table s.popExpired) vif group record g) (twice : g.timeout = 1) :
    ∃ sent, Refines host other address s (.expire pktcnt)
      (rearm (s.popExpired.observe (.igmp (host.iface vif).address group
      igmpMembershipQuery 100 group)) 0 igmpQueryTime vif group record 0) sent := by
  have aside := Aside.popExpired s
  have told : leavesTold other address (rearm (s.popExpired.observe (.igmp (host.iface vif).address group
      igmpMembershipQuery 100 group)) 0 igmpQueryTime vif group record 0) = leavesTold other address s := by
    rw [told_of_trace rearm_trace]
    exact List.countP_cons_of_neg (by simp)
  by_cases pair : vif = other ∧ group = address
  · obtain ⟨rfl, rfl⟩ := pair
    refine ⟨1, ?_, fun _ => ?_, Or.inl told⟩
    · rw [stimulus_own batch func]
      have known := record_of_popped listed
      rw [phaseOf, twice] at known
      refine .asked known (stored_self (listed.observe _) (rearm_lists asked.models) rearm_heap) ?_
      exact fun timer member => pending_rearmed kept.orderly batch rfl member
    · rw [questions_of_trace rearm_trace, questions_observe, if_pos (by simp [isQuestion])]
      exact congrArg (· + 1) (aside.questions group)
  · refine ⟨0, ?_, fun same => ?_, Or.inl told⟩
    · rw [stimulus_apart batch func pair]
      exact aside.moves (rearm_other asked (listed.observe _) pair)
    · have different : group ≠ address := fun equal => pair ⟨(onVif_leaveQuery batch func).symm.trans same, equal⟩
      rw [questions_of_trace rearm_trace, questions_observe, if_neg (by simp [isQuestion, different])]
      exact aside.questions address

/-- The second timer after a leave: the timer again. -/
theorem waits_refines (kept : GroupsKept s) (popped : GroupsKept s.popExpired) (batch : s.expired = ptr :: rest)
    (func : ptr.func = .leaveQuery vif group) {g : IgmpGroup}
    (listed : Listed s.popExpired (table s.popExpired) vif group record g) (once : g.timeout = 0) :
    ∃ sent, Refines host other address s (.expire pktcnt)
      (rearm s.popExpired 0 (igmpResponseTime / 10) vif group record (-1)) sent := by
  have aside := Aside.popExpired s
  refine ⟨0, ?_, fun _ => ?_, Or.inl ?_⟩
  · by_cases pair : vif = other ∧ group = address
    · obtain ⟨rfl, rfl⟩ := pair
      rw [stimulus_own batch func]
      have known := record_of_popped listed
      rw [phaseOf, once] at known
      refine .lastWait known (stored_self listed (rearm_lists popped.models) rearm_heap) ?_
      exact fun timer member => pending_rearmed kept.orderly batch rfl member
    · rw [stimulus_apart batch func pair]
      exact aside.moves (rearm_other popped listed pair)
  · rw [questions_of_trace rearm_trace]
    exact aside.questions address
  · rw [told_of_trace rearm_trace]
    exact aside.told other address

/-- The third timer after a leave: the record is unlinked, freed and read once more. -/
theorem removes_refines (kept : GroupsKept s) (popped : GroupsKept s.popExpired) (batch : s.expired = ptr :: rest)
    (func : ptr.func = .leaveQuery vif group) {ahead behind : List (Ptr × Addr)} {g freed : IgmpGroup}
    {unlinked : Daemon}
    (listed : Listed s.popExpired (table s.popExpired) vif group record g)
    (split : (table s.popExpired).members vif = ahead ++ (record, group) :: behind) (notTwice : g.timeout ≠ 1)
    (notOnce : g.timeout ≠ 0)
    (unlink : Runs (unlinkGroup host vif (ahead.getLast?.map Prod.fst) record g) s.popExpired () unlinked)
    (memory : unlinked.groups.get? record = some freed) :
    ∃ sent, Refines host other address s (.expire pktcnt) (unlinked.observe (.delLeaf vif freed.address)) sent := by
  have aside := Aside.popExpired s
  obtain ⟨same, trace, _⟩ := unlinkGroup_rest unlink
  have earlier : ∀ {timer other address}, (timer, .leaveQuery other address) ∈ alarms unlinked →
      (timer, .leaveQuery other address) ∈ alarms s.popExpired := fun member => same ▸ member
  refine ⟨0, ?_, fun _ => ?_, ?_⟩
  · by_cases pair : vif = other ∧ group = address
    · obtain ⟨rfl, rfl⟩ := pair
      rw [stimulus_own batch func]
      have taken := unlink_self popped listed split unlink
      refine .removed (record_of_popped listed) notTwice notOnce taken ?_
      exact fun timer member => gone_of_popped kept.orderly batch (earlier member)
    · rw [stimulus_apart batch func pair]
      have same_record := unlink_other popped listed split unlink pair
      exact aside.moves (.other same_record fun timer member => earlier member)
  · rw [questions_observe, if_neg (by simp [isQuestion]), questions_of_trace trace]
    exact aside.questions address
  · by_cases called : vif = other ∧ freed.address = address
    · obtain ⟨rfl, rfl⟩ := called
      rcases unlink_reads popped listed split unlink memory with head | reused
      · rw [head]
        exact Or.inr (Or.inl ⟨_, stimulus_own batch func⟩)
      · exact Or.inr (Or.inr ⟨record, reused.symm⟩)
    · refine Or.inl ?_
      have other_call : ¬ decide (Observation.delLeaf vif freed.address = .delLeaf other address) = true := by
        simpa using called
      have counted : leavesTold other address (unlinked.observe (.delLeaf vif freed.address)) =
          leavesTold other address unlinked := List.countP_cons_of_neg other_call
      rw [counted, told_of_trace trace]
      exact aside.told other address

/-- `leave_query` moves its own group as its timer, and the others as something else. -/
theorem leaveQuery_refines (kept : GroupsKept s) (batch : s.expired = ptr :: rest)
    (func : ptr.func = .leaveQuery vif group) (orderly : Orderly s')
    (leaves : Leaves host vif group s.popExpired (table s.popExpired) s') (pktcnt : Int) :
    GroupsKept s' ∧ ∀ other address, ∃ sent, Refines host other address s (.expire pktcnt) s' sent := by
  have popped : GroupsKept s.popExpired :=
    (Aside.popExpired s).kept kept (orderly_update .popExpired kept.orderly)
  cases leaves with
  | absent none => exact ⟨popped, fun _ _ => absent_refines kept batch func none⟩
  | asks listed twice =>
      have asked := popped.observe (.igmp (host.iface vif).address group igmpMembershipQuery 100 group)
      exact ⟨rearm_kept asked orderly, fun _ _ => asks_refines kept asked batch func listed twice⟩
  | waits listed once =>
      exact ⟨rearm_kept popped orderly, fun _ _ => waits_refines kept popped batch func listed once⟩
  | removes listed split notTwice notOnce unlink memory =>
      rename_i unlinked
      have still : Orderly unlinked := ⟨orderly.bounds, orderly.distinct, orderly.started⟩
      refine ⟨(unlink_kept popped listed split unlink still).observe _, fun _ _ => ?_⟩
      exact removes_refines kept popped batch func listed split notTwice notOnce unlink memory

end LeaveQuery

theorem expire_refines (kept : GroupsKept s) {pktcnt : Int} (orderly : Orderly s')
    (run : Runs (handle host (.expire pktcnt)) s () s') :
    GroupsKept s' ∧ ∀ vif group, ∃ sent, Refines host vif group s (.expire pktcnt) s' sent := by
  rcases runs_expire run with ⟨none, rfl⟩ | ⟨func, calls, call⟩
  · refine ⟨kept, fun vif group => ⟨0, (Aside.refl s').refines ?_⟩⟩
    have empty : s'.expired = [] := by
      simpa [called] using none
    simp only [stimulus, empty]
  obtain ⟨ptr, rest, batch, rfl⟩ := called_batch calls
  have popped := Aside.popExpired s
  have start := popped.kept kept (orderly_update .popExpired kept.orderly)
  have may : IgmpCalls ptr.func :=
    kept.calls (alarm ptr) (alarm_mem_of_batch batch)
  -- A timer of another function is something else for every group.
  have another : Aside s.popExpired s' → (∀ vif group, ptr.func ≠ .leaveQuery vif group) →
      GroupsKept s' ∧ ∀ vif group, ∃ sent, Refines host vif group s (.expire pktcnt) s' sent := by
    intro aside apart
    refine ⟨aside.kept start orderly, fun vif group => ⟨0, (popped.trans aside).refines ?_⟩⟩
    simp only [stimulus, batch, if_neg (apart vif group)]
  have neutral : Within (Does Update.apply Neutral) (callFunc host pktcnt ptr.func) →
      Aside s.popExpired s' := fun quiet => neutral_keeps (P := fun state => Aside s.popExpired state) quiet
    (fun _ _ inside so_far => so_far.trans (Aside.neutral inside)) call (Aside.refl _)
  cases func : ptr.func with
  | timer =>
      rw [func] at neutral
      exact another (neutral timer_neutral) (by rw [func]; exact fun _ _ => Callback.noConfusion)
  | pimHelloOutput data =>
      rw [func] at neutral
      exact another (neutral (pimHelloOutput_neutral data)) (by rw [func]; exact fun _ _ => Callback.noConfusion)
  | sendQuery vif =>
      rw [func] at call
      obtain rfl := runs_startQuerying.mp call
      exact another (Aside.asks _ vif) (by rw [func]; exact fun _ _ => Callback.noConfusion)
  | retryQuery vif =>
      rw [func] at call
      obtain rfl := runs_startQuerying.mp call
      exact another (Aside.asks _ vif) (by rw [func]; exact fun _ _ => Callback.noConfusion)
  | leaveQuery vif group =>
      rw [func] at call
      exact leaveQuery_refines kept batch func orderly (leaveQuery_leaves start.models start.entries call) pktcnt
  | _ =>
      rw [func] at may
      exact may.elim

/-! ## Runs -/

/-- An IGMP message or timer moves every group on every interface. -/
theorem step_refines (zero : host.ZeroFilled) (kept : GroupsKept s) {event : Event} (igmp : Igmp event)
    (taken : Step host s event s') :
    GroupsKept s' ∧ ∀ vif group, ∃ sent, Refines host vif group s event s' sent := by
  have orderly : Orderly s' := orderly_of_changes (handle_anything taken.2) kept.orderly
  cases event with
  | acceptMembershipQuery src asked =>
      obtain ⟨⟨after, _⟩, each⟩ := query_refines kept orderly
        (fun _ hears => orderly_hears kept.orderly hears) taken.2
      exact ⟨after, each⟩
  | acceptGroupReport src reported =>
      exact report_refines zero kept (idle_of_enabled rfl taken.1) orderly taken.2
  | acceptLeaveMessage src left => exact leave_refines kept (idle_of_enabled rfl taken.1) orderly taken.2
  | age elapsedTime =>
      obtain rfl := runs_modify.mp taken.2
      have aside := Aside.age s elapsedTime
      exact ⟨aside.kept kept orderly, fun vif group => ⟨0, aside.refines rfl⟩⟩
  | expire pktcnt => exact expire_refines kept orderly taken.2
  | _ => exact igmp.elim

theorem start_kept (start : Start host s) : GroupsKept s := by
  have blank : ∀ pimSendBuf, GroupsKept (Daemon.blank pimSendBuf) := by
    intro pimSendBuf
    have orderly : Orderly (Daemon.blank pimSendBuf) :=
      ⟨fun _ member => (List.not_mem_nil member).elim, List.nodup_nil, Int.le_refl _⟩
    have distinct : ∀ vif, ((Table.empty.members vif).map Prod.snd).Nodup := fun _ => List.nodup_nil
    exact .of_models orderly (models_blank pimSendBuf) rfl distinct
      fun _ member => (List.not_mem_nil member).elim
  have kept : GroupsKept s ∧ Orderly s := by
    refine start_keeps (P := fun state => GroupsKept state ∧ Orderly state) ?_ ?_ ?_ start
    · exact fun pimSendBuf => ⟨blank pimSendBuf, (blank pimSendBuf).orderly⟩
    · intro update state neutral holds
      have orderly := orderly_update update holds.2
      exact ⟨(Aside.neutral neutral).kept holds.1 orderly, orderly⟩
    · intro state vif _ holds
      have set : Orderly (state.setTimer igmpQueryTime (.sendQuery vif)) :=
        orderly_update (.setTimer igmpQueryTime (.sendQuery vif)) holds.2
      have orderly : Orderly ((asking state vif).observe
          (.igmp (host.iface vif).address allhosts igmpMembershipQuery 100 0)) :=
        ⟨set.bounds, set.distinct, set.started⟩
      exact ⟨(Aside.asks state vif).kept holds.1 orderly, orderly⟩
  exact kept.1

/-- The timer an event calls is pending before it. -/
theorem pending_of_stimulus {vif : Vif} {group : Addr} {event : Event} {timer : Int}
    (expires : stimulus host vif group s event = .expiry timer) : (membership s vif group).pending timer := by
  cases event with
  | expire pktcnt =>
      simp only [stimulus] at expires
      split at expires
      · cases expires
      · rename_i ptr rest batch
        split at expires
        · rename_i func
          cases expires
          show (ptr.id, Callback.leaveQuery vif group) ∈ alarms s
          rw [alarms_cons batch, ← func]
          exact List.mem_cons_self ..
        · cases expires
  | acceptGroupReport src reported =>
      simp only [stimulus] at expires
      split at expires <;> cases expires
  | acceptLeaveMessage src left =>
      simp only [stimulus] at expires
      split at expires <;> cases expires
  | acceptMembershipQuery src asked =>
      simp only [stimulus] at expires
      split at expires <;> cases expires
  | _ => cases expires

/-- After a query heard while not querier another router is the querier. -/
theorem waits_of_query (kept : GroupsKept s) {vif : Vif} {group : Addr} {event : Event}
    (query : stimulus host vif group s event = .query) (taken : Step host s event s') :
    (s'.myvifs vif).querier ≠ 0 := by
  have orderly : Orderly s' := orderly_of_changes (handle_anything taken.2) kept.orderly
  cases event with
  | acceptMembershipQuery src asked =>
      obtain ⟨⟨_, waits⟩, _⟩ := query_refines kept orderly
        (fun _ hears => orderly_hears kept.orderly hears) taken.2
      have same : asked = group := by
        by_contra different
        rw [stimulus, if_neg fun all => different all.2.1] at query
        cases query
      exact waits vif (same ▸ query)
  | expire pktcnt =>
      simp only [stimulus] at query
      split at query
      · cases query
      · split at query <;> cases query
  | acceptGroupReport src reported =>
      simp only [stimulus] at query
      split at query <;> cases query
  | acceptLeaveMessage src left =>
      simp only [stimulus] at query
      split at query <;> cases query
  | _ => cases query

/-- An event that is not something else for a group is about its interface. -/
theorem onVif_of_stimulus {vif : Vif} {group : Addr} {event : Event}
    (about : stimulus host vif group s event ≠ .other) : onVif host s event = vif := by
  cases event with
  | acceptMembershipQuery src asked =>
      by_contra different
      exact about (if_neg fun all => different all.1.2.1)
  | acceptGroupReport src reported =>
      by_contra different
      exact about (if_neg fun all => different all.1)
  | acceptLeaveMessage src left =>
      by_contra different
      exact about (if_neg fun all => different all.1)
  | expire pktcnt =>
      simp only [stimulus] at about
      split at about
      · exact absurd rfl about
      · rename_i ptr rest batch
        split at about
        · rename_i func
          simp only [onVif, called, batch, List.head?_cons, Option.map_some, func]
        · exact absurd rfl about
  | _ => exact absurd rfl about

/-- The group is in the list of the interface if its membership has a record. -/
theorem hasMember_iff_record (kept : GroupsKept s) (vif : Vif) (group : Addr) :
    (table s).HasMember vif group ↔ (membership s vif group).record ≠ none := by
  rcases kept.models.lookup_group vif group with ⟨absent, _⟩ | ⟨record, g, listed, _, _⟩
  · rw [membership_absent absent]
    refine iff_of_false ?_ (fun different => different rfl)
    rintro ⟨item, member, same⟩
    have skipped := List.find?_eq_none.mp absent item member
    simp [same] at skipped
  · rw [membership_listed listed]
    exact iff_of_true ⟨_, listed.member, rfl⟩ (Option.some_ne_none _)

theorem start_unleft (start : Start host s) (vif : Vif) (group : Addr) (timer : Int) :
    ¬ (membership s vif group).pending timer := by
  intro pending
  obtain ⟨pimSendBuf, changes⟩ := start_changes start
  rcases (sets_of_changes changes).old_or_new _ pending with old | ⟨_, _, plain⟩
  · exact (List.not_mem_nil old).elim
  · exact plain

end PimDm.Refinement
