import PimDm.Refinement.MembershipSteps
import PimDm.Property.History

/-!
# When a group loses its last member

As long as a router stays querier on an interface, a group goes at the third timer after
a leave that no report answers, and two queries were sent for it by then.  A router that
is not querier sets a timer at every query for the group and keeps the id of the last
one only, so a report stops one timer and the others still take the group away.
-/

namespace PimDm.Property

open PimDm.Foundation PimDm.Source PimDm.Effect PimDm.Routing PimDm.Refinement

variable {host : Host} {s s' later : Daemon} {vif : Vif} {group : Addr} {event : Event}

/-! ## The messages about a group -/

def ReportOn (host : Host) (vif : Vif) (group : Addr) : Event → Prop
  | .acceptGroupReport src reported => findVifDirect host src = vif ∧ vif ≠ 0 ∧ reported = group
  | _ => False

def LeaveOn (host : Host) (vif : Vif) (group : Addr) : Event → Prop
  | .acceptLeaveMessage src left => findVifDirectLocal host src = vif ∧ left = group
  | _ => False

/-- A group-specific query of another router. -/
def QueryOn (host : Host) (vif : Vif) (group : Addr) : Event → Prop
  | .acceptMembershipQuery src asked =>
      isLocalAddress host src = 0 ∧ findVifDirect host src = vif ∧ asked = group ∧ asked ≠ 0
  | _ => False

instance decidableLeaveOn (host : Host) (vif : Vif) (group : Addr) :
    (event : Event) → Decidable (LeaveOn host vif group event)
  | .acceptLeaveMessage .. => inferInstanceAs (Decidable (_ ∧ _))
  | .multicastPacketError .. | .acceptMembershipQuery .. | .acceptGroupReport .. | .pimInput ..
  | .age _ | .expire _ => isFalse id

instance decidableQueryOn (host : Host) (vif : Vif) (group : Addr) :
    (event : Event) → Decidable (QueryOn host vif group event)
  | .acceptMembershipQuery .. => inferInstanceAs (Decidable (_ ∧ _ ∧ _ ∧ _))
  | .multicastPacketError .. | .acceptLeaveMessage .. | .acceptGroupReport .. | .pimInput ..
  | .age _ | .expire _ => isFalse id

theorem stimulus_of_report (report : ReportOn host vif group event) :
    stimulus host vif group s event = .report := by
  cases event with
  | acceptGroupReport src reported => exact if_pos report
  | _ => exact report.elim

theorem stimulus_without_leave (none : ¬ LeaveOn host vif group event) :
    stimulus host vif group s event ≠ .leave := by
  intro leave
  cases event with
  | acceptLeaveMessage src left =>
      rw [stimulus, if_neg fun all => none ⟨all.1, all.2.2.2⟩] at leave
      cases leave
  | acceptMembershipQuery src asked =>
      simp only [stimulus] at leave
      split at leave <;> cases leave
  | acceptGroupReport src reported =>
      simp only [stimulus] at leave
      split at leave <;> cases leave
  | expire pktcnt =>
      simp only [stimulus] at leave
      split at leave
      · cases leave
      · split at leave <;> cases leave
  | _ => cases leave

theorem stimulus_without_query (none : ¬ QueryOn host vif group event) :
    stimulus host vif group s event ≠ .query := by
  intro query
  cases event with
  | acceptMembershipQuery src asked =>
      rw [stimulus, if_neg fun all => none ⟨all.1.1, all.1.2.1, all.2.1, all.2.2.1⟩] at query
      cases query
  | acceptLeaveMessage src left =>
      simp only [stimulus] at query
      split at query <;> cases query
  | acceptGroupReport src reported =>
      simp only [stimulus] at query
      split at query <;> cases query
  | expire pktcnt =>
      simp only [stimulus] at query
      split at query
      · cases query
      · split at query <;> cases query
  | _ => cases query

/-! ## A router that stays querier -/

/-- Count the timers of the group since its last leave, and the queries sent for it on the
interface. -/
def countLeave (host : Host) (vif : Vif) (group : Addr) (s : Daemon) (event : Event) (s' : Daemon)
    (count : Membership.Count) : Membership.Count :=
  count.next (if onVif host s event = vif then questions group s' - questions group s else 0)
    (stimulus host vif group s event)

/-- IGMP messages and timers while the router is the querier of the interface. -/
def WhileQuerier (vif : Vif) (before : Daemon × Membership.Count) (event : Event) : Prop :=
  Igmp event ∧ (before.1.myvifs vif).querier = 0

instance (vif : Vif) (before : Daemon × Membership.Count) (event : Event) :
    Decidable (WhileQuerier vif before event) := inferInstanceAs (Decidable (_ ∧ _))

theorem countLeave_refines {sent : Nat} {count : Membership.Count}
    (refines : Refines host vif group s event s' sent) :
    countLeave host vif group s event s' count = count.next sent (stimulus host vif group s event) := by
  unfold countLeave
  by_cases here : onVif host s event = vif
  · rw [if_pos here, refines.asked here, Nat.add_sub_cancel_left]
  · have other : stimulus host vif group s event = .other :=
      not_not.mp fun about => here (onVif_of_stimulus about)
    have moves := refines.moves
    rw [other] at moves
    cases moves with
    | other same none => rw [if_neg here, other]

/-- While the router is querier the phase of the record counts the timers since the last leave. -/
structure LeaveCounted (vif : Vif) (group : Addr) (state : Daemon × Membership.Count) : Prop where
  kept : GroupsKept state.1
  phased : (state.1.myvifs vif).querier = 0 → (membership state.1 vif group).Phased state.2

theorem step_leaveCounted (zero : host.ZeroFilled) {before after : Daemon × Membership.Count}
    (counted : LeaveCounted vif group before) (may : WhileQuerier vif before event)
    (taken : Monitored (Step host) (countLeave host vif group) before event after) :
    LeaveCounted vif group after := by
  obtain ⟨kept, each⟩ := step_refines zero counted.kept may.1 taken.1
  obtain ⟨sent, refines⟩ := each vif group
  refine ⟨kept, fun own => ?_⟩
  rw [taken.2, countLeave_refines refines]
  refine refines.moves.phased (counted.phased may.2) (fun timer expires => pending_of_stimulus expires) ?_
  exact fun query => waits_of_query counted.kept query taken.1 own

theorem reachable_leaveCounted (zero : host.ZeroFilled) {reached : Daemon × Membership.Count}
    (run : ReachableWith host (countLeave host vif group) ⟨none, 0⟩ (WhileQuerier vif) reached) :
    LeaveCounted vif group reached := by
  obtain ⟨start, started, steps⟩ := run
  refine steps.keeps ⟨start_kept started, fun _ timer pending => ?_⟩
    fun _ _ _ counted may taken => step_leaveCounted zero counted may taken
  exact absurd pending (start_unleft started vif group timer)

/-- The timers that take a group away. -/
def leaveTimers (s : Daemon) (vif : Vif) (group : Addr) : List (Int × Callback) :=
  (alarms s).filter fun entry => entry.2 == .leaveQuery vif group

/-- At most one timer is pending for the group, the one its record names. -/
theorem leaveTimers_of_tracked (kept : GroupsKept s) (tracked : (membership s vif group).Tracked) :
    leaveTimers s vif group = [] ∨ ∃ record g, Listed s (table s) vif group record g ∧
      leaveTimers s vif group = [(g.leaveQuery, .leaveQuery vif group)] := by
  have pending : ∀ entry ∈ leaveTimers s vif group,
      entry.2 = .leaveQuery vif group ∧ (membership s vif group).pending entry.1 := by
    intro entry member
    obtain ⟨inside, calls⟩ := List.mem_filter.mp member
    have func := eq_of_beq calls
    refine ⟨func, ?_⟩
    show (entry.1, Callback.leaveQuery vif group) ∈ alarms s
    rw [← func]
    exact inside
  have distinct : (leaveTimers s vif group).Nodup := (List.Nodup.of_map _ kept.orderly.distinct).filter _
  cases timers : leaveTimers s vif group with
  | nil => exact Or.inl rfl
  | cons first rest =>
      obtain ⟨func, waits⟩ := pending first (by rw [timers]; exact List.mem_cons_self ..)
      rcases kept.models.lookup_group vif group with ⟨absent, _⟩ | ⟨record, g, listed, _, _⟩
      · exact absurd waits (tracked.none (membership_absent absent) first.1)
      have known := membership_listed listed
      have here : first = (g.leaveQuery, .leaveQuery vif group) := by
        rw [← tracked.id_eq known waits, ← func]
      refine Or.inr ⟨record, g, listed, ?_⟩
      cases rest with
      | nil => rw [here]
      | cons second more =>
          obtain ⟨func', waits'⟩ := pending second (by simp [timers])
          have again : second = first := by
            rw [here, ← tracked.id_eq known waits', ← func']
          rw [timers, again] at distinct
          simp at distinct

/-- While a router is querier on an interface, an event takes a group out of its list if and
only if it is the third timer of the group since the last leave, without a report in between.
Two queries for the group were sent since that leave.  After a report no timer is left, and at
any time at most one is, which the record of the group names. -/
theorem last_member_removed (zero : host.ZeroFilled) {before after : Daemon × Membership.Count}
    (run : ReachableWith host (countLeave host vif group) ⟨none, 0⟩ (WhileQuerier vif) before)
    (may : WhileQuerier vif before event)
    (taken : Monitored (Step host) (countLeave host vif group) before event after)
    (own : (after.1.myvifs vif).querier = 0) :
    ((table before.1).HasMember vif group ∧ ¬ (table after.1).HasMember vif group ↔
      (∃ timer, stimulus host vif group before.1 event = .expiry timer) ∧ after.2.since = some 3) ∧
    ((table before.1).HasMember vif group → ¬ (table after.1).HasMember vif group → after.2.asked = 2) ∧
    (ReportOn host vif group event → leaveTimers after.1 vif group = []) ∧
    (leaveTimers after.1 vif group = [] ∨ ∃ record g, Listed after.1 (table after.1) vif group record g ∧
      leaveTimers after.1 vif group = [(g.leaveQuery, .leaveQuery vif group)]) := by
  have counted := reachable_leaveCounted zero run
  have later := step_leaveCounted zero counted may taken
  have phased := counted.phased may.2
  obtain ⟨_, each⟩ := step_refines zero counted.kept may.1 taken.1
  obtain ⟨sent, refines⟩ := each vif group
  have count := taken.2.trans (countLeave_refines refines)
  have expired : ∀ timer, stimulus host vif group before.1 event = .expiry timer →
      (membership before.1 vif group).pending timer := fun timer expires => pending_of_stimulus expires
  have gone : ¬ (table after.1).HasMember vif group ↔ (membership after.1 vif group).record = none := by
    rw [hasMember_iff_record later.kept, not_not]
  refine ⟨?_, ?_, ?_, leaveTimers_of_tracked later.kept (later.phased own).tracked⟩
  · rw [hasMember_iff_record counted.kept, gone, refines.moves.removes_iff phased expired, count]
    constructor
    · rintro ⟨timer, expires, three⟩
      exact ⟨⟨timer, expires⟩, three⟩
    · rintro ⟨⟨timer, expires⟩, three⟩
      exact ⟨timer, expires, three⟩
  · intro listed removed
    rw [count]
    exact refines.moves.asked_twice phased expired ((hasMember_iff_record counted.kept vif group).mp listed)
      (gone.mp removed)
  · intro report
    have moves := refines.moves
    rw [stimulus_of_report report] at moves
    refine List.eq_nil_iff_forall_not_mem.mpr fun entry member => ?_
    obtain ⟨inside, calls⟩ := List.mem_filter.mp member
    refine (moves.settled phased.tracked).2 entry.1 ?_
    show (entry.1, Callback.leaveQuery vif group) ∈ alarms after.1
    rw [← eq_of_beq calls]
    exact inside

/-- Ten seconds, and three timers. -/
def tenSeconds : List Event := [.age 10, .expire 0, .expire 0, .expire 0]

theorem last_member_removed_session :
    ∃ before after : Daemon × Membership.Count, (table before.1).HasMember 1 channel ∧
      ((table before.1).HasMember 1 channel ∧ ¬ (table after.1).HasMember 1 channel ↔
        (∃ timer, stimulus loneRouter 1 channel before.1 (.expire 0) = .expiry timer) ∧
          after.2.since = some 3) ∧
      ((table before.1).HasMember 1 channel → ¬ (table after.1).HasMember 1 channel →
        after.2.asked = 2) ∧
      (ReportOn loneRouter 1 channel (.expire 0) → leaveTimers after.1 1 channel = []) ∧
      (leaveTimers after.1 1 channel = [] ∨
        ∃ record g, Listed after.1 (table after.1) 1 channel record g ∧
          leaveTimers after.1 1 channel = [(g.leaveQuery, .leaveQuery 1 channel)]) := by
  have passed : endsWithEvent loneRouter (countLeave loneRouter 1 channel) (WhileQuerier 1) ⟨none, 0⟩
      ([.acceptGroupReport (stationOn 1 5) channel, .acceptLeaveMessage (stationOn 1 5) channel] ++
        tenSeconds ++ tenSeconds ++ tenSeconds) (.expire 0)
      (fun before after => decide ((table before.1).HasMember 1 channel ∧
        (after.1.myvifs 1).querier = 0 ∧ after.2 = ⟨some 3, 2⟩)) = true := by
    decide +kernel
  obtain ⟨before, after, run, may, taken, ends⟩ := step_of_endsWithEvent passed
  obtain ⟨listed, own, _⟩ := of_decide_eq_true ends
  exact ⟨before, after, listed, last_member_removed loneRouter_zeroFilled run may taken own⟩

/-! ## Any order of roles -/

/-- A query that the router hears while another is querier finds no timer of its group. -/
def FindsNoTimer (host : Host) (vif : Vif) (group : Addr) (s : Daemon) (event : Event) : Prop :=
  stimulus host vif group s event = .query → leaveTimers s vif group = []

instance (host : Host) (vif : Vif) (group : Addr) (s : Daemon) (event : Event) :
    Decidable (FindsNoTimer host vif group s event) := inferInstanceAs (Decidable (_ → _))

/-- The event is neither a leave nor a group-specific query for the group on the interface. -/
def NotAgainst (host : Host) (vif : Vif) (group : Addr) (event : Event) : Prop :=
  Igmp event ∧ ¬ LeaveOn host vif group event ∧ ¬ QueryOn host vif group event

instance (host : Host) (vif : Vif) (group : Addr) (event : Event) :
    Decidable (NotAgainst host vif group event) := inferInstanceAs (Decidable (_ ∧ _ ∧ _))

theorem reachable_tracked (zero : host.ZeroFilled)
    (reached : Reachable host (fun s event => Igmp event ∧ FindsNoTimer host vif group s event) s) :
    GroupsKept s ∧ (membership s vif group).Tracked := by
  obtain ⟨start, started, run⟩ := reached
  refine run.keeps (P := fun state => GroupsKept state ∧ (membership state vif group).Tracked)
    ⟨start_kept started, fun timer pending => absurd pending (start_unleft started vif group timer)⟩ ?_
  rintro before event after ⟨kept, tracked⟩ ⟨igmp, free⟩ taken
  obtain ⟨still, each⟩ := step_refines zero kept igmp taken
  obtain ⟨sent, refines⟩ := each vif group
  refine ⟨still, refines.moves.tracked tracked (fun timer expires => pending_of_stimulus expires) ?_⟩
  intro query timer pending
  have inside : (timer, .leaveQuery vif group) ∈ leaveTimers before vif group :=
    List.mem_filter.mpr ⟨pending, by simp⟩
  rw [free query] at inside
  exact List.not_mem_nil inside

/-- A settled group is in the list, and stays settled without leaves and queries for it. -/
theorem settled_stays (zero : host.ZeroFilled) (other : ∀ record, (host.freedGroup record).address ≠ group)
    (kept : GroupsKept s) (settled : (membership s vif group).Settled)
    (run : Reaches (Step host) (fun _ => NotAgainst host vif group) s later) :
    (table later).HasMember vif group ∧ leavesTold vif group later = leavesTold vif group s := by
  have invariant : GroupsKept later ∧ (membership later vif group).Settled ∧
      leavesTold vif group later = leavesTold vif group s := by
    refine run.keeps (P := fun state => GroupsKept state ∧ (membership state vif group).Settled ∧
      leavesTold vif group state = leavesTold vif group s) ⟨kept, settled, rfl⟩ ?_
    rintro before event after ⟨kept, settled, told⟩ ⟨igmp, noLeave, noQuery⟩ taken
    obtain ⟨still, each⟩ := step_refines zero kept igmp taken
    obtain ⟨sent, refines⟩ := each vif group
    refine ⟨still, refines.moves.keeps_settled settled (fun timer expires => pending_of_stimulus expires)
      (stimulus_without_leave noLeave) (stimulus_without_query noQuery), ?_⟩
    rcases refines.told with same | ⟨timer, expires⟩ | ⟨record, same⟩
    · exact same.trans told
    · exact absurd (pending_of_stimulus expires) (settled.2 timer)
    · exact absurd same (other record)
  obtain ⟨kept, settled, told⟩ := invariant
  exact ⟨(hasMember_iff_record kept vif group).mpr settled.1, told⟩

/-- In a run of IGMP messages and timers in which no query that the router hears as a
non-querier finds a timer of the group pending, a reported group stays in the list until
somebody leaves it or asks for it, and `del_leaf` is not called for it. -/
theorem reported_group_stays (zero : host.ZeroFilled)
    (other : ∀ record, (host.freedGroup record).address ≠ group)
    (reached : Reachable host (fun s event => Igmp event ∧ FindsNoTimer host vif group s event) s)
    (report : ReportOn host vif group event) (taken : Step host s event s')
    (run : Reaches (Step host) (fun _ => NotAgainst host vif group) s' later) :
    (table later).HasMember vif group ∧ leavesTold vif group later = leavesTold vif group s' := by
  obtain ⟨kept, tracked⟩ := reachable_tracked zero reached
  have igmp : Igmp event := by
    cases event with
    | acceptGroupReport src reported => trivial
    | _ => exact report.elim
  obtain ⟨still, each⟩ := step_refines zero kept igmp taken
  obtain ⟨sent, refines⟩ := each vif group
  have moves := refines.moves
  rw [stimulus_of_report report] at moves
  exact settled_stays zero other still (moves.settled tracked) run

theorem loneRouter_freed (record : Ptr) : (loneRouter.freedGroup record).address ≠ channel := by
  show IgmpGroup.zero.address ≠ channel
  decide

theorem reported_group_stays_session :
    ∃ s s' later, Step loneRouter s (.acceptGroupReport (stationOn 1 5) channel) s' ∧
      (table later).HasMember 1 channel ∧ leavesTold 1 channel later = leavesTold 1 channel s' := by
  have passed : branchEndsWith loneRouter
      (fun s event => Igmp event ∧ FindsNoTimer loneRouter 1 channel s event)
      (fun _ => NotAgainst loneRouter 1 channel)
      [.acceptGroupReport (stationOn 1 5) channel, .acceptMembershipQuery (stationOn 1 2) channel, .age 5,
        .expire 0]
      (.acceptGroupReport (stationOn 1 5) channel)
      [.age 25, .expire 0, .expire 0]
      (fun _ _ _ => true) = true := by
    decide +kernel
  obtain ⟨s, s', later, reached, taken, run, _⟩ := runs_of_branchEndsWith passed
  have report : ReportOn loneRouter 1 channel (.acceptGroupReport (stationOn 1 5) channel) :=
    ⟨by decide, by decide, rfl⟩
  exact ⟨s, s', later, taken,
    reported_group_stays loneRouter_zeroFilled loneRouter_freed reached report taken run⟩

/-- A router that is not querier hears two queries for a group.  The report that answers
the second stops the timer of the second, and the timer of the first takes the group away. -/
theorem reported_group_removed :
    ¬ ∀ host : Host, host.ZeroFilled → ∀ vif group,
      (∀ record, (host.freedGroup record).address ≠ group) →
        ∀ s event s' later, Reachable host (fun _ => Igmp) s → ReportOn host vif group event →
          Step host s event s' → Reaches (Step host) (fun _ => NotAgainst host vif group) s' later →
            (table later).HasMember vif group ∧ leavesTold vif group later = leavesTold vif group s' := by
  intro stays
  have passed : branchEndsWith loneRouter (fun _ => Igmp) (fun _ => NotAgainst loneRouter 1 channel)
      [.acceptGroupReport (stationOn 1 5) channel, .acceptMembershipQuery (stationOn 1 2) channel, .age 20,
        .expire 0, .acceptMembershipQuery (stationOn 1 2) channel]
      (.acceptGroupReport (stationOn 1 5) channel)
      [.age 10, .expire 0, .expire 0, .expire 0]
      (fun _ _ later => decide (¬ (table later).HasMember 1 channel)) = true := by
    decide +kernel
  obtain ⟨s, s', later, reached, taken, run, gone⟩ := runs_of_branchEndsWith passed
  have report : ReportOn loneRouter 1 channel (.acceptGroupReport (stationOn 1 5) channel) :=
    ⟨by decide, by decide, rfl⟩
  obtain ⟨listed, _⟩ := stays loneRouter loneRouter_zeroFilled 1 channel loneRouter_freed s _ s' later
    reached report taken run
  exact of_decide_eq_true gone listed

end PimDm.Property
