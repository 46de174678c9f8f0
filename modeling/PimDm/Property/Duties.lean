import PimDm.Foundation.Reign
import PimDm.Property.Heartbeat
import PimDm.Property.SmallestQuerier

/-!
# The role of an interface in every event

The querier of an interface and the timer of its role change when a query is heard on it and when
the timer is called.  No other event touches them.
-/

namespace PimDm.Property

open PimDm.Foundation PimDm.Source PimDm.Effect PimDm.Refinement

variable {host : Host} {vif : Vif} {s s' : Daemon} {event : Event} {now : Int} {duty : Duty Addr}

/-! ## What an interface does -/

/-- The fields of an interface that hold its role. -/
def roleOf (myv : Myvif) : Addr × Int × Int := (myv.querier, myv.igmpQuerytimerId, myv.querierRetryId)

/-- The interface asks, or waits for the silence of another router, with the one timer for that. -/
inductive Plays (vif : Vif) (now : Int) (s : Daemon) : Duty Addr → Prop where
  | asks {due : Int} (own : (s.myvifs vif).querier = 0)
      (only : roleTimers s vif = [((s.myvifs vif).igmpQuerytimerId, .sendQuery vif)])
      (pending : (due, (s.myvifs vif).igmpQuerytimerId, .sendQuery vif) ∈ agenda now s) : Plays vif now s (.asks due)
  | waits {other : Addr} {due : Int} (somebody : other ≠ 0) (named : (s.myvifs vif).querier = other)
      (only : roleTimers s vif = [((s.myvifs vif).querierRetryId, .retryQuery vif)])
      (pending : (due, (s.myvifs vif).querierRetryId, .retryQuery vif) ∈ agenda now s) :
      Plays vif now s (.waits other due)

/-- The timer of a role, with the time it is due. -/
theorem Plays.timer (plays : Plays vif now s duty) :
    ∃ entry, roleTimers s vif = [entry] ∧ (duty.due, entry) ∈ agenda now s := by
  cases plays with
  | asks own only pending => exact ⟨_, only, pending⟩
  | waits somebody named only pending => exact ⟨_, only, pending⟩

/-- The role of an interface and its timers are as before. -/
structure RoleKept (vif : Vif) (s s' : Daemon) : Prop where
  fields : roleOf (s'.myvifs vif) = roleOf (s.myvifs vif)
  stays : ∀ now, ∀ entry ∈ agenda now s, holdsRole vif entry.2 = true → entry ∈ agenda now s'
  old : ∀ entry ∈ alarms s', holdsRole vif entry = true → entry ∈ alarms s

theorem steady_roleKept (vif : Vif) : Steady (RoleKept vif) where
  refl _ := ⟨rfl, fun _ _ member _ => member, fun _ member _ => member⟩
  trans left right :=
    ⟨right.fields.trans left.fields,
      fun now entry member role => right.stays now entry (left.stays now entry member role) role,
      fun entry member role => left.old entry (right.old entry member role) role⟩

theorem RoleKept.timers (kept : RoleKept vif s s') (before : Orderly s) (after : Orderly s') :
    (roleTimers s' vif).Perm (roleTimers s vif) := by
  refine (List.perm_ext_iff_of_nodup (nodup_roleTimers after vif) (nodup_roleTimers before vif)).mpr fun entry => ?_
  rw [mem_roleTimers, mem_roleTimers]
  constructor
  · rintro ⟨pending, role⟩
    exact ⟨kept.old entry pending role, role⟩
  · rintro ⟨pending, role⟩
    obtain ⟨time, member⟩ := agenda_of_mem_alarms 0 pending
    exact ⟨mem_alarms_of_agenda (kept.stays 0 _ member role), role⟩

theorem Plays.keep (plays : Plays vif now s duty) (kept : RoleKept vif s s') (before : Orderly s) (after : Orderly s') :
    Plays vif now s' duty := by
  have timers := kept.timers before after
  obtain ⟨querier, timerIds⟩ := Prod.mk.inj kept.fields
  obtain ⟨query, retry⟩ := Prod.mk.inj timerIds
  cases plays with
  | asks own only pending =>
      have inside := kept.stays now _ pending (by rw [holdsRole_send, decide_eq_true rfl])
      rw [only] at timers
      rw [← query] at inside timers
      exact .asks (querier.trans own) (List.perm_singleton.mp timers) inside
  | waits somebody named only pending =>
      have inside := kept.stays now _ pending (by rw [holdsRole_retry, decide_eq_true rfl])
      rw [only] at timers
      rw [← retry] at inside timers
      exact .waits somebody (querier.trans named) (List.perm_singleton.mp timers) inside

/-! ## Events elsewhere -/

theorem roleOn_iff {func : Callback} (timer : Int) : holdsRole vif (timer, func) = true ↔ RoleOn vif func := by
  rw [holdsRole, Bool.or_eq_true, beq_iff_eq, beq_iff_eq]
  exact Iff.rfl

theorem role_of_roleOn {func : Callback} (role : RoleOn vif func) : Role func := by
  rcases role with rfl | rfl
  · exact trivial
  · exact trivial

/-- A query is heard on the interface, or the timer of its role is called. -/
def ElectsOn (host : Host) (s : Daemon) (vif : Vif) : Event → Prop
  | .acceptMembershipQuery src _ => isLocalAddress host src = 0 ∧ findVifDirect host src = vif
  | .expire pktcnt => ∃ func, called s (.expire pktcnt) = some func ∧ RoleOn vif func
  | _ => False

/-- An update that is not of a role leaves the fields of all roles. -/
theorem keepsRoles_fields {update : Update} (keeps : update.KeepsRoles) (s : Daemon) (vif : Vif) :
    roleOf ((update.apply s).myvifs vif) = roleOf (s.myvifs vif) := by
  have store : ∀ other content, roleOf content = roleOf (s.myvifs other) →
      roleOf (Function.update s.myvifs other content vif) = roleOf (s.myvifs vif) := by
    intro other content same
    by_cases here : vif = other
    · rw [here, Function.update_self]
      exact same
    · rw [Function.update_of_ne here]
  cases update with
  | querier other write kept => exact keeps.elim
  | clearTimer timer => rw [Update.apply, clearTimer_myvifs]
  | linkGroup other record => exact store other _ rfl
  | groupHead other record => exact store other _ rfl
  | linkNeighbor other entry => exact store other _ rfl
  | neighborHead other entry => exact store other _ rfl
  | _ => rfl

theorem beside_fields {level : Level} {A : Callback → Prop} (done : Does Update.apply (HandlesBeside level A) s s')
    (vif : Vif) : roleOf (s'.myvifs vif) = roleOf (s.myvifs vif) :=
  does_relates (R := fun first last => roleOf (last.myvifs vif) = roleOf (first.myvifs vif))
    (steady_same fun state : Daemon => roleOf (state.myvifs vif))
    (fun _ state inside => keepsRoles_fields inside.2.2 state vif) done

/-- An event that does not elect sets no timer of a role. -/
theorem beside_old {level : Level} (done : Does Update.apply (HandlesBeside level fun func => ¬ Role func) s s')
    {entry : Int × Callback} (pending : entry ∈ alarms s') (role : holdsRole vif entry = true) : entry ∈ alarms s := by
  have changes : Changes level (fun func => ¬ Role func) s s' := does_mono (fun _ inside => inside.1) done
  rcases (sets_of_changes changes).old_or_new entry pending with old | ⟨_, _, other⟩
  · exact old
  · exact absurd (role_of_roleOn ((roleOn_iff entry.1).mp role)) other

/-- Waiting for reports of a group leaves all roles. -/
theorem expectReports_roleKept (other : Vif) (group : Addr) :
    Within (RoleKept vif) (forGroups other (expectReport other group)) := by
  have steady := steady_roleKept vif
  refine within_bind steady (within_get steady) fun state => within_forEach steady (fun g => ?_) _ _
  intro start _ final run
  obtain ⟨record, _, load, deciding⟩ := runs_bind.mp run
  rw [(runs_loadGroup.mp load).2] at deciding
  rcases runs_onlyIf.mp deciding with ⟨_, arming⟩ | ⟨_, rfl⟩
  · obtain ⟨timer, _, arm, store⟩ := runs_bind.mp arming
    obtain ⟨rfl, rfl⟩ := runs_timerSetTimer.mp arm
    obtain ⟨_, rfl⟩ := runs_storeGroup.mp store
    refine ⟨rfl, fun now entry member _ => mem_agenda_setTimer.mpr (Or.inr member), fun entry member role => ?_⟩
    rcases List.mem_cons.mp ((alarms_setTimer start (igmpQueryTime * 2 + 10)
      (.leaveQuery other group)).subset member) with
      rfl | before
    · rcases (roleOn_iff _).mp role with send | retry
      · cases send
      · cases retry
    · exact before
  · exact steady.refl _

/-- What is pending for a role after a query was pending before, but for the one timer it sets. -/
theorem hears_old {src : Addr} {other : Vif} (hears : Hears host src other s s') {entry : Int × Callback}
    (pending : entry ∈ alarms s') : entry ∈ alarms s ∨ entry.2 = .retryQuery other := by
  have once : ∀ (state : Daemon) (old : Int) (querier : Addr) (query : Int),
      entry ∈ alarms (awaiting state other old querier query) → entry ∈ alarms state ∨ entry.2 = .retryQuery other := by
    intro state old querier query member
    rcases List.mem_cons.mp ((alarms_setTimer (state.clearTimer old) igmpQuerierTimeout
      (.retryQuery other)).subset member)
      with rfl | before
    · exact Or.inr rfl
    · exact Or.inl ((alarms_clearTimer state old).subset before)
  cases hears with
  | ignored own larger => exact Or.inl pending
  | deferred own smaller => exact once _ _ _ _ pending
  | renewed waits later => exact once _ _ _ _ pending
  | yielded waits smaller =>
      rcases once _ _ _ _ pending with before | new
      · exact once _ _ _ _ before
      · exact Or.inr new

/-- A timer that an event may clear is of a role only if it is heard there. -/
theorem mayCancel_role {func : Callback} (may : MayCancel host s event func) (role : RoleOn vif func) :
    ∃ src group, event = .acceptMembershipQuery src group ∧ findVifDirect host src = vif := by
  have clears := may.clears
  rcases role with rfl | rfl
  · exact clears
  · exact clears

/-- The timer that is called is not of the role, so the role is as before when it is off the batch. -/
theorem begun_roleKept (elsewhere : ¬ ElectsOn host s vif event) : RoleKept vif s (begun s event) := by
  unfold begun
  split
  · rename_i func calls
    refine ⟨rfl, fun now entry member role => ?_, fun entry member _ => (alarms_popExpired s).subset member⟩
    cases event with
    | expire pktcnt =>
        obtain ⟨ptr, rest, batch, same⟩ := called_batch calls
        rw [agenda_popExpired batch] at member
        refine (List.mem_cons.mp member).resolve_left fun first => elsewhere ⟨func, calls, ?_⟩
        rw [first] at role
        rw [← same]
        exact (roleOn_iff _).mp role
    | _ => cases calls
  · exact (steady_roleKept vif).refl s

theorem begun_fields (s : Daemon) (event : Event) (vif : Vif) : (begun s event).myvifs vif = s.myvifs vif := by
  unfold begun
  split
  · rfl
  · rfl

/-- An event that takes no time leaves a role, unless a query is heard there or its timer is called. -/
theorem handle_roleKept (zero : host.ZeroFilled) (owned : Owned s) (passes : ∀ elapsedTime, event ≠ .age elapsedTime)
    (elsewhere : ¬ ElectsOn host s vif event) (run : Runs (handle host event) s () s') : RoleKept vif s s' := by
  have first := begun_roleKept elsewhere
  have stays : ∀ now, ∀ entry ∈ agenda now s, holdsRole vif entry.2 = true →
      ¬ MayCancel host s event entry.2.2 → entry ∈ agenda now s' := fun now entry member role other =>
    (handle_tends zero passes run).stays (begun_owned owned event) now entry (first.stays now entry member role) other
  by_cases elects : Elects s event
  · cases event with
    | acceptMembershipQuery src group =>
        rcases acceptMembershipQuery_hears run with ⟨_, rfl⟩ | ⟨⟨foreign, _⟩, middle, hears, expect⟩
        · exact (steady_roleKept vif).refl _
        have different : vif ≠ findVifDirect host src := fun same => elsewhere ⟨foreign, same.symm⟩
        have later : RoleKept vif middle s' := within_onlyIf (steady_roleKept vif)
          (fun _ => expectReports_roleKept _ group) middle () s' expect
        refine ⟨?_, fun now entry member role => stays now entry member role fun may => ?_, fun entry member role => ?_⟩
        · rw [later.fields, hears_elsewhere different hears]
        · obtain ⟨_, _, same, here⟩ := mayCancel_role may ((roleOn_iff _).mp role)
          cases same
          exact different here.symm
        · rcases hears_old hears (later.old entry member role) with old | new
          · exact old
          · rcases (roleOn_iff entry.1).mp role with send | retry
            · rw [new] at send
              cases send
            · rw [new] at retry
              exact absurd (Callback.retryQuery.inj retry).symm different
    | expire pktcnt =>
        obtain ⟨func, calls, role⟩ := elects
        have asks : ∀ other, func = .sendQuery other ∨ func = .retryQuery other → vif ≠ other := by
          rintro other which rfl
          exact elsewhere ⟨func, calls, which⟩
        have asked : ∀ other, vif ≠ other → Runs (startQuerying host other) s.popExpired () s' → RoleKept vif s s' := by
          intro other different asks
          obtain rfl := runs_startQuerying.mp asks
          have popped : RoleKept vif s s.popExpired := by
            rwa [begun, calls] at first
          refine (steady_roleKept vif).trans popped ⟨?_, fun now entry member _ => ?_, fun entry member holds => ?_⟩
          · have same : (asking s.popExpired other).myvifs vif = s.popExpired.myvifs vif := setMyvif_other different ..
            exact congrArg roleOf same
          · exact mem_agenda_setTimer.mpr (Or.inr member)
          · rcases List.mem_cons.mp ((alarms_setTimer s.popExpired igmpQueryTime (.sendQuery other)).subset member) with
              rfl | before
            · rcases (roleOn_iff _).mp holds with send | retry
              · exact absurd (Callback.sendQuery.inj send).symm different
              · cases retry
            · exact before
        have call := runs_called calls run
        cases func with
        | sendQuery other => exact asked other (asks other (Or.inl rfl)) call
        | retryQuery other => exact asked other (asks other (Or.inr rfl)) call
        | _ => exact role.elim
    | _ => exact elects.elim
  · have done : Does Update.apply (HandlesBeside (eventLevel s event) fun func => ¬ Role func) (begun s event) s' :=
      handle_from_begun_beside (fun may => absurd may elects) passes (Nat.le_refl _) (maySetBeside_roles elects) run
    refine ⟨?_, fun now entry member role => stays now entry member role fun may => ?_, fun entry member role => ?_⟩
    · rw [beside_fields done, begun_fields]
    · obtain ⟨_, _, rfl, _⟩ := mayCancel_role may ((roleOn_iff _).mp role)
      exact elects trivial
    · exact first.old entry (beside_old done member role) role

/-! ## Events of the role -/

/-- Queriers are elected by their addresses, ask every 10 seconds and are waited for 310 seconds. -/
def querying : Custom Addr Nat := ⟨addressRank, igmpQueryTime, igmpQuerierTimeout⟩

theorem asking_plays (none : roleTimers s vif = []) (now : Int) :
    Plays vif now (asking s vif) (.asks (now + igmpQueryTime)) := by
  have timers := roleTimers_setTimer_self s vif (.sendQuery vif) (fun id => by simp [holdsRole_send]) igmpQueryTime
  rw [none] at timers
  refine .asks ?_ ?_ ?_
  · rw [asking, setMyvif_self]
  · rw [asking, setMyvif_self]
    exact List.perm_singleton.mp timers
  · rw [asking, setMyvif_self]
    exact mem_agenda_setTimer.mpr (Or.inl rfl)

theorem awaiting_plays (orderly : Orderly s) (idle : s.expired = []) {old : Int} {func : Callback}
    (only : roleTimers s vif = [(old, func)]) {querier : Addr} (somebody : querier ≠ 0) (query now : Int) :
    Plays vif now (awaiting s vif old querier query) (.waits querier (now + igmpQuerierTimeout)) := by
  refine .waits somebody ?_ ?_ ?_
  · rw [awaiting, setMyvif_self]
  · rw [awaiting_timers orderly idle only, awaiting, setMyvif_self]
  · rw [awaiting, setMyvif_self]
    have armed : (now + igmpQuerierTimeout, (s.clearTimer old).id + 1, .retryQuery vif) ∈
        agenda now ((s.clearTimer old).setTimer igmpQuerierTimeout (.retryQuery vif)) :=
          mem_agenda_setTimer.mpr (Or.inl rfl)
    rwa [clearTimer_id] at armed

/-- What is heard on an interface. -/
theorem hears_plays (orderly : Orderly s) (idle : s.expired = []) (plays : Plays vif now s duty) {src : Addr}
    (somebody : src ≠ 0) (hears : Hears host src vif s s') :
    Plays vif now s' (querying.hear now (host.iface vif).address src duty) := by
  cases plays with
  | asks own only pending =>
      rw [Custom.hear]
      cases hears with
      | ignored _ larger =>
          rw [if_neg (show ¬ querying.rank src < querying.rank _ from larger)]
          exact .asks own only pending
      | deferred _ smaller =>
          rw [if_pos (show querying.rank src < querying.rank _ from smaller)]
          exact awaiting_plays orderly idle only somebody 0 now
      | renewed waits later => exact absurd own waits
      | yielded waits smaller => exact absurd own waits
  | waits else_ named only pending =>
      subst named
      rw [Custom.hear]
      cases hears with
      | ignored own larger => exact absurd own else_
      | deferred own smaller => exact absurd own else_
      | renewed _ later =>
          have still : (if querying.rank src < querying.rank (s.myvifs vif).querier then src
              else (s.myvifs vif).querier) = (s.myvifs vif).querier := by
            rcases later with same | larger
            · rw [same, ite_self]
            · exact if_neg larger
          rw [still]
          exact awaiting_plays orderly idle only else_ _ now
      | yielded _ smaller =>
          rw [if_pos (show querying.rank src < querying.rank _ from smaller)]
          have once := orderly_awaiting orderly vif (s.myvifs vif).querierRetryId (s.myvifs vif).querier
            (s.myvifs vif).igmpQuerytimerId
          refine awaiting_plays once ?_ (awaiting_timers orderly idle only _ _) somebody _ now
          rw [awaiting_expired, idle]

theorem query_plays (orderly : Orderly s) (idle : s.expired = []) (plays : Plays vif now s duty) {src group : Addr}
    (somebody : src ≠ 0) (foreign : isLocalAddress host src = 0) (near : findVifDirect host src ≠ 0)
    (direct : findVifDirect host src = vif) (run : Runs (acceptMembershipQuery host src group) s () s') :
    Plays vif now s' (querying.hear now (host.iface vif).address src duty) := by
  subst direct
  rcases acceptMembershipQuery_hears run with ⟨ours | far, _⟩ | ⟨_, middle, hears, expect⟩
  · exact absurd foreign ours
  · exact absurd far near
  have heard := hears_plays orderly idle plays somebody hears
  have kept : RoleKept (findVifDirect host src) middle s' := within_onlyIf (steady_roleKept _)
    (fun _ => expectReports_roleKept _ group) middle () s' expect
  have between : Orderly middle := by
    cases hears with
    | ignored own larger => exact orderly
    | deferred own smaller => exact orderly_awaiting orderly _ _ _ _
    | renewed waits later => exact orderly_awaiting orderly _ _ _ _
    | yielded waits smaller => exact orderly_awaiting (orderly_awaiting orderly _ _ _ _) _ _ _ _
  have event : Runs (handle host (.acceptMembershipQuery src group)) s () s' := run
  exact heard.keep kept between (orderly_of_changes (handle_anything event) orderly)

/-- Two timers with one id are one timer. -/
theorem agenda_unique (orderly : Orderly s) {first second : Int × Int × Callback} (one : first ∈ agenda now s)
    (two : second ∈ agenda now s) (same : first.2.1 = second.2.1) : first = second := by
  have distinct : ((agenda now s).map fun entry => entry.2.1).Nodup := by
    have ids : (agenda now s).map (fun entry => entry.2.1) = (alarms s).map Prod.fst := by
      rw [← agenda_alarms now, List.map_map]
      rfl
    rw [ids]
    exact orderly.distinct
  exact List.inj_on_of_nodup_map distinct one two same

/-- The timer of the role is called, and the interface asks. -/
theorem called_plays (orderly : Orderly s) (plays : Plays vif now s duty) {pktcnt : Int} {func : Callback}
    (calls : called s (.expire pktcnt) = some func) (role : RoleOn vif func)
    (run : Runs (handle host (.expire pktcnt)) s () s') : duty.due = now ∧
      Plays vif now s' (.asks (now + igmpQueryTime)) ∧
      s'.trace = .igmp (host.iface vif).address allhosts igmpMembershipQuery 100 0 :: s.trace := by
  obtain ⟨ptr, rest, batch, same⟩ := called_batch calls
  obtain ⟨entry, only, pending⟩ := plays.timer
  have held : holdsRole vif (alarm ptr) = true := by
    refine (roleOn_iff _).mpr ?_
    rwa [same]
  have first : alarm ptr ∈ roleTimers s vif := mem_roleTimers.mpr ⟨alarm_mem_of_batch batch, held⟩
  rw [only, List.mem_singleton] at first
  have alone : roleTimers s.popExpired vif = [] := by
    have timers := roleTimers_popExpired batch vif
    rw [if_pos held, only] at timers
    exact (List.cons.inj timers).2.symm
  have due : duty.due = now := by
    have front : (now, alarm ptr) ∈ agenda now s := by
      rw [agenda_popExpired batch]
      exact List.mem_cons_self
    exact congrArg Prod.fst (agenda_unique orderly pending front (by rw [first]))
  have call := runs_called calls run
  have asks : Runs (startQuerying host vif) s.popExpired () s' := by
    rcases role with rfl | rfl
    · exact call
    · exact call
  obtain rfl := runs_startQuerying.mp asks
  have plays := asking_plays (s := s.popExpired) alone now
  refine ⟨due, ?_, rfl⟩
  cases plays with
  | asks own timers member => exact .asks own timers member

/-- Time passes, and the timer of the role is not overdue. -/
theorem aged_plays (idle : s.expired = []) (plays : Plays vif now s duty) {elapsedTime : Nat}
    (punctual : OnTime s now (.age elapsedTime)) : Plays vif (now + elapsedTime) (s.age elapsedTime) duty := by
  have same : roleTimers (s.age elapsedTime) vif = roleTimers s vif := by
    rw [roleTimers, alarms_age_idle idle, roleTimers]
  cases plays with
  | asks own only pending => exact .asks own (same.trans only) (agenda_of_punctual idle punctual pending)
  | waits somebody named only pending =>
      exact .waits somebody named (same.trans only) (agenda_of_punctual idle punctual pending)

/-- When the main loop starts, all active interfaces ask, and have asked once. -/
theorem start_plays (started : Start host s) (serves : host.Serves vif) : Plays vif 0 s (.asks igmpQueryTime) := by
  have every := start_calls started 0
  have served : vif ∈ host.vifs.filter fun vif => (host.iface vif).isActive :=
    List.mem_filter.mpr ⟨Host.mem_vifs.mpr ⟨serves.positive, serves.bounded⟩, serves.active⟩
  have known : (0 + igmpQueryTime, .sendQuery vif) ∈ calls 0 s := by
    rw [every.mem_iff]
    exact List.mem_cons_of_mem _ (List.mem_flatMap.mpr ⟨vif, served, List.mem_cons_of_mem _ List.mem_cons_self⟩)
  obtain ⟨⟨_, timer, _⟩, member, same⟩ := List.mem_map.mp known
  cases same
  have role : (timer, Callback.sendQuery vif) ∈ roleTimers s vif :=
    mem_roleTimers.mpr ⟨mem_alarms_of_agenda member, by rw [holdsRole_send, decide_eq_true rfl]⟩
  rcases (start_agrees started).agrees vif serves with ⟨own, only⟩ | ⟨_, only, _⟩
  · rw [only, List.mem_singleton] at role
    obtain ⟨same, _⟩ := Prod.mk.inj role
    rw [same] at member
    exact .asks own only member
  · rw [only, List.mem_singleton] at role
    exact Callback.noConfusion (Prod.mk.inj role).2

/-! ## Every run -/

/-- Queries come from addresses; all other events may happen at any time. -/
def FromAddress (_ : Daemon) : Event → Prop
  | .acceptMembershipQuery src _ => src ≠ 0
  | _ => True

instance (s : Daemon) (event : Event) : Decidable (FromAddress s event) := by
  unfold FromAddress
  split <;> infer_instance

/-- A query comes within 10 seconds, a wait ends within 310 seconds, and it is for a smaller address. -/
def Duty.Proper (host : Host) (vif : Vif) : Duty Addr → Prop
  | .asks due => 0 ≤ due ∧ due ≤ igmpQueryTime
  | .waits other due => 0 ≤ due ∧ due ≤ igmpQuerierTimeout ∧ addressRank other < addressRank (host.iface vif).address

/-- What is heard is proper. -/
theorem proper_hear (src : Addr) (proper : Duty.Proper host vif duty) :
    Duty.Proper host vif (querying.hear 0 (host.iface vif).address src duty) := by
  have start : (0 : Int) ≤ 0 + igmpQuerierTimeout := by decide
  have full : 0 + igmpQuerierTimeout ≤ igmpQuerierTimeout := by decide
  cases duty with
  | asks due =>
      rw [Custom.hear]
      split
      · rename_i smaller
        exact ⟨start, full, smaller⟩
      · exact proper
  | waits other due =>
      obtain ⟨_, _, below⟩ := proper
      rw [Custom.hear]
      refine ⟨start, full, ?_⟩
      split
      · rename_i smaller
        exact Nat.lt_trans smaller below
      · exact below

/-- As much of a wait is over as time has passed, and a timer that is overdue is called now. -/
def Duty.age (elapsedTime : Int) : Duty Addr → Duty Addr
  | .asks due => .asks (max (due - elapsedTime) 0)
  | .waits other due => .waits other (max (due - elapsedTime) 0)

theorem proper_age (elapsedTime : Nat) (proper : Duty.Proper host vif duty) :
    Duty.Proper host vif (Duty.age elapsedTime duty) := by
  cases duty with
  | asks due =>
      obtain ⟨positive, soon⟩ := proper
      refine ⟨Int.le_max_right _ _, ?_⟩
      omega
  | waits other due =>
      obtain ⟨positive, soon, below⟩ := proper
      refine ⟨Int.le_max_right _ _, ?_, below⟩
      omega

/-- The interface has a proper duty. -/
def OnDuty (host : Host) (vif : Vif) (s : Daemon) : Prop := ∃ duty, Plays vif 0 s duty ∧ Duty.Proper host vif duty

theorem age_onDuty {allowed : Daemon → Event → Prop} (reached : Reachable host allowed s) (idle : s.expired = [])
    (onDuty : OnDuty host vif s) (elapsedTime : Nat) : OnDuty host vif (s.age elapsedTime) := by
  obtain ⟨duty, plays, proper⟩ := onDuty
  have same : roleTimers (s.age elapsedTime) vif = roleTimers s vif := by
    rw [roleTimers, alarms_age_idle idle, roleTimers]
  refine ⟨Duty.age elapsedTime duty, ?_, proper_age elapsedTime proper⟩
  cases plays with
  | asks own only pending => exact .asks own (same.trans only) (age_keeps idle (built_of_reachable reached) pending)
  | waits somebody named only pending =>
      exact .waits somebody named (same.trans only) (age_keeps idle (built_of_reachable reached) pending)

theorem step_onDuty (zero : host.ZeroFilled) {allowed : Daemon → Event → Prop} (reached : Reachable host allowed s)
    (serves : host.Serves vif) (may : FromAddress s event) (taken : Step host s event s') (onDuty : OnDuty host vif s) :
    OnDuty host vif s' := by
  have owned := reachable_owned zero reached
  by_cases elects : ElectsOn host s vif event
  · obtain ⟨duty, plays, proper⟩ := onDuty
    cases event with
    | acceptMembershipQuery src group =>
        obtain ⟨foreign, direct⟩ := elects
        have near : findVifDirect host src ≠ 0 := by
          rw [direct]
          exact Nat.ne_of_gt serves.positive
        have idle := idle_of_enabled rfl taken.1
        exact ⟨_, query_plays owned.orderly idle plays may foreign near direct taken.2, proper_hear src proper⟩
    | expire pktcnt =>
        obtain ⟨func, calls, role⟩ := elects
        obtain ⟨_, asks, _⟩ := called_plays owned.orderly plays calls role taken.2
        refine ⟨_, asks, ?_, ?_⟩
        · decide
        · decide
    | _ => exact elects.elim
  · by_cases passes : ∀ elapsedTime, event ≠ .age elapsedTime
    · obtain ⟨duty, plays, proper⟩ := onDuty
      have kept := handle_roleKept zero owned passes elects taken.2
      exact ⟨duty, plays.keep kept owned.orderly (handle_owned zero owned taken.2).orderly, proper⟩
    · simp only [not_forall, not_not] at passes
      obtain ⟨elapsedTime, rfl⟩ := passes
      obtain rfl := runs_modify.mp taken.2
      exact age_onDuty reached (idle_of_enabled rfl taken.1) onDuty elapsedTime

/-- In every reachable state, whatever has happened, each active interface has one timer for its role: it
asks within 10 seconds, or waits for a router with a smaller address for at most 310 seconds. -/
theorem roles_on_duty (zero : host.ZeroFilled) (reached : Reachable host FromAddress s) (serves : host.Serves vif) :
    ∃ duty, Plays vif 0 s duty ∧ Duty.Proper host vif duty := by
  obtain ⟨start, started, run⟩ := reached
  have both : Reachable host FromAddress s ∧ OnDuty host vif s := by
    refine run.keeps (P := fun state => Reachable host FromAddress state ∧ OnDuty host vif state) ?_ ?_
    · refine ⟨⟨start, started, .refl start⟩, _, start_plays started serves, ?_, ?_⟩
      · decide
      · decide
    · rintro before event after ⟨⟨first, begun, earlier⟩, onDuty⟩ may taken
      exact ⟨⟨first, begun, earlier.snoc may taken⟩, step_onDuty zero ⟨first, begun, earlier⟩ serves may taken onDuty⟩
  exact both.2

/-- A member, another querier, and a leave that is not for us. -/
theorem roles_on_duty_session : ∃ s duty, Reachable upperRouter FromAddress s ∧ (s.myvifs 1).querier = stationOn 1 2 ∧
    Plays 1 0 s duty ∧ Duty.Proper upperRouter 1 duty := by
  have passed : endsWith upperRouter FromAddress [.acceptGroupReport (stationOn 1 7) channel,
      .acceptMembershipQuery (stationOn 1 2) 0, .age 5, .expire 0, .acceptLeaveMessage (stationOn 1 7) channel]
      (fun s => decide ((s.myvifs 1).querier = stationOn 1 2)) = true := by
    decide +kernel
  obtain ⟨s, reached, heard⟩ := reachable_of_endsWith passed
  have zero : upperRouter.ZeroFilled := ⟨fun _ => rfl, fun _ => rfl⟩
  have serves : upperRouter.Serves 1 := ⟨by decide, by decide, rfl⟩
  obtain ⟨duty, plays, proper⟩ := roles_on_duty zero reached serves
  exact ⟨s, duty, reached, of_decide_eq_true heard, plays, proper⟩

end PimDm.Property
