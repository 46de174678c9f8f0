import PimDm.Refinement.Roles
import PimDm.Property.Session
import PimDm.Foundation.Transition

/-!
# The querier of an interface

Membership queries of other routers, the timer for our next query and the timer for
the silence of the querier decide who asks on an interface.  In every order of the
three, role and timers agree; and a querier stays as long as it is heard, or as
long as anybody is.
-/

namespace PimDm.Property

open PimDm.Foundation PimDm.Source PimDm.Effect PimDm.Refinement

variable {host : Host} {s s' : Daemon}

/-! ## Runs of queries -/

/-- The event is a membership query from an address other than 0, or a timer. -/
def QueriesFrom (_ : Daemon) : Event → Prop
  | .acceptMembershipQuery src _ => src ≠ 0
  | .age _ => True
  | .expire _ => True
  | _ => False

instance decidableQueriesFrom (s : Daemon) : (event : Event) → Decidable (QueriesFrom s event)
  | .acceptMembershipQuery src _ => inferInstanceAs (Decidable (src ≠ 0))
  | .age _ | .expire _ => isTrue trivial
  | .multicastPacketError .. | .acceptGroupReport .. | .acceptLeaveMessage .. | .pimInput .. =>
      isFalse id

/-- The functions that timers call in a run of queries. -/
def AsksAndGreets (host : Host) : Callback → Prop
  | .timer => True
  | .pimHelloOutput _ => True
  | .sendQuery vif => host.Serves vif
  | .retryQuery vif => host.Serves vif
  | _ => False

/-- What a run of queries never changes. -/
structure QueryingOnly (host : Host) (s : Daemon) : Prop where
  groups : ∀ vif, (s.myvifs vif).groups = 0
  calls : ∀ entry ∈ alarms s, AsksAndGreets host entry.2

theorem QueryingOnly.of_sublist (only : QueryingOnly host s)
    (groups : ∀ vif, (s'.myvifs vif).groups = (s.myvifs vif).groups)
    (fewer : (alarms s').Sublist (alarms s)) : QueryingOnly host s' := by
  refine ⟨fun vif => ?_, fun entry member => only.calls entry (fewer.subset member)⟩
  rw [groups vif]
  exact only.groups vif

theorem QueryingOnly.setTimer (only : QueryingOnly host s) (delay : Int) {action : Callback}
    (may : AsksAndGreets host action) : QueryingOnly host (s.setTimer delay action) := by
  refine ⟨only.groups, fun entry member => ?_⟩
  rcases List.mem_cons.mp ((alarms_setTimer s delay action).subset member) with rfl | old
  · exact may
  · exact only.calls entry old

theorem QueryingOnly.neutral (only : QueryingOnly host s) {update : Update} (neutral : Neutral update) :
    QueryingOnly host (update.apply s) := by
  cases update with
  | setTimer delay action =>
      cases action with
      | timer => exact only.setTimer delay trivial
      | pimHelloOutput data => exact only.setTimer delay trivial
      | _ => exact neutral.elim
  | sendBuf write => exact ⟨only.groups, only.calls⟩
  | send packet entry => exact ⟨only.groups, only.calls⟩
  | virtualTime seconds => exact ⟨only.groups, only.calls⟩
  | _ => exact neutral.elim

theorem QueryingOnly.asking (only : QueryingOnly host s) {vif : Vif} (serves : host.Serves vif) :
    QueryingOnly host (asking s vif) :=
  ⟨fun other => (asking_groups s vif other).trans (only.groups other),
    (only.setTimer igmpQueryTime (show AsksAndGreets host (.sendQuery vif) from serves)).calls⟩

theorem QueryingOnly.awaiting (only : QueryingOnly host s) {vif : Vif} (serves : host.Serves vif)
    (old : Int) (querier : Addr) (query : Int) : QueryingOnly host (awaiting s vif old querier query) := by
  have cleared : QueryingOnly host (s.clearTimer old) :=
    only.of_sublist (fun _ => by rw [clearTimer_myvifs]) (alarms_clearTimer s old)
  have set := cleared.setTimer igmpQuerierTimeout (show AsksAndGreets host (.retryQuery vif) from serves)
  exact ⟨fun other => (awaiting_groups s vif old querier query other).trans (only.groups other), set.calls⟩

theorem QueryingOnly.hears (only : QueryingOnly host s) {src : Addr} {vif : Vif}
    (serves : host.Serves vif) (hears : Hears host src vif s s') : QueryingOnly host s' := by
  cases hears with
  | ignored own larger => exact only
  | deferred own smaller => exact only.awaiting serves _ _ _
  | renewed waits later => exact only.awaiting serves _ _ _
  | yielded waits smaller => exact (only.awaiting serves _ _ _).awaiting serves _ _ _

/-- On an interface without groups a query is heard and nothing more. -/
theorem hears_of_query (only : QueryingOnly host s) {src group : Addr}
    (run : Runs (acceptMembershipQuery host src group) s () s') :
    s' = s ∨ (isLocalAddress host src = 0 ∧ findVifDirect host src ≠ 0) ∧
      Hears host src (findVifDirect host src) s s' := by
  rcases acceptMembershipQuery_hears run with ⟨_, same⟩ | ⟨foreign, middle, hears, expect⟩
  · exact Or.inl same
  refine Or.inr ⟨foreign, ?_⟩
  have empty := (only.hears (findVifDirect_serves foreign.2) hears).groups (findVifDirect host src)
  rcases runs_onlyIf.mp expect with ⟨_, loop⟩ | ⟨_, rfl⟩
  · unfold forGroups at loop
    rw [runs_get_bind, empty] at loop
    rw [(runs_pure.mp loop).2]
    exact hears
  · exact hears

/-! ## Role and timers -/

theorem roleTimers_neutral {update : Update} (neutral : Neutral update) (vif : Vif) :
    (roleTimers (update.apply s) vif).Perm (roleTimers s vif) := by
  cases update with
  | setTimer delay action =>
      refine roleTimers_setTimer_other s vif action (fun id => ?_) delay
      cases action with
      | timer => rfl
      | pimHelloOutput data => rfl
      | _ => exact neutral.elim
  | sendBuf write => exact List.Perm.refl _
  | send packet entry => exact List.Perm.refl _
  | virtualTime seconds => exact List.Perm.refl _
  | _ => exact neutral.elim

theorem agrees_neutral {vif : Vif} (agrees : QuerierAgrees host s vif) {update : Update}
    (neutral : Neutral update) : QuerierAgrees host (update.apply s) vif := by
  refine agrees.congr ?_ (roleTimers_neutral neutral vif)
  cases update with
  | setTimer delay action => rfl
  | sendBuf write => rfl
  | send packet entry => rfl
  | virtualTime seconds => rfl
  | _ => exact neutral.elim

/-- A timer that is called is no longer pending for a role. -/
theorem roleTimers_popExpired {ptr : TimeoutQ} {rest : List TimeoutQ} (batch : s.expired = ptr :: rest)
    (vif : Vif) : roleTimers s vif =
      if holdsRole vif (alarm ptr) = true then alarm ptr :: roleTimers s.popExpired vif
      else roleTimers s.popExpired vif := by
  unfold roleTimers
  rw [alarms_cons batch, List.filter_cons]

/-- What holds in a run of queries between and during batches of timers. -/
structure RolesAgree (host : Host) (s : Daemon) : Prop where
  orderly : Orderly s
  only : QueryingOnly host s
  agrees : ∀ vif, host.Serves vif → QuerierAgrees host s vif

theorem RolesAgree.neutral (invariant : RolesAgree host s) {update : Update} (neutral : Neutral update) :
    RolesAgree host (update.apply s) :=
  ⟨orderly_update update invariant.orderly, invariant.only.neutral neutral,
    fun vif serves => agrees_neutral (invariant.agrees vif serves) neutral⟩

theorem asking_orderly (orderly : Orderly s) (vif : Vif) : Orderly (asking s vif) := by
  have set : Orderly (s.setTimer igmpQueryTime (.sendQuery vif)) :=
    orderly_update (.setTimer igmpQueryTime (.sendQuery vif)) orderly
  exact ⟨set.bounds, set.distinct, set.started⟩

/-- Asking on an interface whose role timer is being called. -/
theorem startQuerying_agrees (orderly : Orderly s) (only : QueryingOnly host s) {vif : Vif}
    (serves : host.Serves vif) (none : roleTimers s vif = [])
    (all : ∀ other, other ≠ vif → host.Serves other → QuerierAgrees host s other)
    (run : Runs (startQuerying host vif) s () s') : RolesAgree host s' := by
  obtain rfl := runs_startQuerying.mp run
  have set := asking_orderly orderly vif
  have asked := only.asking serves
  refine ⟨⟨set.bounds, set.distinct, set.started⟩, ⟨asked.groups, asked.calls⟩, fun other served => ?_⟩
  have agrees : QuerierAgrees host (asking s vif) other := by
    by_cases here : other = vif
    · rw [here]
      exact asking_self_agrees none
    · exact asking_other_agrees here (all other here served)
  exact agrees

theorem expire_agrees (invariant : RolesAgree host s) {pktcnt : Int}
    (run : Runs (handle host (.expire pktcnt)) s () s') : RolesAgree host s' := by
  rcases runs_expire run with ⟨_, rfl⟩ | ⟨func, calls, call⟩
  · exact invariant
  obtain ⟨ptr, rest, batch, rfl⟩ := called_batch calls
  have popped : Orderly s.popExpired := orderly_update .popExpired invariant.orderly
  have fewer : QueryingOnly host s.popExpired :=
    invariant.only.of_sublist (fun _ => rfl) (alarms_popExpired s)
  have may : AsksAndGreets host ptr.func :=
    invariant.only.calls (alarm ptr) (alarm_mem_of_batch batch)
  -- Whose role timer is called has none left, and the others keep theirs.
  have apart : ∀ other, holdsRole other (alarm ptr) = false → host.Serves other →
      QuerierAgrees host s.popExpired other := by
    intro other role serves
    have timers := roleTimers_popExpired batch other
    rw [if_neg (by simp [role])] at timers
    exact (invariant.agrees other serves).congr rfl (by rw [timers])
  have alone : ∀ vif, holdsRole vif (alarm ptr) = true → host.Serves vif →
      roleTimers s.popExpired vif = [] := by
    intro vif role serves
    obtain ⟨entry, one⟩ := (invariant.agrees vif serves).timer
    have timers := roleTimers_popExpired batch vif
    rw [if_pos role, one] at timers
    exact (List.cons.inj timers).2.symm
  cases func : ptr.func with
  | timer =>
      rw [func] at call
      have role : ∀ other, holdsRole other (alarm ptr) = false := by simp [holdsRole, alarm, func]
      exact neutral_keeps timer_neutral (fun _ _ neutral holds => RolesAgree.neutral holds neutral) call
        ⟨popped, fewer, fun other serves => apart other (role other) serves⟩
  | pimHelloOutput data =>
      rw [func] at call
      have role : ∀ other, holdsRole other (alarm ptr) = false := by simp [holdsRole, alarm, func]
      exact neutral_keeps (pimHelloOutput_neutral data)
        (fun _ _ neutral holds => RolesAgree.neutral holds neutral) call
        ⟨popped, fewer, fun other serves => apart other (role other) serves⟩
  | sendQuery vif =>
      rw [func] at call may
      have role : ∀ other, holdsRole other (alarm ptr) = decide (vif = other) := fun other => by
        rw [alarm, func, holdsRole_send]
      refine startQuerying_agrees popped fewer may (alone vif (by simp [role]) may) ?_ call
      exact fun other different serves => apart other (by simp [role, Ne.symm different]) serves
  | retryQuery vif =>
      rw [func] at call may
      have role : ∀ other, holdsRole other (alarm ptr) = decide (vif = other) := fun other => by
        rw [alarm, func, holdsRole_retry]
      refine startQuerying_agrees popped fewer may (alone vif (by simp [role]) may) ?_ call
      exact fun other different serves => apart other (by simp [role, Ne.symm different]) serves
  | _ =>
      rw [func] at may
      exact may.elim

theorem step_agrees (invariant : RolesAgree host s) {event : Event} (may : QueriesFrom s event)
    (taken : Step host s event s') : RolesAgree host s' := by
  cases event with
  | acceptMembershipQuery src group =>
      have idle := idle_of_enabled rfl taken.1
      rcases hears_of_query invariant.only taken.2 with rfl | ⟨⟨_, direct⟩, hears⟩
      · exact invariant
      · have serves := findVifDirect_serves direct
        exact ⟨orderly_of_changes (handle_anything taken.2) invariant.orderly,
          invariant.only.hears serves hears,
          hears_agrees invariant.orderly idle may serves hears invariant.agrees⟩
  | age elapsedTime =>
      have idle := idle_of_enabled rfl taken.1
      obtain rfl := runs_modify.mp taken.2
      have same := alarms_age_idle idle elapsedTime
      refine ⟨orderly_update (.age elapsedTime) invariant.orderly,
        invariant.only.of_sublist (fun _ => rfl) (alarms_age s elapsedTime), fun vif serves => ?_⟩
      refine (invariant.agrees vif serves).congr rfl ?_
      unfold roleTimers
      rw [same]
  | expire pktcnt => exact expire_agrees invariant taken.2
  | _ => exact may.elim

/-- Between two rounds of `active_vifs`: the interfaces to come have no role timers yet, and
the active ones among the others agree. -/
structure Activating (host : Host) (vifs : List Vif) (s : Daemon) : Prop where
  orderly : Orderly s
  only : QueryingOnly host s
  none : ∀ vif ∈ vifs, roleTimers s vif = []
  done : ∀ vif, host.Serves vif → vif ∉ vifs → QuerierAgrees host s vif

theorem Activating.neutral {vifs : List Vif} (activating : Activating host vifs s) {update : Update}
    (neutral : Neutral update) : Activating host vifs (update.apply s) := by
  refine ⟨orderly_update update activating.orderly, activating.only.neutral neutral,
    fun vif member => ?_, fun vif serves outside => agrees_neutral (activating.done vif serves outside) neutral⟩
  have timers := roleTimers_neutral neutral vif (s := s)
  rw [activating.none vif member] at timers
  exact timers.eq_nil

theorem activeVif_activates {vif : Vif} {rest : List Vif} (activating : Activating host (vif :: rest) s)
    (distinct : vif ∉ rest) (serves : host.Serves vif) (run : Runs (activeVif host vif) s () s') :
    Activating host rest s' := by
  obtain ⟨_, queried, query, hello⟩ := runs_bind.mp run
  obtain rfl := runs_startQuerying.mp query
  refine neutral_keeps (pimHelloOutput_neutral _) (fun _ _ neutral holds => Activating.neutral holds neutral)
    hello ?_
  have set := asking_orderly activating.orderly vif
  have asked := activating.only.asking serves
  refine ⟨⟨set.bounds, set.distinct, set.started⟩, ⟨asked.groups, asked.calls⟩, fun other member => ?_,
    fun other served outside => ?_⟩
  · have different : other ≠ vif := fun same => distinct (same ▸ member)
    have timers := asking_other_timers (s := s) different
    rw [activating.none other (List.mem_cons_of_mem _ member)] at timers
    exact timers.eq_nil
  · have agrees : QuerierAgrees host (asking s vif) other := by
      by_cases here : other = vif
      · rw [here]
        exact asking_self_agrees (activating.none vif (List.mem_cons_self ..))
      · refine asking_other_agrees here (activating.done other served fun member => ?_)
        rcases List.mem_cons.mp member with same | later
        · exact here same
        · exact outside later
    exact agrees

/-- `active_vifs` makes each active interface ask, one after the other. -/
theorem activeVifs_agree {vifs : List Vif} (distinct : vifs.Nodup)
    (inside : ∀ vif ∈ vifs, 1 ≤ vif ∧ vif ≤ host.maxvif) (activating : Activating host vifs s)
    (run : Runs (foldProgram (fun _ vif => onlyIf ((host.iface vif).isActive = true) (activeVif host vif))
      vifs ()) s () s') : RolesAgree host s' := by
  induction vifs generalizing s with
  | nil =>
      obtain ⟨_, rfl⟩ := runs_pure.mp run
      exact ⟨activating.orderly, activating.only,
        fun vif serves => activating.done vif serves (List.not_mem_nil)⟩
  | cons vif rest ih =>
      obtain ⟨absent, distinct⟩ := List.nodup_cons.mp distinct
      obtain ⟨_, middle, now, later⟩ := runs_bind.mp run
      have bounds := inside vif (List.mem_cons_self ..)
      refine ih distinct (fun other member => inside other (List.mem_cons_of_mem vif member)) ?_ later
      rcases runs_onlyIf.mp now with ⟨active, activate⟩ | ⟨inactive, rfl⟩
      · exact activeVif_activates activating absent ⟨bounds.1, bounds.2, active⟩ activate
      · refine { activating with
          none := fun other member => activating.none other (List.mem_cons_of_mem vif member)
          done := fun other serves outside => activating.done other serves fun member => ?_ }
        rcases List.mem_cons.mp member with rfl | later
        · exact inactive serves.active
        · exact outside later

theorem start_agrees (start : Start host s) : RolesAgree host s := by
  obtain ⟨pimSendBuf, booted⟩ := start
  obtain ⟨_, activated, activate, tick⟩ := runs_bind.mp booted
  obtain ⟨_, _, set, stop⟩ := runs_bind.mp tick
  obtain ⟨_, rfl⟩ := runs_timerSetTimer.mp set
  obtain ⟨_, rfl⟩ := runs_pure.mp stop
  have blank : Activating host host.vifs (Daemon.blank pimSendBuf) := by
    have orderly : Orderly (Daemon.blank pimSendBuf) :=
      ⟨fun _ member => (List.not_mem_nil member).elim, List.nodup_nil, Int.le_refl _⟩
    have only : QueryingOnly host (Daemon.blank pimSendBuf) :=
      ⟨fun _ => rfl, fun _ member => (List.not_mem_nil member).elim⟩
    refine ⟨orderly, only, fun _ _ => rfl, fun vif serves outside => ?_⟩
    exact absurd (Host.mem_vifs.mpr ⟨serves.positive, serves.bounded⟩) outside
  have agree := activeVifs_agree host.nodup_vifs (fun vif member => Host.mem_vifs.mp member) blank activate
  have tick : Neutral (.setTimer 5 .timer) := (by decide : (0 : Int) ≤ 5)
  exact agree.neutral tick

theorem reachable_agrees (reached : Reachable host QueriesFrom s) : RolesAgree host s := by
  obtain ⟨start, started, run⟩ := reached
  exact run.keeps (start_agrees started) fun _ _ _ invariant may taken => step_agrees invariant may taken

/-- In every state that queries and timers lead to, each active interface has exactly one
of the two role timers pending, the one it has noted: the timer for its next query if it is
the querier, the timer for the silence of a querier with a smaller address if it is not. -/
theorem querier_agrees (reached : Reachable host QueriesFrom s) {vif : Vif} (serves : host.Serves vif) :
    ((s.myvifs vif).querier = 0 ∧
      roleTimers s vif = [((s.myvifs vif).igmpQuerytimerId, .sendQuery vif)]) ∨
    ((s.myvifs vif).querier ≠ 0 ∧
      roleTimers s vif = [((s.myvifs vif).querierRetryId, .retryQuery vif)] ∧
      (ntohl (s.myvifs vif).querier).toNat < (ntohl (host.iface vif).address).toNat) :=
  (reachable_agrees reached).agrees vif serves

theorem querier_agrees_session :
    ∃ s, Reachable upperRouter QueriesFrom s ∧ (s.myvifs 1).querier = stationOn 1 2 ∧
      (((s.myvifs 1).querier = 0 ∧
        roleTimers s 1 = [((s.myvifs 1).igmpQuerytimerId, .sendQuery 1)]) ∨
      ((s.myvifs 1).querier ≠ 0 ∧
        roleTimers s 1 = [((s.myvifs 1).querierRetryId, .retryQuery 1)] ∧
        (ntohl (s.myvifs 1).querier).toNat < (ntohl (upperRouter.iface 1).address).toNat)) := by
  have passed : endsWith upperRouter QueriesFrom
      [.acceptMembershipQuery (stationOn 1 5) 0, .age 5, .expire 0,
        .acceptMembershipQuery (stationOn 1 2) channel]
      (fun s => decide ((s.myvifs 1).querier = stationOn 1 2)) = true := by
    decide +kernel
  obtain ⟨s, reached, heard⟩ := reachable_of_endsWith passed
  exact ⟨s, reached, of_decide_eq_true heard, querier_agrees reached ⟨by decide, by decide, rfl⟩⟩

end PimDm.Property
