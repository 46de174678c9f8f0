import PimDm.Refinement.Recurrence
import PimDm.Property.TimerKeeping
import PimDm.Property.History

/-!
# The timers that never stop

The clock of `main` and the regular Hello of each active interface set themselves again.  In
every reachable state each of them is pending exactly once, so `select` never waits longer than
the clock, and on time a Hello leaves each interface every 30 seconds.
-/

namespace PimDm.Property

open PimDm.Foundation PimDm.Source PimDm.Effect PimDm.Refinement

variable {host : Host} {s s' : Daemon} {event : Event} {func : Callback}

/-- One pending timer, due then, calls the function, and no other does. -/
def Single (now : Int) (s : Daemon) (func : Callback) (time : Int) : Prop :=
  ∃ timer, (time, timer, func) ∈ agenda now s ∧ ∀ other, (other, func) ∈ alarms s → other = timer

/-! ## Start -/

theorem vifCalls_apart (now : Int) {vif other : Vif} (different : vif ≠ other) :
    List.Disjoint ((vifCalls now vif).map Prod.snd) ((vifCalls now other).map Prod.snd) := by
  simp [vifCalls, different.symm]

/-- No function is called by two timers of the start. -/
theorem start_calls_nodup (host : Host) (now : Int) : (((now + 5, .timer) ::
    (host.vifs.filter fun vif => (host.iface vif).isActive).flatMap (vifCalls now)).map Prod.snd).Nodup := by
  rw [List.map_cons, List.map_flatMap, List.nodup_cons]
  refine ⟨?_, List.nodup_flatMap.mpr ⟨fun vif _ => ?_, ?_⟩⟩
  · simp [vifCalls]
  · simp [vifCalls]
  · have distinct : (host.vifs.filter fun vif => (host.iface vif).isActive).Nodup := host.nodup_vifs.filter _
    exact distinct.imp fun different => vifCalls_apart now different

theorem start_single (started : Start host s) {period : Int} (beats : Beats host func period) (now : Int) :
    Single now s func (now + period) := by
  have every := start_calls started now
  have known : (now + period, func) ∈ calls now s := by
    rw [every.mem_iff]
    cases beats with
    | timer => exact List.mem_cons_self
    | @hello vif serves =>
        have served : vif ∈ host.vifs.filter fun vif => (host.iface vif).isActive :=
          List.mem_filter.mpr ⟨Host.mem_vifs.mpr ⟨serves.positive, serves.bounded⟩, serves.active⟩
        exact List.mem_cons_of_mem _ (List.mem_flatMap.mpr ⟨vif, served, List.mem_cons_self⟩)
  obtain ⟨⟨_, timer, _⟩, member, same⟩ := List.mem_map.mp known
  cases same
  refine ⟨timer, member, fun other pending => ?_⟩
  have distinct : ((alarms s).map Prod.snd).Nodup := by
    have listed : (alarms s).map Prod.snd = (calls now s).map Prod.snd := by
      rw [← agenda_alarms now, calls, List.map_map, List.map_map]
      rfl
    rw [listed, (every.map Prod.snd).nodup_iff]
    exact start_calls_nodup host now
  have one := List.inj_on_of_nodup_map distinct pending (mem_alarms_of_agenda member) rfl
  exact congrArg Prod.fst one

/-- Of the timers that recur, only these are set at the start. -/
theorem start_beats (started : Start host s) {timer : Int} (pending : (timer, func) ∈ alarms s) (recurs : Recurs func) :
    ∃ period, Beats host func period := by
  obtain ⟨time, member⟩ := agenda_of_mem_alarms 0 pending
  have known : (time, func) ∈ calls 0 s := List.mem_map_of_mem member
  rw [(start_calls started 0).mem_iff] at known
  rcases List.mem_cons.mp known with same | other
  · cases same
    exact ⟨5, .timer⟩
  · obtain ⟨vif, served, inside⟩ := List.mem_flatMap.mp other
    obtain ⟨listed, active⟩ := List.mem_filter.mp served
    obtain ⟨positive, bounded⟩ := Host.mem_vifs.mp listed
    rcases List.mem_cons.mp inside with same | query
    · cases same
      exact ⟨pimHelloPeriod, .hello ⟨positive, bounded, active⟩⟩
    · cases List.mem_singleton.mp query
      exact recurs.elim

/-! ## Steps -/

/-- An event that takes no time and calls another function, or none. -/
theorem Single.stays {now time : Int} (single : Single now s func time) (zero : host.ZeroFilled) (owned : Owned s)
    (recurs : Recurs func) (passes : ∀ elapsedTime, event ≠ .age elapsedTime) (calls : called s event ≠ some func)
    (run : Runs (handle host event) s () s') : Single now s' func time := by
  obtain ⟨timer, pending, only⟩ := single
  refine ⟨timer, recurring_stays zero owned recurs passes calls run pending, fun other member => ?_⟩
  exact only other (recurring_old recurs calls run member)

/-- The event that calls the function. -/
theorem Single.called {now time period : Int} (single : Single now s func time) (orderly : Orderly s)
    (beats : Beats host func period) (calls : called s event = some func) (run : Runs (handle host event) s () s') :
    time = now ∧ Single now s' func (now + period) := by
  cases event with
  | expire pktcnt =>
      obtain ⟨ptr, rest, batch, same⟩ := called_batch calls
      obtain ⟨timer, pending, only⟩ := single
      have first : ptr.id = timer := by
        refine only ptr.id ?_
        rw [← same]
        exact alarm_mem_of_batch batch
      -- The timer that is called is the one, so none is left behind it.
      have none : ∀ other, (other, func) ∉ alarms s.popExpired := by
        intro other later
        have distinct := orderly.distinct
        rw [alarms_cons batch, List.map_cons, List.nodup_cons] at distinct
        refine distinct.1 (List.mem_map.mpr ⟨_, later, ?_⟩)
        have one := only other ((alarms_popExpired s).subset later)
        exact one.trans first.symm
      have after := beats_calls beats (runs_called calls run) now
      rw [agenda_popExpired batch] at pending
      refine ⟨?_, s.popExpired.id + 1, after.mem_iff.mpr List.mem_cons_self, fun other member => ?_⟩
      · rcases List.mem_cons.mp pending with here | later
        · exact congrArg Prod.fst here
        · exact absurd (mem_alarms_of_agenda later) (none timer)
      · obtain ⟨due, listed⟩ := agenda_of_mem_alarms now member
        rcases List.mem_cons.mp (after.mem_iff.mp listed) with new | old
        · exact congrArg (fun entry => entry.2.1) new
        · exact absurd (mem_alarms_of_agenda old) (none other)
  | _ => cases calls

/-! ## Any run -/

/-- One pending timer calls the function, with no more than these seconds left, and no other does. -/
def BeatsWithin (s : Daemon) (func : Callback) (period : Int) : Prop :=
  ∃ left, 0 ≤ left ∧ left ≤ period ∧ Single 0 s func left

theorem handle_beats (zero : host.ZeroFilled) {allowed : Daemon → Event → Prop} (reached : Reachable host allowed s)
    (taken : Step host s event s') {period : Int} (beats : Beats host func period)
    (within : BeatsWithin s func period) : BeatsWithin s' func period := by
  obtain ⟨left, positive, small, single⟩ := within
  have nonnegative := Int.le_of_lt beats.positive
  by_cases calls : called s event = some func
  · have after := single.called (reachable_orderly reached) beats calls taken.2
    rw [Int.zero_add] at after
    exact ⟨period, nonnegative, Int.le_refl _, after.2⟩
  by_cases passes : ∀ elapsedTime, event ≠ .age elapsedTime
  · exact ⟨left, positive, small, single.stays zero (reachable_owned zero reached) beats.recurs passes calls taken.2⟩
  · simp only [not_forall, not_not] at passes
    obtain ⟨elapsedTime, rfl⟩ := passes
    obtain rfl := runs_modify.mp taken.2
    obtain ⟨timer, pending, only⟩ := single
    have idle := idle_of_enabled rfl taken.1
    refine ⟨max (left - elapsedTime) 0, Int.le_max_right _ _, by omega, timer, ?_, fun other member => ?_⟩
    · exact age_keeps idle (built_of_reachable reached) pending
    · exact only other ((alarms_age s elapsedTime).subset member)

theorem reachable_beats (zero : host.ZeroFilled) {allowed : Daemon → Event → Prop} (reached : Reachable host allowed s)
    {period : Int} (beats : Beats host func period) : BeatsWithin s func period := by
  obtain ⟨start, started, run⟩ := reached
  have both : Reachable host allowed s ∧ BeatsWithin s func period := by
    refine run.keeps (P := fun state => Reachable host allowed state ∧ BeatsWithin state func period) ?_ ?_
    · refine ⟨⟨start, started, .refl start⟩, period, Int.le_of_lt beats.positive, Int.le_refl _, ?_⟩
      have single := start_single started beats 0
      rwa [Int.zero_add] at single
    · rintro before event after ⟨⟨first, begun, earlier⟩, within⟩ may taken
      exact ⟨⟨first, begun, earlier.snoc may taken⟩, handle_beats zero ⟨first, begun, earlier⟩ taken beats within⟩
  exact both.2

/-- No other timers recur. -/
theorem reachable_recurs {allowed : Daemon → Event → Prop} (reached : Reachable host allowed s) {timer : Int}
    (pending : (timer, func) ∈ alarms s) (recurs : Recurs func) : ∃ period, Beats host func period := by
  obtain ⟨start, started, run⟩ := reached
  have all : ∀ timer, (timer, func) ∈ alarms s → ∃ period, Beats host func period := by
    refine run.keeps (P := fun state => ∀ timer, (timer, func) ∈ alarms state → ∃ period, Beats host func period)
      (fun timer member => start_beats started member recurs) fun before event after all _ taken timer member => ?_
    by_cases calls : called before event = some func
    · obtain ⟨id, waiting⟩ := called_mem calls
      exact all id waiting
    · exact all timer (recurring_old recurs calls taken.2 member)
  exact all timer pending

/-- The head of a queue in order is due no later than the others. -/
theorem nextTimer_le {left : Int} {entry : Int × Callback} (sorted : InTurn (due 0 s.queue))
    (waits : (left, entry) ∈ due 0 s.queue) (positive : 0 ≤ left) : 0 ≤ s.nextTimer ∧ s.nextTimer ≤ left := by
  unfold Daemon.nextTimer
  cases queue : s.queue with
  | nil =>
      rw [queue] at waits
      cases waits
  | cons ptr rest =>
      rw [queue, due, Int.zero_add] at sorted waits
      have first : ptr.time ≤ left := by
        rcases List.mem_cons.mp waits with same | later
        · exact Int.le_of_eq (congrArg Prod.fst same).symm
        · rcases (List.pairwise_cons.mp sorted).1 _ later with before | ⟨same, _⟩
          · exact Int.le_of_lt before
          · exact Int.le_of_eq same
      dsimp only
      split
      · exact ⟨Int.le_refl 0, positive⟩
      · exact ⟨by omega, first⟩

/-- In every reachable state the clock and the Hellos of all active interfaces are pending, each
once and no more than its period away, and no other timer of their kind is.  So between two
batches `select` waits for at most 5 seconds. -/
theorem heartbeats (zero : host.ZeroFilled) {allowed : Daemon → Event → Prop} (reached : Reachable host allowed s) :
    (∀ func period, Beats host func period → BeatsWithin s func period) ∧
      (∀ timer func, (timer, func) ∈ alarms s → Recurs func → ∃ period, Beats host func period) ∧
      (s.expired = [] → 0 ≤ s.nextTimer ∧ s.nextTimer ≤ 5) := by
  refine ⟨fun func period => reachable_beats zero reached, fun timer func => reachable_recurs reached, fun idle => ?_⟩
  obtain ⟨left, positive, small, timer, pending, _⟩ := reachable_beats zero reached Beats.timer
  rw [agenda, idle] at pending
  have next := nextTimer_le ((built_of_reachable reached).timetable.sorted 0) pending positive
  exact ⟨next.1, Int.le_trans next.2 small⟩

/-- A neighbour, and another one 4 seconds later. -/
theorem heartbeats_session : ∃ s, Reachable router (fun _ _ => True) s ∧ s.expired = [] ∧
    0 ≤ s.nextTimer ∧ s.nextTimer ≤ 5 ∧ BeatsWithin s (.pimHelloOutput ⟨2, 105, 1⟩) 30 := by
  have passed : endsWith router (fun _ _ => True) [helloFrom (stationOn 2 9) 105, .age 4,
      helloFrom (stationOn 2 8) 105] (fun s => decide (s.expired = [])) = true := by
    decide +kernel
  obtain ⟨s, reached, idle⟩ := reachable_of_endsWith passed
  obtain ⟨beats, _, waits⟩ := heartbeats router_zeroFilled reached
  obtain ⟨low, high⟩ := waits (of_decide_eq_true idle)
  exact ⟨s, reached, of_decide_eq_true idle, low, high, beats _ _ (.hello ⟨by decide, by decide, by decide⟩)⟩

/-! ## Hellos on time -/

/-- A Hello from this address. -/
def isHelloOf (address : Addr) : Observation → Bool
  | .pim packet _ => packet.type == pimHello && packet.src == address
  | _ => false

/-- How many Hellos have left an interface. -/
def hellosSent (host : Host) (vif : Vif) (s : Daemon) : Nat := s.trace.countP (isHelloOf (host.iface vif).address)

/-- No other interface in use has the address of this one. -/
def OwnAddress (host : Host) (vif : Vif) : Prop :=
  ∀ other, host.Serves other → (host.iface other).address = (host.iface vif).address → other = vif

theorem hellosSent_helloed (host : Host) (vif : Vif) (data : PimHelloOutputData) (s : Daemon) :
    hellosSent host vif (helloed host data s) = hellosSent host vif s +
      if (host.iface data.vif).address = (host.iface vif).address then 1 else 0 := by
  have sent : (helloed host data s).trace = .pim (sentPacket (writeHello s.pimSendBuf data.holdtime)
      (host.iface data.vif).address allpimrouters pimHello 6) 0 :: s.trace := by
    unfold helloed rearmHello
    split <;> rfl
  rw [hellosSent, hellosSent, sent, List.countP_cons]
  simp [isHelloOf, sentPacket]

/-- Nothing that is new is a Hello from the address. -/
theorem hellosSent_of_emits {vif : Vif}
    (emits : Emits (fun observation => isHelloOf (host.iface vif).address observation = false) s s') :
    hellosSent host vif s' = hellosSent host vif s := by
  obtain ⟨new, trace, none, _⟩ := emits
  rw [hellosSent, trace, List.countP_append, List.countP_eq_zero.mpr fun observation member => ?_, Nat.zero_add]
  · rfl
  · rw [none observation member]
    exact Bool.false_ne_true

theorem admits_noHello (host : Host) (address : Addr) :
    Admits host fun observation => isHelloOf address observation = false := by
  refine ⟨?_, ?_, ?_, ?_, ?_, ?_, ?_⟩
  · intros
    rfl
  · intros
    rfl
  · intros
    rfl
  · intros
    rfl
  · intros
    rfl
  · intros
    rfl
  · intros
    rfl

/-- Only the Hellos of an interface are counted. -/
theorem other_event_hellos {allowed : Daemon → Event → Prop} (reached : Reachable host allowed s)
    (run : Runs (handle host event) s () s') {vif : Vif} (own : OwnAddress host vif)
    (calls : called s event ≠ some (.pimHelloOutput ⟨vif, pimHelloHoldtime, 1⟩)) :
    hellosSent host vif s' = hellosSent host vif s := by
  refine hellosSent_of_emits (handle_emits (admits_noHello host _) ?_ ?_ run)
  · rintro _ src data length _ _ buf interface dst type (rfl | rfl)
    · rfl
    · rfl
  · intro data here buf
    obtain ⟨timer, waiting⟩ := called_mem here
    obtain ⟨period, beats⟩ := reachable_recurs reached waiting trivial
    cases beats with
    | @hello other serves =>
        have apart : (host.iface other).address ≠ (host.iface vif).address := by
          intro same
          obtain rfl := own other serves same
          exact calls here
        simp [isHelloOf, sentPacket, apart]

theorem activeVifs_hellos {vifs : List Vif} {vif : Vif} (run : Runs (foldProgram (fun _ other =>
      onlyIf ((host.iface other).isActive = true) (activeVif host other)) vifs ()) s () s') :
    hellosSent host vif s' = hellosSent host vif s + (vifs.filter fun other => (host.iface other).isActive).countP
      fun other => decide ((host.iface other).address = (host.iface vif).address) := by
  induction vifs generalizing s with
  | nil =>
      obtain ⟨_, rfl⟩ := runs_pure.mp run
      rfl
  | cons other rest ih =>
      obtain ⟨_, middle, first, others⟩ := runs_bind.mp run
      rw [ih others]
      rcases runs_onlyIf.mp first with ⟨active, one⟩ | ⟨inactive, rfl⟩
      · obtain ⟨_, _, query, hello⟩ := runs_bind.mp one
        obtain rfl := runs_startQuerying.mp query
        rw [runs_pimHelloOutput.mp hello, hellosSent_helloed,
          List.filter_cons_of_pos (by exact active), List.countP_cons]
        have asked : hellosSent host vif ((asking s other).observe
            (.igmp (host.iface other).address allhosts igmpMembershipQuery 100 0)) = hellosSent host vif s := rfl
        simp only [asked, decide_eq_true_eq]
        omega
      · rw [List.filter_cons_of_neg (by exact inactive)]

theorem start_hellos (started : Start host s) {vif : Vif} (serves : host.Serves vif) (own : OwnAddress host vif) :
    hellosSent host vif s = 1 := by
  obtain ⟨pimSendBuf, booted⟩ := started
  obtain ⟨_, activated, activate, tick⟩ := runs_bind.mp booted
  obtain ⟨_, _, set, stop⟩ := runs_bind.mp tick
  obtain ⟨_, rfl⟩ := runs_timerSetTimer.mp set
  obtain ⟨_, rfl⟩ := runs_pure.mp stop
  have sent : hellosSent host vif activated = hellosSent host vif (Daemon.blank pimSendBuf) + _ :=
    activeVifs_hellos activate
  have nothing : hellosSent host vif (Daemon.blank pimSendBuf) = 0 := rfl
  have served : vif ∈ host.vifs.filter fun other => (host.iface other).isActive :=
    List.mem_filter.mpr ⟨Host.mem_vifs.mpr ⟨serves.positive, serves.bounded⟩, serves.active⟩
  have one : (host.vifs.filter fun other => (host.iface other).isActive).countP
      (fun other => decide ((host.iface other).address = (host.iface vif).address)) =
      (host.vifs.filter fun other => (host.iface other).isActive).count vif := by
    refine List.countP_congr fun other member => ?_
    obtain ⟨listed, active⟩ := List.mem_filter.mp member
    obtain ⟨positive, bounded⟩ := Host.mem_vifs.mp listed
    rw [decide_eq_true_eq, beq_iff_eq]
    refine ⟨own other ⟨positive, bounded, active⟩, ?_⟩
    rintro rfl
    rfl
  rw [one, List.count_eq_one_of_mem (host.nodup_vifs.filter _) served, nothing] at sent
  exact sent

/-- The next Hello is due when as many periods have passed as Hellos have been sent, and the last
one left a period before. -/
structure OnSchedule (host : Host) (vif : Vif) (s : Daemon) (now : Int) : Prop where
  next : Single now s (.pimHelloOutput ⟨vif, pimHelloHoldtime, 1⟩) (pimHelloPeriod * hellosSent host vif s)
  last : pimHelloPeriod * (hellosSent host vif s - 1) ≤ now
  coming : now ≤ pimHelloPeriod * hellosSent host vif s

theorem OnSchedule.step {vif : Vif} {now : Int} (schedule : OnSchedule host vif s now) (zero : host.ZeroFilled)
    {allowed : Daemon → Event → Prop} (reached : Reachable host allowed s) (serves : host.Serves vif)
    (own : OwnAddress host vif) (punctual : OnTime s now event) (taken : Step host s event s') :
    OnSchedule host vif s' (now + Event.seconds event) := by
  have beats : Beats host (.pimHelloOutput ⟨vif, pimHelloHoldtime, 1⟩) pimHelloPeriod := .hello serves
  have period : pimHelloPeriod = 30 := rfl
  obtain ⟨next, last, coming⟩ := schedule
  by_cases calls : called s event = some (.pimHelloOutput ⟨vif, pimHelloHoldtime, 1⟩)
  · obtain ⟨here, after⟩ := next.called (reachable_orderly reached) beats calls taken.2
    cases event with
    | expire pktcnt =>
        have sent : hellosSent host vif s' = hellosSent host vif s + 1 := by
          rw [runs_pimHelloOutput.mp (runs_called calls taken.2), hellosSent_helloed, if_pos rfl]
          rfl
        have still : now + Event.seconds (.expire pktcnt) = now := Int.add_zero now
        rw [still]
        refine ⟨?_, ?_, ?_⟩
        · have later : pimHelloPeriod * ((hellosSent host vif s + 1 : Nat) : Int) = now + pimHelloPeriod := by
            rw [← here, period]
            omega
          rw [sent, later]
          exact after
        · rw [sent]
          push_cast
          rw [period] at here ⊢
          omega
        · rw [sent]
          push_cast
          rw [period] at here ⊢
          omega
    | _ => cases calls
  have same := other_event_hellos reached taken.2 own calls
  by_cases passes : ∀ elapsedTime, event ≠ .age elapsedTime
  · have still : now + Event.seconds event = now := by
      cases event with
      | age elapsedTime => exact absurd rfl (passes elapsedTime)
      | _ => exact Int.add_zero now
    rw [still]
    refine ⟨?_, ?_, ?_⟩
    · rw [same]
      exact next.stays zero (reachable_owned zero reached) trivial passes calls taken.2
    · rwa [same]
    · rwa [same]
  · simp only [not_forall, not_not] at passes
    obtain ⟨elapsedTime, rfl⟩ := passes
    obtain rfl := runs_modify.mp taken.2
    obtain ⟨timer, pending, only⟩ := next
    refine ⟨⟨timer, ?_, fun other member => ?_⟩, ?_, ?_⟩
    · exact agenda_of_punctual (idle_of_enabled rfl taken.1) punctual pending
    · exact only other ((alarms_age s elapsedTime).subset member)
    · exact Int.le_trans last (Int.le_add_of_nonneg_right (Int.natCast_nonneg elapsedTime))
    · exact punctual _ pending

/-- As long as timers run on time, the Hellos leave an active interface one by one, the first at the
start and each of the others exactly a period after the one before, whatever else happens. -/
theorem hellos_on_schedule (zero : host.ZeroFilled) {history : Timed Unit}
    (reached : ReachableWith host (onClock fun _ _ seen => seen) ⟨0, ()⟩
      (fun before event => OnTime before.1 before.2.now event) (s, history))
    {vif : Vif} (serves : host.Serves vif) (own : OwnAddress host vif) : OnSchedule host vif s history.now := by
  obtain ⟨start, started, run⟩ := reached
  have both : Reachable host (fun _ _ => True) s ∧ OnSchedule host vif s history.now := by
    refine run.keeps (P := fun state : Daemon × Timed Unit => Reachable host (fun _ _ => True) state.1 ∧
      OnSchedule host vif state.1 state.2.now) ⟨⟨start, started, .refl start⟩, ?_⟩ ?_
    · have sent := start_hellos started serves own
      refine ⟨?_, ?_, ?_⟩
      · rw [sent]
        exact start_single started (.hello serves) 0
      · rw [sent]
        exact Int.le_refl 0
      · rw [sent]
        exact (by decide : (0 : Int) ≤ pimHelloPeriod * 1)
    · rintro before event after ⟨⟨first, begun, earlier⟩, schedule⟩ punctual ⟨taken, noted⟩
      refine ⟨⟨first, begun, earlier.snoc trivial taken⟩, ?_⟩
      rw [noted]
      exact schedule.step zero ⟨first, begun, earlier⟩ serves own punctual taken
  exact both.2

theorem router_ownAddress : OwnAddress router 2 := by
  intro other serves same
  have served : other ∈ [1, 2, 3] := Host.mem_vifs.mpr ⟨serves.positive, serves.bounded⟩
  have each : ∀ other ∈ [1, 2, 3], (router.iface other).address = (router.iface 2).address → other = 2 := by decide
  exact each other served same

/-- Half a minute with the timers of three interfaces: the clock of `main` every 5 seconds, the queries
every 10 and the Hellos after 30. -/
def untilSecondHello : List Event :=
  [1, 4, 1, 4, 1, 7].flatMap fun timers => .age 5 :: List.replicate timers (.expire 0)

/-- A neighbour, and half a minute until the second Hellos. -/
theorem hellos_on_schedule_session : ∃ s history,
    ReachableWith router (onClock fun _ _ seen => seen) (⟨0, ()⟩ : Timed Unit)
      (fun before event => OnTime before.1 before.2.now event) (s, history) ∧
    history.now = 30 ∧ hellosSent router 2 s = 2 ∧ OnSchedule router 2 s history.now := by
  have passed : endsWithHistory router (onClock fun _ _ seen => seen)
      (fun before event => OnTime before.1 before.2.now event) (⟨0, ()⟩ : Timed Unit)
      (helloFrom (stationOn 2 9) 105 :: untilSecondHello)
      (fun final => decide (final.2.now = 30 ∧ hellosSent router 2 final.1 = 2)) = true := by
    decide +kernel
  obtain ⟨⟨s, history⟩, reached, ended⟩ := reachable_of_endsWithHistory passed
  obtain ⟨now, sent⟩ := of_decide_eq_true ended
  refine ⟨s, history, reached, now, sent, ?_⟩
  exact hellos_on_schedule router_zeroFilled reached ⟨by decide, by decide, by decide⟩ router_ownAddress

end PimDm.Property
