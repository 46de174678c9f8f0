import PimDm.Source.MainLoop
import PimDm.Effect.Agenda
import PimDm.Property.Session
import Mathlib.Algebra.BigOperators.Group.List.Basic
import Mathlib.Algebra.Order.Ring.Int

/-!
# The time that the main loop accounts for

Each pass of the inner loop adds the time since the pass before to the microseconds that were
left of it, takes off the whole seconds, and gives these to `age_callout_queue`.  Nothing is lost:
the clock never falls behind the time of the last pass, and where that is computed after a
timeout, the clock has passed it already.
-/

namespace PimDm.Property

open PimDm.Foundation PimDm.Source PimDm.Effect

variable {model : DataModel} {host : Host} {before after : MainLoop}

def micros (time : Timeval) : Int := time.sec * 1000000 + time.usec

/-- The microseconds are less than a second. -/
def Normal (time : Timeval) : Prop := 0 ≤ time.usec ∧ time.usec < 1000000

/-- The clock never goes back, and a timeout is not early. -/
def KeepsTime (loop : MainLoop) : Turn → Prop
  | .select n clock => loop.clock ≤ clock ∧ (n = 0 → loop.clock + loop.daemon.nextTimer * 1000000 ≤ clock)
  | .pass clock _ => loop.clock ≤ clock
  | _ => True

/-- All time up to the last pass has been accounted for, and it is in the past. -/
structure Accounted (start : Int) (loop : MainLoop) : Prop where
  settled : loop.aged.sum * 1000000 + loop.difftime.usec = micros loop.lasttime - start
  residue : 0 ≤ loop.difftime.usec ∧ loop.difftime.usec ≤ 1000000
  normal : Normal loop.lasttime
  past : micros loop.lasttime ≤ loop.clock
  waited : loop.control = .pass → loop.n = 0 →
    0 ≤ loop.secs ∧ micros loop.lasttime + loop.secs * 1000000 ≤ loop.clock

/-! ## The difference of two times -/

theorem normal_gettimeofday (clock : Int) : Normal (gettimeofday clock) :=
  ⟨Int.emod_nonneg clock (by decide), Int.emod_lt_of_pos clock (by decide)⟩

theorem micros_gettimeofday (clock : Int) : micros (gettimeofday clock) = clock := by
  unfold micros gettimeofday
  exact Int.ediv_mul_add_emod clock 1000000

theorem carry_of_le {difftime : Timeval} (small : difftime.usec ≤ 1000000) : carry difftime = difftime := by
  rw [carry, if_neg (Int.not_lt.mpr small)]

/-- Carrying keeps the time, and ends with microseconds in range if they have not been negative. -/
theorem carry_spec (difftime : Timeval) :
    micros (carry difftime) = micros difftime ∧ (carry difftime).usec ≤ 1000000 ∧
      difftime.sec ≤ (carry difftime).sec ∧ (0 ≤ difftime.usec → 0 ≤ (carry difftime).usec) := by
  fun_induction carry difftime with
  | case1 difftime large ih =>
      obtain ⟨same, small, more, positive⟩ := ih
      unfold micros at same ⊢
      dsimp only at same more positive
      refine ⟨by omega, small, by omega, fun _ => positive (by omega)⟩
  | case2 difftime small => exact ⟨rfl, Int.not_lt.mp small, Int.le_refl _, id⟩

/-- Between two times in order, with less than a second left over from before. -/
theorem elapsed_spec {lasttime curtime : Timeval} {residue : Int} (last : Normal lasttime) (current : Normal curtime)
    (order : micros lasttime ≤ micros curtime) (left : 0 ≤ residue ∧ residue ≤ 1000000) {difftime : Timeval}
    (elapsed : difftime = borrow (carry ⟨curtime.sec - lasttime.sec, residue + (curtime.usec - lasttime.usec)⟩)) :
    micros difftime = micros curtime - micros lasttime + residue ∧
      0 ≤ difftime.sec ∧ 0 ≤ difftime.usec ∧ difftime.usec ≤ 1000000 := by
  unfold Normal at last current
  unfold micros at order
  have seconds : lasttime.sec ≤ curtime.sec := by omega
  obtain ⟨same, small, more, positive⟩ :=
    carry_spec ⟨curtime.sec - lasttime.sec, residue + (curtime.usec - lasttime.usec)⟩
  unfold micros at same ⊢
  dsimp only at same more positive
  rw [elapsed, borrow]
  by_cases negative : (carry ⟨curtime.sec - lasttime.sec, residue + (curtime.usec - lasttime.usec)⟩).usec < 0
  · -- Nothing was carried, so the microseconds of the clock have wrapped and its seconds have grown.
    have less : residue + (curtime.usec - lasttime.usec) ≤ 1000000 := by omega
    have unchanged : carry ⟨curtime.sec - lasttime.sec, residue + (curtime.usec - lasttime.usec)⟩ =
        ⟨curtime.sec - lasttime.sec, residue + (curtime.usec - lasttime.usec)⟩ := carry_of_le less
    rw [if_pos negative]
    rw [unchanged] at negative ⊢
    dsimp only at negative ⊢
    omega
  · rw [if_neg negative]
    omega

/-! ## The turns -/

/-- What a turn leaves of the time when it only works on the daemon. -/
def timing (loop : MainLoop) : Timeval × Timeval × Int × List Int :=
  (loop.difftime, loop.lasttime, loop.clock, loop.aged)

theorem onDaemon_timing {α : Type} (program : Act α) :
    Within (fun first last => timing last = timing first) (onDaemon program) := by
  intro loop value final run
  unfold Runs onDaemon at run
  split at run
  · cases run
    rfl
  · cases run

theorem Accounted.of_timing {start : Int} (accounted : Accounted start before) (same : timing after = timing before)
    (elsewhere : after.control ≠ .pass) : Accounted start after := by
  obtain ⟨difftime, lasttime, clock, aged⟩ : after.difftime = before.difftime ∧ after.lasttime = before.lasttime ∧
      after.clock = before.clock ∧ after.aged = before.aged := by
    simpa only [timing, Prod.mk.injEq] using same
  refine ⟨?_, ?_, ?_, ?_, fun here => absurd here elsewhere⟩
  · rw [aged, difftime, lasttime]
    exact accounted.settled
  · rw [difftime]
    exact accounted.residue
  · rw [lasttime]
    exact accounted.normal
  · rw [lasttime, clock]
    exact accounted.past

theorem handlersTurn_timing {igmp pim : Option Received}
    (run : Runs (handlersTurn model host igmp pim) before () after) :
    timing after = timing before ∧ after.control = .top := by
  have steady := steady_same timing
  obtain ⟨_, first, igmpRun, rest⟩ := runs_bind.mp run
  obtain ⟨_, second, pimRun, last⟩ := runs_bind.mp rest
  obtain rfl := runs_modify.mp last
  refine ⟨?_, rfl⟩
  have igmpKept : timing first = timing before := by
    cases igmp with
    | none => exact within_pure steady () _ _ _ igmpRun
    | some packet => exact onDaemon_timing _ _ _ _ igmpRun
  have pimKept : timing second = timing first := by
    cases pim with
    | none => exact within_pure steady () _ _ _ pimRun
    | some packet => exact onDaemon_timing _ _ _ _ pimRun
  exact pimKept.trans igmpKept

/-- `select` sets the timeout and the clock. -/
theorem selectTurn_after {n clock : Int} (run : Runs (selectTurn n clock) before () after) :
    after = { before with
      secs := before.daemon.nextTimer
      n := n
      clock := clock
      control := if n < 0 then .top else .pass } := by
  cases run
  rfl

theorem nextTimer_nonneg {s : Daemon} (pending : s.nextTimer ≠ -1) : 0 ≤ s.nextTimer := by
  unfold Daemon.nextTimer at *
  split at pending
  case h_1 => exact absurd rfl pending
  case h_2 ptr rest queue =>
    split
    · exact Int.le_refl 0
    · rename_i positive
      exact Int.not_lt.mp positive

theorem Accounted.select {start n clock : Int} (accounted : Accounted start before)
    (may : KeepsTime before (.select n clock)) (step : MainStep model host before (.select n clock) after) :
    Accounted start after := by
  obtain ⟨⟨_, _, timeout⟩, run⟩ := step
  obtain ⟨forward, waits⟩ := may
  have past := accounted.past
  obtain rfl := selectTurn_after run
  refine ⟨accounted.settled, accounted.residue, accounted.normal, Int.le_trans past forward, fun _ expired => ?_⟩
  have late := waits expired
  refine ⟨nextTimer_nonneg (timeout expired), ?_⟩
  change micros before.lasttime + before.daemon.nextTimer * 1000000 ≤ clock
  omega

/-! ## A pass -/

/-- What a pass knows when it tests for ageing: the difference is that of the two times and what
was left from before, in range, and the new time is in the past. -/
structure Measured (before read : MainLoop) : Prop where
  difference : micros read.difftime = micros read.lasttime - micros before.lasttime + before.difftime.usec
  seconds : 0 ≤ read.difftime.sec
  residue : 0 ≤ read.difftime.usec ∧ read.difftime.usec ≤ 1000000
  normal : Normal read.lasttime
  past : micros read.lasttime ≤ read.clock
  running : read.n ≠ 0
  daemon : read.daemon = before.daemon
  aged : read.aged = before.aged

theorem Accounted.tick {start clock : Int} (accounted : Accounted start before) (forward : before.clock ≤ clock) :
    Accounted start (before.tick clock) := by
  refine ⟨accounted.settled, accounted.residue, accounted.normal, Int.le_trans accounted.past forward,
    fun here expired => ?_⟩
  obtain ⟨positive, late⟩ := accounted.waited here expired
  exact ⟨positive, Int.le_trans late forward⟩

/-- The time is read from the clock, or the timeout is added to the time before. -/
theorem Accounted.readTime {start : Int} {loop : MainLoop} (accounted : Accounted start loop)
    (here : loop.control = .pass) :
    Normal loop.readTime.curtime ∧ micros loop.lasttime ≤ micros loop.readTime.curtime ∧
      micros loop.readTime.curtime ≤ loop.clock ∧ loop.readTime.n ≠ 0 := by
  unfold MainLoop.readTime
  by_cases expired : loop.n = 0
  · obtain ⟨positive, late⟩ := accounted.waited here expired
    have later : micros ⟨loop.lasttime.sec + loop.secs, loop.lasttime.usec⟩ =
        micros loop.lasttime + loop.secs * 1000000 := by
      unfold micros
      dsimp only
      omega
    rw [if_pos expired]
    refine ⟨accounted.normal, ?_, later ▸ late, fun zero => absurd zero (by decide : (-1 : Int) ≠ 0)⟩
    rw [later]
    omega
  · rw [if_neg expired]
    refine ⟨normal_gettimeofday loop.clock, ?_, ?_, expired⟩
    · rw [micros_gettimeofday]
      exact accounted.past
    · rw [micros_gettimeofday]

theorem readTime_keeps (loop : MainLoop) :
    loop.readTime.lasttime = loop.lasttime ∧ loop.readTime.difftime = loop.difftime ∧ loop.readTime.clock = loop.clock ∧
      loop.readTime.daemon = loop.daemon ∧ loop.readTime.aged = loop.aged := by
  unfold MainLoop.readTime
  split <;> exact ⟨rfl, rfl, rfl, rfl, rfl⟩

theorem Accounted.account {start : Int} {loop : MainLoop} (accounted : Accounted start loop)
    (here : loop.control = .pass) : Measured loop loop.readTime.account := by
  obtain ⟨normal, order, past, running⟩ := accounted.readTime here
  obtain ⟨lasttime, difftime, clock, daemon, aged⟩ := readTime_keeps loop
  have elapsed : loop.readTime.account.difftime = borrow (carry ⟨loop.readTime.curtime.sec - loop.lasttime.sec,
      loop.difftime.usec + (loop.readTime.curtime.usec - loop.lasttime.usec)⟩) := by
    rw [← lasttime, ← difftime]
    rfl
  obtain ⟨difference, seconds, residue⟩ := elapsed_spec accounted.normal normal order accounted.residue elapsed
  exact ⟨difference, seconds, residue, normal, clock ▸ past, running, daemon, aged⟩

/-- The test for ageing. -/
def Ages (read : MainLoop) : Prop := read.secs = 0 ∨ read.difftime.sec > 0

/-- A pass ages the queue by the seconds of the difference, or leaves it. -/
theorem passTurn_after {clock : Int} {pktcnts : Nat → Int} (run : Runs (passTurn host clock pktcnts) before () after) :
    (Ages (before.measure clock) ∧ ∃ daemon,
        Runs (ageCalloutQueue host (before.measure clock).difftime.sec pktcnts)
          (before.measure clock).daemon () daemon ∧
        after = { before.measure clock with
          daemon := daemon
          aged := (before.measure clock).aged ++ [(before.measure clock).difftime.sec] }.endPass) ∨
      (¬ Ages (before.measure clock) ∧ after = (before.measure clock).endPass) := by
  obtain ⟨_, read, measured, rest⟩ := runs_bind.mp run
  obtain rfl := runs_modify.mp measured
  rw [runs_get_bind] at rest
  obtain ⟨_, aged, ageing, last⟩ := runs_bind.mp rest
  obtain rfl := runs_modify.mp last
  rcases runs_onlyIf.mp ageing with ⟨ages, ageing⟩ | ⟨quiet, rfl⟩
  · obtain ⟨_, noted, note, calls⟩ := runs_bind.mp ageing
    obtain rfl := runs_modify.mp note
    unfold Runs onDaemon at calls
    split at calls
    case h_1 value daemon called =>
      cases calls
      exact Or.inl ⟨ages, daemon, called, rfl⟩
    case h_2 => cases calls
  · exact Or.inr ⟨quiet, rfl⟩

/-- The total of the seconds after a pass. -/
theorem passTurn_aged {clock : Int} {pktcnts : Nat → Int} (seconds : 0 ≤ (before.measure clock).difftime.sec)
    (run : Runs (passTurn host clock pktcnts) before () after) :
    after.aged.sum = (before.measure clock).aged.sum + (before.measure clock).difftime.sec ∧
      after.difftime = (before.measure clock).difftime ∧ after.lasttime = (before.measure clock).lasttime ∧
      after.clock = (before.measure clock).clock ∧ after.n = (before.measure clock).n := by
  rcases passTurn_after run with ⟨_, daemon, _, rfl⟩ | ⟨quiet, rfl⟩
  · refine ⟨?_, rfl, rfl, rfl, rfl⟩
    change ((before.measure clock).aged ++ [(before.measure clock).difftime.sec]).sum = _
    rw [List.sum_append, List.sum_singleton]
  · refine ⟨?_, rfl, rfl, rfl, rfl⟩
    have none : ¬ (before.measure clock).difftime.sec > 0 := fun more => quiet (Or.inr more)
    change (before.measure clock).aged.sum = _
    omega

theorem Accounted.measure {start clock : Int} (accounted : Accounted start before) (here : before.control = .pass)
    (forward : before.clock ≤ clock) : Measured before (before.measure clock) := by
  obtain ⟨difference, seconds, residue, normal, past, running, daemon, aged⟩ := (accounted.tick forward).account here
  exact ⟨difference, seconds, residue, normal, past, running, daemon, aged⟩

theorem Accounted.pass {start clock : Int} {pktcnts : Nat → Int} (accounted : Accounted start before)
    (may : KeepsTime before (.pass clock pktcnts)) (step : MainStep model host before (.pass clock pktcnts) after) :
    Accounted start after ∧ 0 ≤ after.difftime.sec := by
  obtain ⟨here, run⟩ := step
  have measured := accounted.measure here may
  obtain ⟨total, difftime, lasttime, clocks, n⟩ := passTurn_aged measured.seconds run
  rw [difftime]
  refine ⟨⟨?_, ?_, ?_, ?_, fun _ expired => ?_⟩, measured.seconds⟩
  · have settled := accounted.settled
    have difference := measured.difference
    rw [total, measured.aged, difftime, lasttime]
    unfold micros at difference settled ⊢
    omega
  · rw [difftime]
    exact measured.residue
  · rw [lasttime]
    exact measured.normal
  · rw [lasttime, clocks]
    exact measured.past
  · exact absurd (n ▸ expired) measured.running

/-! ## Runs -/

theorem accounted_step {start : Int} {turn : Turn} (accounted : Accounted start before) (may : KeepsTime before turn)
    (step : MainStep model host before turn after) : Accounted start after := by
  cases turn with
  | signal =>
      obtain rfl := runs_modify.mp step.2
      exact ⟨accounted.settled, accounted.residue, accounted.normal, accounted.past, accounted.waited⟩
  | select n clock => exact accounted.select may step
  | pass clock pktcnts => exact (accounted.pass may step).1
  | handlers igmp pim =>
      obtain ⟨same, top⟩ := handlersTurn_timing step.2
      exact accounted.of_timing same (by rw [top]; decide)
  | exit =>
      obtain rfl := runs_modify.mp step.2
      exact accounted.of_timing rfl fun here => nomatch here

theorem accounted_start {start : MainLoop} (starts : StartsLoop host start) :
    Accounted (micros start.lasttime) start := by
  obtain ⟨_, residue, curtime, lasttime, control, aged⟩ := starts
  refine ⟨?_, ?_, ?_, ?_, fun here => ?_⟩
  · rw [aged, residue, Int.sub_self]
    rfl
  · rw [residue]
    decide
  · rw [lasttime, curtime]
    exact normal_gettimeofday start.clock
  · rw [lasttime, curtime, micros_gettimeofday]
  · rw [control] at here
    cases here

theorem accounted_of_reaches {start loop : MainLoop} (starts : StartsLoop host start)
    (run : Reaches (MainStep model host) KeepsTime start loop) : Accounted (micros start.lasttime) loop :=
  run.keeps (accounted_start starts) fun _ _ _ accounted may step => accounted_step accounted may step

/-! ## The daemon in the loop -/

/-- The daemon has come to its state by events of its own machine, and calls no timers now. -/
structure Serving (host : Host) (s : Daemon) : Prop where
  reachable : Reachable host (fun _ _ => True) s
  idle : s.expired = []

/-- Nothing that the sockets deliver is the passing of time. -/
def External (event : Event) : Prop := event.isExpire = false ∧ ∀ elapsedTime, event ≠ .age elapsedTime

theorem Serving.handle {s s' : Daemon} {event : Event} (serving : Serving host s) (external : External event)
    (run : Runs (handle host event) s () s') : Serving host s' := by
  obtain ⟨start, started, before⟩ := serving.reachable
  obtain ⟨other, passes⟩ := external
  have enabled : event.Enabled s := by
    rw [Event.Enabled, other, serving.idle]
    rfl
  have schedules := handle_schedules passes run
  have same : begun s event = s := by
    cases event with
    | expire pktcnt => cases other
    | _ => rfl
  rw [same] at schedules
  exact ⟨⟨start, started, before.snoc trivial ⟨enabled, run⟩⟩, schedules.batch.trans serving.idle⟩

theorem Serving.age {s s' : Daemon} {elapsedTime : Int} {pktcnts : Nat → Int} (serving : Serving host s)
    (forward : 0 ≤ elapsedTime) (run : Runs (ageCalloutQueue host elapsedTime pktcnts) s () s') :
    Serving host s' := by
  obtain ⟨start, started, before⟩ := serving.reachable
  obtain ⟨seconds, rfl⟩ := Int.eq_ofNat_of_zero_le forward
  obtain ⟨passes, calls, empty⟩ := ageCalloutQueue_reaches serving.idle run
  have called : Reaches (Step host) (fun _ _ => True) (s.age seconds) s' := calls.mono fun _ _ _ => trivial
  exact ⟨⟨start, started, (before.snoc trivial passes).trans called⟩, empty⟩

theorem igmpEvent_external {buf : Memory} {length : Int} {checked routed : Addr} {event : Event}
    (made : igmpEvent model buf length checked routed = some event) : External event := by
  unfold igmpEvent at made
  dsimp only at made
  repeat' split at made
  all_goals
    cases made
    try exact ⟨rfl, fun _ other => nomatch other⟩

theorem onDaemon_runs {program : Act Unit} (run : Runs (onDaemon program) before () after) :
    Runs program before.daemon () after.daemon := by
  unfold Runs onDaemon at run
  split at run
  case h_1 value daemon ran =>
    cases run
    exact ran
  case h_2 => cases run

theorem readIgmp_serves {packet : Option Received} (serving : Serving host before.daemon)
    (run : Runs (readIgmp model host packet) before () after) : Serving host after.daemon := by
  cases packet with
  | none =>
      obtain ⟨_, rfl⟩ := runs_pure.mp run
      exact serving
  | some packet =>
      have ran := onDaemon_runs run
      unfold igmpInput at ran
      cases made : igmpEvent model packet.buf packet.length packet.checked packet.routed with
      | none =>
          rw [made] at ran
          obtain ⟨_, same⟩ := runs_pure.mp ran
          exact same ▸ serving
      | some event =>
          rw [made] at ran
          exact serving.handle (igmpEvent_external made) ran

theorem readPim_serves {packet : Option Received} (serving : Serving host before.daemon)
    (run : Runs (readPim model host packet) before () after) : Serving host after.daemon := by
  cases packet with
  | none =>
      obtain ⟨_, rfl⟩ := runs_pure.mp run
      exact serving
  | some packet =>
      have ran := onDaemon_runs run
      rcases pimInput_handles model host packet.buf packet.length with dropped | ⟨type, handled⟩
      · rw [dropped] at ran
        obtain ⟨_, same⟩ := runs_pure.mp ran
        exact same ▸ serving
      · rw [handled] at ran
        exact serving.handle ⟨rfl, fun _ other => Event.noConfusion other⟩ ran

theorem serving_step {start : Int} {turn : Turn} (accounted : Accounted start before) (may : KeepsTime before turn)
    (serving : Serving host before.daemon) (step : MainStep model host before turn after) :
    Serving host after.daemon := by
  cases turn with
  | signal =>
      obtain rfl := runs_modify.mp step.2
      exact serving
  | select n clock =>
      obtain rfl := selectTurn_after step.2
      exact serving
  | pass clock pktcnts =>
      have measured := accounted.measure step.1 may
      rcases passTurn_after step.2 with ⟨_, daemon, aged, rfl⟩ | ⟨_, rfl⟩
      · rw [measured.daemon] at aged
        exact serving.age measured.seconds aged
      · change Serving host (before.measure clock).daemon
        rw [measured.daemon]
        exact serving
  | handlers igmp pim =>
      obtain ⟨_, first, igmpRun, rest⟩ := runs_bind.mp step.2
      obtain ⟨_, second, pimRun, last⟩ := runs_bind.mp rest
      obtain rfl := runs_modify.mp last
      have served : Serving host second.daemon := readPim_serves (readIgmp_serves serving igmpRun) pimRun
      exact served
  | exit =>
      obtain rfl := runs_modify.mp step.2
      exact serving

/-- The main loop drives the daemon through runs of its machine. -/
theorem serving_of_reaches {start loop : MainLoop} (starts : StartsLoop host start)
    (run : Reaches (MainStep model host) KeepsTime start loop) : Serving host loop.daemon := by
  have first : Accounted (micros start.lasttime) start ∧ Serving host start.daemon :=
    ⟨accounted_start starts, ⟨start.daemon, starts.daemon, .refl _⟩, start_idle starts.daemon⟩
  refine (run.keeps (P := fun loop => Accounted (micros start.lasttime) loop ∧ Serving host loop.daemon) first ?_).2
  rintro before turn after ⟨accounted, serving⟩ may step
  exact ⟨accounted_step accounted may step, serving_step accounted may serving step⟩

/-! ## The total -/

/-- After every pass, the seconds given to `age_callout_queue` and the microseconds left over are
the time since the start. -/
theorem time_is_accounted {start : MainLoop} {clock : Int} {pktcnts : Nat → Int} (starts : StartsLoop host start)
    (run : Reaches (MainStep model host) KeepsTime start before) (may : KeepsTime before (.pass clock pktcnts))
    (pass : MainStep model host before (.pass clock pktcnts) after) :
    after.aged.sum * 1000000 + after.difftime.usec = micros after.lasttime - micros start.lasttime ∧
      0 ≤ after.difftime.usec ∧ after.difftime.usec ≤ 1000000 ∧ 0 ≤ after.difftime.sec := by
  obtain ⟨⟨settled, residue, _, _, _⟩, seconds⟩ := (accounted_of_reaches starts run).pass may pass
  exact ⟨settled, residue.1, residue.2, seconds⟩

/-! ## A run of the loop -/

instance (loop : MainLoop) : (turn : Turn) → Decidable (KeepsTime loop turn)
  | .select _ _ => inferInstanceAs (Decidable (_ ∧ _))
  | .pass _ _ => inferInstanceAs (Decidable (_ ≤ _))
  | .signal | .handlers _ _ | .exit => isTrue trivial

instance (loop : MainLoop) : (turn : Turn) → Decidable (turn.Enabled loop)
  | .select _ _ => inferInstanceAs (Decidable (_ ∧ _))
  | .pass _ _ | .handlers _ _ => inferInstanceAs (Decidable (_ = _))
  | .exit => inferInstanceAs (Decidable (_ ∧ _))
  | .signal => isTrue trivial

/-- A turn that keeps the time and ends without a fault. -/
def attemptTurn (model : DataModel) (host : Host) (loop : MainLoop) (turn : Turn) : Except Unit MainLoop :=
  if KeepsTime loop turn ∧ turn.Enabled loop then
    match takeTurn model host turn loop with
    | .ok (_, after) => .ok after
    | .error _ => .error ()
  else .error ()

theorem attemptTurn_sound {turn : Turn} (taken : attemptTurn model host before turn = .ok after) :
    KeepsTime before turn ∧ MainStep model host before turn after := by
  unfold attemptTurn at taken
  split at taken
  · rename_i may
    cases ended : takeTurn model host turn before with
    | error fault =>
        rw [ended] at taken
        cases taken
    | ok result =>
        rw [ended] at taken
        cases taken
        exact ⟨may.1, may.2, ended⟩
  · cases taken

/-- `main` enters the loop with this daemon, 0.3 seconds after the clock started. -/
def entersLoop (daemon : Daemon) : MainLoop where
  daemon := daemon
  mysignal := 0
  secs := 0
  n := 0
  curtime := gettimeofday 300000
  difftime := ⟨0, 0⟩
  lasttime := gettimeofday 300000
  control := .top
  clock := 300000
  aged := []

/-- What is left of the start, the turns and one more turn passes a test. -/
def loopEndsWith (model : DataModel) (host : Host) (turns : List Turn) (last : Turn) (test : MainLoop → Bool) : Bool :=
  (boot host (Daemon.blank fun _ => 0)).toOption.any fun booted =>
    (replay (attemptTurn model host) turns (entersLoop booted.2)).toOption.any fun before =>
      (attemptTurn model host before last).toOption.any test

theorem toOption_any {ε α : Type} {result : Except ε α} {test : α → Bool} (passed : result.toOption.any test = true) :
    ∃ value, result = .ok value ∧ test value = true := by
  cases result with
  | error fault => cases passed
  | ok value => exact ⟨value, rfl, passed⟩

theorem run_of_loopEndsWith {turns : List Turn} {last : Turn} {test : MainLoop → Bool}
    (passed : loopEndsWith model host turns last test = true) : ∃ start before after, StartsLoop host start ∧
      Reaches (MainStep model host) KeepsTime start before ∧ KeepsTime before last ∧
      MainStep model host before last after ∧ test after = true := by
  obtain ⟨booted, starts, passed⟩ := toOption_any passed
  obtain ⟨before, replayed, passed⟩ := toOption_any passed
  obtain ⟨after, taken, passed⟩ := toOption_any passed
  have run : Reaches (MainStep model host) KeepsTime (entersLoop booted.2) before :=
    reaches_of_replay (fun _ _ _ => attemptTurn_sound) replayed
  obtain ⟨keeps, step⟩ := attemptTurn_sound taken
  have start : StartsLoop host (entersLoop booted.2) := ⟨⟨fun _ => 0, starts⟩, rfl, rfl, rfl, rfl, rfl⟩
  exact ⟨_, before, after, start, run, keeps, step, passed⟩

/-- `select` times out after 5.1 seconds and later finds a packet; the tenth of a second that one pass
leaves is counted in the next. -/
theorem time_is_accounted_passes : ∃ start before after, StartsLoop loneRouter start ∧
    Reaches (MainStep .lp64 loneRouter) KeepsTime start before ∧
    MainStep .lp64 loneRouter before (.pass 6350000 fun _ => 0) after ∧
    after.aged = [5, 1] ∧ after.difftime.usec = 50000 ∧
    after.aged.sum * 1000000 + after.difftime.usec = micros after.lasttime - micros start.lasttime ∧
    0 ≤ after.difftime.usec ∧ after.difftime.usec ≤ 1000000 ∧ 0 ≤ after.difftime.sec := by
  have passed : loopEndsWith .lp64 loneRouter [.select 0 5400000, .pass 5400000 fun _ => 0,
      .pass 5400000 fun _ => 0, .select 1 6350000] (.pass 6350000 fun _ => 0)
      (fun after => decide (after.aged = [5, 1] ∧ after.difftime.usec = 50000)) = true := by decide +kernel
  obtain ⟨start, before, after, starts, run, keeps, pass, ended⟩ := run_of_loopEndsWith passed
  obtain ⟨aged, residue⟩ := of_decide_eq_true ended
  exact ⟨start, before, after, starts, run, pass, aged, residue, time_is_accounted starts run keeps pass⟩

end PimDm.Property
