import PimDm.Effect.Agenda
import PimDm.Foundation.ListView

/-!
# The timer queue as a map of deadlines

For a client of the queue a pending timer is an id with the seconds it has left and the function
to call.  Setting, clearing and ageing act on this map, and ageing calls the timers that are due
by the seconds they had left and, where these are equal, by their ids, which count up.
-/

namespace PimDm.Property

open PimDm.Foundation PimDm.Source PimDm.Effect

/-- The pending timers by their ids: the seconds left, and the function to call. -/
abbrev Deadlines := Int → Option (Int × Callback)

namespace Deadlines

def set (pending : Deadlines) (timer delay : Int) (action : Callback) : Deadlines :=
  Function.update pending timer (some (delay, action))

def clear (pending : Deadlines) (timer : Int) : Deadlines := Function.update pending timer none

/-- Time passes: what is due by then is gone, and the rest has so much less left. -/
def pass (pending : Deadlines) (elapsedTime : Int) : Deadlines := fun timer =>
  (pending timer).bind fun entry =>
    if entry.1 ≤ elapsedTime then none else some (entry.1 - elapsedTime, entry.2)

/-- The seconds a timer has left, and -1 where it is not pending. -/
def left (pending : Deadlines) (timer : Int) : Int := ((pending timer).map Prod.fst).getD (-1)

end Deadlines

/-- The timers of the queue. -/
def deadlines (s : Daemon) : Deadlines := fun timer =>
  ((due 0 s.queue).find? fun entry => hasId timer entry.2).map fun entry => (entry.1, entry.2.2)

/-- States whose queue has been built by setting, clearing and ageing.  What else happens, and what
the functions of the timers do while `age_callout_queue` calls them, is in between. -/
inductive Built : Daemon → Prop where
  | start {s : Daemon} (ids : s.id = 0) (queue : s.queue = []) : Built s
  | setTimer {s : Daemon} (built : Built s) (delay : Int) (action : Callback) : Built (s.setTimer delay action)
  | clearTimer {s : Daemon} (built : Built s) (timer : Int) : Built (s.clearTimer timer)
  | age {s : Daemon} (built : Built s) (elapsedTime : Int) : Built (s.age elapsedTime)
  | other {s s' : Daemon} (built : Built s) (ids : s'.id = s.id) (queue : s'.queue = s.queue) : Built s'

/-- The program neither sets nor clears timers. -/
def SparesTimers (program : Act Unit) : Prop :=
  Within (fun before after => after.id = before.id ∧ after.queue = before.queue ∧ after.expired = before.expired)
    program

/-- Call the functions of these timers one by one. -/
def callBatch (call : Nat → Callback → Act Unit) (batch : List (Int × Int × Callback)) : Act Unit :=
  foldProgram (fun _ turn => do
    modify Daemon.popExpired
    call turn.2 turn.1.2.2) batch.zipIdx ()

/-- Timers in the order in which they run: by the seconds left, and then by id. -/
def InTurn (batch : List (Int × Int × Callback)) : Prop :=
  batch.Pairwise (DeltaQueue.Ahead fun timer other => timer.1 < other.1)

/-- The operations on the queue are those on the map of deadlines. -/
structure RefinesDeadlines (s : Daemon) : Prop where
  left : ∀ timer, Runs (timerLeftTimer timer) s (s.leftTimer timer) s ∧ s.leftTimer timer = (deadlines s).left timer
  /-- A new timer has its delay left, and all others what they had. -/
  set : ∀ delay action, deadlines s (s.id + 1) = none ∧ ∃ s', Runs (timerSetTimer delay action) s (s.id + 1) s' ∧
    deadlines s' = (deadlines s).set (s.id + 1) delay action ∧
    s'.leftTimer (s.id + 1) = delay ∧ ∀ timer, timer ≠ s.id + 1 → s'.leftTimer timer = s.leftTimer timer
  /-- The timer is gone, and all others have left what they had. -/
  clear : ∀ timer, ∃ s', Runs (timerClearTimer timer) s () s' ∧ deadlines s' = (deadlines s).clear timer ∧
    ∀ other, other ≠ timer → s'.leftTimer other = s.leftTimer other
  /-- Exactly the timers with no more time left are called, in turn, and all others have so much
  less left. -/
  age : ∀ elapsedTime, ∃ batch, InTurn batch ∧
    (∀ left timer action, (left, timer, action) ∈ batch ↔ deadlines s timer = some (left, action) ∧
      left ≤ elapsedTime) ∧
    ∀ call, (∀ round, ∀ entry ∈ batch, SparesTimers (call round entry.2.2)) →
      ageCalling call elapsedTime s = callBatch call batch (s.age elapsedTime) ∧
      ∀ s', Runs (ageCalling call elapsedTime) s () s' → deadlines s' = (deadlines s).pass elapsedTime ∧
        ∀ timer left action, deadlines s timer = some (left, action) → elapsedTime < left →
          s'.leftTimer timer = left - elapsedTime

/-! ## The order of the queue -/

/-- At all times the queue is in order, and its ids are different and no larger than the last one
given. -/
structure Timetable (s : Daemon) : Prop where
  sorted : ∀ now, InTurn (due now s.queue)
  distinct : ∀ now, ((due now s.queue).map fun entry => entry.2.1).Nodup
  bounds : ∀ now, ∀ entry ∈ due now s.queue, 1 ≤ entry.2.1 ∧ entry.2.1 ≤ s.id
  counts : 0 ≤ s.id

/-- A new id is larger than those of the queue. -/
theorem Timetable.fresh {s : Daemon} (timetable : Timetable s) (now : Int) :
    ∀ entry ∈ due now s.queue, entry.2.1 < s.id + 1 :=
  fun entry member => Int.lt_add_one_of_le (timetable.bounds now entry member).2

theorem Timetable.setTimer {s : Daemon} (timetable : Timetable s) (delay : Int) (action : Callback) :
    Timetable (s.setTimer delay action) := by
  have inserted (now : Int) : due now (s.setTimer delay action).queue =
      (due now s.queue).orderedInsert DeltaQueue.Sooner (now + delay, s.id + 1, action) :=
    due_insertTimer now _ s.queue
  refine ⟨fun now => ?_, fun now => ?_, fun now entry member => ?_, ?_⟩
  · rw [inserted]
    exact DeltaQueue.pairwise_insert (timetable.sorted now) (timetable.fresh now)
  · rw [inserted, ((List.perm_orderedInsert _ _ _).map _).nodup_iff, List.map_cons, List.nodup_cons]
    refine ⟨fun again => ?_, timetable.distinct now⟩
    obtain ⟨entry, member, same⟩ := List.mem_map.mp again
    exact Int.ne_of_lt (timetable.fresh now entry member) same
  · change 1 ≤ entry.2.1 ∧ entry.2.1 ≤ s.id + 1
    rw [inserted, List.mem_orderedInsert] at member
    rcases member with rfl | old
    · exact ⟨Int.le_add_of_nonneg_left timetable.counts, Int.le_refl _⟩
    · exact ⟨(timetable.bounds now entry old).1, Int.le_of_lt (timetable.fresh now entry old)⟩
  · exact Int.le_trans timetable.counts (Int.le_of_lt (Int.lt_succ s.id))

/-- Fewer timers in the same order. -/
theorem Timetable.of_sublist {s s' : Daemon} (timetable : Timetable s) (ids : s'.id = s.id)
    (fewer : ∀ now, ∃ earlier, (due now s'.queue).Sublist (due earlier s.queue)) : Timetable s' := by
  refine ⟨fun now => ?_, fun now => ?_, fun now entry member => ?_, ids ▸ timetable.counts⟩
  all_goals obtain ⟨earlier, part⟩ := fewer now
  · exact (timetable.sorted earlier).sublist part
  · exact (timetable.distinct earlier).sublist (part.map _)
  · rw [ids]
    exact timetable.bounds earlier entry (part.subset member)

theorem Timetable.clearTimer {s : Daemon} (timetable : Timetable s) (timer : Int) :
    Timetable (s.clearTimer timer) := by
  refine timetable.of_sublist (clearTimer_id s timer) fun now => ⟨now, ?_⟩
  unfold Daemon.clearTimer
  split
  · exact List.Sublist.refl _
  · rw [due_removeTimer]
    exact List.eraseP_sublist

theorem Timetable.age {s : Daemon} (timetable : Timetable s) (elapsedTime : Int) :
    Timetable (s.age elapsedTime) := by
  refine timetable.of_sublist rfl fun now => ⟨now - elapsedTime, ?_⟩
  have kept := due_kept (now - elapsedTime) elapsedTime s.queue
  rw [Int.sub_add_cancel] at kept
  change (due now (detachExpired elapsedTime s.queue).2).Sublist _
  rw [kept]
  exact List.dropWhile_sublist _

theorem Built.timetable {s : Daemon} (built : Built s) : Timetable s := by
  induction built with
  | start ids queue =>
      refine ⟨fun now => ?_, fun now => ?_, fun now entry member => ?_, Int.le_of_eq ids.symm⟩
      · rw [queue]
        exact List.Pairwise.nil
      · rw [queue]
        exact List.nodup_nil
      · rw [queue] at member
        cases member
  | setTimer _ delay action ih => exact ih.setTimer delay action
  | clearTimer _ timer ih => exact ih.clearTimer timer
  | age _ elapsedTime ih => exact ih.age elapsedTime
  | other _ ids queue ih =>
      exact ih.of_sublist ids fun now => ⟨now, by rw [queue]⟩

theorem built_update (update : Update) {s : Daemon} (built : Built s) : Built (update.apply s) := by
  cases update with
  | setTimer delay action => exact built.setTimer delay action
  | clearTimer timer => exact built.clearTimer timer
  | age elapsedTime => exact built.age elapsedTime
  | _ => exact built.other rfl rfl

/-- The queue of the daemon is built in this way, whatever its timers do when they are called. -/
theorem built_of_reachable {host : Host} {allowed : Daemon → Event → Prop} {s : Daemon}
    (reached : Reachable host allowed s) : Built s := by
  have kept {level : Level} {A : Callback → Prop} {first last : Daemon} (changes : Changes level A first last) :
      Built first → Built last :=
    does_relates (steady_keeps Built) (fun update _ _ => built_update update) changes
  obtain ⟨start, started, run⟩ := reached
  obtain ⟨pimSendBuf, booted⟩ := start_changes started
  refine run.keeps (kept booted (.start rfl rfl)) fun _ _ _ built _ taken => ?_
  exact kept (handle_anything taken.2) built

/-! ## Look-ups -/

/-- The map has the timers of the queue. -/
theorem Timetable.deadlines_iff {s : Daemon} (timetable : Timetable s) {timer left : Int} {action : Callback} :
    deadlines s timer = some (left, action) ↔ (left, timer, action) ∈ due 0 s.queue := by
  unfold deadlines
  rw [Option.map_eq_some_iff]
  constructor
  · rintro ⟨⟨_, _, _⟩, found, same⟩
    obtain ⟨member, rfl⟩ := (find?_key_iff (timetable.distinct 0)).mp found
    cases same
    exact member
  · intro member
    exact ⟨_, (find?_key_iff (timetable.distinct 0)).mpr ⟨member, rfl⟩, rfl⟩

/-- Two maps are equal when they have the same timers. -/
theorem deadlines_ext {pending other : Deadlines}
    (same : ∀ timer left action, pending timer = some (left, action) ↔ other timer = some (left, action)) :
    pending = other := by
  funext timer
  refine Option.ext fun entry => ?_
  exact same timer entry.1 entry.2

theorem leftTimerLoop_eq (timerId left : Int) (queue : List TimeoutQ) :
    leftTimerLoop timerId left queue =
      (((due left queue).find? fun entry => hasId timerId entry.2).map Prod.fst).getD (-1) := by
  induction queue generalizing left with
  | nil => rfl
  | cons ptr rest ih =>
      unfold leftTimerLoop
      rw [due, List.find?_cons]
      by_cases here : ptr.id = timerId
      · have found : hasId timerId (alarm ptr) = true := decide_eq_true here
        rw [if_pos here, found]
        rfl
      · have passed : hasId timerId (alarm ptr) = false := decide_eq_false here
        rw [if_neg here, passed, ih]

theorem Timetable.leftTimer {s : Daemon} (timetable : Timetable s) (timer : Int) :
    s.leftTimer timer = (deadlines s).left timer := by
  have looked : (deadlines s).left timer = leftTimerLoop timer 0 s.queue := by
    rw [leftTimerLoop_eq, Deadlines.left, deadlines, Option.map_map]
    rfl
  rw [looked, Daemon.leftTimer]
  by_cases none : timer = 0
  · have absent : deadlines s timer = Option.none := by
      refine Option.eq_none_iff_forall_ne_some.mpr fun entry found => ?_
      have bounds := timetable.bounds 0 _ (timetable.deadlines_iff.mp found)
      dsimp only at bounds
      omega
    rw [if_pos none, ← looked, Deadlines.left, absent]
    rfl
  · rw [if_neg none]

/-! ## The operations -/

theorem Timetable.deadlines_setTimer {s : Daemon} (timetable : Timetable s) (delay : Int) (action : Callback) :
    deadlines (s.setTimer delay action) = (deadlines s).set (s.id + 1) delay action := by
  refine deadlines_ext fun timer left func => ?_
  have inserted : (left, timer, func) ∈ due 0 (s.setTimer delay action).queue ↔
      (left, timer, func) = (0 + delay, s.id + 1, action) ∨ (left, timer, func) ∈ due 0 s.queue := by
    change (left, timer, func) ∈ due 0 (insertTimer _ s.queue) ↔ _
    rw [due_insertTimer, List.mem_orderedInsert]
    rfl
  rw [(timetable.setTimer delay action).deadlines_iff, inserted, Int.zero_add, Deadlines.set]
  by_cases new : timer = s.id + 1
  · subst new
    rw [Function.update_self]
    have fresh : (left, s.id + 1, func) ∉ due 0 s.queue := fun old =>
      Int.lt_irrefl _ (timetable.fresh 0 _ old)
    rw [or_iff_left fresh]
    constructor
    · rintro ⟨⟩
      rfl
    · rintro ⟨⟩
      rfl
  · rw [Function.update_of_ne new, timetable.deadlines_iff]
    refine or_iff_right fun same => new ?_
    cases same
    rfl

theorem Timetable.deadlines_clearTimer {s : Daemon} (timetable : Timetable s) (timer : Int) :
    deadlines (s.clearTimer timer) = (deadlines s).clear timer := by
  refine deadlines_ext fun other left func => ?_
  have erased : (left, other, func) ∈ due 0 (s.clearTimer timer).queue ↔
      (left, other, func) ∈ due 0 s.queue ∧ other ≠ timer := by
    unfold Daemon.clearTimer
    by_cases unset : timer = 0 ∨ timer = -1
    · rw [if_pos unset]
      refine iff_self_and.mpr fun member => ?_
      have bounds := timetable.bounds 0 _ member
      dsimp only at bounds
      omega
    · rw [if_neg unset, due_removeTimer]
      exact mem_eraseP_key (timetable.distinct 0) timer (left, other, func)
  rw [(timetable.clearTimer timer).deadlines_iff, erased, ← timetable.deadlines_iff, Deadlines.clear]
  by_cases same : other = timer
  · rw [same, Function.update_self]
    exact iff_of_false (fun kept => kept.2 rfl) (fun found => nomatch found)
  · rw [Function.update_of_ne same]
    exact and_iff_left same

theorem Timetable.deadlines_age {s : Daemon} (timetable : Timetable s) (elapsedTime : Int) :
    deadlines (s.age elapsedTime) = (deadlines s).pass elapsedTime := by
  refine deadlines_ext fun timer left func => ?_
  have moved : (left, timer, func) ∈ due 0 (s.age elapsedTime).queue ↔
      (left + elapsedTime, timer, func) ∈ due (0 + elapsedTime) (s.age elapsedTime).queue := by
    rw [due_add, List.mem_map]
    constructor
    · intro member
      exact ⟨_, member, rfl⟩
    · rintro ⟨⟨_, _, _⟩, member, same⟩
      obtain ⟨sum, rest⟩ := Prod.mk.inj same
      rw [← (Int.add_left_inj elapsedTime).mp sum, ← rest]
      exact member
  have kept : due (0 + elapsedTime) (s.age elapsedTime).queue = _ := due_kept 0 elapsedTime s.queue
  rw [(timetable.age elapsedTime).deadlines_iff, moved, kept, Int.zero_add,
    DeltaQueue.mem_dropWhile_iff (timetable.sorted 0), ← timetable.deadlines_iff, Deadlines.pass,
    Option.bind_eq_some_iff]
  constructor
  · rintro ⟨found, after⟩
    refine ⟨_, found, ?_⟩
    rw [if_neg (Int.not_le.mpr after), Int.add_sub_cancel]
  · rintro ⟨⟨_, _⟩, found, rest⟩
    split at rest
    case isTrue gone => cases rest
    case isFalse waits =>
      cases rest
      rw [Int.sub_add_cancel]
      exact ⟨found, Int.not_le.mp waits⟩

/-! ## Calling the timers -/

/-- A round of the second loop of `age_callout_queue` calls the first timer of the batch. -/
theorem callNextWith_first {call : Callback → Act Unit} {s : Daemon} {ptr : TimeoutQ} {rest : List TimeoutQ}
    (batch : s.expired = ptr :: rest) :
    callNextWith call s = (do modify Daemon.popExpired; call ptr.func : Act Unit) s := by
  cases s
  dsimp only at batch
  subst batch
  rfl

/-- The rounds of the loop call the timers of the batch, as long as these leave it alone. -/
theorem callRounds_eq {call : Nat → Callback → Act Unit} {ptrs : List TimeoutQ} {s : Daemon} (now : Int) (round : Nat)
    (batch : s.expired = ptrs) (spares : ∀ round, ∀ entry ∈ due now ptrs, SparesTimers (call round entry.2.2)) :
    foldProgram (fun _ round => callNextWith (call round)) (List.range' round ptrs.length) () s =
      foldProgram (fun _ turn => do
        modify Daemon.popExpired
        call turn.2 turn.1.2.2) ((due now ptrs).zipIdx round) () s := by
  induction ptrs generalizing s now round with
  | nil => rfl
  | cons ptr rest ih =>
      rw [due, List.zipIdx_cons, List.length_cons, List.range'_succ, foldProgram, foldProgram]
      refine bind_congr_at (callNextWith_first batch) fun _ middle run => ?_
      refine ih (now + ptr.time) (round + 1) ?_ fun round entry member => ?_
      · have turn : Runs (do modify Daemon.popExpired; call round ptr.func : Act Unit) s () middle :=
          (callNextWith_first batch).symm.trans run
        obtain ⟨_, popped, pop, called⟩ := runs_bind.mp turn
        obtain rfl := runs_modify.mp pop
        obtain ⟨_, _, left⟩ := spares round _ (List.mem_cons_self ..) _ _ _ called
        rw [left, Daemon.popExpired, batch]
        rfl
      · exact spares round entry (List.mem_cons_of_mem _ member)

/-- Functions that spare the timers leave the queue as ageing has left it. -/
theorem callBatch_spares {call : Nat → Callback → Act Unit} {batch : List (Int × Int × Callback)}
    (spares : ∀ round, ∀ entry ∈ batch, SparesTimers (call round entry.2.2)) :
    Within (fun before after => (after.id, after.queue) = (before.id, before.queue)) (callBatch call batch) := by
  have steady := steady_same (fun s : Daemon => (s.id, s.queue))
  refine within_foldProgram steady _ () fun turn member _ => ?_
  refine within_bind steady (within_modify fun _ => rfl) fun _ => ?_
  exact within_mono (fun _ _ same => Prod.ext same.1 same.2.1)
    (spares turn.2 turn.1 (List.fst_mem_of_mem_zipIdx member))

/-- What has expired is called in turn, if the functions leave the batch alone. -/
theorem ageCalling_eq (s : Daemon) (elapsedTime : Int) {call : Nat → Callback → Act Unit}
    (spares : ∀ round, ∀ entry ∈ due 0 (detachExpired elapsedTime s.queue).1, SparesTimers (call round entry.2.2)) :
    ageCalling call elapsedTime s =
      callBatch call (due 0 (detachExpired elapsedTime s.queue).1) (s.age elapsedTime) := by
  have rounds := callRounds_eq (s := s.age elapsedTime) 0 0 rfl spares
  rw [← List.range_eq_range'] at rounds
  exact rounds

/-! ## Left times -/

theorem deadlines_congr {s s' : Daemon} (queue : s'.queue = s.queue) : deadlines s' = deadlines s := by
  unfold deadlines
  rw [queue]

namespace Deadlines

theorem left_congr {pending other : Deadlines} {timer : Int} (same : pending timer = other timer) :
    pending.left timer = other.left timer := by
  rw [left, left, same]

theorem left_set (pending : Deadlines) (timer delay : Int) (action : Callback) :
    (pending.set timer delay action).left timer = delay := by
  rw [left, set, Function.update_self]
  rfl

theorem left_pass {pending : Deadlines} {timer elapsedTime time : Int} {action : Callback}
    (found : pending timer = some (time, action)) (waits : elapsedTime < time) :
    (pending.pass elapsedTime).left timer = time - elapsedTime := by
  rw [left, pass, found, Option.bind_some, if_neg (Int.not_le.mpr waits)]
  rfl

end Deadlines

/-! ## The refinement -/

/-- The timer queue refines a map of deadlines. -/
theorem timers_refine_deadlines {s : Daemon} (built : Built s) : RefinesDeadlines s := by
  have timetable := built.timetable
  have left := timetable.leftTimer
  refine ⟨fun timer => ⟨rfl, left timer⟩, fun delay action => ?set, fun timer => ?clear, fun elapsedTime => ?age⟩
  case set =>
    have new := timetable.deadlines_setTimer delay action
    have leftNew := (timetable.setTimer delay action).leftTimer
    refine ⟨?_, s.setTimer delay action, rfl, new, ?_, fun timer other => ?_⟩
    · refine Option.eq_none_iff_forall_ne_some.mpr fun entry found => ?_
      exact Int.lt_irrefl _ (timetable.fresh 0 _ (timetable.deadlines_iff.mp found))
    · rw [leftNew, new, Deadlines.left_set]
    · rw [leftNew, left, new]
      exact Deadlines.left_congr (Function.update_of_ne other _ _)
  case clear =>
    have cleared := timetable.deadlines_clearTimer timer
    refine ⟨s.clearTimer timer, rfl, cleared, fun other apart => ?_⟩
    rw [(timetable.clearTimer timer).leftTimer, left, cleared]
    exact Deadlines.left_congr (Function.update_of_ne apart _ _)
  case age =>
    have detached := due_detached 0 elapsedTime s.queue
    rw [Int.zero_add] at detached
    refine ⟨due 0 (detachExpired elapsedTime s.queue).1, ?_, fun time timer action => ?_, fun call spares => ?_⟩
    · rw [detached]
      exact (timetable.sorted 0).sublist (List.takeWhile_sublist _)
    · rw [detached, DeltaQueue.mem_takeWhile_iff (timetable.sorted 0), timetable.deadlines_iff]
    · have calls := ageCalling_eq s elapsedTime spares
      refine ⟨calls, fun s' run => ?_⟩
      obtain ⟨ids, queue⟩ := Prod.mk.inj (callBatch_spares spares _ _ _ (calls.symm.trans run))
      have passed : deadlines s' = (deadlines s).pass elapsedTime :=
        (deadlines_congr queue).trans (timetable.deadlines_age elapsedTime)
      have after : Timetable s' := ((built.age elapsedTime).other ids queue).timetable
      refine ⟨passed, fun timer time action found waits => ?_⟩
      rw [after.leftTimer, passed, Deadlines.left_pass found waits]

/-- The timer of a Hello without a hold time is due before the one set ahead of it. -/
theorem timers_refine_deadlines_hello :
    RefinesDeadlines (((Daemon.blank fun _ => 0).setTimer 5 .timer).setTimer (-1) (.deletePimNeighbor 1)) :=
  timers_refine_deadlines (.setTimer (.setTimer (.start rfl rfl) 5 .timer) (-1) (.deletePimNeighbor 1))

end PimDm.Property
