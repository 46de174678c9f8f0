import PimDm.Effect.Alarms
import PimDm.Foundation.DeltaQueue
import Mathlib.Algebra.Order.Group.Int

/-!
# When pending timers are due

The queue stores each time as the difference to the timer before it; `due` adds
them up.  Insertion, removal and ageing keep the due times of all other timers,
and a timer is detached only when it is due.
-/

namespace PimDm.Effect

open PimDm.Foundation PimDm.Source

/-- The timers of a queue with the times they are due. -/
def due (now : Int) : List TimeoutQ → List (Int × Int × Callback)
  | [] => []
  | ptr :: rest => (now + ptr.time, alarm ptr) :: due (now + ptr.time) rest

/-- All pending timers with the times they are due.  Those being called are due now. -/
def agenda (now : Int) (s : Daemon) : List (Int × Int × Callback) :=
  s.expired.map (fun ptr => (now, alarm ptr)) ++ due now s.queue

/-! ## The queue -/

/-- A timer as an entry of a queue of time differences. -/
def delta (ptr : TimeoutQ) : Int × Int × Callback := (ptr.time, alarm ptr)

theorem due_eq_moments (now : Int) (queue : List TimeoutQ) :
    due now queue = DeltaQueue.moments now (queue.map delta) := by
  induction queue generalizing now with
  | nil => rfl
  | cons ptr rest ih => rw [due, ih, List.map_cons, delta, DeltaQueue.moments]

theorem due_alarms (now : Int) (queue : List TimeoutQ) :
    (due now queue).map Prod.snd = queue.map alarm := by
  rw [due_eq_moments, DeltaQueue.moments_items, List.map_map]
  rfl

theorem insertTimer_deltas (node : TimeoutQ) (queue : List TimeoutQ) :
    (insertTimer node queue).map delta = DeltaQueue.insert node.time (alarm node) (queue.map delta) := by
  induction queue generalizing node with
  | nil => rfl
  | cons ptr rest ih =>
      unfold insertTimer
      rw [List.map_cons, delta, DeltaQueue.insert]
      split
      · rfl
      · rw [List.map_cons, ih]
        rfl

theorem removeTimer_deltas (timerId : Int) (queue : List TimeoutQ) :
    (removeTimer timerId queue).map delta = DeltaQueue.remove (hasId timerId) (queue.map delta) := by
  induction queue with
  | nil => rfl
  | cons ptr rest ih =>
      unfold removeTimer
      rw [List.map_cons, delta]
      unfold DeltaQueue.remove
      by_cases here : ptr.id = timerId
      · have first : hasId timerId (alarm ptr) = true := decide_eq_true here
        rw [if_pos here, if_pos first]
        cases rest <;> rfl
      · have other : ¬ hasId timerId (alarm ptr) = true := fun same => here (of_decide_eq_true same)
        rw [if_neg here, if_neg other, List.map_cons, ih]
        rfl

theorem detachExpired_deltas (elapsedTime : Int) (queue : List TimeoutQ) :
    ((detachExpired elapsedTime queue).1.map delta, (detachExpired elapsedTime queue).2.map delta) =
      DeltaQueue.expire elapsedTime (queue.map delta) := by
  induction queue generalizing elapsedTime with
  | nil => rfl
  | cons ptr rest ih =>
      unfold detachExpired
      rw [List.map_cons, delta, DeltaQueue.expire]
      by_cases waits : elapsedTime < ptr.time
      · rw [if_pos waits, if_pos waits]
        rfl
      · rw [if_neg waits, if_neg waits, ← ih]
        rfl

/-- A new timer comes behind the timers that are not due later. -/
theorem due_insertTimer (now : Int) (node : TimeoutQ) (queue : List TimeoutQ) :
    due now (insertTimer node queue) =
      (due now queue).orderedInsert DeltaQueue.Sooner (now + node.time, alarm node) := by
  rw [due_eq_moments, due_eq_moments, insertTimer_deltas, DeltaQueue.moments_insert]

theorem due_removeTimer (now timerId : Int) (queue : List TimeoutQ) :
    due now (removeTimer timerId queue) = (due now queue).eraseP fun entry => hasId timerId entry.2 := by
  rw [due_eq_moments, due_eq_moments, removeTimer_deltas, DeltaQueue.moments_remove]

/-- Seen from another time, all timers are due so much later. -/
theorem due_add (now shift : Int) (queue : List TimeoutQ) :
    due (now + shift) queue = (due now queue).map fun entry => (entry.1 + shift, entry.2) := by
  rw [due_eq_moments, due_eq_moments, DeltaQueue.moments_add]

/-- What ageing detaches are the first timers that are due by then. -/
theorem due_detached (now elapsedTime : Int) (queue : List TimeoutQ) :
    due now (detachExpired elapsedTime queue).1 = (due now queue).takeWhile (DeltaQueue.past (now + elapsedTime)) := by
  have detached : (detachExpired elapsedTime queue).1.map delta = (DeltaQueue.expire elapsedTime (queue.map delta)).1 :=
    congrArg Prod.fst (detachExpired_deltas elapsedTime queue)
  rw [due_eq_moments, due_eq_moments, detached]
  exact (DeltaQueue.moments_expire now elapsedTime _).1

/-- The rest stays due when it was. -/
theorem due_kept (now elapsedTime : Int) (queue : List TimeoutQ) :
    due (now + elapsedTime) (detachExpired elapsedTime queue).2 =
      (due now queue).dropWhile (DeltaQueue.past (now + elapsedTime)) := by
  have kept : (detachExpired elapsedTime queue).2.map delta = (DeltaQueue.expire elapsedTime (queue.map delta)).2 :=
    congrArg Prod.snd (detachExpired_deltas elapsedTime queue)
  rw [due_eq_moments, due_eq_moments, kept]
  exact (DeltaQueue.moments_expire now elapsedTime _).2

/-- What ageing detaches is due by then, and the rest stays due when it was. -/
theorem due_detachExpired (now elapsedTime : Int) (queue : List TimeoutQ) :
    ∃ past, due now queue = past ++ due (now + elapsedTime) (detachExpired elapsedTime queue).2 ∧
      past.map Prod.snd = (detachExpired elapsedTime queue).1.map alarm ∧
      ∀ entry ∈ past, entry.1 ≤ now + elapsedTime := by
  refine ⟨due now (detachExpired elapsedTime queue).1, ?_, due_alarms now _, fun entry member => ?_⟩
  · rw [due_detached, due_kept, List.takeWhile_append_dropWhile]
  · rw [due_detached] at member
    exact DeltaQueue.past_iff.mp (List.mem_takeWhile_imp member)

/-! ## The daemon -/

theorem agenda_alarms (now : Int) (s : Daemon) : (agenda now s).map Prod.snd = alarms s := by
  unfold agenda alarms Daemon.pending
  rw [List.map_append, List.map_append, due_alarms, List.map_map]
  rfl

theorem mem_alarms_of_agenda {now time : Int} {s : Daemon} {entry : Int × Callback}
    (member : (time, entry) ∈ agenda now s) : entry ∈ alarms s := by
  rw [← agenda_alarms now]
  exact List.mem_map_of_mem member

theorem agenda_of_mem_alarms (now : Int) {s : Daemon} {entry : Int × Callback}
    (member : entry ∈ alarms s) : ∃ time, (time, entry) ∈ agenda now s := by
  rw [← agenda_alarms now] at member
  obtain ⟨⟨time, _⟩, inside, rfl⟩ := List.mem_map.mp member
  exact ⟨time, inside⟩

theorem agenda_setTimer (now : Int) (s : Daemon) (delay : Int) (action : Callback) :
    (agenda now (s.setTimer delay action)).Perm
      ((now + delay, s.id + 1, action) :: agenda now s) := by
  unfold agenda
  rw [Daemon.setTimer, due_insertTimer]
  exact ((List.perm_orderedInsert _ _ _).append_left _).trans List.perm_middle

theorem mem_agenda_setTimer {now delay : Int} {s : Daemon} {action : Callback}
    {entry : Int × Int × Callback} :
    entry ∈ agenda now (s.setTimer delay action) ↔
      entry = (now + delay, s.id + 1, action) ∨ entry ∈ agenda now s := by
  rw [(agenda_setTimer now s delay action).mem_iff, List.mem_cons]

/-- A timer is cleared by its id, unless it is one of the batch being called. -/
theorem mem_agenda_clearTimer_iff {s : Daemon} (orderly : Orderly s) (now timer : Int)
    (entry : Int × Int × Callback) :
    entry ∈ agenda now (s.clearTimer timer) ↔
      entry ∈ agenda now s ∧ (entry.2.1 ≠ timer ∨ entry.2 ∈ s.expired.map alarm) := by
  unfold Daemon.clearTimer
  by_cases unset : timer = 0 ∨ timer = -1
  · rw [if_pos unset]
    refine iff_self_and.mpr fun member => Or.inl fun same => ?_
    have bounds := orderly.bounds entry.2 (mem_alarms_of_agenda member)
    omega
  · rw [if_neg unset]
    have known := orderly.distinct
    rw [← agenda_alarms now, List.map_map, agenda, List.map_append, List.nodup_append] at known
    obtain ⟨_, distinct, apart⟩ := known
    have rest : entry ∈ due now (removeTimer timer s.queue) ↔ entry ∈ due now s.queue ∧ entry.2.1 ≠ timer := by
      rw [due_removeTimer]
      exact mem_eraseP_key distinct timer entry
    simp only [agenda, List.mem_append, rest]
    constructor
    · rintro (batch | ⟨queued, other⟩)
      · obtain ⟨ptr, inside, rfl⟩ := List.mem_map.mp batch
        exact ⟨Or.inl batch, Or.inr (List.mem_map_of_mem inside)⟩
      · exact ⟨Or.inr queued, Or.inl other⟩
    · rintro ⟨batch | queued, kept⟩
      · exact Or.inl batch
      · refine Or.inr ⟨queued, fun same => ?_⟩
        rcases kept with other | batch
        · exact other same
        · obtain ⟨ptr, inside, called⟩ := List.mem_map.mp batch
          have first : entry.2.1 ∈ (s.expired.map fun ptr => (now, alarm ptr)).map (Prod.fst ∘ Prod.snd) := by
            rw [List.map_map]
            exact List.mem_map.mpr ⟨ptr, inside, congrArg Prod.fst called⟩
          exact apart _ first _ (List.mem_map_of_mem (f := Prod.fst ∘ Prod.snd) queued) rfl

/-- Between two batches a timer is cleared by its id, and no other. -/
theorem mem_agenda_clearTimer {s : Daemon} (orderly : Orderly s) (idle : s.expired = [])
    (now timer : Int) (entry : Int × Int × Callback) :
    entry ∈ agenda now (s.clearTimer timer) ↔ entry ∈ agenda now s ∧ entry.2.1 ≠ timer := by
  rw [mem_agenda_clearTimer_iff orderly, idle]
  simp

/-- Between two batches, what is pending after ageing was pending before, and is due
when it was, or now if that is past. -/
theorem agenda_age {s : Daemon} (idle : s.expired = []) {now elapsedTime : Int}
    {entry : Int × Int × Callback} (member : entry ∈ agenda (now + elapsedTime) (s.age elapsedTime)) :
    entry ∈ agenda now s ∨
      entry.1 = now + elapsedTime ∧ ∃ time, (time, entry.2) ∈ agenda now s ∧ time ≤ entry.1 := by
  obtain ⟨past, split, detached, early⟩ := due_detachExpired now elapsedTime s.queue
  have before : agenda now s = past ++ due (now + elapsedTime) (detachExpired elapsedTime s.queue).2 := by
    rw [agenda, idle, split]
    rfl
  rcases List.mem_append.mp member with moved | kept
  · obtain ⟨ptr, inside, rfl⟩ := List.mem_map.mp moved
    have listed : alarm ptr ∈ past.map Prod.snd := by
      rw [detached]
      exact List.mem_map_of_mem inside
    obtain ⟨⟨time, timer⟩, old, same⟩ := List.mem_map.mp listed
    refine Or.inr ⟨rfl, time, ?_, early _ old⟩
    rw [before, ← same]
    exact List.mem_append_left _ old
  · refine Or.inl ?_
    rw [before]
    exact List.mem_append_right _ kept

theorem mem_agenda_of_popExpired {s : Daemon} {now : Int} {entry : Int × Int × Callback}
    (member : entry ∈ agenda now s.popExpired) : entry ∈ agenda now s := by
  have fewer : (agenda now s.popExpired).Sublist (agenda now s) :=
    ((List.tail_sublist s.expired).map _).append (List.Sublist.refl _)
  exact fewer.subset member

theorem agenda_popExpired {s : Daemon} {ptr : TimeoutQ} {rest : List TimeoutQ}
    (batch : s.expired = ptr :: rest) (now : Int) :
    agenda now s = (now, alarm ptr) :: agenda now s.popExpired := by
  unfold agenda Daemon.popExpired
  rw [batch]
  rfl

/-! ## Handlers -/

/-- The batch stays, and what is due was due at the same time before, or is new, with a larger id. -/
structure Schedules (before after : Daemon) : Prop where
  ids : before.id ≤ after.id
  batch : after.expired = before.expired
  old_or_new : ∀ now, ∀ entry ∈ agenda now after, entry ∈ agenda now before ∨ before.id < entry.2.1

theorem steady_schedules : Steady Schedules where
  refl s := ⟨Int.le_refl _, rfl, fun _ _ member => Or.inl member⟩
  trans left right := by
    refine ⟨Int.le_trans left.ids right.ids, right.batch.trans left.batch, fun now entry member => ?_⟩
    have grown := left.ids
    rcases right.old_or_new now entry member with before | new
    · exact left.old_or_new now entry before
    · exact Or.inr (by omega)

theorem agenda_clearTimer (now : Int) (s : Daemon) (timer : Int) :
    agenda now (s.clearTimer timer) ⊆ agenda now s := by
  unfold Daemon.clearTimer
  split
  · exact List.Subset.refl _
  · intro entry member
    rcases List.mem_append.mp member with batch | queued
    · exact List.mem_append_left _ batch
    · rw [due_removeTimer] at queued
      exact List.mem_append_right _ (List.mem_of_mem_eraseP queued)

theorem schedules_update {level : Level} {A : Callback → Prop} {update : Update}
    (inside : Handles level A update) (s : Daemon) : Schedules s (update.apply s) := by
  have same : ∀ {after : Daemon}, after.id = s.id → after.expired = s.expired → after.queue = s.queue →
      Schedules s after := by
    intro after ids batch queue
    refine ⟨Int.le_of_eq ids.symm, batch, fun now entry member => Or.inl ?_⟩
    rw [agenda, batch, queue] at member
    exact member
  cases update with
  | setTimer delay action =>
      refine ⟨Int.le_of_lt (Int.lt_succ s.id), rfl, fun now entry member => ?_⟩
      rcases mem_agenda_setTimer.mp member with rfl | old
      · exact Or.inr (Int.lt_succ s.id)
      · exact Or.inl old
  | clearTimer timer =>
      refine ⟨Int.le_of_eq (clearTimer_id s timer).symm, clearTimer_expired s timer, fun now entry member => Or.inl ?_⟩
      exact agenda_clearTimer now s timer member
  | age elapsedTime => exact inside.2.elim
  | popExpired => exact inside.2.elim
  | _ => exact same rfl rfl rfl

/-- No timer is being called when the main loop starts. -/
theorem start_idle {host : Host} {s : Daemon} (start : Start host s) : s.expired = [] := by
  obtain ⟨pimSendBuf, booted⟩ := start
  have done : Does Update.apply (Handles .quiet Anything) (Daemon.blank pimSendBuf) s :=
    boot_changes (fun _ => trivial) (fun _ => trivial) trivial host _ () s booted
  exact (does_relates steady_schedules (fun _ state inside => schedules_update inside state) done).batch

/-- An event in which no time passes leaves every timer due when it was. -/
theorem handle_schedules {host : Host} {s s' : Daemon} {event : Event}
    (passes : ∀ elapsedTime, event ≠ .age elapsedTime) (run : Runs (handle host event) s () s') :
    Schedules (begun s event) s' := by
  have done : Does Update.apply (Handles (eventLevel s event) Anything) (begun s event) s' :=
    handle_from_begun passes (Nat.le_refl _) (mayRegister_anything host s event) run
  exact does_relates steady_schedules (fun _ state inside => schedules_update inside state) done

/-! ## `age_callout_queue` -/

theorem callNext_step {host : Host} {s s' : Daemon} {pktcnt : Int} {ptr : TimeoutQ} {rest : List TimeoutQ}
    (batch : s.expired = ptr :: rest) (run : Runs (callNext host pktcnt) s () s') :
    Step host s (.expire pktcnt) s' ∧ s'.expired = rest := by
  have enabled : Event.Enabled s (.expire pktcnt) := by
    rw [Event.Enabled, batch]
    rfl
  have handled : Runs (handle host (.expire pktcnt)) s () s' := run
  have schedules := handle_schedules (fun _ other => by cases other) handled
  refine ⟨⟨enabled, run⟩, schedules.batch.trans ?_⟩
  have calls : called s (.expire pktcnt) = some ptr.func := by
    rw [called, batch]
    rfl
  rw [begun, calls]
  exact congrArg List.tail batch

theorem callRounds_reaches {host : Host} {pktcnts : Nat → Int} {rounds : List Nat} {s s' : Daemon}
    (all : rounds.length = s.expired.length)
    (run : Runs (foldProgram (fun _ round => callNext host (pktcnts round)) rounds ()) s () s') :
    Reaches (Step host) (fun _ event => event.isExpire = true) s s' ∧ s'.expired = [] := by
  induction rounds generalizing s with
  | nil =>
      obtain ⟨_, rfl⟩ := runs_pure.mp run
      exact ⟨.refl _, List.length_eq_zero_iff.mp all.symm⟩
  | cons round rounds ih =>
      cases batch : s.expired with
      | nil =>
          rw [batch] at all
          cases all
      | cons ptr rest =>
          obtain ⟨_, middle, call, calls⟩ := runs_bind.mp run
          obtain ⟨taken, left⟩ := callNext_step batch call
          rw [batch, List.length_cons, List.length_cons] at all
          have fewer : rounds.length = middle.expired.length := by
            rw [left]
            omega
          obtain ⟨others, empty⟩ := ih fewer calls
          have first : Reaches (Step host) (fun _ event => event.isExpire = true) s middle := .snoc (.refl s) rfl taken
          exact ⟨first.trans others, empty⟩

/-- A call of `age_callout_queue` is a run of the machine: time passes, and then the batch is
called to its end. -/
theorem ageCalloutQueue_reaches {host : Host} {elapsedTime : Nat} {pktcnts : Nat → Int} {s s' : Daemon}
    (idle : s.expired = []) (run : Runs (ageCalloutQueue host elapsedTime pktcnts) s () s') :
    Step host s (.age elapsedTime) (s.age elapsedTime) ∧
      Reaches (Step host) (fun _ event => event.isExpire = true) (s.age elapsedTime) s' ∧ s'.expired = [] := by
  obtain ⟨_, _, passes, calls⟩ := runs_bind.mp run
  obtain rfl := runs_modify.mp passes
  have enabled : Event.Enabled s (.age elapsedTime) := by
    rw [Event.Enabled, idle]
    rfl
  rw [runs_get_bind] at calls
  exact ⟨⟨enabled, runs_modify.mpr rfl⟩, callRounds_reaches List.length_range calls⟩

end PimDm.Effect
