import PimDm.Effect.Events

/-!
# The pending timers of a run

An alarm is a timer without its time: its id and the function it calls.  Ids
count up and are never given twice, so a timer that is pending after a run was
pending before it or has a larger id than any timer before it.
-/

namespace PimDm.Effect

open PimDm.Foundation PimDm.Source

def alarm (timer : TimeoutQ) : Int × Callback := (timer.id, timer.func)

/-- The timers that are still to run, without their times. -/
def alarms (s : Daemon) : List (Int × Callback) := s.pending.map alarm

/-! ## The queue -/

theorem insertTimer_perm (node : TimeoutQ) (queue : List TimeoutQ) :
    ((insertTimer node queue).map alarm).Perm (alarm node :: queue.map alarm) := by
  induction queue generalizing node with
  | nil => exact List.Perm.refl _
  | cons ptr rest ih =>
      unfold insertTimer
      split
      · exact List.Perm.refl _
      · exact ((ih _).cons (alarm ptr)).trans (List.Perm.swap _ _ _)

def hasId (timerId : Int) (entry : Int × Callback) : Bool := decide (entry.1 = timerId)

/-- `timer_clearTimer` removes the first timer with the id. -/
theorem removeTimer_alarms (timerId : Int) (queue : List TimeoutQ) :
    (removeTimer timerId queue).map alarm = (queue.map alarm).eraseP (hasId timerId) := by
  induction queue with
  | nil => rfl
  | cons ptr rest ih =>
      unfold removeTimer
      by_cases here : ptr.id = timerId
      · have first : hasId timerId (alarm ptr) = true := decide_eq_true here
        rw [if_pos here, List.map_cons, List.eraseP_cons_of_pos first]
        cases rest <;> rfl
      · have other : ¬ hasId timerId (alarm ptr) = true := fun same => here (of_decide_eq_true same)
        rw [if_neg here, List.map_cons, List.map_cons, List.eraseP_cons_of_neg other, ih]

/-- Among different keys, the first element with a key is the only one. -/
theorem mem_eraseP_key {α : Type} {key : α → Int} {items : List α} (distinct : (items.map key).Nodup)
    (value : Int) (item : α) :
    item ∈ items.eraseP (fun other => decide (key other = value)) ↔ item ∈ items ∧ key item ≠ value := by
  induction items with
  | nil => simp
  | cons first rest ih =>
      obtain ⟨absent, distinct⟩ := List.nodup_cons.mp distinct
      by_cases here : key first = value
      · rw [List.eraseP_cons_of_pos (by simpa using here), List.mem_cons]
        constructor
        · intro later
          refine ⟨Or.inr later, fun same => absent ?_⟩
          rw [here, ← same]
          exact List.mem_map_of_mem later
        · rintro ⟨rfl | later, other⟩
          · exact absurd here other
          · exact later
      · rw [List.eraseP_cons_of_neg (by simpa using here), List.mem_cons, List.mem_cons, ih distinct]
        constructor
        · rintro (rfl | ⟨later, apart⟩)
          · exact ⟨Or.inl rfl, here⟩
          · exact ⟨Or.inr later, apart⟩
        · rintro ⟨rfl | later, apart⟩
          · exact Or.inl rfl
          · exact Or.inr ⟨later, apart⟩

/-- Among different ids, the first timer with an id is the only one. -/
theorem mem_eraseP_id {entries : List (Int × Callback)} (distinct : (entries.map Prod.fst).Nodup)
    (timer : Int) (entry : Int × Callback) :
    entry ∈ entries.eraseP (hasId timer) ↔ entry ∈ entries ∧ entry.1 ≠ timer :=
  mem_eraseP_key distinct timer entry

/-- Detaching the expired timers keeps all timers in order. -/
theorem detachExpired_alarms (elapsedTime : Int) (queue : List TimeoutQ) :
    ((detachExpired elapsedTime queue).1 ++ (detachExpired elapsedTime queue).2).map alarm =
      queue.map alarm := by
  induction queue generalizing elapsedTime with
  | nil => rfl
  | cons ptr rest ih =>
      unfold detachExpired
      split
      · rfl
      · exact congrArg (alarm ptr :: ·) (ih _)

theorem alarms_setTimer (s : Daemon) (delay : Int) (action : Callback) :
    (alarms (s.setTimer delay action)).Perm ((s.id + 1, action) :: alarms s) := by
  unfold alarms Daemon.pending Daemon.setTimer
  rw [List.map_append, List.map_append]
  exact ((insertTimer_perm _ _).append_left _).trans List.perm_middle

theorem alarms_clearTimer (s : Daemon) (timer : Int) :
    (alarms (s.clearTimer timer)).Sublist (alarms s) := by
  unfold Daemon.clearTimer
  split
  · exact List.Sublist.refl _
  · unfold alarms Daemon.pending
    rw [List.map_append, List.map_append, removeTimer_alarms]
    exact (List.Sublist.refl _).append List.eraseP_sublist

theorem alarms_age (s : Daemon) (elapsedTime : Int) :
    (alarms (s.age elapsedTime)).Sublist (alarms s) := by
  unfold alarms Daemon.pending Daemon.age
  dsimp only
  rw [detachExpired_alarms, List.map_append]
  exact List.sublist_append_right _ _

theorem alarms_popExpired (s : Daemon) : (alarms s.popExpired).Sublist (alarms s) := by
  unfold alarms Daemon.pending Daemon.popExpired
  rw [List.map_append, List.map_append]
  exact ((List.tail_sublist _).map alarm).append (List.Sublist.refl _)

/-! ## New timers -/

/-- The timers after a run were pending before it, or are new, with larger ids
and functions in `A`. -/
structure Sets (A : Callback → Prop) (before after : Daemon) : Prop where
  ids : before.id ≤ after.id
  old_or_new : ∀ entry ∈ alarms after, entry ∈ alarms before ∨
    (before.id < entry.1 ∧ entry.1 ≤ after.id ∧ A entry.2)

variable {A : Callback → Prop}

theorem steady_sets (A : Callback → Prop) : Steady (Sets A) where
  refl s := ⟨Int.le_refl _, fun _ member => Or.inl member⟩
  trans left right := by
    refine ⟨Int.le_trans left.ids right.ids, fun entry member => ?_⟩
    have first := left.ids
    have second := right.ids
    rcases right.old_or_new entry member with middle | ⟨above, below, allowed⟩
    · rcases left.old_or_new entry middle with old | ⟨above, below, allowed⟩
      · exact Or.inl old
      · exact Or.inr ⟨above, Int.le_trans below second, allowed⟩
    · exact Or.inr ⟨Int.lt_of_le_of_lt first above, below, allowed⟩

theorem sets_of_sublist {s s' : Daemon} (ids : s'.id = s.id) (fewer : (alarms s').Sublist (alarms s)) :
    Sets A s s' :=
  ⟨Int.le_of_eq ids.symm, fun _ member => Or.inl (fewer.subset member)⟩

theorem clearTimer_id (s : Daemon) (timer : Int) : (s.clearTimer timer).id = s.id := by
  unfold Daemon.clearTimer
  split <;> rfl

/-- Every single update sets at most one new timer. -/
theorem sets_update {level : Level} {update : Update} (inside : Permits level A update) (s : Daemon) :
    Sets A s (update.apply s) := by
  cases update with
  | setTimer delay action =>
      refine ⟨?_, fun entry member => ?_⟩
      · change s.id ≤ s.id + 1
        omega
      · rcases List.mem_cons.mp ((alarms_setTimer s delay action).subset member) with rfl | old
        · refine Or.inr ⟨?_, Int.le_refl _, inside.2⟩
          change s.id < s.id + 1
          omega
        · exact Or.inl old
  | clearTimer timer => exact sets_of_sublist (clearTimer_id s timer) (alarms_clearTimer s timer)
  | age elapsedTime => exact sets_of_sublist rfl (alarms_age s elapsedTime)
  | popExpired => exact sets_of_sublist rfl (alarms_popExpired s)
  | _ => exact sets_of_sublist rfl (List.Sublist.refl _)

theorem sets_of_changes {level : Level} {s s' : Daemon} (changes : Changes level A s s') : Sets A s s' :=
  does_relates (steady_sets A) (fun _ state inside => sets_update inside state) changes

/-- The timers after an event. -/
theorem handle_sets {host : Host} {s s' : Daemon} {event : Event}
    (registers : MayRegister host s event A) (run : Runs (handle host event) s () s') : Sets A s s' := by
  have bound : eventLevel s event ≤ eventLevel s event := Nat.le_refl _
  exact sets_of_changes (handle_changes bound registers run)

/-- The timer an event calls is pending. -/
theorem called_mem {s : Daemon} {event : Event} {func : Callback} (calls : called s event = some func) :
    ∃ id, (id, func) ∈ alarms s := by
  cases event with
  | expire pktcnt =>
      obtain ⟨ptr, head, same⟩ := Option.map_eq_some_iff.mp calls
      have member : ptr ∈ s.pending := List.mem_append_left _ (List.mem_of_head? head)
      refine ⟨ptr.id, List.mem_map.mpr ⟨ptr, member, ?_⟩⟩
      rw [← same]
      rfl
  | _ => cases calls

/-- What all pending timers call, and all that an event may set, the timers pending
after it call. -/
theorem handle_alarms {host : Host} {s s' : Daemon} {event : Event}
    (all : ∀ entry ∈ alarms s, A entry.2)
    (registers : (∀ func, called s event = some func → A func) → MayRegister host s event A)
    (run : Runs (handle host event) s () s') : ∀ entry ∈ alarms s', A entry.2 := by
  have calls : ∀ func, called s event = some func → A func := by
    intro func calls
    obtain ⟨id, member⟩ := called_mem calls
    exact all _ member
  intro entry member
  rcases (handle_sets (registers calls) run).old_or_new entry member with old | ⟨_, _, new⟩
  · exact all entry old
  · exact new

/-! ## Messages -/

/-- Every Graft sent in between belongs to a timer in `A`. -/
def Sends (A : Callback → Prop) (before after : Daemon) : Prop :=
  ∃ new, after.trace = new ++ before.trace ∧
    ∀ packet entry, .pim packet entry ∈ new → packet.type = pimGraft → A (.planGraft entry)

theorem steady_sends (A : Callback → Prop) : Steady (Sends A) where
  refl _ := ⟨[], rfl, fun _ _ member => (List.not_mem_nil member).elim⟩
  trans := by
    rintro first middle last ⟨older, left, sent⟩ ⟨newer, right, later⟩
    refine ⟨newer ++ older, by rw [right, left, List.append_assoc], fun packet entry member => ?_⟩
    rcases List.mem_append.mp member with inside | inside
    · exact later packet entry inside
    · exact sent packet entry inside

theorem sends_same {s s' : Daemon} (same : s'.trace = s.trace) : Sends A s s' :=
  ⟨[], same, fun _ _ member => (List.not_mem_nil member).elim⟩

theorem sends_update {level : Level} {update : Update} (inside : Permits level A update) (s : Daemon) :
    Sends A s (update.apply s) := by
  have other : ∀ observation, (∀ packet entry, observation ≠ .pim packet entry) →
      Sends A s (s.observe observation) := by
    refine fun observation plain => ⟨[observation], rfl, fun packet entry member => ?_⟩
    exact absurd (List.mem_singleton.mp member).symm (plain packet entry)
  cases update with
  | send packet entry =>
      refine ⟨[.pim packet entry], rfl, fun sent from_ member => ?_⟩
      cases List.mem_singleton.mp member
      exact inside.2
  | query src dst type code group => exact other _ fun _ _ => Observation.noConfusion
  | callDelLeaf vif group => exact other _ fun _ _ => Observation.noConfusion
  | addedSg source group => exact other _ fun _ _ => Observation.noConfusion
  | deletedSg source group => exact other _ fun _ _ => Observation.noConfusion
  | clearTimer timer =>
      refine sends_same ?_
      simp only [Update.apply, Daemon.clearTimer]
      split <;> rfl
  | _ => exact sends_same rfl

theorem sends_of_changes {level : Level} {s s' : Daemon} (changes : Changes level A s s') :
    Sends A s s' :=
  does_relates (steady_sends A) (fun _ state inside => sends_update inside state) changes

/-! ## Ids -/

/-- Pending timers have different positive ids that were given already. -/
structure Orderly (s : Daemon) : Prop where
  bounds : ∀ entry ∈ alarms s, 0 < entry.1 ∧ entry.1 ≤ s.id
  distinct : ((alarms s).map Prod.fst).Nodup
  started : 0 ≤ s.id

theorem Orderly.of_sublist {s s' : Daemon} (orderly : Orderly s) (ids : s'.id = s.id)
    (fewer : (alarms s').Sublist (alarms s)) : Orderly s' := by
  refine ⟨fun entry member => ?_, orderly.distinct.sublist (fewer.map Prod.fst), ?_⟩
  · rw [ids]
    exact orderly.bounds entry (fewer.subset member)
  · rw [ids]
    exact orderly.started

theorem orderly_update (update : Update) {s : Daemon} (orderly : Orderly s) :
    Orderly (update.apply s) := by
  cases update with
  | setTimer delay action =>
      have alike := alarms_setTimer s delay action
      refine ⟨fun entry member => ?_, ?_, ?_⟩
      · change 0 < entry.1 ∧ entry.1 ≤ s.id + 1
        have started := orderly.started
        rcases List.mem_cons.mp (alike.subset member) with rfl | old
        · omega
        · have bounds := orderly.bounds entry old
          omega
      · refine ((alike.map Prod.fst).nodup_iff).mpr (List.nodup_cons.mpr ⟨?_, orderly.distinct⟩)
        intro again
        obtain ⟨entry, member, same⟩ := List.mem_map.mp again
        have bounds := orderly.bounds entry member
        omega
      · change 0 ≤ s.id + 1
        have started := orderly.started
        omega
  | clearTimer timer => exact orderly.of_sublist (clearTimer_id s timer) (alarms_clearTimer s timer)
  | age elapsedTime => exact orderly.of_sublist rfl (alarms_age s elapsedTime)
  | popExpired => exact orderly.of_sublist rfl (alarms_popExpired s)
  | _ => exact orderly.of_sublist rfl (List.Sublist.refl _)

theorem orderly_of_changes {level : Level} {s s' : Daemon} (changes : Changes level A s s')
    (orderly : Orderly s) : Orderly s' :=
  does_relates (steady_keeps Orderly) (fun update _ _ => orderly_update update) changes orderly

theorem start_changes {host : Host} {s : Daemon} (start : Start host s) :
    ∃ pimSendBuf, Changes .quiet Plain (Daemon.blank pimSendBuf) s := by
  obtain ⟨pimSendBuf, booted⟩ := start
  exact ⟨pimSendBuf, boot_changes (fun _ => trivial) (fun _ => trivial) trivial host _ () s booted⟩

theorem start_orderly {host : Host} {s : Daemon} (start : Start host s) : Orderly s := by
  obtain ⟨pimSendBuf, changes⟩ := start_changes start
  refine orderly_of_changes changes ⟨fun _ member => ?_, List.nodup_nil, Int.le_refl _⟩
  exact (List.not_mem_nil member).elim

theorem reachable_orderly {host : Host} {allowed : Daemon → Event → Prop} {s : Daemon}
    (reached : Reachable host allowed s) : Orderly s := by
  obtain ⟨start, started, run⟩ := reached
  exact run.keeps (start_orderly started) fun _ _ _ orderly _ taken =>
    orderly_of_changes (handle_anything taken.2) orderly

/-- A timer of the queue is cleared by its id, and no other. -/
theorem mem_queue_clearTimer {s : Daemon} (orderly : Orderly s) (timer : Int) (entry : Int × Callback) :
    entry ∈ (s.clearTimer timer).queue.map alarm ↔ entry ∈ s.queue.map alarm ∧ entry.1 ≠ timer := by
  unfold Daemon.clearTimer
  by_cases unset : timer = 0 ∨ timer = -1
  · rw [if_pos unset]
    refine iff_self_and.mpr fun member same => ?_
    have pending : entry ∈ alarms s := by
      rw [alarms, Daemon.pending, List.map_append]
      exact List.mem_append_right _ member
    have bounds := orderly.bounds entry pending
    omega
  · rw [if_neg unset]
    have distinct := orderly.distinct
    rw [alarms, Daemon.pending, List.map_append, List.map_append] at distinct
    rw [removeTimer_alarms]
    exact mem_eraseP_id (List.nodup_append.mp distinct).2.1 timer entry

/-- A timer is cleared by its id, unless it is one of the batch being called. -/
theorem mem_alarms_clearTimer_iff {s : Daemon} (orderly : Orderly s) (timer : Int) (entry : Int × Callback) :
    entry ∈ alarms (s.clearTimer timer) ↔ entry ∈ alarms s ∧ (entry.1 ≠ timer ∨ entry ∈ s.expired.map alarm) := by
  have queued := mem_queue_clearTimer orderly timer entry
  simp only [alarms, Daemon.pending, List.map_append, List.mem_append, clearTimer_expired, queued]
  tauto

/-- Between two batches a timer is cleared by its id, and no other. -/
theorem mem_alarms_clearTimer {s : Daemon} (orderly : Orderly s) (idle : s.expired = []) (timer : Int)
    (entry : Int × Callback) :
    entry ∈ alarms (s.clearTimer timer) ↔ entry ∈ alarms s ∧ entry.1 ≠ timer := by
  rw [mem_alarms_clearTimer_iff orderly, idle]
  simp

/-- The id of a pending timer tells what it calls. -/
theorem Orderly.unique {s : Daemon} (orderly : Orderly s) {first second : Int × Callback}
    (one : first ∈ alarms s) (other : second ∈ alarms s) (same : first.1 = second.1) :
    first = second :=
  List.inj_on_of_nodup_map orderly.distinct one other same

theorem alarms_cons {s : Daemon} {ptr : TimeoutQ} {rest : List TimeoutQ}
    (batch : s.expired = ptr :: rest) : alarms s = alarm ptr :: alarms s.popExpired := by
  unfold alarms Daemon.pending Daemon.popExpired
  rw [batch]
  rfl

/-- The first timer of a batch is pending. -/
theorem alarm_mem_of_batch {s : Daemon} {ptr : TimeoutQ} {rest : List TimeoutQ} (batch : s.expired = ptr :: rest) :
    alarm ptr ∈ alarms s := by
  rw [alarms_cons batch]
  exact List.mem_cons_self

theorem alarms_age_idle {s : Daemon} (idle : s.expired = []) (elapsedTime : Int) :
    alarms (s.age elapsedTime) = alarms s := by
  unfold alarms Daemon.pending Daemon.age
  dsimp only
  rw [detachExpired_alarms, idle, List.nil_append]

/-! ## Ids kept in fields -/

/-- An id that was given names a timer of this function, as long as it is pending. -/
structure Names (s : Daemon) (timer : Int) (func : Callback) : Prop where
  given : timer ≤ s.id
  called : ∀ entry ∈ alarms s, entry.1 = timer → entry.2 = func

theorem Names.of_sublist {s s' : Daemon} {timer : Int} {func : Callback} (names : Names s timer func)
    (ids : s'.id = s.id) (fewer : (alarms s').Sublist (alarms s)) : Names s' timer func := by
  refine ⟨?_, fun entry member => names.called entry (fewer.subset member)⟩
  rw [ids]
  exact names.given

theorem Names.congr {s s' : Daemon} {timer : Int} {func : Callback} (names : Names s timer func)
    (ids : s'.id = s.id) (same : alarms s' = alarms s) : Names s' timer func :=
  names.of_sublist ids (by rw [same])

theorem names_zero {s : Daemon} (orderly : Orderly s) (func : Callback) : Names s 0 func := by
  refine ⟨orderly.started, fun entry member same => ?_⟩
  have bounds := orderly.bounds entry member
  omega

/-- The id a new timer is given names it. -/
theorem names_new {s : Daemon} (orderly : Orderly s) (delay : Int) (action : Callback) :
    Names (s.setTimer delay action) (s.id + 1) action := by
  refine ⟨Int.le_refl _, fun entry member same => ?_⟩
  rcases List.mem_cons.mp ((alarms_setTimer s delay action).subset member) with rfl | old
  · rfl
  · have bounds := orderly.bounds entry old
    omega

theorem Names.setTimer {s : Daemon} {timer : Int} {func : Callback} (names : Names s timer func)
    (delay : Int) (action : Callback) : Names (s.setTimer delay action) timer func := by
  have given := names.given
  have grown : (s.setTimer delay action).id = s.id + 1 := rfl
  refine ⟨by omega, fun entry member same => ?_⟩
  rcases List.mem_cons.mp ((alarms_setTimer s delay action).subset member) with rfl | old
  · dsimp only at same
    omega
  · exact names.called entry old same

theorem Names.clearTimer {s : Daemon} {timer : Int} {func : Callback} (names : Names s timer func)
    (other : Int) : Names (s.clearTimer other) timer func :=
  names.of_sublist (clearTimer_id s other) (alarms_clearTimer s other)

/-! ## Interfaces of pending timers -/

/-- A callback about forwarding on an interface names an active one. -/
def NamesServed (host : Host) : Callback → Prop
  | .setPrune data => host.Serves data.vif
  | .pruneTimeOut data => host.Serves data.vif
  | .leaveQuery vif _ => host.Serves vif
  | _ => True

theorem namesServed_of_plain {host : Host} {func : Callback} (plain : Plain func) :
    NamesServed host func := by
  cases func with
  | setPrune data => exact plain.elim
  | pruneTimeOut data => exact plain.elim
  | leaveQuery vif group => exact plain.elim
  | _ => trivial

theorem reachable_namesServed {host : Host} {allowed : Daemon → Event → Prop} {s : Daemon}
    (reached : Reachable host allowed s) : ∀ entry ∈ alarms s, NamesServed host entry.2 := by
  obtain ⟨start, started, run⟩ := reached
  refine run.keeps (P := fun state => ∀ entry ∈ alarms state, NamesServed host entry.2) ?_ ?_
  · obtain ⟨pimSendBuf, changes⟩ := start_changes started
    intro entry member
    rcases (sets_of_changes changes).old_or_new entry member with old | ⟨_, _, plain⟩
    · exact (List.not_mem_nil old).elim
    · exact namesServed_of_plain plain
  · intro before event after invariant _ taken
    refine handle_alarms invariant (fun calls => ?_) taken.2
    exact ⟨fun _ _ => trivial, fun _ _ serves => serves, fun data prunes => calls (.setPrune data) prunes,
      fun _ _ serves => serves, calls, fun _ => namesServed_of_plain, fun _ _ _ => trivial⟩

end PimDm.Effect
