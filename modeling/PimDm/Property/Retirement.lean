import PimDm.Property.GraftAck
import PimDm.Property.History
import PimDm.Refinement.Expiry

/-!
# The timers of a deleted entry

`delete_sg` clears the check timer of the entry it removes and no other.  The timers that
are left look the entry up again when they are called: they do nothing as long as it is
gone, and act on an entry for the same source and group that was created since.
-/

namespace PimDm.Property

open PimDm.Foundation PimDm.Source PimDm.Effect PimDm.Refinement

variable {host : Host} {s s' : Daemon} {source group : Addr} {mymrt : Ptr} {func : Callback}
  {left : List (Int × Addr × Addr)}

/-! ## Histories -/

/-- The callback serves an entry of the source and group: it looks the entry up by them, or is
the Graft of a record of theirs. -/
def Serves (s : Daemon) (source group : Addr) : Callback → Prop
  | .sendJoin data => data.source = source ∧ data.group = group
  | .pruneTimeOut data => data.source = source ∧ data.group = group
  | .setPrune data => data.source = source ∧ data.group = group
  | .planGraft mymrt => keyAt s mymrt = some (source, group)
  | .handleSgTimeout first second => first = source ∧ second = group
  | .checkSg first second => first = source ∧ second = group
  | _ => False

instance decidableServes (s : Daemon) (source group : Addr) : (func : Callback) → Decidable (Serves s source group func)
  | .sendJoin data => inferInstanceAs (Decidable (data.source = source ∧ data.group = group))
  | .pruneTimeOut data => inferInstanceAs (Decidable (data.source = source ∧ data.group = group))
  | .setPrune data => inferInstanceAs (Decidable (data.source = source ∧ data.group = group))
  | .planGraft mymrt => inferInstanceAs (Decidable (keyAt s mymrt = some (source, group)))
  | .handleSgTimeout first second => inferInstanceAs (Decidable (first = source ∧ second = group))
  | .checkSg first second => inferInstanceAs (Decidable (first = source ∧ second = group))
  | .timer | .pimHelloOutput _ | .deletePimNeighbor _ | .activeForward _ | .sendQuery _ | .retryQuery _
  | .leaveQuery .. => isFalse id

/-- Note, when an entry is deleted, which timers of its source and group are pending then. -/
def noteDeleted (before : Daemon) (event : Event) (after : Daemon) (left : List (Int × Addr × Addr)) :
    List (Int × Addr × Addr) :=
  match called before event with
  | some (.handleSgTimeout source group) =>
      if InTable before source group then
        ((alarms after).filter fun entry => Serves after source group entry.2).map
          (fun entry => (entry.1, source, group)) ++ left
      else left
  | _ => left

/-- A timer of a deleted entry is called only while no entry of its source and group is in
the table. -/
def CallsNoHeir (before : Daemon × List (Int × Addr × Addr)) (event : Event) : Prop :=
  ∀ timer ∈ before.2, timer.1 ∈ calledId before.1 event → ¬ InTable before.1 timer.2.1 timer.2.2

instance (before : Daemon × List (Int × Addr × Addr)) (event : Event) : Decidable (CallsNoHeir before event) :=
  inferInstanceAs (Decidable (∀ timer ∈ before.2, _))

/-- No message is sent, and the routing entries and the kernel's forwarding cache stay. -/
structure Untouched (s s' : Daemon) : Prop where
  themrt : s'.themrt = s.themrt
  mrts : s'.mrts = s.mrts
  mfc : s'.mfc = s.mfc
  trace : s'.trace = s.trace

theorem Serves.stays {level : Level} {A : Callback → Prop} (changes : Changes level A s s')
    (serves : Serves s source group func) : Serves s' source group func := by
  cases func with
  | planGraft mymrt => exact keyAt_stays changes serves
  | _ => exact serves

/-! ## Timers that are left -/

/-- The timers noted serve the source and group they were noted for, while they are pending. -/
structure LeftBehind (s : Daemon) (left : List (Int × Addr × Addr)) : Prop where
  orderly : Orderly s
  given : ∀ timer ∈ left, timer.1 ≤ s.id
  serves : ∀ timer ∈ left, ∀ entry ∈ alarms s, entry.1 = timer.1 → Serves s timer.2.1 timer.2.2 entry.2

theorem LeftBehind.step {event : Event} (behind : LeftBehind s left) (taken : Step host s event s') :
    LeftBehind s' (noteDeleted s event s' left) := by
  have changes := handle_anything taken.2
  have orderly : Orderly s' := orderly_of_changes changes behind.orderly
  have sets := sets_of_changes changes
  have older : ∀ timer ∈ left, timer.1 ≤ s'.id ∧
      ∀ entry ∈ alarms s', entry.1 = timer.1 → Serves s' timer.2.1 timer.2.2 entry.2 := by
    intro timer member
    have given := behind.given timer member
    have grown := sets.ids
    refine ⟨by omega, fun entry pending same => ?_⟩
    rcases sets.old_or_new entry pending with before | ⟨new, _, _⟩
    · exact (behind.serves timer member entry before same).stays changes
    · omega
  have all : ∀ timer ∈ noteDeleted s event s' left, timer.1 ≤ s'.id ∧
      ∀ entry ∈ alarms s', entry.1 = timer.1 → Serves s' timer.2.1 timer.2.2 entry.2 := by
    intro timer member
    unfold noteDeleted at member
    split at member
    · rename_i source group calls
      split at member
      · rcases List.mem_append.mp member with new | old
        · obtain ⟨noted, inside, rfl⟩ := List.mem_map.mp new
          obtain ⟨pending, serves⟩ := List.mem_filter.mp inside
          refine ⟨(orderly.bounds noted pending).2, fun entry again same => ?_⟩
          rw [orderly.unique again pending same]
          exact of_decide_eq_true serves
        · exact older timer old
      · exact older timer member
    · exact older timer member
  exact ⟨orderly, fun timer member => (all timer member).1, fun timer member => (all timer member).2⟩

/-- What the timer does that an event calls. -/
theorem LeftBehind.calls {pktcnt : Int} {timer : Int × Addr × Addr} (behind : LeftBehind s left) (member : timer ∈ left)
    (calls : timer.1 ∈ calledId s (.expire pktcnt)) (taken : Step host s (.expire pktcnt) s') :
    ∃ func, called s (.expire pktcnt) = some func ∧ Serves s timer.2.1 timer.2.2 func ∧
      Runs (callFunc host pktcnt func) s.popExpired () s' := by
  obtain ⟨ptr, head, same⟩ := Option.map_eq_some_iff.mp calls
  have first : called s (.expire pktcnt) = some ptr.func := by
    rw [called, head]
    rfl
  have pending : alarm ptr ∈ alarms s := by
    refine List.mem_map_of_mem ?_
    exact List.mem_append_left _ (List.mem_of_head? head)
  have run := runs_called first taken.2
  exact ⟨ptr.func, first, behind.serves timer member (alarm ptr) pending same, run⟩

/-- `delete_sg` does nothing, or notes that it removed an entry. -/
theorem deleteSg_notes {result : Int} (run : Runs (deleteSg source group) s result s') :
    (¬ InTable s source group ∧ s' = s) ∨
      InTable s source group ∧ s'.trace = .deleteSg source group :: s.trace := by
  obtain ⟨⟨temp, mymrt⟩, searched, looked, deciding⟩ := runs_bind.mp run
  rw [findMrtTrailing, runs_get_bind, runs_liftHeap] at looked
  obtain ⟨search, rfl⟩ := looked
  have found : Finds searched source group mymrt := Heap.find_of_findTrailing search
  rcases runs_ite.mp deciding with ⟨null, absent⟩ | ⟨nonnull, deleting⟩
  · obtain ⟨_, _, print, stop⟩ := runs_bind.mp absent
    obtain ⟨_, rfl⟩ := runs_pure.mp stop
    refine Or.inl ⟨fun inside => ?_, runs_printSg print⟩
    obtain ⟨other, _, again, other_nonnull, _⟩ := inside.found
    exact other_nonnull ((again.unique found).trans null)
  · obtain ⟨e, _, load, afterLoad⟩ := runs_bind.mp deleting
    obtain ⟨_, rfl⟩ := runs_loadMrt.mp load
    rw [runs_get_bind] at afterLoad
    obtain ⟨first, begun, loadHead, afterHead⟩ := runs_bind.mp afterLoad
    obtain ⟨_, rfl⟩ := runs_loadMrt.mp loadHead
    obtain ⟨_, _, forget, afterForget⟩ := runs_bind.mp afterHead
    obtain rfl := runs_modify.mp forget
    obtain ⟨_, _, clear, afterClear⟩ := runs_bind.mp afterForget
    obtain rfl := runs_timerClearTimer.mp clear
    obtain ⟨_, unlinked, unlink, finish⟩ := runs_bind.mp afterClear
    obtain ⟨_, _, note, printed⟩ := runs_bind.mp finish
    obtain rfl := runs_modify.mp note
    obtain ⟨_, _, print, stop⟩ := runs_bind.mp printed
    obtain ⟨_, rfl⟩ := runs_pure.mp stop
    obtain rfl := runs_printSg print
    refine Or.inr ⟨inTable_of_finds found nonnull, ?_⟩
    have untold : unlinked.trace = ((begun.setMfc source group none).clearTimer e.checkTimerid).trace := by
      rcases runs_ite.mp unlink with ⟨_, head⟩ | ⟨_, link⟩
      · rw [runs_modify.mp head]
      · cases temp with
        | none => exact (runs_throw.mp link).elim
        | some temp =>
            obtain ⟨_, rfl⟩ := runs_storeMrt.mp link
            rfl
    rw [Daemon.observe, untold, clearTimer_trace]
    rfl

/-- What looks for an entry first and finds none does nothing. -/
theorem search_absent {rest : Ptr → Act Unit} (absent : ¬ InTable s source group)
    (run : Runs (findSg source group >>= fun mymrt => if mymrt = 0 then pure () else rest mymrt) s () s') :
    s' = s := by
  obtain ⟨mymrt, _, looked, acting⟩ := runs_bind.mp run
  obtain ⟨found, rfl⟩ := runs_findMrt.mp looked
  rcases runs_ite.mp acting with ⟨_, stop⟩ | ⟨nonnull, _⟩
  · exact (runs_pure.mp stop).2
  · exact absurd (inTable_of_finds found nonnull) absent

/-- A callback that finds no entry does nothing. -/
theorem serves_absent {pktcnt : Int} (serves : Serves s source group func) (absent : ¬ InTable s source group)
    (run : Runs (callFunc host pktcnt func) s () s') : s' = s := by
  have none : ∀ {mymrt : Ptr}, Finds s source group mymrt → mymrt = 0 := by
    intro mymrt found
    by_contra nonnull
    exact absent (inTable_of_finds found nonnull)
  cases func with
  | sendJoin data =>
      obtain ⟨rfl, rfl⟩ := serves
      exact search_absent absent run
  | pruneTimeOut data =>
      obtain ⟨rfl, rfl⟩ := serves
      exact search_absent absent run
  | setPrune data =>
      obtain ⟨rfl, rfl⟩ := serves
      exact search_absent absent run
  | planGraft mymrt =>
      obtain ⟨e, key, same⟩ := Option.map_eq_some_iff.mp serves
      obtain ⟨rfl, rfl⟩ := Prod.mk.inj same
      obtain ⟨e', _, load, searching⟩ := runs_bind.mp run
      obtain ⟨here, rfl⟩ := runs_loadMrt.mp load
      obtain rfl := Option.some.inj (key.symm.trans here)
      obtain ⟨thismrt, _, looked, acting⟩ := runs_bind.mp searching
      obtain ⟨found, rfl⟩ := runs_findMrt.mp looked
      rcases runs_ite.mp acting with ⟨_, stop⟩ | ⟨_, deciding⟩
      · exact (runs_pure.mp stop).2
      · rw [none found, if_neg (not_not.mpr rfl)] at deciding
        exact (runs_pure.mp deciding).2
  | handleSgTimeout first second =>
      obtain ⟨rfl, rfl⟩ := serves
      obtain ⟨_, _, delete, stop⟩ := runs_bind.mp run
      obtain ⟨_, rfl⟩ := runs_pure.mp stop
      rcases deleteSg_notes delete with ⟨_, same⟩ | ⟨inside, _⟩
      · exact same
      · exact absurd inside absent
  | checkSg first second =>
      obtain ⟨rfl, rfl⟩ := serves
      obtain ⟨mymrt, e, found, here, _⟩ := runs_checkSg run
      rw [none found] at here
      cases here
  | _ => exact serves.elim

/-! ## Timers that find an heir -/

/-- A Join, a timeout, and a Graft of a record whose upstream neighbour is not the source act
on any entry they find. -/
def Acts (s : Daemon) : Callback → Prop
  | .sendJoin _ => True
  | .handleSgTimeout .. => True
  | .planGraft mymrt => ∃ e, s.mrts.get? mymrt = some e ∧ e.upstream ≠ e.source
  | _ => False

theorem pimdmOutput_notes {src dst : Addr} {type : Nat} {length : Int} {entry : Ptr}
    (run : Runs (pimdmOutput src dst type length entry) s () s') :
    ∃ observation, s'.trace = observation :: s.trace := by
  rw [runs_pimdmOutput.mp run]
  exact ⟨_, rfl⟩

/-- A message written for an entry and handed to `pimdm_output` is noted. -/
theorem writing_notes {mymrt : Ptr} {write : Mrt → Memory → Memory} {src dst : Mrt → Addr} {type : Nat}
    {length : Int}
    (run : Runs (do
      let e ← loadMrt mymrt
      writeSendBuf (write e)
      pimdmOutput (src e) (dst e) type length mymrt) s () s') :
    ∃ observation, s'.trace = observation :: s.trace := by
  obtain ⟨_, _, load, writing⟩ := runs_bind.mp run
  obtain ⟨_, rfl⟩ := runs_loadMrt.mp load
  obtain ⟨_, _, write, send⟩ := runs_bind.mp writing
  obtain rfl := runs_modify.mp write
  obtain ⟨observation, told⟩ := pimdmOutput_notes send
  exact ⟨observation, told⟩

/-- `send_join` sends a Join for the entry it finds. -/
theorem sendJoin_notes {data : PimJoinData} (inside : InTable s data.source data.group)
    (run : Runs (sendJoin host data) s () s') : ∃ observation, s'.trace = observation :: s.trace := by
  obtain ⟨entry, _, known, nonnull, _⟩ := inside.found
  obtain ⟨mymrt, _, looked, acting⟩ := runs_bind.mp run
  obtain ⟨found, rfl⟩ := runs_findMrt.mp looked
  obtain rfl := known.unique found
  rw [if_neg nonnull] at acting
  obtain ⟨e, _, load, clearing⟩ := runs_bind.mp acting
  obtain ⟨_, rfl⟩ := runs_loadMrt.mp load
  obtain ⟨_, _, clear, storing⟩ := runs_bind.mp clearing
  obtain rfl := runs_timerClearTimer.mp clear
  obtain ⟨_, _, store, output⟩ := runs_bind.mp storing
  obtain ⟨_, rfl⟩ := runs_storeMrt.mp store
  obtain ⟨observation, told⟩ := writing_notes output
  refine ⟨observation, told.trans (congrArg (observation :: ·) ?_)⟩
  exact clearTimer_trace _ _

/-- `plan_graft` sends a Graft for an entry of the table whose upstream neighbour is not the source. -/
theorem planGraft_notes {mymrt : Ptr} {e : Mrt} (here : s.mrts.get? mymrt = some e) (remote : e.upstream ≠ e.source)
    (inside : InTable s e.source e.group) (run : Runs (planGraft host mymrt) s () s') :
    ∃ observation, s'.trace = observation :: s.trace := by
  obtain ⟨entry, _, known, nonnull, _⟩ := inside.found
  obtain ⟨_, _, load, searching⟩ := runs_bind.mp run
  obtain ⟨again, rfl⟩ := runs_loadMrt.mp load
  obtain rfl := Option.some.inj (here.symm.trans again)
  obtain ⟨thismrt, _, looked, acting⟩ := runs_bind.mp searching
  obtain ⟨found, rfl⟩ := runs_findMrt.mp looked
  obtain rfl := known.unique found
  rw [if_neg remote, if_pos nonnull] at acting
  obtain ⟨_, grafted, graft, arming⟩ := runs_bind.mp acting
  obtain ⟨observation, told⟩ := writing_notes graft
  obtain ⟨_, _, arm, store⟩ := runs_bind.mp arming
  obtain ⟨_, rfl⟩ := runs_timerSetTimer.mp arm
  obtain ⟨_, rfl⟩ := runs_storeMrt.mp store
  exact ⟨observation, told⟩

theorem acts_notes {pktcnt : Int} (acts : Acts s func) (serves : Serves s source group func)
    (inside : InTable s source group) (run : Runs (callFunc host pktcnt func) s () s') :
    ∃ observation, s'.trace = observation :: s.trace := by
  cases func with
  | sendJoin data =>
      obtain ⟨rfl, rfl⟩ := serves
      exact sendJoin_notes inside run
  | handleSgTimeout first second =>
      obtain ⟨rfl, rfl⟩ := serves
      obtain ⟨_, _, delete, stop⟩ := runs_bind.mp run
      obtain ⟨_, rfl⟩ := runs_pure.mp stop
      rcases deleteSg_notes delete with ⟨absent, _⟩ | ⟨_, told⟩
      · exact absurd inside absent
      · exact ⟨_, told⟩
  | planGraft mymrt =>
      obtain ⟨e, here, remote⟩ := acts
      obtain ⟨e', key, same⟩ := Option.map_eq_some_iff.mp serves
      obtain rfl := Option.some.inj (key.symm.trans here)
      obtain ⟨rfl, rfl⟩ := Prod.mk.inj same
      exact planGraft_notes here remote inside run
  | _ => exact acts.elim

/-! ## The property -/

theorem leftBehind_of_run {start : Daemon} {before : Daemon × List (Int × Addr × Addr)} (orderly : Orderly start)
    {allowed : Daemon × List (Int × Addr × Addr) → Event → Prop}
    (run : Reaches (Monitored (Step host) noteDeleted) allowed (start, []) before) : LeftBehind before.1 before.2 := by
  refine run.keeps (P := fun state => LeftBehind state.1 state.2) ?_ ?_
  · exact ⟨orderly, fun _ member => absurd member List.not_mem_nil, fun _ member => absurd member List.not_mem_nil⟩
  · rintro ⟨state, noted⟩ event ⟨after, more⟩ behind _ ⟨taken, note⟩
    dsimp only at note taken behind
    rw [note]
    exact behind.step taken

/-- In every run from any state in which the timers of deleted entries are called only while no
entry of their source and group is in the table, their calls send nothing and change nothing.
A Join, a Graft or a timeout that finds one does act. -/
theorem deleted_timers_retire {start : Daemon} {before : Daemon × List (Int × Addr × Addr)} (orderly : Orderly start)
    (run : Reaches (Monitored (Step host) noteDeleted) CallsNoHeir (start, []) before) :
    (∀ pktcnt after, CallsNoHeir before (.expire pktcnt) → Step host before.1 (.expire pktcnt) after →
      ∀ timer ∈ before.2, timer.1 ∈ calledId before.1 (.expire pktcnt) → Untouched before.1 after) ∧
    ∀ pktcnt after func, Step host before.1 (.expire pktcnt) after → called before.1 (.expire pktcnt) = some func →
      ∀ timer ∈ before.2, timer.1 ∈ calledId before.1 (.expire pktcnt) →
        InTable before.1 timer.2.1 timer.2.2 → Acts before.1 func → ¬ Untouched before.1 after := by
  have behind := leftBehind_of_run orderly run
  constructor
  · intro pktcnt after none taken timer member calls
    obtain ⟨func, _, serves, call⟩ := behind.calls member calls taken
    have absent : ¬ InTable before.1.popExpired timer.2.1 timer.2.2 := none timer member calls
    have popped : Serves before.1.popExpired timer.2.1 timer.2.2 func := by
      cases func <;> exact serves
    rw [serves_absent popped absent call]
    exact ⟨rfl, rfl, rfl, rfl⟩
  · intro pktcnt after func taken first timer member calls inside acts untouched
    obtain ⟨other, again, serves, call⟩ := behind.calls member calls taken
    obtain rfl := Option.some.inj (first.symm.trans again)
    have popped : Serves before.1.popExpired timer.2.1 timer.2.2 func := by
      cases func <;> exact serves
    have active : Acts before.1.popExpired func := by
      cases func <;> exact acts
    have heir : InTable before.1.popExpired timer.2.1 timer.2.2 := inside
    obtain ⟨observation, told⟩ := acts_notes active popped heir call
    have same : after.trace = before.1.popExpired.trace := untouched.trace
    rw [told] at same
    exact List.cons_ne_self _ _ same

/-- An entry with a neighbour downstream times out; the retransmission of its Graft is pending. -/
def timedOut : List Event :=
  [helloFrom (stationOn 2 9) 310, upcall 1 1 (stationOn 1 7) studio channel, .age 298] ++ List.replicate 10 (.expire 0)

/-- The retransmission finds no entry. -/
theorem deleted_timers_retire_session :
    ∃ (before : Daemon × List (Int × Addr × Addr)) (after : Daemon) (timer : Int × Addr × Addr),
      timer ∈ before.2 ∧ timer.1 ∈ calledId before.1 (.expire 0) ∧ Step router before.1 (.expire 0) after ∧
        Untouched before.1 after := by
  have passed : endsWithEvent router noteDeleted CallsNoHeir [] (timedOut ++ [.age 3]) (.expire 0)
      (fun before _ => decide (∃ timer ∈ before.2, timer.1 ∈ calledId before.1 (.expire 0))) = true := by
    decide +kernel
  obtain ⟨before, after, ⟨start, started, run⟩, none, taken, some⟩ := step_of_endsWithEvent passed
  obtain ⟨timer, member, calls⟩ := of_decide_eq_true some
  exact ⟨before, after.1, timer, member, calls, taken.1,
    (deleted_timers_retire (start_orderly started) run).1 0 after.1 none taken.1 timer member calls⟩

/-- The kernel reports the source again before the retransmission: it sends a Graft for the
entry that was deleted. -/
theorem deleted_timers_act :
    ¬ ∀ (host : Host) (before : Daemon × List (Int × Addr × Addr)) (pktcnt : Int) (after : Daemon),
      ReachableWith host noteDeleted [] (fun _ _ => True) before → Step host before.1 (.expire pktcnt) after →
        ∀ timer ∈ before.2, timer.1 ∈ calledId before.1 (.expire pktcnt) → Untouched before.1 after := by
  intro retired
  have passed : endsWithEvent router noteDeleted (fun _ _ => True) []
      (timedOut ++ [upcall 1 1 (stationOn 1 7) studio channel, .age 3]) (.expire 0)
      (fun before after => decide (∃ timer ∈ before.2, timer.1 ∈ calledId before.1 (.expire 0)) &&
        decide (after.1.trace.length ≠ before.1.trace.length)) = true := by
    decide +kernel
  obtain ⟨before, after, run, _, taken, seen⟩ := step_of_endsWithEvent passed
  obtain ⟨some, sent⟩ := Bool.and_eq_true_iff.mp seen
  obtain ⟨timer, member, calls⟩ := of_decide_eq_true some
  have same := (retired router before 0 after.1 run taken.1 timer member calls).trace
  exact of_decide_eq_true sent (congrArg List.length same)

end PimDm.Property
