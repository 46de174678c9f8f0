import PimDm.Property.History
import PimDm.Refinement.Expiry

/-!
# The keepalive of an entry

`check_sg` compares the packet count of a source and group with one number for all
entries, the largest count that was ever seen.  The expiry of an entry is restarted by
fresh traffic exactly when that number and the count of its own last check agree on
what is fresh.
-/

namespace PimDm.Property

open PimDm.Foundation PimDm.Source PimDm.Effect PimDm.Refinement

variable {host : Host} {s s' : Daemon} {source group : Addr}

/-! ## Counts -/

/-- The record of the entry that `find_sg` finds. -/
def entryOf (s : Daemon) (source group : Addr) : Ptr :=
  match s.mrts.find Mrt.next (Mrt.isFor source group) (s.mrts.size + 1) s.themrt with
  | .ok mymrt => mymrt
  | .error _ => 0

/-- The packet count at the last check of each record. -/
def recordCount (before : Daemon) (event : Event) (_ : Daemon) (counts : Ptr → Int) : Ptr → Int :=
  match event, called before event with
  | .expire pktcnt, some (.checkSg source group) =>
      Function.update counts (entryOf before source group) pktcnt
  | _, _ => counts

/-! ## Expiry -/

/-- An expiry timer of the source and group, with the seconds until it is due. -/
def ExpiresIn (s : Daemon) (source group : Addr) (seconds timer : Int) : Prop :=
  (seconds, timer, .handleSgTimeout source group) ∈ agenda 0 s

instance (s : Daemon) (source group : Addr) (seconds timer : Int) :
    Decidable (ExpiresIn s source group seconds timer) := inferInstanceAs (Decidable (_ ∈ _))

/-- One expiry timer is left, it is new, and it runs the whole timeout. -/
def Restarted (s : Daemon) (source group : Addr) (s' : Daemon) : Prop :=
  ∃ timer, s.id < timer ∧
    ∀ seconds other, ExpiresIn s' source group seconds other ↔ seconds = pimSgTimeout ∧ other = timer

/-- All expiry timers are as they were. -/
def LeftAlone (s : Daemon) (source group : Addr) (s' : Daemon) : Prop :=
  ∀ seconds timer, ExpiresIn s' source group seconds timer ↔ ExpiresIn s source group seconds timer

/-- The expiry is restarted when the count has grown since the last check, and left alone when
it has not. -/
def KeepsAlive (s : Daemon) (source group : Addr) (count pktcnt : Int) (s' : Daemon) : Prop :=
  (pktcnt > count → Restarted s source group s') ∧ (¬ pktcnt > count → LeftAlone s source group s')

/-- The expiry timers are the one in the slot of the entry, which is not being called. -/
def ExpirySlotHolds (s : Daemon) (source group : Addr) : Prop :=
  ∀ entry ∈ alarms s, entry.2 = .handleSgTimeout source group →
    slot Mrt.timeoutId s source group = some entry.1 ∧ entry ∉ s.expired.map alarm

instance (s : Daemon) (source group : Addr) : Decidable (ExpirySlotHolds s source group) :=
  inferInstanceAs (Decidable (∀ entry ∈ alarms s, _))

/-- `packet_number` and the count of the last check agree on whether the count has grown, and if
it has, the expiry timer can be cleared. -/
def CountsAgree (s : Daemon) (source group : Addr) (count pktcnt : Int) : Prop :=
  (pktcnt > s.packetNumber ↔ pktcnt > count) ∧ (pktcnt > count → ExpirySlotHolds s source group)

instance (s : Daemon) (source group : Addr) (count pktcnt : Int) :
    Decidable (CountsAgree s source group count pktcnt) := inferInstanceAs (Decidable (_ ∧ _))

/-! ## One check -/

theorem expiresIn_bounds (orderly : Orderly s) {seconds timer : Int}
    (expires : ExpiresIn s source group seconds timer) : timer ≤ s.id :=
  (orderly.bounds _ (mem_alarms_of_agenda expires)).2

/-- What `check_sg` does to the expiry timers of its source and group. -/
theorem checkSg_expires (orderly : Orderly s) (named : ChecksNamed s) {pktcnt : Int}
    (calls : called s (.expire pktcnt) = some (.checkSg source group))
    (taken : Step host s (.expire pktcnt) s') :
    (∃ mymrt, Finds s source group mymrt) ∧
      ((pktcnt > s.packetNumber ∧ ∀ seconds timer, ExpiresIn s' source group seconds timer ↔
          (seconds = pimSgTimeout ∧ timer = s.id + 1) ∨ ExpiresIn s source group seconds timer ∧
            (slot Mrt.timeoutId s source group ≠ some timer ∨
              (timer, .handleSgTimeout source group) ∈ s.expired.map alarm)) ∨
        ¬ pktcnt > s.packetNumber ∧ LeftAlone s source group s') := by
  have call := runs_called calls taken.2
  obtain ⟨ptr, rest, batch, same⟩ := called_batch calls
  have start : Orderly s.popExpired := orderly_update .popExpired orderly
  have kept : ChecksNamed s.popExpired := named.of_records (fun _ e here => ⟨e, here, rfl⟩)
    fun names => names.of_sublist rfl (alarms_popExpired s)
  have other : NotCheck (.handleSgTimeout source group) := fun _ _ => Callback.noConfusion
  have popped : ∀ seconds timer, ExpiresIn s.popExpired source group seconds timer ↔
      ExpiresIn s source group seconds timer := by
    intro seconds timer
    unfold ExpiresIn
    rw [agenda_popExpired batch, List.mem_cons]
    refine (or_iff_right fun first => ?_).symm
    have func := congrArg (fun entry => entry.2.2) first
    rw [alarm, same] at func
    cases func
  have waits : ∀ timer, (timer, .handleSgTimeout source group) ∈ s.popExpired.expired.map alarm ↔
      (timer, .handleSgTimeout source group) ∈ s.expired.map alarm := by
    intro timer
    rw [Daemon.popExpired, batch, List.tail_cons, List.map_cons, List.mem_cons]
    refine (or_iff_right fun first => ?_).symm
    rw [alarm, same] at first
    cases first
  obtain ⟨mymrt, e, found, here, ⟨more, rfl⟩ | ⟨none, rfl⟩⟩ := runs_checkSg call
  · refine ⟨⟨mymrt, found⟩, Or.inl ⟨more, fun seconds timer => ?_⟩⟩
    have restarted := restart_checksNamed kept mymrt e.timeoutId source group pktcnt
    obtain ⟨_, _, check⟩ := restarted mymrt { e with timeoutId := s.id + 1 } (by
      rw [restart_mrts, Heap.get?_modify_same, here]
      rfl)
    have slotted : slot Mrt.timeoutId s source group = some e.timeoutId := by
      have content : s.mrts.get? mymrt = some e := here
      rw [slot_found (show Finds s source group mymrt from found), content]
      rfl
    have rechecked : ExpiresIn (recheck (restart s.popExpired mymrt e.timeoutId source group pktcnt) mymrt
        e.checkTimerid source group) source group seconds timer ↔ _ :=
      mem_agenda_recheck (restart_orderly start mymrt e.timeoutId source group pktcnt) check other
    rw [mem_agenda_restart start] at rechecked
    refine rechecked.trans (or_congr ?_ (and_congr (popped seconds timer) (or_congr ?_ (waits timer))))
    · rw [Int.zero_add, Prod.mk.injEq, Prod.mk.injEq, and_iff_left rfl]
      exact Iff.rfl
    · rw [slotted, Ne, Ne, Option.some.injEq, eq_comm]
  · refine ⟨⟨mymrt, found⟩, Or.inr ⟨none, fun seconds timer => ?_⟩⟩
    obtain ⟨_, _, check⟩ := kept mymrt e here
    exact (mem_agenda_recheck start check other).trans (popped seconds timer)

/-- A check keeps its entry alive exactly when the counts agree. -/
theorem keepsAlive_iff (orderly : Orderly s) (named : ChecksNamed s) {count pktcnt : Int}
    (calls : called s (.expire pktcnt) = some (.checkSg source group))
    (taken : Step host s (.expire pktcnt) s') :
    KeepsAlive s source group count pktcnt s' ↔ CountsAgree s source group count pktcnt := by
  have fresh : ∀ seconds timer, ¬ (ExpiresIn s source group seconds timer ∧ s.id < timer) := by
    rintro seconds timer ⟨expires, new⟩
    have bounds := expiresIn_bounds orderly expires
    omega
  obtain ⟨_, ⟨more, expiries⟩ | ⟨less, same⟩⟩ := checkSg_expires orderly named calls taken
  · have set : ExpiresIn s' source group pimSgTimeout (s.id + 1) :=
      (expiries pimSgTimeout (s.id + 1)).mpr (Or.inl ⟨rfl, rfl⟩)
    constructor
    · rintro ⟨grown, still⟩
      have grew : pktcnt > count := by
        by_contra none
        exact fresh _ _ ⟨(still none _ _).mp set, Int.lt_succ _⟩
      refine ⟨iff_of_true more grew, fun _ => ?_⟩
      obtain ⟨timer, new, only⟩ := grown grew
      rintro ⟨id, func⟩ member rfl
      obtain ⟨seconds, due⟩ := agenda_of_mem_alarms 0 member
      have old := expiresIn_bounds orderly due
      -- A timer that is left would be the new one.
      have cleared : ¬ (slot Mrt.timeoutId s source group ≠ some id ∨
          (id, .handleSgTimeout source group) ∈ s.expired.map alarm) := by
        intro stays
        have left := (only seconds id).mp ((expiries seconds id).mpr (Or.inr ⟨due, stays⟩))
        omega
      obtain ⟨slotted, waits⟩ := not_or.mp cleared
      exact ⟨not_not.mp slotted, waits⟩
    · rintro ⟨agree, holds⟩
      have grew := agree.mp more
      refine ⟨fun _ => ⟨s.id + 1, Int.lt_succ _, fun seconds timer => ?_⟩, fun none => absurd grew none⟩
      rw [expiries, or_iff_left]
      rintro ⟨due, stays⟩
      obtain ⟨slotted, waits⟩ := holds grew _ (mem_alarms_of_agenda due) rfl
      rcases stays with apart | batch
      · exact apart slotted
      · exact waits batch
  · constructor
    · rintro ⟨grown, _⟩
      have none : ¬ pktcnt > count := by
        intro grew
        obtain ⟨timer, new, only⟩ := grown grew
        exact fresh _ _ ⟨(same _ _).mp ((only _ _).mpr ⟨rfl, rfl⟩), new⟩
      exact ⟨iff_of_false less none, fun grew => absurd grew none⟩
    · rintro ⟨agree, _⟩
      exact ⟨fun grew => absurd (agree.mpr grew) less, fun _ => same⟩

/-! ## Runs -/

theorem reachable_checks {allowed : Daemon × (Ptr → Int) → Event → Prop} {reached : Daemon × (Ptr → Int)}
    (run : ReachableWith host recordCount (fun _ => 0) allowed reached) :
    Orderly reached.1 ∧ ChecksNamed reached.1 := by
  obtain ⟨start, started, steps⟩ := run
  refine steps.keeps (P := fun state => Orderly state.1 ∧ ChecksNamed state.1)
    ⟨start_orderly started, start_checksNamed started⟩ ?_
  rintro before event after ⟨orderly, named⟩ _ taken
  exact ⟨orderly_of_changes (handle_anything taken.1.2) orderly, handle_checksNamed orderly named taken.1.2⟩

/-- In every run, `check_sg` restarts the expiry of its entry for traffic since the last check of
that entry, and leaves it alone without, exactly when the counts agree. -/
theorem keepalive_per_flow {before : Daemon × (Ptr → Int)} {pktcnt : Int}
    (run : ReachableWith host recordCount (fun _ => 0) (fun _ _ => True) before)
    (calls : called before.1 (.expire pktcnt) = some (.checkSg source group))
    (taken : Step host before.1 (.expire pktcnt) s') :
    KeepsAlive before.1 source group (before.2 (entryOf before.1 source group)) pktcnt s' ↔
      CountsAgree before.1 source group (before.2 (entryOf before.1 source group)) pktcnt := by
  obtain ⟨orderly, named⟩ := reachable_checks run
  exact keepsAlive_iff orderly named calls taken

/-! ## Two flows -/

/-- Two entries, half a minute old, and the timers before their checks called. -/
def beforeChecks : List Event :=
  [upcall 1 1 (stationOn 1 2) studio channel, upcall 1 1 (stationOn 1 2) studio otherChannel, .age 30,
    .expire 0, .expire 0, .expire 0]

/-- The check of the first entry finds 100 packets. -/
theorem keepalive_per_flow_session :
    ∃ (before : Daemon × (Ptr → Int)) (after : Daemon),
      ReachableWith loneRouter recordCount (fun _ => 0) (fun _ _ => True) before ∧
      called before.1 (.expire 100) = some (.checkSg studio channel) ∧
      Step loneRouter before.1 (.expire 100) after ∧
      KeepsAlive before.1 studio channel (before.2 (entryOf before.1 studio channel)) 100 after := by
  have passed : endsWithEvent loneRouter recordCount (fun _ _ => True) (fun _ => 0) beforeChecks (.expire 100)
      (fun before _ => decide (called before.1 (.expire 100) = some (.checkSg studio channel) ∧
        CountsAgree before.1 studio channel (before.2 (entryOf before.1 studio channel)) 100)) = true := by
    decide +kernel
  obtain ⟨before, after, run, _, taken, agrees⟩ := step_of_endsWithEvent passed
  obtain ⟨calls, agree⟩ := of_decide_eq_true agrees
  exact ⟨before, after.1, run, calls, taken.1, (keepalive_per_flow run calls taken.1).mpr agree⟩

/-- The check of the second entry finds 50 packets after the first had 100. -/
theorem keepalive_misses_flow :
    ¬ ∀ (host : Host) (before : Daemon × (Ptr → Int)) (source group : Addr) (pktcnt : Int) (after : Daemon),
      ReachableWith host recordCount (fun _ => 0) (fun _ _ => True) before →
        called before.1 (.expire pktcnt) = some (.checkSg source group) →
          Step host before.1 (.expire pktcnt) after →
            KeepsAlive before.1 source group (before.2 (entryOf before.1 source group)) pktcnt after := by
  intro always
  have passed : endsWithEvent loneRouter recordCount (fun _ _ => True) (fun _ => 0)
      (beforeChecks ++ [.expire 100]) (.expire 50)
      (fun before _ => decide (called before.1 (.expire 50) = some (.checkSg studio otherChannel) ∧
        ¬ CountsAgree before.1 studio otherChannel (before.2 (entryOf before.1 studio otherChannel)) 50)) = true := by
    decide +kernel
  obtain ⟨before, after, run, _, taken, disagrees⟩ := step_of_endsWithEvent passed
  obtain ⟨calls, disagree⟩ := of_decide_eq_true disagrees
  obtain ⟨orderly, named⟩ := reachable_checks run
  have alive := always loneRouter before studio otherChannel 50 after.1 run calls taken.1
  exact disagree ((keepsAlive_iff orderly named calls taken.1).mp alive)

end PimDm.Property
