import PimDm.Refinement.RoleTimers
import PimDm.Property.Deadlines
import PimDm.Property.Session

/-!
# Timers are cleared by what they are about

The ids by which the daemon clears timers lie in its records, and stay there when the timers
have run or another timer has taken their place in the record.  Still an event clears no timer
but those of the entries, neighbours, groups or roles it is about, and all others keep their
time.
-/

namespace PimDm.Property

open PimDm.Foundation PimDm.Source PimDm.Effect PimDm.Refinement

variable {host : Host} {s s' : Daemon} {event : Event}

/-- The seconds that a timer with so many left has left after an event.  One that is due stays
due until it is called. -/
def leftAfter : Event → Int → Int
  | .age elapsedTime, left => max (left - elapsedTime) 0
  | _, left => left

/-- Time passes for every timer. -/
theorem age_keeps {elapsedTime : Nat} (idle : s.expired = []) (built : Built s) {left timer : Int} {func : Callback}
    (member : (left, timer, func) ∈ agenda 0 s) :
    (max (left - elapsedTime) 0, timer, func) ∈ agenda 0 (s.age elapsedTime) := by
  have queued : (left, timer, func) ∈ due 0 s.queue := by
    rw [agenda, idle] at member
    exact member
  have sorted := built.timetable.sorted 0
  by_cases past : left ≤ elapsedTime
  · have detached : (left, timer, func) ∈ due 0 (detachExpired elapsedTime s.queue).1 := by
      rw [due_detached, DeltaQueue.mem_takeWhile_iff sorted]
      exact ⟨queued, by omega⟩
    have expired : (timer, func) ∈ (detachExpired elapsedTime s.queue).1.map alarm := by
      rw [← due_alarms 0]
      exact List.mem_map_of_mem detached
    obtain ⟨ptr, inside, same⟩ := List.mem_map.mp expired
    refine List.mem_append_left _ (List.mem_map.mpr ⟨ptr, inside, ?_⟩)
    rw [same, max_eq_right (by omega)]
  · have kept : (left, timer, func) ∈ due (0 + elapsedTime) (detachExpired elapsedTime s.queue).2 := by
      rw [due_kept, DeltaQueue.mem_dropWhile_iff sorted]
      exact ⟨queued, by omega⟩
    rw [due_add] at kept
    obtain ⟨⟨time, item⟩, waits, same⟩ := List.mem_map.mp kept
    obtain ⟨sum, rfl⟩ := Prod.mk.inj same
    have remaining : max (left - elapsedTime) 0 = time := by
      rw [max_eq_left (by omega)]
      omega
    rw [remaining]
    exact List.mem_append_right _ waits

/-- The timer that an event calls is gone when the work of the event begins, and no other. -/
theorem begun_keeps {entry : Int × Int × Callback} (member : entry ∈ agenda 0 s)
    (other : entry.2.1 ∉ calledId s event) : entry ∈ agenda 0 (begun s event) := by
  unfold begun
  split
  · rename_i func calls
    cases event with
    | expire pktcnt =>
        obtain ⟨ptr, rest, batch, _⟩ := called_batch calls
        rw [agenda_popExpired batch] at member
        refine (List.mem_cons.mp member).resolve_left fun first => other ?_
        rw [first, calledId, batch]
        rfl
    | _ => cases calls
  · exact member

/-- In every reachable state each id kept in a record names, as long as it is pending, the timer
of that record, and every event leaves all timers, with the time they have left, but for the
one it calls and those it may cancel. -/
theorem timers_kept (zero : host.ZeroFilled) {allowed : Daemon → Event → Prop} (reached : Reachable host allowed s) :
    Owned s ∧ ∀ event s', Step host s event s' → Owned s' ∧
      ∀ left timer func, (left, timer, func) ∈ agenda 0 s → timer ∉ calledId s event →
        ¬ MayCancel host s event func → (leftAfter event left, timer, func) ∈ agenda 0 s' := by
  have owned := reachable_owned zero reached
  refine ⟨owned, fun event s' taken => ⟨handle_owned zero owned taken.2, fun left timer func member other may => ?_⟩⟩
  by_cases passes : ∀ elapsedTime, event ≠ .age elapsedTime
  · have still : leftAfter event left = left := by
      cases event with
      | age elapsedTime => exact absurd rfl (passes elapsedTime)
      | _ => rfl
    rw [still]
    exact (handle_tends zero passes taken.2).stays (begun_owned owned event) 0 _ (begun_keeps member other) may
  · simp only [not_forall, not_not] at passes
    obtain ⟨elapsedTime, rfl⟩ := passes
    obtain rfl := runs_modify.mp taken.2
    exact age_keeps (idle_of_enabled rfl taken.1) (built_of_reachable reached) member

/-- A neighbour and an entry with its timers, and then a Hello of another neighbour. -/
theorem timers_kept_session : ∃ s s', Reachable router (fun _ _ => True) s ∧
    Step router s (helloFrom (stationOn 2 8) 105) s' ∧
    ∃ timer, (310, timer, .deletePimNeighbor 1) ∈ agenda 0 s ∧ (310, timer, .deletePimNeighbor 1) ∈ agenda 0 s' := by
  have passed : branchEndsWith router (fun _ _ => True) (fun _ _ => True)
      [helloFrom (stationOn 2 9) 310, upcall 1 1 (stationOn 1 7) studio channel] (helloFrom (stationOn 2 8) 105) []
      (fun s _ _ => decide (∃ entry ∈ agenda 0 s, entry.1 = 310 ∧ entry.2.2 = .deletePimNeighbor 1) &&
        decide ((s.neighbors.get? 1).map PimNeighbor.address = some (stationOn 2 9))) = true := by
    decide +kernel
  obtain ⟨s, s', _, reached, taken, _, tested⟩ := runs_of_branchEndsWith passed
  obtain ⟨waits, known⟩ := Bool.and_eq_true_iff.mp tested
  obtain ⟨⟨left, timer, func⟩, member, rfl, rfl⟩ := of_decide_eq_true waits
  refine ⟨s, s', reached, taken, timer, member, ?_⟩
  obtain ⟨_, kept⟩ := (timers_kept router_zeroFilled reached).2 _ _ taken
  refine kept 310 timer _ member nofun ?_
  rintro ⟨entry, n, same, here, address⟩
  cases same
  have source := of_decide_eq_true known
  rw [here, Option.map_some, address] at source
  exact absurd source (by decide)

end PimDm.Property
