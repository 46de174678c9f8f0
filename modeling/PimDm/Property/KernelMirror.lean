import PimDm.Refinement.Steps
import PimDm.Routing.Mirror
import PimDm.Property.Session

/-!
# The kernel forwards as the daemon's table says

The upcall of the kernel for a packet without a cache entry makes the daemon
create an entry without looking for one; as long as the kernel asks only for what
it does not hold, cache and table never differ between two events.
-/

namespace PimDm.Property

open PimDm.Foundation PimDm.Source PimDm.Routing PimDm.Refinement

/-- The kernel raises the upcall for a missing entry only while it holds none. -/
def AsksOnMiss (s : Daemon) : Event → Prop
  | .multicastPacketError mydata _ _ =>
      mydata.message = 1 → s.mfc mydata.source mydata.destination = none
  | _ => True

instance decidableAsksOnMiss (s : Daemon) : (event : Event) → Decidable (AsksOnMiss s event)
  | .multicastPacketError mydata _ _ =>
      inferInstanceAs (Decidable (mydata.message = 1 → s.mfc mydata.source mydata.destination = none))
  | .acceptMembershipQuery .. | .acceptGroupReport .. | .acceptLeaveMessage .. | .pimInput ..
  | .age _ | .expire _ => isTrue trivial

theorem fresh_mrt {s : Daemon} {t : Table} (models : Models s t) :
    s.mrts.fresh ∉ t.entries.map Prod.fst := by
  intro inside
  obtain ⟨item, member, same⟩ := List.mem_map.mp inside
  obtain ⟨e, found, _⟩ := models.entries.found member
  exact Heap.ne_fresh_of_get? found same

/-- An upcall the kernel may raise asks for a new entry. -/
theorem asked_of_asksOnMiss {host : Host} {s : Daemon} {t : Table} (models : Models s t) {event : Event}
    (may : AsksOnMiss s event) : (requested host s event).Asked t := by
  have asks := requested_asks host s event
  cases asked : requested host s event with
  | create mymrt upstream source group incoming =>
      rw [asked] at asks
      cases asks with
      | create first right =>
          refine ⟨fresh_mrt models, ?_⟩
          rw [← models.mfc]
          exact may first
  | _ => trivial

theorem mirrored_of_asksOnMiss {host : Host} (zero : host.ZeroFilled) {s : Daemon}
    (reached : Reachable host AsksOnMiss s) : Models s (table s) ∧ Mirrored host (table s) :=
  reachable_table (P := Mirrored host) zero (mirrored_empty host)
    (fun _ _ _ _ _ models may _ mirrored => mirrored.apply (asked_of_asksOnMiss models may)) reached

/-- Between two events the kernel's cache has the keys of `themrt`, no key twice,
and forwards as the entries do. -/
theorem kernel_mirrors_themrt {host : Host} (zero : host.ZeroFilled) {s : Daemon}
    (reached : Reachable host AsksOnMiss s) :
    ∃ entries, s.mrts.Shows Mrt.next Mrt.toRoute s.themrt entries ∧ Mirrors host s.mfc entries := by
  obtain ⟨models, mirrored⟩ := mirrored_of_asksOnMiss zero reached
  refine ⟨(table s).entries, models.entries, ?_⟩
  rw [models.mfc]
  exact mirrored.mirrors

/-- Two sources, a neighbour, a member, and a Prune whose delay runs out. -/
theorem kernel_mirrors_themrt_session :
    ∃ s, Reachable router AsksOnMiss s ∧ (table s).entries.length = 2 ∧
      ∃ entries, s.mrts.Shows Mrt.next Mrt.toRoute s.themrt entries ∧ Mirrors router s.mfc entries := by
  have passed : endsWith router AsksOnMiss
      [helloFrom (stationOn 2 9) 105, .acceptGroupReport (stationOn 3 5) channel,
        upcall 1 1 (stationOn 1 7) studio channel, upcall 1 1 0 (stationOn 1 8) channel,
        joinPruneFrom (stationOn 2 9) (stationOn 2 1) studio channel 0 1, .age 3, .expire 0, .expire 0]
      (fun s => (table s).entries.length == 2) = true := by decide +kernel
  obtain ⟨s, reached, two⟩ := reachable_of_endsWith passed
  exact ⟨s, reached, eq_of_beq two, kernel_mirrors_themrt router_zeroFilled reached⟩

end PimDm.Property
