import PimDm.Refinement.Steps
import PimDm.Property.Session

/-!
# The daemon implements a forwarding table

The linked lists of the daemon and the kernel's forwarding cache are the lists and the cache of
a table without pointers, timers and messages, and every event that completes is one change of
that table.
-/

namespace PimDm.Property

open PimDm.Foundation PimDm.Source PimDm.Effect PimDm.Routing PimDm.Refinement

variable {host : Host} {s : Daemon}

/-- One change of the table, about interfaces that are in use. -/
def TableStep (host : Host) (t : Table) (change : Change) (t' : Table) : Prop :=
  change.OnServed host ∧ t' = change.apply host t

/-- The step of the daemon is the change of the table that its event asks for. -/
theorem step_refines_table (zero : host.ZeroFilled) {allowed : Daemon → Event → Prop}
    (reached : Reachable host allowed s) {event : Event} {s' : Daemon} (taken : Step host s event s') :
    TableStep host (table s) (requested host s event) (table s') := by
  have carries := handle_models zero (reachable_models zero reached) taken.2
  exact ⟨requested_onServed reached event, carries.models.table_eq⟩

/-- In every reachable state the memory of the daemon shows the table, which a run of changes has
built from the empty one, and each event goes on with a change that is asked for by such an event. -/
theorem daemon_refines_table (zero : host.ZeroFilled) {allowed : Daemon → Event → Prop}
    (reached : Reachable host allowed s) :
    Models s (table s) ∧ Reaches (TableStep host) (fun _ _ => True) Table.empty (table s) ∧
      ∀ event s', Step host s event s' →
        Asks host s event (requested host s event) ∧ TableStep host (table s) (requested host s event) (table s') := by
  refine ⟨reachable_models zero reached, ?_, fun event s' taken =>
    ⟨requested_asks host s event, step_refines_table zero reached taken⟩⟩
  obtain ⟨start, started, run⟩ := reached
  have both : Reachable host allowed s ∧ Reaches (TableStep host) (fun _ _ => True) Table.empty (table s) := by
    refine run.keeps (P := fun state => Reachable host allowed state ∧
      Reaches (TableStep host) (fun _ _ => True) Table.empty (table state)) ?_ ?_
    · refine ⟨⟨start, started, .refl start⟩, ?_⟩
      rw [(start_models started).table_eq]
      exact .refl _
    · rintro before event after ⟨⟨first, begun, earlier⟩, changes⟩ may taken
      have step := step_refines_table zero ⟨first, begun, earlier⟩ taken
      exact ⟨⟨first, begun, earlier.snoc may taken⟩, changes.snoc trivial step⟩
  exact both.2

/-- A neighbour, a member and two entries. -/
theorem daemon_refines_table_session : ∃ s, Reachable router (fun _ _ => True) s ∧ (table s).entries.length = 2 ∧
    Models s (table s) ∧ Reaches (TableStep router) (fun _ _ => True) Table.empty (table s) := by
  have passed : endsWith router (fun _ _ => True) [helloFrom (stationOn 2 9) 105,
      .acceptGroupReport (stationOn 3 7) channel, upcall 1 1 (stationOn 1 7) studio channel,
      upcall 1 1 (stationOn 1 7) studio otherChannel] (fun s => decide ((table s).entries.length = 2)) = true := by
    decide +kernel
  obtain ⟨s, reached, length⟩ := reachable_of_endsWith passed
  obtain ⟨models, changes, _⟩ := daemon_refines_table router_zeroFilled reached
  exact ⟨s, reached, of_decide_eq_true length, models, changes⟩

end PimDm.Property
