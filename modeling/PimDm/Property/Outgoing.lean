import PimDm.Refinement.Steps
import PimDm.Property.KernelMirror

/-!
# What the outgoing interfaces of the entries say

Four properties of every entry in every state of a run.  Each of them is lost by
some handler, and each is kept by exactly the events that meet its condition: a
run keeps the property up to the first event that does not.
-/

namespace PimDm.Property

open PimDm.Foundation PimDm.Source PimDm.Routing PimDm.Refinement

variable {host : Host} {s s' : Daemon}

/-! ## The incoming interface -/

/-- The event opens no interface on an entry whose packets arrive there. -/
def OpensNoIncoming (host : Host) (s : Daemon) (event : Event) : Prop :=
  ∀ item ∈ (table s).entries, (requested host s event).SparesIncoming (table s) item

instance (host : Host) (s : Daemon) (event : Event) : Decidable (OpensNoIncoming host s event) :=
  inferInstanceAs (Decidable (∀ item ∈ (table s).entries, _))

theorem safe_of_opensNoIncoming (zero : host.ZeroFilled)
    (reached : Reachable host (OpensNoIncoming host) s) :
    Models s (table s) ∧ ∀ item ∈ (table s).entries, Safe item.2 := by
  refine reachable_table (P := fun t => ∀ item ∈ t.entries, Safe item.2) zero
    (fun _ member => (List.not_mem_nil member).elim) ?_ reached
  intro s event t s' _ models may _ safe
  unfold OpensNoIncoming at may
  rw [models.table_eq] at may
  exact (safe_apply_iff models.entries.nodup safe _).mpr may

/-- A kernel that mirrors safe entries does not forward back. -/
theorem mirrors_safe {mfc : Addr → Addr → Option Mfc} {entries : List (Ptr × Route)}
    (mirrors : Mirrors host mfc entries) (safe : ∀ item ∈ entries, Safe item.2) {source group : Addr}
    {m : Mfc} (cached : mfc source group = some m) (low : 1 ≤ m.parent)
    (high : m.parent ≤ host.maxvif) : m.ttls m.parent = 0 := by
  have known : mfc source group ≠ none := by simp [cached]
  obtain ⟨item, member, same⟩ := List.mem_map.mp ((mirrors.keys source group).mp known)
  obtain ⟨told, found, agrees⟩ := mirrors.agrees item member
  obtain ⟨sameSource, sameGroup⟩ := Prod.mk.inj same
  rw [sameSource, sameGroup, cached] at found
  obtain rfl := Option.some.inj found
  have closed : item.2.outvif item.2.incoming = 0 := safe item member
  rw [agrees.ttls m.parent low high, agrees.parent, closed]
  rfl

/-- As long as no event opens an incoming interface, no entry forwards back, nor
does the kernel if it asks only for what it lacks; the first event that opens one
makes an entry forward back. -/
theorem outvif_incoming_closed (zero : host.ZeroFilled)
    (reached : Reachable host (OpensNoIncoming host) s) :
    (∀ item ∈ (table s).entries, item.2.outvif item.2.incoming = 0) ∧
      (Reachable host AsksOnMiss s → ∀ source group m, s.mfc source group = some m →
        1 ≤ m.parent → m.parent ≤ host.maxvif → m.ttls m.parent = 0) ∧
      ∀ event s', Step host s event s' →
        ((∀ item ∈ (table s').entries, item.2.outvif item.2.incoming = 0) ↔
          OpensNoIncoming host s event) := by
  obtain ⟨models, safe⟩ := safe_of_opensNoIncoming zero reached
  refine ⟨safe, fun misses source group m cached low high => ?_, fun event s' taken => ?_⟩
  · have mirrors := (mirrored_of_asksOnMiss zero misses).2.mirrors
    rw [← models.mfc] at mirrors
    exact mirrors_safe mirrors safe cached low high
  · have after := (handle_models zero models taken.2).models
    rw [after.table_eq]
    exact safe_apply_iff models.entries.nodup safe _

/-- A Hello on the incoming interface makes the entry forward back. -/
theorem outvif_incoming_opened :
    ¬ ∀ host : Host, host.ZeroFilled → ∀ s, Reachable host NoAssert s →
      ∀ item ∈ (table s).entries, item.2.outvif item.2.incoming = 0 := by
  intro closed
  have passed : endsWith router NoAssert
      [upcall 1 1 0 (stationOn 1 8) channel, helloFrom (stationOn 1 9) 105]
      (fun s => (table s).entries.any fun item => item.2.outvif item.2.incoming == 1) = true := by
    decide +kernel
  obtain ⟨s, reached, open_⟩ := reachable_of_endsWith passed
  obtain ⟨item, member, back⟩ := List.any_eq_true.mp open_
  have zero := closed router router_zeroFilled s reached item member
  rw [zero] at back
  exact absurd back (by decide)

/-- The same upcall, with the neighbour on another interface. -/
theorem outvif_incoming_closed_session :
    ∃ s, Reachable router (OpensNoIncoming router) s ∧ (table s).entries.length = 1 ∧
      ∀ item ∈ (table s).entries, item.2.outvif item.2.incoming = 0 := by
  have passed : endsWith router (OpensNoIncoming router)
      [upcall 1 1 0 (stationOn 1 8) channel, helloFrom (stationOn 2 9) 105,
        .acceptGroupReport (stationOn 3 5) channel]
      (fun s => (table s).entries.length == 1) = true := by decide +kernel
  obtain ⟨s, reached, one⟩ := reachable_of_endsWith passed
  exact ⟨s, reached, eq_of_beq one, (outvif_incoming_closed router_zeroFilled reached).1⟩

/-! ## The counter -/

/-- The event moves the counter of every entry as it moves its cells. -/
def MovesCounters (host : Host) (s : Daemon) (event : Event) : Prop :=
  ∀ item ∈ (table s).entries, (requested host s event).CountsRight (table s) item

instance (host : Host) (s : Daemon) (event : Event) : Decidable (MovesCounters host s event) :=
  inferInstanceAs (Decidable (∀ item ∈ (table s).entries, _))

theorem counts_of_movesCounters (zero : host.ZeroFilled) (reached : Reachable host (MovesCounters host) s) :
    Models s (table s) ∧ ∀ item ∈ (table s).entries, Counts host item.2 := by
  refine reachable_table (P := fun t => ∀ item ∈ t.entries, Counts host item.2) zero
    (fun _ member => (List.not_mem_nil member).elim) ?_ reached
  intro s event t s' before models may _ counts
  unfold MovesCounters at may
  rw [models.table_eq] at may
  exact (counts_apply_iff models.entries.nodup counts (requested_onServed before event)).mpr may

/-- As long as every event moves the counters with the cells, `outnumber` is the
number of outgoing interfaces; the first event that does not makes it differ. -/
theorem outnumber_counts (zero : host.ZeroFilled) (reached : Reachable host (MovesCounters host) s) :
    (∀ item ∈ (table s).entries, item.2.outnumber = outCount host item.2.outvif ∧
      0 ≤ item.2.outnumber ∧
        (item.2.outnumber = 0 ↔ ∀ vif, 1 ≤ vif → vif ≤ host.maxvif → item.2.outvif vif ≠ 1)) ∧
      ∀ event s', Step host s event s' →
        ((∀ item ∈ (table s').entries, item.2.outnumber = outCount host item.2.outvif) ↔
          MovesCounters host s event) := by
  obtain ⟨models, counts⟩ := counts_of_movesCounters zero reached
  refine ⟨fun item member => ?_, fun event s' taken => ?_⟩
  · have number : item.2.outnumber = outCount host item.2.outvif := counts item member
    refine ⟨number, by omega, ?_⟩
    rw [number, Int.natCast_eq_zero, outCount_eq_zero]
    simp only [Host.mem_vifs, and_imp]
  · have after := (handle_models zero models taken.2).models
    rw [after.table_eq]
    exact counts_apply_iff models.entries.nodup counts (requested_onServed reached event)

/-- A Prune takes effect and the counter stays. -/
theorem outnumber_miscounts :
    ¬ ∀ host : Host, host.ZeroFilled → ∀ s, Reachable host NoAssert s →
      ∀ item ∈ (table s).entries, item.2.outnumber = outCount host item.2.outvif := by
  intro counts
  have passed : endsWith router NoAssert
      [helloFrom (stationOn 2 9) 105, upcall 1 1 (stationOn 1 7) studio channel,
        joinPruneFrom (stationOn 2 9) (stationOn 2 1) studio channel 0 1, .age 3, .expire 0, .expire 0]
      (fun s => (table s).entries.any fun item =>
        item.2.outnumber == 1 && outCount router item.2.outvif == 0) = true := by decide +kernel
  obtain ⟨s, reached, miscounted⟩ := reachable_of_endsWith passed
  obtain ⟨item, member, both⟩ := List.any_eq_true.mp miscounted
  obtain ⟨one, none⟩ := Bool.and_eq_true_iff.mp both
  have number := counts router router_zeroFilled s reached item member
  rw [eq_of_beq one, eq_of_beq none] at number
  exact absurd number (by decide)

/-- A neighbour, a member and its leave. -/
theorem outnumber_counts_session :
    ∃ s, Reachable router (MovesCounters router) s ∧ (table s).entries.length = 1 ∧
      ∀ item ∈ (table s).entries, item.2.outnumber = outCount router item.2.outvif := by
  have passed : endsWith router (MovesCounters router)
      [helloFrom (stationOn 2 9) 105, upcall 1 1 (stationOn 1 7) studio channel,
        .acceptGroupReport (stationOn 3 5) channel, upcall 2 2 0 studio channel]
      (fun s => (table s).entries.length == 1) = true := by decide +kernel
  obtain ⟨s, reached, one⟩ := reachable_of_endsWith passed
  refine ⟨s, reached, eq_of_beq one, fun item member => ?_⟩
  exact ((outnumber_counts router_zeroFilled reached).1 item member).1

/-! ## Local members -/

/-- The event leaves every entry forwarding where its group has members. -/
def LeavesMembersServed (host : Host) (s : Daemon) (event : Event) : Prop :=
  ∀ item ∈ (table s).entries, (requested host s event).KeepsServing (table s) item

instance (host : Host) (s : Daemon) (event : Event) : Decidable (LeavesMembersServed host s event) :=
  inferInstanceAs (Decidable (∀ item ∈ (table s).entries, _))

theorem serving_of_leavesMembersServed (zero : host.ZeroFilled)
    (reached : Reachable host (LeavesMembersServed host) s) :
    Models s (table s) ∧ ∀ item ∈ (table s).entries, Serving host (table s) item.2 := by
  refine reachable_table (P := fun t => ∀ item ∈ t.entries, Serving host t item.2) zero
    (fun _ member => (List.not_mem_nil member).elim) ?_ reached
  intro s event t s' before models may _ serving
  unfold LeavesMembersServed at may
  rw [models.table_eq] at may
  exact (serving_apply_iff models.entries.nodup serving (requested_onServed before event)).mpr may

/-- As long as every event leaves the members served, every entry forwards on the
active interfaces with members of its group; the first event that does not leaves
a member without traffic. -/
theorem members_served (zero : host.ZeroFilled) (reached : Reachable host (LeavesMembersServed host) s) :
    (∀ item ∈ (table s).entries, ∀ vif, host.Serves vif → vif ≠ item.2.incoming →
        (table s).HasMember vif item.2.group → item.2.outvif vif = 1) ∧
      ∀ event s', Step host s event s' →
        ((∀ item ∈ (table s').entries, ∀ vif, host.Serves vif → vif ≠ item.2.incoming →
            (table s').HasMember vif item.2.group → item.2.outvif vif = 1) ↔
          LeavesMembersServed host s event) := by
  obtain ⟨models, serving⟩ := serving_of_leavesMembersServed zero reached
  refine ⟨serving, fun event s' taken => ?_⟩
  have after := (handle_models zero models taken.2).models
  rw [after.table_eq]
  exact serving_apply_iff models.entries.nodup serving (requested_onServed reached event)

/-- A report reaches the newest of two sources only. -/
theorem members_unserved :
    ¬ ∀ host : Host, host.ZeroFilled → ∀ s, Reachable host NoAssert s →
      ∀ item ∈ (table s).entries, ∀ vif, host.Serves vif → vif ≠ item.2.incoming →
        (table s).HasMember vif item.2.group → item.2.outvif vif = 1 := by
  intro served
  have passed : endsWith router NoAssert
      [upcall 1 1 (stationOn 1 7) studio channel, upcall 1 1 0 (stationOn 1 8) channel,
        .acceptGroupReport (stationOn 3 5) channel]
      (fun s => (table s).entries.any fun item => item.2.incoming == 1 && item.2.outvif 3 == 0 &&
        decide ((table s).HasMember 3 item.2.group)) = true := by decide +kernel
  obtain ⟨s, reached, left⟩ := reachable_of_endsWith passed
  obtain ⟨item, member, all⟩ := List.any_eq_true.mp left
  obtain ⟨cells, asked⟩ := Bool.and_eq_true_iff.mp all
  obtain ⟨incoming, closed⟩ := Bool.and_eq_true_iff.mp cells
  have serves : router.Serves 3 := ⟨by decide, by decide, by decide⟩
  have apart : 3 ≠ item.2.incoming := by
    rw [eq_of_beq incoming]
    decide
  have opened := served router router_zeroFilled s reached item member 3 serves apart
    (of_decide_eq_true asked)
  rw [eq_of_beq closed] at opened
  exact absurd opened (by decide)

/-- One source, a member, a neighbour and its Prune on another interface. -/
theorem members_served_session :
    ∃ s, Reachable router (LeavesMembersServed router) s ∧ (table s).entries.length = 1 ∧
      ∀ item ∈ (table s).entries, ∀ vif, router.Serves vif → vif ≠ item.2.incoming →
        (table s).HasMember vif item.2.group → item.2.outvif vif = 1 := by
  have passed : endsWith router (LeavesMembersServed router)
      [helloFrom (stationOn 2 9) 105, upcall 1 1 (stationOn 1 7) studio channel,
        .acceptGroupReport (stationOn 3 5) channel,
        joinPruneFrom (stationOn 2 9) (stationOn 2 1) studio channel 0 1, .age 3, .expire 0, .expire 0]
      (fun s => (table s).entries.length == 1) = true := by decide +kernel
  obtain ⟨s, reached, one⟩ := reachable_of_endsWith passed
  exact ⟨s, reached, eq_of_beq one, (members_served router_zeroFilled reached).1⟩

/-! ## Listeners -/

/-- The event forwards to nobody and takes no listener away from an entry. -/
def ForwardsToListeners (host : Host) (s : Daemon) (event : Event) : Prop :=
  ∀ item ∈ (table s).entries, (requested host s event).KeepsListened (table s) item

instance (host : Host) (s : Daemon) (event : Event) : Decidable (ForwardsToListeners host s event) :=
  inferInstanceAs (Decidable (∀ item ∈ (table s).entries, _))

theorem listened_of_forwardsToListeners (zero : host.ZeroFilled)
    (reached : Reachable host (ForwardsToListeners host) s) :
    Models s (table s) ∧ ∀ item ∈ (table s).entries, Listened (table s) item.2 := by
  refine reachable_table (P := fun t => ∀ item ∈ t.entries, Listened t item.2) zero
    (fun _ member => (List.not_mem_nil member).elim) ?_ reached
  intro s event t s' _ models may carries listened
  unfold ForwardsToListeners at may
  rw [models.table_eq] at may
  exact (listened_apply_iff models.entries.nodup listened carries.neighbors).mpr may

/-- As long as every event forwards to listeners only, so does every entry; the
first event that does not makes an entry forward to nobody. -/
theorem outvif_listened (zero : host.ZeroFilled) (reached : Reachable host (ForwardsToListeners host) s) :
    (∀ item ∈ (table s).entries, ∀ vif, item.2.outvif vif = 1 →
        (table s).HasNeighbor vif ∨ (table s).HasMember vif item.2.group) ∧
      ∀ event s', Step host s event s' →
        ((∀ item ∈ (table s').entries, ∀ vif, item.2.outvif vif = 1 →
            (table s').HasNeighbor vif ∨ (table s').HasMember vif item.2.group) ↔
          ForwardsToListeners host s event) := by
  obtain ⟨models, listened⟩ := listened_of_forwardsToListeners zero reached
  refine ⟨listened, fun event s' taken => ?_⟩
  have carries := handle_models zero models taken.2
  rw [carries.models.table_eq]
  exact listened_apply_iff models.entries.nodup listened carries.neighbors

/-- A Graft opens an interface without a neighbour or a member. -/
theorem outvif_unlistened :
    ¬ ∀ host : Host, host.ZeroFilled → ∀ s, Reachable host NoAssert s →
      ∀ item ∈ (table s).entries, ∀ vif, item.2.outvif vif = 1 →
        (table s).HasNeighbor vif ∨ (table s).HasMember vif item.2.group := by
  intro listened
  have passed : endsWith router NoAssert
      [upcall 1 1 (stationOn 1 7) studio channel,
        graftFrom (stationOn 2 9) (stationOn 2 1) studio channel]
      (fun s => (table s).entries.any fun item => item.2.outvif 2 == 1 &&
        decide (¬ (table s).HasNeighbor 2 ∧ ¬ (table s).HasMember 2 item.2.group)) = true := by
    decide +kernel
  obtain ⟨s, reached, alone⟩ := reachable_of_endsWith passed
  obtain ⟨item, member, both⟩ := List.any_eq_true.mp alone
  obtain ⟨opened, nobody⟩ := Bool.and_eq_true_iff.mp both
  obtain ⟨noNeighbor, noMember⟩ := of_decide_eq_true nobody
  rcases listened router router_zeroFilled s reached item member 2 (eq_of_beq opened) with has | has
  · exact noNeighbor has
  · exact noMember has

/-- A neighbour, its Prune, and the end of the prune. -/
theorem outvif_listened_session :
    ∃ s, Reachable router (ForwardsToListeners router) s ∧ (table s).entries.length = 1 ∧
      ∀ item ∈ (table s).entries, ∀ vif, item.2.outvif vif = 1 →
        (table s).HasNeighbor vif ∨ (table s).HasMember vif item.2.group := by
  have passed : endsWith router (ForwardsToListeners router)
      [helloFrom (stationOn 2 9) 105, upcall 1 1 (stationOn 1 7) studio channel,
        graftAckFrom (stationOn 1 7) (stationOn 1 1) studio channel,
        joinPruneFrom (stationOn 2 9) (stationOn 2 1) studio channel 0 1, .age 3, .expire 0,
        .acceptGroupReport (stationOn 3 5) channel]
      (fun s => (table s).entries.length == 1) = true := by decide +kernel
  obtain ⟨s, reached, one⟩ := reachable_of_endsWith passed
  exact ⟨s, reached, eq_of_beq one, (outvif_listened router_zeroFilled reached).1⟩

end PimDm.Property
