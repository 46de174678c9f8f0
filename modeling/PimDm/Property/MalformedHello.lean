import PimDm.Refinement.Neighbors
import PimDm.Refinement.Steps
import PimDm.Property.Session

/-!
# Hellos without a hold time

`receive_hello` logs that no hold time was found and goes on with -1: a known neighbour is
given a new timer, and an unknown sender becomes a neighbour.  Only a sender on no network of
the router, at which the message is not parsed, leaves the daemon as it was.
-/

namespace PimDm.Property

open PimDm.Foundation PimDm.Source PimDm.Routing PimDm.Effect PimDm.Refinement

variable {host : Host} {s s' : Daemon} {src : Addr} {data : Memory} {length : Int}

/-- The neighbours and their records, the entries and the timer queue are what they were. -/
structure Undisturbed (s s' : Daemon) : Prop where
  neighbors : ∀ vif, (table s').neighbors vif = (table s).neighbors vif
  records : ∀ vif, ∀ item ∈ (table s).neighbors vif, s'.neighbors.get? item.1 = s.neighbors.get? item.1
  entries : (table s').entries = (table s).entries
  queue : s'.queue = s.queue

/-- `receive_hello` completes and disturbs nothing. -/
def HelloIgnored (host : Host) (s : Daemon) (src : Addr) (data : Memory) (length : Int) : Prop :=
  ∃ s', Runs (receiveHello host src data length) s () s' ∧ Undisturbed s s'

/-! ## Senders on a network of the router -/

/-- A timer that was just set has a number that no pending timer had. -/
theorem queue_setTimer_ne (orderly : Orderly s) {cleared : Daemon} (same : cleared.id = s.id) (delay : Int)
    (action : Callback) : (cleared.setTimer delay action).queue ≠ s.queue := by
  intro unmoved
  have set : alarm ⟨cleared.id + 1, action, delay⟩ ∈ ((cleared.setTimer delay action).queue).map alarm :=
    (insertTimer_perm _ cleared.queue).mem_iff.mpr (List.mem_cons_self ..)
  rw [unmoved] at set
  obtain ⟨timer, waiting, named⟩ := List.mem_map.mp set
  have pending : timer ∈ s.pending := List.mem_append.mpr (Or.inr waiting)
  have bound := (orderly.bounds (alarm timer) (List.mem_map_of_mem pending)).2
  rw [named] at bound
  simp only [alarm] at bound
  omega

/-- A renewed neighbour has a new timer. -/
theorem refreshNeighbor_disturbs (orderly : Orderly s) {entry : Ptr} {holdtime : Int}
    (run : Runs (refreshNeighbor entry holdtime) s () s') : ¬ Undisturbed s s' := by
  intro still
  obtain ⟨n, _, rfl⟩ := refreshNeighbor_renews run
  have same : ((s.setNeighbor entry fun n => { n with holdtime := holdtime }).clearTimer n.timeoutid).id =
      s.id := clearTimer_id _ _
  exact queue_setTimer_ne orderly same _ _ still.queue

/-- A new neighbour is in its list. -/
theorem addPimNeighbor_disturbs (models : Models s (table s)) {vif : Vif} {holdtime : Int}
    (run : Runs (addPimNeighbor host src holdtime vif) s () s') : ¬ Undisturbed s s' := by
  intro still
  have after := addPimNeighbor_models models run
  have listed := still.neighbors vif
  rw [after.table_eq, Table.addNeighbor, Table.refreshAdd_neighbors, Table.neighbors_set_self] at listed
  exact List.cons_ne_self _ _ listed

/-- A Hello without a hold time changes something if its sender is on a network. -/
theorem receiveHello_disturbs (models : Models s (table s)) (orderly : Orderly s)
    (malformed : Runs (getHoldTime data length) s (-1) s) (direct : findVifDirect host src ≠ 0)
    (run : Runs (receiveHello host src data length) s () s') : ¬ Undisturbed s s' := by
  obtain ⟨valid, _, check, rest⟩ := runs_bind.mp run
  obtain ⟨rfl, _, accepted⟩ := runs_validPacket check
  rw [if_neg (by simp [accepted.mpr direct])] at rest
  obtain ⟨holdtime, _, parse, searching⟩ := runs_bind.mp rest
  obtain ⟨rfl, rfl⟩ := runs_deterministic malformed parse
  obtain ⟨entry, _, search, deciding⟩ := runs_bind.mp searching
  obtain ⟨_, rfl⟩ := models.runs_findneighbor.mp search
  rcases runs_ite.mp deciding with ⟨_, known⟩ | ⟨_, add⟩
  · rw [if_neg (by decide)] at known
    exact refreshNeighbor_disturbs orderly known
  · exact addPimNeighbor_disturbs models add

/-- A Hello without a hold time is ignored exactly if its sender is on no network. -/
theorem malformed_hello_ignored (models : Models s (table s)) (orderly : Orderly s)
    (malformed : Runs (getHoldTime data length) s (-1) s) :
    HelloIgnored host s src data length ↔ inetCksum data length = 0 ∧ findVifDirect host src = 0 := by
  constructor
  · rintro ⟨s', run, still⟩
    obtain ⟨valid, _, check, _⟩ := runs_bind.mp run
    obtain ⟨_, correct, _⟩ := runs_validPacket check
    refine ⟨correct, ?_⟩
    by_contra direct
    exact receiveHello_disturbs models orderly malformed direct run still
  · rintro ⟨correct, apart⟩
    refine ⟨s, ?_, ⟨fun _ => rfl, fun _ _ _ => rfl, rfl, rfl⟩⟩
    have refused : Runs (validPacket host src data length) s false s := by
      rw [validPacket, if_neg (not_not.mpr correct), if_pos apart]
      exact runs_pure.mpr ⟨rfl, rfl⟩
    refine runs_bind.mpr ⟨false, s, refused, ?_⟩
    rw [if_pos rfl]
    exact runs_pure.mpr ⟨rfl, rfl⟩

/-! ## A Hello that is a header only -/

def bareHello : Memory :=
  writePimHeader (fun _ => 0) pimHello 0

theorem bareHello_malformed (s : Daemon) : Runs (getHoldTime bareHello sizeofPim) s (-1) s :=
  runs_liftHeap.mpr ⟨by decide +kernel, rfl⟩

/-- A neighbour that sends one is given a new timer. -/
theorem malformed_hello_renews :
    ¬ ∀ (host : Host) (s : Daemon) (src : Addr) (data : Memory) (length : Int), Models s (table s) →
      Orderly s → Runs (getHoldTime data length) s (-1) s → HelloIgnored host s src data length := by
  intro all
  have passed : endsWith router NoAssert [helloFrom (stationOn 2 9) 105]
      (fun s => decide ((table s).HasNeighbor 2)) = true := by decide +kernel
  obtain ⟨s, reached, _⟩ := reachable_of_endsWith passed
  have models := reachable_models router_zeroFilled reached
  obtain ⟨s', run, still⟩ := all router s (stationOn 2 9) _ _ models (reachable_orderly reached) (bareHello_malformed s)
  exact receiveHello_disturbs models (reachable_orderly reached) (bareHello_malformed s) (by decide) run still

/-- From a station behind another router it is dropped. -/
theorem malformed_hello_ignored_far :
    ∃ s, (table s).HasNeighbor 2 ∧ HelloIgnored router s studio bareHello sizeofPim := by
  have passed : endsWith router NoAssert [helloFrom (stationOn 2 9) 105]
      (fun s => decide ((table s).HasNeighbor 2)) = true := by decide +kernel
  obtain ⟨s, reached, known⟩ := reachable_of_endsWith passed
  have models := reachable_models router_zeroFilled reached
  refine ⟨s, of_decide_eq_true known, ?_⟩
  exact (malformed_hello_ignored models (reachable_orderly reached) (bareHello_malformed s)).mpr
    ⟨by decide +kernel, by decide⟩

end PimDm.Property
