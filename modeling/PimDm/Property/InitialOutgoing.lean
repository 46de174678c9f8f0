import PimDm.Refinement.NewEntry
import PimDm.Refinement.Steps
import PimDm.Property.Session

/-!
# The outgoing interfaces of a new entry

`add_sg` opens an interface for a neighbour or a member.  On the other interfaces it closes
the cell only if it is not 1 already, and nothing has been stored in the cell by then: what
`malloc` left in the block decides.
-/

namespace PimDm.Property

open PimDm.Foundation PimDm.Source PimDm.Routing PimDm.Refinement

variable {host : Host} {s : Daemon}

/-- The interfaces of the router that a new entry is to forward on are open, the others are
closed, and the counter counts the open ones. -/
structure StartsOutgoing (host : Host) (t : Table) (group : Addr) (incoming : Vif) (r : Route) : Prop where
  cells : ∀ vif, 1 ≤ vif → vif ≤ host.maxvif →
    r.outvif vif = if vif ≠ incoming ∧ (t.HasNeighbor vif ∨ t.HasMember vif group) then 1 else 0
  number : r.outnumber =
    (host.vifs.filter fun vif => decide (vif ≠ incoming ∧ (t.HasNeighbor vif ∨ t.HasMember vif group))).length

/-- The head of the table is an entry for the source, group and interface that starts so. -/
def HeadStarts (host : Host) (t : Table) (source group : Addr) (incoming : Vif) (s' : Daemon) : Prop :=
  ∃ e, s'.mrts.get? s'.themrt = some e ∧ e.source = source ∧ e.group = group ∧ e.incoming = incoming ∧
    StartsOutgoing host t group incoming e.toRoute

/-- `add_sg` creates such an entry. -/
def CreatesOutgoing (host : Host) (s : Daemon) (gateway source group : Addr) (incoming : Vif) : Prop :=
  ∃ s', Runs (addSg host gateway source group incoming) s () s' ∧
    HeadStarts host (table s) source group incoming s'

/-- No cell of the block is 1 for an interface that nobody is on, the incoming one apart. -/
def CellsClean (host : Host) (t : Table) (group : Addr) (incoming : Vif) (block : Mrt) : Prop :=
  ∀ vif ∈ host.vifs, vif ≠ incoming → ¬ t.HasNeighbor vif → ¬ t.HasMember vif group → block.outvif vif ≠ 1

instance (host : Host) (t : Table) (group : Addr) (incoming : Vif) (block : Mrt) :
    Decidable (CellsClean host t group incoming block) :=
  inferInstanceAs (Decidable (∀ vif ∈ host.vifs, _))

/-- What the loop makes of a cell is right if the cell was not 1, or should be. -/
theorem startCell_iff (t : Table) (group : Addr) (incoming vif : Vif) (old : Int) :
    startCell t group incoming vif old =
        (if vif ≠ incoming ∧ (t.HasNeighbor vif ∨ t.HasMember vif group) then 1 else 0) ↔
      (vif ≠ incoming → ¬ t.HasNeighbor vif → ¬ t.HasMember vif group → old ≠ 1) := by
  show startCell t group incoming vif old = (if WantsVif t group incoming vif then 1 else 0) ↔ _
  unfold startCell
  by_cases wanted : WantsVif t group incoming vif
  · rw [if_pos wanted, if_pos wanted]
    refine iff_of_true rfl fun _ alone none => ?_
    exact (wanted.2.elim alone none).elim
  · rw [if_neg wanted, if_neg wanted]
    by_cases dirty : vif ≠ incoming ∧ old = 1
    · rw [if_pos dirty]
      refine iff_of_false (by decide) fun clean => ?_
      obtain ⟨alone, none⟩ := not_or.mp fun wants => wanted ⟨dirty.1, wants⟩
      exact clean dirty.1 alone none dirty.2
    · rw [if_neg dirty]
      exact iff_of_true rfl fun other _ _ one => dirty ⟨other, one⟩

theorem startsOutgoing_iff (host : Host) (t : Table) (upstream source group : Addr) (incoming : Vif)
    (block : Mrt) : StartsOutgoing host t group incoming
        (startRoute host t upstream source group incoming block.toRoute) ↔
      CellsClean host t group incoming block := by
  have cell : ∀ vif ∈ host.vifs, (startRoute host t upstream source group incoming block.toRoute).outvif vif =
      startCell t group incoming vif (block.outvif vif) := fun vif member => if_pos member
  constructor
  · intro starts vif member
    obtain ⟨low, high⟩ := Host.mem_vifs.mp member
    exact (startCell_iff t group incoming vif _).mp ((cell vif member).symm.trans (starts.cells vif low high))
  · intro clean
    refine ⟨fun vif low high => ?_, rfl⟩
    have member := Host.mem_vifs.mpr ⟨low, high⟩
    exact (cell vif member).trans ((startCell_iff t group incoming vif _).mpr (clean vif member))

/-- Once `add_sg` has returned, the block alone tells whether its entry starts right. -/
theorem headStarts_iff (models : Models s (table s)) {gateway source group : Addr} {incoming : Vif} {s' : Daemon}
    (run : Runs (addSg host gateway source group incoming) s () s') :
    HeadStarts host (table s) source group incoming s' ↔
      CellsClean host (table s) group incoming (host.mallocMrt s.mrts.fresh) := by
  obtain ⟨themrt, head⟩ := (addSg_returns host models gateway source group incoming).2 s' run
  obtain ⟨e, here, route⟩ := Option.map_eq_some_iff.mp head
  rw [← themrt] at here
  rw [← startsOutgoing_iff host (table s) (getUpstream host gateway source) source group incoming, ← route]
  constructor
  · rintro ⟨other, found, _, _, _, starts⟩
    obtain rfl := Option.some.inj (here.symm.trans found)
    exact starts
  · intro starts
    exact ⟨e, here, congrArg Route.source route, congrArg Route.group route, congrArg Route.incoming route, starts⟩

theorem createsOutgoing_iff (models : Models s (table s)) (gateway source group : Addr) (incoming : Vif) :
    CreatesOutgoing host s gateway source group incoming ↔
      CellsClean host (table s) group incoming (host.mallocMrt s.mrts.fresh) ∧
        (s.themrt = 0 → s.mrts.Linked Mrt.next (host.mallocMrt s.mrts.fresh).next) := by
  have returns := (addSg_returns host models gateway source group incoming).1
  constructor
  · rintro ⟨s', run, starts⟩
    exact ⟨(headStarts_iff models run).mp starts, returns.mp ⟨s', run⟩⟩
  · rintro ⟨clean, ends⟩
    obtain ⟨s', run⟩ := returns.mpr ends
    exact ⟨s', run, (headStarts_iff models run).mpr clean⟩

/-- `add_sg` creates an entry with the right outgoing interfaces exactly if the block is
clean where nobody is, and, for the first entry, its link ends; wherever it returns, the
cells alone decide. -/
theorem add_sg_starts (models : Models s (table s)) (gateway source group : Addr) (incoming : Vif) :
    (CreatesOutgoing host s gateway source group incoming ↔
        CellsClean host (table s) group incoming (host.mallocMrt s.mrts.fresh) ∧
          (s.themrt = 0 → s.mrts.Linked Mrt.next (host.mallocMrt s.mrts.fresh).next)) ∧
      ∀ s', Runs (addSg host gateway source group incoming) s () s' →
        (HeadStarts host (table s) source group incoming s' ↔
          CellsClean host (table s) group incoming (host.mallocMrt s.mrts.fresh)) :=
  ⟨createsOutgoing_iff models gateway source group incoming, fun _ run => headStarts_iff models run⟩

/-- A router whose memory is full of ones. -/
def dirtyRouter : Host :=
  { router with mallocMrt := fun _ => { Mrt.zero with outvif := fun _ => 1 } }

/-- The first source of a group that nobody has asked for is forwarded everywhere. -/
theorem add_sg_starts_dirty :
    ¬ ∀ (host : Host) (s : Daemon) (gateway source group : Addr) (incoming : Vif), Models s (table s) →
      CreatesOutgoing host s gateway source group incoming := by
  intro all
  have models : Models (Daemon.blank fun _ => 0) (table (Daemon.blank fun _ => 0)) := by
    rw [(models_blank fun _ => 0).table_eq]
    exact models_blank _
  have creates := all dirtyRouter _ (stationOn 1 7) studio channel 1 models
  have clean := ((createsOutgoing_iff models _ _ _ _).mp creates).1
  exact clean 2 (by decide) (by decide) (by decide) (by decide) rfl

/-- A member on the third interface, and clean memory. -/
theorem add_sg_starts_session :
    ∃ s, Models s (table s) ∧ (table s).HasMember 3 channel ∧
      CreatesOutgoing router s (stationOn 1 7) studio channel 1 := by
  have passed : endsWith router NoAssert [.acceptGroupReport (stationOn 3 5) channel]
      (fun s => decide ((table s).HasMember 3 channel)) = true := by decide +kernel
  obtain ⟨s, reached, member⟩ := reachable_of_endsWith passed
  have models := reachable_models router_zeroFilled reached
  refine ⟨s, models, of_decide_eq_true member, ?_⟩
  refine (add_sg_starts models _ _ _ _).1.mpr ⟨fun vif _ _ _ _ => ?_, fun _ => Heap.linked_of_chain .nil⟩
  exact (by decide : (0 : Int) ≠ 1)

end PimDm.Property
