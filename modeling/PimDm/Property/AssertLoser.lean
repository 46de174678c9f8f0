import PimDm.Refinement.Asserts
import PimDm.Refinement.Completion
import PimDm.Refinement.Courses
import PimDm.Refinement.Steps
import PimDm.Property.Session

/-!
# A router that loses an Assert

`receive_assert` sets a timer for an Assert it loses to and leaves the interface open;
closing it is left to a call that is commented out.  `active_forward` takes the pointer to
the interface for its number and writes outside of every entry it finds.
-/

namespace PimDm.Property

open PimDm.Foundation PimDm.Source PimDm.Routing PimDm.Refinement

variable {host : Host} {s s' later : Daemon} {src : Addr} {data : Memory} {length : Int} {item : Ptr × Route}

/-- A valid Assert, on an interface that its entry does not come in on and forwards on, that
the entry loses to. -/
structure LosesAssert (host : Host) (s : Daemon) (src : Addr) (data : Memory) (length : Int)
    (item : Ptr × Route) : Prop where
  correct : inetCksum data length = 0
  direct : findVifDirect host src ≠ 0
  found : (table s).find (routeIsFor (readAssert data).source (readAssert data).group) = some item
  downstream : findVifDirect host src ≠ item.2.incoming
  forwards : item.2.outvif (findVifDirect host src) = 1
  loses : ¬ Wins item.2 (readAssert data).source (readAssert data).preference (readAssert data).metric

/-- The interface tables of the entries are the same but for one cell. -/
def CellBecomes (s s' : Daemon) (entry : Ptr) (vif : Vif) (value : Int) : Prop :=
  (table s').entries.map (fun item => (item.1, item.2.outvif)) = (table s).entries.map fun item =>
    (item.1, if item.1 = entry then Function.update item.2.outvif vif value else item.2.outvif)

/-- The Assert closes the interface, of this entry only. -/
def StopsForwarding (host : Host) (s : Daemon) (src : Addr) (data : Memory) (length : Int) (entry : Ptr) : Prop :=
  ∃ s', Runs (receiveAssert host src data length) s () s' ∧ CellBecomes s s' entry (findVifDirect host src) 0

/-- `active_forward` opens the interface again, of this entry only. -/
def ResumesForwarding (host : Host) (s : Daemon) (entry : Ptr) (vif : Vif) : Prop :=
  ∃ s', Runs (activeForward host) s () s' ∧ CellBecomes s s' entry vif 1

/-! ## The Assert -/

/-- An Assert that is lost leaves all entries as they are. -/
theorem lostAssert_entries (models : Models s (table s)) (loses : LosesAssert host s src data length item)
    (run : Runs (receiveAssert host src data length) s () s') : table s' = table s := by
  have after := receiveAssert_models models run
  have idle : assertChange host s src data = .idle := by
    unfold assertChange
    simp only [loses.found]
    rw [if_neg loses.direct, if_neg fun both => loses.downstream both.1]
  rw [idle] at after
  exact after.table_eq

theorem lostAssert_completes (models : Models s (table s)) (loses : LosesAssert host s src data length item) :
    ∃ s', Runs (receiveAssert host src data length) s () s' := by
  obtain ⟨_, _, _, e, here, _⟩ := models.entry_of_find loses.found
  obtain ⟨s', run⟩ := assertDownstream_completes here host (findVifDirect host src) (readAssert data)
  refine ⟨s', (receiveAssert_accepted models loses.correct loses.direct loses.found).mpr ?_⟩
  rw [if_neg loses.downstream]
  exact run

theorem not_stopsForwarding (models : Models s (table s)) (loses : LosesAssert host s src data length item) :
    ¬ StopsForwarding host s src data length item.1 := by
  rintro ⟨s', run, closed⟩
  rw [CellBecomes, lostAssert_entries models loses run, List.map_inj_left] at closed
  have cells := closed item (List.mem_of_find?_eq_some loses.found)
  simp only [if_true, Prod.mk.injEq, true_and] at cells
  have cell := congrFun cells (findVifDirect host src)
  rw [loses.forwards, Function.update_self] at cell
  exact absurd cell (by decide)

/-! ## The timer -/

/-- `active_forward` completes on an empty table only. -/
theorem activeForward_empty {t : Table} (models : Models s t) (run : Runs (activeForward host) s () s') :
    t.entries = [] := by
  obtain ⟨_, _, loop, _⟩ := runs_bind.mp run
  have looped := (models.runs_forMrt fun _ => within_throw _).mp loop
  cases entries : t.entries with
  | nil => rfl
  | cons first rest =>
      rw [entries] at looped
      obtain ⟨_, _, wild, _⟩ := runs_bind.mp looped
      exact (runs_throw.mp wild).elim

/-- On no input does a lost Assert close the interface, and never does its timer open it: the
Assert leaves all entries as they were, and the call faults as long as the entry is there. -/
theorem assert_loser_forwards (models : Models s (table s)) (loses : LosesAssert host s src data length item) :
    (∃ s', Runs (receiveAssert host src data length) s () s' ∧ (table s').entries = (table s).entries) ∧
      ¬ StopsForwarding host s src data length item.1 ∧
      ∀ later, Models later (table later) → item.1 ∈ (table later).entries.map Prod.fst →
        ¬ ResumesForwarding host later item.1 (findVifDirect host src) := by
  obtain ⟨s', run⟩ := lostAssert_completes models loses
  have same := lostAssert_entries models loses run
  refine ⟨⟨s', run, congrArg Table.entries same⟩, not_stopsForwarding models loses, ?_⟩
  rintro later modelled listed ⟨_, call, _⟩
  rw [activeForward_empty modelled call] at listed
  cases listed

/-- An Assert as good as the values of every new entry. -/
def evenAssert : Memory :=
  writePimHeader (writeAssert (fun _ => 0) studio channel 0 0) pimAssert assertLength

/-- It is lost by an entry that forwards to a neighbour. -/
theorem evenAssert_lost :
    ∃ s item, Models s (table s) ∧ LosesAssert router s (stationOn 2 9) evenAssert (sizeofPim + assertLength) item := by
  have passed : endsWith router NoAssert
      [helloFrom (stationOn 2 9) 105, upcall 1 1 (stationOn 1 7) studio channel]
      (fun s => ((table s).find (routeIsFor studio channel)).any fun item => decide (2 ≠ item.2.incoming ∧
        item.2.outvif 2 = 1 ∧ ¬ Wins item.2 studio 0 0)) = true := by decide +kernel
  obtain ⟨s, reached, some⟩ := reachable_of_endsWith passed
  obtain ⟨item, found, fit⟩ := (Option.any_eq_true _ _).mp some
  obtain ⟨downstream, forwards, loses⟩ := of_decide_eq_true fit
  have body : readAssert evenAssert = ⟨channel, studio, 0, 0⟩ := by decide +kernel
  refine ⟨s, item, reachable_models router_zeroFilled reached,
    by decide +kernel, by decide, ?_, downstream, forwards, ?_⟩
  · rw [body]
    exact found
  · rw [body]
    exact loses

theorem assert_loser_stuck :
    ¬ ∀ (host : Host) (s : Daemon) (src : Addr) (data : Memory) (length : Int) (item : Ptr × Route),
      Models s (table s) → LosesAssert host s src data length item →
        StopsForwarding host s src data length item.1 ∧
          ∀ later, Models later (table later) → item.1 ∈ (table later).entries.map Prod.fst →
            ResumesForwarding host later item.1 (findVifDirect host src) := by
  intro all
  obtain ⟨s, item, models, loses⟩ := evenAssert_lost
  exact not_stopsForwarding models loses (all router s _ _ _ item models loses).1

theorem assert_loser_forwards_session :
    ∃ s item, LosesAssert router s (stationOn 2 9) evenAssert (sizeofPim + assertLength) item ∧
      (∃ s', Runs (receiveAssert router (stationOn 2 9) evenAssert (sizeofPim + assertLength)) s () s' ∧
        (table s').entries = (table s).entries) ∧
      ¬ ResumesForwarding router s item.1 2 := by
  obtain ⟨s, item, models, loses⟩ := evenAssert_lost
  obtain ⟨kept, _, resumes⟩ := assert_loser_forwards models loses
  refine ⟨s, item, loses, kept, resumes s models ?_⟩
  exact List.mem_map_of_mem (List.mem_of_find?_eq_some loses.found)

end PimDm.Property
