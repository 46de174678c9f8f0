import PimDm.Refinement.OneSource
import PimDm.Property.Session

/-!
# A Join or a Graft overrides the Prunes before it

An entry has one slot for the delayed prune of an interface, and a Join or a
Graft stops the timer in it.  A second Prune puts its timer into the slot without
stopping the first, which no Join reaches any more.
-/

namespace PimDm.Property

open PimDm.Foundation PimDm.Source PimDm.Effect PimDm.Refinement

variable {host : Host} {s s' later : Daemon} {event : Event} {source group : Addr} {vif : Vif}

/-- A Join to this router, or a Graft, for one source and group, from a router on
the interface. -/
inductive Overrides (host : Host) (source group : Addr) (vif : Vif) : Event → Prop where
  | join {src : Addr} {data : Memory} {length : Int} (direct : findVifDirect host src = vif)
      (served : vif ≠ 0) (addressed : (readJoinPruneHeader data).upstream = (host.iface vif).address)
      (one : JoinsOne data source group) :
      Overrides host source group vif (.pimInput .joinPrune src data length)
  | graft {src : Addr} {data : Memory} {length : Int} (direct : findVifDirect host src = vif)
      (served : vif ≠ 0) (one : JoinsOne data source group) :
      Overrides host source group vif (.pimInput .graft src data length)

/-- The callback prunes the source and group on the interface. -/
def IsPrune (source group : Addr) (vif : Vif) : Callback → Prop
  | .setPrune data => data.source = source ∧ data.group = group ∧ data.vif = vif
  | _ => False

instance decidableIsPrune (source group : Addr) (vif : Vif) :
    (func : Callback) → Decidable (IsPrune source group vif func)
  | .setPrune data =>
      inferInstanceAs (Decidable (data.source = source ∧ data.group = group ∧ data.vif = vif))
  | .timer | .pimHelloOutput _ | .deletePimNeighbor _ | .sendJoin _ | .pruneTimeOut _
  | .activeForward _ | .planGraft _ | .handleSgTimeout .. | .checkSg .. | .sendQuery _
  | .retryQuery _ | .leaveQuery .. => isFalse id

/-- The slot holds every delayed prune of the source and group on the interface. -/
def SlotHolds (s : Daemon) (source group : Addr) (vif : Vif) : Prop :=
  ∀ entry ∈ alarms s, IsPrune source group vif entry.2 →
    slot (fun e => e.pruneDelayTimerId vif) s source group = some entry.1

instance (s : Daemon) (source group : Addr) (vif : Vif) : Decidable (SlotHolds s source group vif) :=
  inferInstanceAs (Decidable (∀ entry ∈ alarms s, _))

/-! ## The message -/

theorem cancelPruneDelay_alarms (orderly : Orderly s) (idle : s.expired = []) {mymrt : Ptr}
    (run : Runs (cancelPruneDelay mymrt vif) s () s') :
    ∃ e, s.mrts.get? mymrt = some e ∧
      ∀ entry, entry ∈ alarms s' ↔ entry ∈ alarms s ∧ entry.1 ≠ e.pruneDelayTimerId vif := by
  obtain ⟨e, _, load, cancel⟩ := runs_bind.mp run
  obtain ⟨here, rfl⟩ := runs_loadMrt.mp load
  refine ⟨e, here, fun entry => ?_⟩
  rcases runs_onlyIf.mp cancel with ⟨_, clearing⟩ | ⟨unset, rfl⟩
  · obtain ⟨_, _, clear, store⟩ := runs_bind.mp clearing
    obtain rfl := runs_timerClearTimer.mp clear
    obtain ⟨_, rfl⟩ := runs_storeMrt.mp store
    exact mem_alarms_clearTimer orderly idle _ entry
  · refine iff_self_and.mpr fun member same => unset ?_
    intro zero
    have bounds := orderly.bounds entry member
    omega

/-- Opening the interface touches no timer. -/
theorem graftEntry_alarms (orderly : Orderly s) (idle : s.expired = []) {mymrt : Ptr}
    (run : Runs (graftEntry host vif mymrt) s () s') :
    ∃ e, s.mrts.get? mymrt = some e ∧
      ∀ entry, entry ∈ alarms s' ↔ entry ∈ alarms s ∧ entry.1 ≠ e.pruneDelayTimerId vif := by
  obtain ⟨_, cancelled, cancel, opening⟩ := runs_bind.mp run
  obtain ⟨e, here, cleared⟩ := cancelPruneDelay_alarms orderly idle cancel
  refine ⟨e, here, ?_⟩
  obtain ⟨_, _, load, maybe⟩ := runs_bind.mp opening
  obtain ⟨_, rfl⟩ := runs_loadMrt.mp load
  rcases runs_onlyIf.mp maybe with ⟨_, openIt⟩ | ⟨_, rfl⟩
  · obtain ⟨_, _, store, tell⟩ := runs_bind.mp openIt
    obtain ⟨_, rfl⟩ := runs_storeMrt.mp store
    obtain ⟨mfc, rfl⟩ := runs_changeMfc tell
    exact cleared
  · exact cleared

/-- The message clears the timer in the slot and touches no other. -/
theorem override_alarms (orderly : Orderly s) (overrides : Overrides host source group vif event)
    (taken : Step host s event s') (entry : Int × Callback) :
    entry ∈ alarms s' ↔
      entry ∈ alarms s ∧ slot (fun e => e.pruneDelayTimerId vif) s source group ≠ some entry.1 := by
  obtain ⟨enabled, run⟩ := taken
  have unfound : ∀ {mymrt : Ptr}, Finds s source group mymrt → mymrt = 0 →
      slot (fun e => e.pruneDelayTimerId vif) s source group ≠ some entry.1 := by
    rintro _ found rfl
    rw [slot_found found]
    simp
  have fits : ∀ {mymrt : Ptr} {e : Mrt}, Finds s source group mymrt → s.mrts.get? mymrt = some e →
      (slot (fun e => e.pruneDelayTimerId vif) s source group ≠ some entry.1 ↔
        entry.1 ≠ e.pruneDelayTimerId vif) := by
    intro mymrt e found here
    rw [slot_found found, here, Option.map_some, Ne, Option.some.injEq, eq_comm]
  cases overrides with
  | join direct served addressed one =>
      have idle : s.expired = [] := by simpa [Event.Enabled, Event.isExpire] using enabled
      obtain ⟨mymrt, found, ⟨null, rfl⟩ | ⟨_, cancel⟩⟩ :=
        receiveJoinPrune_one direct served addressed one run
      · exact iff_self_and.mpr fun _ => unfound found null
      · obtain ⟨e, here, cleared⟩ := cancelPruneDelay_alarms orderly idle cancel
        rw [cleared, fits found here]
  | graft direct served one =>
      have idle : s.expired = [] := by simpa [Event.Enabled, Event.isExpire] using enabled
      obtain ⟨write, sent, mymrt, found, ⟨null, rfl⟩ | ⟨_, graft⟩⟩ :=
        receivePimGraft_one direct served one run
      · exact iff_self_and.mpr fun _ => unfound found null
      · have same : Orderly ((s.writeBuf write).observe sent) :=
          ⟨orderly.bounds, orderly.distinct, orderly.started⟩
        obtain ⟨e, here, cleared⟩ := graftEntry_alarms same idle graft
        rw [cleared, fits found here]
        exact Iff.rfl

theorem override_clears_iff (orderly : Orderly s) (overrides : Overrides host source group vif event)
    (taken : Step host s event s') :
    (∀ entry ∈ alarms s', ¬ IsPrune source group vif entry.2) ↔ SlotHolds s source group vif := by
  have spec := override_alarms orderly overrides taken
  constructor
  · intro none entry member prunes
    by_contra other
    exact none entry ((spec entry).mpr ⟨member, other⟩) prunes
  · intro holds entry member prunes
    obtain ⟨before, other⟩ := (spec entry).mp member
    exact other (holds entry before prunes)

/-! ## What follows the message -/

/-- Timers of delayed prunes that are pending later were set later. -/
theorem prunes_set_later (none : ∀ entry ∈ alarms s', ¬ IsPrune source group vif entry.2)
    {allowed : Daemon → Event → Prop} (run : Reaches (Step host) allowed s' later)
    {entry : Int × Callback} (member : entry ∈ alarms later) (prunes : IsPrune source group vif entry.2) :
    s'.id < entry.1 := by
  have sets : Sets Anything s' later := by
    refine run.relates (steady_sets Anything).refl (steady_sets Anything).trans ?_
    intro before event after _ taken
    exact handle_sets (mayRegister_anything host before event) taken.2
  rcases sets.old_or_new entry member with old | ⟨new, _, _⟩
  · exact absurd prunes (none entry old)
  · exact new

/-- Without a Prune from a router on the interface, no delayed prune is set. -/
theorem no_prune_without_prunes (none : ∀ entry ∈ alarms s', ¬ IsPrune source group vif entry.2)
    (run : Reaches (Step host) (fun _ event => ¬ PrunesOn host vif event) s' later) :
    ∀ entry ∈ alarms later, ¬ IsPrune source group vif entry.2 := by
  refine run.keeps (P := fun state => ∀ entry ∈ alarms state, ¬ IsPrune source group vif entry.2) none ?_
  intro before event after invariant unpruned taken
  refine handle_alarms (A := fun func => ¬ IsPrune source group vif func) invariant (fun calls => ?_) taken.2
  refine ⟨fun _ _ => id, ?_, fun _ _ => id, fun _ _ _ => id, calls, ?_, fun _ _ _ => id⟩
  · rintro data prunes _ ⟨_, _, rfl⟩
    exact unpruned prunes
  · intro func plain prunes
    cases func with
    | setPrune data => exact plain
    | _ => exact prunes

/-! ## Forwarding on the interface -/

/-- The record forwards the source and group on the interface. -/
def ForwardsAt (source group : Addr) (vif : Vif) (mymrt : Ptr) (s : Daemon) : Prop :=
  ∃ e, s.mrts.get? mymrt = some e ∧ e.isFor source group = true ∧ e.outvif vif = 1

/-- A program that keeps the record forwarding. -/
abbrev KeepsForwarding (source group : Addr) (vif : Vif) (mymrt : Ptr) : Daemon → Daemon → Prop :=
  fun before after => ForwardsAt source group vif mymrt before → ForwardsAt source group vif mymrt after

section Forwarding

variable {α : Type} {mymrt other : Ptr}

theorem steady_forwarding : Steady (KeepsForwarding source group vif mymrt) := steady_keeps _

theorem forwardsAt_setMrt (other : Ptr) (function : Mrt → Mrt)
    (kept : ∀ e, other = mymrt → e.isFor source group = true → e.outvif vif = 1 →
      (function e).isFor source group = true ∧ (function e).outvif vif = 1)
    (forwards : ForwardsAt source group vif mymrt s) :
    ForwardsAt source group vif mymrt (s.setMrt other function) := by
  obtain ⟨e, here, same, opened⟩ := forwards
  by_cases names : mymrt = other
  · subst names
    refine ⟨function e, ?_, kept e rfl same opened⟩
    simp only [Daemon.setMrt]
    rw [Heap.get?_modify_same, here, Option.map_some]
  · refine ⟨e, ?_, same, opened⟩
    exact (Heap.get?_modify_other s.mrts function names).trans here

theorem quiet_forwarding {A : Callback → Prop} {program : Act α}
    (quiet : Within (Changes .quiet A) program) :
    Within (KeepsForwarding source group vif mymrt) program := by
  refine within_of_does quiet steady_forwarding fun update state inside forwards => ?_
  cases update with
  | clearTimer timer =>
      unfold ForwardsAt
      rw [show (Update.apply (.clearTimer timer) state).mrts = state.mrts from clearTimer_mrts state timer]
      exact forwards
  | field other store =>
      refine forwardsAt_setMrt other store.write (fun e _ same opened => ?_) forwards
      obtain ⟨_, route⟩ := Field.quiet_write store inside.1 e
      rw [Mrt.isFor, route]
      exact ⟨same, opened⟩
  | linkMrt newmrt => exact absurd inside.1 (by simp only [Update.level]; decide)
  | mrtNext other next => exact absurd inside.1 (by simp only [Update.level]; decide)
  | _ => exact forwards

theorem changeMfc_forwarding (otherSource otherGroup : Addr) (incoming : Vif) :
    Within (KeepsForwarding source group vif mymrt) (changeMfc host otherSource otherGroup incoming) := by
  intro start _ final run forwards
  obtain ⟨mfc, rfl⟩ := runs_changeMfc run
  exact forwards

/-- Opening an interface. -/
theorem open_forwarding (other : Ptr) (opened : Vif) :
    Within (KeepsForwarding source group vif mymrt) (storeMrt other (Mrt.putOutvif opened 1)) := by
  intro start _ final run forwards
  obtain ⟨_, rfl⟩ := runs_storeMrt.mp run
  refine forwardsAt_setMrt other _ (fun e _ same before => ⟨same, ?_⟩) forwards
  by_cases here : vif = opened <;> simp [Mrt.putOutvif, here, before]

theorem graftEntry_forwarding (opened : Vif) (other : Ptr) :
    Within (KeepsForwarding source group vif mymrt) (graftEntry host opened other) := by
  have steady : Steady (KeepsForwarding source group vif mymrt) := steady_forwarding
  refine within_bind steady (quiet_forwarding (cancelPruneDelay_changes (A := Anything) other opened))
    fun _ => ?_
  refine within_bind steady (quiet_forwarding (loadMrt_changes (A := Anything) other)) fun e => ?_
  refine within_onlyIf steady fun _ => ?_
  exact within_bind steady (open_forwarding other opened) fun _ => changeMfc_forwarding _ _ _

theorem pruneTimeOut_forwarding (prunedata : PimPruneData) :
    Within (KeepsForwarding source group vif mymrt) (pruneTimeOut host prunedata) := by
  have steady : Steady (KeepsForwarding source group vif mymrt) := steady_forwarding
  refine within_bind steady (quiet_forwarding (findSg_changes (A := Anything) _ _)) fun other => ?_
  refine within_ite (fun _ => within_pure steady ()) fun _ => ?_
  refine within_bind steady (quiet_forwarding (A := Anything) ?_) fun _ => ?_
  · exact storeField_changes other (.pruneTimer prunedata.vif 0) (Level.quiet_le _) (fun _ => rfl) trivial
  refine within_bind steady (open_forwarding other prunedata.vif) fun _ => ?_
  refine within_bind steady (quiet_forwarding (loadMrt_changes (A := Anything) other)) fun e => ?_
  refine within_bind steady (changeMfc_forwarding _ _ _) fun _ => quiet_forwarding (A := Anything) ?_
  exact does_bind (checkPimState_changes (fun _ => trivial) host .addLeaf) fun _ => printSg_changes

/-- A delayed prune of another source, group or interface. -/
theorem setPrune_forwarding {prunedata : PimPruneData}
    (other : ¬ IsPrune source group vif (.setPrune prunedata))
    (run : Runs (setPrune host prunedata) s () s') : KeepsForwarding source group vif mymrt s s' := by
  intro forwards
  obtain ⟨found, _, looked, deciding⟩ := runs_bind.mp run
  obtain ⟨search, rfl⟩ := runs_findMrt.mp looked
  rcases runs_ite.mp deciding with ⟨_, stop⟩ | ⟨nonnull, rest⟩
  · obtain ⟨_, rfl⟩ := runs_pure.mp stop
    exact forwards
  obtain ⟨e, here, named⟩ := Heap.find_holds search nonnull
  obtain ⟨_, unslotted, clear, closing⟩ := runs_bind.mp rest
  obtain ⟨_, rfl⟩ := runs_storeMrt.mp clear
  obtain ⟨_, closed, close, telling⟩ := runs_bind.mp closing
  obtain ⟨_, rfl⟩ := runs_storeMrt.mp close
  have unslotted := forwardsAt_setMrt found (Mrt.setPruneDelayTimer prunedata.vif 0)
    (fun _ _ same opened => ⟨same, opened⟩) forwards
  have kept := forwardsAt_setMrt found (Mrt.putOutvif prunedata.vif 0) ?_ unslotted
  · obtain ⟨e', _, load, tell⟩ := runs_bind.mp telling
    obtain ⟨_, rfl⟩ := runs_loadMrt.mp load
    obtain ⟨_, told, tellKernel, finish⟩ := runs_bind.mp tell
    have told := changeMfc_forwarding _ _ _ _ _ _ tellKernel kept
    refine quiet_forwarding (A := Anything) ?_ _ _ _ finish told
    refine does_bind (checkPimState_changes (fun _ => trivial) host .delLeaf) fun _ => ?_
    refine does_bind (timerSetTimer_changes _ trivial) fun timer => ?_
    exact storeField_changes found (.pruneTimer prunedata.vif timer) (Level.quiet_le _) (fun _ => rfl) trivial
  · -- The record is the one `find_sg` found, so the interface is another one.
    intro block names same opened
    refine ⟨same, ?_⟩
    have apart : vif ≠ prunedata.vif := by
      rintro rfl
      obtain ⟨block', present, sameKey, _⟩ := forwards
      subst names
      obtain rfl := Option.some.inj (here.symm.trans present)
      simp only [Mrt.isFor, Bool.and_eq_true, beq_iff_eq] at named sameKey
      exact other ⟨named.1.symm.trans sameKey.1, named.2.symm.trans sameKey.2, rfl⟩
    simp [Mrt.putOutvif, apart, opened]

end Forwarding

/-- The callback clears cells for another reason than a prune, or unlinks an entry. -/
def Withdraws : Callback → Prop
  | .leaveQuery .. => True
  | .deletePimNeighbor _ => True
  | .handleSgTimeout .. => True
  | _ => False

/-- Joins, Prunes from elsewhere and Grafts, with the timers that belong to them. -/
def JoinsAndGrafts (host : Host) (vif : Vif) (s : Daemon) (event : Event) : Prop :=
  match event with
  | .pimInput .joinPrune .. => ¬ PrunesOn host vif event
  | .pimInput .graft .. => True
  | .age _ => True
  | .expire _ => ∀ func, called s event = some func → ¬ Withdraws func
  | _ => False

theorem joinsAndGrafts_forwarding {mymrt : Ptr}
    (none : ∀ entry ∈ alarms s, ¬ IsPrune source group vif entry.2)
    (may : JoinsAndGrafts host vif s event) (taken : Step host s event s') :
    KeepsForwarding source group vif mymrt s s' := by
  obtain ⟨_, run⟩ := taken
  intro forwards
  cases event with
  | pimInput type src data length =>
      cases type with
      | joinPrune =>
          refine quiet_forwarding (A := Anything) ?_ s () s' run forwards
          exact receiveJoinPrune_changes (fun _ => trivial) host (fun _ _ _ _ => trivial) length
      | graft =>
          refine receivePimGraft_within steady_forwarding
            (fun _ _ quiet => quiet_forwarding (does_weaken quiet fun _ inside => inside.1)) ?_ data
            length s () s' run forwards
          exact graftEntry_forwarding _
      | hello => exact may.elim
      | assert => exact may.elim
      | graftAck => exact may.elim
  | age elapsedTime =>
      obtain rfl := runs_modify.mp run
      exact forwards
  | expire pktcnt =>
      rcases runs_expire run with ⟨_, rfl⟩ | ⟨func, calls, call⟩
      · exact forwards
      have popped : ForwardsAt source group vif mymrt s.popExpired := forwards
      have may := may func calls
      obtain ⟨id, member⟩ := called_mem calls
      cases func with
      | setPrune prunedata => exact setPrune_forwarding (none _ member) call popped
      | pruneTimeOut prunedata => exact pruneTimeOut_forwarding prunedata _ _ _ call popped
      | leaveQuery vif group => exact absurd trivial may
      | deletePimNeighbor entry => exact absurd trivial may
      | handleSgTimeout source group => exact absurd trivial may
      | _ =>
          refine quiet_forwarding (A := Anything) ?_ _ _ _ call popped
          refine callFunc_changes calls (Level.quiet_le _) ?_
          exact mayRegister_anything host s _
  | _ => exact may.elim

/-- As long as no delayed prune is left, an entry stays open on the interface. -/
theorem stays_open {mymrt : Ptr} (none : ∀ entry ∈ alarms s', ¬ IsPrune source group vif entry.2)
    (run : Reaches (Step host) (JoinsAndGrafts host vif) s' later) :
    KeepsForwarding source group vif mymrt s' later := by
  intro forwards
  have unpruned : ∀ state event, JoinsAndGrafts host vif state event → ¬ PrunesOn host vif event := by
    intro state event may
    cases event with
    | pimInput type src data length =>
        cases type with
        | joinPrune => exact may
        | _ => exact id
    | _ => exact id
  have both : (∀ entry ∈ alarms later, ¬ IsPrune source group vif entry.2) ∧
      ForwardsAt source group vif mymrt later := by
    refine run.keeps (P := fun state => (∀ entry ∈ alarms state, ¬ IsPrune source group vif entry.2) ∧
      ForwardsAt source group vif mymrt state) ⟨none, forwards⟩ ?_
    rintro before event after ⟨left, open_⟩ may taken
    have one : Reaches (Step host) (fun _ event => ¬ PrunesOn host vif event) before after :=
      (Reaches.refl before).snoc (unpruned before event may) taken
    exact ⟨no_prune_without_prunes left one, joinsAndGrafts_forwarding left may taken open_⟩
  exact both.2

/-! ## The property -/

/-- A Join or a Graft leaves no delayed prune of its source and group on the
interface exactly when the slot held them all.  Then whatever follows, a delayed
prune that runs was set later; without a Prune from a router on the interface none
runs; and as long as there are only Joins and Grafts, the interface stays open. -/
theorem join_overrides_prunes {allowed : Daemon → Event → Prop} (reached : Reachable host allowed s)
    (overrides : Overrides host source group vif event) (taken : Step host s event s') :
    ((∀ entry ∈ alarms s', ¬ IsPrune source group vif entry.2) ↔ SlotHolds s source group vif) ∧
      (SlotHolds s source group vif →
        (∀ later, Reaches (Step host) (fun _ _ => True) s' later → ∀ entry ∈ alarms later,
          IsPrune source group vif entry.2 → s'.id < entry.1) ∧
        (∀ later, Reaches (Step host) (fun _ event => ¬ PrunesOn host vif event) s' later →
          ∀ next func, called later next = some func → ¬ IsPrune source group vif func) ∧
        ∀ later, Reaches (Step host) (JoinsAndGrafts host vif) s' later → ∀ mymrt,
          ForwardsAt source group vif mymrt s' → ForwardsAt source group vif mymrt later) := by
  have clears := override_clears_iff (reachable_orderly reached) overrides taken
  refine ⟨clears, fun holds => ?_⟩
  have none := clears.mpr holds
  refine ⟨?_, ?_, ?_⟩
  · intro later run entry member prunes
    exact prunes_set_later none run member prunes
  · intro later run next func calls
    obtain ⟨id, member⟩ := called_mem calls
    exact no_prune_without_prunes none run _ member
  · intro later run mymrt
    exact stays_open none run

theorem overrides_joinPruneFrom :
    Overrides router studio channel 2
      (joinPruneFrom (stationOn 2 9) (stationOn 2 1) studio channel 1 0) :=
  .join (by decide) (by decide) (by decide +kernel)
    ⟨by decide +kernel, by decide +kernel, by decide +kernel, by decide +kernel, by decide +kernel,
      by decide +kernel, by decide +kernel⟩

/-- Two Prunes and a Join: the timer of the first Prune runs out after the Join. -/
theorem join_misses_prune :
    ¬ ∀ host : Host, ∀ source group vif s event s', Reachable host NoAssert s →
      Overrides host source group vif event → Step host s event s' →
        ∀ later, Reaches (Step host) (fun _ event => ¬ PrunesOn host vif event) s' later →
          ∀ next func, called later next = some func → ¬ IsPrune source group vif func := by
  intro never
  have passed : branchEndsWith router NoAssert (fun _ event => ¬ PrunesOn router 2 event)
      [helloFrom (stationOn 2 9) 105, upcall 1 1 (stationOn 1 7) studio channel,
        joinPruneFrom (stationOn 2 9) (stationOn 2 1) studio channel 0 1,
        joinPruneFrom (stationOn 2 9) (stationOn 2 1) studio channel 0 1]
      (joinPruneFrom (stationOn 2 9) (stationOn 2 1) studio channel 1 0) [.age 3, .expire 0]
      (fun _ _ later => (called later (.expire 0)).any fun func =>
        decide (IsPrune studio channel 2 func)) = true := by decide +kernel
  obtain ⟨s, s', later, reached, taken, run, runs⟩ := runs_of_branchEndsWith passed
  obtain ⟨func, calls, prunes⟩ := (Option.any_eq_true ..).mp runs
  exact never router studio channel 2 s _ s' reached overrides_joinPruneFrom taken later run (.expire 0)
    func calls (of_decide_eq_true prunes)

/-- One Prune and a Join. -/
theorem join_overrides_prunes_session :
    ∃ s s', (∃ entry ∈ alarms s, IsPrune studio channel 2 entry.2) ∧
      Step router s (joinPruneFrom (stationOn 2 9) (stationOn 2 1) studio channel 1 0) s' ∧
      ∀ later, Reaches (Step router) (fun _ event => ¬ PrunesOn router 2 event) s' later →
        ∀ next func, called later next = some func → ¬ IsPrune studio channel 2 func := by
  have passed : branchEndsWith router NoAssert NoAssert
      [helloFrom (stationOn 2 9) 105, upcall 1 1 (stationOn 1 7) studio channel,
        joinPruneFrom (stationOn 2 9) (stationOn 2 1) studio channel 0 1]
      (joinPruneFrom (stationOn 2 9) (stationOn 2 1) studio channel 1 0) []
      (fun s _ _ => decide ((∃ entry ∈ alarms s, IsPrune studio channel 2 entry.2) ∧
        SlotHolds s studio channel 2)) = true := by decide +kernel
  obtain ⟨s, s', _, reached, taken, _, both⟩ := runs_of_branchEndsWith passed
  obtain ⟨pending, holds⟩ := of_decide_eq_true both
  refine ⟨s, s', pending, taken, ?_⟩
  exact ((join_overrides_prunes reached overrides_joinPruneFrom taken).2 holds).2.1

end PimDm.Property
