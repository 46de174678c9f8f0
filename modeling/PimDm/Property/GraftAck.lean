import PimDm.Refinement.OneSource
import PimDm.Refinement.Keys
import PimDm.Refinement.Emissions
import PimDm.Property.Session

/-!
# A Graft-Ack ends the retransmission

`plan_graft` sets its own timer again and keeps its id in one slot of the entry.
A second start of it overwrites the slot, and the first chain of timers goes on
after the Graft-Ack has stopped the timer in the slot.
-/

namespace PimDm.Property

open PimDm.Foundation PimDm.Source PimDm.Effect PimDm.Refinement

variable {host : Host} {s s' later : Daemon} {event : Event} {source group : Addr}

/-- A Graft-Ack for one source and group, from a router on an interface. -/
inductive Acknowledges (host : Host) (source group : Addr) : Event → Prop where
  | graftAck {src : Addr} {data : Memory} {length : Int} (served : findVifDirect host src ≠ 0)
      (one : JoinsOne data source group) :
      Acknowledges host source group (.pimInput .graftAck src data length)

/-- The source and group of a record. -/
def keyAt (s : Daemon) (mymrt : Ptr) : Option (Addr × Addr) := (s.mrts.get? mymrt).map keyOf

/-- The callback sends a Graft for the source and group. -/
def IsGraft (s : Daemon) (source group : Addr) : Callback → Prop
  | .planGraft mymrt => keyAt s mymrt = some (source, group)
  | _ => False

instance decidableIsGraft (s : Daemon) (source group : Addr) :
    (func : Callback) → Decidable (IsGraft s source group func)
  | .planGraft mymrt => inferInstanceAs (Decidable (keyAt s mymrt = some (source, group)))
  | .timer | .pimHelloOutput _ | .deletePimNeighbor _ | .sendJoin _ | .pruneTimeOut _ | .setPrune _
  | .activeForward _ | .handleSgTimeout .. | .checkSg .. | .sendQuery _ | .retryQuery _
  | .leaveQuery .. => isFalse id

/-- The slot holds every timer of `plan_graft` for the source and group. -/
def GraftSlotHolds (s : Daemon) (source group : Addr) : Prop :=
  ∀ entry ∈ alarms s, IsGraft s source group entry.2 →
    slot Mrt.graftTimerId s source group = some entry.1

instance (s : Daemon) (source group : Addr) : Decidable (GraftSlotHolds s source group) :=
  inferInstanceAs (Decidable (∀ entry ∈ alarms s, _))

/-! ## The message -/

/-- The Graft-Ack clears the timer in the slot and touches no other timer. -/
theorem acknowledge_alarms (orderly : Orderly s) (acks : Acknowledges host source group event)
    (inside : InTable s source group) (taken : Step host s event s') :
    (∀ entry, entry ∈ alarms s' ↔
        entry ∈ alarms s ∧ slot Mrt.graftTimerId s source group ≠ some entry.1) ∧
      ∀ mymrt, keyAt s' mymrt = keyAt s mymrt := by
  obtain ⟨enabled, run⟩ := taken
  cases acks with
  | graftAck served one =>
      have idle : s.expired = [] := by simpa [Event.Enabled, Event.isExpire] using enabled
      obtain ⟨mymrt, e, found, nonnull, here⟩ := inside.found
      obtain ⟨e', loaded, load, clearing⟩ := runs_bind.mp (receivePimGraftAck_one served one found nonnull run)
      obtain ⟨same, rfl⟩ := runs_loadMrt.mp load
      obtain rfl := Option.some.inj (here.symm.trans same)
      have fits : ∀ entry : Int × Callback,
          slot Mrt.graftTimerId loaded source group ≠ some entry.1 ↔ entry.1 ≠ e.graftTimerId := by
        intro entry
        rw [slot_found found, here, Option.map_some, Ne, Option.some.injEq, eq_comm]
      rcases runs_onlyIf.mp clearing with ⟨_, clear⟩ | ⟨unset, rfl⟩
      · obtain ⟨_, _, stop, store⟩ := runs_bind.mp clear
        obtain rfl := runs_timerClearTimer.mp stop
        obtain ⟨_, rfl⟩ := runs_storeMrt.mp store
        refine ⟨fun entry => ?_, fun other => ?_⟩
        · rw [fits]
          exact mem_alarms_clearTimer orderly idle e.graftTimerId entry
        · simp only [keyAt, Daemon.setMrt, clearTimer_mrts]
          rw [← Heap.get?_map, ← Heap.get?_map, Heap.map_modify_same]
          exact fun _ => rfl
      · refine ⟨fun entry => ?_, fun _ => rfl⟩
        rw [fits]
        refine iff_self_and.mpr fun member same => unset ?_
        intro zero
        have bounds := orderly.bounds entry member
        omega

theorem isGraft_congr {before after : Daemon} (same : ∀ mymrt, keyAt after mymrt = keyAt before mymrt)
    (func : Callback) : IsGraft after source group func ↔ IsGraft before source group func := by
  cases func with
  | planGraft mymrt => exact Iff.of_eq (congrArg (· = some (source, group)) (same mymrt))
  | _ => exact Iff.rfl

theorem acknowledge_clears_iff (orderly : Orderly s) (acks : Acknowledges host source group event)
    (inside : InTable s source group) (taken : Step host s event s') :
    (∀ entry ∈ alarms s', ¬ IsGraft s' source group entry.2) ↔ GraftSlotHolds s source group := by
  obtain ⟨spec, keys⟩ := acknowledge_alarms orderly acks inside taken
  simp only [isGraft_congr keys]
  constructor
  · intro none entry member grafts
    by_contra other
    exact none entry ((spec entry).mpr ⟨member, other⟩) grafts
  · intro holds entry member grafts
    obtain ⟨before, other⟩ := (spec entry).mp member
    exact other (holds entry before grafts)

/-! ## What follows the message -/

/-- Only the creation of an entry gives a record a key. -/
theorem keyAt_update {update : Update} (unlinked : ∀ newmrt, update ≠ .linkMrt newmrt) (state : Daemon) (mymrt : Ptr) :
    keyAt (update.apply state) mymrt = keyAt state mymrt := by
  have stored : ∀ other (function : Mrt → Mrt), (∀ e, keyOf (function e) = keyOf e) →
      keyAt (state.setMrt other function) mymrt = keyAt state mymrt := by
    intro other function kept
    simp only [keyAt, Daemon.setMrt]
    rw [← Heap.get?_map, ← Heap.get?_map, Heap.map_modify_same _ _ kept]
  cases update with
  | clearTimer timer =>
      simp only [keyAt, Update.apply]
      rw [clearTimer_mrts]
  | field other store => exact stored other store.write fun e => by cases store <;> rfl
  | mrtNext other next => exact stored other _ fun _ => rfl
  | linkMrt newmrt => exact absurd rfl (unlinked newmrt)
  | _ => rfl

theorem keyAt_of_changes {level : Level} {A : Callback → Prop} (below : level ≤ .removal)
    (changes : Changes level A s s') (mymrt : Ptr) : keyAt s' mymrt = keyAt s mymrt := by
  refine does_relates (steady_same fun state => keyAt state mymrt) (fun update state inside => ?_) changes
  refine keyAt_update ?_ state mymrt
  rintro newmrt rfl
  exact absurd (Level.le_trans inside.1 below) (by simp only [Update.level]; decide)

/-- A record keeps its key. -/
theorem keyAt_stays {level : Level} {A : Callback → Prop} (changes : Changes level A s s') {mymrt : Ptr}
    {key : Addr × Addr} (here : keyAt s mymrt = some key) : keyAt s' mymrt = some key := by
  have steady : Steady fun before after => keyAt before mymrt = some key → keyAt after mymrt = some key :=
    ⟨fun _ => id, fun left right => right ∘ left⟩
  refine does_relates steady (fun update state _ same => ?_) changes here
  by_cases linked : ∃ newmrt, update = .linkMrt newmrt
  · obtain ⟨newmrt, rfl⟩ := linked
    have old : mymrt ≠ state.mrts.fresh := by
      obtain ⟨e, here, _⟩ := Option.map_eq_some_iff.mp same
      exact Heap.ne_fresh_of_get? here
    rwa [keyAt, Update.apply, Daemon.linkMrt, Heap.get?_alloc, if_neg old]
  · rwa [keyAt_update (not_exists.mp linked)]

/-- Without a call of `check_pim_state` or `add_sg`, an event starts no Graft. -/
theorem mayRegister_unchecked (unchecked : ¬ EventChecks s event) {A : Callback → Prop}
    (other : ∀ func, (∀ mymrt, func ≠ .planGraft mymrt) → A func)
    (calls : ∀ func, called s event = some func → A func) : MayRegister host s event A := by
  refine ⟨fun checks => absurd checks unchecked, ?_, ?_, ?_, calls, ?_, ?_⟩
  · exact fun data _ _ => other _ fun _ same => nomatch same
  · exact fun data _ => other _ fun _ same => nomatch same
  · exact fun vif group _ => other _ fun _ same => nomatch same
  · rintro func plain
    refine other func ?_
    rintro mymrt rfl
    exact plain
  · exact fun _ source group => other _ fun _ same => nomatch same

/-- A Graft for the source and group is sent in between. -/
def SendsGraft (source group : Addr) (s s' : Daemon) : Prop :=
  ∃ new packet mymrt, s'.trace = new ++ s.trace ∧ .pim packet mymrt ∈ new ∧ packet.type = pimGraft ∧
    keyAt s' mymrt = some (source, group)

/-- The event sends a Graft for the source and group, and not from a timer of `plan_graft`: it is
`check_pim_state` or `add_sg` that starts it. -/
def StartsGraft (host : Host) (source group : Addr) (s : Daemon) (event : Event) : Prop :=
  (∀ mymrt, called s event ≠ some (.planGraft mymrt)) ∧ ∃ s', Step host s event s' ∧ SendsGraft source group s s'

/-- Only an event that checks starts a Graft. -/
theorem checks_of_startsGraft (starts : StartsGraft host source group s event) : EventChecks s event := by
  obtain ⟨other, s', taken, new, packet, mymrt, trace, member, graft, _⟩ := starts
  by_contra unchecked
  have plain : ∀ func, called s event = some func → ∀ mymrt, func ≠ .planGraft mymrt := by
    rintro func calls mymrt rfl
    exact other mymrt calls
  have changes := handle_changes (eventLevel_removal unchecked)
    (mayRegister_unchecked unchecked (fun _ => id) plain) taken.2
  obtain ⟨also, same, none⟩ := sends_of_changes changes
  rw [List.append_cancel_right (same.symm.trans trace)] at none
  exact none packet mymrt member graft mymrt rfl

/-- The timer of a Graft sends no other one. -/
theorem sendsGraft_of_retry {mymrt : Ptr} (calls : called s event = some (.planGraft mymrt))
    (taken : Step host s event s')
    (sends : SendsGraft source group s s') : keyAt s mymrt = some (source, group) := by
  obtain ⟨new, packet, other, trace, member, graft, key⟩ := sends
  have unchecked : ¬ EventChecks s event := by
    cases event with
    | expire pktcnt =>
        rintro ⟨func, also, checks⟩
        obtain rfl := Option.some.inj (calls.symm.trans also)
        exact checks
    | _ => cases calls
  have repeats : ∀ func, called s event = some func → ∀ other, func = .planGraft other → other = mymrt := by
    rintro func also other rfl
    exact Callback.planGraft.inj (Option.some.inj (also.symm.trans calls))
  have changes := handle_changes (eventLevel_removal unchecked)
    (mayRegister_unchecked unchecked (fun func plain other same => absurd same (plain other)) repeats) taken.2
  obtain ⟨also, same, only⟩ := sends_of_changes changes
  rw [List.append_cancel_right (same.symm.trans trace)] at only
  obtain rfl := only packet other member graft other rfl
  rwa [← keyAt_of_changes (Nat.le_refl _) changes]

/-- The state after a run in which no Graft for the source and group is started: none is due, and
none was sent. -/
structure Silent (source group : Addr) (first last : Daemon) : Prop where
  backed : Backed last
  due : ∀ entry ∈ alarms last, ¬ IsGraft last source group entry.2
  sent : ∃ new, last.trace = new ++ first.trace ∧ ∀ packet mymrt, .pim packet mymrt ∈ new → packet.type = pimGraft →
    ∃ key, keyAt last mymrt = some key ∧ key ≠ (source, group)

theorem silent_step {first before after : Daemon} (silent : Silent source group first before)
    (unstarted : ¬ StartsGraft host source group before event) (taken : Step host before event after) :
    Silent source group first after := by
  have unsent : ¬ SendsGraft source group before after := by
    intro sends
    by_cases retries : ∃ mymrt, called before event = some (.planGraft mymrt)
    · obtain ⟨mymrt, calls⟩ := retries
      obtain ⟨timer, pending⟩ := called_mem calls
      exact silent.due _ pending (sendsGraft_of_retry calls taken sends)
    · exact unstarted ⟨fun mymrt calls => retries ⟨mymrt, calls⟩, after, taken, sends⟩
  have changes := handle_anything taken.2
  obtain ⟨new, trace, pairs⟩ := handle_pairsGrafts taken.2
  refine ⟨backed_of_pairs pairs silent.backed, ?_, ?_⟩
  · rintro ⟨timer, func⟩ pending grafts
    cases func with
    | planGraft mymrt =>
        rcases pairs.timers timer mymrt pending with old | ⟨packet, member, graft⟩
        · obtain ⟨e, here⟩ := silent.backed timer mymrt old
          have key : keyAt before mymrt = some (keyOf e) := by rw [keyAt, here, Option.map_some]
          have same := (keyAt_stays changes key).symm.trans grafts
          exact silent.due _ old (key.trans same)
        · exact unsent ⟨new, packet, mymrt, trace, member, graft, grafts⟩
    | _ => exact grafts
  · obtain ⟨older, same, others⟩ := silent.sent
    refine ⟨new ++ older, by rw [trace, same, List.append_assoc], fun packet mymrt member graft => ?_⟩
    rcases List.mem_append.mp member with inside | inside
    · obtain ⟨e, here⟩ := pairs.sent packet mymrt inside graft
      have key : keyAt after mymrt = some (keyOf e) := by rw [keyAt, here, Option.map_some]
      refine ⟨keyOf e, key, fun same => unsent ⟨new, packet, mymrt, trace, inside, graft, ?_⟩⟩
      rw [key, same]
    · obtain ⟨key, here, other⟩ := others packet mymrt inside graft
      exact ⟨key, keyAt_stays changes here, other⟩

theorem silent_until_started (backed : Backed s') (none : ∀ entry ∈ alarms s', ¬ IsGraft s' source group entry.2)
    (run : Reaches (Step host) (fun state event => ¬ StartsGraft host source group state event) s' later) :
    Silent source group s' later := by
  refine run.keeps ⟨backed, none, [], rfl, fun _ _ member => (List.not_mem_nil member).elim⟩ ?_
  exact fun _ _ _ silent unstarted taken => silent_step silent unstarted taken

/-! ## The property -/

/-- A Graft-Ack for an entry in the table leaves no timer of `plan_graft` for its
source and group exactly when the slot held them all.  Then until `check_pim_state`
or `add_sg` starts a Graft for them again, no such timer is set and no Graft for them is sent. -/
theorem graftAck_stops_grafts {allowed : Daemon → Event → Prop} (reached : Reachable host allowed s)
    (acks : Acknowledges host source group event) (inside : InTable s source group)
    (taken : Step host s event s') :
    ((∀ entry ∈ alarms s', ¬ IsGraft s' source group entry.2) ↔ GraftSlotHolds s source group) ∧
      (GraftSlotHolds s source group →
        ∀ later, Reaches (Step host) (fun state next => ¬ StartsGraft host source group state next) s' later →
          (∀ entry ∈ alarms later, ¬ IsGraft later source group entry.2) ∧
          ∃ new, later.trace = new ++ s'.trace ∧ ∀ packet mymrt, .pim packet mymrt ∈ new →
            packet.type = pimGraft → keyAt later mymrt ≠ some (source, group)) := by
  have clears := acknowledge_clears_iff (reachable_orderly reached) acks inside taken
  refine ⟨clears, fun holds later run => ?_⟩
  obtain ⟨_, _, pairs⟩ := handle_pairsGrafts taken.2
  have silent := silent_until_started (backed_of_pairs pairs (reachable_backed reached)) (clears.mpr holds) run
  obtain ⟨new, trace, others⟩ := silent.sent
  refine ⟨silent.due, new, trace, fun packet mymrt member graft same => ?_⟩
  obtain ⟨key, here, other⟩ := others packet mymrt member graft
  exact other (Option.some.inj (here.symm.trans same))

theorem acknowledges_graftAckFrom :
    Acknowledges router studio channel (graftAckFrom (stationOn 1 7) (stationOn 1 1) studio channel) :=
  .graftAck (by decide)
    ⟨by decide +kernel, by decide +kernel, by decide +kernel, by decide +kernel, by decide +kernel,
      by decide +kernel, by decide +kernel⟩

/-- A new neighbour opens two entries, and each check starts the Graft of the first. -/
theorem graftAck_misses_graft :
    ¬ ∀ host : Host, ∀ source group s event s', Reachable host NoAssert s →
      Acknowledges host source group event → InTable s source group → Step host s event s' →
        ∀ entry ∈ alarms s', ¬ IsGraft s' source group entry.2 := by
  intro never
  have passed : branchEndsWith router NoAssert NoAssert
      [upcall 1 1 0 (stationOn 1 8) channel, upcall 1 1 (stationOn 1 7) studio channel,
        helloFrom (stationOn 2 9) 105]
      (graftAckFrom (stationOn 1 7) (stationOn 1 1) studio channel) []
      (fun s s' _ => decide (InTable s studio channel) &&
        (alarms s').any fun entry => decide (IsGraft s' studio channel entry.2)) = true := by
    decide +kernel
  obtain ⟨s, s', _, reached, taken, _, both⟩ := runs_of_branchEndsWith passed
  obtain ⟨inside, left⟩ := Bool.and_eq_true_iff.mp both
  obtain ⟨entry, member, grafts⟩ := List.any_eq_true.mp left
  exact never router studio channel s _ s' reached acknowledges_graftAckFrom (of_decide_eq_true inside)
    taken entry member (of_decide_eq_true grafts)

/-- The event adds nothing to the trace. -/
def AddsNothing (host : Host) (s : Daemon) (event : Event) : Prop :=
  match handle host event s with
  | .ok (_, after) => after.trace = s.trace
  | .error _ => True

instance (s : Daemon) (event : Event) : Decidable (AddsNothing host s event) := by
  unfold AddsNothing
  split <;> infer_instance

theorem not_startsGraft (nothing : AddsNothing host s event) : ¬ StartsGraft host source group s event := by
  rintro ⟨_, after, taken, new, packet, mymrt, trace, member, _⟩
  have ran : handle host event s = .ok ((), after) := taken.2
  rw [AddsNothing, ran] at nothing
  have empty : new = [] := List.append_left_eq_self.mp (trace.symm.trans nothing)
  rw [empty] at member
  cases member

/-- One entry with a neighbour downstream, its Graft-Ack, and the next Hello of the neighbour. -/
theorem graftAck_stops_grafts_session :
    ∃ s s' later, (∃ entry ∈ alarms s, IsGraft s studio channel entry.2) ∧
      Step router s (graftAckFrom (stationOn 1 7) (stationOn 1 1) studio channel) s' ∧
      (∀ entry ∈ alarms s', ¬ IsGraft s' studio channel entry.2) ∧
      Reaches (Step router) (fun state next => ¬ StartsGraft router studio channel state next) s' later ∧
      later.id = s'.id + 1 ∧ ∀ entry ∈ alarms later, ¬ IsGraft later studio channel entry.2 := by
  have passed : branchEndsWith router NoAssert (AddsNothing router)
      [helloFrom (stationOn 2 9) 105, upcall 1 1 (stationOn 1 7) studio channel]
      (graftAckFrom (stationOn 1 7) (stationOn 1 1) studio channel) [helloFrom (stationOn 2 9) 105, .age 3]
      (fun s s' later => decide ((∃ entry ∈ alarms s, IsGraft s studio channel entry.2) ∧
        InTable s studio channel ∧ GraftSlotHolds s studio channel ∧ later.id = s'.id + 1)) = true := by decide +kernel
  obtain ⟨s, s', later, reached, taken, quiet, all⟩ := runs_of_branchEndsWith passed
  obtain ⟨pending, inside, holds, armed⟩ := of_decide_eq_true all
  obtain ⟨clears, stops⟩ := graftAck_stops_grafts reached acknowledges_graftAckFrom inside taken
  have run : Reaches (Step router) (fun state next => ¬ StartsGraft router studio channel state next) s' later :=
    quiet.mono fun _ _ => not_startsGraft
  exact ⟨s, s', later, pending, taken, clears.mpr holds, run, armed, (stops holds later run).1⟩

end PimDm.Property
