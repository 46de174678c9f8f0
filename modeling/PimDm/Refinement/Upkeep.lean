import PimDm.Foundation.Lease
import PimDm.Refinement.Recurrence
import PimDm.Refinement.Steps
import PimDm.Routing.Mirror

/-!
# The timers that entries of the table depend on

An entry is added with a timer for its expiry, and only a check of its source and group sets
another.  The number of entries of a source and group changes only when one is created or when
such a timer is called.
-/

namespace PimDm.Refinement

open PimDm.Foundation PimDm.Source PimDm.Effect PimDm.Routing

variable {host : Host} {s s' : Daemon} {event : Event} {func : Callback} {source group : Addr}

/-! ## Timers of one function -/

/-- Seen from the start of the clock, all timers are due so much earlier. -/
theorem mem_agenda_zero {now time : Int} {entry : Int × Callback} :
    (time, entry) ∈ agenda now s ↔ (time - now, entry) ∈ agenda 0 s := by
  have queued : (time, entry) ∈ due now s.queue ↔ (time - now, entry) ∈ due 0 s.queue := by
    have shifted := due_add 0 now s.queue
    rw [Int.zero_add] at shifted
    rw [shifted, List.mem_map]
    constructor
    · rintro ⟨⟨left, other⟩, member, same⟩
      cases same
      rwa [Int.add_sub_cancel]
    · intro member
      exact ⟨_, member, Prod.ext (Int.sub_add_cancel time now) rfl⟩
  have batched : (time, entry) ∈ s.expired.map (fun ptr => (now, alarm ptr)) ↔
      (time - now, entry) ∈ s.expired.map fun ptr => ((0 : Int), alarm ptr) := by
    simp only [List.mem_map, Prod.mk.injEq]
    refine exists_congr fun ptr => and_congr_right fun _ => and_congr_left fun _ => ?_
    omega
  rw [agenda, agenda, List.mem_append, List.mem_append, queued, batched]

/-- Updates that set no timer of a function leave only old ones of it. -/
theorem unset_old (orderly : Orderly s) {level : Level} (done : Does Update.apply (Handles level (· ≠ func)) s s')
    {now time timer : Int} (pending : (time, timer, func) ∈ agenda now s') : (time, timer, func) ∈ agenda now s := by
  have schedules := does_relates steady_schedules (fun _ state inside => schedules_update inside state) done
  have sets := does_relates (steady_sets (· ≠ func)) (fun _ state inside => sets_update inside.1 state) done
  refine (schedules.old_or_new now _ pending).resolve_right fun new => ?_
  rcases sets.old_or_new _ (mem_alarms_of_agenda pending) with old | ⟨_, _, other⟩
  · have late : s.id < timer := new
    have bounds : 0 < timer ∧ timer ≤ s.id := orderly.bounds _ old
    omega
  · exact other rfl

/-- An event on which no timer of a function is set leaves only old ones of it. -/
theorem handle_old (orderly : Orderly s) (passes : ∀ elapsedTime, event ≠ .age elapsedTime)
    (unset : MaySetBeside host s event (· ≠ func)) (run : Runs (handle host event) s () s') {now time timer : Int}
    (pending : (time, timer, func) ∈ agenda now s') : (time, timer, func) ∈ agenda now (begun s event) := by
  have first : Orderly (begun s event) := by
    unfold begun
    split
    · exact orderly_update .popExpired orderly
    · exact orderly
  have done : Does Update.apply (Handles (eventLevel s event) (· ≠ func)) (begun s event) s' :=
    handle_from_begun_beside (fun _ => inferInstance) passes (Nat.le_refl _) unset run
  exact unset_old first done pending

theorem mem_agenda_of_begun {now : Int} {entry : Int × Int × Callback} (member : entry ∈ agenda now (begun s event)) :
    entry ∈ agenda now s := by
  unfold begun at member
  split at member
  · exact mem_agenda_of_popExpired member
  · exact member

/-! ## Expiries -/

/-- Only the creation and the checks of an entry set an expiry of its source and group. -/
theorem maySetBeside_expiry (idle : ¬ Extends s source group event)
    (other : called s event ≠ some (.handleSgTimeout source group)) :
    MaySetBeside host s event (· ≠ .handleSgTimeout source group) where
  graft _ _ := Callback.noConfusion
  prune _ _ _ := Callback.noConfusion
  restored _ _ := Callback.noConfusion
  leave _ _ _ := Callback.noConfusion
  again func calls same := other (same ▸ calls)
  plain func _ occasion same := by
    subst same
    exact idle occasion
  check _ _ _ := Callback.noConfusion

/-- Only a check with fresh traffic clears an expiry. -/
theorem not_mayCancel_expiry (idle : ¬ Extends s source group event) :
    ¬ MayCancel host s event (.handleSgTimeout source group) := by
  intro may
  have checks : called s event = some (.checkSg source group) := may.clears
  cases event with
  | expire pktcnt => exact idle checks
  | _ => cases checks

/-- An event that neither creates nor checks an entry of the source and group, nor calls their expiry,
leaves the expiries. -/
theorem handle_expiries (zero : host.ZeroFilled) (owned : Owned s) (passes : ∀ elapsedTime, event ≠ .age elapsedTime)
    (idle : ¬ Extends s source group event) (other : called s event ≠ some (.handleSgTimeout source group))
    (run : Runs (handle host event) s () s') (now time timer : Int) :
    (time, timer, .handleSgTimeout source group) ∈ agenda now s' ↔
      (time, timer, .handleSgTimeout source group) ∈ agenda now s := by
  constructor
  · intro pending
    exact mem_agenda_of_begun (handle_old owned.orderly passes (maySetBeside_expiry idle other) run pending)
  · intro pending
    exact handle_stays zero owned passes other (not_mayCancel_expiry idle) run pending

/-- The expiry that is called is the only one that is gone. -/
theorem lapse_expiries (zero : host.ZeroFilled) (owned : Owned s) {pktcnt : Int}
    (calls : called s (.expire pktcnt) = some (.handleSgTimeout source group))
    (run : Runs (handle host (.expire pktcnt)) s () s') (now time timer : Int) :
    (time, timer, .handleSgTimeout source group) ∈ agenda now s' ↔
      (time, timer, .handleSgTimeout source group) ∈ agenda now s.popExpired := by
  have started : begun s (.expire pktcnt) = s.popExpired := by rw [begun, calls]
  have idle : ¬ Extends s source group (.expire pktcnt) := by
    intro checks
    have same := calls.symm.trans checks
    cases same
  constructor
  · intro pending
    have done : Within (Does Update.apply (Handles .removal (· ≠ .handleSgTimeout source group)))
        (handleSgTimeout source group) := handleSgTimeout_changes (Nat.le_refl _) source group
    exact unset_old (orderly_update .popExpired owned.orderly) (done _ _ _ (runs_called calls run)) pending
  · intro pending
    have tends := handle_tends zero (fun _ => Event.noConfusion) run
    rw [started] at tends
    exact tends.stays owned.popExpired now _ pending (not_mayCancel_expiry idle)

/-! ## Creation -/

/-- The expiries after an entry was created: those before, and one of the whole timeout. -/
structure Granted (s : Daemon) (source group : Addr) (s' : Daemon) : Prop where
  set : ∀ now, (now + pimSgTimeout, s.id + 1, .handleSgTimeout source group) ∈ agenda now s'
  kept : ∀ now time timer, (time, timer, .handleSgTimeout source group) ∈ agenda now s →
    (time, timer, .handleSgTimeout source group) ∈ agenda now s'
  only : ∀ now time timer, (time, timer, .handleSgTimeout source group) ∈ agenda now s' →
    time = now + pimSgTimeout ∨ (time, timer, .handleSgTimeout source group) ∈ agenda now s

theorem addSg_grants (zero : host.ZeroFilled) (owned : Owned s) {gateway : Addr} {incoming : Vif}
    (run : Runs (addSg host gateway source group incoming) s () s') : Granted s source group s' := by
  obtain ⟨newmrt, linking, announcing⟩ := addSg_splits (A := fun _ => False) zero run
  have between := linking.owned owned
  refine ⟨fun now => ?_, fun now time timer pending => ?_, fun now time timer pending => ?_⟩
  · refine announcing.stays between now _ ?_ id
    exact mem_agenda_setTimer.mpr (Or.inr (mem_agenda_setTimer.mpr (Or.inl rfl)))
  · exact announcing.stays between now _ (linking.stays owned now _ pending id) id
  · obtain ⟨other, _, _, _, announce, _⟩ := runs_addSg run
    have timers : Orderly (timed s source group) :=
      orderly_update (.setTimer pimSgCheck _) (orderly_update (.setTimer pimSgTimeout _) owned.orderly)
    have done : Within (Does Update.apply (Handles .quiet (· ≠ .handleSgTimeout source group)))
        (announceSg host source s.mrts.fresh) := announceSg_changes (fun _ => Callback.noConfusion) host source _
    have start : Orderly (linked (timed s source group) source group other) :=
      ⟨timers.bounds, timers.distinct, timers.started⟩
    have before : (time, timer, .handleSgTimeout source group) ∈ agenda now (timed s source group) :=
      unset_old start (done _ _ _ announce) pending
    rcases mem_agenda_setTimer.mp before with check | earlier
    · cases check
    · rcases mem_agenda_setTimer.mp earlier with new | old
      · exact Or.inl (congrArg Prod.fst new)
      · exact Or.inr old

/-- Updates that neither clear nor set expiries come behind a creation. -/
theorem Granted.then {middle : Daemon} (granted : Granted s source group middle) (owned : Owned middle)
    (tends : Tends (fun _ => False) middle s') {level : Level}
    (done : Does Update.apply (Handles level (· ≠ .handleSgTimeout source group)) middle s') :
      Granted s source group s' := by
  refine ⟨fun now => ?_, fun now time timer pending => ?_, fun now time timer pending => ?_⟩
  · exact tends.stays owned now _ (granted.set now) id
  · exact tends.stays owned now _ (granted.kept now time timer pending) id
  · exact granted.only now time timer (unset_old owned.orderly done pending)

/-- The upcall for a missing entry creates one, if the packet came in on the right interface, and
does nothing otherwise. -/
theorem upcall_grants (zero : host.ZeroFilled) (owned : Owned s) {mydata : MulticastErrorData}
    (first : mydata.message = 1)
    {checked routed : Addr} (run : Runs (multicastPacketError host mydata checked routed) s () s') :
    (findVifDirect host (getUpstream host checked mydata.source) = mydata.vif ∧
        Granted s mydata.source mydata.destination s') ∨
      findVifDirect host (getUpstream host checked mydata.source) ≠ mydata.vif ∧ s' = s := by
  obtain ⟨_, middle, create, stop⟩ := runs_bind.mp run
  have second : mydata.message ≠ 2 := by
    rw [first]
    decide
  rcases runs_onlyIf.mp stop with ⟨wrong, _⟩ | ⟨_, rfl⟩
  · exact absurd wrong second
  rcases runs_onlyIf.mp create with ⟨_, create⟩ | ⟨other, _⟩
  · rcases newMulticastPacket_creates create with ⟨right, added, add, tell⟩ | wrong
    · have told : Within (Does Update.apply (Handles .forwarding
        (· ≠ .handleSgTimeout mydata.source mydata.destination)))
          (changeMfc host mydata.source mydata.destination mydata.vif) := changeMfc_changes (Nat.le_refl _) host _ _ _
      have ready := (addSg_tends (A := fun _ => False) zero _ _ _ _ _ _ _ add).owned owned
      exact Or.inl ⟨right, (addSg_grants zero owned add).then ready (changeMfc_tends _ _ _ _ _ _ tell)
        (told _ _ _ tell)⟩
    · exact Or.inr wrong
  · exact absurd first other

end PimDm.Refinement
