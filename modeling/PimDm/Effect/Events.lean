import PimDm.Effect.Receivers

/-!
# The updates of each event

How far an event can change the state, whether it can start a Graft, and which
delayed prunes it can schedule.
-/

namespace PimDm.Effect

open PimDm.Foundation PimDm.Source

variable {level : Level} {A : Callback → Prop}

/-- The level of the updates of a callback. -/
def callLevel : Callback → Level
  | .handleSgTimeout .. => .removal
  | .deletePimNeighbor _ => .lists
  | .leaveQuery .. => .lists
  | .pruneTimeOut _ => .forwarding
  | .setPrune _ => .forwarding
  | _ => .quiet

/-- The callback calls `check_pim_state`, which may start a Graft. -/
def CallChecks : Callback → Prop
  | .deletePimNeighbor _ => True
  | .leaveQuery .. => True
  | .pruneTimeOut _ => True
  | .setPrune _ => True
  | .activeForward _ => True
  | _ => False

/-- A callback that every event may register. -/
def Plain : Callback → Prop
  | .setPrune _ => False
  | .pruneTimeOut _ => False
  | .planGraft _ => False
  | .leaveQuery .. => False
  | .checkSg .. => False
  | _ => True

/-- The callback an event calls, if it is the expiry of a timer. -/
def called (s : Daemon) : Event → Option Callback
  | .expire _ => s.expired.head?.map TimeoutQ.func
  | _ => none

/-- The id of the timer an event calls. -/
def calledId (s : Daemon) : Event → Option Int
  | .expire _ => s.expired.head?.map TimeoutQ.id
  | _ => none

/-- The state in which the work of an event begins: a timer that is called is no longer in the batch. -/
def begun (s : Daemon) (event : Event) : Daemon :=
  match called s event with
  | some _ => s.popExpired
  | none => s

theorem called_batch {s : Daemon} {pktcnt : Int} {func : Callback}
    (calls : called s (.expire pktcnt) = some func) :
    ∃ ptr rest, s.expired = ptr :: rest ∧ ptr.func = func := by
  obtain ⟨ptr, head, same⟩ := Option.map_eq_some_iff.mp calls
  obtain ⟨rest, batch⟩ := List.head?_eq_some_iff.mp head
  exact ⟨ptr, rest, batch, same⟩

/-- Nothing but the expiry of a timer happens while timers are being called. -/
theorem idle_of_enabled {s : Daemon} {event : Event} (other : event.isExpire = false)
    (enabled : event.Enabled s) : s.expired = [] := by
  unfold Event.Enabled at enabled
  rw [other] at enabled
  simpa using enabled.symm

/-- The expiry of a timer calls the first function of the batch. -/
theorem runs_expire {host : Host} {s s' : Daemon} {pktcnt : Int}
    (run : Runs (handle host (.expire pktcnt)) s () s') :
    (called s (.expire pktcnt) = none ∧ s' = s) ∨
      ∃ func, called s (.expire pktcnt) = some func ∧
        Runs (callFunc host pktcnt func) s.popExpired () s' := by
  unfold handle callNext at run
  rw [runs_get_bind] at run
  cases batch : s.expired with
  | nil =>
      simp only [batch] at run
      exact Or.inl ⟨by simp [called, batch], (runs_pure.mp run).2⟩
  | cons ptr rest =>
      simp only [batch] at run
      obtain ⟨_, popped, pop, call⟩ := runs_bind.mp run
      obtain rfl := runs_modify.mp pop
      exact Or.inr ⟨ptr.func, by simp [called, batch], call⟩

/-- An expiry that calls a function runs it once its timer is off the batch. -/
theorem runs_called {host : Host} {s s' : Daemon} {pktcnt : Int} {func : Callback}
    (calls : called s (.expire pktcnt) = some func) (run : Runs (handle host (.expire pktcnt)) s () s') :
    Runs (callFunc host pktcnt func) s.popExpired () s' := by
  rcases runs_expire run with ⟨none, _⟩ | ⟨other, again, call⟩
  · rw [calls] at none
    cases none
  · rw [Option.some.inj (calls.symm.trans again)]
    exact call

/-- The level of the updates of an event. -/
def eventLevel (s : Daemon) : Event → Level
  | .multicastPacketError mydata _ _ => if mydata.message = 1 then .table else .quiet
  | .acceptGroupReport .. => .lists
  | .pimInput .hello .. => .lists
  | .pimInput .assert .. => .forwarding
  | .pimInput .graft .. => .forwarding
  | .expire pktcnt =>
      match called s (.expire pktcnt) with
      | none => .quiet
      | some func => callLevel func
  | _ => .quiet

theorem callLevel_lists {func : Callback} (other : ∀ source group, func ≠ .handleSgTimeout source group) :
    callLevel func ≤ .lists := by
  cases func with
  | handleSgTimeout source group => exact absurd rfl (other source group)
  | deletePimNeighbor entry => exact Nat.le_refl _
  | leaveQuery vif group => exact Nat.le_refl _
  | pruneTimeOut data => exact (by decide : Level.forwarding ≤ .lists)
  | setPrune data => exact (by decide : Level.forwarding ≤ .lists)
  | _ => exact Level.quiet_le _

/-- Only the upcall for a missing entry and the timeout of an entry change the
table itself. -/
theorem eventLevel_lists {s : Daemon} {event : Event}
    (upcall : ∀ mydata checked routed, event = .multicastPacketError mydata checked routed →
      mydata.message ≠ 1)
    (timeout : ∀ source group, called s event ≠ some (.handleSgTimeout source group)) :
    eventLevel s event ≤ .lists := by
  cases event with
  | multicastPacketError mydata checked routed =>
      have quiet : eventLevel s (.multicastPacketError mydata checked routed) = .quiet :=
        if_neg (upcall mydata checked routed rfl)
      rw [quiet]
      exact Level.quiet_le _
  | acceptGroupReport src group => exact Nat.le_refl _
  | pimInput type src data length =>
      cases type with
      | hello => exact Nat.le_refl _
      | joinPrune => exact Level.quiet_le _
      | assert => exact (by decide : Level.forwarding ≤ .lists)
      | graft => exact (by decide : Level.forwarding ≤ .lists)
      | graftAck => exact Level.quiet_le _
  | expire pktcnt =>
      cases calls : called s (.expire pktcnt) with
      | none =>
          simp only [eventLevel, calls]
          exact Level.quiet_le _
      | some func =>
          simp only [eventLevel, calls]
          refine callLevel_lists fun source group same => timeout source group ?_
          rw [calls, same]
  | _ => exact Level.quiet_le _

/-- The event calls `check_pim_state` or `add_sg`, which may start a Graft. -/
def EventChecks (s : Daemon) : Event → Prop
  | .multicastPacketError mydata _ _ => mydata.message = 1
  | .acceptGroupReport .. => True
  | .pimInput .hello .. => True
  | .expire pktcnt => ∃ func, called s (.expire pktcnt) = some func ∧ CallChecks func
  | _ => False

/-- An event without a check creates no entry. -/
theorem eventLevel_removal {s : Daemon} {event : Event} (unchecked : ¬ EventChecks s event) :
    eventLevel s event ≤ .removal := by
  have lists : Level.lists ≤ .removal := by decide
  have created : ∀ mydata checked routed, event = .multicastPacketError mydata checked routed →
      mydata.message ≠ 1 := by
    rintro mydata checked routed rfl
    exact unchecked
  by_cases timeout : ∃ source group, called s event = some (.handleSgTimeout source group)
  · obtain ⟨source, group, calls⟩ := timeout
    cases event with
    | expire pktcnt =>
        simp only [eventLevel, calls]
        exact Nat.le_refl _
    | _ => cases calls
  · refine Level.le_trans (eventLevel_lists created ?_) lists
    exact fun source group calls => timeout ⟨source, group, calls⟩

/-- The event is a Join/Prune from a router on an interface, and may prune. -/
def PrunesOn (host : Host) (vif : Vif) : Event → Prop
  | .pimInput .joinPrune src data _ => vif = findVifDirect host src ∧ ¬ JoinsOnly data
  | _ => False

instance decidablePrunesOn (host : Host) (vif : Vif) : (event : Event) → Decidable (PrunesOn host vif event)
  | .pimInput .joinPrune src data _ =>
      inferInstanceAs (Decidable (vif = findVifDirect host src ∧ ¬ JoinsOnly data))
  | .pimInput .hello .. | .pimInput .assert .. | .pimInput .graft .. | .pimInput .graftAck ..
  | .multicastPacketError .. | .acceptMembershipQuery .. | .acceptGroupReport ..
  | .acceptLeaveMessage .. | .age _ | .expire _ => isFalse id

/-- The callbacks an event may register in new timers are in `A`. -/
structure MayRegister (host : Host) (s : Daemon) (event : Event) (A : Callback → Prop) : Prop where
  graft : EventChecks s event → ∀ mymrt, A (.planGraft mymrt)
  prune : ∀ data, PrunesOn host data.vif event → host.Serves data.vif → A (.setPrune data)
  restored : ∀ data, called s event = some (.setPrune data) → A (.pruneTimeOut data)
  leave : ∀ vif group, host.Serves vif → A (.leaveQuery vif group)
  again : ∀ func, called s event = some func → A func
  plain : ∀ func, Plain func → A func
  check : eventLevel s event = .table → ∀ source group, A (.checkSg source group)

/-- A callback that nothing but its own function sets again, once the daemon runs. -/
def Recurs : Callback → Prop
  | .timer => True
  | .pimHelloOutput _ => True
  | _ => False

/-- The callbacks an event may set are in `A`, and those that recur only if it calls them. -/
structure MaySet (host : Host) (s : Daemon) (event : Event) (A : Callback → Prop) : Prop where
  graft : EventChecks s event → ∀ mymrt, A (.planGraft mymrt)
  prune : ∀ data, PrunesOn host data.vif event → host.Serves data.vif → A (.setPrune data)
  restored : ∀ data, called s event = some (.setPrune data) → A (.pruneTimeOut data)
  leave : ∀ vif group, host.Serves vif → A (.leaveQuery vif group)
  again : ∀ func, called s event = some func → A func
  plain : ∀ func, Plain func → ¬ Recurs func → A func
  check : eventLevel s event = .table → ∀ source group, A (.checkSg source group)

theorem MayRegister.sets {host : Host} {s : Daemon} {event : Event} (registers : MayRegister host s event A) :
    MaySet host s event A :=
  ⟨registers.graft, registers.prune, registers.restored, registers.leave, registers.again,
    fun func plain _ => registers.plain func plain, registers.check⟩

/-- A callback of the role of an interface. -/
def Role : Callback → Prop
  | .sendQuery _ => True
  | .retryQuery _ => True
  | _ => False

/-- The event hears a query or calls a function of a role. -/
def Elects (s : Daemon) : Event → Prop
  | .acceptMembershipQuery .. => True
  | .expire pktcnt => ∃ func, called s (.expire pktcnt) = some func ∧ Role func
  | _ => False

/-- The event creates an entry of the source and group, or checks one. -/
def Extends (s : Daemon) (source group : Addr) : Event → Prop
  | .multicastPacketError mydata _ _ => mydata.message = 1 ∧ mydata.source = source ∧ mydata.destination = group
  | .expire pktcnt => called s (.expire pktcnt) = some (.checkSg source group)
  | _ => False

/-- The only occasion on which a running daemon sets a new timer of a plain callback. -/
def Occasion (s : Daemon) (event : Event) : Callback → Prop
  | .timer => False
  | .pimHelloOutput _ => False
  | .deletePimNeighbor _ => ∃ src data length, event = .pimInput .hello src data length
  | .handleSgTimeout source group => Extends s source group event
  | .sendQuery _ => Elects s event
  | .retryQuery _ => Elects s event
  | _ => True

/-- The callbacks an event may set are in `A`, the plain ones only on their occasion. -/
structure MaySetBeside (host : Host) (s : Daemon) (event : Event) (A : Callback → Prop) : Prop where
  graft : EventChecks s event → ∀ mymrt, A (.planGraft mymrt)
  prune : ∀ data, PrunesOn host data.vif event → host.Serves data.vif → A (.setPrune data)
  restored : ∀ data, called s event = some (.setPrune data) → A (.pruneTimeOut data)
  leave : ∀ vif group, host.Serves vif → A (.leaveQuery vif group)
  again : ∀ func, called s event = some func → A func
  plain : ∀ func, Plain func → Occasion s event func → A func
  check : eventLevel s event = .table → ∀ source group, A (.checkSg source group)

theorem MaySet.beside {host : Host} {s : Daemon} {event : Event} (registers : MaySet host s event A) :
    MaySetBeside host s event A := by
  refine ⟨registers.graft, registers.prune, registers.restored, registers.leave, registers.again, ?_, registers.check⟩
  intro func plain occasion
  refine registers.plain func plain fun recurs => ?_
  cases func with
  | timer => exact occasion
  | pimHelloOutput data => exact occasion
  | _ => exact recurs

/-- An event that does not elect sets no timer of a role. -/
theorem maySetBeside_roles {host : Host} {s : Daemon} {event : Event} (beside : ¬ Elects s event) :
    MaySetBeside host s event fun func => ¬ Role func where
  graft _ _ := id
  prune _ _ _ := id
  restored _ _ := id
  leave _ _ _ := id
  again func calls role := by
    cases event with
    | expire pktcnt => exact beside ⟨func, calls, role⟩
    | _ => cases calls
  plain func _ occasion role := by
    cases func with
    | sendQuery vif => exact beside occasion
    | retryQuery vif => exact beside occasion
    | _ => exact role
  check _ _ _ := id

section Handlers

variable {P : Level → (Callback → Prop) → Update → Prop} [CoversBeside P]

theorem callFunc_beside {host : Host} {s : Daemon} {pktcnt : Int} {func : Callback}
    (roles : Elects s (.expire pktcnt) → Covers P)
    (calls : called s (.expire pktcnt) = some func) (may : callLevel func ≤ level)
    (registers : MaySetBeside host s (.expire pktcnt) A) :
    Within (Does Update.apply (P level A)) (callFunc host pktcnt func) := by
  have graft : CallChecks func → ∀ mymrt, A (.planGraft mymrt) := fun checks =>
    registers.graft ⟨func, calls, checks⟩
  have again := registers.again func calls
  have plain := registers.plain
  cases func with
  | timer => exact timer_changes again
  | pimHelloOutput data => exact pimHelloOutput_changes host data again
  | deletePimNeighbor entry => exact deletePimNeighbor_changes may (graft trivial) host entry
  | sendJoin data => exact sendJoin_changes host data
  | pruneTimeOut data => exact pruneTimeOut_changes may (graft trivial) host data
  | setPrune data => exact setPrune_changes may (graft trivial) host data (registers.restored data calls)
  | activeForward vif => exact activeForward_changes (graft trivial) host
  | planGraft entry => exact planGraft_changes host again
  | handleSgTimeout source group => exact handleSgTimeout_changes may source group
  | checkSg source group => exact checkSg_changes (plain _ trivial calls) again pktcnt
  | sendQuery vif =>
      have elects : Elects s (.expire pktcnt) := ⟨_, calls, trivial⟩
      have := roles elects
      exact startQuerying_changes (fun _ => plain _ trivial elects) host vif
  | retryQuery vif =>
      have elects : Elects s (.expire pktcnt) := ⟨_, calls, trivial⟩
      have := roles elects
      exact startQuerying_changes (fun _ => plain _ trivial elects) host vif
  | leaveQuery vif group => exact leaveQuery_changes may (graft trivial) host again

theorem receivePim_beside {host : Host} {type : PimMessage} {src : Addr} {data : Memory}
    {length : Int} {s : Daemon} (may : eventLevel s (.pimInput type src data length) ≤ level)
    (registers : MaySetBeside host s (.pimInput type src data length) A) :
    Within (Does Update.apply (P level A)) (receivePim host type src data length) := by
  have plain := registers.plain
  cases type with
  | hello =>
      exact receiveHello_changes may (registers.graft trivial)
        (fun _ => plain _ trivial ⟨src, data, length, rfl⟩) host src
        data length
  | joinPrune =>
      refine receiveJoinPrune_changes (fun _ => plain _ trivial trivial) host ?_ length
      exact fun other prunedata same => registers.prune prunedata ⟨same, other⟩
  | assert => exact receiveAssert_changes may (fun _ => plain _ trivial trivial) host src data length
  | graft => exact receivePimGraft_changes may host src data length
  | graftAck => exact receivePimGraftAck_changes host src data length

/-- The updates of an event in which no time passes, from where it begins.  Those of a role are among
them if it elects. -/
theorem handle_from_begun_beside {host : Host} {s s' : Daemon} {event : Event} (roles : Elects s event → Covers P)
    (passes : ∀ elapsedTime, event ≠ .age elapsedTime) (may : eventLevel s event ≤ level)
    (registers : MaySetBeside host s event A) (run : Runs (handle host event) s () s') :
    Does Update.apply (P level A) (begun s event) s' := by
  have plain := registers.plain
  cases event with
  | multicastPacketError mydata checked routed =>
      refine multicastPacketError_changes (fun first => ?_) registers.graft
        (fun first => plain _ trivial ⟨first, rfl, rfl⟩)
        (fun first => registers.check (if_pos first)) host checked routed s () s' run
      simpa [eventLevel, first] using may
  | acceptMembershipQuery src group =>
      have := roles trivial
      exact acceptMembershipQuery_changes (fun _ => plain _ trivial trivial) host registers.leave src group s ()
        s' run
  | acceptGroupReport src group =>
      exact acceptGroupReport_changes may (registers.graft trivial) host src group s () s' run
  | acceptLeaveMessage src group =>
      exact acceptLeaveMessage_changes host registers.leave src group s () s' run
  | pimInput type src data length => exact receivePim_beside may registers s () s' run
  | age elapsedTime => exact absurd rfl (passes elapsedTime)
  | expire pktcnt =>
      unfold begun
      rcases runs_expire run with ⟨none, rfl⟩ | ⟨func, calls, call⟩
      · rw [none]
        exact .refl
      · have below : callLevel func ≤ level := by simpa [eventLevel, calls] using may
        rw [calls]
        exact callFunc_beside roles calls below registers s.popExpired () s' call

omit [CoversBeside P]

variable [Covers P]

theorem callFunc_sets {host : Host} {s : Daemon} {pktcnt : Int} {func : Callback}
    (calls : called s (.expire pktcnt) = some func) (may : callLevel func ≤ level)
    (registers : MaySet host s (.expire pktcnt) A) :
    Within (Does Update.apply (P level A)) (callFunc host pktcnt func) :=
  callFunc_beside (fun _ => inferInstance) calls may registers.beside

/-- The updates of an event in which no time passes, from where it begins. -/
theorem handle_from_begun_sets {host : Host} {s s' : Daemon} {event : Event}
    (passes : ∀ elapsedTime, event ≠ .age elapsedTime) (may : eventLevel s event ≤ level)
    (registers : MaySet host s event A) (run : Runs (handle host event) s () s') :
    Does Update.apply (P level A) (begun s event) s' :=
  handle_from_begun_beside (fun _ => inferInstance) passes may registers.beside run

/-- The updates of an event in which no time passes, whatever plain timers it sets. -/
theorem handle_from_begun {host : Host} {s s' : Daemon} {event : Event}
    (passes : ∀ elapsedTime, event ≠ .age elapsedTime) (may : eventLevel s event ≤ level)
    (registers : MayRegister host s event A) (run : Runs (handle host event) s () s') :
    Does Update.apply (P level A) (begun s event) s' :=
  handle_from_begun_sets passes may registers.sets run

theorem callFunc_changes {host : Host} {s : Daemon} {pktcnt : Int} {func : Callback}
    (calls : called s (.expire pktcnt) = some func) (may : callLevel func ≤ level)
    (registers : MayRegister host s (.expire pktcnt) A) :
    Within (Does Update.apply (P level A)) (callFunc host pktcnt func) :=
  callFunc_sets calls may registers.sets

end Handlers

/-- The updates an event makes. -/
theorem handle_changes {host : Host} {s s' : Daemon} {event : Event} (may : eventLevel s event ≤ level)
    (registers : MayRegister host s event A) (run : Runs (handle host event) s () s') :
    Changes level A s s' := by
  by_cases passes : ∃ elapsedTime, event = .age elapsedTime
  · obtain ⟨elapsedTime, rfl⟩ := passes
    rw [runs_modify.mp run]
    exact .single ⟨.age elapsedTime, ⟨level.quiet_le, trivial⟩, rfl⟩
  · have still : ∀ elapsedTime, event ≠ .age elapsedTime := fun elapsedTime same => passes ⟨elapsedTime, same⟩
    have first : Changes level A s (begun s event) := by
      unfold begun
      split
      · exact .single ⟨.popExpired, ⟨level.quiet_le, trivial⟩, rfl⟩
      · exact .refl
    exact first.trans (handle_from_begun still may registers run)

theorem mayRegister_anything (host : Host) (s : Daemon) (event : Event) :
    MayRegister host s event Anything :=
  ⟨fun _ _ => trivial, fun _ _ _ => trivial, fun _ _ => trivial, fun _ _ _ => trivial,
    fun _ _ => trivial, fun _ _ => trivial, fun _ _ _ => trivial⟩

/-- The updates of an event, without a bound on the timers. -/
theorem handle_anything {host : Host} {s s' : Daemon} {event : Event}
    (run : Runs (handle host event) s () s') : Changes (eventLevel s event) Anything s s' :=
  handle_changes (Nat.le_refl _) (mayRegister_anything host s event) run

/-! ## Start -/

variable {P : Level → (Callback → Prop) → Update → Prop} [Covers P]

theorem activeVifs_changes (query : ∀ vif, A (.sendQuery vif)) (hello : ∀ data, A (.pimHelloOutput data))
    (host : Host) : Within (Does Update.apply (P level A)) (activeVifs host) := by
  refine does_foldProgram _ _ fun vif _ _ => does_onlyIf fun _ => ?_
  exact does_bind (startQuerying_changes query host vif) fun _ => pimHelloOutput_changes host _ (hello _)

theorem boot_changes (query : ∀ vif, A (.sendQuery vif)) (hello : ∀ data, A (.pimHelloOutput data))
    (tick : A .timer) (host : Host) : Within (Does Update.apply (P level A)) (boot host) :=
  does_bind (activeVifs_changes query hello host) fun _ =>
    does_bind (timerSetTimer_changes _ tick) fun _ => does_pure _

end PimDm.Effect
