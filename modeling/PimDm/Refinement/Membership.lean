import PimDm.Refinement.GroupRecords
import PimDm.Routing.Membership

/-!
# The record and the timers of a group as its membership

In a run of IGMP messages and timers, every event moves the membership of each group
on each interface as `Moves` says: at most one of them as its report, leave, query or
timer, and all others as something else.
-/

namespace PimDm.Refinement

open PimDm.Foundation PimDm.Source PimDm.Effect PimDm.Routing

variable {s s' : Daemon} {t : Table} {host : Host}

/-! ## What is read from the memory of the daemon -/

def phaseOf (g : IgmpGroup) : Int × Int := (g.leaveQuery, g.timeout)

/-- The membership of a group on an interface. -/
def membership (s : Daemon) (vif : Vif) (group : Addr) : Membership where
  record := (((table s).members vif).find? fun item => item.2 == group).bind fun item =>
    (s.groups.get? item.1).map phaseOf
  pending timer := (timer, .leaveQuery vif group) ∈ alarms s

/-- The message is a query for the group. -/
def isQuestion (group : Addr) : Observation → Bool
  | .igmp _ dst type _ asked => decide (dst = group ∧ type = igmpMembershipQuery ∧ asked = group)
  | _ => false

/-- How many queries for the group were sent. -/
def questions (group : Addr) (s : Daemon) : Nat := s.trace.countP (isQuestion group)

/-- How often `del_leaf` was called. -/
def leavesTold (vif : Vif) (group : Addr) (s : Daemon) : Nat :=
  s.trace.countP fun observation => decide (observation = .delLeaf vif group)

/-! ## Events -/

/-- After a query from `src` the interface is not its own querier. -/
def Defers (host : Host) (s : Daemon) (src : Addr) (vif : Vif) : Prop :=
  src ≠ 0 ∧ ((s.myvifs vif).querier ≠ 0 ∨ (ntohl src).toNat < (ntohl (host.iface vif).address).toNat)

instance (host : Host) (s : Daemon) (src : Addr) (vif : Vif) : Decidable (Defers host s src vif) :=
  inferInstanceAs (Decidable (_ ∧ _))

/-- What an event is to a group on an interface. -/
def stimulus (host : Host) (vif : Vif) (group : Addr) (s : Daemon) : Event → Stimulus
  | .acceptGroupReport src reported =>
      if findVifDirect host src = vif ∧ vif ≠ 0 ∧ reported = group then .report else .other
  | .acceptLeaveMessage src left =>
      if findVifDirectLocal host src = vif ∧ vif ≠ 0 ∧ (s.myvifs vif).querier = 0 ∧ left = group then .leave
      else .other
  | .acceptMembershipQuery src asked =>
      if (isLocalAddress host src = 0 ∧ findVifDirect host src = vif ∧ vif ≠ 0) ∧ asked = group ∧ asked ≠ 0 ∧
        Defers host s src vif then .query
      else .other
  | .expire _ =>
      match s.expired with
      | [] => .other
      | ptr :: _ => if ptr.func = .leaveQuery vif group then .expiry ptr.id else .other
  | _ => .other

/-- The interface an IGMP event is about. -/
def onVif (host : Host) (s : Daemon) : Event → Vif
  | .acceptGroupReport src _ => findVifDirect host src
  | .acceptLeaveMessage src _ => findVifDirectLocal host src
  | .acceptMembershipQuery src _ => findVifDirect host src
  | .expire pktcnt =>
      match called s (.expire pktcnt) with
      | some (.sendQuery vif) => vif
      | some (.retryQuery vif) => vif
      | some (.leaveQuery vif _) => vif
      | _ => 0
  | _ => 0

/-- The event is an IGMP message, or a timer. -/
def Igmp : Event → Prop
  | .acceptMembershipQuery .. => True
  | .acceptGroupReport .. => True
  | .acceptLeaveMessage .. => True
  | .age _ => True
  | .expire _ => True
  | _ => False

instance decidableIgmp : (event : Event) → Decidable (Igmp event)
  | .acceptMembershipQuery .. | .acceptGroupReport .. | .acceptLeaveMessage .. | .age _ | .expire _ =>
      isTrue trivial
  | .multicastPacketError .. | .pimInput .. => isFalse id

/-- The functions that timers call in a run of IGMP messages. -/
def IgmpCalls : Callback → Prop
  | .timer => True
  | .pimHelloOutput _ => True
  | .sendQuery _ => True
  | .retryQuery _ => True
  | .leaveQuery .. => True
  | _ => False

/-- What holds in every run of IGMP messages and timers. -/
structure GroupsKept (s : Daemon) : Prop where
  orderly : Orderly s
  models : Models s (table s)
  entries : s.themrt = 0
  distinct : ∀ vif, (((table s).members vif).map Prod.snd).Nodup
  calls : ∀ entry ∈ alarms s, IgmpCalls entry.2

theorem GroupsKept.of_models (orderly : Orderly s) (models : Models s t) (entries : s.themrt = 0)
    (distinct : ∀ vif, ((t.members vif).map Prod.snd).Nodup)
    (calls : ∀ entry ∈ alarms s, IgmpCalls entry.2) : GroupsKept s := by
  have same := models.table_eq
  exact ⟨orderly, same ▸ models, entries, fun vif => same ▸ distinct vif, calls⟩

/-- What an event does to the membership of a group on an interface, to the queries sent for it,
and to the calls of `del_leaf`. -/
structure Refines (host : Host) (vif : Vif) (group : Addr) (s : Daemon) (event : Event) (s' : Daemon)
    (sent : Nat) : Prop where
  moves : (membership s vif group).Moves (membership s' vif group) (stimulus host vif group s event) sent
  asked : onVif host s event = vif → questions group s' = questions group s + sent
  told : leavesTold vif group s' = leavesTold vif group s ∨
    (∃ timer, stimulus host vif group s event = .expiry timer) ∨
    ∃ record, (host.freedGroup record).address = group

/-! ## Changes aside from groups -/

/-- Nothing changes for groups, except that timers may be gone. -/
structure Aside (s s' : Daemon) : Prop where
  themrt : s'.themrt = s.themrt
  mrts : s'.mrts = s.mrts
  groups : s'.groups = s.groups
  neighbors : s'.neighbors = s.neighbors
  mfc : s'.mfc = s.mfc
  heads : ∀ vif, (s'.myvifs vif).groups = (s.myvifs vif).groups ∧
    (s'.myvifs vif).neighbor = (s.myvifs vif).neighbor
  leaves : ∀ timer vif group, (timer, .leaveQuery vif group) ∈ alarms s' →
    (timer, .leaveQuery vif group) ∈ alarms s
  calls : ∀ entry ∈ alarms s', entry ∈ alarms s ∨ IgmpCalls entry.2
  questions : ∀ group, questions group s' = questions group s
  told : ∀ vif group, leavesTold vif group s' = leavesTold vif group s

namespace Aside

theorem refl (s : Daemon) : Aside s s :=
  ⟨rfl, rfl, rfl, rfl, rfl, fun _ => ⟨rfl, rfl⟩, fun _ _ _ => id, fun _ => Or.inl, fun _ => rfl,
    fun _ _ => rfl⟩

theorem trans {middle : Daemon} (left : Aside s middle) (right : Aside middle s') : Aside s s' where
  themrt := right.themrt.trans left.themrt
  mrts := right.mrts.trans left.mrts
  groups := right.groups.trans left.groups
  neighbors := right.neighbors.trans left.neighbors
  mfc := right.mfc.trans left.mfc
  heads vif := ⟨(right.heads vif).1.trans (left.heads vif).1, (right.heads vif).2.trans (left.heads vif).2⟩
  leaves timer vif group member := left.leaves timer vif group (right.leaves timer vif group member)
  calls entry member := by
    rcases right.calls entry member with middle | new
    · exact left.calls entry middle
    · exact Or.inr new
  questions group := (right.questions group).trans (left.questions group)
  told vif group := (right.told vif group).trans (left.told vif group)

/-- Stores into the fields of a role, with the timers and messages as they are. -/
theorem of_fewer (lists : s'.themrt = s.themrt ∧ s'.mrts = s.mrts ∧ s'.groups = s.groups ∧
      s'.neighbors = s.neighbors ∧ s'.mfc = s.mfc)
    (heads : ∀ vif, (s'.myvifs vif).groups = (s.myvifs vif).groups ∧
      (s'.myvifs vif).neighbor = (s.myvifs vif).neighbor)
    (fewer : ∀ entry ∈ alarms s', entry ∈ alarms s) (trace : s'.trace = s.trace) : Aside s s' where
  themrt := lists.1
  mrts := lists.2.1
  groups := lists.2.2.1
  neighbors := lists.2.2.2.1
  mfc := lists.2.2.2.2
  heads := heads
  leaves _ _ _ member := fewer _ member
  calls entry member := Or.inl (fewer entry member)
  questions group := by rw [Refinement.questions, trace, Refinement.questions]
  told vif group := by rw [leavesTold, trace, leavesTold]

theorem popExpired (s : Daemon) : Aside s s.popExpired :=
  of_fewer ⟨rfl, rfl, rfl, rfl, rfl⟩ (fun _ => ⟨rfl, rfl⟩) (fun _ member => (alarms_popExpired s).subset member)
    rfl

theorem age (s : Daemon) (elapsedTime : Int) : Aside s (s.age elapsedTime) :=
  of_fewer ⟨rfl, rfl, rfl, rfl, rfl⟩ (fun _ => ⟨rfl, rfl⟩)
    (fun _ member => (alarms_age s elapsedTime).subset member) rfl

theorem clearTimer (s : Daemon) (timer : Int) : Aside s (s.clearTimer timer) := by
  refine of_fewer ?_ (fun _ => ?_) (fun _ member => (alarms_clearTimer s timer).subset member)
    (clearTimer_trace s timer)
  · unfold Daemon.clearTimer
    split <;> exact ⟨rfl, rfl, rfl, rfl, rfl⟩
  · rw [clearTimer_myvifs]
    exact ⟨rfl, rfl⟩

theorem setTimer (s : Daemon) (delay : Int) {action : Callback} (may : IgmpCalls action)
    (other : ∀ vif group, action ≠ .leaveQuery vif group) : Aside s (s.setTimer delay action) where
  themrt := rfl
  mrts := rfl
  groups := rfl
  neighbors := rfl
  mfc := rfl
  heads _ := ⟨rfl, rfl⟩
  leaves timer vif group member := by
    rcases List.mem_cons.mp ((alarms_setTimer s delay action).subset member) with new | old
    · exact absurd (congrArg Prod.snd new).symm (other vif group)
    · exact old
  calls entry member := by
    rcases List.mem_cons.mp ((alarms_setTimer s delay action).subset member) with rfl | old
    · exact Or.inr may
    · exact Or.inl old
  questions _ := rfl
  told _ _ := rfl

theorem setMyvif (s : Daemon) (vif : Vif) {function : Myvif → Myvif}
    (kept : ∀ myv, (function myv).groups = myv.groups ∧ (function myv).neighbor = myv.neighbor) :
    Aside s (s.setMyvif vif function) := by
  refine of_fewer ⟨rfl, rfl, rfl, rfl, rfl⟩ (fun other => ?_) (fun _ => id) rfl
  by_cases here : other = vif
  · rw [here, setMyvif_self]
    exact kept _
  · rw [setMyvif_other here]
    exact ⟨rfl, rfl⟩

theorem observe (s : Daemon) {observation : Observation} (notAsked : ∀ group, isQuestion group observation = false)
    (notTold : ∀ vif group, observation ≠ .delLeaf vif group) : Aside s (s.observe observation) where
  themrt := rfl
  mrts := rfl
  groups := rfl
  neighbors := rfl
  mfc := rfl
  heads _ := ⟨rfl, rfl⟩
  leaves _ _ _ := id
  calls _ := Or.inl
  questions group := List.countP_cons_of_neg (by simp [notAsked])
  told vif group := List.countP_cons_of_neg (by simp [notTold])

theorem neutral {update : Update} (neutral : Neutral update) : Aside s (update.apply s) := by
  cases update with
  | setTimer delay action =>
      cases action with
      | timer => exact setTimer s delay trivial fun _ _ => Callback.noConfusion
      | pimHelloOutput data => exact setTimer s delay trivial fun _ _ => Callback.noConfusion
      | _ => exact neutral.elim
  | sendBuf write => exact of_fewer ⟨rfl, rfl, rfl, rfl, rfl⟩ (fun _ => ⟨rfl, rfl⟩) (fun _ => id) rfl
  | send packet entry => exact observe s (fun _ => rfl) fun _ _ => Observation.noConfusion
  | virtualTime seconds => exact of_fewer ⟨rfl, rfl, rfl, rfl, rfl⟩ (fun _ => ⟨rfl, rfl⟩) (fun _ => id) rfl
  | _ => exact neutral.elim

theorem asks (s : Daemon) (vif : Vif) : Aside s ((asking s vif).observe
    (.igmp (host.iface vif).address allhosts igmpMembershipQuery 100 0)) := by
  have set : Aside s (s.setTimer igmpQueryTime (.sendQuery vif)) :=
    setTimer s _ trivial fun _ _ => Callback.noConfusion
  have stored : Aside s (asking s vif) := set.trans (setMyvif _ vif fun _ => ⟨rfl, rfl⟩)
  refine stored.trans (observe _ (fun group => ?_) fun _ _ => Observation.noConfusion)
  refine decide_eq_false ?_
  rintro ⟨rfl, _, zero⟩
  exact absurd zero (by decide)

theorem awaits (s : Daemon) (vif : Vif) (old : Int) (querier : Addr) (query : Int) :
    Aside s (awaiting s vif old querier query) := by
  have set : Aside (s.clearTimer old) ((s.clearTimer old).setTimer igmpQuerierTimeout (.retryQuery vif)) :=
    setTimer _ _ trivial fun _ _ => Callback.noConfusion
  exact ((clearTimer s old).trans set).trans (setMyvif _ vif fun _ => ⟨rfl, rfl⟩)

theorem hears {src : Addr} {vif : Vif} (hears : Hears host src vif s s') : Aside s s' := by
  cases hears with
  | ignored own larger => exact refl s
  | deferred own smaller => exact awaits s vif _ _ _
  | renewed waits later => exact awaits s vif _ _ _
  | yielded waits smaller => exact (awaits s vif _ _ _).trans (awaits _ vif _ _ _)

variable (aside : Aside s s')
include aside

theorem models (models : Models s t) : Models s' t :=
  models.of_same aside.themrt aside.mrts aside.heads aside.groups aside.neighbors aside.mfc

theorem kept (kept : GroupsKept s) (orderly : Orderly s') : GroupsKept s' := by
  refine .of_models orderly (aside.models kept.models) (aside.themrt.trans kept.entries) kept.distinct ?_
  intro entry member
  rcases aside.calls entry member with old | new
  · exact kept.calls entry old
  · exact new

theorem members (vif : Vif) : (table s').members vif = (table s).members vif := by
  simp only [table, aside.groups, (aside.heads vif).1]

theorem record (vif : Vif) (group : Addr) :
    (membership s' vif group).record = (membership s vif group).record := by
  simp only [membership, aside.members, aside.groups]

/-- What another group does afterwards, it does from the start. -/
theorem moves {vif : Vif} {group : Addr} {after : Membership}
    (later : (membership s' vif group).Moves after .other 0) : (membership s vif group).Moves after .other 0 := by
  cases later with
  | other same none =>
      exact .other (same.trans (aside.record vif group)) fun timer member =>
        aside.leaves timer vif group (none timer member)

theorem refines {vif : Vif} {group : Addr} {event : Event}
    (other : stimulus host vif group s event = .other) : Refines host vif group s event s' 0 := by
  refine ⟨?_, fun _ => aside.questions group, Or.inl (aside.told vif group)⟩
  rw [other]
  exact .other (aside.record vif group) fun timer => aside.leaves timer vif group

end Aside

end PimDm.Refinement
