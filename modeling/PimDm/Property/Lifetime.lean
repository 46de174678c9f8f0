import PimDm.Property.History
import PimDm.Refinement.Neighbors
import PimDm.Refinement.Steps

/-!
# The lifetime of a neighbour

A neighbour leaves its list when it says so or when its hold time has run out, as long
as no timer of an earlier record of the neighbour is left, and the neighbour is not the
first of its list.
-/

namespace PimDm.Property

open PimDm.Foundation PimDm.Source PimDm.Effect PimDm.Routing PimDm.Refinement

/-! ## Hellos -/

/-- The last Hello of a router: when it was received, and its hold time. -/
structure Greeting where
  time : Int
  holdtime : Int
  deriving DecidableEq

/-- The hold time of a Hello, if it can be read. -/
def holdtimeOf (data : Memory) (length : Int) : Option Int :=
  (getHoldTimeLoop data (64 * 1024 / 4) sizeofPim (length - sizeofPim)).toOption

/-- The last Hello of each router. -/
def recordHello (now : Int) : Event → (Addr → Option Greeting) → Addr → Option Greeting
  | .pimInput .hello src data length, last =>
      match holdtimeOf data length with
      | none => last
      | some holdtime => Function.update last src (some ⟨now, holdtime⟩)
  | _, last => last

/-- The event is a Hello whose hold time is not negative, or a timer. -/
def HelloOrTimer : Event → Prop
  | .pimInput .hello _ data length => ∃ holdtime ∈ holdtimeOf data length, 0 ≤ holdtime
  | .age _ => True
  | .expire _ => True
  | _ => False

instance decidableHelloOrTimer : (event : Event) → Decidable (HelloOrTimer event)
  | .pimInput .hello _ data length =>
      inferInstanceAs (Decidable (∃ holdtime ∈ holdtimeOf data length, 0 ≤ holdtime))
  | .age _ | .expire _ => isTrue trivial
  | .pimInput .joinPrune .. | .pimInput .assert .. | .pimInput .graft .. | .pimInput .graftAck ..
  | .multicastPacketError .. | .acceptMembershipQuery .. | .acceptGroupReport ..
  | .acceptLeaveMessage .. => isFalse id

/-- The event is a Hello of the router with hold time 0. -/
def Goodbye (event : Event) (address : Addr) : Prop :=
  ∃ data length, event = .pimInput .hello address data length ∧ holdtimeOf data length = some 0

/-! ## Lists -/

/-- The router is in the list of the interface. -/
def IsNeighbor (s : Daemon) (vif : Vif) (address : Addr) : Prop :=
  address ∈ ((table s).neighbors vif).map Prod.snd

instance (s : Daemon) (vif : Vif) (address : Addr) : Decidable (IsNeighbor s vif address) :=
  inferInstanceAs (Decidable (_ ∈ _))

/-- The router is not the first in the list of the interface. -/
def NotFirst (s : Daemon) (vif : Vif) (address : Addr) : Prop :=
  ((table s).neighbors vif).head?.map Prod.snd ≠ some address

instance (s : Daemon) (vif : Vif) (address : Addr) : Decidable (NotFirst s vif address) :=
  inferInstanceAs (Decidable (_ ≠ _))

/-- The record of a router in the list of the interface. -/
def recordOf (s : Daemon) (vif : Vif) (address : Addr) : Option Ptr :=
  (((table s).neighbors vif).find? fun item => item.2 == address).map Prod.fst

/-- The timer of a record finds that record, or one whose own timer is called as well, and it is
not the first of its list. -/
def FindsItself (host : Host) (s : Daemon) (entry : Ptr) : Prop :=
  ∀ n ∈ s.neighbors.get? entry,
    ∀ listed ∈ recordOf s (findVifDirect host n.address) n.address,
      NotFirst s (findVifDirect host n.address) n.address ∧
        (listed = entry ∨ ∃ ptr ∈ s.expired, ptr.func = .deletePimNeighbor listed)

instance (host : Host) (s : Daemon) (entry : Ptr) : Decidable (FindsItself host s entry) :=
  inferInstanceAs (Decidable (∀ n ∈ s.neighbors.get? entry,
    ∀ listed ∈ recordOf s (findVifDirect host n.address) n.address,
      NotFirst s (findVifDirect host n.address) n.address ∧
        (listed = entry ∨ ∃ ptr ∈ s.expired, ptr.func = .deletePimNeighbor listed)))

/-- The record whose timer an event calls. -/
def recordCalled (s : Daemon) (event : Event) : Option Ptr :=
  match called s event with
  | some (.deletePimNeighbor entry) => some entry
  | _ => none

/-- A router that says goodbye is a neighbour, but not the first of its list, and a timer that is
called finds the record it was set for. -/
def Parts (host : Host) (s : Daemon) : Event → Prop
  | .pimInput .hello src data length =>
      holdtimeOf data length = some 0 → findVifDirect host src ≠ 0 →
        IsNeighbor s (findVifDirect host src) src ∧ NotFirst s (findVifDirect host src) src
  | .expire pktcnt => ∀ entry ∈ recordCalled s (.expire pktcnt), FindsItself host s entry
  | _ => True

instance decidableParts (host : Host) (s : Daemon) : (event : Event) → Decidable (Parts host s event)
  | .pimInput .hello src data length =>
      inferInstanceAs (Decidable (holdtimeOf data length = some 0 → findVifDirect host src ≠ 0 →
        IsNeighbor s (findVifDirect host src) src ∧ NotFirst s (findVifDirect host src) src))
  | .expire pktcnt =>
      inferInstanceAs (Decidable (∀ entry ∈ recordCalled s (.expire pktcnt), FindsItself host s entry))
  | .pimInput .joinPrune .. | .pimInput .assert .. | .pimInput .graft .. | .pimInput .graftAck ..
  | .multicastPacketError .. | .acceptMembershipQuery .. | .acceptGroupReport ..
  | .acceptLeaveMessage .. | .age _ => isTrue trivial

variable {host : Host} {s s' : Daemon} {t : Table} {now later : Int} {last : Addr → Option Greeting}

/-! ## Leases -/

/-- The functions that timers call in a run of Hellos. -/
def GreetingCalls (s : Daemon) : Callback → Prop
  | .timer => True
  | .pimHelloOutput _ => True
  | .sendQuery _ => True
  | .deletePimNeighbor entry => (s.neighbors.get? entry).isSome = true
  | _ => False

/-- The timer of the record of a neighbour is the one noted in it, and is due when the hold time
of the last Hello has run out, or later. -/
def LeaseRuns (s : Daemon) (now : Int) (last : Addr → Option Greeting) (item : Ptr × Addr) : Prop :=
  ∃ timer greeting, (s.neighbors.get? item.1).map leaseOf = some (item.2, timer) ∧
    last item.2 = some greeting ∧
    ∀ time id, (time, id, .deletePimNeighbor item.1) ∈ agenda now s →
      id = timer ∧ greeting.time + greeting.holdtime ≤ time

/-- What holds in every run of Hellos and timers. -/
structure Leased (host : Host) (s : Daemon) (now : Int) (last : Addr → Option Greeting) (t : Table) :
    Prop where
  orderly : Orderly s
  models : Models s t
  entries : s.themrt = 0
  calls : ∀ entry ∈ alarms s, GreetingCalls s entry.2
  distinct : ∀ vif, ((t.neighbors vif).map Prod.snd).Nodup
  direct : ∀ vif, ∀ item ∈ t.neighbors vif, findVifDirect host item.2 = vif ∧ vif ≠ 0
  runs : ∀ vif, ∀ item ∈ t.neighbors vif, LeaseRuns s now last item

theorem GreetingCalls.of_leases (leases : ∀ entry, (s'.neighbors.get? entry).map leaseOf =
    (s.neighbors.get? entry).map leaseOf) {func : Callback} (calls : GreetingCalls s func) :
    GreetingCalls s' func := by
  cases func with
  | deletePimNeighbor entry =>
      have same := congrArg Option.isSome (leases entry)
      rw [Option.isSome_map, Option.isSome_map] at same
      exact same.trans calls
  | _ => exact calls

/-- Lists may lose neighbours, timers may be gone or be called later, and timers of other
functions may be set. -/
theorem Leased.narrow (leased : Leased host s now last t) {narrower : Table} (orderly : Orderly s')
    (models : Models s' narrower) (fewer : ∀ vif, (narrower.neighbors vif).Sublist (t.neighbors vif))
    (entries : s'.themrt = s.themrt) (leases : ∀ entry, (s'.neighbors.get? entry).map leaseOf =
      (s.neighbors.get? entry).map leaseOf)
    (calls : ∀ entry ∈ alarms s', entry ∈ alarms s ∨ GreetingCalls s' entry.2)
    (times : ∀ time id entry, (time, id, .deletePimNeighbor entry) ∈ agenda later s' →
      ∃ earlier, earlier ≤ time ∧ (earlier, id, .deletePimNeighbor entry) ∈ agenda now s) :
    Leased host s' later last narrower := by
  refine ⟨orderly, models, entries.trans leased.entries, fun entry member => ?_,
    fun vif => (leased.distinct vif).sublist ((fewer vif).map Prod.snd),
    fun vif item member => leased.direct vif item ((fewer vif).subset member), fun vif item member => ?_⟩
  · rcases calls entry member with old | new
    · exact (leased.calls entry old).of_leases leases
    · exact new
  · obtain ⟨timer, greeting, lease, heard, due⟩ := leased.runs vif item ((fewer vif).subset member)
    refine ⟨timer, greeting, (leases item.1).trans lease, heard, fun time id pending => ?_⟩
    obtain ⟨earlier, before, old⟩ := times time id item.1 pending
    obtain ⟨same, late⟩ := due earlier id old
    exact ⟨same, late.trans before⟩

/-! ## Timers -/

theorem Leased.age (leased : Leased host s now last t) (idle : s.expired = []) (elapsedTime : Nat) :
    Leased host (s.age elapsedTime) (now + elapsedTime) last t := by
  have orderly : Orderly (s.age elapsedTime) := orderly_update (.age elapsedTime) leased.orderly
  have models : Models (s.age elapsedTime) t :=
    leased.models.of_same rfl rfl (fun _ => ⟨rfl, rfl⟩) rfl rfl rfl
  refine leased.narrow orderly models (fun _ => List.Sublist.refl _) rfl (fun _ => rfl)
    (fun entry member => Or.inl ((alarms_age s elapsedTime).subset member)) fun time id entry member => ?_
  rcases agenda_age idle member with waits | ⟨_, earlier, old, before⟩
  · exact ⟨time, Int.le_refl _, waits⟩
  · exact ⟨earlier, before, old⟩

theorem Leased.popExpired (leased : Leased host s now last t) : Leased host s.popExpired now last t := by
  have orderly : Orderly s.popExpired := orderly_update .popExpired leased.orderly
  have models : Models s.popExpired t := leased.models.of_same rfl rfl (fun _ => ⟨rfl, rfl⟩) rfl rfl rfl
  refine leased.narrow orderly models (fun _ => List.Sublist.refl _) rfl (fun _ => rfl)
    (fun entry member => Or.inl ((alarms_popExpired s).subset member)) fun time id entry member => ?_
  exact ⟨time, Int.le_refl _, mem_agenda_of_popExpired member⟩

/-- A new timer of another function. -/
theorem Leased.setTimer (leased : Leased host s now last t) (delay : Int) {action : Callback}
    (harmless : GreetingCalls s action) (other : ∀ entry, action ≠ .deletePimNeighbor entry) :
    Leased host (s.setTimer delay action) now last t := by
  have orderly : Orderly (s.setTimer delay action) := orderly_update (.setTimer delay action) leased.orderly
  have models : Models (s.setTimer delay action) t :=
    leased.models.of_same rfl rfl (fun _ => ⟨rfl, rfl⟩) rfl rfl rfl
  refine leased.narrow orderly models (fun _ => List.Sublist.refl _) rfl (fun _ => rfl)
    (fun entry member => ?_) fun time id entry member => ?_
  · rcases List.mem_cons.mp ((alarms_setTimer s delay action).subset member) with rfl | old
    · exact Or.inr harmless
    · exact Or.inl old
  · rcases mem_agenda_setTimer.mp member with new | old
    · exact absurd (congrArg (fun entry => entry.2.2) new).symm (other entry)
    · exact ⟨time, Int.le_refl _, old⟩

/-- Stores that leave the lists, the records and the timers alone. -/
theorem Leased.frame (leased : Leased host s now last t) (models : Models s' t)
    (entries : s'.themrt = s.themrt) (neighbors : s'.neighbors = s.neighbors) (id : s'.id = s.id)
    (queue : s'.queue = s.queue) (expired : s'.expired = s.expired) : Leased host s' now last t := by
  have pending : alarms s' = alarms s := by
    unfold alarms Daemon.pending
    rw [queue, expired]
  have times : agenda now s' = agenda now s := by
    unfold agenda
    rw [queue, expired]
  have orderly : Orderly s' := leased.orderly.of_sublist id (by rw [pending])
  refine leased.narrow orderly models (fun _ => List.Sublist.refl _) entries (fun _ => by rw [neighbors])
    (fun entry member => Or.inl (pending ▸ member)) fun time id entry member => ?_
  exact ⟨time, Int.le_refl _, times ▸ member⟩

theorem Leased.neutral (leased : Leased host s now last t) {update : Update} (neutral : Neutral update) :
    Leased host (update.apply s) now last t := by
  have same : ∀ {after}, after.themrt = s.themrt → Models after t → after.neighbors = s.neighbors →
      after.id = s.id → after.queue = s.queue → after.expired = s.expired → Leased host after now last t :=
    fun entries models neighbors id queue expired =>
      leased.frame models entries neighbors id queue expired
  cases update with
  | setTimer delay action =>
      cases action with
      | timer => exact leased.setTimer delay trivial fun _ => Callback.noConfusion
      | pimHelloOutput data => exact leased.setTimer delay trivial fun _ => Callback.noConfusion
      | _ => exact neutral.elim
  | sendBuf write => exact same rfl (models_quiet leased.models _ (Level.quiet_le _)) rfl rfl rfl rfl
  | send packet entry => exact same rfl (models_quiet leased.models _ (Level.quiet_le _)) rfl rfl rfl rfl
  | virtualTime seconds => exact same rfl (models_quiet leased.models _ (Level.quiet_le _)) rfl rfl rfl rfl
  | _ => exact neutral.elim

theorem Leased.asks (leased : Leased host s now last t) (vif : Vif) :
    Leased host ((asking s vif).observe
      (.igmp (host.iface vif).address allhosts igmpMembershipQuery 100 0)) now last t := by
  have set := leased.setTimer igmpQueryTime (show GreetingCalls s (.sendQuery vif) from trivial)
    fun _ => Callback.noConfusion
  have heads : ∀ other, ((asking s vif).myvifs other).groups = (s.myvifs other).groups ∧
      ((asking s vif).myvifs other).neighbor = (s.myvifs other).neighbor := by
    intro other
    by_cases here : other = vif
    · rw [here, asking, setMyvif_self]
      exact ⟨rfl, rfl⟩
    · rw [asking, setMyvif_other here]
      exact ⟨rfl, rfl⟩
  have models : Models ((asking s vif).observe
      (.igmp (host.iface vif).address allhosts igmpMembershipQuery 100 0)) t := by
    have asked : Models (asking s vif) t := leased.models.of_same rfl rfl heads rfl rfl rfl
    exact asked.observe _
  exact set.frame models rfl rfl rfl rfl rfl

theorem leased_start (start : Start host s) : Leased host s 0 (fun _ => none) (table s) := by
  have kept : ∃ t, Leased host s 0 (fun _ => none) t := by
    refine start_keeps (P := fun state => ∃ t, Leased host state 0 (fun _ => none) t) ?_ ?_ ?_ start
    · intro pimSendBuf
      have orderly : Orderly (Daemon.blank pimSendBuf) :=
        ⟨fun _ member => (List.not_mem_nil member).elim, List.nodup_nil, Int.le_refl _⟩
      exact ⟨Table.empty, orderly, models_blank pimSendBuf, rfl,
        fun _ member => (List.not_mem_nil member).elim, fun _ => List.nodup_nil,
        fun _ _ member => (List.not_mem_nil member).elim, fun _ _ member => (List.not_mem_nil member).elim⟩
    · rintro update state neutral ⟨t, leased⟩
      exact ⟨t, leased.neutral neutral⟩
    · rintro state vif _ ⟨t, leased⟩
      exact ⟨t, leased.asks vif⟩
  obtain ⟨t, leased⟩ := kept
  rw [leased.models.table_eq]
  exact leased

/-! ## Hellos -/

theorem renew_orderly (orderly : Orderly s) (entry : Ptr) (old holdtime : Int) :
    Orderly (renew s entry old holdtime) :=
  orderly_update (.neighborTimer entry (s.id + 1)) (orderly_update (.setTimer holdtime (.deletePimNeighbor entry))
    (orderly_update (.clearTimer old) (orderly_update (.holdtime entry holdtime) orderly)))

theorem renew_models (models : Models s t) (entry : Ptr) (old holdtime : Int) :
    Models (renew s entry old holdtime) t := by
  have noted := models_quiet models (.holdtime entry holdtime) (Level.quiet_le _)
  have cleared := models_quiet noted (.clearTimer old) (Level.quiet_le _)
  have set := models_quiet cleared (.setTimer holdtime (.deletePimNeighbor entry)) (Level.quiet_le _)
  exact models_quiet set (.neighborTimer entry (s.id + 1)) (Level.quiet_le _)

theorem renew_leases (s : Daemon) (entry : Ptr) (old holdtime : Int) (other : Ptr) :
    ((renew s entry old holdtime).neighbors.get? other).map leaseOf =
      if other = entry then (s.neighbors.get? other).map fun n => (n.address, s.id + 1)
      else (s.neighbors.get? other).map leaseOf := by
  have heap : (renew s entry old holdtime).neighbors = (s.neighbors.modify entry fun n =>
      { n with holdtime := holdtime }).modify entry fun n => { n with timeoutid := s.id + 1 } := by
    unfold renew Daemon.clearTimer
    split <;> rfl
  rw [heap, Heap.get?_modify]
  split
  · rename_i here
    rw [here, Heap.get?_modify_same, Option.map_map, Option.map_map]
    rfl
  · rename_i apart
    rw [Heap.get?_modify, if_neg apart]

theorem mem_agenda_renew (orderly : Orderly s) (idle : s.expired = []) {target : Ptr} {old holdtime : Int}
    {entry : Int × Int × Callback} :
    entry ∈ agenda now (renew s target old holdtime) ↔
      entry = (now + holdtime, s.id + 1, .deletePimNeighbor target) ∨
        entry ∈ agenda now s ∧ entry.2.1 ≠ old := by
  have noted : Orderly (s.setNeighbor target fun n => { n with holdtime := holdtime }) :=
    orderly_update (.holdtime target holdtime) orderly
  have cleared := mem_agenda_clearTimer noted idle now old entry
  have set : entry ∈ agenda now (((s.setNeighbor target fun n => { n with holdtime := holdtime }).clearTimer
      old).setTimer holdtime (.deletePimNeighbor target)) ↔ _ := mem_agenda_setTimer
  rw [clearTimer_id, cleared] at set
  exact set

/-- A neighbour of another address is recorded by another block. -/
theorem Leased.address_ne (leased : Leased host s now last t) {vif other : Vif} {address : Addr}
    {entry : Ptr} (first : (entry, address) ∈ t.neighbors vif) {item : Ptr × Addr}
    (member : item ∈ t.neighbors other) (different : item.1 ≠ entry) : item.2 ≠ address := by
  rintro rfl
  have here := (leased.direct vif _ first).1
  have there := (leased.direct other item member).1
  obtain rfl : vif = other := here.symm.trans there
  have same := List.inj_on_of_nodup_map (leased.distinct vif) member first rfl
  exact different (congrArg Prod.fst same)

theorem GreetingCalls.renewed {func : Callback} (calls : GreetingCalls s func) (entry : Ptr) (old holdtime : Int) :
    GreetingCalls (renew s entry old holdtime) func := by
  cases func with
  | deletePimNeighbor other =>
      have same := congrArg Option.isSome (renew_leases s entry old holdtime other)
      rw [Option.isSome_map, apply_ite Option.isSome, Option.isSome_map, Option.isSome_map, ite_self] at same
      exact same.trans calls
  | _ => exact calls

/-- The record that a Hello renews: the timer noted before is the only one there was, and it is gone. -/
theorem LeaseRuns.renewed {item : Ptr × Addr} (runs : LeaseRuns s now last item) (orderly : Orderly s)
    (idle : s.expired = [])
    {n : PimNeighbor} (record : s.neighbors.get? item.1 = some n) (holdtime : Int) :
    LeaseRuns (renew s item.1 n.timeoutid holdtime) now (Function.update last item.2 (some ⟨now, holdtime⟩)) item := by
  obtain ⟨timer, _, lease, _, due⟩ := runs
  rw [record, Option.map_some, Option.some.injEq] at lease
  have named : n.address = item.2 := congrArg Prod.fst lease
  have noted : n.timeoutid = timer := congrArg Prod.snd lease
  refine ⟨s.id + 1, ⟨now, holdtime⟩, ?_, Function.update_self .., fun time id pending => ?_⟩
  · rw [renew_leases, if_pos rfl, record, Option.map_some, named]
  · rcases (mem_agenda_renew orderly idle).mp pending with new | ⟨old, apart⟩
    · cases new
      exact ⟨rfl, Int.le_refl _⟩
    · exact absurd ((due time id old).1.trans noted.symm) apart

/-- Another record than the one a Hello renews. -/
theorem LeaseRuns.renewed_other {item : Ptr × Addr} (runs : LeaseRuns s now last item) (orderly : Orderly s)
    (idle : s.expired = [])
    {entry : Ptr} {address : Addr} (here : item.1 ≠ entry) (apart : item.2 ≠ address) (old holdtime : Int)
    (greeting : Option Greeting) :
    LeaseRuns (renew s entry old holdtime) now (Function.update last address greeting) item := by
  obtain ⟨timer, found, lease, heard, due⟩ := runs
  refine ⟨timer, found, ?_, ?_, fun time id pending => ?_⟩
  · rw [renew_leases, if_neg here]
    exact lease
  · rw [Function.update_of_ne apart]
    exact heard
  · rcases (mem_agenda_renew orderly idle).mp pending with new | ⟨old, _⟩
    · have func := congrArg (fun alarm => alarm.2.2) new
      exact absurd (Callback.deletePimNeighbor.inj func) here
    · exact due time id old

theorem Leased.renewed (leased : Leased host s now last t) (idle : s.expired = []) {vif : Vif} {entry : Ptr}
    {address : Addr} {n : PimNeighbor} (member : (entry, address) ∈ t.neighbors vif)
    (record : s.neighbors.get? entry = some n) (holdtime : Int) :
    Leased host (renew s entry n.timeoutid holdtime) now
      (Function.update last address (some ⟨now, holdtime⟩)) t := by
  refine ⟨renew_orderly leased.orderly entry _ holdtime, renew_models leased.models entry _ holdtime, ?_,
    fun alarm pending => ?_, leased.distinct, leased.direct, fun other item inside => ?_⟩
  · have same : (renew s entry n.timeoutid holdtime).themrt = s.themrt := by
      unfold renew Daemon.clearTimer
      split <;> rfl
    exact same.trans leased.entries
  · obtain ⟨time, again⟩ := agenda_of_mem_alarms now pending
    rcases (mem_agenda_renew leased.orderly idle).mp again with new | ⟨old, _⟩
    · have called : GreetingCalls s (.deletePimNeighbor entry) := by
        rw [GreetingCalls, record]
        rfl
      cases new
      exact called.renewed entry _ holdtime
    · exact (leased.calls alarm (mem_alarms_of_agenda old)).renewed entry _ holdtime
  · by_cases here : item.1 = entry
    · have same : item.2 = address := by
        obtain ⟨block, found, shown⟩ := (leased.models.neighbors other).found inside
        obtain ⟨_, again, named⟩ := (leased.models.neighbors vif).found member
        rw [here] at found
        obtain rfl := Option.some.inj (found.symm.trans again)
        exact shown.symm.trans named
      obtain rfl : item = (entry, address) := Prod.ext here same
      exact (leased.runs other _ inside).renewed leased.orderly idle record holdtime
    · have apart := leased.address_ne member inside here
      exact (leased.runs other item inside).renewed_other leased.orderly idle here apart _ holdtime _

theorem mem_agenda_admit {vif : Vif} {src : Addr} {holdtime : Int} {entry : Int × Int × Callback} :
    entry ∈ agenda now (enrol s vif src holdtime) ↔
      entry = (now + holdtime, s.id + 1, .deletePimNeighbor s.neighbors.fresh) ∨ entry ∈ agenda now s := by
  have set : entry ∈ agenda now (s.setTimer holdtime (.deletePimNeighbor s.neighbors.fresh)) ↔ _ :=
    mem_agenda_setTimer
  exact set

theorem enrol_get? (s : Daemon) (vif : Vif) (src : Addr) (holdtime : Int) (other : Ptr) :
    (enrol s vif src holdtime).neighbors.get? other =
      if other = s.neighbors.fresh then some ⟨(s.myvifs vif).neighbor, src, holdtime, s.id + 1⟩
      else s.neighbors.get? other :=
  Heap.get?_alloc s.neighbors _ other

theorem GreetingCalls.enrolled {func : Callback} (calls : GreetingCalls s func) (vif : Vif) (src : Addr)
    (holdtime : Int) : GreetingCalls (enrol s vif src holdtime) func := by
  cases func with
  | deletePimNeighbor other =>
      obtain ⟨n, found⟩ := Option.isSome_iff_exists.mp calls
      rw [GreetingCalls, enrol_get?, if_neg (Heap.ne_fresh_of_get? found)]
      exact calls
  | _ => exact calls

/-- The record of a new neighbour: no timer was set for a block that is only now allocated. -/
theorem Leased.runs_new (leased : Leased host s now last t) (vif : Vif) (src : Addr) (holdtime : Int) :
    LeaseRuns (enrol s vif src holdtime) now (Function.update last src (some ⟨now, holdtime⟩))
      (s.neighbors.fresh, src) := by
  refine ⟨s.id + 1, ⟨now, holdtime⟩, ?_, Function.update_self .., fun time id pending => ?_⟩
  · rw [enrol_get?, if_pos rfl]
    rfl
  · rcases mem_agenda_admit.mp pending with new | old
    · cases new
      exact ⟨rfl, Int.le_refl _⟩
    · have calls : (s.neighbors.get? s.neighbors.fresh).isSome = true :=
        leased.calls _ (mem_alarms_of_agenda old)
      rw [Heap.get?_fresh] at calls
      cases calls

/-- The record of another neighbour. -/
theorem LeaseRuns.enrolled_other {item : Ptr × Addr} (runs : LeaseRuns s now last item) {src : Addr}
    (allocated : item.1 ≠ s.neighbors.fresh) (apart : item.2 ≠ src) (vif : Vif) (holdtime : Int)
    (greeting : Option Greeting) :
    LeaseRuns (enrol s vif src holdtime) now (Function.update last src greeting) item := by
  obtain ⟨timer, found, lease, heard, due⟩ := runs
  refine ⟨timer, found, ?_, ?_, fun time id pending => ?_⟩
  · rw [enrol_get?, if_neg allocated]
    exact lease
  · rw [Function.update_of_ne apart]
    exact heard
  · rcases mem_agenda_admit.mp pending with new | old
    · have func := congrArg (fun alarm => alarm.2.2) new
      exact absurd (Callback.deletePimNeighbor.inj func) allocated
    · exact due time id old

/-- Who is in the lists after a neighbour was added. -/
theorem Leased.members_added (leased : Leased host s now last t) {vif other : Vif} {src : Addr} {fresh : Ptr}
    (here : findVifDirect host src = vif) (unknown : ∀ item ∈ t.neighbors vif, item.2 ≠ src) {item : Ptr × Addr}
    (inside : item ∈ (t.setNeighbors vif ((fresh, src) :: t.neighbors vif)).neighbors other) :
    (other = vif ∧ item = (fresh, src)) ∨ item ∈ t.neighbors other ∧ item.2 ≠ src := by
  by_cases same : other = vif
  · rw [same, Table.neighbors_set_self] at inside
    rcases List.mem_cons.mp inside with new | old
    · exact Or.inl ⟨same, new⟩
    · exact Or.inr ⟨same ▸ old, unknown item old⟩
  · rw [Table.neighbors_set_other same] at inside
    refine Or.inr ⟨inside, ?_⟩
    rintro rfl
    exact same ((leased.direct other item inside).1.symm.trans here)

theorem Leased.admitted (leased : Leased host s now last t) {vif : Vif} {src : Addr}
    (here : findVifDirect host src = vif) (nonzero : vif ≠ 0)
    (unknown : ∀ item ∈ t.neighbors vif, item.2 ≠ src) (holdtime : Int) :
    Leased host (enrol s vif src holdtime) now (Function.update last src (some ⟨now, holdtime⟩))
      (t.setNeighbors vif ((s.neighbors.fresh, src) :: t.neighbors vif)) := by
  have timed : Models (s.setTimer holdtime (.deletePimNeighbor s.neighbors.fresh)) t :=
    models_quiet leased.models (.setTimer holdtime _) (Level.quiet_le _)
  have set : Orderly (s.setTimer holdtime (.deletePimNeighbor s.neighbors.fresh)) :=
    orderly_update (.setTimer holdtime _) leased.orderly
  refine ⟨⟨set.bounds, set.distinct, set.started⟩, timed.linkNeighbor vif rfl, leased.entries,
    fun alarm pending => ?_, fun other => ?_, fun other item inside => ?_, fun other item inside => ?_⟩
  · rcases List.mem_cons.mp ((alarms_setTimer s holdtime _).subset pending) with rfl | old
    · show ((enrol s vif src holdtime).neighbors.get? s.neighbors.fresh).isSome = true
      rw [enrol_get?, if_pos rfl]
      rfl
    · exact (leased.calls alarm old).enrolled vif src holdtime
  · by_cases same : other = vif
    · rw [same, Table.neighbors_set_self]
      refine List.nodup_cons.mpr ⟨fun inside => ?_, leased.distinct vif⟩
      obtain ⟨item, member, address⟩ := List.mem_map.mp inside
      exact unknown item member address
    · rw [Table.neighbors_set_other same]
      exact leased.distinct other
  · rcases leased.members_added here unknown inside with ⟨rfl, rfl⟩ | ⟨old, _⟩
    · exact ⟨here, nonzero⟩
    · exact leased.direct other item old
  · rcases leased.members_added here unknown inside with ⟨rfl, rfl⟩ | ⟨old, apart⟩
    · exact leased.runs_new other src holdtime
    · obtain ⟨n, found, _⟩ := (leased.models.neighbors other).found old
      exact (leased.runs other item old).enrolled_other (Heap.ne_fresh_of_get? found) apart vif holdtime _

/-! ## Steps -/

theorem isNeighbor_iff (models : Models s t) {vif : Vif} {address : Addr} :
    IsNeighbor s vif address ↔ ∃ item ∈ t.neighbors vif, item.2 = address := by
  rw [IsNeighbor, models.table_eq, List.mem_map]

/-- One neighbour leaves its list. -/
theorem Leased.unlinked (leased : Leased host s now last t) {vif : Vif} {address : Addr} {gone : Ptr}
    {ahead behind : List (Ptr × Addr)} (split : t.neighbors vif = ahead ++ (gone, address) :: behind)
    (relinked : Relinked s s') (models : Models s' (t.setNeighbors vif (ahead ++ behind))) :
    Leased host s' now last (t.setNeighbors vif (ahead ++ behind)) ∧
      ∀ other name, IsNeighbor s' other name ↔ IsNeighbor s other name ∧ name ≠ address := by
  have pending : alarms s' = alarms s := by
    unfold alarms Daemon.pending
    rw [relinked.queue, relinked.expired]
  have times : agenda now s' = agenda now s := by
    unfold agenda
    rw [relinked.queue, relinked.expired]
  have fewer : ∀ other, ((t.setNeighbors vif (ahead ++ behind)).neighbors other).Sublist (t.neighbors other) := by
    intro other
    by_cases same : other = vif
    · rw [same, Table.neighbors_set_self, split]
      exact sublist_without
    · rw [Table.neighbors_set_other same]
  have orderly : Orderly s' := leased.orderly.of_sublist relinked.id (by rw [pending])
  have member : (gone, address) ∈ t.neighbors vif := by
    rw [split]
    exact List.mem_append_right _ (List.mem_cons_self ..)
  refine ⟨leased.narrow orderly models fewer relinked.themrt relinked.leases
    (fun alarm member => Or.inl (pending ▸ member)) fun time id other member => ?_, fun other name => ?_⟩
  · exact ⟨time, Int.le_refl _, times ▸ member⟩
  rw [isNeighbor_iff models, isNeighbor_iff leased.models]
  constructor
  · rintro ⟨item, inside, rfl⟩
    refine ⟨⟨item, (fewer other).subset inside, rfl⟩, fun same => ?_⟩
    have direct := (leased.direct other item ((fewer other).subset inside)).1
    obtain rfl : other = vif := by
      rw [same] at direct
      exact direct.symm.trans (leased.direct vif _ member).1
    rw [Table.neighbors_set_self] at inside
    have distinct := leased.distinct other
    rw [split] at distinct
    exact apart_of_nodup distinct item inside same
  · rintro ⟨⟨item, inside, rfl⟩, apart⟩
    refine ⟨item, ?_, rfl⟩
    by_cases same : other = vif
    · rw [same, split] at inside
      rw [same, Table.neighbors_set_self]
      rcases List.mem_append.mp inside with front | back
      · exact List.mem_append_left _ front
      · rcases List.mem_cons.mp back with rfl | back
        · exact absurd rfl apart
        · exact List.mem_append_right _ back
    · rw [Table.neighbors_set_other same]
      exact inside

/-- A neighbour is gone after an event only if it said so or its hold time has run out, and one
that said so is gone. -/
structure Outlives (s : Daemon) (now : Int) (last : Addr → Option Greeting) (event : Event) (s' : Daemon) :
    Prop where
  held : ∀ vif address, IsNeighbor s vif address → ¬ IsNeighbor s' vif address →
    Goodbye event address ∨
      ∃ greeting, last address = some greeting ∧ greeting.time + greeting.holdtime ≤ now
  left : ∀ address, Goodbye event address → ∀ vif, ¬ IsNeighbor s' vif address

/-- The lists are as they were. -/
theorem Outlives.of_same {event : Event} (before : Models s t) (after : Models s' t)
    (left : ∀ address, Goodbye event address → ∀ vif, ∀ item ∈ t.neighbors vif, item.2 ≠ address) :
    Outlives s now last event s' := by
  refine ⟨fun vif address listed gone => ?_, fun address goodbye vif listed => ?_⟩
  · exact absurd ((isNeighbor_iff after).mpr ((isNeighbor_iff before).mp listed)) gone
  · obtain ⟨item, member, same⟩ := (isNeighbor_iff after).mp listed
    exact left address goodbye vif item member same

/-- No neighbour is lost. -/
theorem Outlives.of_more {event : Event} (more : ∀ vif address, IsNeighbor s vif address → IsNeighbor s' vif address)
    (silent : ∀ address, ¬ Goodbye event address) : Outlives s now last event s' := by
  refine ⟨fun vif address listed gone => ?_, fun address goodbye => ?_⟩
  · exact absurd (more vif address listed) gone
  · exact absurd goodbye (silent address)

/-- One neighbour is lost, for a reason. -/
theorem Outlives.of_unlinked {event : Event} {gone : Addr}
    (lists : ∀ vif address, IsNeighbor s' vif address ↔ IsNeighbor s vif address ∧ address ≠ gone)
    (why : Goodbye event gone ∨ ∃ greeting, last gone = some greeting ∧ greeting.time + greeting.holdtime ≤ now)
    (only : ∀ address, Goodbye event address → address = gone) : Outlives s now last event s' := by
  refine ⟨fun vif address listed left => ?_, fun address goodbye vif listed => ?_⟩
  · have here : address = gone := by
      by_contra apart
      exact left ((lists vif address).mpr ⟨listed, apart⟩)
    rw [here]
    exact why
  · exact ((lists vif address).mp listed).2 (only address goodbye)

/-- A Hello of a router that is in no list. -/
theorem Leased.unlisted (leased : Leased host s now last t) {src : Addr}
    (none : ∀ vif, ∀ item ∈ t.neighbors vif, item.2 ≠ src) (greeting : Greeting) :
    Leased host s now (Function.update last src (some greeting)) t := by
  refine { leased with runs := fun vif item member => ?_ }
  obtain ⟨timer, found, lease, heard, due⟩ := leased.runs vif item member
  refine ⟨timer, found, lease, ?_, due⟩
  rw [Function.update_of_ne (none vif item member)]
  exact heard

/-- A record more on one interface. -/
theorem isNeighbor_added (before : Models s t) {vif : Vif} {item : Ptr × Addr}
    (after : Models s' (t.setNeighbors vif (item :: t.neighbors vif))) {other : Vif} {address : Addr}
    (listed : IsNeighbor s other address) : IsNeighbor s' other address := by
  obtain ⟨entry, member, same⟩ := (isNeighbor_iff before).mp listed
  refine (isNeighbor_iff after).mpr ⟨entry, ?_, same⟩
  by_cases here : other = vif
  · subst here
    rw [Table.neighbors_set_self]
    exact List.mem_cons_of_mem _ member
  · rw [Table.neighbors_set_other here]
    exact member

theorem hello_outlives (leased : Leased host s now last t) (idle : s.expired = []) {src : Addr}
    {data : Memory} {length : Int} (parts : Parts host s (.pimInput .hello src data length))
    (run : Runs (receiveHello host src data length) s () s')
    (readable : ∃ holdtime ∈ holdtimeOf data length, 0 ≤ holdtime) :
    (∃ t', Leased host s' now (recordHello now (.pimInput .hello src data length) last) t') ∧
      Outlives s now last (.pimInput .hello src data length) s' := by
  obtain ⟨holdtime, parsed, _⟩ := readable
  have noted : recordHello now (.pimInput .hello src data length) last =
      Function.update last src (some ⟨now, holdtime⟩) := by
    rw [recordHello, Option.mem_def.mp parsed]
  have goodbye : ∀ {address}, Goodbye (.pimInput .hello src data length) address →
      address = src ∧ holdtime = 0 := by
    rintro address ⟨_, _, same, zero⟩
    cases same
    exact ⟨rfl, Option.some.inj ((Option.mem_def.mp parsed).symm.trans zero)⟩
  rw [noted]
  obtain ⟨_, ⟨indirect, rfl⟩ | ⟨direct, again, reparsed, greets⟩⟩ :=
    receiveHello_greets leased.models leased.entries run
  · have none : ∀ vif, ∀ item ∈ t.neighbors vif, item.2 ≠ src := by
      rintro vif item member rfl
      obtain ⟨same, nonzero⟩ := leased.direct vif item member
      exact nonzero (same.symm.trans indirect)
    refine ⟨⟨t, leased.unlisted none _⟩, .of_same leased.models leased.models fun address said => ?_⟩
    rw [(goodbye said).1]
    exact none
  have same : holdtime = again := by
    rw [holdtimeOf, reparsed] at parsed
    exact (Option.some.inj parsed).symm
  subst same
  cases greets with
  | leaves known zero expels =>
      rename_i entry
      have member := List.mem_of_find?_eq_some known
      obtain ⟨n, record, rfl⟩ := (leased.models.neighbors _).found member
      cases expels with
      | absent found none =>
          obtain rfl := Option.some.inj (record.symm.trans found)
          rcases none with indirect | none
          · exact absurd indirect direct
          · exact absurd rfl (none _ member)
      | unlinks found _ split before relinked models =>
          obtain rfl := Option.some.inj (record.symm.trans found)
          obtain ⟨kept, lists⟩ := leased.unlinked split relinked models
          have noted := kept.unlisted (fun vif item inside =>
            ((lists vif item.2).mp ((isNeighbor_iff models).mpr ⟨item, inside, rfl⟩)).2) ⟨now, holdtime⟩
          have said : Goodbye (.pimInput .hello n.address data length) n.address :=
            ⟨data, length, rfl, by rw [← zero]; exact parsed⟩
          exact ⟨⟨_, noted⟩, .of_unlinked lists (Or.inl said) fun address also => (goodbye also).1⟩
  | stays known record nonzero =>
      have member := List.mem_of_find?_eq_some known
      have kept := leased.renewed idle member record holdtime
      refine ⟨⟨t, kept⟩, .of_same leased.models kept.models fun address said => ?_⟩
      exact absurd (goodbye said).2 nonzero
  | joins unknown =>
      have kept := leased.admitted rfl direct unknown holdtime
      refine ⟨⟨_, kept⟩, .of_more (fun vif address => isNeighbor_added leased.models kept.models) ?_⟩
      intro address said
      obtain ⟨_, rfl⟩ := goodbye said
      have listed := (parts (Option.mem_def.mp parsed) direct).1
      obtain ⟨item, member, same⟩ := (isNeighbor_iff leased.models).mp listed
      exact unknown item member same

/-- The record whose timer is at the head of the batch. -/
theorem mem_recordCalled {pktcnt : Int} {ptr : TimeoutQ} {rest : List TimeoutQ} (batch : s.expired = ptr :: rest)
    {entry : Ptr} (func : ptr.func = .deletePimNeighbor entry) : entry ∈ recordCalled s (.expire pktcnt) := by
  have calls : called s (.expire pktcnt) = some ptr.func := by
    rw [called, batch]
    rfl
  rw [recordCalled, calls, func]
  rfl

/-- The timer of the record that leaves is called now, itself or in the same batch, so its hold
time has run out. -/
theorem Leased.due (leased : Leased host s now last t) {ptr : TimeoutQ} {rest : List TimeoutQ}
    (batch : s.expired = ptr :: rest) {entry gone : Ptr} (func : ptr.func = .deletePimNeighbor entry)
    (listed : gone = entry ∨ ∃ other ∈ s.expired, other.func = .deletePimNeighbor gone) {vif : Vif} {address : Addr}
    (member : (gone, address) ∈ t.neighbors vif) :
    ∃ greeting, last address = some greeting ∧ greeting.time + greeting.holdtime ≤ now := by
  have batched : ∃ other ∈ s.expired, other.func = .deletePimNeighbor gone := by
    rcases listed with rfl | later
    · exact ⟨ptr, by rw [batch]; exact List.mem_cons_self, func⟩
    · exact later
  obtain ⟨other, inside, same⟩ := batched
  have pending : (now, other.id, .deletePimNeighbor gone) ∈ agenda now s := by
    refine List.mem_append_left _ (List.mem_map.mpr ⟨other, inside, ?_⟩)
    rw [alarm, same]
  obtain ⟨_, greeting, _, heard, late⟩ := leased.runs vif _ member
  exact ⟨greeting, heard, (late now other.id pending).2⟩

theorem expire_outlives (leased : Leased host s now last t) {pktcnt : Int}
    (parts : Parts host s (.expire pktcnt)) (run : Runs (handle host (.expire pktcnt)) s () s') :
    (∃ t', Leased host s' now last t') ∧ Outlives s now last (.expire pktcnt) s' := by
  have silent : ∀ address, ¬ Goodbye (.expire pktcnt) address := by
    rintro address ⟨_, _, same, _⟩
    cases same
  -- A timer of another function leaves the lists alone.
  have same : Leased host s' now last t →
      (∃ t', Leased host s' now last t') ∧ Outlives s now last (.expire pktcnt) s' := fun kept =>
    ⟨⟨t, kept⟩, .of_same leased.models kept.models fun address said => absurd said (silent address)⟩
  rcases runs_expire run with ⟨_, rfl⟩ | ⟨func, calls, call⟩
  · exact same leased
  obtain ⟨ptr, rest, batch, rfl⟩ := called_batch calls
  have start := leased.popExpired
  have may : GreetingCalls s ptr.func :=
    leased.calls (alarm ptr) (alarm_mem_of_batch batch)
  have neutral : Within (Does Update.apply Neutral) (callFunc host pktcnt ptr.func) → Leased host s' now last t :=
    fun quiet => neutral_keeps (P := fun state => Leased host state now last t) quiet
      (fun _ _ inside so_far => so_far.neutral inside) call start
  cases func : ptr.func with
  | timer =>
      rw [func] at neutral
      exact same (neutral timer_neutral)
  | pimHelloOutput data =>
      rw [func] at neutral
      exact same (neutral (pimHelloOutput_neutral data))
  | sendQuery vif =>
      rw [func] at call
      obtain rfl := runs_startQuerying.mp call
      exact same (start.asks vif)
  | deletePimNeighbor entry =>
      rw [func] at call
      cases deletePimNeighbor_expels start.models start.entries call with
      | absent record none => exact ⟨⟨t, start⟩, .of_same leased.models start.models fun address said =>
          absurd said (silent address)⟩
      | unlinks record direct split before relinked models =>
          rename_i n ahead behind gone
          obtain ⟨kept, lists⟩ := start.unlinked split relinked models
          have first : gone ∈ recordOf s (findVifDirect host n.address) n.address := by
            rw [recordOf, leased.models.table_eq, split]
            have found : (ahead ++ (gone, n.address) :: behind).find? (fun item => item.2 == n.address) =
                some (gone, n.address) :=
              find?_split (fun item member => beq_eq_false_iff_ne.mpr (before item member)) (beq_self_eq_true _)
            rw [found]
            rfl
          have member : (gone, n.address) ∈ t.neighbors (findVifDirect host n.address) := by
            rw [split]
            exact List.mem_append_right _ List.mem_cons_self
          have finds := (parts entry (mem_recordCalled batch func) n record gone first).2
          have ended := leased.due batch func finds member
          exact ⟨⟨_, kept⟩, .of_unlinked lists (Or.inr ended) fun address said => absurd said (silent address)⟩
  | _ =>
      rw [func] at may
      exact may.elim

theorem step_outlives (leased : Leased host s now last t) {event : Event} (hello : HelloOrTimer event)
    (parts : Parts host s event) (taken : Step host s event s') :
    (∃ t', Leased host s' (now + Event.seconds event) (recordHello now event last) t') ∧
      Outlives s now last event s' := by
  cases event with
  | pimInput type src data length =>
      cases type with
      | hello =>
          have steps := hello_outlives leased (idle_of_enabled rfl taken.1) parts taken.2 hello
          have still : now + ((Event.seconds (.pimInput .hello src data length) : Nat) : Int) = now :=
            Int.add_zero now
          rw [still]
          exact steps
      | _ => exact hello.elim
  | age elapsedTime =>
      obtain rfl := runs_modify.mp taken.2
      have kept := leased.age (idle_of_enabled rfl taken.1) elapsedTime
      refine ⟨⟨t, kept⟩, .of_same leased.models kept.models ?_⟩
      rintro address ⟨_, _, same, _⟩
      cases same
  | expire pktcnt =>
      have steps := expire_outlives leased parts taken.2
      have still : now + ((Event.seconds (.expire pktcnt) : Nat) : Int) = now := Int.add_zero now
      rw [still]
      exact steps
  | _ => exact hello.elim

/-! ## Faults -/

theorem callFunc_spares {pktcnt : Int} {func : Callback} (other : ∀ entry, func ≠ .deletePimNeighbor entry)
    (may : GreetingCalls s func) : Spares .uninitialised (callFunc host pktcnt func) := by
  cases func with
  | timer =>
      exact spares_bind (spares_modify _) fun _ => spares_bind (spares_timerSetTimer _ _) fun _ => spares_pure _
  | pimHelloOutput data =>
      refine spares_bind (spares_modify _) fun _ => spares_bind ?_ fun _ => spares_bind (spares_modify _) fun _ => ?_
      · exact spares_onlyIf fun _ => spares_bind (spares_timerSetTimer _ _) fun _ => spares_pure _
      · exact spares_bind spares_get fun _ => spares_modify _
  | sendQuery vif =>
      exact spares_bind (spares_timerSetTimer _ _) fun _ => spares_bind (spares_modify _) fun _ => spares_modify _
  | deletePimNeighbor entry => exact absurd rfl (other entry)
  | _ => exact may.elim

/-- The removal of a record that is not the first of its list. -/
theorem Leased.deletes (leased : Leased host s now last t) {entry : Ptr} {n : PimNeighbor}
    (record : s.neighbors.get? entry = some n) (finds : FindsItself host s entry) :
    ¬ Fails (deletePimNeighbor host entry) s.popExpired .uninitialised := by
  intro fails
  have start := leased.popExpired
  obtain ⟨_, first⟩ := deletePimNeighbor_fails start.models start.entries record fails
  cases list : t.neighbors (findVifDirect host n.address) with
  | nil =>
      rw [list] at first
      cases first
  | cons item behind =>
      rw [list] at first
      have same : item.2 = n.address := Option.some.inj first
      have found : item.1 ∈ recordOf s (findVifDirect host n.address) n.address := by
        rw [recordOf, leased.models.table_eq, list, List.find?_cons_of_pos (by simp [same])]
        rfl
      have apart := (finds n record item.1 found).1
      rw [NotFirst, leased.models.table_eq, list] at apart
      exact apart first

theorem handle_spares (leased : Leased host s now last t) {event : Event} (hello : HelloOrTimer event)
    (parts : Parts host s event) : ¬ Fails (handle host event) s .uninitialised := by
  intro fails
  cases event with
  | pimInput type src data length =>
      cases type with
      | hello =>
          obtain ⟨direct, parsed, first⟩ := receiveHello_fails leased.models leased.entries fails
          have zero : holdtimeOf data length = some 0 := by
            rw [holdtimeOf, parsed]
            rfl
          have apart := (parts zero direct).2
          rw [NotFirst, leased.models.table_eq] at apart
          exact apart first
      | _ => exact hello.elim
  | age elapsedTime => exact fails_modify fails
  | expire pktcnt =>
      unfold handle callNext at fails
      rw [fails_get_bind] at fails
      cases batch : s.expired with
      | nil =>
          rw [batch] at fails
          exact fails_pure fails
      | cons ptr rest =>
          rw [batch] at fails
          rcases fails_bind.mp fails with early | ⟨_, _, pop, call⟩
          · exact fails_modify early
          obtain rfl := runs_modify.mp pop
          have may : GreetingCalls s ptr.func :=
            leased.calls (alarm ptr) (alarm_mem_of_batch batch)
          by_cases expiry : ∃ entry, ptr.func = .deletePimNeighbor entry
          · obtain ⟨entry, func⟩ := expiry
            rw [func] at may call
            obtain ⟨n, record⟩ := Option.isSome_iff_exists.mp may
            exact leased.deletes record (parts entry (mem_recordCalled batch func)) call
          · exact callFunc_spares (fun entry func => expiry ⟨entry, func⟩) may _ call
  | _ => exact hello.elim

/-! ## Runs -/

/-- Hellos and timers under which no record but the one meant leaves its list. -/
def PartingHellos (host : Host) (before : Daemon × Timed (Addr → Option Greeting)) (event : Event) : Prop :=
  HelloOrTimer event ∧ Parts host before.1 event

instance (host : Host) (before : Daemon × Timed (Addr → Option Greeting)) (event : Event) :
    Decidable (PartingHellos host before event) := inferInstanceAs (Decidable (_ ∧ _))

theorem reachable_leased {reached : Daemon × Timed (Addr → Option Greeting)}
    (run : ReachableWith host (onClock recordHello) ⟨0, fun _ => none⟩ (PartingHellos host) reached) :
    ∃ t, Leased host reached.1 reached.2.now reached.2.seen t := by
  obtain ⟨start, started, steps⟩ := run
  refine steps.keeps (P := fun state => ∃ t, Leased host state.1 state.2.now state.2.seen t)
    ⟨_, leased_start started⟩ ?_
  rintro before event after ⟨t, leased⟩ may taken
  rw [taken.2]
  exact (step_outlives leased may.1 may.2 taken.1).1

/-- A neighbour outlives the hold time of its last Hello unless it says goodbye, and no event uses
a pointer that is not set. -/
theorem neighbor_outlives_holdtime {before : Daemon × Timed (Addr → Option Greeting)} {event : Event}
    (run : ReachableWith host (onClock recordHello) ⟨0, fun _ => none⟩ (PartingHellos host) before)
    (may : PartingHellos host before event) :
    ¬ Fails (handle host event) before.1 .uninitialised ∧
      ∀ after, Step host before.1 event after →
        Outlives before.1 before.2.now before.2.seen event after := by
  obtain ⟨t, leased⟩ := reachable_leased run
  refine ⟨handle_spares leased may.1 may.2, fun after taken => ?_⟩
  exact (step_outlives leased may.1 may.2 taken).2

/-- 10.0.1.2 and 10.0.1.3 are neighbours, and the first to be heard says goodbye. -/
theorem neighbor_outlives_holdtime_session :
    ∃ before after : Daemon × Timed (Addr → Option Greeting),
      ReachableWith loneRouter (onClock recordHello) ⟨0, fun _ => none⟩ (PartingHellos loneRouter) before ∧
      PartingHellos loneRouter before (helloFrom (stationOn 1 2) 0) ∧
      Step loneRouter before.1 (helloFrom (stationOn 1 2) 0) after.1 ∧
      ¬ Fails (handle loneRouter (helloFrom (stationOn 1 2) 0)) before.1 .uninitialised ∧
      Outlives before.1 before.2.now before.2.seen (helloFrom (stationOn 1 2) 0) after.1 := by
  have passed : endsWithEvent loneRouter (onClock recordHello) (PartingHellos loneRouter) ⟨0, fun _ => none⟩
      [helloFrom (stationOn 1 2) 100, helloFrom (stationOn 1 3) 100, .age 5, .expire 0]
      (helloFrom (stationOn 1 2) 0) (fun _ _ => true) = true := by
    decide +kernel
  obtain ⟨before, after, run, may, taken, _⟩ := step_of_endsWithEvent passed
  obtain ⟨spared, outlives⟩ := neighbor_outlives_holdtime run may
  exact ⟨before, after, run, may, taken.1, spared, outlives after.1 taken.1⟩

/-- 10.0.1.2 says goodbye and is announced again for 1000 seconds.  After 100 seconds the timer of
its first record takes it out of the list. -/
theorem neighbor_misses_holdtime :
    ¬ ∀ (host : Host) (before after : Daemon × Timed (Addr → Option Greeting)) (event : Event),
      ReachableWith host (onClock recordHello) ⟨0, fun _ => none⟩ (fun _ event => HelloOrTimer event) before →
        HelloOrTimer event → Step host before.1 event after.1 →
          Outlives before.1 before.2.now before.2.seen event after.1 := by
  intro always
  have passed : endsWithEvent loneRouter (onClock recordHello) (fun _ event => HelloOrTimer event)
      ⟨0, fun _ => none⟩
      [helloFrom (stationOn 1 2) 100, helloFrom (stationOn 1 3) 1000, helloFrom (stationOn 1 2) 0,
        helloFrom (stationOn 1 2) 1000, helloFrom (stationOn 1 5) 1000, .age 100, .expire 0, .expire 0,
        .expire 0]
      (.expire 0) (fun before after => decide (IsNeighbor before.1 1 (stationOn 1 2) ∧
        ¬ IsNeighbor after.1 1 (stationOn 1 2) ∧
        before.2.seen (stationOn 1 2) = some ⟨0, 1000⟩ ∧ before.2.now = 100)) = true := by
    decide +kernel
  obtain ⟨before, after, run, may, taken, lost⟩ := step_of_endsWithEvent passed
  obtain ⟨listed, gone, heard, time⟩ := of_decide_eq_true lost
  rcases (always loneRouter before after _ run may taken.1).held 1 _ listed gone with said | ⟨greeting, known, past⟩
  · obtain ⟨_, _, same, _⟩ := said
    cases same
  · rw [heard] at known
    cases known
    rw [time] at past
    exact absurd past (by decide)

end PimDm.Property
