import PimDm.Foundation.Tickets
import PimDm.Refinement.Lists
import PimDm.Refinement.Roles
import PimDm.Effect.Agenda

/-!
# Whose timers the ids in the records name

The daemon keeps the id of a timer in the record the timer is about, and clears timers by these
ids.  Fields keep their ids after the timers have run, and some are overwritten while their
timers are still pending.  An id still never names the timer of another record or purpose, so
no handler clears a timer that is not its own.
-/

namespace PimDm.Refinement

open PimDm.Foundation PimDm.Source PimDm.Effect PimDm.Routing

variable {s s' : Daemon} {A B : Callback → Prop}

/-- The id names a timer that calls a function in `A`, as long as that is pending. -/
abbrev Ticket (s : Daemon) (timer : Int) (A : Callback → Prop) : Prop :=
  StandsFor (alarms s) s.id timer A

/-- The expiry of a prune of this entry on this interface. -/
def RestoresOn (source group : Addr) (vif : Vif) (func : Callback) : Prop :=
  ∃ data, func = .pruneTimeOut data ∧ data.source = source ∧ data.group = group ∧ data.vif = vif

/-- A delayed prune of this entry on this interface, or the wait of the loser of an Assert. -/
def HoldsOff (source group : Addr) (vif : Vif) (func : Callback) : Prop :=
  (∃ data, func = .setPrune data ∧ data.source = source ∧ data.group = group ∧ data.vif = vif) ∨
    func = .activeForward vif

/-- The ids of a routing entry. -/
structure OwnsTimers (s : Daemon) (mymrt : Ptr) (e : Mrt) : Prop where
  join : Ticket s e.joinDelayTimerId fun func => ∃ dst, func = .sendJoin ⟨e.source, e.group, dst⟩
  prune : ∀ vif, Ticket s (e.pruneTimerId vif) (RestoresOn e.source e.group vif)
  pruneDelay : ∀ vif, Ticket s (e.pruneDelayTimerId vif) (HoldsOff e.source e.group vif)
  graft : Ticket s e.graftTimerId (· = .planGraft mymrt)
  timeout : Ticket s e.timeoutId (· = .handleSgTimeout e.source e.group)
  check : Ticket s e.checkTimerid (· = .checkSg e.source e.group)

/-- Every id in a record names the timer of that record, and the record a timer points to is there. -/
structure Owned (s : Daemon) : Prop where
  orderly : Orderly s
  entries : ∀ mymrt e, s.mrts.get? mymrt = some e → OwnsTimers s mymrt e
  neighbors : ∀ entry n, s.neighbors.get? entry = some n → Ticket s n.timeoutid (· = .deletePimNeighbor entry)
  queries : ∀ vif, Ticket s (s.myvifs vif).igmpQuerytimerId (· = .sendQuery vif)
  retries : ∀ vif, Ticket s (s.myvifs vif).querierRetryId (· = .retryQuery vif)
  members : ∀ vif, s.groups.Shows IgmpGroup.next IgmpGroup.address (s.myvifs vif).groups ((table s).members vif)
  apart : Apart (table s).members
  leaves : ∀ vif, ∀ item ∈ (table s).members vif, ∀ g, s.groups.get? item.1 = some g →
    Ticket s g.leaveQuery (· = .leaveQuery vif item.2)
  grafts : ∀ timer mymrt, (timer, .planGraft mymrt) ∈ alarms s → ∃ e, s.mrts.get? mymrt = some e
  expiries : ∀ timer entry, (timer, .deletePimNeighbor entry) ∈ alarms s → ∃ n, s.neighbors.get? entry = some n

/-- Ids stay with their records, and all pending timers but those that call a function in `A` stay
pending, due when they were. -/
structure Tends (A : Callback → Prop) (s s' : Daemon) : Prop where
  owned : Owned s → Owned s'
  stays : Owned s → ∀ now, ∀ entry ∈ agenda now s, ¬ A entry.2.2 → entry ∈ agenda now s'

theorem steady_tends (A : Callback → Prop) : Steady (Tends A) where
  refl _ := ⟨id, fun _ _ _ member _ => member⟩
  trans left right :=
    ⟨right.owned ∘ left.owned, fun owned now entry member other =>
      right.stays (left.owned owned) now entry (left.stays owned now entry member other) other⟩

theorem Tends.mono (tends : Tends A s s') (weaker : ∀ func, A func → B func) : Tends B s s' :=
  ⟨tends.owned, fun owned now entry member other => tends.stays owned now entry member fun may => other (weaker _ may)⟩

/-! ## Tickets -/

theorem orderly_positive (orderly : Orderly s) : ∀ entry ∈ alarms s, 0 < entry.1 :=
  fun entry member => (orderly.bounds entry member).1

theorem orderly_issued (orderly : Orderly s) : ∀ entry ∈ alarms s, entry.1 ≤ s.id :=
  fun entry member => (orderly.bounds entry member).2

theorem ticket_blank (orderly : Orderly s) {timer : Int} (unset : timer ≤ 0) : Ticket s timer A :=
  .blank (orderly_positive orderly) orderly.started unset

theorem ticket_issued (orderly : Orderly s) (delay : Int) (action : Callback) :
    Ticket (s.setTimer delay action) (s.id + 1) (· = action) :=
  .issued (orderly_issued orderly) (alarms_setTimer s delay action)

theorem ticket_setTimer {timer : Int} (ticket : Ticket s timer A) (delay : Int) (action : Callback) :
    Ticket (s.setTimer delay action) timer A :=
  ticket.issue (alarms_setTimer s delay action)

theorem ticket_clearTimer {timer : Int} (ticket : Ticket s timer A) (cleared : Int) :
    Ticket (s.clearTimer cleared) timer A := by
  have fewer := StandsFor.fewer ticket fun _ member => (alarms_clearTimer s cleared).subset member
  rw [Ticket, clearTimer_id]
  exact fewer

theorem OwnsTimers.map {other : Daemon} {mymrt : Ptr} {e : Mrt} (owns : OwnsTimers s mymrt e)
    (each : ∀ timer A, Ticket s timer A → Ticket other timer A) : OwnsTimers other mymrt e where
  join := each _ _ owns.join
  prune vif := each _ _ (owns.prune vif)
  pruneDelay vif := each _ _ (owns.pruneDelay vif)
  graft := each _ _ owns.graft
  timeout := each _ _ owns.timeout
  check := each _ _ owns.check

/-- What an entry owns is about the pending timers only. -/
theorem OwnsTimers.keep {mymrt : Ptr} {e : Mrt} (owns : OwnsTimers s mymrt e)
    (same : s'.id = s.id ∧ alarms s' = alarms s) : OwnsTimers s' mymrt e := by
  refine owns.map fun timer A ticket => ?_
  rw [Ticket, same.1, same.2]
  exact ticket

theorem orderly_keep (orderly : Orderly s) (same : s'.id = s.id ∧ alarms s' = alarms s) : Orderly s' := by
  refine ⟨?_, ?_, ?_⟩
  · rw [same.1, same.2]
    exact orderly.bounds
  · rw [same.2]
    exact orderly.distinct
  · rw [same.1]
    exact orderly.started

/-! ## Timers -/

/-- The pending timers change, and the records stay as they are. -/
theorem Owned.map (owned : Owned s) (orderly : Orderly s')
    (records : s'.mrts = s.mrts ∧ s'.neighbors = s.neighbors ∧ s'.groups = s.groups ∧ s'.myvifs = s.myvifs)
    (each : ∀ timer A, Ticket s timer A → Ticket s' timer A)
    (pointed : ∀ entry ∈ alarms s', entry ∈ alarms s ∨
      (∀ mymrt, entry.2 = .planGraft mymrt → ∃ e, s.mrts.get? mymrt = some e) ∧
        ∀ neighbor, entry.2 = .deletePimNeighbor neighbor → ∃ n, s.neighbors.get? neighbor = some n) :
    Owned s' := by
  obtain ⟨mrts, neighbors, groups, myvifs⟩ := records
  have members : (table s').members = (table s).members := by
    unfold table
    rw [groups, myvifs]
  refine ⟨orderly, ?_, ?_, ?_, ?_, ?_, ?_, ?_, ?_, ?_⟩
  · rw [mrts]
    exact fun mymrt e here => (owned.entries mymrt e here).map each
  · rw [neighbors]
    exact fun entry n here => each _ _ (owned.neighbors entry n here)
  · rw [myvifs]
    exact fun vif => each _ _ (owned.queries vif)
  · rw [myvifs]
    exact fun vif => each _ _ (owned.retries vif)
  · rw [groups, myvifs, members]
    exact owned.members
  · rw [members]
    exact owned.apart
  · rw [members, groups]
    exact fun vif item member g here => each _ _ (owned.leaves vif item member g here)
  · intro timer mymrt member
    rw [mrts]
    rcases pointed _ member with old | ⟨graft, _⟩
    · exact owned.grafts timer mymrt old
    · exact graft mymrt rfl
  · intro timer entry member
    rw [neighbors]
    rcases pointed _ member with old | ⟨_, expiry⟩
    · exact owned.expiries timer entry old
    · exact expiry entry rfl

/-- A timer of a record that is there. -/
theorem Owned.setTimer (owned : Owned s) (delay : Int) {action : Callback}
    (graft : ∀ mymrt, action = .planGraft mymrt → ∃ e, s.mrts.get? mymrt = some e)
    (expiry : ∀ entry, action = .deletePimNeighbor entry → ∃ n, s.neighbors.get? entry = some n) :
    Owned (s.setTimer delay action) := by
  have orderly : Orderly (s.setTimer delay action) := orderly_update (.setTimer delay action) owned.orderly
  refine owned.map orderly ⟨rfl, rfl, rfl, rfl⟩ (fun timer A ticket => ticket_setTimer ticket delay action) ?_
  intro entry member
  rcases List.mem_cons.mp ((alarms_setTimer s delay action).subset member) with rfl | old
  · exact Or.inr ⟨graft, expiry⟩
  · exact Or.inl old

theorem Owned.clearTimer (owned : Owned s) (timer : Int) : Owned (s.clearTimer timer) := by
  have orderly : Orderly (s.clearTimer timer) := orderly_update (.clearTimer timer) owned.orderly
  have neighbors : (s.clearTimer timer).neighbors = s.neighbors := by
    unfold Daemon.clearTimer
    split <;> rfl
  refine owned.map orderly ⟨clearTimer_mrts s timer, neighbors, clearTimer_groups s timer, clearTimer_myvifs s timer⟩
    (fun _ _ ticket => ticket_clearTimer ticket timer) fun entry member => Or.inl ?_
  exact (alarms_clearTimer s timer).subset member

theorem Owned.popExpired (owned : Owned s) : Owned s.popExpired := by
  have orderly : Orderly s.popExpired := orderly_update .popExpired owned.orderly
  have fewer : ∀ entry ∈ alarms s.popExpired, entry ∈ alarms s := fun _ member => (alarms_popExpired s).subset member
  exact owned.map orderly ⟨rfl, rfl, rfl, rfl⟩ (fun _ _ ticket => ticket.fewer fewer) fun entry member =>
    Or.inl (fewer entry member)

theorem Owned.age (owned : Owned s) (elapsedTime : Int) : Owned (s.age elapsedTime) := by
  have orderly : Orderly (s.age elapsedTime) := orderly_update (.age elapsedTime) owned.orderly
  have fewer : ∀ entry ∈ alarms (s.age elapsedTime), entry ∈ alarms s :=
    fun _ member => (alarms_age s elapsedTime).subset member
  exact owned.map orderly ⟨rfl, rfl, rfl, rfl⟩ (fun _ _ ticket => ticket.fewer fewer) fun entry member =>
    Or.inl (fewer entry member)

/-- A new timer of a record that is there takes no other away. -/
theorem tends_setTimer (delay : Int) {action : Callback}
    (graft : ∀ mymrt, action = .planGraft mymrt → ∃ e, s.mrts.get? mymrt = some e)
    (expiry : ∀ entry, action = .deletePimNeighbor entry → ∃ n, s.neighbors.get? entry = some n) :
    Tends A s (s.setTimer delay action) :=
  ⟨fun owned => owned.setTimer delay graft expiry, fun _ _ _ member _ => mem_agenda_setTimer.mpr (Or.inr member)⟩

/-- Clearing by a ticket takes away only timers it stands for. -/
theorem tends_clearTimer {timer : Int} (ticket : Owned s → Ticket s timer A) : Tends A s (s.clearTimer timer) := by
  refine ⟨fun owned => owned.clearTimer timer, fun owned now entry member other => ?_⟩
  have apart := (ticket owned).other (mem_alarms_of_agenda member) other
  exact (mem_agenda_clearTimer_iff owned.orderly now timer entry).mpr ⟨member, Or.inl apart⟩

/-! ## Records -/

/-- The source, the group and the ids of an entry. -/
def slots (e : Mrt) : (Addr × Addr) × Int × (Vif → Int) × (Vif → Int) × Int × Int × Int :=
  ((e.source, e.group), e.joinDelayTimerId, e.pruneTimerId, e.pruneDelayTimerId, e.graftTimerId, e.timeoutId,
    e.checkTimerid)

theorem OwnsTimers.congr {mymrt : Ptr} {e other : Mrt} (owns : OwnsTimers s mymrt e) (same : slots other = slots e) :
    OwnsTimers s mymrt other := by
  obtain ⟨join, prune, delay, graft, timeout, check⟩ := owns
  simp only [slots, Prod.mk.injEq] at same
  obtain ⟨⟨source, group⟩, sameJoin, samePrune, sameDelay, sameGraft, sameTimeout, sameCheck⟩ := same
  refine ⟨?_, ?_, ?_, ?_, ?_, ?_⟩
  · rwa [source, group, sameJoin]
  · rwa [source, group, samePrune]
  · rwa [source, group, sameDelay]
  · rwa [sameGraft]
  · rwa [source, group, sameTimeout]
  · rwa [source, group, sameCheck]

/-- States that differ neither in their timers nor in the ids that name them. -/
structure SameTimers (s s' : Daemon) : Prop where
  ids : s'.id = s.id
  queue : s'.queue = s.queue
  expired : s'.expired = s.expired
  entries : ∀ mymrt, (s'.mrts.get? mymrt).map slots = (s.mrts.get? mymrt).map slots
  neighbors : ∀ entry,
    (s'.neighbors.get? entry).map PimNeighbor.timeoutid = (s.neighbors.get? entry).map PimNeighbor.timeoutid
  groups : s'.groups = s.groups
  myvifs : ∀ vif, (s'.myvifs vif).groups = (s.myvifs vif).groups ∧
    (s'.myvifs vif).igmpQuerytimerId = (s.myvifs vif).igmpQuerytimerId ∧
    (s'.myvifs vif).querierRetryId = (s.myvifs vif).querierRetryId

theorem SameTimers.alarms (same : SameTimers s s') : alarms s' = alarms s := by
  rw [Effect.alarms, Effect.alarms, Daemon.pending, Daemon.pending, same.queue, same.expired]

theorem SameTimers.ticket (same : SameTimers s s') {timer : Int} : Ticket s' timer A ↔ Ticket s timer A := by
  unfold Ticket
  rw [same.alarms, same.ids]

theorem Owned.same (owned : Owned s) (same : SameTimers s s') : Owned s' := by
  have members : (table s').members = (table s).members := by
    funext vif
    simp only [table, same.groups, (same.myvifs vif).1]
  refine ⟨?_, ?_, ?_, ?_, ?_, ?_, ?_, ?_, ?_, ?_⟩
  · exact orderly_keep owned.orderly ⟨same.ids, same.alarms⟩
  · intro mymrt e here
    have image := same.entries mymrt
    rw [here, Option.map_some] at image
    obtain ⟨old, before, slot⟩ := Option.map_eq_some_iff.mp image.symm
    exact ((owned.entries mymrt old before).congr slot.symm).map fun _ _ => same.ticket.mpr
  · intro entry n here
    have image := same.neighbors entry
    rw [here, Option.map_some] at image
    obtain ⟨old, before, slot⟩ := Option.map_eq_some_iff.mp image.symm
    rw [← slot]
    exact same.ticket.mpr (owned.neighbors entry old before)
  · intro vif
    rw [(same.myvifs vif).2.1]
    exact same.ticket.mpr (owned.queries vif)
  · intro vif
    rw [(same.myvifs vif).2.2]
    exact same.ticket.mpr (owned.retries vif)
  · intro vif
    rw [same.groups, (same.myvifs vif).1, members]
    exact owned.members vif
  · rw [members]
    exact owned.apart
  · rw [members, same.groups]
    exact fun vif item member g here => same.ticket.mpr (owned.leaves vif item member g here)
  · intro timer mymrt member
    rw [same.alarms] at member
    obtain ⟨e, here⟩ := owned.grafts timer mymrt member
    have image := same.entries mymrt
    rw [here, Option.map_some] at image
    obtain ⟨new, after, _⟩ := Option.map_eq_some_iff.mp image
    exact ⟨new, after⟩
  · intro timer entry member
    rw [same.alarms] at member
    obtain ⟨n, here⟩ := owned.expiries timer entry member
    have image := same.neighbors entry
    rw [here, Option.map_some] at image
    obtain ⟨new, after, _⟩ := Option.map_eq_some_iff.mp image
    exact ⟨new, after⟩

theorem tends_same (same : SameTimers s s') : Tends A s s' := by
  refine ⟨fun owned => owned.same same, fun _ now entry member _ => ?_⟩
  rw [agenda, same.queue, same.expired]
  exact member

/-- A store into an entry that leaves its key and ids. -/
theorem setMrt_sameTimers (s : Daemon) (mymrt : Ptr) {function : Mrt → Mrt} (kept : ∀ e, slots (function e) = slots e) :
    SameTimers s (s.setMrt mymrt function) := by
  refine ⟨rfl, rfl, rfl, fun other => ?_, fun _ => rfl, rfl, fun _ => ⟨rfl, rfl, rfl⟩⟩
  unfold Daemon.setMrt
  rw [Heap.get?_modify]
  split
  · rw [Option.map_map]
    exact congrFun (congrArg Option.map (funext kept)) _
  · rfl

theorem setNeighbor_sameTimers (s : Daemon) (entry : Ptr) {function : PimNeighbor → PimNeighbor}
    (kept : ∀ n, (function n).timeoutid = n.timeoutid) : SameTimers s (s.setNeighbor entry function) := by
  refine ⟨rfl, rfl, rfl, fun _ => rfl, fun other => ?_, rfl, fun _ => ⟨rfl, rfl, rfl⟩⟩
  unfold Daemon.setNeighbor
  rw [Heap.get?_modify]
  split
  · rw [Option.map_map]
    exact congrFun (congrArg Option.map (funext kept)) _
  · rfl

theorem setMyvif_sameTimers (s : Daemon) (vif : Vif) {function : Myvif → Myvif}
    (kept : ∀ myv, (function myv).groups = myv.groups ∧ (function myv).igmpQuerytimerId = myv.igmpQuerytimerId ∧
      (function myv).querierRetryId = myv.querierRetryId) : SameTimers s (s.setMyvif vif function) := by
  refine ⟨rfl, rfl, rfl, fun _ => rfl, fun _ => rfl, rfl, fun other => ?_⟩
  by_cases here : other = vif
  · rw [here, setMyvif_self]
    exact kept _
  · rw [setMyvif_other here]
    exact ⟨rfl, rfl, rfl⟩

/-- The updates that touch neither timers nor ids. -/
def Update.Timeless : Update → Prop
  | .sendBuf _ | .send .. | .query .. | .callDelLeaf .. | .packetNumber _ | .virtualTime _ | .holdtime .. => True
  | .field _ (.outvif ..) | .field _ (.winner ..) => True
  | .mfc .. | .neighborHead .. | .neighborNext .. | .mrtHead _ | .mrtNext .. | .addedSg .. | .deletedSg .. => True
  | _ => False

theorem timeless_update (update : Update) (timeless : Update.Timeless update) (s : Daemon) :
    SameTimers s (update.apply s) := by
  have plain : ∀ {after : Daemon}, after.id = s.id → after.queue = s.queue → after.expired = s.expired →
      after.mrts = s.mrts → after.neighbors = s.neighbors → after.groups = s.groups → after.myvifs = s.myvifs →
      SameTimers s after := by
    intro after ids queue expired mrts neighbors groups myvifs
    refine ⟨ids, queue, expired, fun _ => by rw [mrts], fun _ => by rw [neighbors], groups, fun _ => ?_⟩
    rw [myvifs]
    exact ⟨rfl, rfl, rfl⟩
  cases update with
  | field mymrt store =>
      cases store with
      | outvif vif value change => exact setMrt_sameTimers s mymrt fun _ => rfl
      | winner preference metric upstream => exact setMrt_sameTimers s mymrt fun _ => rfl
      | _ => exact timeless.elim
  | holdtime entry seconds => exact setNeighbor_sameTimers s entry fun _ => rfl
  | neighborHead vif entry =>
      have kept : SameTimers s (s.setMyvif vif fun myv => { myv with neighbor := entry }) :=
        setMyvif_sameTimers s vif fun _ => ⟨rfl, rfl, rfl⟩
      exact kept
  | neighborNext entry next => exact setNeighbor_sameTimers s entry fun _ => rfl
  | mrtNext mymrt next => exact setMrt_sameTimers s mymrt fun _ => rfl
  | sendBuf _ | send _ _ | query _ _ _ _ _ | callDelLeaf _ _ | packetNumber _ | virtualTime _ | mfc _ _ _ | mrtHead _
  | addedSg _ _ | deletedSg _ _ => exact plain rfl rfl rfl rfl rfl rfl rfl
  | _ => exact timeless.elim

/-! ## Stores of ids -/

/-- A store into an entry after which the entry owns its ids. -/
theorem Owned.setMrt (owned : Owned s) {mymrt : Ptr} {function : Mrt → Mrt}
    (owns : ∀ e, s.mrts.get? mymrt = some e → OwnsTimers s mymrt (function e)) : Owned (s.setMrt mymrt function) := by
  refine ⟨orderly_keep owned.orderly ⟨rfl, rfl⟩, fun other e here => ?_, owned.neighbors, owned.queries, owned.retries,
    owned.members, owned.apart, owned.leaves, fun timer other member => ?_, owned.expiries⟩
  · rw [Daemon.setMrt, Heap.get?_modify] at here
    split at here
    · rename_i same
      subst same
      obtain ⟨before, found, rfl⟩ := Option.map_eq_some_iff.mp here
      exact (owns before found).keep ⟨rfl, rfl⟩
    · exact (owned.entries other e here).keep ⟨rfl, rfl⟩
  · obtain ⟨e, here⟩ := owned.grafts timer other member
    rw [Daemon.setMrt, Heap.get?_modify]
    split
    · exact ⟨function e, by rw [here, Option.map_some]⟩
    · exact ⟨e, here⟩

theorem tends_setMrt {mymrt : Ptr} {function : Mrt → Mrt}
    (owns : Owned s → ∀ e, s.mrts.get? mymrt = some e → OwnsTimers s mymrt (function e)) :
    Tends A s (s.setMrt mymrt function) :=
  ⟨fun owned => owned.setMrt (owns owned), fun _ _ _ member _ => member⟩

theorem Owned.setNeighborTimer (owned : Owned s) {entry : Ptr} {timer : Int}
    (ticket : Ticket s timer (· = .deletePimNeighbor entry)) :
    Owned (s.setNeighbor entry fun n => { n with timeoutid := timer }) := by
  refine ⟨orderly_keep owned.orderly ⟨rfl, rfl⟩, fun other e here => (owned.entries other e here).keep ⟨rfl, rfl⟩,
    fun other n here => ?_, owned.queries, owned.retries, owned.members, owned.apart, owned.leaves, owned.grafts,
    fun timer other member => ?_⟩
  · rw [Daemon.setNeighbor, Heap.get?_modify] at here
    split at here
    · rename_i same
      subst same
      obtain ⟨before, _, rfl⟩ := Option.map_eq_some_iff.mp here
      exact ticket
    · exact owned.neighbors other n here
  · obtain ⟨n, here⟩ := owned.expiries timer other member
    rw [Daemon.setNeighbor, Heap.get?_modify]
    split
    · exact ⟨_, by rw [here, Option.map_some]⟩
    · exact ⟨n, here⟩

/-- A store of the ids of the roles of an interface. -/
theorem Owned.setRole (owned : Owned s) {vif : Vif} {function : Myvif → Myvif}
    (kept : ∀ myv, (function myv).groups = myv.groups)
    (query : Ticket s (function (s.myvifs vif)).igmpQuerytimerId (· = .sendQuery vif))
    (retry : Ticket s (function (s.myvifs vif)).querierRetryId (· = .retryQuery vif)) :
    Owned (s.setMyvif vif function) := by
  have heads : ∀ other, ((s.setMyvif vif function).myvifs other).groups = (s.myvifs other).groups :=
    setMyvif_groups kept s
  have members : (table (s.setMyvif vif function)).members = (table s).members := by
    funext other
    simp only [table, heads]
    rfl
  refine ⟨orderly_keep owned.orderly ⟨rfl, rfl⟩, fun other e here => (owned.entries other e here).keep ⟨rfl, rfl⟩,
    owned.neighbors, fun other => ?_, fun other => ?_, fun other => ?_, ?_, ?_, owned.grafts, owned.expiries⟩
  · by_cases here : other = vif
    · subst here
      rw [setMyvif_self]
      exact query
    · rw [setMyvif_other here]
      exact owned.queries other
  · by_cases here : other = vif
    · subst here
      rw [setMyvif_self]
      exact retry
    · rw [setMyvif_other here]
      exact owned.retries other
  · rw [heads, members]
    exact owned.members other
  · rw [members]
    exact owned.apart
  · rw [members]
    exact owned.leaves

/-! ## Group records -/

/-- The lists of groups read from memory that shows them. -/
theorem members_of_shows {items : Vif → List (Ptr × Addr)}
    (shows : ∀ vif, s.groups.Shows IgmpGroup.next IgmpGroup.address (s.myvifs vif).groups (items vif)) :
    (table s).members = items :=
  funext fun vif => (shows vif).view_eq

/-- The records of the groups change, and the lists are these. -/
theorem Owned.setGroups (owned : Owned s) {items : Vif → List (Ptr × Addr)}
    (same : s'.id = s.id ∧ s'.queue = s.queue ∧ s'.expired = s.expired ∧ s'.mrts = s.mrts ∧ s'.neighbors = s.neighbors)
    (myvifs : ∀ vif, (s'.myvifs vif).igmpQuerytimerId = (s.myvifs vif).igmpQuerytimerId ∧
      (s'.myvifs vif).querierRetryId = (s.myvifs vif).querierRetryId)
    (shows : ∀ vif, s'.groups.Shows IgmpGroup.next IgmpGroup.address (s'.myvifs vif).groups (items vif))
    (apart : Apart items)
    (leaves : ∀ vif, ∀ item ∈ items vif, ∀ g, s'.groups.get? item.1 = some g →
      Ticket s g.leaveQuery (· = .leaveQuery vif item.2)) : Owned s' := by
  obtain ⟨ids, queue, expired, mrts, neighbors⟩ := same
  have pending : alarms s' = alarms s := by
    unfold alarms Daemon.pending
    rw [queue, expired]
  have ticket : ∀ {timer : Int} {A : Callback → Prop}, Ticket s timer A → Ticket s' timer A := by
    intro timer A held
    unfold Ticket
    rw [pending, ids]
    exact held
  have members : (table s').members = items := members_of_shows shows
  refine ⟨?_, ?_, ?_, fun vif => ?_, fun vif => ?_, ?_, ?_, ?_, ?_, ?_⟩
  · exact orderly_keep owned.orderly ⟨ids, pending⟩
  · rw [mrts]
    exact fun mymrt e here => (owned.entries mymrt e here).map fun _ _ => ticket
  · rw [neighbors]
    exact fun entry n here => ticket (owned.neighbors entry n here)
  · rw [(myvifs vif).1]
    exact ticket (owned.queries vif)
  · rw [(myvifs vif).2]
    exact ticket (owned.retries vif)
  · rw [members]
    exact shows
  · rw [members]
    exact apart
  · rw [members]
    exact fun vif item member g here => ticket (leaves vif item member g here)
  · rw [pending, mrts]
    exact owned.grafts
  · rw [pending, neighbors]
    exact owned.expiries

/-- A record of a list gets another timer for its group. -/
theorem Owned.setLeavePhase (owned : Owned s) {vif : Vif} {item : Ptr × Addr} (member : item ∈ (table s).members vif)
    {timer : Int} (ticket : Ticket s timer (· = .leaveQuery vif item.2)) (timeout : Int) :
    Owned (s.setGroup item.1 fun g => { g with leaveQuery := timer, timeout := timeout }) := by
  refine owned.setGroups ⟨rfl, rfl, rfl, rfl, rfl⟩ (fun _ => ⟨rfl, rfl⟩)
    (fun other => (owned.members other).modify_same item.1 (fun _ => rfl) fun _ => rfl) owned.apart ?_
  intro other record listed g here
  rw [Daemon.setGroup, Heap.get?_modify] at here
  split at here
  · rename_i same
    -- A record is in one list only, and there once.
    have one : other = vif := by
      by_contra different
      refine owned.apart other vif different record.1 (List.mem_map_of_mem listed) ?_
      rw [same]
      exact List.mem_map_of_mem member
    subst one
    obtain rfl : record = item := List.inj_on_of_nodup_map (owned.members other).nodup listed member same
    obtain ⟨before, _, rfl⟩ := Option.map_eq_some_iff.mp here
    exact ticket
  · exact owned.leaves other record listed g here

/-- A new record in front of a list, whose group has no timer. -/
theorem Owned.linkGroup (owned : Owned s) (vif : Vif) {g : IgmpGroup} (clean : (s.myvifs vif).groups = 0 → g.next = 0)
    (idle : g.leaveQuery = 0) : Owned (s.linkGroup vif g) := by
  have link : (if (s.myvifs vif).groups ≠ 0 then { g with next := (s.myvifs vif).groups } else g).next =
      (s.myvifs vif).groups := by
    by_cases empty : (s.myvifs vif).groups = 0
    · rw [if_neg (not_not.mpr empty), clean empty, empty]
    · rw [if_pos empty]
  have address : (if (s.myvifs vif).groups ≠ 0 then { g with next := (s.myvifs vif).groups } else g).address =
      g.address := by
    split <;> rfl
  have timer : (if (s.myvifs vif).groups ≠ 0 then { g with next := (s.myvifs vif).groups } else g).leaveQuery = 0 := by
    split <;> exact idle
  have old : ∀ other, s.groups.fresh ∉ ((table s).members other).map Prod.fst := by
    intro other inside
    obtain ⟨item, member, same⟩ := List.mem_map.mp inside
    obtain ⟨record, found, _⟩ := (owned.members other).found member
    exact Heap.ne_fresh_of_get? found same
  have shows : ∀ other, (s.linkGroup vif g).groups.Shows IgmpGroup.next IgmpGroup.address
      ((s.linkGroup vif g).myvifs other).groups (Function.update (table s).members vif
        ((s.groups.fresh, g.address) :: (table s).members vif) other) := by
    intro other
    by_cases here : other = vif
    · subst here
      have pushed := (owned.members other).push link
      rw [address] at pushed
      simpa [Daemon.linkGroup] using pushed
    · simpa [Daemon.linkGroup, here] using (owned.members other).alloc_other _
  refine owned.setGroups ⟨rfl, rfl, rfl, rfl, rfl⟩ (fun other => ?_) shows ?_ ?_
  · by_cases here : other = vif
    · subst here
      simp [Daemon.linkGroup]
    · simp [Daemon.linkGroup, here]
  · refine owned.apart.update vif fun record inside other different => ?_
    rcases List.mem_cons.mp inside with rfl | listed
    · exact old other
    · exact owned.apart vif other (Ne.symm different) record listed
  · intro other item member record here
    rw [Daemon.linkGroup, Heap.get?_alloc] at here
    by_cases new : item.1 = s.groups.fresh
    · rw [if_pos new] at here
      obtain rfl := Option.some.inj here
      exact ticket_blank owned.orderly (Int.le_of_eq timer)
    · rw [if_neg new] at here
      have listed : item ∈ (table s).members other := by
        by_cases same : other = vif
        · subst same
          rw [Function.update_self] at member
          refine (List.mem_cons.mp member).resolve_left fun first => new ?_
          rw [first]
        · rwa [Function.update_of_ne same] at member
      exact owned.leaves other item listed record here

/-- A record is taken out of its list, and freed if it is not the head. -/
theorem Owned.unlinkGroup {host : Host} (owned : Owned s) {vif : Vif} {ahead behind : List (Ptr × Addr)}
    {item : Ptr × Addr} (split : (table s).members vif = ahead ++ item :: behind) {record : IgmpGroup}
    (found : s.groups.get? item.1 = some record)
    (run : Runs (unlinkGroup host vif (ahead.getLast?.map Prod.fst) item.1 record) s () s') : Owned s' := by
  have shows := owned.members vif
  rw [split] at shows
  have shrunk : Apart (Function.update (table s).members vif (ahead ++ behind)) := by
    refine owned.apart.shrink vif ?_
    rw [split]
    exact sublist_without
  have fewer : ∀ other, ∀ kept ∈ Function.update (table s).members vif (ahead ++ behind) other,
      kept ∈ (table s).members other := by
    intro other kept member
    by_cases here : other = vif
    · subst here
      rw [Function.update_self] at member
      rw [split]
      exact sublist_without.subset member
    · rwa [Function.update_of_ne here] at member
  rcases unlinkGroup_cases run with ⟨inner, trailing, last, _, rfl⟩ | ⟨head, rfl⟩
  · have nonempty : ahead ≠ [] := fun empty => inner (shows.start_eq_iff.mpr empty).symm
    rcases List.eq_nil_or_concat' ahead with empty | ⟨front, before, rfl⟩
    · exact absurd empty nonempty
    rw [List.append_assoc, List.cons_append, List.nil_append] at shows
    rw [List.getLast?_concat, Option.map_some] at last
    obtain rfl := Option.some.inj last
    have insideBefore : before ∈ front ++ [before] ++ item :: behind := by simp
    have insideItem : item ∈ front ++ [before] ++ item :: behind := by simp
    have gone : item.1 ∉ (front ++ before :: behind).map Prod.fst := by
      have distinct := shows.nodup
      simp only [List.map_append, List.map_cons, List.nodup_append, List.nodup_cons] at distinct
      simp only [List.map_append, List.map_cons, List.mem_append, List.mem_cons]
      grind
    refine owned.setGroups ⟨rfl, rfl, rfl, rfl, rfl⟩ (fun _ => ⟨rfl, rfl⟩) (fun other => ?_) shrunk ?_
    · by_cases same : other = vif
      · subst same
        have unlinked := shows.unlink found (fun g => { g with next := record.next }) (fun _ => rfl) fun _ => rfl
        simpa [Daemon.setGroup] using unlinked.modify_other (fun _ => host.freedGroup item.1) gone
      · have kept := ((owned.members other).modify_other (fun g => { g with next := record.next })
          (names_apart owned.apart split same insideBefore)).modify_other
          (fun _ => host.freedGroup item.1) (names_apart owned.apart split same insideItem)
        simpa [Daemon.setGroup, same] using kept
    · intro other kept member g here
      have different : kept.1 ≠ item.1 := by
        intro same
        by_cases there : other = vif
        · subst there
          rw [Function.update_self, List.append_assoc, List.cons_append, List.nil_append] at member
          exact gone (same ▸ List.mem_map_of_mem member)
        · exact names_apart owned.apart split there insideItem (same ▸ List.mem_map_of_mem (fewer other kept member))
      simp only [Daemon.setGroup, Heap.get?_modify_other _ _ different, Heap.get?_modify] at here
      split at here
      · obtain ⟨old, content, rfl⟩ := Option.map_eq_some_iff.mp here
        exact owned.leaves other kept (fewer other kept member) old content
      · exact owned.leaves other kept (fewer other kept member) g here
  · have first : ahead = [] := shows.start_eq_iff.mp head.symm
    subst first
    refine owned.setGroups ⟨rfl, rfl, rfl, rfl, rfl⟩ (fun other => ?_) (fun other => ?_) shrunk ?_
    · by_cases same : other = vif
      · rw [same, setMyvif_self]
        exact ⟨rfl, rfl⟩
      · rw [setMyvif_other same]
        exact ⟨rfl, rfl⟩
    · by_cases same : other = vif
      · subst same
        simpa [Daemon.setMyvif] using shows.tail found
      · simpa [Daemon.setMyvif, same] using owned.members other
    · exact fun other kept member g here => owned.leaves other kept (fewer other kept member) g here

/-! ## New records -/

/-- A new timer of an entry, whose id is stored in it. -/
theorem tends_arm (delay : Int) {action : Callback} {mymrt : Ptr} {function : Mrt → Mrt}
    (expiry : ∀ entry, action ≠ .deletePimNeighbor entry)
    (graft : ∀ other, action = .planGraft other → ∃ e, s.mrts.get? other = some e)
    (owns : ∀ e, s.mrts.get? mymrt = some e → OwnsTimers (s.setTimer delay action) mymrt e →
      Ticket (s.setTimer delay action) (s.id + 1) (· = action) →
      OwnsTimers (s.setTimer delay action) mymrt (function e)) :
    Tends A s ((s.setTimer delay action).setMrt mymrt function) := by
  refine ⟨fun owned => ?_, fun _ now entry member _ => mem_agenda_setTimer.mpr (Or.inr member)⟩
  have armed : Owned (s.setTimer delay action) := owned.setTimer delay graft fun entry same =>
    absurd same (expiry entry)
  refine armed.setMrt fun e here => owns e here (armed.entries mymrt e here) ?_
  exact ticket_issued owned.orderly delay action

/-- A new entry. -/
theorem Owned.linkMrt (owned : Owned s) {newmrt : Mrt}
    (owns : OwnsTimers s s.mrts.fresh newmrt) : Owned (s.linkMrt newmrt) := by
  refine ⟨orderly_keep owned.orderly ⟨rfl, rfl⟩, fun mymrt e here => ?_, owned.neighbors, owned.queries, owned.retries,
    owned.members, owned.apart, owned.leaves, fun timer mymrt member => ?_, owned.expiries⟩
  · simp only [Daemon.linkMrt] at here
    rw [Heap.get?_alloc] at here
    split at here
    · rename_i new
      subst new
      obtain rfl := Option.some.inj here
      refine OwnsTimers.keep (s := s) ?_ ⟨rfl, rfl⟩
      refine owns.congr ?_
      split <;> rfl
    · exact (owned.entries mymrt e here).keep ⟨rfl, rfl⟩
  · obtain ⟨e, here⟩ := owned.grafts timer mymrt member
    refine ⟨e, ?_⟩
    simp only [Daemon.linkMrt]
    rw [Heap.get?_alloc, if_neg (Heap.ne_fresh_of_get? here), here]

/-- A new neighbour and its timer, which points to the record before this is linked in. -/
theorem tends_addNeighbor (delay : Int) (vif : Vif) {n : PimNeighbor} (timer : n.timeoutid = s.id + 1) :
    Tends A s ((s.setTimer delay (.deletePimNeighbor s.neighbors.fresh)).linkNeighbor vif n) := by
  refine ⟨fun owned => ?_, fun _ now entry member _ => mem_agenda_setTimer.mpr (Or.inr member)⟩
  have issued := ticket_issued owned.orderly delay (.deletePimNeighbor s.neighbors.fresh)
  have older : ∀ timer A, Ticket s timer A →
      Ticket ((s.setTimer delay (.deletePimNeighbor s.neighbors.fresh)).linkNeighbor vif n) timer A :=
    fun _ _ ticket => ticket_setTimer ticket delay _
  have heads : ∀ other, (((s.setTimer delay (.deletePimNeighbor s.neighbors.fresh)).linkNeighbor vif n).myvifs
      other).groups = (s.myvifs other).groups ∧
      (((s.setTimer delay (.deletePimNeighbor s.neighbors.fresh)).linkNeighbor vif n).myvifs other).igmpQuerytimerId =
        (s.myvifs other).igmpQuerytimerId ∧
      (((s.setTimer delay (.deletePimNeighbor s.neighbors.fresh)).linkNeighbor vif n).myvifs other).querierRetryId =
        (s.myvifs other).querierRetryId := by
    intro other
    by_cases here : other = vif
    · subst here
      simp [Daemon.linkNeighbor, Daemon.setTimer]
    · simp [Daemon.linkNeighbor, Daemon.setTimer, here]
  have members : (table ((s.setTimer delay (.deletePimNeighbor s.neighbors.fresh)).linkNeighbor vif n)).members =
      (table s).members := by
    funext other
    simp only [table, (heads other).1]
    rfl
  refine ⟨?_, fun mymrt e here => (owned.entries mymrt e here).map older, fun entry record here => ?_,
    fun other => ?_, fun other => ?_, fun other => ?_, ?_, ?_, fun timer mymrt member => ?_,
      fun timer entry member => ?_⟩
  · exact orderly_keep (orderly_update (.setTimer delay
      (.deletePimNeighbor s.neighbors.fresh)) owned.orderly) ⟨rfl, rfl⟩
  · simp only [Daemon.linkNeighbor] at here
    rw [Heap.get?_alloc] at here
    split at here
    · rename_i new
      obtain rfl := Option.some.inj here
      rw [new, timer]
      exact issued
    · exact older _ _ (owned.neighbors entry record here)
  · rw [(heads other).2.1]
    exact older _ _ (owned.queries other)
  · rw [(heads other).2.2]
    exact older _ _ (owned.retries other)
  · rw [(heads other).1, members]
    exact owned.members other
  · rw [members]
    exact owned.apart
  · rw [members]
    exact fun other item member g here => older _ _ (owned.leaves other item member g here)
  · rcases List.mem_cons.mp ((alarms_setTimer s delay _).subset member) with new | old
    · cases new
    · exact owned.grafts timer mymrt old
  · simp only [Daemon.linkNeighbor]
    rcases List.mem_cons.mp ((alarms_setTimer s delay _).subset member) with new | old
    · cases new
      exact ⟨n, (Heap.get?_alloc ..).trans (if_pos rfl)⟩
    · obtain ⟨record, here⟩ := owned.expiries timer entry old
      refine ⟨record, ?_⟩
      rw [Heap.get?_alloc]
      exact (if_neg (Heap.ne_fresh_of_get? here)).trans here

end PimDm.Refinement
