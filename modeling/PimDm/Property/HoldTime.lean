import PimDm.Property.History
import PimDm.Refinement.HoldTimes
import PimDm.Refinement.Overhearing

/-!
# How long a Prune holds

A downstream router sends the number of its incoming interface as the hold time of a Prune.
`set_prune` of the upstream router does not look at what it carries: it lets
`prune_time_out` run after five seconds.
-/

namespace PimDm.Property

open PimDm.Foundation PimDm.Source PimDm.Effect PimDm.Refinement

variable {host : Host} {s s' : Daemon}

/-! ## Histories -/

/-- `set_prune` closed an interface. -/
structure Closing where
  time : Int
  /-- The id of the timer that called `set_prune`. -/
  cause : Int
  /-- The id of the timer that `set_prune` set. -/
  timer : Int
  data : PimPruneData

/-- `prune_time_out` opened an interface. -/
structure Opening where
  time : Int
  timer : Int
  data : PimPruneData
  deriving DecidableEq

structure PruneLog where
  /-- The Join/Prunes received, each with the last id given before and after it. -/
  messages : List (Int × Int × Memory)
  closings : List Closing
  openings : List Opening

def PruneLog.empty : PruneLog := ⟨[], [], []⟩

def notePrunes (before : Daemon) (event : Event) (after : Daemon) (history : Timed PruneLog) : Timed PruneLog where
  now := history.now + Event.seconds event
  seen :=
    match event with
    | .pimInput .joinPrune _ data _ =>
        { history.seen with messages := (before.id, after.id, data) :: history.seen.messages }
    | .expire pktcnt =>
        match called before (.expire pktcnt), calledId before (.expire pktcnt) with
        | some (.setPrune data), some timer =>
            if InTable before data.source data.group then
              { history.seen with closings := ⟨history.now, timer, after.id, data⟩ :: history.seen.closings }
            else history.seen
        | some (.pruneTimeOut data), some timer =>
            { history.seen with openings := ⟨history.now, timer, data⟩ :: history.seen.openings }
        | _, _ => history.seen
    | _ => history.seen

/-- The message has the bytes of the packet. -/
def HasBytesOf (data : Memory) (packet : PimPacket) : Prop :=
  ∀ place ∈ List.range packet.bytes.length, data place = received packet place

instance (data : Memory) (packet : PimPacket) : Decidable (HasBytesOf data packet) :=
  inferInstanceAs (Decidable (∀ place ∈ List.range packet.bytes.length, _))

/-- The timer that called `set_prune` was set when the packet was received. -/
def Closing.CausedBy (closing : Closing) (log : PruneLog) (packet : PimPacket) : Prop :=
  ∃ entry ∈ log.messages, HasBytesOf entry.2.2 packet ∧ entry.1 < closing.cause ∧ closing.cause ≤ entry.2.1

instance (closing : Closing) (log : PruneLog) (packet : PimPacket) : Decidable (closing.CausedBy log packet) :=
  inferInstanceAs (Decidable (∃ entry ∈ log.messages, _))

/-- The interface stays closed for the hold time that the Prune carries: at the end of it the timer that
`set_prune` set calls `prune_time_out`, and no other timer opens the interface before. -/
structure HoldsFor (packet : PimPacket) (closing : Closing) (history : Timed PruneLog) : Prop where
  carried : holdTimeOf packet = pimPruneHoldTime
  reopened : closing.time + holdTimeOf packet < history.now →
    ∃ opening ∈ history.seen.openings, opening.timer = closing.timer ∧ opening.time = closing.time + holdTimeOf packet
  unbroken : ∀ opening ∈ history.seen.openings, opening.data.source = closing.data.source →
    opening.data.group = closing.data.group → opening.data.vif = closing.data.vif → closing.time < opening.time →
      closing.time + holdTimeOf packet ≤ opening.time

/-- The timer queue is aged on time. -/
def AgesOnTime (before : Daemon × Timed PruneLog) (event : Event) : Prop := OnTime before.1 before.2.now event

instance (before : Daemon × Timed PruneLog) (event : Event) : Decidable (AgesOnTime before event) :=
  inferInstanceAs (Decidable (OnTime ..))

/-! ## `set_prune` -/

/-- The timer that `set_prune` sets is due five seconds later. -/
theorem setPrune_due (orderly : Orderly s) {prunedata : PimPruneData}
    (inside : InTable s prunedata.source prunedata.group) (run : Runs (setPrune host prunedata) s () s') :
    s.id < s'.id ∧ ∀ now, ∀ entry ∈ agenda now s', entry.2.1 = s'.id → entry.1 = now + 5 := by
  obtain ⟨mymrt, _, looked, pruning⟩ := runs_bind.mp run
  obtain ⟨found, rfl⟩ := runs_findMrt.mp looked
  rcases runs_ite.mp pruning with ⟨null, _⟩ | ⟨_, storing⟩
  · obtain ⟨other, _, again, nonnull, _⟩ := inside.found
    exact absurd ((again.unique found).trans null) nonnull
  obtain ⟨_, _, storeTimer, closing⟩ := runs_bind.mp storing
  obtain ⟨_, rfl⟩ := runs_storeMrt.mp storeTimer
  obtain ⟨_, _, storeOutvif, telling⟩ := runs_bind.mp closing
  obtain ⟨_, stored⟩ := runs_storeMrt.mp storeOutvif
  obtain ⟨_, closed, load, tell⟩ := runs_bind.mp telling
  obtain ⟨_, rfl⟩ := runs_loadMrt.mp load
  obtain ⟨_, told, change, checking⟩ := runs_bind.mp tell
  obtain ⟨_, checked, check, timing⟩ := runs_bind.mp checking
  obtain ⟨_, _, set, store⟩ := runs_bind.mp timing
  obtain ⟨rfl, rfl⟩ := runs_timerSetTimer.mp set
  obtain ⟨_, rfl⟩ := runs_storeMrt.mp store
  have before : Orderly closed := by
    rw [stored]
    exact ⟨orderly.bounds, orderly.distinct, orderly.started⟩
  have changes : Changes .table Anything closed checked := by
    have first : Changes .table Anything closed told := changeMfc_changes (by decide) host _ _ _ _ () _ change
    exact first.trans (checkPimState_changes (fun _ => trivial) host .delLeaf _ () _ check)
  have after : Orderly checked := orderly_of_changes changes before
  have grown : closed.id ≤ checked.id := (sets_of_changes changes).ids
  rw [stored] at grown
  refine ⟨Int.lt_add_one_of_le grown, fun now entry member same => ?_⟩
  have pending : entry ∈ agenda now (checked.setTimer 5 (.pruneTimeOut prunedata)) := member
  rcases mem_agenda_setTimer.mp pending with rfl | old
  · rfl
  · have bounds := after.bounds entry.2 (mem_alarms_of_agenda old)
    change entry.2.1 = checked.id + 1 at same
    omega

/-! ## Timers of closed interfaces -/

/-- A timer that `set_prune` set is due, and was called, five seconds after it. -/
structure FiveSeconds (s : Daemon) (history : Timed PruneLog) : Prop where
  orderly : Orderly s
  closed : ∀ closing ∈ history.seen.closings, closing.timer ≤ s.id
  opened : ∀ opening ∈ history.seen.openings, opening.timer ≤ s.id
  due : ∀ closing ∈ history.seen.closings, ∀ entry ∈ agenda history.now s, entry.2.1 = closing.timer →
    entry.1 = closing.time + 5
  ran : ∀ closing ∈ history.seen.closings, ∀ opening ∈ history.seen.openings, opening.timer = closing.timer →
    opening.time = closing.time + 5

section Steps

variable {history : Timed PruneLog} {event : Event}

/-- No time passes, and what is due then was due before or has a new id. -/
theorem FiveSeconds.keep (five : FiveSeconds s history) (orderly : Orderly s') (ids : s.id ≤ s'.id)
    (schedules : ∀ entry ∈ agenda history.now s', entry ∈ agenda history.now s ∨ s.id < entry.2.1) :
    FiveSeconds s' history := by
  refine ⟨orderly, fun closing member => ?_, fun opening member => ?_, fun closing member entry pending same => ?_,
    five.ran⟩
  · exact Int.le_trans (five.closed closing member) ids
  · exact Int.le_trans (five.opened opening member) ids
  · rcases schedules entry pending with old | new
    · exact five.due closing member entry old same
    · have given := five.closed closing member
      omega

theorem FiveSeconds.age (five : FiveSeconds s history) (idle : s.expired = []) {elapsedTime : Nat}
    (onTime : ∀ entry ∈ agenda history.now s, history.now + elapsedTime ≤ entry.1) :
    FiveSeconds (s.age elapsedTime) { history with now := history.now + elapsedTime } := by
  refine ⟨orderly_update (.age elapsedTime) five.orderly, five.closed, five.opened,
    fun closing member entry pending same => ?_,
    five.ran⟩
  rcases agenda_age idle pending with old | ⟨now, time, old, early⟩
  · exact five.due closing member entry old same
  · have due := five.due closing member _ old same
    have punctual := onTime _ old
    dsimp only at due punctual
    omega

/-- The timer that is called first in a batch opened no interface yet. -/
theorem FiveSeconds.opens (five : FiveSeconds s history) {ptr : TimeoutQ} {rest : List TimeoutQ}
    (batch : s.expired = ptr :: rest) (data : PimPruneData) :
    FiveSeconds s { history with
      seen := { history.seen with openings := ⟨history.now, ptr.id, data⟩ :: history.seen.openings } } := by
  have first : (history.now, alarm ptr) ∈ agenda history.now s := by
    rw [agenda_popExpired batch]
    exact List.mem_cons_self
  refine ⟨five.orderly, five.closed, fun opening member => ?_, five.due, fun closing member opening opened same => ?_⟩
  · rcases List.mem_cons.mp member with rfl | old
    · exact (five.orderly.bounds _ (mem_alarms_of_agenda first)).2
    · exact five.opened opening old
  · rcases List.mem_cons.mp opened with rfl | old
    · exact five.due closing member _ first same
    · exact five.ran closing member opening old same

/-- `set_prune` sets a timer that is due after five seconds. -/
theorem FiveSeconds.closes (five : FiveSeconds s history) (orderly : Orderly s') (ids : s.id < s'.id)
    (schedules : ∀ entry ∈ agenda history.now s', entry ∈ agenda history.now s ∨ s.id < entry.2.1)
    (set : ∀ entry ∈ agenda history.now s', entry.2.1 = s'.id → entry.1 = history.now + 5) (cause : Int)
    (data : PimPruneData) :
    FiveSeconds s' { history with
      seen := { history.seen with closings := ⟨history.now, cause, s'.id, data⟩ :: history.seen.closings } } := by
  have kept := five.keep orderly (Int.le_of_lt ids) schedules
  refine ⟨orderly, fun closing member => ?_, kept.opened, fun closing member entry pending same => ?_,
    fun closing member opening opened same => ?_⟩
  · rcases List.mem_cons.mp member with rfl | old
    · exact Int.le_refl _
    · exact kept.closed closing old
  · rcases List.mem_cons.mp member with rfl | old
    · exact set entry pending same
    · exact kept.due closing old entry pending same
  · rcases List.mem_cons.mp member with rfl | old
    · have before := five.opened opening opened
      dsimp only at same
      omega
    · exact kept.ran closing old opening opened same

theorem FiveSeconds.of_same (five : FiveSeconds s history) {later : Timed PruneLog} (now : later.now = history.now)
    (closings : later.seen.closings = history.seen.closings) (openings : later.seen.openings = history.seen.openings) :
    FiveSeconds s later := by
  refine ⟨five.orderly, ?_, ?_, ?_, ?_⟩
  · rw [closings]
    exact five.closed
  · rw [openings]
    exact five.opened
  · rw [closings, now]
    exact five.due
  · rw [closings, openings]
    exact five.ran

/-- No time passes in the event, and it leaves what is noted of closings and openings. -/
theorem FiveSeconds.untimed (five : FiveSeconds s history) (passes : ∀ elapsedTime, event ≠ .age elapsedTime)
    (taken : Step host s event s') : FiveSeconds s' history := by
  have orderly : Orderly s' := orderly_of_changes (handle_anything taken.2) five.orderly
  have schedules := handle_schedules passes taken.2
  have begins : (begun s event).id = s.id ∧ ∀ entry ∈ agenda history.now (begun s event),
    entry ∈ agenda history.now s := by
    unfold begun
    split
    · exact ⟨rfl, fun entry member => mem_agenda_of_popExpired member⟩
    · exact ⟨rfl, fun entry member => member⟩
  refine five.keep orderly (begins.1 ▸ schedules.ids) fun entry member => ?_
  rcases schedules.old_or_new history.now entry member with old | new
  · exact Or.inl (begins.2 entry old)
  · exact Or.inr (begins.1 ▸ new)

/-- The callback is called at the time it is due. -/
theorem FiveSeconds.expire (five : FiveSeconds s history) {pktcnt : Int} (taken : Step host s (.expire pktcnt) s') :
    FiveSeconds s' (notePrunes s (.expire pktcnt) s' history) := by
  have kept := five.untimed (fun _ => Event.noConfusion) taken
  have still : history.now + ((0 : Nat) : Int) = history.now := Int.add_zero _
  unfold notePrunes
  dsimp only
  cases batch : s.expired with
  | nil =>
      have none : called s (.expire pktcnt) = none := by rw [called, batch]; rfl
      rw [none]
      exact kept.of_same still rfl rfl
  | cons ptr rest =>
      have calls : called s (.expire pktcnt) = some ptr.func := by rw [called, batch]; rfl
      have id : calledId s (.expire pktcnt) = some ptr.id := by rw [calledId, batch]; rfl
      rw [calls, id]
      cases func : ptr.func with
      | setPrune data =>
          dsimp only
          split
          · rename_i inside
            have run := runs_called calls taken.2
            rw [func] at run
            have popped : Orderly s.popExpired := orderly_update .popExpired five.orderly
            obtain ⟨grown, due⟩ := setPrune_due popped inside run
            have schedules := handle_schedules (fun _ => Event.noConfusion) taken.2
            have begins : begun s (.expire pktcnt) = s.popExpired := by rw [begun, calls]
            rw [begins] at schedules
            have closed := five.closes kept.orderly grown (fun entry member => ?_) (due history.now) ptr.id data
            · exact closed.of_same still rfl rfl
            · rcases schedules.old_or_new history.now entry member with old | new
              · exact Or.inl (mem_agenda_of_popExpired old)
              · exact Or.inr new
          · exact kept.of_same still rfl rfl
      | pruneTimeOut data =>
          have opened := (five.opens batch data).untimed (fun _ => Event.noConfusion) taken
          exact opened.of_same still rfl rfl
      | _ => exact kept.of_same still rfl rfl

theorem FiveSeconds.step (five : FiveSeconds s history) (onTime : OnTime s history.now event)
    (taken : Step host s event s') : FiveSeconds s' (notePrunes s event s' history) := by
  cases event with
  | age elapsedTime =>
      rw [runs_modify.mp taken.2]
      exact five.age (idle_of_enabled rfl taken.1) onTime
  | expire pktcnt => exact five.expire taken
  | pimInput type src data length =>
      have kept := five.untimed (fun _ => Event.noConfusion) taken
      cases type with
      | joinPrune => exact kept.of_same (Int.add_zero _) rfl rfl
      | _ => exact kept.of_same (Int.add_zero _) rfl rfl
  | _ => exact (five.untimed (fun _ => Event.noConfusion) taken).of_same (Int.add_zero _) rfl rfl

end Steps

theorem fiveSeconds_start (started : Start host s) : FiveSeconds s ⟨0, .empty⟩ :=
  ⟨start_orderly started, fun _ member => absurd member List.not_mem_nil, fun _ member =>
    absurd member List.not_mem_nil,
    fun _ member => absurd member List.not_mem_nil, fun _ member => absurd member List.not_mem_nil⟩

theorem fiveSeconds_of_run {final : Daemon × Timed PruneLog}
    (run : ReachableWith host notePrunes ⟨0, .empty⟩ AgesOnTime final) : FiveSeconds final.1 final.2 := by
  obtain ⟨start, started, steps⟩ := run
  refine steps.keeps (P := fun state => FiveSeconds state.1 state.2) (fiveSeconds_start started) ?_
  rintro ⟨state, history⟩ event ⟨after, later⟩ five onTime ⟨taken, note⟩
  dsimp only at note taken five
  rw [note]
  exact five.step onTime taken

/-! ## The property -/

/-- A Prune of `check_pim_state` or `add_sg` carries `PIM_PRUNE_HOLD_TIME` only from an incoming
interface with that number, and no interface that was closed for it stays closed for that long:
the timer that `set_prune` set calls `prune_time_out` after five seconds. -/
theorem prune_never_holds {downstream upstream : Host} {e : Mrt} {packet : PimPacket}
    (sends : SendsPrune downstream e packet) {final : Daemon × Timed PruneLog}
    (run : ReachableWith upstream notePrunes ⟨0, .empty⟩ AgesOnTime final) :
    (holdTimeOf packet = pimPruneHoldTime ↔ (e.incoming : Int) % 65536 = pimPruneHoldTime) ∧
    ∀ closing ∈ final.2.seen.closings, closing.CausedBy final.2.seen packet →
      (∀ opening ∈ final.2.seen.openings, opening.timer = closing.timer → opening.time = closing.time + 5) ∧
      (closing.time + pimPruneHoldTime < final.2.now → ¬ HoldsFor packet closing final.2) := by
  have five := fiveSeconds_of_run run
  constructor
  · rw [sends.carries]
    exact vifAsHoldTime_eq_iff
  · intro closing member _
    refine ⟨five.ran closing member, fun passed holds => ?_⟩
    rw [← holds.carried] at passed
    obtain ⟨opening, opened, same, time⟩ := holds.reopened passed
    have early := five.ran closing member opening opened same
    rw [holds.carried, pimPruneHoldTime] at time
    omega

/-! ## Two routers -/

/-- The Prune that `upperRouter` sends for the traffic of the studio, when it has no neighbours
and no members. -/
def upperPrune : PimPacket :=
  sentPacket (writeOneSource (fun _ => 0) (named (stationOn 2 1) studio channel) 2 (htons 0) (htons 1)) (stationOn 2 9)
    allpimrouters pimJoinPrune oneSourceLength

theorem upperRouter_prunes : ∃ e, SendsPrune upperRouter e upperPrune ∧ e.upstream ≠ e.source := by
  have passed : ((addSg upperRouter (stationOn 2 1) studio channel 2 (Daemon.blank fun _ => 0)).toOption.any
    fun result =>
      decide (result.2.trace.head? = some (.pim upperPrune 1)) &&
        decide (∃ e ∈ result.2.mrts.get? 1, e.upstream ≠ e.source)) = true := by
    decide +kernel
  cases ran : addSg upperRouter (stationOn 2 1) studio channel 2 (Daemon.blank fun _ => 0) with
  | error fault =>
      rw [ran] at passed
      cases passed
  | ok result =>
      rw [ran] at passed
      obtain ⟨first, record⟩ := Bool.and_eq_true_iff.mp passed
      obtain ⟨e, here, remote⟩ := of_decide_eq_true record
      obtain ⟨rest, split⟩ := List.head?_eq_some_iff.mp (of_decide_eq_true first)
      refine ⟨e, .addSg ran (List.append_nil _).symm ?_ rfl here, remote⟩
      rw [split]
      exact List.mem_cons_self

/-- `router` has two interfaces downstream, and prunes the one to `upperRouter`. -/
def closesForPrune : List Event :=
  [helloFrom (stationOn 2 9) 310, helloFrom (stationOn 3 9) 310, upcall 1 1 (stationOn 1 7) studio channel,
    graftAckFrom (stationOn 1 7) (stationOn 1 1) studio channel,
    .pimInput .joinPrune (stationOn 2 9) (received upperPrune) 34, .age 3, .expire 0]

/-- Thirty-two seconds pass. -/
def thirtySecondsLater : List Event :=
  [.age 2, .expire 0, .age 3, .expire 0, .age 2] ++ List.replicate 4 (.expire 0) ++ [.age 5, .expire 0, .age 5] ++
    List.replicate 4 (.expire 0) ++ [.age 5, .expire 0, .age 5] ++ List.replicate 8 (.expire 0) ++ [.age 5]

theorem prune_never_holds_session :
    ∃ (e : Mrt) (final : Daemon × Timed PruneLog), SendsPrune upperRouter e upperPrune ∧
      ReachableWith router notePrunes ⟨0, .empty⟩ AgesOnTime final ∧
      ∃ closing ∈ final.2.seen.closings, closing.CausedBy final.2.seen upperPrune ∧
        ¬ HoldsFor upperPrune closing final.2 := by
  have passed : endsWithHistory router notePrunes AgesOnTime ⟨0, .empty⟩ (closesForPrune ++ thirtySecondsLater)
      (fun final => decide (∃ closing ∈ final.2.seen.closings, closing.CausedBy final.2.seen upperPrune ∧
        closing.time + pimPruneHoldTime < final.2.now)) = true := by
    decide +kernel
  obtain ⟨e, sends, _⟩ := upperRouter_prunes
  obtain ⟨final, run, seen⟩ := reachable_of_endsWithHistory passed
  obtain ⟨closing, member, caused, passed⟩ := of_decide_eq_true seen
  exact ⟨e, final, sends, run, closing, member, caused,
    ((prune_never_holds sends run).2 closing member caused).2 passed⟩

/-- A Join/Prune, a Graft, a Hello or a report on the interface. -/
def Disturbs (host : Host) (vif : Vif) : Event → Prop
  | .pimInput .hello src .. => findVifDirect host src = vif
  | .pimInput .joinPrune src .. => findVifDirect host src = vif
  | .pimInput .graft src .. => findVifDirect host src = vif
  | .acceptGroupReport src _ => findVifDirect host src = vif
  | _ => False

instance decidableDisturbs (host : Host) (vif : Vif) : (event : Event) → Decidable (Disturbs host vif event)
  | .pimInput .hello src .. => inferInstanceAs (Decidable (findVifDirect host src = vif))
  | .pimInput .joinPrune src .. => inferInstanceAs (Decidable (findVifDirect host src = vif))
  | .pimInput .graft src .. => inferInstanceAs (Decidable (findVifDirect host src = vif))
  | .acceptGroupReport src _ => inferInstanceAs (Decidable (findVifDirect host src = vif))
  | .pimInput .assert .. | .pimInput .graftAck .. | .multicastPacketError .. | .acceptMembershipQuery ..
  | .acceptLeaveMessage .. | .age _ | .expire _ => isFalse id

/-- Nothing disturbs an interface after it was closed. -/
def LeftClosed (host : Host) (before : Daemon × Timed PruneLog) (event : Event) : Prop :=
  AgesOnTime before event ∧ ∀ closing ∈ before.2.seen.closings, ¬ Disturbs host closing.data.vif event

instance (host : Host) (before : Daemon × Timed PruneLog) (event : Event) : Decidable (LeftClosed host before event) :=
  inferInstanceAs (Decidable (_ ∧ _))

/-- The Prune carries a hold time of two seconds. -/
theorem prune_holds_too_briefly :
    ¬ ∀ (downstream upstream : Host) (e : Mrt) (packet : PimPacket) (final : Daemon × Timed PruneLog),
      SendsPrune downstream e packet → e.upstream ≠ e.source →
        ReachableWith upstream notePrunes ⟨0, .empty⟩ (LeftClosed upstream) final →
          ∀ closing ∈ final.2.seen.closings, closing.CausedBy final.2.seen packet →
            (∀ r ∈ foundSg final.1 closing.data.source closing.data.group, r.upstream ≠ r.source) →
              HoldsFor packet closing final.2 := by
  intro holds
  have passed : endsWithHistory router notePrunes (LeftClosed router) ⟨0, .empty⟩ closesForPrune
      (fun final => decide (∃ closing ∈ final.2.seen.closings, closing.CausedBy final.2.seen upperPrune ∧
        ∀ r ∈ foundSg final.1 closing.data.source closing.data.group, r.upstream ≠ r.source)) = true := by
    decide +kernel
  obtain ⟨e, sends, remote⟩ := upperRouter_prunes
  obtain ⟨final, run, seen⟩ := reachable_of_endsWithHistory passed
  obtain ⟨closing, member, caused, away⟩ := of_decide_eq_true seen
  have carried := (holds upperRouter router e upperPrune final sends remote run closing member caused away).carried
  have two : holdTimeOf upperPrune = 2 := by decide +kernel
  rw [two] at carried
  cases carried

end PimDm.Property
