import PimDm.Property.History
import PimDm.Refinement.Overhearing

/-!
# Joins that answer overheard Prunes

A Prune that another router sends upstream is answered with a Join after a second, unless
a Join is overheard before.  Any overheard Prune of an entry that forwards sets the timer,
and only the last timer is in the slot of the entry, where a Join clears it.
-/

namespace PimDm.Property

open PimDm.Foundation PimDm.Source PimDm.Effect PimDm.Refinement

variable {host : Host} {s s' : Daemon} {source group src : Addr} {data : Memory} {length : Int} {event : Event}

/-! ## Histories -/

/-- What was overheard of a source and group, and answered. -/
structure Chatter where
  /-- The ids of the timers set for Prunes to the upstream neighbour. -/
  prunes : List Int
  /-- A Join was overheard since the last of these Prunes. -/
  joined : Bool
  /-- The ids of the timers that sent a Join. -/
  sent : List Int

def Chatter.none : Chatter := ⟨[], false, []⟩

/-- The message is about the source and group. -/
def About (data : Memory) (source group : Addr) : Prop := namedSource data = source ∧ namedGroup data = group

instance (data : Memory) (source group : Addr) : Decidable (About data source group) :=
  inferInstanceAs (Decidable (_ ∧ _))

/-- The message came on the incoming interface of the entry and is for its upstream neighbour,
which is not the source, and the entry forwards. -/
def ForUpstream (host : Host) (e : Mrt) (src : Addr) (data : Memory) : Prop :=
  e.upstream ≠ e.source ∧ findVifDirect host src = e.incoming ∧ (readJoinPruneHeader data).upstream = e.upstream ∧
    ∃ vif ∈ host.vifs, e.outvif vif = 1

instance (host : Host) (e : Mrt) (src : Addr) (data : Memory) : Decidable (ForUpstream host e src data) :=
  inferInstanceAs (Decidable (_ ∧ _))

/-- The id of the timer an event set, if it set one. -/
def newTimer (before after : Daemon) : List Int := if before.id < after.id then [after.id] else []

/-- `send_join` is called for the source and group, and sends. -/
def SendsJoin (source group : Addr) (before : Daemon) (event : Event) (after : Daemon) : Prop :=
  (∃ func ∈ called before event, isJoin source group func = true) ∧ before.trace.length < after.trace.length

instance (source group : Addr) (before : Daemon) (event : Event) (after : Daemon) :
    Decidable (SendsJoin source group before event after) :=
  inferInstanceAs (Decidable (_ ∧ _))

/-- Note the overheard messages for the source and group, and the Joins sent. -/
def noteChatter (host : Host) (source group : Addr) (before : Daemon) (event : Event) (after : Daemon)
    (chatter : Chatter) : Chatter :=
  match event with
  | .pimInput .joinPrune src data _ =>
      if ¬ (Overheard host src data ∧ About data source group) then chatter
      else if joinCount data ≠ 0 then { chatter with joined := true }
      else if ∃ e ∈ foundSg before source group, ForUpstream host e src data then
        { chatter with prunes := newTimer before after ++ chatter.prunes, joined := false }
      else chatter
  | .expire pktcnt =>
      if SendsJoin source group before (.expire pktcnt) after then
        { chatter with sent := (calledId before (.expire pktcnt)).toList ++ chatter.sent }
      else chatter
  | _ => chatter

/-- Overheard Joins and Prunes have one group and one source. -/
def OneByOne (host : Host) : Event → Prop
  | .pimInput .joinPrune src data _ => Overheard host src data → OneEach data
  | _ => True

instance decidableOneByOne (host : Host) : (event : Event) → Decidable (OneByOne host event)
  | .pimInput .joinPrune src data _ => inferInstanceAs (Decidable (Overheard host src data → OneEach data))
  | .pimInput .hello .. | .pimInput .assert .. | .pimInput .graft .. | .pimInput .graftAck ..
  | .multicastPacketError .. | .acceptMembershipQuery .. | .acceptGroupReport .. | .acceptLeaveMessage ..
  | .age _ | .expire _ => isTrue trivial

/-- An overheard Prune that sets a timer is for the upstream neighbour of the entry. -/
def PruneForUpstream (host : Host) (s : Daemon) (source group src : Addr) (data : Memory) : Prop :=
  Knows s (findVifDirect host src) (readJoinPruneHeader data).upstream →
    ∀ e ∈ foundSg s source group, e.outnumber ≠ 0 → e.upstream ≠ e.source → ForUpstream host e src data

instance (host : Host) (s : Daemon) (source group src : Addr) (data : Memory) :
    Decidable (PruneForUpstream host s source group src data) :=
  inferInstanceAs (Decidable (_ → _))

/-- An overheard Join is for a neighbour, and a delayed Join is in the slot of the entry. -/
def JoinSuppresses (host : Host) (s : Daemon) (source group src : Addr) (data : Memory) : Prop :=
  ∀ entry ∈ alarms s, isJoin source group entry.2 = true →
    Knows s (findVifDirect host src) (readJoinPruneHeader data).upstream ∧
      slot Mrt.joinDelayTimerId s source group = some entry.1

instance (host : Host) (s : Daemon) (source group src : Addr) (data : Memory) :
    Decidable (JoinSuppresses host s source group src data) :=
  inferInstanceAs (Decidable (∀ entry ∈ alarms s, _))

/-- The condition on an overheard message for the source and group. -/
def Heeds (host : Host) (s : Daemon) (source group src : Addr) (data : Memory) : Prop :=
  (joinCount data ≠ 0 → JoinSuppresses host s source group src data) ∧
    (joinCount data = 0 → PruneForUpstream host s source group src data)

instance (host : Host) (s : Daemon) (source group src : Addr) (data : Memory) :
    Decidable (Heeds host s source group src data) :=
  inferInstanceAs (Decidable (_ ∧ _))

/-- Every overheard message for the source and group meets the condition. -/
def Matched (host : Host) (source group : Addr) (before : Daemon × Chatter) (event : Event) : Prop :=
  OneByOne host event ∧
    match event with
    | .pimInput .joinPrune src data _ =>
        Overheard host src data → About data source group → Heeds host before.1 source group src data
    | _ => True

instance decidableMatched (host : Host) (source group : Addr) (before : Daemon × Chatter) :
    (event : Event) → Decidable (Matched host source group before event)
  | .pimInput .joinPrune src data _ =>
      inferInstanceAs (Decidable ((Overheard host src data → OneEach data) ∧
        (Overheard host src data → About data source group → Heeds host before.1 source group src data)))
  | .pimInput .hello .. | .pimInput .assert .. | .pimInput .graft .. | .pimInput .graftAck ..
  | .multicastPacketError .. | .acceptMembershipQuery .. | .acceptGroupReport .. | .acceptLeaveMessage ..
  | .age _ | .expire _ => isTrue ⟨trivial, trivial⟩

/-! ## Delayed Joins -/

/-- The delayed Joins for the source and group were set for Prunes to the upstream neighbour, and
no Join was overheard since. -/
structure Answers (source group : Addr) (s : Daemon) (chatter : Chatter) : Prop where
  orderly : Orderly s
  given : ∀ timer ∈ chatter.sent, timer ≤ s.id
  pending : ∀ entry ∈ alarms s, isJoin source group entry.2 = true →
    entry.1 ∈ chatter.prunes ∧ entry.1 ∉ chatter.sent ∧ chatter.joined = false
  usable : ∀ entry ∈ alarms s, isJoin source group entry.2 = true →
    inMulticast (ntohl group) = true ∧ inetValidHost source = true

section Steps

variable {chatter : Chatter}

/-- Events that set no such Join keep what holds of those that are pending. -/
theorem Answers.keep (answers : Answers source group s chatter) (orderly : Orderly s')
    (sets : Sets (NotJoin source group) s s') : Answers source group s' chatter := by
  have old : ∀ entry ∈ alarms s', isJoin source group entry.2 = true → entry ∈ alarms s := by
    intro entry member join
    rcases sets.old_or_new entry member with before | ⟨_, _, other⟩
    · exact before
    · rw [other] at join
      cases join
  refine ⟨orderly, fun timer sent => ?_, fun entry member join => ?_, fun entry member join => ?_⟩
  · have grown := sets.ids
    have given := answers.given timer sent
    omega
  · exact answers.pending entry (old entry member join) join
  · exact answers.usable entry (old entry member join) join

theorem Answers.heard (answers : Answers source group s chatter)
    (none : ∀ entry ∈ alarms s, isJoin source group entry.2 = false) :
    Answers source group s { chatter with joined := true } := by
  refine ⟨answers.orderly, answers.given, fun entry member join => ?_, answers.usable⟩
  rw [none entry member] at join
  cases join

theorem Answers.pruned (answers : Answers source group s chatter) (timers : List Int) :
    Answers source group s { chatter with prunes := timers ++ chatter.prunes, joined := false } := by
  refine ⟨answers.orderly, answers.given, fun entry member join => ?_, answers.usable⟩
  obtain ⟨set, unsent, _⟩ := answers.pending entry member join
  exact ⟨List.mem_append_right _ set, unsent, rfl⟩

/-- The first timer of the batch is called. -/
theorem Answers.popped {ptr : TimeoutQ} {rest : List TimeoutQ} (answers : Answers source group s chatter)
    (batch : s.expired = ptr :: rest) :
    Answers source group s.popExpired { chatter with sent := ptr.id :: chatter.sent } := by
  have all := alarms_cons batch
  have old : ∀ entry ∈ alarms s.popExpired, entry ∈ alarms s := fun entry member => all ▸ List.mem_cons_of_mem _ member
  have first : alarm ptr ∈ alarms s := all ▸ List.mem_cons_self
  have distinct := answers.orderly.distinct
  rw [all, List.map_cons, List.nodup_cons] at distinct
  refine ⟨orderly_update .popExpired answers.orderly, fun timer sent => ?_, fun entry member join => ?_,
    fun entry member join => answers.usable entry (old entry member) join⟩
  · rcases List.mem_cons.mp sent with rfl | before
    · exact (answers.orderly.bounds _ first).2
    · exact answers.given timer before
  · obtain ⟨set, unsent, unheard⟩ := answers.pending entry (old entry member) join
    refine ⟨set, fun sent => ?_, unheard⟩
    rcases List.mem_cons.mp sent with same | before
    · have again : entry.1 ∈ (alarms s.popExpired).map Prod.fst := List.mem_map_of_mem member
      rw [same] at again
      exact distinct.1 again
    · exact unsent before

/-- An overheard Join stops the delayed Join in the slot. -/
theorem Answers.overhearsJoin (answers : Answers source group s chatter) (orderly : Orderly s')
    (about : About data source group) (hears : Overhears s (findVifDirect host src) data s')
    (only : pruneCount data ≠ 1) (suppresses : JoinSuppresses host s source group src data) :
    Answers source group s' { chatter with joined := true } := by
  obtain ⟨rfl, rfl⟩ := about
  cases hears with
  | ignored unread same =>
      rw [same]
      refine answers.heard fun entry member => Bool.eq_false_iff.mpr fun join => unread ?_
      obtain ⟨known, holds⟩ := suppresses entry member join
      refine ⟨known, answers.usable entry member join, inTable_iff_foundSg.mpr ?_⟩
      rw [slot_eq_map] at holds
      obtain ⟨e, found, _⟩ := Option.map_eq_some_iff.mp holds
      rw [found]
      rfl
  | joined joins found given cleared =>
      have old : ∀ entry ∈ alarms s', entry ∈ alarms s := fun entry member => ((cleared entry).mp member).1
      have kept := answers.keep orderly ⟨Int.le_of_eq given.symm, fun entry member => Or.inl (old entry member)⟩
      refine kept.heard fun entry member => Bool.eq_false_iff.mpr fun join => ?_
      obtain ⟨before, other⟩ := (cleared entry).mp member
      have holds := (suppresses entry before join).2
      rw [slot_eq_map, found] at holds
      exact other (Option.some.inj holds).symm
  | unwanted prunes given same => exact absurd prunes only
  | pruned prunes known usable found wanted remote given set => exact absurd prunes only

/-- An overheard Prune sets a delayed Join, if any, whose id is noted. -/
theorem Answers.overhearsPrune (answers : Answers source group s chatter) (orderly : Orderly s')
    (about : About data source group) (hears : Overhears s (findVifDirect host src) data s')
    (only : joinCount data ≠ 1) (matched : PruneForUpstream host s source group src data) :
    Answers source group s'
      (if ∃ e ∈ foundSg s source group, ForUpstream host e src data then
        { chatter with prunes := newTimer s s' ++ chatter.prunes, joined := false }
      else chatter) := by
  have noted : ∀ {state : Daemon}, Answers source group state chatter → Answers source group state
      (if ∃ e ∈ foundSg s source group, ForUpstream host e src data then
        { chatter with prunes := newTimer s s' ++ chatter.prunes, joined := false }
      else chatter) := by
    intro state kept
    split
    · exact kept.pruned _
    · exact kept
  obtain ⟨rfl, rfl⟩ := about
  cases hears with
  | ignored unread same =>
      rw [same] at noted ⊢
      exact noted answers
  | joined joins found given cleared => exact absurd joins only
  | unwanted prunes given same =>
      refine noted (answers.keep orderly ⟨Int.le_of_eq given.symm, fun entry member => Or.inl ?_⟩)
      rw [← same]
      exact member
  | pruned prunes known usable found wanted remote given set =>
      have upstream := matched known _ found wanted remote
      have later : s.id < s'.id := by omega
      rw [if_pos ⟨_, found, upstream⟩, newTimer, if_pos later, given]
      refine ⟨orderly, fun timer sent => ?_, fun entry member join => ?_, fun entry member join => ?_⟩
      · have before := answers.given timer sent
        omega
      · rcases (set entry).mp member with rfl | old
        · refine ⟨List.mem_cons_self, fun sent => ?_, rfl⟩
          have before := answers.given _ sent
          dsimp only at before
          omega
        · obtain ⟨known, unsent, _⟩ := answers.pending entry old join
          exact ⟨List.mem_cons_of_mem _ known, unsent, rfl⟩
      · exact usable

/-- An overheard message of one group and one source that meets the condition. -/
theorem Answers.overhears (answers : Answers source group s chatter) (overheard : Overheard host src data)
    (one : OneEach data) (heeds : About data source group → Heeds host s source group src data)
    (taken : Step host s (.pimInput .joinPrune src data length) s') :
    Answers source group s' (noteChatter host source group s (.pimInput .joinPrune src data length) s' chatter) := by
  have orderly : Orderly s' := orderly_of_changes (handle_anything taken.2) answers.orderly
  have idle : s.expired = [] := idle_of_enabled rfl taken.1
  have hears := receiveJoinPrune_overhears answers.orderly idle overheard one taken.2
  have total := one.sources
  unfold noteChatter
  dsimp only
  by_cases about : About data source group
  · rw [if_neg (not_not.mpr ⟨overheard, about⟩)]
    by_cases joins : joinCount data = 0
    · rw [if_neg (not_not.mpr joins)]
      exact answers.overhearsPrune orderly about hears (by omega) ((heeds about).2 joins)
    · rw [if_pos joins]
      exact answers.overhearsJoin orderly about hears (by omega) ((heeds about).1 joins)
  · rw [if_pos fun both => about both.2]
    refine answers.keep orderly (hears.sets (Bool.eq_false_iff.mpr fun join => about ?_))
    exact isJoin_iff.mp join

/-- An event keeps what holds of the delayed Joins. -/
theorem Answers.step (answers : Answers source group s chatter)
    (matched : Matched host source group (s, chatter) event) (taken : Step host s event s') :
    Answers source group s' (noteChatter host source group s event s' chatter) := by
  have orderly : Orderly s' := orderly_of_changes (handle_anything taken.2) answers.orderly
  have kept : (∀ src data length, event ≠ .pimInput .joinPrune src data length) → Answers source group s' chatter :=
    fun different => answers.keep orderly (sets_of_changes (handle_setsNoJoin notJoin_other different taken.2))
  cases event with
  | pimInput type src data length =>
      cases type with
      | joinPrune =>
          by_cases overheard : Overheard host src data
          · exact answers.overhears overheard (matched.1 overheard) (matched.2 overheard) taken
          · have others : ∀ func, (∀ data, func ≠ .sendJoin data) → NotJoin source group func := notJoin_other
            have changes := receiveJoinPrune_addressed others overheard taken.2
            unfold noteChatter
            dsimp only
            rw [if_pos fun both => overheard both.1]
            exact answers.keep orderly (sets_of_changes changes)
      | _ => exact kept fun _ _ _ same => by cases same
  | expire pktcnt =>
      unfold noteChatter
      dsimp only
      split
      · rename_i sends
        obtain ⟨func, calls, join⟩ := sends.1
        obtain ⟨ptr, rest, batch, rfl⟩ := called_batch calls
        have changes : Changes .table (NotJoin source group) s.popExpired s' :=
          callFunc_setsNoJoin notJoin_other ptr.func s.popExpired () s' (runs_called calls taken.2)
        have noted : (calledId s (.expire pktcnt)).toList = [ptr.id] := by
          rw [calledId, batch]
          rfl
        rw [noted]
        exact (answers.popped batch).keep orderly (sets_of_changes changes)
      · exact kept fun _ _ _ same => by cases same
  | _ => exact kept fun _ _ _ same => by cases same

end Steps

theorem answers_start (started : Start host s) : Answers source group s .none := by
  obtain ⟨pimSendBuf, booted⟩ := started
  have changes : Changes .quiet (NotJoin source group) (Daemon.blank pimSendBuf) s :=
    boot_changes (A := NotJoin source group) (fun _ => rfl) (fun _ => rfl) rfl host _ () s booted
  have sets := sets_of_changes changes
  have none : ∀ entry ∈ alarms s, isJoin source group entry.2 = false := by
    intro entry member
    rcases sets.old_or_new entry member with before | ⟨_, _, other⟩
    · exact absurd before List.not_mem_nil
    · exact other
  refine ⟨start_orderly ⟨pimSendBuf, booted⟩, fun _ sent => absurd sent List.not_mem_nil, fun entry member join => ?_,
    fun entry member join => ?_⟩
  · rw [none entry member] at join
    cases join
  · rw [none entry member] at join
    cases join

theorem answers_of_run {before : Daemon × Chatter}
    (run : ReachableWith host (noteChatter host source group) .none (Matched host source group) before) :
    Answers source group before.1 before.2 := by
  obtain ⟨start, started, steps⟩ := run
  refine steps.keeps (P := fun state => Answers source group state.1 state.2) (answers_start started) ?_
  rintro ⟨state, noted⟩ event ⟨after, more⟩ answers matched ⟨taken, note⟩
  dsimp only at note taken answers
  rw [note]
  exact answers.step matched taken

/-! ## The property -/

/-- In every run whose overheard Prunes that set a timer are for the upstream neighbour, and whose
overheard Joins find every delayed Join in the slot, a Join is sent by a timer that such a
Prune set and that has sent none, and no Join was overheard since the last of these Prunes. -/
theorem joins_answer_prunes {before : Daemon × Chatter} {pktcnt : Int}
    (run : ReachableWith host (noteChatter host source group) .none (Matched host source group) before)
    (sends : SendsJoin source group before.1 (.expire pktcnt) s') :
    before.2.joined = false ∧
      ∃ timer ∈ calledId before.1 (.expire pktcnt), timer ∈ before.2.prunes ∧ timer ∉ before.2.sent := by
  have answers := answers_of_run run
  obtain ⟨func, calls, join⟩ := sends.1
  obtain ⟨ptr, rest, batch, rfl⟩ := called_batch calls
  have first : alarm ptr ∈ alarms before.1 := alarm_mem_of_batch batch
  obtain ⟨set, unsent, unheard⟩ := answers.pending (alarm ptr) first join
  refine ⟨unheard, ptr.id, ?_, set, unsent⟩
  rw [calledId, batch]
  rfl

/-- A neighbour on the incoming interface prunes, and no Join is overheard for a second. -/
theorem joins_answer_prunes_session :
    ∃ before after, ReachableWith router (noteChatter router studio channel) .none
      (Matched router studio channel) before ∧
      SendsJoin studio channel before.1 (.expire 0) after ∧ before.2.joined = false ∧
        ∃ timer ∈ calledId before.1 (.expire 0), timer ∈ before.2.prunes ∧ timer ∉ before.2.sent := by
  have passed : endsWithEvent router (noteChatter router studio channel) (Matched router studio channel) .none
      [helloFrom (stationOn 1 7) 310, helloFrom (stationOn 2 9) 310, upcall 1 1 (stationOn 1 7) studio channel,
        joinPruneFrom (stationOn 1 8) (stationOn 1 7) studio channel 0 1, .age 1] (.expire 0)
      (fun before after => decide (SendsJoin studio channel before.1 (.expire 0) after.1)) = true := by
    decide +kernel
  obtain ⟨before, after, run, _, _, seen⟩ := step_of_endsWithEvent passed
  have sends := of_decide_eq_true seen
  exact ⟨before, after.1, run, sends, joins_answer_prunes run sends⟩

/-- A Prune on another interface, for another neighbour, is answered too. -/
theorem joins_answer_strangers :
    ¬ ∀ (host : Host) (source group : Addr) (before : Daemon × Chatter) (pktcnt : Int) (after : Daemon),
      ReachableWith host (noteChatter host source group) .none (fun _ => OneByOne host) before →
        Step host before.1 (.expire pktcnt) after →
        (∀ e ∈ foundSg before.1 source group, e.upstream ≠ e.source) →
        SendsJoin source group before.1 (.expire pktcnt) after →
          before.2.joined = false ∧
            ∃ timer ∈ calledId before.1 (.expire pktcnt), timer ∈ before.2.prunes ∧ timer ∉ before.2.sent := by
  intro answered
  have passed : endsWithEvent router (noteChatter router studio channel) (fun _ => OneByOne router) .none
      [helloFrom (stationOn 2 9) 310, upcall 1 1 (stationOn 1 7) studio channel,
        joinPruneFrom (stationOn 2 8) (stationOn 2 9) studio channel 0 1, .age 1] (.expire 0)
      (fun before after => decide (SendsJoin studio channel before.1 (.expire 0) after.1) &&
        (decide (∀ e ∈ foundSg before.1 studio channel, e.upstream ≠ e.source) &&
          before.2.prunes.isEmpty)) = true := by
    decide +kernel
  obtain ⟨before, after, run, _, taken, seen⟩ := step_of_endsWithEvent passed
  obtain ⟨sends, rest⟩ := Bool.and_eq_true_iff.mp seen
  obtain ⟨remote, empty⟩ := Bool.and_eq_true_iff.mp rest
  obtain ⟨_, timer, _, set, _⟩ := answered router studio channel before 0 after.1 run taken.1
    (of_decide_eq_true remote) (of_decide_eq_true sends)
  rw [List.isEmpty_iff.mp empty] at set
  exact List.not_mem_nil set

end PimDm.Property
