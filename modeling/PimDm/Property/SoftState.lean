import Mathlib.Data.Finset.Option
import PimDm.Property.Keepalive
import PimDm.Property.TimerKeeping
import PimDm.Refinement.Upkeep
import PimDm.Routing.Copies

/-!
# An entry that is not renewed goes

An entry stays in the table only as long as its source and group are heard, whatever else happens
and however many entries and timers of one source and group have come about.
-/

namespace PimDm.Property

open PimDm.Foundation PimDm.Source PimDm.Effect PimDm.Routing PimDm.Refinement

variable {host : Host} {s s' : Daemon} {event : Event} {func : Callback} {source group : Addr} {now : Int}

/-! ## Time -/

/-- Timers of these functions run on time: no second passes while one of them is overdue, and none
beyond the time it is due. -/
def OnTimeFor (A : Callback → Prop) (s : Daemon) (now : Int) : Event → Prop
  | .age elapsedTime => 0 < elapsedTime → ∀ entry ∈ agenda now s, A entry.2.2 → now + elapsedTime ≤ entry.1
  | _ => True

instance decidableOnTimeFor (A : Callback → Prop) [DecidablePred A] (s : Daemon) (now : Int) :
    (event : Event) → Decidable (OnTimeFor A s now event)
  | .age elapsedTime =>
      inferInstanceAs (Decidable (0 < elapsedTime → ∀ entry ∈ agenda now s, A entry.2.2 → now + elapsedTime ≤ entry.1))
  | .multicastPacketError .. | .acceptMembershipQuery .. | .acceptGroupReport ..
  | .acceptLeaveMessage .. | .pimInput .. | .expire _ => isTrue trivial

/-- On time, a timer that was not overdue is not overdue after ageing. -/
theorem OnTimeFor.punctual {A : Callback → Prop} {elapsedTime : Nat} (onTime : OnTimeFor A s now (.age elapsedTime))
    (timely : A func) {time timer : Int} (member : (time, timer, func) ∈ agenda now s) (waits : now ≤ time) :
    now + elapsedTime ≤ time := by
  rcases Nat.eq_zero_or_pos elapsedTime with rfl | passes
  · rwa [Int.natCast_zero, Int.add_zero]
  · exact onTime passes _ member timely

/-- Ageing leaves the timers of a function due when they were, if it makes none of them overdue. -/
theorem agenda_age_same (idle : s.expired = []) {elapsedTime : Nat}
    (punctual : ∀ time timer, (time, timer, func) ∈ agenda now s → now + elapsedTime ≤ time) (time timer : Int) :
    (time, timer, func) ∈ agenda (now + elapsedTime) (s.age elapsedTime) ↔ (time, timer, func) ∈ agenda now s := by
  constructor
  · intro member
    rcases agenda_age idle member with waits | ⟨here, earlier, old, before⟩
    · exact waits
    · have late := punctual earlier timer old
      have same : earlier = time := by
        dsimp only at here before
        omega
      rwa [← same]
  · intro member
    exact agenda_age_punctual idle member (punctual time timer member)

theorem seconds_of_passes (passes : ∀ elapsedTime, event ≠ .age elapsedTime) (now : Int) :
    now + Event.seconds event = now := by
  cases event with
  | age elapsedTime => exact absurd rfl (passes elapsedTime)
  | _ => exact Int.add_zero now

/-! ## Entries -/

/-- The event creates an entry of the source and group, or is a check of it that finds more packets
than any check before. -/
def Renews (host : Host) (s : Daemon) (source group : Addr) : Event → Prop
  | .multicastPacketError mydata checked _ =>
      (mydata.message = 1 ∧ findVifDirect host (getUpstream host checked mydata.source) = mydata.vif) ∧
        mydata.source = source ∧ mydata.destination = group
  | .expire pktcnt => called s (.expire pktcnt) = some (.checkSg source group) ∧ pktcnt > s.packetNumber
  | _ => False

instance decidableRenews (host : Host) (s : Daemon) (source group : Addr) :
    (event : Event) → Decidable (Renews host s source group event)
  | .multicastPacketError mydata checked _ =>
      inferInstanceAs (Decidable ((mydata.message = 1 ∧
        findVifDirect host (getUpstream host checked mydata.source) = mydata.vif) ∧
        mydata.source = source ∧ mydata.destination = group))
  | .expire pktcnt =>
      inferInstanceAs (Decidable (called s (.expire pktcnt) = some (.checkSg source group) ∧ pktcnt > s.packetNumber))
  | .acceptMembershipQuery .. | .acceptGroupReport .. | .acceptLeaveMessage .. | .pimInput .. | .age _ => isFalse id

/-- The time of the last renewal of each source and group. -/
abbrev Renewals := Addr → Addr → Option Int

/-- Note which source and group an event renews, and let its time pass. -/
def noteRenewal (host : Host) (before : Daemon) (event : Event) (_ : Daemon) (history : Timed Renewals) :
    Timed Renewals :=
  ⟨history.now + Event.seconds event, fun source group =>
    if Renews host before source group event then some history.now else history.seen source group⟩

/-- The expiry of an entry. -/
def Expires : Callback → Prop
  | .handleSgTimeout .. => True
  | _ => False

instance decidableExpires : DecidablePred Expires
  | .handleSgTimeout .. => isTrue trivial
  | .timer | .pimHelloOutput _ | .deletePimNeighbor _ | .sendJoin _ | .pruneTimeOut _ | .setPrune _
  | .activeForward _ | .planGraft _ | .checkSg .. | .sendQuery _ | .retryQuery _ | .leaveQuery .. => isFalse id

/-- The entries of a source and group are held by the expiries that are pending. -/
def EntryLease (now : Int) (s : Daemon) (source group : Addr) (renewed : Option Int) : Prop :=
  Leasehold (agenda now s) (.handleSgTimeout source group) ((table s).copies source group) now
    (renewed.map (· + pimSgTimeout))

theorem mem_deadline {renewed : Option Int} {last : Int} :
    last ∈ renewed.map (· + pimSgTimeout) ↔ ∃ renewal ∈ renewed, renewal + pimSgTimeout = last := Option.mem_map

/-- Entries that have been renewed now are held for the whole timeout. -/
theorem EntryLease.renewed {renewed : Option Int} (lease : EntryLease now s source group renewed)
    (past : ∀ renewal ∈ renewed, renewal ≤ now) (orderly : Orderly s) (spent : Finset Int)
    (copies : (table s').copies source group + spent.card ≤ (table s).copies source group + 1)
    (set : (now + pimSgTimeout, s.id + 1, .handleSgTimeout source group) ∈ agenda now s')
    (kept : ∀ time other, (time, other, .handleSgTimeout source group) ∈ agenda now s → other ∉ spent →
      (time, other, .handleSgTimeout source group) ∈ agenda now s')
    (only : ∀ time other, (time, other, .handleSgTimeout source group) ∈ agenda now s' →
      time = now + pimSgTimeout ∨ (time, other, .handleSgTimeout source group) ∈ agenda now s) :
    EntryLease now s' source group (some now) := by
  have positive : (0 : Int) ≤ pimSgTimeout := by decide
  refine Leasehold.renew lease spent copies ?_ set kept fun time other member => ?_
  · intro runs
    obtain ⟨time, old⟩ := mem_running.mp runs
    have bounds : 0 < s.id + 1 ∧ s.id + 1 ≤ s.id := orderly.bounds _ (mem_alarms_of_agenda old)
    omega
  · rcases only time other member with rfl | old
    · exact ⟨by omega, now + pimSgTimeout, rfl, Int.le_refl _⟩
    · obtain ⟨waits, last, deadline, due⟩ := lease.timely time other old
      obtain ⟨renewal, seen, rfl⟩ := mem_deadline.mp deadline
      have before := past renewal seen
      exact ⟨waits, now + pimSgTimeout, rfl, by omega⟩

/-- An event that renews nothing of the source and group leaves as many entries, or fewer. -/
theorem copies_beside (zero : host.ZeroFilled) (models : Models s (table s)) (idle : ¬ Extends s source group event)
    (other : called s event ≠ some (.handleSgTimeout source group)) (run : Runs (handle host event) s () s') :
    (table s').copies source group = (table s).copies source group := by
  have carried := (handle_models zero models run).models.table_eq
  rw [carried]
  have asks := requested_asks host s event
  generalize requested host s event = change at asks
  cases asks with
  | create first right =>
      rw [Change.apply, Table.copies_create, if_neg fun same => idle ⟨first, same⟩, Nat.add_zero]
  | remove calls =>
      refine Table.copies_remove_other ?_
      rintro ⟨rfl, rfl⟩
      exact other calls
  | _ =>
      refine Change.apply_copies ?_ (table s) source group
      exact trivial

/-- The upcall for a missing entry. -/
theorem EntryLease.upcall {renewed : Option Int} (lease : EntryLease now s source group renewed)
    (zero : host.ZeroFilled)
    (owned : Owned s) (models : Models s (table s)) (past : ∀ renewal ∈ renewed, renewal ≤ now)
    {mydata : MulticastErrorData} {checked routed : Addr}
    (extends_ : Extends s source group (.multicastPacketError mydata checked routed))
    (run : Runs (handle host (.multicastPacketError mydata checked routed)) s () s') :
    EntryLease now s' source group
      (if Renews host s source group (.multicastPacketError mydata checked routed) then some now else renewed) := by
  obtain ⟨first, rfl, rfl⟩ := extends_
  rcases upcall_grants zero owned first run with ⟨right, granted⟩ | ⟨wrong, rfl⟩
  · rw [if_pos ⟨⟨first, right⟩, rfl, rfl⟩]
    refine lease.renewed past owned.orderly ∅ ?_ (granted.set now)
      (fun time timer member _ => granted.kept now time timer member)
      (granted.only now)
    have carried := (handle_models zero models run).models.table_eq
    have created : requested host s (.multicastPacketError mydata checked routed) = .create s.mrts.fresh
        (getUpstream host routed mydata.source) mydata.source mydata.destination mydata.vif := if_pos ⟨first, right⟩
    rw [carried, created, Change.apply, Table.copies_create, if_pos ⟨rfl, rfl⟩, Finset.card_empty]
  · rw [if_neg fun renews => wrong renews.1.2]
    exact lease

/-- A check of the source and group. -/
theorem EntryLease.check {renewed : Option Int} (lease : EntryLease now s source group renewed) (zero : host.ZeroFilled)
    (owned : Owned s) (named : ChecksNamed s) (models : Models s (table s)) (past : ∀ renewal ∈ renewed, renewal ≤ now)
    {pktcnt : Int} (calls : called s (.expire pktcnt) = some (.checkSg source group))
    (taken : Step host s (.expire pktcnt) s') :
    EntryLease now s' source group (if Renews host s source group (.expire pktcnt) then some now else renewed) := by
  have copies : (table s').copies source group = (table s).copies source group := by
    rw [(handle_models zero models taken.2).models.table_eq, requested_expire calls]
    rfl
  obtain ⟨_, ⟨fresh, expiries⟩ | ⟨stale, same⟩⟩ := checkSg_expires owned.orderly named calls taken
  · rw [if_pos ⟨calls, fresh⟩]
    refine lease.renewed past owned.orderly (slot Mrt.timeoutId s source group).toFinset ?_ ?_ ?_ ?_
    · have few : (slot Mrt.timeoutId s source group).toFinset.card ≤ 1 := by
        cases slot Mrt.timeoutId s source group with
        | none => exact Nat.zero_le 1
        | some timer => exact Nat.le_refl 1
      rw [copies]
      exact Nat.add_le_add_left few _
    · refine mem_agenda_zero.mpr ((expiries _ _).mpr (Or.inl ⟨?_, rfl⟩))
      omega
    · intro time other member unspent
      refine mem_agenda_zero.mpr ((expiries _ _).mpr
        (Or.inr ⟨mem_agenda_zero.mp member, Or.inl fun slotted => unspent ?_⟩))
      exact Option.mem_toFinset.mpr slotted
    · intro time other member
      rcases (expiries _ _).mp (mem_agenda_zero.mp member) with ⟨new, _⟩ | ⟨old, _⟩
      · exact Or.inl (by omega)
      · exact Or.inr (mem_agenda_zero.mpr old)
  · rw [if_neg fun renews => stale renews.2]
    refine lease.carry (Nat.le_of_eq copies) fun time timer => ?_
    exact mem_agenda_zero.trans ((same _ _).trans mem_agenda_zero.symm)

theorem EntryLease.step {renewed : Option Int} (lease : EntryLease now s source group renewed) (zero : host.ZeroFilled)
    (owned : Owned s) (named : ChecksNamed s) (models : Models s (table s)) (past : ∀ renewal ∈ renewed, renewal ≤ now)
    (punctual : OnTimeFor Expires s now event) (taken : Step host s event s') :
    EntryLease (now + Event.seconds event) s' source group
      (if Renews host s source group event then some now else renewed) := by
  by_cases passes : ∀ elapsedTime, event ≠ .age elapsedTime
  case neg =>
    simp only [not_forall, not_not] at passes
    obtain ⟨elapsedTime, rfl⟩ := passes
    obtain rfl := runs_modify.mp taken.2
    have idle := idle_of_enabled rfl taken.1
    have expires : Expires (.handleSgTimeout source group) := trivial
    have onTime : ∀ time timer, (time, timer, .handleSgTimeout source group) ∈ agenda now s →
      now + elapsedTime ≤ time :=
      fun time timer member => punctual.punctual expires member (lease.timely time timer member).1
    exact lease.wait (agenda_age_same idle onTime) onTime
  rw [seconds_of_passes passes]
  by_cases lapses : called s event = some (.handleSgTimeout source group)
  · cases event with
    | expire pktcnt =>
        have other : ¬ Renews host s source group (.expire pktcnt) := by
          intro renews
          have same := lapses.symm.trans renews.1
          cases same
        obtain ⟨ptr, rest, batch, calls⟩ := called_batch lapses
        have carried := (handle_models zero models taken.2).models.table_eq
        unfold EntryLease at lease
        rw [agenda_popExpired batch] at lease
        rw [if_neg other]
        refine lease.lapse.carry ?_ (lapse_expiries zero owned lapses taken.2 now)
        rw [carried, requested_expire lapses]
        exact Nat.le_of_eq (Table.copies_remove source group)
    | _ => cases lapses
  by_cases touches : Extends s source group event
  · cases event with
    | multicastPacketError mydata checked routed => exact lease.upcall zero owned models past touches taken.2
    | expire pktcnt => exact lease.check zero owned named models past touches taken
    | _ => exact touches.elim
  have other : ¬ Renews host s source group event := by
    intro renews
    cases event with
    | multicastPacketError mydata checked routed => exact touches ⟨renews.1.1, renews.2⟩
    | expire pktcnt => exact touches renews.1
    | _ => exact renews
  rw [if_neg other]
  refine lease.carry (Nat.le_of_eq (copies_beside zero models touches lapses taken.2)) ?_
  exact handle_expiries zero owned passes touches lapses taken.2 now

theorem start_entryLease (started : Start host s) (source group : Addr) : EntryLease 0 s source group none := by
  have empty : (table s).copies source group = 0 := by
    rw [(start_models started).table_eq]
    rfl
  unfold EntryLease
  rw [empty]
  refine .vacant fun time timer member => ?_
  have known : (time, .handleSgTimeout source group) ∈ calls 0 s := List.mem_map_of_mem member
  rw [(start_calls started 0).mem_iff] at known
  rcases List.mem_cons.mp known with same | other
  · cases same
  · obtain ⟨vif, _, inside⟩ := List.mem_flatMap.mp other
    simp [vifCalls] at inside

/-- As long as the expiries of entries run on time, an entry is in the table only if its source and
group have been renewed in the last 298 seconds. -/
theorem entries_expire (zero : host.ZeroFilled) {history : Timed Renewals}
    (reached : ReachableWith host (noteRenewal host) ⟨0, fun _ _ => none⟩
      (fun before event => OnTimeFor Expires before.1 before.2.now event) (s, history))
    {item : Ptr × Route} (listed : item ∈ (table s).entries) :
    ∃ renewal ∈ history.seen item.2.source item.2.group,
      renewal ≤ history.now ∧ history.now ≤ renewal + pimSgTimeout := by
  obtain ⟨start, started, run⟩ := reached
  have held : Reachable host (fun _ _ => True) s ∧ ChecksNamed s ∧ ∀ source group,
      (∀ renewal ∈ history.seen source group, renewal ≤ history.now) ∧
        EntryLease history.now s source group (history.seen source group) := by
    refine run.keeps (P := fun state : Daemon × Timed Renewals => Reachable host (fun _ _ => True) state.1 ∧
      ChecksNamed state.1 ∧ ∀ source group, (∀ renewal ∈ state.2.seen source group, renewal ≤ state.2.now) ∧
        EntryLease state.2.now state.1 source group (state.2.seen source group)) ?_ ?_
    · refine ⟨⟨start, started, .refl start⟩, start_checksNamed started, fun source group => ⟨?_, ?_⟩⟩
      · intro renewal never
        cases never
      · exact start_entryLease started source group
    · rintro before event after ⟨⟨first, begun, earlier⟩, named, leases⟩ punctual ⟨taken, noted⟩
      have reached : Reachable host (fun _ _ => True) before.1 := ⟨first, begun, earlier⟩
      have owned := reachable_owned zero reached
      refine ⟨⟨first, begun, earlier.snoc trivial taken⟩, handle_checksNamed owned.orderly named taken.2,
        fun source group => ?_⟩
      obtain ⟨past, lease⟩ := leases source group
      rw [noted]
      refine ⟨fun renewal seen => ?_, lease.step zero owned named (reachable_models zero reached) past punctual taken⟩
      have later : before.2.now ≤ before.2.now + Event.seconds event :=
        Int.le_add_of_nonneg_right (Int.natCast_nonneg _)
      dsimp only [noteRenewal] at seen
      split at seen
      · cases seen
        exact later
      · exact Int.le_trans (past renewal seen) later
  obtain ⟨past, lease⟩ := held.2.2 item.2.source item.2.group
  have some : 0 < (table s).copies item.2.source item.2.group :=
    Table.copies_pos.mpr ⟨item, listed, by simp [routeIsFor]⟩
  obtain ⟨last, deadline, waits⟩ := lease.current some
  obtain ⟨renewal, seen, rfl⟩ := mem_deadline.mp deadline
  exact ⟨renewal, seen, past renewal seen, waits⟩

/-- An entry whose check after 30 seconds has found 100 packets, half a minute later. -/
theorem entries_expire_session : ∃ s history, ReachableWith loneRouter (noteRenewal loneRouter) ⟨0, fun _ _ => none⟩
      (fun before event => OnTimeFor Expires before.1 before.2.now event) (s, history) ∧ history.now = 60 ∧
    ∃ item ∈ (table s).entries, ∃ renewal ∈ history.seen item.2.source item.2.group,
      renewal ≤ history.now ∧ history.now ≤ renewal + pimSgTimeout := by
  have passed : endsWithHistory loneRouter (noteRenewal loneRouter)
      (fun before event => OnTimeFor Expires before.1 before.2.now event) ⟨0, fun _ _ => none⟩
      [upcall 1 1 (stationOn 1 2) studio channel, .age 30, .expire 0, .expire 0, .expire 0, .expire 100, .age 30]
      (fun final => decide (final.2.now = 60 ∧ (table final.1).entries ≠ [])) = true := by
    decide +kernel
  obtain ⟨⟨s, history⟩, reached, ended⟩ := reachable_of_endsWithHistory passed
  obtain ⟨now, some⟩ := of_decide_eq_true ended
  obtain ⟨item, listed⟩ := List.exists_mem_of_ne_nil _ some
  exact ⟨s, history, reached, now, item, listed, entries_expire loneRouter_zeroFilled reached listed⟩

end PimDm.Property
