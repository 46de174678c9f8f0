import PimDm.Property.Session
import PimDm.Refinement.Checks

/-!
# The entry that `check_sg` looks up

`check_sg` uses the entry `find_sg` returns without a test.  The entry is there as long
as no timeout removes the last entry of a source and group whose check waits behind the
timeout in the same batch.
-/

namespace PimDm.Property

open PimDm.Foundation PimDm.Source PimDm.Effect PimDm.Refinement

variable {host : Host} {s s' later : Daemon} {source group : Addr} {pktcnt : Int}
  {items : List (Ptr × (Addr × Addr) × Int)}

/-- A check of the source and group is one of the timers that are still to be called. -/
def CheckWaits (s : Daemon) (source group : Addr) : Prop := ∃ ptr ∈ s.expired, ptr.func = .checkSg source group

instance (s : Daemon) (source group : Addr) : Decidable (CheckWaits s source group) :=
  inferInstanceAs (Decidable (∃ ptr ∈ s.expired, _))

/-- A timeout that is called before a check of its own batch leaves another entry of the
source and group. -/
def LeavesOne (s : Daemon) : Callback → Prop
  | .handleSgTimeout source group => CheckWaits s.popExpired source group → 2 ≤ (entriesOf s source group).length
  | _ => True

instance decidableLeavesOne (s : Daemon) : (func : Callback) → Decidable (LeavesOne s func)
  | .handleSgTimeout source group =>
      inferInstanceAs (Decidable (CheckWaits s.popExpired source group → 2 ≤ (entriesOf s source group).length))
  | .timer | .pimHelloOutput _ | .deletePimNeighbor _ | .sendJoin _ | .pruneTimeOut _ | .setPrune _
  | .activeForward _ | .planGraft _ | .checkSg .. | .sendQuery _ | .retryQuery _ | .leaveQuery .. => isTrue trivial

/-- The timer that an event calls, if it does, is no timeout that takes the last entry away from
a check behind it. -/
def ChecksFirst (s : Daemon) (event : Event) : Prop := ∀ func ∈ called s event, LeavesOne s func

instance (s : Daemon) (event : Event) : Decidable (ChecksFirst s event) :=
  inferInstanceAs (Decidable (∀ func ∈ called s event, _))

/-- The rest of a batch. -/
def InBatch (_ : Daemon) (event : Event) : Prop := event.isExpire = true

/-! ## The invariant -/

theorem popExpired_keepsChecks (s : Daemon) : KeepsChecks s s.popExpired := by
  have inside : Permits .lists NotCheck .popExpired := ⟨Level.quiet_le _, trivial⟩
  exact keepsChecks_update inside s

/-- What a timeout leaves, when it is called. -/
theorem timeout_leaves (orderly : Orderly s) (listed : ChecksListed s items)
    (calls : called s (.expire pktcnt) = some (.handleSgTimeout source group))
    (run : Runs (handle host (.expire pktcnt)) s () s') :
    (s' = s.popExpired ∧ ∀ item ∈ items, item.2.1 ≠ (source, group)) ∨
      ∃ ahead item behind, items = ahead ++ item :: behind ∧ (∀ other ∈ ahead, other.2.1 ≠ (source, group)) ∧
        item.2.1 = (source, group) ∧ s'.expired = s.popExpired.expired ∧
        s'.mrts.Shows Mrt.next checkOf s'.themrt (ahead ++ behind) ∧
        ∀ id first second, (id, .checkSg first second) ∈ s'.queue.map alarm →
          ((first, second), id) ∈ (ahead ++ behind).map Prod.snd := by
  have call := runs_called calls run
  obtain ⟨result, _, delete, stop⟩ := runs_bind.mp call
  obtain ⟨_, rfl⟩ := runs_pure.mp stop
  exact (listed.keeps (popExpired_keepsChecks s)).deleteSg (orderly_update .popExpired orderly) delete

/-- There are two entries exactly when there is one behind the first. -/
theorem two_entries_iff {ahead behind : List (Ptr × (Addr × Addr) × Int)} {item : Ptr × (Addr × Addr) × Int}
    (shows : s.mrts.Shows Mrt.next checkOf s.themrt (ahead ++ item :: behind))
    (before : ∀ other ∈ ahead, other.2.1 ≠ (source, group)) (key : item.2.1 = (source, group)) :
    2 ≤ (entriesOf s source group).length ↔ (source, group) ∈ (ahead ++ behind).map fun item => item.2.1 := by
  have none : ahead.filter (fun item => item.2.1 == (source, group)) = [] := by
    refine List.filter_eq_nil_iff.mpr fun other member same => ?_
    exact before other member (eq_of_beq same)
  have count : (entriesOf s source group).length =
      (behind.filter fun item => item.2.1 == (source, group)).length + 1 := by
    rw [entriesOf_eq shows, List.length_map, List.filter_append, none, List.nil_append, List.filter_cons,
      if_pos (beq_iff_eq.mpr key), List.length_cons]
  rw [count]
  constructor
  · intro two
    have some : 0 < (behind.filter fun item => item.2.1 == (source, group)).length := by omega
    obtain ⟨other, member⟩ := List.exists_mem_of_length_pos some
    obtain ⟨inside, same⟩ := List.mem_filter.mp member
    exact List.mem_map.mpr ⟨other, List.mem_append_right _ inside, eq_of_beq same⟩
  · intro listed
    obtain ⟨other, inside, same⟩ := List.mem_map.mp listed
    rcases List.mem_append.mp inside with left | right
    · exact absurd same (before other left)
    · have member : other ∈ behind.filter fun item => item.2.1 == (source, group) :=
        List.mem_filter.mpr ⟨right, beq_iff_eq.mpr same⟩
      have positive := List.length_pos_of_mem member
      omega

/-- A timeout that leaves another entry keeps every check's entry. -/
theorem checksListed_timeout (orderly : Orderly s) (listed : ChecksListed s items)
    (calls : called s (.expire pktcnt) = some (.handleSgTimeout source group))
    (spare : CheckWaits s.popExpired source group → 2 ≤ (entriesOf s source group).length)
    (run : Runs (handle host (.expire pktcnt)) s () s') : ∃ items', ChecksListed s' items' := by
  have popped := listed.keeps (popExpired_keepsChecks s)
  rcases timeout_leaves orderly listed calls run with
    ⟨rfl, _⟩ | ⟨ahead, item, behind, rfl, before, key, batch, shows, queued⟩
  · exact ⟨items, popped⟩
  refine ⟨ahead ++ behind, shows, queued, fun ptr member first second check => ?_⟩
  rw [batch] at member
  by_cases same : (first, second) = (source, group)
  · obtain ⟨rfl, rfl⟩ := Prod.mk.inj same
    exact (two_entries_iff listed.shows before key).mp (spare ⟨ptr, member, check⟩)
  · obtain ⟨other, inside, shown⟩ := List.mem_map.mp (popped.batch ptr member first second check)
    refine List.mem_map.mpr ⟨other, ?_, shown⟩
    rcases List.mem_append.mp inside with left | right
    · exact List.mem_append_left _ left
    · refine List.mem_append_right _ ((List.mem_cons.mp right).resolve_left ?_)
      rintro rfl
      exact same (shown.symm.trans key)

theorem checksListed_event {event : Event} (orderly : Orderly s) (listed : ChecksListed s items)
    (first : ChecksFirst s event) (run : Runs (handle host event) s () s') : ∃ items', ChecksListed s' items' := by
  by_cases creates : eventLevel s event = .table
  · rcases runs_creates creates run with rfl | ⟨gateway, source, group, incoming, added, add, tell⟩
    · exact ⟨items, listed⟩
    · obtain ⟨items', more⟩ := listed.addSg add
      have told : Within (Changes .forwarding NotCheck) (changeMfc host source group incoming) :=
        changeMfc_changes (Nat.le_refl _) host source group incoming
      exact ⟨items', more.keeps (keepsChecks_of_changes (by decide) (told _ _ _ tell))⟩
  by_cases timeout : ∃ source group, called s event = some (.handleSgTimeout source group)
  · obtain ⟨source, group, calls⟩ := timeout
    cases event with
    | expire pktcnt => exact checksListed_timeout orderly listed calls (first _ calls) run
    | _ => cases calls
  by_cases checks : ∃ source group, called s event = some (.checkSg source group)
  · obtain ⟨source, group, calls⟩ := checks
    cases event with
    | expire pktcnt =>
        have call := runs_called calls run
        have popped := listed.keeps (popExpired_keepsChecks s)
        exact popped.checkSg (orderly_update .popExpired orderly) call
    | _ => cases calls
  have registers : MayRegister host s event NotCheck :=
    mayRegister_notCheck creates fun source group calls => checks ⟨source, group, calls⟩
  have below : eventLevel s event ≤ .lists := by
    refine eventLevel_lists ?_ fun source group calls => timeout ⟨source, group, calls⟩
    rintro mydata checked routed rfl new
    exact creates (if_pos new)
  exact ⟨items, listed.keeps (keepsChecks_of_changes below (handle_changes (Nat.le_refl _) registers run))⟩

theorem start_checksListed (start : Start host s) : ChecksListed s [] := by
  obtain ⟨pimSendBuf, booted⟩ := start
  have changes : Within (Changes .lists NotCheck) (boot host) :=
    boot_changes (fun _ _ _ => Callback.noConfusion) (fun _ _ _ => Callback.noConfusion)
      (fun _ _ => Callback.noConfusion) host
  have blank : ChecksListed (Daemon.blank pimSendBuf) [] := by
    refine ⟨.empty, fun id source group member => ?_, fun ptr member source group calls => ?_⟩
    · exact absurd member List.not_mem_nil
    · exact absurd member List.not_mem_nil
  exact blank.keeps (keepsChecks_of_changes (Nat.le_refl _) (changes _ () s booted))

theorem reachable_checksListed (reached : Reachable host ChecksFirst s) : ∃ items, ChecksListed s items := by
  obtain ⟨start, started, run⟩ := reached
  have both : Orderly s ∧ ∃ items, ChecksListed s items := by
    refine run.keeps (P := fun state => Orderly state ∧ ∃ items, ChecksListed state items)
      ⟨start_orderly started, [], start_checksListed started⟩ ?_
    rintro before event after ⟨orderly, items, listed⟩ first taken
    exact ⟨orderly_of_changes (handle_anything taken.2) orderly, checksListed_event orderly listed first taken.2⟩
  exact both.2

/-! ## The rest of a batch -/

/-- The table is a list without an entry of the source and group. -/
def Missing (s : Daemon) (source group : Addr) : Prop :=
  ∃ keys, s.mrts.Shows Mrt.next keyOf s.themrt keys ∧ ∀ item ∈ keys, item.2 ≠ (source, group)

theorem Missing.not_inTable (missing : Missing s source group) : ¬ InTable s source group := by
  obtain ⟨keys, shows, absent⟩ := missing
  exact not_inTable_of_shows id shows (fun _ => rfl) absent

/-- No timer creates an entry. -/
theorem Missing.stays {event : Event} (missing : Missing s source group) (batch : InBatch s event)
    (run : Runs (handle host event) s () s') : Missing s' source group := by
  obtain ⟨keys, shows, absent⟩ := missing
  have kept : ∀ {state : Daemon}, SameKeys s state → Missing state source group := by
    intro state same
    refine ⟨keys, ?_, absent⟩
    rw [same.themrt]
    refine shows.congr fun address _ => ?_
    rw [← Heap.get?_map, ← Heap.get?_map, same.records]
  cases event with
  | expire pktcnt =>
      by_cases timeout : ∃ first second, called s (.expire pktcnt) = some (.handleSgTimeout first second)
      · obtain ⟨first, second, calls⟩ := timeout
        have call := runs_called calls run
        obtain ⟨result, _, delete, stop⟩ := runs_bind.mp call
        obtain ⟨_, rfl⟩ := runs_pure.mp stop
        have popped : s.popExpired.mrts.Shows Mrt.next keyOf s.popExpired.themrt keys := shows
        rcases deleteSg_unlinks (fun key => key.1 == first && key.2 == second) popped (fun _ => rfl) (fun _ _ => rfl)
          delete with ⟨rfl, _⟩ | ⟨mymrt, themrt, mrts, ahead, item, behind, _, rfl, rfl, _, _, shorter⟩
        · exact ⟨keys, popped, absent⟩
        · refine ⟨ahead ++ behind, shorter, fun other member => absent other ?_⟩
          exact ((List.Sublist.refl ahead).append (List.sublist_cons_self item behind)).subset member
      · have below : eventLevel s (.expire pktcnt) ≤ .lists :=
          eventLevel_lists (fun _ _ _ => Event.noConfusion) fun first second calls => timeout ⟨first, second, calls⟩
        exact kept (sameKeys_of_changes below (handle_anything run))
  | _ => cases batch

theorem Missing.run (missing : Missing s source group) (rest : Reaches (Step host) InBatch s later) :
    Missing later source group :=
  rest.keeps (P := fun state => Missing state source group) missing fun _ _ _ still batch taken =>
    still.stays batch taken.2

/-! ## The lookup -/

/-- A check that is called finds its entry, and completes. -/
theorem check_finds (listed : ChecksListed s items)
    (calls : called s (.expire pktcnt) = some (.checkSg source group)) :
    InTable s source group ∧ ∃ s', Step host s (.expire pktcnt) s' := by
  obtain ⟨ptr, rest, batch, func⟩ := called_batch calls
  have waits : ptr ∈ s.expired := by
    rw [batch]
    exact List.mem_cons_self ..
  have member := listed.batch ptr waits source group func
  have inside := inTable_of_shows Prod.fst listed.shows (fun _ => rfl) member
  obtain ⟨mymrt, e, found, _, here⟩ := inside.found
  have popped : Finds s.popExpired source group mymrt := found
  obtain ⟨s', run⟩ := checkSg_completes popped here pktcnt
  refine ⟨inside, s', ?_, ?_⟩
  · simp [Event.Enabled, Event.isExpire, batch]
  · unfold handle callNext
    rw [runs_get_bind, batch]
    refine runs_bind.mpr ⟨(), s.popExpired, runs_modify.mpr rfl, ?_⟩
    rw [func]
    exact run

/-- A timeout that leaves no other entry, while a check waits behind it, takes the entry
away from that check. -/
theorem timeout_strands (orderly : Orderly s) (listed : ChecksListed s items)
    (calls : called s (.expire pktcnt) = some (.handleSgTimeout source group))
    (waits : CheckWaits s.popExpired source group) (last : ¬ 2 ≤ (entriesOf s source group).length)
    (taken : Step host s (.expire pktcnt) s') : CheckWaits s' source group ∧ Missing s' source group := by
  have popped := listed.keeps (popExpired_keepsChecks s)
  obtain ⟨ptr, member, func⟩ := waits
  rcases timeout_leaves orderly listed calls taken.2 with
    ⟨rfl, absent⟩ | ⟨ahead, item, behind, rfl, before, key, batch, shows, _⟩
  · obtain ⟨item, inside, same⟩ := List.mem_map.mp (popped.batch ptr member source group func)
    exact absurd same (absent item inside)
  · refine ⟨⟨ptr, batch ▸ member, func⟩, _, shows.coarser Prod.fst, fun other inside same => last ?_⟩
    refine (two_entries_iff listed.shows before key).mpr ?_
    obtain ⟨old, listing, rfl⟩ := List.mem_map.mp inside
    exact List.mem_map.mpr ⟨old, listing, same⟩

/-- In every run in which no timeout removes the last entry of a check that waits behind it in
the same batch, `check_sg` finds its entry and completes.  After a timeout that does, the check
waits and no entry is found in the rest of the batch. -/
theorem check_finds_entry (reached : Reachable host ChecksFirst s) :
    (∀ source group pktcnt, called s (.expire pktcnt) = some (.checkSg source group) →
      InTable s source group ∧ ∃ s', Step host s (.expire pktcnt) s') ∧
    ∀ pktcnt s', ¬ ChecksFirst s (.expire pktcnt) → Step host s (.expire pktcnt) s' →
      ∃ source group, CheckWaits s' source group ∧
        ∀ later, Reaches (Step host) InBatch s' later → ¬ InTable later source group := by
  obtain ⟨items, listed⟩ := reachable_checksListed reached
  have orderly : Orderly s := reachable_orderly reached
  constructor
  · intro source group pktcnt calls
    exact check_finds listed calls
  · intro pktcnt s' late taken
    have some : ∃ func ∈ called s (.expire pktcnt), ¬ LeavesOne s func := by
      by_contra all
      exact late fun func calls => by_contra fun takes => all ⟨func, calls, takes⟩
    obtain ⟨func, calls, takes⟩ := some
    cases func with
    | handleSgTimeout source group =>
        obtain ⟨waits, last⟩ := Classical.not_imp.mp takes
        obtain ⟨strands, missing⟩ := timeout_strands orderly listed calls waits last taken
        exact ⟨source, group, strands, fun later rest => (missing.run rest).not_inTable⟩
    | _ => exact absurd trivial takes

/-- The check after 30 seconds comes before the timeout. -/
theorem check_finds_entry_session :
    ∃ s, Reachable loneRouter ChecksFirst s ∧ called s (.expire 7) = some (.checkSg studio channel) ∧
      InTable s studio channel ∧ ∃ s', Step loneRouter s (.expire 7) s' := by
  have passed : endsWith loneRouter ChecksFirst
      [upcall 1 1 (stationOn 1 2) studio channel, .age 30, .expire 0, .expire 0, .expire 0]
      (fun s => decide (called s (.expire 7) = some (.checkSg studio channel))) = true := by
    decide +kernel
  obtain ⟨s, reached, calls⟩ := reachable_of_endsWith passed
  have called_check := of_decide_eq_true calls
  exact ⟨s, reached, called_check, (check_finds_entry reached).1 studio channel 7 called_check⟩

/-- An entry whose check was made after 297 seconds: 30 seconds later its timeout and its new
check are in one batch, and the check finds nothing. -/
theorem check_misses_entry :
    ¬ ∀ (host : Host) (s : Daemon) (source group : Addr) (pktcnt : Int), Reachable host (fun _ _ => True) s →
      called s (.expire pktcnt) = some (.checkSg source group) → InTable s source group := by
  intro finds
  have passed : endsWith loneRouter (fun _ _ => True)
      [upcall 1 1 (stationOn 1 2) studio channel, .age 297, .expire 0, .expire 0, .expire 0, .expire 0, .age 30,
        .expire 0, .expire 0, .expire 0, .expire 0]
      (fun s => decide (called s (.expire 0) = some (.checkSg studio channel) ∧
        ¬ InTable s studio channel)) = true := by
    decide +kernel
  obtain ⟨s, reached, seen⟩ := reachable_of_endsWith passed
  obtain ⟨calls, gone⟩ := of_decide_eq_true seen
  exact gone (finds loneRouter s studio channel 0 reached calls)

end PimDm.Property
