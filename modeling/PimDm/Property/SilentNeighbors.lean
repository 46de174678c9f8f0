import PimDm.Property.Lifetime
import PimDm.Property.SoftState

/-!
# A neighbour that is silent goes

In any run a router is in the list of an interface only as long as the hold time of its last Hello:
with the record a timer is pending that takes it out of the list by then.
-/

namespace PimDm.Property

open PimDm.Foundation PimDm.Source PimDm.Effect PimDm.Routing PimDm.Refinement

variable {host : Host} {s s' : Daemon} {t : Table} {event : Event} {now : Int} {src address : Addr} {data : Memory}
  {length : Int} {vif : Vif}

/-! ## The lists -/

/-- Each list of neighbours has routers of the network of its interface, and each only once. -/
structure Roster (host : Host) (t : Table) : Prop where
  distinct : ∀ vif, ((t.neighbors vif).map Prod.snd).Nodup
  direct : ∀ vif, ∀ item ∈ t.neighbors vif, findVifDirect host item.2 = vif ∧ vif ≠ 0

namespace Roster

theorem congr (roster : Roster host t) {other : Table} (same : other.neighbors = t.neighbors) : Roster host other := by
  refine ⟨?_, ?_⟩
  · rw [same]
    exact roster.distinct
  · rw [same]
    exact roster.direct

theorem enlist (roster : Roster host t) (here : findVifDirect host address = vif) (nonzero : vif ≠ 0)
    (unknown : ∀ item ∈ t.neighbors vif, item.2 ≠ address) (entry : Ptr) :
    Roster host (t.setNeighbors vif ((entry, address) :: t.neighbors vif)) := by
  refine ⟨fun other => ?_, fun other item member => ?_⟩
  · by_cases same : other = vif
    · rw [same, Table.neighbors_set_self, List.map_cons, List.nodup_cons]
      refine ⟨fun listed => ?_, roster.distinct vif⟩
      obtain ⟨item, member, known⟩ := List.mem_map.mp listed
      exact unknown item member known
    · rw [Table.neighbors_set_other same]
      exact roster.distinct other
  · by_cases same : other = vif
    · rw [same, Table.neighbors_set_self] at member
      rw [same]
      rcases List.mem_cons.mp member with rfl | old
      · exact ⟨here, nonzero⟩
      · exact roster.direct vif item old
    · rw [Table.neighbors_set_other same] at member
      exact roster.direct other item member

theorem expel (roster : Roster host t) (vif : Vif) (address : Addr) :
    Roster host (t.setNeighbors vif ((t.neighbors vif).eraseP fun item => item.2 == address)) := by
  have fewer : ∀ other, ((t.setNeighbors vif ((t.neighbors vif).eraseP fun item => item.2 == address)).neighbors
      other).Sublist (t.neighbors other) := by
    intro other
    by_cases same : other = vif
    · rw [same, Table.neighbors_set_self]
      exact List.eraseP_sublist
    · rw [Table.neighbors_set_other same]
  exact ⟨fun other => (roster.distinct other).sublist ((fewer other).map Prod.snd), fun other item member =>
    roster.direct other item ((fewer other).subset member)⟩

/-- Whoever is expelled is in no list any more. -/
theorem expelled (roster : Roster host t) (here : findVifDirect host address = vif) {other : Vif} {item : Ptr × Addr}
    (member : item ∈ (t.setNeighbors vif ((t.neighbors vif).eraseP fun item => item.2 == address)).neighbors other) :
    item.2 ≠ address ∧ item ∈ t.neighbors other := by
  by_cases same : other = vif
  · rw [same, Table.neighbors_set_self] at member
    rw [same]
    have old := List.mem_of_mem_eraseP member
    refine ⟨?_, old⟩
    rintro rfl
    obtain ⟨gone, ahead, behind, _, first, split, left⟩ :=
      List.exists_of_eraseP (p := fun other : Ptr × Addr => other.2 == item.2) old (beq_self_eq_true item.2)
    have distinct := roster.distinct vif
    rw [split] at distinct
    rw [left] at member
    exact apart_of_nodup distinct item member (eq_of_beq first).symm
  · rw [Table.neighbors_set_other same] at member
    refine ⟨?_, member⟩
    rintro rfl
    exact same ((roster.direct other item member).1.symm.trans here)

end Roster

/-- A Hello adds only a sender that is not in the list. -/
theorem requested_unknown {entry : Ptr} (adds : requested host s event = .addNeighbor vif entry address) :
    findVifDirect host address = vif ∧ vif ≠ 0 ∧ ∀ item ∈ (table s).neighbors vif, item.2 ≠ address := by
  have asks := requested_asks host s event
  rw [adds] at asks
  cases asks with
  | addNeighbor direct =>
      rename_i data length
      refine ⟨rfl, direct, fun item member same => ?_⟩
      change helloChange host s address data length = _ at adds
      unfold helloChange at adds
      rw [if_neg direct] at adds
      have known : ((table s).neighbors (findVifDirect host address)).any (fun item => item.2 == address) = true :=
        List.any_eq_true.mpr ⟨item, member, beq_iff_eq.mpr same⟩
      simp only [known, ↓reduceIte] at adds
      split at adds
      · cases adds
      · split at adds
        · cases adds
        · cases adds

theorem reachable_roster (zero : host.ZeroFilled) {allowed : Daemon → Event → Prop}
    (reached : Reachable host allowed s) :
    Roster host (table s) := by
  refine (reachable_table zero ⟨fun _ => List.nodup_nil, fun _ _ member => nomatch member⟩ ?_ reached).2
  intro before event t after _ models _ _ roster
  rw [← models.table_eq] at roster ⊢
  cases change : requested host before event with
  | addNeighbor vif entry address =>
      obtain ⟨here, nonzero, unknown⟩ := requested_unknown change
      exact (roster.enlist here nonzero unknown entry).congr (Table.refreshAdd_neighbors ..)
  | delNeighbor vif address => exact (roster.expel vif address).congr (Table.refreshDel_neighbors ..)
  | _ =>
      refine roster.congr (Change.apply_neighbors ?_ _)
      exact id

/-! ## Hellos -/

theorem addPimNeighbor_arms (owned : Owned s) {holdtime : Int}
    (run : Runs (addPimNeighbor host src holdtime vif) s () s')
    (now : Int) : (now + holdtime, s.id + 1, .deletePimNeighbor s.neighbors.fresh) ∈ agenda now s' := by
  unfold addPimNeighbor at run
  rw [runs_get_bind] at run
  obtain ⟨timeoutid, _, set, rest⟩ := runs_bind.mp run
  obtain ⟨rfl, rfl⟩ := runs_timerSetTimer.mp set
  obtain ⟨_, _, link, refresh⟩ := runs_bind.mp rest
  obtain rfl := runs_modify.mp link
  have refreshing := refreshMrt_tends (A := fun _ => False) vif .addNeighbor _ _ _ refresh
  refine refreshing.stays ((tends_addNeighbor (A := fun _ => False) holdtime vif ?_).owned owned) now _ ?_ id
  · rfl
  · exact mem_agenda_setTimer.mpr (Or.inl rfl)

theorem refreshNeighbor_arms {entry : Ptr} {holdtime : Int} (run : Runs (refreshNeighbor entry holdtime) s () s')
    (now : Int) : ∃ timer, (now + holdtime, timer, .deletePimNeighbor entry) ∈ agenda now s' := by
  obtain ⟨n, _, rfl⟩ := refreshNeighbor_renews run
  let cleared := (s.setNeighbor entry fun n => { n with holdtime := holdtime }).clearTimer n.timeoutid
  have set : (now + holdtime, cleared.id + 1, .deletePimNeighbor entry) ∈
      agenda now (cleared.setTimer holdtime (.deletePimNeighbor entry)) := mem_agenda_setTimer.mpr (Or.inl rfl)
  exact ⟨_, set⟩

/-- A Hello sets a timer for the record of its sender, due when its hold time has run out, and
leaves all other records. -/
theorem receiveHello_arms (models : Models s (table s)) (owned : Owned s) (roster : Roster host (table s))
    (run : Runs (receiveHello host src data length) s () s') {item : Ptr × Addr}
    (listed : item ∈ (table s').neighbors vif) :
    (∃ holdtime ∈ holdtimeOf data length, item.2 = src ∧ ∀ now, ∃ timer,
        (now + holdtime, timer, .deletePimNeighbor item.1) ∈ agenda now s') ∨
      item.2 ≠ src ∧ item ∈ (table s).neighbors vif := by
  have carried := (receiveHello_models models run).1.table_eq
  rw [carried] at listed
  unfold helloChange at listed
  obtain ⟨valid, _, check, rest⟩ := runs_bind.mp run
  obtain ⟨checked, _, accepted⟩ := runs_validPacket check
  rw [checked] at rest
  rcases runs_ite.mp rest with ⟨refused, stop⟩ | ⟨passed, rest⟩
  · have none : findVifDirect host src = 0 := by
      by_contra direct
      rw [accepted.mpr direct] at refused
      cases refused
    rw [if_pos none] at listed
    refine Or.inr ⟨?_, listed⟩
    rintro rfl
    obtain ⟨here, nonzero⟩ := roster.direct vif item listed
    exact nonzero (here.symm.trans none)
  have direct : findVifDirect host src ≠ 0 := accepted.mp (Bool.eq_true_of_not_eq_false passed)
  rw [if_neg direct] at listed
  obtain ⟨holdtime, _, parse, searching⟩ := runs_bind.mp rest
  obtain ⟨parsed, read⟩ := runs_liftHeap.mp parse
  rw [read] at searching
  have heard : holdtime ∈ holdtimeOf data length := by
    rw [holdtimeOf, parsed]
    rfl
  simp only [parsed] at listed
  obtain ⟨entry, _, search, deciding⟩ := runs_bind.mp searching
  obtain ⟨found, looked⟩ := models.runs_findneighbor.mp search
  rw [looked] at deciding
  cases first : ((table s).neighbors (findVifDirect host src)).find? fun item => item.2 == src with
  | none =>
      have absent := List.find?_eq_none.mp first
      have unknown : ¬ ((table s).neighbors (findVifDirect host src)).any (fun item => item.2 == src) = true := by
        rw [List.any_eq_true]
        rintro ⟨other, member, same⟩
        exact absent other member same
      rw [if_neg unknown] at listed
      rw [found, first, if_neg (by simp [addressOf])] at deciding
      rw [Change.apply, Table.addNeighbor, Table.refreshAdd_neighbors] at listed
      by_cases here : vif = findVifDirect host src
      · rw [here, Table.neighbors_set_self] at listed
        rcases List.mem_cons.mp listed with rfl | old
        · exact Or.inl ⟨holdtime, heard, rfl, fun now => ⟨_, addPimNeighbor_arms owned deciding now⟩⟩
        · rw [here]
          exact Or.inr ⟨fun same => absent item old (beq_iff_eq.mpr same), old⟩
      · rw [Table.neighbors_set_other here] at listed
        refine Or.inr ⟨?_, listed⟩
        rintro rfl
        exact here (roster.direct vif item listed).1.symm
  | some known =>
      have member := List.mem_of_find?_eq_some first
      have same := List.find?_some (p := fun other : Ptr × Addr => other.2 == src) first
      have nonnull := (models.neighbors _).nonnull member
      rw [if_pos (List.any_eq_true.mpr ⟨known, member, same⟩)] at listed
      rw [found, first, addressOf, Option.map_some, Option.getD_some, if_pos nonnull] at deciding
      rcases runs_ite.mp deciding with ⟨goodbye, delete⟩ | ⟨stays, refresh⟩
      · rw [if_pos goodbye, Change.apply, Table.delNeighbor, Table.refreshDel_neighbors] at listed
        exact Or.inr (roster.expelled rfl listed)
      · rw [if_neg stays] at listed
        by_cases sender : item.2 = src
        · have here := (roster.direct vif item listed).1
          rw [sender] at here
          rw [here] at member
          have one := List.inj_on_of_nodup_map (roster.distinct vif) listed member (sender.trans (eq_of_beq same).symm)
          rw [← one] at refresh
          exact Or.inl ⟨holdtime, heard, sender, refreshNeighbor_arms refresh⟩
        · exact Or.inr ⟨sender, listed⟩

/-! ## Other events -/

/-- The record of a neighbour has its address. -/
theorem record_of_listed (models : Models s (table s)) {item : Ptr × Addr} (listed : item ∈ (table s).neighbors vif) :
    ∃ n, s.neighbors.get? item.1 = some n ∧ n.address = item.2 := (models.neighbors vif).found listed

/-- The timer of a neighbour that is called takes it out of its list. -/
theorem callFunc_listed (models : Models s (table s)) (roster : Roster host (table s)) {func : Callback}
    {item : Ptr × Addr} (listed : item ∈ ((callChange host s func).apply host (table s)).neighbors vif) :
    item ∈ (table s).neighbors vif ∧ func ≠ .deletePimNeighbor item.1 := by
  cases func with
  | deletePimNeighbor entry =>
      change item ∈ ((lostNeighborChange host s entry).apply host (table s)).neighbors vif at listed
      unfold lostNeighborChange at listed
      cases record : s.neighbors.get? entry with
      | none =>
          simp only [record] at listed
          refine ⟨listed, fun same => ?_⟩
          obtain ⟨n, found, _⟩ := record_of_listed models listed
          rw [← Callback.deletePimNeighbor.inj same, record] at found
          cases found
      | some n =>
          simp only [record] at listed
          by_cases indirect : findVifDirect host n.address = 0
          · rw [if_pos indirect] at listed
            refine ⟨listed, fun same => ?_⟩
            obtain ⟨other, found, address⟩ := record_of_listed models listed
            rw [← Callback.deletePimNeighbor.inj same, record] at found
            obtain rfl := Option.some.inj found
            obtain ⟨here, nonzero⟩ := roster.direct vif item listed
            rw [← address] at here
            exact nonzero (here.symm.trans indirect)
          · rw [if_neg indirect, Change.apply, Table.delNeighbor, Table.refreshDel_neighbors] at listed
            obtain ⟨apart, before⟩ := roster.expelled rfl listed
            refine ⟨before, fun same => ?_⟩
            obtain ⟨other, found, address⟩ := record_of_listed models before
            rw [← Callback.deletePimNeighbor.inj same, record] at found
            obtain rfl := Option.some.inj found
            exact apart address.symm
  | leaveQuery other group =>
      change item ∈ ((leaveChange host s other group).apply host (table s)).neighbors vif at listed
      rw [Change.apply_neighbors (leaveChange_other host s other group)] at listed
      exact ⟨listed, Callback.noConfusion⟩
  | _ =>
      rw [Change.apply_neighbors ?_] at listed
      · exact ⟨listed, Callback.noConfusion⟩
      · exact id

/-- But for Hellos no event adds a neighbour, and one whose timer is called is gone. -/
theorem listed_before (zero : host.ZeroFilled) (models : Models s (table s)) (roster : Roster host (table s))
    (other : ∀ src data length, event ≠ .pimInput .hello src data length) (run : Runs (handle host event) s () s')
    {item : Ptr × Addr} (listed : item ∈ (table s').neighbors vif) :
    item ∈ (table s).neighbors vif ∧ called s event ≠ some (.deletePimNeighbor item.1) := by
  rw [(handle_models zero models run).models.table_eq] at listed
  have keeps : ¬ (requested host s event).IsNeighbor → called s event = none →
      item ∈ (table s).neighbors vif ∧ called s event ≠ some (.deletePimNeighbor item.1) := by
    intro plain none
    rw [Change.apply_neighbors plain] at listed
    rw [none]
    exact ⟨listed, (Option.some_ne_none _).symm⟩
  cases event with
  | multicastPacketError mydata checked routed => exact keeps (packetChange_other host s mydata checked routed) rfl
  | acceptGroupReport src group => exact keeps (reportChange_other host s src group) rfl
  | pimInput type src data length =>
      cases type with
      | hello => exact absurd rfl (other src data length)
      | joinPrune => exact keeps id rfl
      | assert => exact keeps (assertChange_other host s src data) rfl
      | graft => exact keeps (graftChange_other host s src data) rfl
      | graftAck => exact keeps id rfl
  | expire pktcnt =>
      cases calls : called s (.expire pktcnt) with
      | none =>
          rw [requested_expire_none calls] at keeps
          exact ⟨(keeps id calls).1, (Option.some_ne_none _).symm⟩
      | some func =>
          rw [requested_expire calls] at listed
          obtain ⟨before, apart⟩ := callFunc_listed models roster listed
          exact ⟨before, fun same => apart (Option.some.inj same)⟩
  | _ => exact keeps id rfl

/-- Only a Hello of a neighbour clears its timer. -/
theorem not_mayCancel_neighbor (models : Models s (table s)) {item : Ptr × Addr}
    (listed : item ∈ (table s).neighbors vif)
    (silent : ∀ data length, event ≠ .pimInput .hello item.2 data length) :
    ¬ MayCancel host s event (.deletePimNeighbor item.1) := by
  intro may
  obtain ⟨src, data, length, n, rfl, record, rfl⟩ := may.clears
  obtain ⟨found, here, address⟩ := record_of_listed models listed
  obtain rfl := Option.some.inj (record.symm.trans here)
  rw [← address] at silent
  exact silent data length rfl

/-! ## Hold times -/

/-- When the hold time of a Hello has run out. -/
def Greeting.ends (greeting : Greeting) : Int := greeting.time + max greeting.holdtime 0

/-- The timer that takes a neighbour out of its list. -/
def EndsNeighbor : Callback → Prop
  | .deletePimNeighbor _ => True
  | _ => False

instance decidableEndsNeighbor : DecidablePred EndsNeighbor
  | .deletePimNeighbor _ => isTrue trivial
  | .timer | .pimHelloOutput _ | .sendJoin _ | .pruneTimeOut _ | .setPrune _ | .activeForward _ | .planGraft _
  | .handleSgTimeout .. | .checkSg .. | .sendQuery _ | .retryQuery _ | .leaveQuery .. => isFalse id

/-- The hold time of the last Hello of a neighbour has not run out, and a timer takes the neighbour
out of its list by then. -/
structure Awaited (s : Daemon) (now : Int) (last : Addr → Option Greeting) (item : Ptr × Addr)
    (greeting : Greeting) : Prop where
  heard : greeting ∈ last item.2
  past : greeting.time ≤ now
  current : now ≤ greeting.ends
  pending : ∃ time timer, time ≤ greeting.ends ∧ (time, timer, .deletePimNeighbor item.1) ∈ agenda now s

variable {last : Addr → Option Greeting} {item : Ptr × Addr} {greeting : Greeting}

theorem Awaited.age (awaited : Awaited s now last item greeting) (idle : s.expired = []) {elapsedTime : Nat}
    (onTime : OnTimeFor EndsNeighbor s now (.age elapsedTime)) :
    Awaited (s.age elapsedTime) (now + elapsedTime) last item greeting := by
  obtain ⟨time, timer, early, member⟩ := awaited.pending
  have later : now ≤ now + elapsedTime := Int.le_add_of_nonneg_right (Int.natCast_nonneg _)
  have current : now + elapsedTime ≤ greeting.ends := by
    rcases Nat.eq_zero_or_pos elapsedTime with rfl | passes
    · rw [Int.natCast_zero, Int.add_zero]
      exact awaited.current
    · exact Int.le_trans (onTime passes _ member trivial) early
  refine ⟨awaited.heard, Int.le_trans awaited.past later, current, ?_⟩
  obtain ⟨due, kept, same | ⟨_, same⟩⟩ := agenda_age_kept idle elapsedTime member
  · exact ⟨due, timer, same ▸ early, kept⟩
  · exact ⟨due, timer, same ▸ current, kept⟩

theorem recordHello_apart (apart : address ≠ src) :
    recordHello now (.pimInput .hello src data length) last address = last address := by
  rw [recordHello]
  cases holdtimeOf data length with
  | none => rfl
  | some holdtime => exact Function.update_of_ne apart ..

/-- A neighbour that has just been heard is awaited for its whole hold time. -/
theorem awaited_heard {holdtime : Int} (heard : last item.2 = some ⟨now, holdtime⟩)
    (pending : ∃ timer, (now + holdtime, timer, .deletePimNeighbor item.1) ∈ agenda now s) :
    Awaited s now last item ⟨now, holdtime⟩ := by
  obtain ⟨timer, member⟩ := pending
  refine ⟨heard, Int.le_refl now, ?_, now + holdtime, timer, ?_, member⟩
  · exact Int.le_add_of_nonneg_right (Int.le_max_right holdtime 0)
  · exact Int.add_le_add_left (Int.le_max_left holdtime 0) now

/-- All neighbours are awaited. -/
def AllAwaited (s : Daemon) (now : Int) (last : Addr → Option Greeting) : Prop :=
  ∀ vif, ∀ item ∈ (table s).neighbors vif, ∃ greeting, Awaited s now last item greeting

/-- A neighbour other than the sender of a Hello stays awaited if its timer is not called. -/
theorem Awaited.beside (awaited : Awaited s now last item greeting) (zero : host.ZeroFilled) (owned : Owned s)
    (models : Models s (table s)) (listed : item ∈ (table s).neighbors vif)
    (passes : ∀ elapsedTime, event ≠ .age elapsedTime)
    (silent : ∀ data length, event ≠ .pimInput .hello item.2 data length)
    (calls : called s event ≠ some (.deletePimNeighbor item.1)) {later : Addr → Option Greeting}
    (same : later item.2 = last item.2) (run : Runs (handle host event) s () s') :
      Awaited s' now later item greeting := by
  obtain ⟨time, timer, early, member⟩ := awaited.pending
  have kept : ¬ MayCancel host s event (.deletePimNeighbor item.1) := not_mayCancel_neighbor models listed silent
  refine ⟨?_, awaited.past, awaited.current, time, timer, early, handle_stays zero owned passes calls kept run member⟩
  rw [same]
  exact awaited.heard

theorem AllAwaited.hello (awaited : AllAwaited s now last) (zero : host.ZeroFilled) (owned : Owned s)
    (models : Models s (table s)) (roster : Roster host (table s))
    (run : Runs (handle host (.pimInput .hello src data length)) s () s') :
    AllAwaited s' now (recordHello now (.pimInput .hello src data length) last) := by
  intro vif item listed
  rcases receiveHello_arms models owned roster run listed with ⟨holdtime, read, sender, armed⟩ | ⟨apart, before⟩
  · refine ⟨⟨now, holdtime⟩, awaited_heard ?_ (armed now)⟩
    rw [recordHello, Option.mem_def.mp read, sender]
    exact Function.update_self ..
  · obtain ⟨greeting, waits⟩ := awaited vif item before
    refine ⟨greeting, waits.beside zero owned models before (fun _ => Event.noConfusion) ?_ ?_ ?_ run⟩
    · rintro other size same
      cases same
      exact apart rfl
    · exact (Option.some_ne_none _).symm
    · exact recordHello_apart apart

theorem AllAwaited.step (awaited : AllAwaited s now last) (zero : host.ZeroFilled) (owned : Owned s)
    (models : Models s (table s)) (roster : Roster host (table s)) (onTime : OnTimeFor EndsNeighbor s now event)
    (taken : Step host s event s') : AllAwaited s' (now + Event.seconds event) (recordHello now event last) := by
  by_cases passes : ∀ elapsedTime, event ≠ .age elapsedTime
  case neg =>
    simp only [not_forall, not_not] at passes
    obtain ⟨elapsedTime, rfl⟩ := passes
    obtain rfl := runs_modify.mp taken.2
    intro vif item listed
    obtain ⟨greeting, waits⟩ := awaited vif item listed
    exact ⟨greeting, waits.age (idle_of_enabled rfl taken.1) onTime⟩
  rw [seconds_of_passes passes]
  by_cases hello : ∃ src data length, event = .pimInput .hello src data length
  · obtain ⟨src, data, length, rfl⟩ := hello
    exact awaited.hello zero owned models roster taken.2
  have other : ∀ src data length, event ≠ .pimInput .hello src data length := fun src data length same =>
    hello ⟨src, data, length, same⟩
  have unchanged : recordHello now event last = last := by
    unfold recordHello
    split
    · exact absurd rfl (other _ _ _)
    · rfl
  rw [unchanged]
  intro vif item listed
  obtain ⟨before, apart⟩ := listed_before zero models roster other taken.2 listed
  obtain ⟨greeting, waits⟩ := awaited vif item before
  exact ⟨greeting, waits.beside zero owned models before passes (other item.2) apart rfl taken.2⟩

/-- As long as the timers of neighbours run on time, a router is in a list only if the hold time of
its last Hello has not run out. -/
theorem silent_neighbors_go (zero : host.ZeroFilled) {history : Timed (Addr → Option Greeting)}
    (reached : ReachableWith host (onClock recordHello) ⟨0, fun _ => none⟩
      (fun before event => OnTimeFor EndsNeighbor before.1 before.2.now event) (s, history))
    (listed : IsNeighbor s vif address) :
    ∃ greeting ∈ history.seen address, greeting.time ≤ history.now ∧ history.now ≤ greeting.ends := by
  obtain ⟨start, started, run⟩ := reached
  have held : Reachable host (fun _ _ => True) s ∧ AllAwaited s history.now history.seen := by
    refine run.keeps (P := fun state : Daemon × Timed (Addr → Option Greeting) =>
      Reachable host (fun _ _ => True) state.1 ∧ AllAwaited state.1 state.2.now state.2.seen) ?_ ?_
    · refine ⟨⟨start, started, .refl start⟩, fun vif item member => ?_⟩
      rw [(start_models started).table_eq] at member
      cases member
    · rintro before event after ⟨⟨first, begun, earlier⟩, awaited⟩ onTime ⟨taken, noted⟩
      have reached : Reachable host (fun _ _ => True) before.1 := ⟨first, begun, earlier⟩
      rw [noted]
      exact ⟨⟨first, begun, earlier.snoc trivial taken⟩, awaited.step zero (reachable_owned zero reached)
        (reachable_models zero reached) (reachable_roster zero reached) onTime taken⟩
  obtain ⟨item, member, rfl⟩ := List.mem_map.mp listed
  obtain ⟨greeting, waits⟩ := held.2 vif item member
  exact ⟨greeting, waits.heard, waits.past, waits.current⟩

/-- 10.0.1.2 is heard twice, and is a neighbour 60 seconds after the first Hello. -/
theorem silent_neighbors_go_session : ∃ s history, ReachableWith loneRouter (onClock recordHello) ⟨0, fun _ => none⟩
      (fun before event => OnTimeFor EndsNeighbor before.1 before.2.now event) (s, history) ∧
    history.now = 60 ∧ IsNeighbor s 1 (stationOn 1 2) ∧
    ∃ greeting ∈ history.seen (stationOn 1 2), greeting.time ≤ history.now ∧ history.now ≤ greeting.ends := by
  have passed : endsWithHistory loneRouter (onClock recordHello)
      (fun before event => OnTimeFor EndsNeighbor before.1 before.2.now event) ⟨0, fun _ => none⟩
      [helloFrom (stationOn 1 2) 50, .age 30, .expire 0, .expire 0, .expire 0, helloFrom (stationOn 1 2) 50, .age 30]
      (fun final => decide (final.2.now = 60 ∧ IsNeighbor final.1 1 (stationOn 1 2))) = true := by
    decide +kernel
  obtain ⟨⟨s, history⟩, reached, ended⟩ := reachable_of_endsWithHistory passed
  obtain ⟨now, listed⟩ := of_decide_eq_true ended
  exact ⟨s, history, reached, now, listed, silent_neighbors_go loneRouter_zeroFilled reached listed⟩

end PimDm.Property
