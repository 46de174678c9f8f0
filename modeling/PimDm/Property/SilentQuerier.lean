import PimDm.Property.History
import PimDm.Property.Querier

/-!
# A querier that falls silent

The timer for the silence of the querier is set when the querier is elected and set
again by every query that does not elect another.  As long as nobody but the querier
asks, the timer runs from the last query of the querier; a query of a router with a
larger address starts it again although the querier said nothing.
-/

namespace PimDm.Property

open PimDm.Foundation PimDm.Source PimDm.Effect PimDm.Refinement

variable {host : Host} {s s' : Daemon} {now : Int} {heard : Addr → Option Int}

/-- When the last query of each router was received. -/
def recordQuery (now : Int) : Event → (Addr → Option Int) → Addr → Option Int
  | .acceptMembershipQuery src _, heard => Function.update heard src (some now)
  | _, heard => heard

/-- The event is a membership query, or a timer. -/
def Queries : Event → Prop
  | .acceptMembershipQuery .. => True
  | .age _ => True
  | .expire _ => True
  | _ => False

instance decidableQueries : (event : Event) → Decidable (Queries event)
  | .acceptMembershipQuery .. | .age _ | .expire _ => isTrue trivial
  | .multicastPacketError .. | .acceptGroupReport .. | .acceptLeaveMessage .. | .pimInput .. =>
      isFalse id

/-- Queries of any routers, with timers on time. -/
def QueriesOnTime (before : Daemon × Timed (Addr → Option Int)) (event : Event) : Prop :=
  Queries event ∧ OnTime before.1 before.2.now event

instance (before : Daemon × Timed (Addr → Option Int)) (event : Event) :
    Decidable (QueriesOnTime before event) := inferInstanceAs (Decidable (_ ∧ _))

/-- On an interface with another querier, a query comes from it or from a router with a
smaller address. -/
def FromQuerier (host : Host) (s : Daemon) : Event → Prop
  | .acceptMembershipQuery src _ =>
      isLocalAddress host src = 0 → findVifDirect host src ≠ 0 →
        (s.myvifs (findVifDirect host src)).querier ≠ 0 →
          src = (s.myvifs (findVifDirect host src)).querier ∨
            (ntohl src).toNat < (ntohl (s.myvifs (findVifDirect host src)).querier).toNat
  | _ => True

instance decidableFromQuerier (host : Host) (s : Daemon) :
    (event : Event) → Decidable (FromQuerier host s event)
  | .acceptMembershipQuery src _ =>
      inferInstanceAs (Decidable (isLocalAddress host src = 0 → findVifDirect host src ≠ 0 →
        (s.myvifs (findVifDirect host src)).querier ≠ 0 →
          src = (s.myvifs (findVifDirect host src)).querier ∨
            (ntohl src).toNat < (ntohl (s.myvifs (findVifDirect host src)).querier).toNat))
  | .multicastPacketError .. | .acceptGroupReport .. | .acceptLeaveMessage .. | .pimInput ..
  | .age _ | .expire _ => isTrue trivial

/-! ## Timers and the fields that name them -/

/-- What holds in a run of queries with timers on time, whoever asks. -/
structure Punctual (host : Host) (s : Daemon) (now : Int) : Prop where
  orderly : Orderly s
  only : QueryingOnly host s
  query : ∀ vif, Names s (s.myvifs vif).igmpQuerytimerId (.sendQuery vif)
  retry : ∀ vif, Names s (s.myvifs vif).querierRetryId (.retryQuery vif)
  none : NoneOverdue s now

/-- The timer for the silence of the querier runs from its last query, or from an earlier time. -/
def RunsFrom (s : Daemon) (now : Int) (heard : Addr → Option Int) (vif : Vif) : Prop :=
  (s.myvifs vif).querier ≠ 0 → ∃ last, heard (s.myvifs vif).querier = some last ∧ last ≤ now ∧
    ∃ time, time ≤ last ∧
      (time + igmpQuerierTimeout, (s.myvifs vif).querierRetryId, .retryQuery vif) ∈ agenda now s

theorem Punctual.neutral (punctual : Punctual host s now) {update : Update} (neutral : Neutral update) :
    Punctual host (update.apply s) now := by
  have orderly := orderly_update update punctual.orderly
  have only := punctual.only.neutral neutral
  have set : ∀ delay action, update = .setTimer delay action → 0 ≤ delay →
      Punctual host (update.apply s) now := by
    rintro delay action rfl later
    exact ⟨orderly, only, fun vif => (punctual.query vif).setTimer delay action,
      fun vif => (punctual.retry vif).setTimer delay action, punctual.none.setTimer later action⟩
  cases update with
  | setTimer delay action =>
      cases action with
      | timer => exact set delay _ rfl neutral
      | pimHelloOutput data => exact set delay _ rfl neutral
      | _ => exact neutral.elim
  | sendBuf write => exact ⟨orderly, only, fun vif => ⟨(punctual.query vif).given, (punctual.query vif).called⟩,
      fun vif => ⟨(punctual.retry vif).given, (punctual.retry vif).called⟩, punctual.none⟩
  | send packet entry => exact ⟨orderly, only, fun vif => ⟨(punctual.query vif).given, (punctual.query vif).called⟩,
      fun vif => ⟨(punctual.retry vif).given, (punctual.retry vif).called⟩, punctual.none⟩
  | virtualTime seconds => exact ⟨orderly, only, fun vif => ⟨(punctual.query vif).given, (punctual.query vif).called⟩,
      fun vif => ⟨(punctual.retry vif).given, (punctual.retry vif).called⟩, punctual.none⟩
  | _ => exact neutral.elim

theorem RunsFrom.neutral {vif : Vif} (runs : RunsFrom s now heard vif) {update : Update}
    (neutral : Neutral update) : RunsFrom (update.apply s) now heard vif := by
  cases update with
  | setTimer delay action =>
      intro other
      obtain ⟨last, known, past, time, before, member⟩ := runs other
      exact ⟨last, known, past, time, before, mem_agenda_setTimer.mpr (Or.inr member)⟩
  | sendBuf write => exact runs
  | send packet entry => exact runs
  | virtualTime seconds => exact runs
  | _ => exact neutral.elim

/-! ## Asking -/

theorem asking_punctual (punctual : Punctual host s now) {vif : Vif} (serves : host.Serves vif) :
    Punctual host (asking s vif) now := by
  have set := punctual.none.setTimer (by decide : 0 ≤ igmpQueryTime) (.sendQuery vif)
  have orderly := asking_orderly punctual.orderly vif
  refine ⟨orderly, punctual.only.asking serves, fun other => ?_, fun other => ?_, set⟩
  · by_cases here : other = vif
    · rw [here, asking, setMyvif_self]
      exact (names_new punctual.orderly igmpQueryTime (.sendQuery vif)).congr rfl rfl
    · rw [asking, setMyvif_other here]
      exact ((punctual.query other).setTimer igmpQueryTime (.sendQuery vif)).congr rfl rfl
  · by_cases here : other = vif
    · rw [here, asking, setMyvif_self]
      exact (names_zero orderly (.retryQuery vif)).congr rfl rfl
    · rw [asking, setMyvif_other here]
      exact ((punctual.retry other).setTimer igmpQueryTime (.sendQuery vif)).congr rfl rfl

theorem asking_runsFrom {vif : Vif} (rest : ∀ other, other ≠ vif → RunsFrom s now heard other)
    (other : Vif) : RunsFrom (asking s vif) now heard other := by
  by_cases here : other = vif
  · intro waits
    rw [here, asking, setMyvif_self] at waits
    exact absurd rfl waits
  · have fields : (asking s vif).myvifs other = s.myvifs other := setMyvif_other here ..
    unfold RunsFrom
    rw [fields]
    intro waits
    obtain ⟨last, known, past, time, before, member⟩ := rest other here waits
    exact ⟨last, known, past, time, before, mem_agenda_setTimer.mpr (Or.inr member)⟩

/-! ## Waiting -/

theorem NoneOverdue.clearTimer (orderly : Orderly s) (idle : s.expired = [])
    (none : NoneOverdue s now) (timer : Int) : NoneOverdue (s.clearTimer timer) now :=
  fun entry member => none entry ((mem_agenda_clearTimer orderly idle now timer entry).mp member).1

theorem awaiting_punctual (punctual : Punctual host s now) (idle : s.expired = []) {vif : Vif}
    (serves : host.Serves vif) (old : Int) (querier : Addr) {query : Int}
    (kept : query = 0 ∨ query = (s.myvifs vif).igmpQuerytimerId) :
    Punctual host (awaiting s vif old querier query) now := by
  have orderly := orderly_awaiting punctual.orderly vif old querier query
  have cleared : Orderly (s.clearTimer old) := orderly_update (.clearTimer old) punctual.orderly
  have set := (NoneOverdue.clearTimer punctual.orderly idle punctual.none old).setTimer
    (by decide : 0 ≤ igmpQuerierTimeout) (.retryQuery vif)
  refine ⟨orderly, punctual.only.awaiting serves old querier query, fun other => ?_, fun other => ?_, set⟩
  · have later := ((punctual.query other).clearTimer old).setTimer igmpQuerierTimeout (.retryQuery vif)
    by_cases here : other = vif
    · rw [here, awaiting, setMyvif_self]
      rcases kept with rfl | rfl
      · exact (names_zero orderly (.sendQuery vif)).congr rfl rfl
      · exact (here ▸ later).congr rfl rfl
    · rw [awaiting, setMyvif_other here]
      have fields : ((s.clearTimer old).setTimer igmpQuerierTimeout (.retryQuery vif)).myvifs other =
          s.myvifs other := by simp [Daemon.setTimer]
      rw [fields]
      exact later.congr rfl rfl
  · have later := ((punctual.retry other).clearTimer old).setTimer igmpQuerierTimeout (.retryQuery vif)
    by_cases here : other = vif
    · rw [here, awaiting, setMyvif_self]
      have new := names_new cleared igmpQuerierTimeout (.retryQuery vif)
      rw [clearTimer_id] at new
      exact new.congr rfl rfl
    · rw [awaiting, setMyvif_other here]
      have fields : ((s.clearTimer old).setTimer igmpQuerierTimeout (.retryQuery vif)).myvifs other =
          s.myvifs other := by simp [Daemon.setTimer]
      rw [fields]
      exact later.congr rfl rfl

theorem mem_agenda_awaiting (orderly : Orderly s) (idle : s.expired = []) {vif : Vif} {old : Int}
    {querier : Addr} {query : Int} {entry : Int × Int × Callback} :
    entry ∈ agenda now (awaiting s vif old querier query) ↔
      entry = (now + igmpQuerierTimeout, s.id + 1, .retryQuery vif) ∨
        entry ∈ agenda now s ∧ entry.2.1 ≠ old := by
  have set : entry ∈ agenda now ((s.clearTimer old).setTimer igmpQuerierTimeout (.retryQuery vif)) ↔ _ :=
    mem_agenda_setTimer
  rw [clearTimer_id, mem_agenda_clearTimer orderly idle] at set
  exact set

/-- The timer that is replaced was one of this interface, so the others keep theirs. -/
theorem awaiting_runsFrom_other (orderly : Orderly s) (idle : s.expired = []) {vif : Vif}
    {old : Int} {func : Callback} (names : Names s old func)
    (apart : ∀ other, other ≠ vif → func ≠ .retryQuery other) (querier : Addr) (query : Int)
    {other : Vif} (different : other ≠ vif) (runs : RunsFrom s now heard other) :
    RunsFrom (awaiting s vif old querier query) now heard other := by
  have fields : (awaiting s vif old querier query).myvifs other = s.myvifs other := by
    rw [awaiting, setMyvif_other different]
    simp [Daemon.setTimer]
  unfold RunsFrom
  rw [fields]
  intro waits
  obtain ⟨last, known, past, time, before, member⟩ := runs waits
  refine ⟨last, known, past, time, before,
    (mem_agenda_awaiting orderly idle).mpr (Or.inr ⟨member, fun same => ?_⟩)⟩
  exact apart other different (names.called _ (mem_alarms_of_agenda member) same).symm

theorem awaiting_runsFrom_self (orderly : Orderly s) (idle : s.expired = []) {vif : Vif} {old : Int} {querier : Addr}
    {query : Int}
    (last : heard querier = some now) : RunsFrom (awaiting s vif old querier query) now heard vif := by
  intro _
  have entry : (now + igmpQuerierTimeout, s.id + 1, .retryQuery vif) ∈
      agenda now (awaiting s vif old querier query) := (mem_agenda_awaiting orderly idle).mpr (Or.inl rfl)
  rw [awaiting, setMyvif_self]
  exact ⟨now, last, Int.le_refl _, now, Int.le_refl _, entry⟩

/-! ## Runs -/

/-- A router that is heard again was heard last now. -/
theorem RunsFrom.hear {vif : Vif} (runs : RunsFrom s now heard vif) (src : Addr) :
    RunsFrom s now (Function.update heard src (some now)) vif := by
  intro waits
  obtain ⟨last, known, past, time, before, member⟩ := runs waits
  by_cases here : (s.myvifs vif).querier = src
  · rw [here, Function.update_self]
    exact ⟨now, rfl, Int.le_refl _, time, Int.le_trans before past, member⟩
  · rw [Function.update_of_ne here]
    exact ⟨last, known, past, time, before, member⟩

theorem query_runsFrom (punctual : Punctual host s now) (idle : s.expired = [])
    (runs : ∀ vif, RunsFrom s now heard vif) {src : Addr} {vif : Vif} (serves : host.Serves vif)
    (from_ : (s.myvifs vif).querier ≠ 0 → src = (s.myvifs vif).querier ∨
      (ntohl src).toNat < (ntohl (s.myvifs vif).querier).toNat)
    (hears : Hears host src vif s s') :
    Punctual host s' now ∧ ∀ other, RunsFrom s' now (Function.update heard src (some now)) other := by
  have last : Function.update heard src (some now) src = some now := Function.update_self ..
  have rest : ∀ other, RunsFrom s now (Function.update heard src (some now)) other :=
    fun other => (runs other).hear src
  have orderly := punctual.orderly
  have others : ∀ other, other ≠ vif → Callback.retryQuery vif ≠ .retryQuery other :=
    fun other different same => different (Callback.retryQuery.inj same).symm
  cases hears with
  | ignored own larger => exact ⟨punctual, rest⟩
  | deferred own smaller =>
      refine ⟨awaiting_punctual punctual idle serves _ src (Or.inl rfl), fun other => ?_⟩
      by_cases here : other = vif
      · rw [here]
        exact awaiting_runsFrom_self orderly idle last
      · exact awaiting_runsFrom_other orderly idle (punctual.query vif) (fun _ _ => Callback.noConfusion)
          src 0 here (rest other)
  | renewed waits later =>
      have same : (s.myvifs vif).querier = src := by
        rcases from_ waits with equal | smaller
        · exact equal.symm
        · exact later.resolve_right fun larger => larger smaller
      refine ⟨awaiting_punctual punctual idle serves _ _ (Or.inr rfl), fun other => ?_⟩
      by_cases here : other = vif
      · rw [here]
        exact awaiting_runsFrom_self orderly idle (same ▸ last)
      · exact awaiting_runsFrom_other orderly idle (punctual.retry vif) others _ _ here (rest other)
  | yielded waits smaller =>
      have once := awaiting_punctual punctual idle serves (s.myvifs vif).querierRetryId
        (s.myvifs vif).querier (Or.inr rfl)
      have still : (awaiting s vif (s.myvifs vif).querierRetryId (s.myvifs vif).querier
          (s.myvifs vif).igmpQuerytimerId).expired = [] := by rw [awaiting_expired, idle]
      have named := once.retry vif
      rw [awaiting, setMyvif_self] at named
      refine ⟨awaiting_punctual once still serves _ src (Or.inr ?_), fun other => ?_⟩
      · rw [awaiting, setMyvif_self]
      by_cases here : other = vif
      · rw [here]
        exact awaiting_runsFrom_self once.orderly still last
      · exact awaiting_runsFrom_other once.orderly still named others _ _ here
          (awaiting_runsFrom_other orderly idle (punctual.retry vif) others _ _ here (rest other))

theorem Punctual.popExpired (punctual : Punctual host s now) : Punctual host s.popExpired now := by
  refine ⟨orderly_update .popExpired punctual.orderly,
    punctual.only.of_sublist (fun _ => rfl) (alarms_popExpired s),
    fun vif => (punctual.query vif).of_sublist rfl (alarms_popExpired s),
    fun vif => (punctual.retry vif).of_sublist rfl (alarms_popExpired s), fun entry member => ?_⟩
  exact punctual.none entry (mem_agenda_of_popExpired member)

theorem RunsFrom.popExpired {vif : Vif} (runs : RunsFrom s now heard vif) {ptr : TimeoutQ}
    {rest : List TimeoutQ} (batch : s.expired = ptr :: rest) (other : ptr.func ≠ .retryQuery vif) :
    RunsFrom s.popExpired now heard vif := by
  intro waits
  obtain ⟨last, known, past, time, before, member⟩ := runs waits
  refine ⟨last, known, past, time, before, ?_⟩
  rw [agenda_popExpired batch] at member
  rcases List.mem_cons.mp member with first | later
  · exact absurd (congrArg (fun entry => entry.2.2) first).symm other
  · exact later

/-- What holds in a run of queries with timers on time, when only queriers ask. -/
structure QuerierHeard (host : Host) (s : Daemon) (now : Int) (heard : Addr → Option Int) : Prop where
  punctual : Punctual host s now
  runs : ∀ vif, RunsFrom s now heard vif

theorem QuerierHeard.neutral (holds : QuerierHeard host s now heard) {update : Update}
    (neutral : Neutral update) : QuerierHeard host (update.apply s) now heard :=
  ⟨holds.punctual.neutral neutral, fun vif => (holds.runs vif).neutral neutral⟩

/-- Asking leaves the other interfaces, and this one has no querier to hear. -/
theorem asks_heard (punctual : Punctual host s now) {vif : Vif} (serves : host.Serves vif)
    (rest : ∀ other, other ≠ vif → RunsFrom s now heard other) :
    QuerierHeard host ((asking s vif).observe
      (.igmp (host.iface vif).address allhosts igmpMembershipQuery 100 0)) now heard := by
  have asks := asking_punctual punctual serves
  refine ⟨⟨?_, ⟨asks.only.groups, asks.only.calls⟩, fun other => (asks.query other).congr rfl rfl,
    fun other => (asks.retry other).congr rfl rfl, asks.none⟩, asking_runsFrom rest⟩
  exact ⟨asks.orderly.bounds, asks.orderly.distinct, asks.orderly.started⟩

theorem expire_heard (holds : QuerierHeard host s now heard) {pktcnt : Int}
    (run : Runs (handle host (.expire pktcnt)) s () s') : QuerierHeard host s' now heard := by
  rcases runs_expire run with ⟨_, rfl⟩ | ⟨func, calls, call⟩
  · exact holds
  obtain ⟨ptr, rest, batch, rfl⟩ := called_batch calls
  have popped := holds.punctual.popExpired
  have may : AsksAndGreets host ptr.func :=
    holds.punctual.only.calls (alarm ptr) (alarm_mem_of_batch batch)
  have kept : ∀ vif, ptr.func ≠ .retryQuery vif → RunsFrom s.popExpired now heard vif :=
    fun vif => (holds.runs vif).popExpired batch
  cases func : ptr.func with
  | timer =>
      rw [func] at call kept
      exact neutral_keeps (P := fun s => QuerierHeard host s now heard) timer_neutral
        (fun _ _ neutral holds => holds.neutral neutral) call
        ⟨popped, fun vif => kept vif Callback.noConfusion⟩
  | pimHelloOutput data =>
      rw [func] at call kept
      exact neutral_keeps (P := fun s => QuerierHeard host s now heard) (pimHelloOutput_neutral data)
        (fun _ _ neutral holds => holds.neutral neutral) call
        ⟨popped, fun vif => kept vif Callback.noConfusion⟩
  | sendQuery vif =>
      rw [func] at call may kept
      obtain rfl := runs_startQuerying.mp call
      exact asks_heard popped may fun other _ => kept other Callback.noConfusion
  | retryQuery vif =>
      rw [func] at call may kept
      obtain rfl := runs_startQuerying.mp call
      refine asks_heard popped may fun other different => kept other fun same => ?_
      exact different (Callback.retryQuery.inj same).symm
  | _ =>
      rw [func] at may
      exact may.elim

theorem step_heard (holds : QuerierHeard host s now heard) {event : Event} (queries : Queries event)
    (punctual : OnTime s now event) (from_ : FromQuerier host s event) (taken : Step host s event s') :
    QuerierHeard host s' (now + Event.seconds event) (recordQuery now event heard) := by
  cases event with
  | acceptMembershipQuery src group =>
      have idle := idle_of_enabled rfl taken.1
      have passed : now + Event.seconds (.acceptMembershipQuery src group) = now := Int.add_zero now
      rw [passed]
      rcases hears_of_query holds.punctual.only taken.2 with rfl | ⟨⟨foreign, direct⟩, hears⟩
      · exact ⟨holds.punctual, fun vif => (holds.runs vif).hear src⟩
      · obtain ⟨after, runs⟩ := query_runsFrom holds.punctual idle holds.runs
          (findVifDirect_serves direct) (from_ foreign direct) hears
        exact ⟨after, runs⟩
  | age elapsedTime =>
      have idle := idle_of_enabled rfl taken.1
      obtain rfl := runs_modify.mp taken.2
      have fewer := alarms_age s elapsedTime
      have before := holds.punctual
      refine ⟨⟨orderly_update (.age elapsedTime) before.orderly, before.only.of_sublist (fun _ => rfl) fewer,
        fun vif => (before.query vif).of_sublist rfl fewer,
        fun vif => (before.retry vif).of_sublist rfl fewer, NoneOverdue.age idle punctual⟩, ?_⟩
      intro vif waits
      obtain ⟨last, known, past, time, early, member⟩ := holds.runs vif waits
      have later : last ≤ now + elapsedTime := by omega
      exact ⟨last, known, later, time, early, agenda_of_punctual idle punctual member⟩
  | expire pktcnt =>
      have passed : now + Event.seconds (.expire pktcnt) = now := Int.add_zero now
      rw [passed]
      exact expire_heard holds taken.2
  | _ => exact queries.elim

theorem start_heard (start : Start host s) : QuerierHeard host s 0 fun _ => none := by
  refine start_keeps (P := fun s => QuerierHeard host s 0 fun _ => none) ?_
    (fun _ _ neutral holds => holds.neutral neutral)
    (fun _ vif serves holds => asks_heard holds.punctual serves fun other _ => holds.runs other) start
  intro pimSendBuf
  have orderly : Orderly (Daemon.blank pimSendBuf) :=
    ⟨fun _ member => (List.not_mem_nil member).elim, List.nodup_nil, Int.le_refl _⟩
  refine ⟨⟨orderly, ⟨fun _ => rfl, fun _ member => (List.not_mem_nil member).elim⟩,
    fun vif => names_zero orderly _, fun vif => names_zero orderly _,
    fun _ member => (List.not_mem_nil member).elim⟩, fun vif waits => absurd rfl waits⟩

theorem reachable_heard {reached : Daemon × Timed (Addr → Option Int)}
    (run : ReachableWith host (onClock recordQuery) ⟨0, fun _ => none⟩
      (fun before event => QueriesOnTime before event ∧ FromQuerier host before.1 event) reached) :
    QuerierHeard host reached.1 reached.2.now reached.2.seen := by
  obtain ⟨start, started, steps⟩ := run
  refine steps.keeps (P := fun state => QuerierHeard host state.1 state.2.now state.2.seen)
    (start_heard started) ?_
  rintro ⟨before, history⟩ event ⟨after, later⟩ holds ⟨⟨queries, punctual⟩, from_⟩ ⟨taken, noted⟩
  dsimp only at noted
  rw [noted]
  exact step_heard holds queries punctual from_ taken

/-- In a run of queries with timers on time in which, while an interface has another querier,
only that router and those with smaller addresses ask there, the querier was heard in the
last `IGMP_Querier_Timeout` seconds. -/
theorem querier_was_heard {reached : Daemon × Timed (Addr → Option Int)}
    (run : ReachableWith host (onClock recordQuery) ⟨0, fun _ => none⟩
      (fun before event => QueriesOnTime before event ∧ FromQuerier host before.1 event) reached)
    {vif : Vif} (waits : (reached.1.myvifs vif).querier ≠ 0) :
    ∃ last, reached.2.seen (reached.1.myvifs vif).querier = some last ∧
      reached.2.now ≤ last + igmpQuerierTimeout := by
  have holds := reachable_heard run
  obtain ⟨last, known, _, time, before, member⟩ := holds.runs vif waits
  have pending := holds.punctual.none _ member
  refine ⟨last, known, ?_⟩
  dsimp only at pending
  omega

/-! ## A third router -/

/-- Half a minute of timers on one interface that waits for a querier. -/
def halfMinute : List Event :=
  (List.replicate 5 [.age 5, .expire 0]).flatten ++ [.age 5, .expire 0, .expire 0]

theorem querier_was_heard_session :
    ∃ reached : Daemon × Timed (Addr → Option Int), ReachableWith loneRouter (onClock recordQuery)
        ⟨0, fun _ => none⟩
        (fun before event => QueriesOnTime before event ∧ FromQuerier loneRouter before.1 event) reached ∧
      (reached.1.myvifs 1).querier ≠ 0 ∧
      ∃ last, reached.2.seen (reached.1.myvifs 1).querier = some last ∧
        reached.2.now ≤ last + igmpQuerierTimeout := by
  have passed : endsWithHistory loneRouter (onClock recordQuery)
      (fun before event => QueriesOnTime before event ∧ FromQuerier loneRouter before.1 event)
      ⟨0, fun _ => none⟩
      ([.acceptMembershipQuery (stationOn 1 5) 0, .age 5, .expire 0,
        .acceptMembershipQuery (stationOn 1 2) 0, .age 3, .acceptMembershipQuery (stationOn 1 2) 0])
      (fun final => decide ((final.1.myvifs 1).querier ≠ 0)) = true := by
    decide +kernel
  obtain ⟨reached, run, waits⟩ := reachable_of_endsWithHistory passed
  exact ⟨reached, run, of_decide_eq_true waits, querier_was_heard run (of_decide_eq_true waits)⟩

/-- 10.0.1.2 asks once and never again.  The query of 10.0.1.5 after 150 seconds keeps it the querier. -/
theorem querier_not_heard :
    ¬ ∀ (host : Host) (reached : Daemon × Timed (Addr → Option Int)),
      ReachableWith host (onClock recordQuery) ⟨0, fun _ => none⟩ QueriesOnTime reached →
        ∀ vif, (reached.1.myvifs vif).querier ≠ 0 →
          ∃ last, reached.2.seen (reached.1.myvifs vif).querier = some last ∧
            reached.2.now ≤ last + igmpQuerierTimeout := by
  intro always
  have passed : endsWithHistory loneRouter (onClock recordQuery) QueriesOnTime ⟨0, fun _ => none⟩
      (.acceptMembershipQuery (stationOn 1 2) 0 :: (List.replicate 5 halfMinute).flatten ++
        .acceptMembershipQuery (stationOn 1 5) 0 :: (List.replicate 5 halfMinute).flatten ++
        [.age 5, .expire 0, .age 5, .expire 0, .age 1])
      (fun final => decide ((final.1.myvifs 1).querier = stationOn 1 2 ∧
        final.2.seen (stationOn 1 2) = some 0 ∧ final.2.now = 311)) = true := by
    decide +kernel
  obtain ⟨reached, run, silent⟩ := reachable_of_endsWithHistory passed
  obtain ⟨querier, once, late⟩ := of_decide_eq_true silent
  have waits : (reached.1.myvifs 1).querier ≠ 0 := by
    rw [querier]
    decide
  obtain ⟨last, known, recent⟩ := always loneRouter reached run 1 waits
  rw [querier, once] at known
  cases known
  rw [late] at recent
  exact absurd recent (by decide)

end PimDm.Property
