import PimDm.Property.Duties
import PimDm.Property.PruneEcho

/-!
# One querier on a LAN

Any number of routers are on a LAN, and whatever happens to them besides, the queries of each
reach all others in any order.  The router with the smallest address asks every 10 seconds, and
once its queries have arrived nobody else does.
-/

namespace PimDm.Property

open PimDm.Foundation PimDm.Source PimDm.Effect PimDm.Refinement

variable {ι : Type}

/-- A query on its way to a router. -/
structure Query (ι : Type) where
  sender : ι
  target : ι
  group : Addr
  deriving DecidableEq, Repr

def Query.route (query : Query ι) : ι × ι := (query.sender, query.target)

/-- The routers, the queries in flight and the time. -/
@[ext] structure Network (ι : Type) where
  node : ι → Daemon
  inflight : Multiset (Query ι)
  now : Int

inductive NetMove (ι : Type) where
  | own (i : ι) (event : Event)
  | take (query : Query ι)
  | pass (seconds : Nat)

/-- The group of a query from this address. -/
def queryIn (address : Addr) : Observation → Option Addr
  | .igmp src _ type _ group => if type = igmpMembershipQuery ∧ src = address then some group else none
  | _ => none

/-- The queries that a router has sent from an address since an earlier state. -/
def queriesSince (address : Addr) (before after : Daemon) : List Addr :=
  (after.trace.take (after.trace.length - before.trace.length)).filterMap (queryIn address)

/-- No time passes in the event, and no query is heard on the interface. -/
def Elsewhere (host : Host) (vif : Vif) : Event → Prop
  | .age _ => False
  | .acceptMembershipQuery src _ => ¬ (isLocalAddress host src = 0 ∧ findVifDirect host src = vif)
  | _ => True

namespace Segment

/-- Each router takes the others for neighbours on the LAN, and has an address of its own there. -/
structure Shared (seg : Segment ι) : Prop where
  serves : ∀ i, (seg.host i).Serves (seg.vif i)
  direct : ∀ i other, other ≠ i → findVifDirect (seg.host other) (seg.address i) = seg.vif other
  foreign : ∀ i other, other ≠ i → isLocalAddress (seg.host other) (seg.address i) = 0
  somebody : ∀ i, seg.address i ≠ 0
  apart : Function.Injective seg.address

variable [Fintype ι] [DecidableEq ι]

/-- Copies of the queries for all other routers. -/
def broadcast (sender : ι) (groups : List Addr) : Multiset (Query ι) :=
  (groups.map fun group => (questions sender).map fun copy => ⟨copy.1, copy.2, group⟩).sum

variable (seg : Segment ι)

/-- A router handles an event of its own or a query, and the queries it sends on the LAN are in flight
from then on.  Time passes for all routers at once, when nothing is in flight, and no timer is overdue. -/
inductive NetStep : Network ι → NetMove ι → Network ι → Prop where
  | own {lan : Network ι} {i : ι} {event : Event} {after : Daemon}
      (elsewhere : Elsewhere (seg.host i) (seg.vif i) event)
      (taken : Step (seg.host i) (lan.node i) event after) :
      NetStep lan (.own i event) ⟨Function.update lan.node i after,
        lan.inflight + broadcast i (queriesSince (seg.address i) (lan.node i) after), lan.now⟩
  | take {lan : Network ι} {query : Query ι} {after : Daemon} (flying : query ∈ lan.inflight)
      (taken : Step (seg.host query.target) (lan.node query.target)
        (.acceptMembershipQuery (seg.address query.sender) query.group) after) :
      NetStep lan (.take query) ⟨Function.update lan.node query.target after, lan.inflight.erase query +
        broadcast query.target (queriesSince (seg.address query.target) (lan.node query.target) after), lan.now⟩
  | pass {lan : Network ι} {seconds : Nat} {after : ι → Daemon} (quiet : lan.inflight = 0)
      (taken : ∀ i, Step (seg.host i) (lan.node i) (.age seconds) (after i))
      (punctual : ∀ i, OnTime (lan.node i) lan.now (.age seconds)) :
      NetStep lan (.pass seconds) ⟨after, lan.inflight, lan.now + seconds⟩

/-- What the routers have asked is in flight. -/
def launch (node : ι → Daemon) : Network ι where
  node := node
  inflight := Multiset.bind Finset.univ.val fun i => broadcast i ((node i).trace.filterMap (queryIn (seg.address i)))
  now := 0

/-- All routers have just started. -/
structure Begins (lan : Network ι) : Prop where
  started : ∀ i, Start (seg.host i) (lan.node i)
  launched : lan = seg.launch lan.node

/-- The LAN after any steps from the start. -/
def Reached (lan : Network ι) : Prop := ∃ start, seg.Begins start ∧ Reaches seg.NetStep (fun _ _ => True) start lan

end Segment

/-! ## The LAN as a circle -/

variable [Fintype ι] [DecidableEq ι] {seg : Segment ι} {lan after : Network ι} {circle : Circle ι} {move : NetMove ι}

omit [Fintype ι] [DecidableEq ι] in
/-- Routers ask as their addresses and the times of the source say. -/
def Segment.custom (seg : Segment ι) : Custom ι Nat := ⟨addressRank ∘ seg.address, igmpQueryTime, igmpQuerierTimeout⟩

/-- The copies of a number of queries, group or no group. -/
theorem broadcast_routes (sender : ι) (groups : List Addr) :
    (Segment.broadcast sender groups).map Query.route = groups.length • questions sender := by
  induction groups with
  | nil => rfl
  | cons group rest ih =>
      have first : ((questions sender).map fun copy => (⟨copy.1, copy.2, group⟩ : Query ι)).map Query.route =
          questions sender := by
        rw [Multiset.map_map]
        exact Multiset.map_id _
      rw [Segment.broadcast, List.map_cons, List.sum_cons, Multiset.map_add, first, List.length_cons, succ_nsmul']
      rw [Segment.broadcast] at ih
      rw [ih]

/-- The circle shows who asks on the LAN, whom the others wait for, and what is in flight. -/
structure Depicts (seg : Segment ι) (lan : Network ι) (circle : Circle ι) : Prop where
  plays : ∀ i, Plays (seg.vif i) lan.now (lan.node i) ((circle.duty i).map seg.address)
  inflight : circle.inflight = lan.inflight.map Query.route
  now : circle.now = lan.now
  owned : ∀ i, Owned (lan.node i)

omit [Fintype ι] in
/-- The state of one router is replaced. -/
theorem Depicts.plays_update {i : ι} {s : Daemon} {duty : Duty ι} (depicts : Depicts seg lan circle)
    (plays : Plays (seg.vif i) lan.now s (duty.map seg.address)) (other : ι) :
    Plays (seg.vif other) lan.now (Function.update lan.node i s other)
      ((Function.update circle.duty i duty other).map seg.address) := by
  by_cases here : other = i
  · subst here
    rw [Function.update_self, Function.update_self]
    exact plays
  · rw [Function.update_of_ne here, Function.update_of_ne here]
    exact depicts.plays other

omit [Fintype ι] in
theorem Depicts.owned_update {i : ι} {s : Daemon} (depicts : Depicts seg lan circle) (owned : Owned s) (other : ι) :
    Owned (Function.update lan.node i s other) := by
  by_cases here : other = i
  · subst here
    rw [Function.update_self]
    exact owned
  · rw [Function.update_of_ne here]
    exact depicts.owned other

/-- What a router says beside its role only adds to what is in flight. -/
theorem depicts_talk {duty : ι → Duty ι} {inflight : Multiset (ι × ι)} {node : ι → Daemon}
    {queries : Multiset (Query ι)}
    {now : Int} (depicts : Depicts seg ⟨node, queries, now⟩ ⟨duty, inflight, now⟩) (i : ι) (groups : List Addr) :
    ∃ next, seg.custom.Leads ⟨duty, inflight, now⟩ next ∧
      Depicts seg ⟨node, queries + Segment.broadcast i groups, now⟩ next := by
  refine ⟨_, Custom.leads_talk seg.custom ⟨duty, inflight, now⟩ i groups.length, depicts.plays, ?_, rfl, depicts.owned⟩
  have before : inflight = queries.map Query.route := depicts.inflight
  dsimp only
  rw [Multiset.map_add, broadcast_routes, before]

/-- The timer of the role of a router is called. -/
theorem own_asks (depicts : Depicts seg lan circle) {i : ι} {pktcnt : Int} {s : Daemon} {func : Callback}
    (zero : (seg.host i).ZeroFilled) (calls : called (lan.node i) (.expire pktcnt) = some func)
    (role : RoleOn (seg.vif i) func) (run : Runs (handle (seg.host i) (.expire pktcnt)) (lan.node i) () s) :
    ∃ next, seg.custom.Moves circle (.ask i) next ∧ Depicts seg ⟨Function.update lan.node i s,
      lan.inflight + Segment.broadcast i (queriesSince (seg.address i) (lan.node i) s), lan.now⟩ next := by
  obtain ⟨due, plays, trace⟩ := called_plays (depicts.owned i).orderly (depicts.plays i) calls role run
  have asked : queriesSince (seg.address i) (lan.node i) s = [0] := by
    unfold queriesSince
    rw [trace, List.length_cons, Nat.add_sub_cancel_left, List.take_succ_cons, List.take_zero]
    exact List.filterMap_cons_some (if_pos ⟨rfl, rfl⟩)
  have here : (circle.duty i).due = circle.now := by
    rw [depicts.now, ← due]
    cases circle.duty i with
    | asks time => rfl
    | waits other time => rfl
  refine ⟨_, .ask here, ?_, ?_, depicts.now, depicts.owned_update (handle_owned zero (depicts.owned i) run)⟩
  · rw [depicts.now]
    exact depicts.plays_update plays
  · dsimp only
    rw [Multiset.map_add, asked, broadcast_routes, List.length_singleton, one_nsmul, depicts.inflight]

/-- Each step on the LAN is some moves of the circle. -/
theorem step_depicts (shared : seg.Shared) (zero : ∀ i, (seg.host i).ZeroFilled) (depicts : Depicts seg lan circle)
    (apart : ∀ query ∈ lan.inflight, query.target ≠ query.sender) (step : seg.NetStep lan move after) :
    ∃ next, seg.custom.Leads circle next ∧ Depicts seg after next := by
  cases step with
  | @own i event s elsewhere taken =>
      have owned := handle_owned (zero i) (depicts.owned i) taken.2
      by_cases elects : ElectsOn (seg.host i) (lan.node i) (seg.vif i) event
      · cases event with
        | acceptMembershipQuery src group => exact absurd elects elsewhere
        | expire pktcnt =>
            obtain ⟨func, calls, role⟩ := elects
            obtain ⟨next, moves, shows⟩ := own_asks depicts (zero i) calls role taken.2
            exact ⟨next, (Reaches.refl circle).snoc trivial moves, shows⟩
        | _ => exact elects.elim
      · have passes : ∀ elapsedTime, event ≠ .age elapsedTime := by
          rintro elapsedTime rfl
          exact elsewhere
        have kept := handle_roleKept (zero i) (depicts.owned i) passes elects taken.2
        have plays := (depicts.plays i).keep kept (depicts.owned i).orderly owned.orderly
        have later : Depicts seg ⟨Function.update lan.node i s, lan.inflight, lan.now⟩
            ⟨circle.duty, circle.inflight, lan.now⟩ := by
          refine ⟨fun other => ?_, depicts.inflight, rfl, depicts.owned_update owned⟩
          have replaced := depicts.plays_update plays other
          rwa [Function.update_eq_self] at replaced
        obtain ⟨next, talks, shows⟩ := depicts_talk later i (queriesSince (seg.address i) (lan.node i) s)
        rw [← depicts.now] at talks
        exact ⟨next, talks, shows⟩
  | @take query s flying taken =>
      obtain ⟨sender, target, group⟩ := query
      have other : target ≠ sender := apart _ flying
      have owned := handle_owned (zero target) (depicts.owned target) taken.2
      have near : findVifDirect (seg.host target) (seg.address sender) ≠ 0 := by
        rw [shared.direct sender target other]
        exact Nat.ne_of_gt (shared.serves target).positive
      have plays : Plays (seg.vif target) lan.now s (querying.hear lan.now (seg.address target) (seg.address sender)
          ((circle.duty target).map seg.address)) :=
        query_plays (depicts.owned target).orderly (idle_of_enabled rfl taken.1) (depicts.plays target)
          (shared.somebody sender) (shared.foreign sender target other) near (shared.direct sender target other) taken.2
      have heard : Plays (seg.vif target) lan.now s
          ((seg.custom.hear lan.now target sender (circle.duty target)).map seg.address) := by
        rw [Custom.hear_map] at plays
        exact plays
      have there : (sender, target) ∈ circle.inflight := by
        rw [depicts.inflight]
        exact Multiset.mem_map_of_mem Query.route flying
      have moved : seg.custom.Moves circle (.take sender target) ⟨Function.update circle.duty target
          (seg.custom.hear circle.now target sender (circle.duty target)), circle.inflight.erase (sender, target),
            circle.now⟩ := .take there
      have later : Depicts seg ⟨Function.update lan.node target s, lan.inflight.erase ⟨sender, target, group⟩, lan.now⟩
          ⟨Function.update circle.duty target (seg.custom.hear lan.now target sender (circle.duty target)),
            circle.inflight.erase (sender, target), lan.now⟩ := by
        refine ⟨depicts.plays_update heard, ?_, rfl, depicts.owned_update owned⟩
        dsimp only
        rw [depicts.inflight, Multiset.map_erase_of_mem Query.route _ flying]
        rfl
      obtain ⟨next, talks, shows⟩ := depicts_talk later target (queriesSince (seg.address target) (lan.node target) s)
      rw [depicts.now] at moved
      exact ⟨next, .cons trivial moved talks, shows⟩
  | @pass seconds nodes quiet taken punctual =>
      obtain rfl : nodes = fun i => (lan.node i).age seconds := funext fun i => runs_modify.mp (taken i).2
      have moved : seg.custom.Moves circle (.pass seconds) ⟨circle.duty, circle.inflight, circle.now + seconds⟩ := by
        refine .pass ?_ fun i => ?_
        · rw [depicts.inflight, quiet]
          rfl
        · obtain ⟨entry, _, pending⟩ := (depicts.plays i).timer
          have late := punctual i _ pending
          rw [depicts.now]
          cases duty : circle.duty i with
          | asks due =>
              rw [duty] at late
              exact late
          | waits known due =>
              rw [duty] at late
              exact late
      refine ⟨_, (Reaches.refl circle).snoc trivial moved, fun i => ?_, depicts.inflight, ?_, fun i => ?_⟩
      · exact aged_plays (idle_of_enabled rfl (taken i).1) (depicts.plays i) (punctual i)
      · rw [depicts.now]
      · exact (depicts.owned i).age seconds

/-! ## Runs -/

theorem mem_broadcast {sender : ι} {groups : List Addr} {query : Query ι} :
    query ∈ Segment.broadcast sender groups ↔ query.sender = sender ∧ query.target ≠ sender ∧ query.group ∈ groups := by
  induction groups with
  | nil =>
      constructor
      · exact fun member => absurd member (Multiset.notMem_zero query)
      · rintro ⟨_, _, member⟩
        cases member
  | cons group rest ih =>
      have first : query ∈ (questions sender).map (fun copy => (⟨copy.1, copy.2, group⟩ : Query ι)) ↔
          query.sender = sender ∧ query.target ≠ sender ∧ query.group = group := by
        rw [Multiset.mem_map]
        constructor
        · rintro ⟨copy, member, rfl⟩
          obtain ⟨same, other⟩ := mem_questions.mp member
          exact ⟨same, other, rfl⟩
        · rintro ⟨same, other, rfl⟩
          exact ⟨query.route, mem_questions.mpr ⟨same, other⟩, rfl⟩
      rw [Segment.broadcast] at ih
      rw [Segment.broadcast, List.map_cons, List.sum_cons, Multiset.mem_add, first, ih, List.mem_cons]
      tauto

/-- An interface that is in use has asked when the main loop starts. -/
theorem activeVifs_asked {host : Host} {vif : Vif} {vifs : List Vif} {s s' : Daemon} {query : Observation}
    (same : query = .igmp (host.iface vif).address allhosts igmpMembershipQuery 100 0)
    (known : vif ∈ vifs ∧ (host.iface vif).isActive = true ∨ query ∈ s.trace) (run : Runs (foldProgram (fun _ other =>
      onlyIf ((host.iface other).isActive = true) (activeVif host other)) vifs ()) s () s') : query ∈ s'.trace := by
  induction vifs generalizing s with
  | nil =>
      obtain ⟨_, rfl⟩ := runs_pure.mp run
      exact known.resolve_left fun later => List.not_mem_nil later.1
  | cons other rest ih =>
      obtain ⟨_, middle, first, others⟩ := runs_bind.mp run
      refine ih ?_ others
      rcases runs_onlyIf.mp first with ⟨active, one⟩ | ⟨inactive, rfl⟩
      · obtain ⟨_, _, asks, hello⟩ := runs_bind.mp one
        obtain rfl := runs_startQuerying.mp asks
        have sent : ∀ observation, observation = .igmp (host.iface other).address allhosts igmpMembershipQuery 100 0 ∨
            observation ∈ s.trace → observation ∈ middle.trace := by
          intro observation either
          have inside := List.mem_cons.mpr either
          rw [runs_pimHelloOutput.mp hello]
          unfold helloed rearmHello
          split
          · exact List.mem_cons_of_mem _ inside
          · exact List.mem_cons_of_mem _ inside
        rcases known with ⟨member, serves⟩ | before
        · rcases List.mem_cons.mp member with here | later
          · refine Or.inr (sent query (Or.inl ?_))
            rw [same, here]
          · exact Or.inl ⟨later, serves⟩
        · exact Or.inr (sent query (Or.inr before))
      · rcases known with ⟨member, serves⟩ | before
        · rcases List.mem_cons.mp member with here | later
          · rw [here] at serves
            exact absurd serves inactive
          · exact Or.inl ⟨later, serves⟩
        · exact Or.inr before

theorem start_asked {host : Host} {vif : Vif} {s : Daemon} (started : Start host s) (serves : host.Serves vif) :
    0 ∈ s.trace.filterMap (queryIn (host.iface vif).address) := by
  obtain ⟨pimSendBuf, booted⟩ := started
  obtain ⟨_, activated, activate, tick⟩ := runs_bind.mp booted
  obtain ⟨_, _, set, stop⟩ := runs_bind.mp tick
  obtain ⟨_, rfl⟩ := runs_timerSetTimer.mp set
  obtain ⟨_, rfl⟩ := runs_pure.mp stop
  have listed : vif ∈ host.vifs := Host.mem_vifs.mpr ⟨serves.positive, serves.bounded⟩
  have asked := activeVifs_asked rfl (Or.inl ⟨listed, serves.active⟩) activate
  exact List.mem_filterMap.mpr ⟨_, asked, if_pos ⟨rfl, rfl⟩⟩

/-- The circle in which all have asked. -/
def Network.opening (lan : Network ι) : Circle ι := ⟨fun _ => .asks igmpQueryTime, lan.inflight.map Query.route, 0⟩

theorem begins_opens (shared : seg.Shared) (begins : seg.Begins lan) : seg.custom.Opens lan.opening where
  duty _ := rfl
  flying i other different := by
    refine Multiset.mem_map.mpr ⟨⟨i, other, 0⟩, ?_, rfl⟩
    rw [begins.launched]
    refine Multiset.mem_bind.mpr ?_
    exact ⟨i, Finset.mem_univ _, mem_broadcast.mpr ⟨rfl, different, start_asked (begins.started i) (shared.serves i)⟩⟩
  now := rfl

theorem begins_depicts (shared : seg.Shared) (begins : seg.Begins lan) : Depicts seg lan lan.opening where
  plays i := by
    rw [begins.launched]
    exact start_plays (begins.started i) (shared.serves i)
  inflight := rfl
  now := by
    rw [begins.launched]
    rfl
  owned i := start_owned (begins.started i)

/-- No router is sent its own queries. -/
theorem step_apart (apart : ∀ query ∈ lan.inflight, query.target ≠ query.sender) (step : seg.NetStep lan move after) :
    ∀ query ∈ after.inflight, query.target ≠ query.sender := by
  have sent : ∀ {i : ι} {groups : List Addr}, ∀ query ∈ Segment.broadcast i groups, query.target ≠ query.sender := by
    intro i groups query member
    obtain ⟨same, other, _⟩ := mem_broadcast.mp member
    rwa [same]
  intro query member
  cases step with
  | own elsewhere taken =>
      rcases Multiset.mem_add.mp member with old | new
      · exact apart query old
      · exact sent query new
  | take flying taken =>
      rcases Multiset.mem_add.mp member with old | new
      · exact apart query (Multiset.mem_of_mem_erase old)
      · exact sent query new
  | pass quiet taken punctual => exact apart query member

/-- Every run on the LAN is one of the circle. -/
theorem reached_depicts (shared : seg.Shared) (zero : ∀ i, (seg.host i).ZeroFilled) (reached : seg.Reached lan) :
    ∃ first circle, seg.custom.Opens first ∧ seg.custom.Leads first circle ∧ Depicts seg lan circle := by
  obtain ⟨start, begins, run⟩ := reached
  have both : (∀ query ∈ lan.inflight, query.target ≠ query.sender) ∧
      ∃ circle, seg.custom.Leads start.opening circle ∧ Depicts seg lan circle := by
    refine run.keeps (P := fun lan => (∀ query ∈ lan.inflight, query.target ≠ query.sender) ∧
      ∃ circle, seg.custom.Leads start.opening circle ∧ Depicts seg lan circle) ⟨fun query member => ?_, ?_⟩ ?_
    · rw [begins.launched] at member
      obtain ⟨i, _, inside⟩ := Multiset.mem_bind.mp member
      obtain ⟨same, other, _⟩ := mem_broadcast.mp inside
      rwa [same]
    · exact ⟨_, .refl _, begins_depicts shared begins⟩
    · rintro before move after ⟨apart, circle, leads, depicts⟩ _ step
      obtain ⟨next, more, shows⟩ := step_depicts shared zero depicts apart step
      exact ⟨step_apart apart step, next, leads.trans more, shows⟩
  obtain ⟨circle, leads, depicts⟩ := both.2
  exact ⟨_, circle, begins_opens shared begins, leads, depicts⟩

/-- The router with this address asks, and the others wait for it for almost as long as a querier may
be silent, or have a query of it still to come. -/
structure OneQuerier (seg : Segment ι) (lowest : ι) (lan : Network ι) : Prop where
  asks : ((lan.node lowest).myvifs (seg.vif lowest)).querier = 0
  next : ∃ due timer, (due, timer, .sendQuery (seg.vif lowest)) ∈ agenda lan.now (lan.node lowest) ∧
    lan.now ≤ due ∧ due ≤ lan.now + igmpQueryTime
  heard : ∀ i, i ≠ lowest → ((lan.node i).myvifs (seg.vif i)).querier = seg.address lowest ∨
    ∃ query ∈ lan.inflight, query.sender = lowest ∧ query.target = i
  others : ∀ i, i ≠ lowest → ((lan.node i).myvifs (seg.vif i)).querier = seg.address lowest →
    ∀ timer, (timer, .sendQuery (seg.vif i)) ∉ alarms (lan.node i)
  patient : ∀ i, i ≠ lowest → ∀ due timer, (due, timer, .retryQuery (seg.vif i)) ∈ agenda lan.now (lan.node i) →
    lan.now + (igmpQuerierTimeout - igmpQueryTime) ≤ due

/-- The wait of an interface is the only timer for silence there. -/
theorem Plays.waits_of_retry {vif : Vif} {now due timer : Int} {s : Daemon} {duty : Duty Addr}
    (plays : Plays vif now s duty)
    (orderly : Orderly s) (pending : (due, timer, .retryQuery vif) ∈ agenda now s) :
      ∃ other, duty = .waits other due := by
  have role : (timer, Callback.retryQuery vif) ∈ roleTimers s vif :=
    mem_roleTimers.mpr ⟨mem_alarms_of_agenda pending, by rw [holdsRole_retry, decide_eq_true rfl]⟩
  cases plays with
  | asks own only member =>
      rw [only, List.mem_singleton] at role
      exact Callback.noConfusion (Prod.mk.inj role).2
  | @waits other silent somebody named only member =>
      rw [only, List.mem_singleton] at role
      have same := agenda_unique orderly pending member (Prod.mk.inj role).1
      exact ⟨other, by rw [(Prod.mk.inj same).1]⟩

omit [Fintype ι] [DecidableEq ι] in
theorem Depicts.oneQuerier {lowest : ι} {due : Int} (depicts : Depicts seg lan circle) (shared : seg.Shared)
    (reigns : seg.custom.Reigns lowest due circle) : OneQuerier seg lowest lan := by
  have first := depicts.plays lowest
  rw [reigns.asks, Duty.map] at first
  have longer : igmpQueryTime < igmpQuerierTimeout := by decide
  have waits : ∀ i, i ≠ lowest → ((lan.node i).myvifs (seg.vif i)).querier = seg.address lowest →
      ∃ other silent, circle.duty i = .waits other silent := by
    intro i different named
    have plays := depicts.plays i
    cases duty : circle.duty i with
    | asks soon =>
        rw [duty, Duty.map] at plays
        cases plays with
        | asks own only pending => exact absurd (named.symm.trans own) (shared.somebody lowest)
    | waits other silent => exact ⟨other, silent, rfl⟩
  refine ⟨?_, ?_, fun i different => ?_, fun i different named timer pending => ?_,
    fun i different silent timer pending => ?_⟩
  · cases first with
    | asks own only pending => exact own
  · have coming := reigns.coming
    have soon := reigns.soon
    rw [depicts.now] at coming soon
    cases first with
    | asks own only pending => exact ⟨due, _, pending, coming, soon⟩
  · have follows := reigns.follows i different
    have plays := depicts.plays i
    have arrives : (lowest, i) ∈ circle.inflight →
        ∃ query ∈ lan.inflight, query.sender = lowest ∧ query.target = i := by
      intro flying
      rw [depicts.inflight] at flying
      obtain ⟨query, member, route⟩ := Multiset.mem_map.mp flying
      exact ⟨query, member, (Prod.mk.inj route).1, (Prod.mk.inj route).2⟩
    cases duty : circle.duty i with
    | asks soon =>
        rw [duty] at follows
        cases follows with
        | called flying => exact Or.inr (arrives flying)
    | waits other silent =>
        rw [duty] at follows plays
        cases follows with
        | told flying lower patient => exact Or.inr (arrives flying)
        | loyal patient =>
            cases plays with
            | waits somebody named only pending => exact Or.inl named
  · obtain ⟨other, silent, duty⟩ := waits i different named
    have plays := depicts.plays i
    rw [duty] at plays
    have role : (timer, Callback.sendQuery (seg.vif i)) ∈ roleTimers (lan.node i) (seg.vif i) :=
      mem_roleTimers.mpr ⟨pending, by rw [holdsRole_send, decide_eq_true rfl]⟩
    cases plays with
    | waits somebody named only member =>
        rw [only, List.mem_singleton] at role
        exact Callback.noConfusion (Prod.mk.inj role).2
  · obtain ⟨other, same⟩ := (depicts.plays i).waits_of_retry (depicts.owned i).orderly pending
    cases duty : circle.duty i with
    | asks soon =>
        rw [duty] at same
        cases same
    | waits known later =>
        rw [duty] at same
        cases same
        have follows := reigns.follows i different
        rw [duty] at follows
        have patient := follows.patient reigns.coming
        rw [depicts.now] at patient
        have period : seg.custom.period = igmpQueryTime := rfl
        have patience : seg.custom.patience = igmpQuerierTimeout := rfl
        omega

/-- In every run on a LAN the router with the smallest address stays the querier and asks every 10
seconds.  Every other router waits for it, as soon as a query of it has arrived, then asks no more, and
never has less than 300 seconds left to wait. -/
theorem one_querier (shared : seg.Shared) (zero : ∀ i, (seg.host i).ZeroFilled) (reached : seg.Reached lan) {lowest : ι}
    (least : ∀ i, i ≠ lowest → addressRank (seg.address lowest) < addressRank (seg.address i)) :
    OneQuerier seg lowest lan := by
  obtain ⟨first, circle, opens, leads, depicts⟩ := reached_depicts shared zero reached
  have sound : seg.custom.Sound lowest :=
    ⟨addressRank_injective.comp shared.apart, least, (by decide : 0 ≤ igmpQueryTime),
      (by decide : igmpQueryTime < igmpQuerierTimeout)⟩
  obtain ⟨due, reigns⟩ := opens.leads sound leads
  exact depicts.oneQuerier shared reigns

theorem wire_shared : wire.Shared where
  serves
    | .left => ⟨by decide, by decide, by decide⟩
    | .right => ⟨by decide, by decide, by decide⟩
  direct i other different := by
    cases i <;> cases other <;> first | exact absurd rfl different | decide
  foreign i other different := by
    cases i <;> cases other <;> first | exact absurd rfl different | decide
  somebody
    | .left => by decide
    | .right => by decide
  apart i other same := by
    cases i <;> cases other <;> first | rfl | exact absurd same (by decide)

/-- Two routers have started, and the one has heard the other. -/
theorem one_querier_wire : ∃ lan, wire.Reached lan ∧ ((lan.node .right).myvifs 2).querier = stationOn 2 1 ∧
    OneQuerier wire .left lan := by
  have zero : ∀ side, (wire.host side).ZeroFilled := fun side => by
    cases side with
    | left => exact ⟨fun _ => rfl, fun _ => rfl⟩
    | right => exact ⟨fun _ => rfl, fun _ => rfl⟩
  have boots : ∀ side, endsWith (wire.host side) (fun _ _ => False) [] (fun _ => true) = true := fun side => by
    cases side with
    | left => decide +kernel
    | right => decide +kernel
  have starts : ∀ side, ∃ s, Start (wire.host side) s := fun side => by
    obtain ⟨_, ⟨start, started, _⟩, _⟩ := reachable_of_endsWith (boots side)
    exact ⟨start, started⟩
  choose node started using starts
  have begins : wire.Begins (wire.launch node) := ⟨started, rfl⟩
  have flying : (⟨.left, .right, 0⟩ : Query Side) ∈ (wire.launch node).inflight :=
    Multiset.mem_bind.mpr ⟨Side.left, Finset.mem_univ _,
    mem_broadcast.mpr ⟨rfl, by decide, start_asked (started .left) (wire_shared.serves .left)⟩⟩
  obtain ⟨after, run⟩ := acceptMembershipQuery_completes (s := node .right) rival (wire.address .left) (Or.inl rfl)
  have enabled : (Event.acceptMembershipQuery (wire.address .left) 0).Enabled (node .right) := by
    rw [Event.Enabled, start_idle (started .right)]
    rfl
  have taken : Step rival (node .right) (.acceptMembershipQuery (wire.address .left) 0) after :=
    ⟨enabled, run⟩
  have reached : wire.Reached _ := ⟨_, begins, (Reaches.refl _).snoc trivial (Segment.NetStep.take flying taken)⟩
  refine ⟨_, reached, ?_, one_querier wire_shared zero reached fun side different => ?_⟩
  · have direct : findVifDirect rival (wire.address .left) = 2 := by decide
    have votes := query_votes (by decide) (by decide) direct run
    have silent : ((node .right).myvifs 2).querier = 0 := by
      cases start_plays (started .right) (wire_shared.serves .right) with
      | asks own only pending => exact own
    rw [silent] at votes
    have here : Function.update node .right after .right = after := Function.update_self ..
    refine Eq.trans ?_ (votes.trans (by decide))
    exact congrArg (fun s : Daemon => (s.myvifs 2).querier) here
  · cases side with
    | left => exact absurd rfl different
    | right => decide

end PimDm.Property
