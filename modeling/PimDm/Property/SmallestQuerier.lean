import PimDm.Foundation.Ballot
import PimDm.Property.Querier

/-!
# The querier with the smallest address

Each membership query is one vote for its source.  However the queries of an interface
are ordered and repeated, its querier is the source with the smallest address, if that is
smaller than the interface's own.
-/

namespace PimDm.Property

open PimDm.Foundation PimDm.Source PimDm.Effect PimDm.Refinement

variable {host : Host} {vif : Vif} {s s' : Daemon} {src group : Addr} {heard : List Addr}

/-- Addresses are compared in host order. -/
def addressRank (address : Addr) : Nat := (ntohl address).toNat

theorem addressRank_injective : Function.Injective addressRank := by
  intro one two same
  have words : ntohl one = ntohl two := BitVec.eq_of_toNat_eq same
  rw [← ntohl_ntohl one, words, ntohl_ntohl]

/-! ## One query -/

/-- What an interface hears is one vote, and the other interfaces hear nothing. -/
theorem hears_votes (hears : Hears host src vif s s') :
    (s'.myvifs vif).querier = vote addressRank (addressRank (host.iface vif).address) 0 (s.myvifs vif).querier src := by
  unfold vote addressRank
  cases hears with
  | ignored own larger => rw [if_pos own, if_neg larger, own]
  | deferred own smaller => rw [if_pos own, if_pos smaller, awaiting, setMyvif_self]
  | renewed waits later =>
      rw [if_neg waits, awaiting, setMyvif_self]
      rcases later with same | larger
      · rw [same, if_neg (Nat.lt_irrefl _)]
      · rw [if_neg larger]
  | yielded waits smaller => rw [if_neg waits, if_pos smaller, awaiting, setMyvif_self]

theorem awaiting_elsewhere {other : Vif} (different : other ≠ vif) (old : Int) (querier : Addr) (query : Int) :
    (awaiting s vif old querier query).myvifs other = s.myvifs other := by
  rw [awaiting, setMyvif_other different, Daemon.setTimer, clearTimer_myvifs]

theorem hears_elsewhere {other : Vif} (different : other ≠ vif) (hears : Hears host src vif s s') :
    s'.myvifs other = s.myvifs other := by
  cases hears with
  | ignored own larger => rfl
  | deferred own smaller => exact awaiting_elsewhere different _ _ _
  | renewed waits later => exact awaiting_elsewhere different _ _ _
  | yielded waits smaller => exact (awaiting_elsewhere different _ _ _).trans (awaiting_elsewhere different _ _ _)

/-- Waiting for reports of a group leaves the interfaces alone. -/
theorem expectReports_myvifs (vif : Vif) (group : Addr) :
    Within (fun first last : Daemon => last.myvifs = first.myvifs) (forGroups vif (expectReport vif group)) := by
  have steady := steady_same Daemon.myvifs
  have load : ∀ g, Within (fun first last : Daemon => last.myvifs = first.myvifs) (loadGroup g) := by
    intro g start record final run
    obtain ⟨_, rfl⟩ := runs_loadGroup.mp run
    rfl
  refine within_bind steady (within_get steady) fun state => within_forEach steady (fun g => ?_) _ _
  refine within_bind steady (load g) fun record => within_onlyIf steady fun _ => ?_
  refine within_bind steady ?_ fun timer => within_bind steady (load g) fun _ => within_modify fun _ => rfl
  intro start timer final run
  obtain ⟨_, rfl⟩ := runs_timerSetTimer.mp run
  rfl

theorem query_votes (foreign : isLocalAddress host src = 0) (near : findVifDirect host src ≠ 0)
    (direct : findVifDirect host src = vif) (run : Runs (acceptMembershipQuery host src group) s () s') :
    (s'.myvifs vif).querier = vote addressRank (addressRank (host.iface vif).address) 0 (s.myvifs vif).querier src := by
  subst direct
  rcases acceptMembershipQuery_hears run with ⟨unheard, _⟩ | ⟨_, middle, hears, expect⟩
  · rcases unheard with ours | none
    · exact absurd foreign ours
    · exact absurd none near
  · have kept : s'.myvifs = middle.myvifs :=
      within_onlyIf (steady_same Daemon.myvifs) (fun _ => expectReports_myvifs _ group) middle () s' expect
    rw [kept]
    exact hears_votes hears

/-! ## Sequences of queries -/

/-- The interface has heard these sources, the last one first; in between nothing else changes
its querier. -/
inductive Queried (host : Host) (vif : Vif) (start : Daemon) : List Addr → Daemon → Prop
  | start : Queried host vif start [] start
  | query {sources : List Addr} {before after : Daemon} {source asked : Addr}
      (queried : Queried host vif start sources before) (somebody : source ≠ 0)
      (foreign : isLocalAddress host source = 0) (near : findVifDirect host source ≠ 0)
      (direct : findVifDirect host source = vif)
      (run : Runs (acceptMembershipQuery host source asked) before () after) :
      Queried host vif start (source :: sources) after
  | other {sources : List Addr} {before after : Daemon} (queried : Queried host vif start sources before)
      (kept : (after.myvifs vif).querier = (before.myvifs vif).querier) : Queried host vif start sources after

/-- The querier after a sequence of queries. -/
def IsQuerier (host : Host) (vif : Vif) (heard : List Addr) (querier : Addr) : Prop :=
  IsWinner addressRank (addressRank (host.iface vif).address) 0 {src | src ∈ heard} querier

theorem Queried.isQuerier {start : Daemon} (queried : Queried host vif start heard s)
    (own : (start.myvifs vif).querier = 0) : IsQuerier host vif heard (s.myvifs vif).querier := by
  induction queried with
  | start =>
      rw [own]
      have none : {src : Addr | src ∈ ([] : List Addr)} = ∅ := by
        ext src
        simp
      rw [IsQuerier, none]
      exact IsWinner.start
  | @query sources before after source asked queried somebody foreign near direct run ih =>
      have more : {other : Addr | other ∈ source :: sources} = insert source {other | other ∈ sources} := by
        ext other
        simp
      rw [IsQuerier, more, query_votes foreign near direct run]
      exact ih.vote somebody
  | other queried kept ih =>
      rw [kept]
      exact ih

/-- Only the set of the sources counts. -/
theorem IsQuerier.unique {again : List Addr} {querier other : Addr} (one : IsQuerier host vif heard querier)
    (two : IsQuerier host vif again other) (same : ∀ src, src ∈ heard ↔ src ∈ again) : querier = other := by
  have sets : {src | src ∈ heard} = {src | src ∈ again} := by
    ext src
    exact same src
  unfold IsQuerier at one
  rw [sets] at one
  exact one.unique two addressRank_injective

/-! ## Runs of queries and timers -/

/-- What an interface hears of an event. -/
def noteHeard (host : Host) (vif : Vif) (_ : Daemon) (event : Event) (_ : Daemon) (heard : List Addr) : List Addr :=
  match event with
  | .acceptMembershipQuery src _ =>
      if isLocalAddress host src = 0 ∧ findVifDirect host src ≠ 0 ∧
        findVifDirect host src = vif then src :: heard else heard
  | _ => heard

/-- Queries and timers, but not the timer for the silence of this interface's querier. -/
def NoRetry (vif : Vif) (s : Daemon) (event : Event) : Prop :=
  QueriesFrom s event ∧ called s event ≠ some (.retryQuery vif)

/-- A timer other than the one for the silence of the querier leaves the querier. -/
theorem expire_keeps_querier (invariant : RolesAgree host s) {pktcnt : Int}
    (other : called s (.expire pktcnt) ≠ some (.retryQuery vif)) (run : Runs (handle host (.expire pktcnt)) s () s') :
    (s'.myvifs vif).querier = (s.myvifs vif).querier := by
  rcases runs_expire run with ⟨_, rfl⟩ | ⟨func, calls, call⟩
  · rfl
  obtain ⟨ptr, rest, batch, rfl⟩ := called_batch calls
  have pending : alarm ptr ∈ alarms s := alarm_mem_of_batch batch
  have may := invariant.only.calls (alarm ptr) pending
  have asks : ∀ other, Runs (startQuerying host other) s.popExpired () s' → other ≠ vif →
      (s'.myvifs vif).querier = (s.myvifs vif).querier := by
    intro other run different
    obtain rfl := runs_startQuerying.mp run
    have same : (asking s.popExpired other).myvifs vif = s.myvifs vif := by
      rw [asking, setMyvif_other (Ne.symm different)]
      rfl
    exact congrArg Myvif.querier same
  have kept : ∀ update state, Neutral update → (state.myvifs vif).querier = (s.myvifs vif).querier →
      ((update.apply state).myvifs vif).querier = (s.myvifs vif).querier := by
    intro update state neutral same
    cases update with
    | setTimer delay action => exact same
    | sendBuf write => exact same
    | send packet entry => exact same
    | virtualTime seconds => exact same
    | _ => exact neutral.elim
  cases func : ptr.func with
  | timer =>
      rw [func] at call
      exact neutral_keeps timer_neutral kept call rfl
  | pimHelloOutput data =>
      rw [func] at call
      exact neutral_keeps (pimHelloOutput_neutral data) kept call rfl
  | sendQuery asked =>
      rw [func] at call
      by_cases here : asked = vif
      · subst here
        have role : alarm ptr ∈ roleTimers s asked :=
          mem_roleTimers.mpr ⟨pending, by rw [alarm, func, holdsRole_send, decide_eq_true rfl]⟩
        rcases invariant.agrees asked (by rw [alarm, func] at may; exact may) with ⟨own, _⟩ | ⟨_, only, _⟩
        · obtain rfl := runs_startQuerying.mp call
          have self : ((asking s.popExpired asked).myvifs asked).querier = 0 := by rw [asking, setMyvif_self]
          exact self.trans own.symm
        · rw [only, List.mem_singleton, alarm, func] at role
          exact Callback.noConfusion (congrArg Prod.snd role)
      · exact asks asked call here
  | retryQuery asked =>
      rw [func] at call
      refine asks asked call fun here => other ?_
      rw [calls, func, here]
  | _ =>
      rw [alarm, func] at may
      exact may.elim

theorem queried_of_run (invariant : RolesAgree host s)
    (run : Reaches (Monitored (Step host) (noteHeard host vif)) (fun before => NoRetry vif before.1) (s, [])
      (s', heard)) : Queried host vif s heard s' ∧ RolesAgree host s' := by
  have holds : ∀ last : Daemon × List Addr, Reaches (Monitored (Step host) (noteHeard host vif))
      (fun before => NoRetry vif before.1) (s, []) last → Queried host vif s last.2 last.1 ∧
        RolesAgree host last.1 := by
    intro last run
    refine run.keeps (P := fun last => Queried host vif s last.2 last.1 ∧ RolesAgree host last.1) ⟨.start, invariant⟩ ?_
    rintro ⟨before, noted⟩ event ⟨after, later⟩ ⟨queried, agree⟩ ⟨may, other⟩ ⟨taken, note⟩
    refine ⟨?_, step_agrees agree may taken⟩
    dsimp only at note taken may other queried agree
    subst note
    cases event with
    | acceptMembershipQuery src group =>
        by_cases here : isLocalAddress host src = 0 ∧ findVifDirect host src ≠ 0 ∧ findVifDirect host src = vif
        · rw [noteHeard, if_pos here]
          exact .query queried may here.1 here.2.1 here.2.2 taken.2
        · rw [noteHeard, if_neg here]
          refine .other queried ?_
          rcases hears_of_query agree.only taken.2 with rfl | ⟨⟨foreign, near⟩, hears⟩
          · rfl
          · exact congrArg Myvif.querier (hears_elsewhere (fun same => here ⟨foreign, near, same.symm⟩) hears)
    | age elapsedTime =>
        obtain rfl := runs_modify.mp taken.2
        exact .other queried rfl
    | expire pktcnt => exact .other queried (expire_keeps_querier agree other taken.2)
    | _ => exact may.elim
  exact holds (s', heard) run

/-! ## Every query is answered -/

theorem startRetry_spares (fault : Fault) (vif : Vif) : Spares fault (startRetry vif) :=
  spares_bind (spares_timerSetTimer _ _) fun _ => spares_modify _

theorem electQuerier_spares (fault : Fault) (src : Addr) (vif : Vif) : Spares fault (electQuerier host src vif) := by
  refine spares_bind spares_get fun state => spares_ite (fun _ => ?_) fun _ => spares_pure _
  refine spares_ite (fun _ => spares_onlyIf fun _ => ?_) fun _ => spares_onlyIf fun _ => ?_
  · refine spares_bind (spares_modify _) fun _ => spares_bind (spares_modify _) fun _ => ?_
    exact spares_bind (spares_modify _) fun _ => startRetry_spares fault vif
  · exact spares_bind (spares_modify _) fun _ => spares_bind (spares_modify _) fun _ => startRetry_spares fault vif

theorem refreshRetry_spares (fault : Fault) (vif : Vif) : Spares fault (refreshRetry vif) :=
  spares_bind spares_get fun _ => spares_bind (spares_modify _) fun _ => startRetry_spares fault vif

theorem hears_groups (hears : Hears host src vif s s') (other : Vif) :
    (s'.myvifs other).groups = (s.myvifs other).groups := by
  cases hears with
  | ignored own larger => rfl
  | deferred own smaller => exact awaiting_groups _ _ _ _ _ _
  | renewed waits later => exact awaiting_groups _ _ _ _ _ _
  | yielded waits smaller => exact (awaiting_groups _ _ _ _ _ _).trans (awaiting_groups _ _ _ _ _ _)

/-- Every general query is handled to its end, and without groups every query is. -/
theorem acceptMembershipQuery_completes (host : Host) (src : Addr)
    (none : group = 0 ∨ ∀ vif, (s.myvifs vif).groups = 0) :
    ∃ s', Runs (acceptMembershipQuery host src group) s () s' := by
  by_cases ours : isLocalAddress host src ≠ 0
  · unfold acceptMembershipQuery
    rw [if_pos ours]
    exact ⟨s, runs_pure.mpr ⟨rfl, rfl⟩⟩
  by_cases far : findVifDirect host src = 0
  · unfold acceptMembershipQuery
    rw [if_neg ours, if_pos far]
    exact ⟨s, runs_pure.mpr ⟨rfl, rfl⟩⟩
  have spared : ∀ fault : Fault, Spares fault (onlyIf ((s.myvifs (findVifDirect host src)).querier ≠ 0)
      (refreshRetry (findVifDirect host src))) := fun fault => spares_onlyIf fun _ => refreshRetry_spares fault _
  obtain ⟨_, refreshed, refresh⟩ := runs_of_spares spared s
  have elects : ∀ fault : Fault, Spares fault (electQuerier host src (findVifDirect host src)) :=
    fun fault => electQuerier_spares fault src (findVifDirect host src)
  obtain ⟨_, middle, elect⟩ := runs_of_spares elects refreshed
  have whole : ∀ asked last, Runs (onlyIf ((middle.myvifs (findVifDirect host src)).querier ≠ 0 ∧ asked ≠ 0)
      (forGroups (findVifDirect host src) (expectReport (findVifDirect host src) asked))) middle () last →
        Runs (acceptMembershipQuery host src asked) s () last := by
    intro asked last rest
    unfold acceptMembershipQuery
    rw [if_neg ours, if_neg far, runs_get_bind]
    refine runs_bind.mpr ⟨_, refreshed, refresh, runs_bind.mpr ⟨_, middle, elect, ?_⟩⟩
    rw [runs_get_bind]
    exact rest
  have general : Runs (acceptMembershipQuery host src 0) s () middle :=
    whole 0 middle (runs_onlyIf.mpr (Or.inr ⟨fun asks => asks.2 rfl, rfl⟩))
  by_cases asks : (middle.myvifs (findVifDirect host src)).querier ≠ 0 ∧ group ≠ 0
  · have empty := none.resolve_left asks.2
    refine ⟨middle, whole group middle (runs_onlyIf.mpr (Or.inl ⟨asks, ?_⟩))⟩
    rcases acceptMembershipQuery_hears general with ⟨unheard, _⟩ | ⟨_, heard, hears, rest⟩
    · rcases unheard with local_ | stranger
      · exact absurd local_ ours
      · exact absurd stranger far
    · rcases runs_onlyIf.mp rest with ⟨absurd, _⟩ | ⟨_, rfl⟩
      · exact (absurd.2 rfl).elim
      · unfold forGroups
        rw [runs_get_bind, hears_groups hears, empty]
        exact runs_pure.mpr ⟨rfl, rfl⟩
  · exact ⟨middle, whole group middle (runs_onlyIf.mpr (Or.inr ⟨asks, rfl⟩))⟩

/-! ## The querier of an interface -/

/-- From any state in which an interface is the querier, its querier after a sequence of
queries is the source with the smallest address, if that is below the interface's own, and
the interface itself if not; the order of the queries and their repetitions do not matter.
Runs of queries and timers are such sequences as long as the querier does not fall silent,
and no query stops them. -/
theorem querier_is_smallest (host : Host) (vif : Vif) :
    (∀ start heard s, (start.myvifs vif).querier = 0 → Queried host vif start heard s →
      ((s.myvifs vif).querier = 0 ∧ ∀ src ∈ heard, addressRank (host.iface vif).address ≤ addressRank src) ∨
      ((s.myvifs vif).querier ∈ heard ∧ addressRank (s.myvifs vif).querier < addressRank (host.iface vif).address ∧
        ∀ src ∈ heard, addressRank (s.myvifs vif).querier ≤ addressRank src)) ∧
    (∀ start heard s start' again s', (start.myvifs vif).querier = 0 → Queried host vif start heard s →
      (start'.myvifs vif).querier = 0 → Queried host vif start' again s' →
        (∀ src, src ∈ heard ↔ src ∈ again) → (s.myvifs vif).querier = (s'.myvifs vif).querier) ∧
    (∀ start s heard, Reachable host QueriesFrom start →
      Reaches (Monitored (Step host) (noteHeard host vif)) (fun before => NoRetry vif before.1) (start, [])
        (s, heard) →
      Queried host vif start heard s ∧ ∀ src group, ∃ s', Runs (acceptMembershipQuery host src group) s () s') := by
  refine ⟨fun start heard s own queried => ?_, fun start heard s start' again s' own queried self requeried same => ?_,
    fun start s heard reached run => ?_⟩
  · rcases queried.isQuerier own with none | ⟨_, member, below, least⟩
    · exact Or.inl none
    · exact Or.inr ⟨member, below, least⟩
  · exact (queried.isQuerier own).unique (requeried.isQuerier self) same
  · obtain ⟨queried, agree⟩ := queried_of_run (reachable_agrees reached) run
    exact ⟨queried, fun src group => acceptMembershipQuery_completes host src (Or.inr agree.only.groups)⟩

end PimDm.Property
