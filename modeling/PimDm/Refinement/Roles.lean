import PimDm.Refinement.Models
import PimDm.Effect.Agenda

/-!
# The querier role of an interface

An interface sends queries, with one timer for the next, or waits for a querier
with a smaller address, with one timer for its silence.  What `send_query`,
`retry_query` and `accept_membership_query` do to the role is a change of the
three fields that hold it and of those two kinds of timers.
-/

namespace PimDm.Refinement

open PimDm.Foundation PimDm.Source PimDm.Effect

variable {s s' : Daemon} {host : Host}

/-! ## Programs that leave the lists and roles alone -/

/-- An update of the buffer, the clock or the trace of messages, or a new timer of
`timer` and `pim_hello_output` for a later time. -/
def Neutral : Update → Prop
  | .sendBuf _ => True
  | .send _ _ => True
  | .virtualTime _ => True
  | .setTimer delay .timer => 0 ≤ delay
  | .setTimer delay (.pimHelloOutput _) => 0 ≤ delay
  | _ => False

theorem timer_neutral : Within (Does Update.apply Neutral) timer := by
  have tick : Within (Does Update.apply Neutral) (timerSetTimer 5 .timer) := by
    intro start value final run
    obtain ⟨_, rfl⟩ := runs_timerSetTimer.mp run
    exact .single ⟨.setTimer 5 .timer, (by decide : (0 : Int) ≤ 5), rfl⟩
  refine does_bind ?_ fun _ => does_bind tick fun _ => does_pure _
  exact does_modify (.virtualTime 5) trivial fun _ => rfl

theorem pimHelloOutput_neutral (data : PimHelloOutputData) :
    Within (Does Update.apply Neutral) (pimHelloOutput host data) := by
  have again : Within (Does Update.apply Neutral)
      (timerSetTimer pimHelloPeriod (.pimHelloOutput data)) := by
    intro start value final run
    obtain ⟨_, rfl⟩ := runs_timerSetTimer.mp run
    exact .single ⟨.setTimer pimHelloPeriod (.pimHelloOutput data), (by decide : 0 ≤ pimHelloPeriod), rfl⟩
  have written : ∀ write, Within (Does Update.apply Neutral) (writeSendBuf write) := fun write =>
    does_modify (.sendBuf write) trivial fun _ => rfl
  refine does_bind (written _) fun _ => does_bind ?_ fun _ => does_bind (written _) fun _ => ?_
  · exact does_onlyIf fun _ => does_bind again fun _ => does_pure _
  · refine does_bind does_get fun state => ?_
    exact does_modify (.send ⟨pimHello, _, _, _⟩ 0) trivial fun _ => rfl

/-- What every neutral update keeps, such a program keeps. -/
theorem neutral_keeps {program : Act Unit} (neutral : Within (Does Update.apply Neutral) program)
    {P : Daemon → Prop} (each : ∀ update state, Neutral update → P state → P (update.apply state))
    (run : Runs program s () s') (holds : P s) : P s' :=
  within_of_does neutral (steady_keeps P) each s () s' run holds

/-! ## Effects -/

theorem runs_storeMyvif {vif : Vif} {function : Myvif → Myvif} {result : Unit} :
    Runs (storeMyvif vif function) s result s' ↔ s' = s.setMyvif vif function := runs_modify

theorem runs_igmpOutput {src dst : Addr} {type code : Nat} {group : Addr} {result : Unit} :
    Runs (igmpOutput src dst type code group) s result s' ↔
      s' = s.observe (.igmp src dst type code group) := runs_modify

theorem setMyvif_clearTimer (s : Daemon) (vif : Vif) (function : Myvif → Myvif) (timer : Int) :
    (s.setMyvif vif function).clearTimer timer = (s.clearTimer timer).setMyvif vif function := by
  unfold Daemon.clearTimer
  split <;> rfl

theorem setMyvif_setMyvif (s : Daemon) (vif : Vif) (first second : Myvif → Myvif) :
    (s.setMyvif vif first).setMyvif vif second = s.setMyvif vif (second ∘ first) := by
  simp [Daemon.setMyvif]

theorem setMyvif_id (s : Daemon) (vif : Vif) : s.setMyvif vif id = s := by
  unfold Daemon.setMyvif
  rw [id_eq, Function.update_eq_self]

@[simp] theorem setMyvif_self (s : Daemon) (vif : Vif) (function : Myvif → Myvif) :
    (s.setMyvif vif function).myvifs vif = function (s.myvifs vif) := Function.update_self ..

theorem setMyvif_other {vif other : Vif} (different : other ≠ vif) (s : Daemon)
    (function : Myvif → Myvif) : (s.setMyvif vif function).myvifs other = s.myvifs other :=
  Function.update_of_ne different ..

/-- The interface asks from now on: the first half of `send_query` and `retry_query`. -/
def asking (s : Daemon) (vif : Vif) : Daemon :=
  (s.setTimer igmpQueryTime (.sendQuery vif)).setMyvif vif fun myv =>
    { myv with igmpQuerytimerId := s.id + 1, querier := 0, querierRetryId := 0 }

/-- A store into the fields of an interface that keeps its groups. -/
theorem setMyvif_groups {vif : Vif} {function : Myvif → Myvif}
    (kept : ∀ myv, (function myv).groups = myv.groups) (s : Daemon) (other : Vif) :
    ((s.setMyvif vif function).myvifs other).groups = (s.myvifs other).groups := by
  by_cases here : other = vif
  · rw [here, setMyvif_self, kept]
  · rw [setMyvif_other here]

theorem asking_groups (s : Daemon) (vif other : Vif) :
    ((asking s vif).myvifs other).groups = (s.myvifs other).groups := by
  unfold asking
  rw [setMyvif_groups]
  · rfl
  · exact fun _ => rfl

theorem runs_startQuerying {vif : Vif} :
    Runs (startQuerying host vif) s () s' ↔ s' = (asking s vif).observe
      (.igmp (host.iface vif).address allhosts igmpMembershipQuery 100 0) := by
  unfold startQuerying
  constructor
  · intro run
    obtain ⟨timer, _, set, rest⟩ := runs_bind.mp run
    obtain ⟨_, _, store, send⟩ := runs_bind.mp rest
    obtain ⟨rfl, rfl⟩ := runs_timerSetTimer.mp set
    obtain rfl := runs_storeMyvif.mp store
    exact runs_igmpOutput.mp send
  · rintro rfl
    refine runs_bind.mpr ⟨_, _, runs_timerSetTimer.mpr ⟨rfl, rfl⟩, ?_⟩
    exact runs_bind.mpr ⟨(), _, runs_storeMyvif.mpr rfl, runs_igmpOutput.mpr rfl⟩

/-- What neutral updates keep, and interfaces that start to ask, holds when the main loop starts. -/
theorem start_keeps {P : Daemon → Prop} (blank : ∀ pimSendBuf, P (Daemon.blank pimSendBuf))
    (each : ∀ update state, Neutral update → P state → P (update.apply state))
    (asks : ∀ state vif, host.Serves vif → P state → P ((asking state vif).observe
      (.igmp (host.iface vif).address allhosts igmpMembershipQuery 100 0)))
    (start : Start host s) : P s := by
  obtain ⟨pimSendBuf, booted⟩ := start
  obtain ⟨_, activated, activate, tick⟩ := runs_bind.mp booted
  obtain ⟨_, _, set, stop⟩ := runs_bind.mp tick
  obtain ⟨_, rfl⟩ := runs_timerSetTimer.mp set
  obtain ⟨_, rfl⟩ := runs_pure.mp stop
  have rounds : ∀ vifs : List Vif, (∀ vif ∈ vifs, 1 ≤ vif ∧ vif ≤ host.maxvif) → ∀ {before after},
      P before → Runs (foldProgram (fun _ vif => onlyIf ((host.iface vif).isActive = true)
        (activeVif host vif)) vifs ()) before () after → P after := by
    intro vifs
    induction vifs with
    | nil =>
        intro _ before after holds run
        obtain ⟨_, rfl⟩ := runs_pure.mp run
        exact holds
    | cons vif rest ih =>
        intro inside before after holds run
        obtain ⟨_, middle, now, later⟩ := runs_bind.mp run
        refine ih (fun other member => inside other (List.mem_cons_of_mem vif member)) ?_ later
        rcases runs_onlyIf.mp now with ⟨active, one⟩ | ⟨_, rfl⟩
        · obtain ⟨_, queried, query, hello⟩ := runs_bind.mp one
          obtain rfl := runs_startQuerying.mp query
          have bounds := inside vif (List.mem_cons_self ..)
          have asked := asks before vif ⟨bounds.1, bounds.2, active⟩ holds
          exact neutral_keeps (pimHelloOutput_neutral _) each hello asked
        · exact holds
  have tick : Neutral (.setTimer 5 .timer) := (by decide : (0 : Int) ≤ 5)
  exact each _ _ tick (rounds host.vifs (fun vif => Host.mem_vifs.mp) (blank pimSendBuf) activate)

/-- The interface waits for `querier`: the timer `old` is replaced by a new one for
its silence. -/
def awaiting (s : Daemon) (vif : Vif) (old : Int) (querier : Addr) (query : Int) : Daemon :=
  ((s.clearTimer old).setTimer igmpQuerierTimeout (.retryQuery vif)).setMyvif vif fun myv =>
    { myv with querier := querier, igmpQuerytimerId := query, querierRetryId := s.id + 1 }

theorem awaiting_groups (s : Daemon) (vif : Vif) (old : Int) (querier : Addr) (query : Int)
    (other : Vif) : ((awaiting s vif old querier query).myvifs other).groups = (s.myvifs other).groups := by
  unfold awaiting
  rw [setMyvif_groups]
  · rw [Daemon.setTimer, clearTimer_myvifs]
  · exact fun _ => rfl

theorem runs_startRetry {vif : Vif} :
    Runs (startRetry vif) s () s' ↔ s' = (s.setTimer igmpQuerierTimeout (.retryQuery vif)).setMyvif vif
      fun myv => { myv with querierRetryId := s.id + 1 } := by
  unfold startRetry
  constructor
  · intro run
    obtain ⟨timer, _, set, store⟩ := runs_bind.mp run
    obtain ⟨rfl, rfl⟩ := runs_timerSetTimer.mp set
    exact runs_storeMyvif.mp store
  · rintro rfl
    exact runs_bind.mpr ⟨_, _, runs_timerSetTimer.mpr ⟨rfl, rfl⟩, runs_storeMyvif.mpr rfl⟩

theorem setMyvif_setTimer (s : Daemon) (vif : Vif) (function : Myvif → Myvif) (delay : Int)
    (action : Callback) :
    (s.setMyvif vif function).setTimer delay action = (s.setTimer delay action).setMyvif vif function :=
  rfl

/-- A store of fields that already hold what it stores changes them alike. -/
theorem setMyvif_congr (s : Daemon) (vif : Vif) {first second : Myvif → Myvif}
    (same : first (s.myvifs vif) = second (s.myvifs vif)) :
    s.setMyvif vif first = s.setMyvif vif second := by
  unfold Daemon.setMyvif
  rw [same]

/-- A new timer for the silence of the querier, after its fields are stored. -/
theorem startRetry_awaits {vif : Vif} {old : Int} {write : Myvif → Myvif}
    (run : Runs (startRetry vif) ((s.clearTimer old).setMyvif vif write) () s') (querier : Addr)
    (query : Int) (stored : write (s.myvifs vif) =
      { s.myvifs vif with
        querier := querier, igmpQuerytimerId := query, querierRetryId := (write (s.myvifs vif)).querierRetryId }) :
    s' = awaiting s vif old querier query := by
  rw [runs_startRetry.mp run, setMyvif_setTimer, setMyvif_setMyvif, awaiting]
  refine setMyvif_congr _ vif ?_
  have same : ((s.clearTimer old).setTimer igmpQuerierTimeout (.retryQuery vif)).myvifs vif =
      s.myvifs vif := by simp [Daemon.setTimer]
  rw [same, Function.comp_apply, stored]
  change { s.myvifs vif with
    querier := querier, igmpQuerytimerId := query, querierRetryId := (s.clearTimer old).id + 1 } = _
  rw [clearTimer_id]

/-! ## Queries -/

/-- How a query from `src` changes the role of the interface: nothing, a new querier, a new
timer for the old one, or both. -/
inductive Hears (host : Host) (src : Addr) (vif : Vif) (s : Daemon) : Daemon → Prop
  | ignored (own : (s.myvifs vif).querier = 0)
      (larger : ¬ (ntohl src).toNat < (ntohl (host.iface vif).address).toNat) : Hears host src vif s s
  | deferred (own : (s.myvifs vif).querier = 0)
      (smaller : (ntohl src).toNat < (ntohl (host.iface vif).address).toNat) :
      Hears host src vif s (awaiting s vif (s.myvifs vif).igmpQuerytimerId src 0)
  | renewed (other : (s.myvifs vif).querier ≠ 0)
      (later : (s.myvifs vif).querier = src ∨
        ¬ (ntohl src).toNat < (ntohl (s.myvifs vif).querier).toNat) :
      Hears host src vif s (awaiting s vif (s.myvifs vif).querierRetryId (s.myvifs vif).querier
        (s.myvifs vif).igmpQuerytimerId)
  | yielded (other : (s.myvifs vif).querier ≠ 0)
      (smaller : (ntohl src).toNat < (ntohl (s.myvifs vif).querier).toNat) :
      Hears host src vif s (awaiting
        (awaiting s vif (s.myvifs vif).querierRetryId (s.myvifs vif).querier
          (s.myvifs vif).igmpQuerytimerId)
        vif (s.id + 1) src (s.myvifs vif).igmpQuerytimerId)

theorem refreshRetry_awaits {vif : Vif} (run : Runs (refreshRetry vif) s () s') :
    s' = awaiting s vif (s.myvifs vif).querierRetryId (s.myvifs vif).querier
      (s.myvifs vif).igmpQuerytimerId := by
  unfold refreshRetry at run
  rw [runs_get_bind] at run
  obtain ⟨_, cleared, clear, start⟩ := runs_bind.mp run
  obtain rfl := runs_timerClearTimer.mp clear
  rw [← setMyvif_id (s.clearTimer _) vif] at start
  exact startRetry_awaits start _ _ rfl

theorem electQuerier_hears {src : Addr} {vif : Vif} (run : Runs (electQuerier host src vif) s () s') :
    (s' = s ∧ ((s.myvifs vif).querier = 0 ∧
        ¬ (ntohl src).toNat < (ntohl (host.iface vif).address).toNat ∨
      (s.myvifs vif).querier ≠ 0 ∧ ((s.myvifs vif).querier = src ∨
        ¬ (ntohl src).toNat < (ntohl (s.myvifs vif).querier).toNat))) ∨
    ((s.myvifs vif).querier = 0 ∧ (ntohl src).toNat < (ntohl (host.iface vif).address).toNat ∧
      s' = awaiting s vif (s.myvifs vif).igmpQuerytimerId src 0) ∨
    ((s.myvifs vif).querier ≠ 0 ∧ (ntohl src).toNat < (ntohl (s.myvifs vif).querier).toNat ∧
      s' = awaiting s vif (s.myvifs vif).querierRetryId src (s.myvifs vif).igmpQuerytimerId) := by
  unfold electQuerier at run
  rw [runs_get_bind] at run
  rcases runs_ite.mp run with ⟨either, run⟩ | ⟨neither, stop⟩
  · rcases runs_ite.mp run with ⟨own, run⟩ | ⟨other, run⟩
    · rcases runs_onlyIf.mp run with ⟨smaller, run⟩ | ⟨larger, rfl⟩
      · obtain ⟨_, _, store, run⟩ := runs_bind.mp run
        obtain ⟨_, _, clear, run⟩ := runs_bind.mp run
        obtain ⟨_, _, again, start⟩ := runs_bind.mp run
        obtain rfl := runs_storeMyvif.mp store
        obtain rfl := runs_timerClearTimer.mp clear
        obtain rfl := runs_storeMyvif.mp again
        rw [setMyvif_clearTimer, setMyvif_setMyvif] at start
        exact Or.inr (Or.inl ⟨own, smaller, startRetry_awaits start src 0 rfl⟩)
      · exact Or.inl ⟨rfl, Or.inl ⟨own, larger⟩⟩
    · rcases runs_onlyIf.mp run with ⟨smaller, run⟩ | ⟨larger, rfl⟩
      · obtain ⟨_, _, store, run⟩ := runs_bind.mp run
        obtain ⟨_, _, clear, start⟩ := runs_bind.mp run
        obtain rfl := runs_storeMyvif.mp store
        obtain rfl := runs_timerClearTimer.mp clear
        rw [setMyvif_clearTimer] at start
        exact Or.inr (Or.inr ⟨other, smaller, startRetry_awaits start src _ rfl⟩)
      · exact Or.inl ⟨rfl, Or.inr ⟨other, Or.inr larger⟩⟩
  · obtain ⟨other, same⟩ := not_or.mp neither
    exact Or.inl ⟨(runs_pure.mp stop).2, Or.inr ⟨other, Or.inl (not_not.mp same)⟩⟩

/-- A query that is not ours, from a router on one of our networks, is heard there.  What
follows on the groups of the interface comes after it. -/
theorem acceptMembershipQuery_hears {src group : Addr}
    (run : Runs (acceptMembershipQuery host src group) s () s') :
    ((isLocalAddress host src ≠ 0 ∨ findVifDirect host src = 0) ∧ s' = s) ∨
    ((isLocalAddress host src = 0 ∧ findVifDirect host src ≠ 0) ∧
      ∃ middle, Hears host src (findVifDirect host src) s middle ∧
        Runs (onlyIf ((middle.myvifs (findVifDirect host src)).querier ≠ 0 ∧ group ≠ 0)
          (forGroups (findVifDirect host src) (expectReport (findVifDirect host src) group)))
          middle () s') := by
  unfold acceptMembershipQuery at run
  rcases runs_ite.mp run with ⟨ours, stop⟩ | ⟨foreign, run⟩
  · exact Or.inl ⟨Or.inl ours, (runs_pure.mp stop).2⟩
  rcases runs_ite.mp run with ⟨none, stop⟩ | ⟨direct, run⟩
  · exact Or.inl ⟨Or.inr none, (runs_pure.mp stop).2⟩
  refine Or.inr ⟨⟨not_not.mp foreign, direct⟩, ?_⟩
  rw [runs_get_bind] at run
  obtain ⟨_, refreshed, refresh, run⟩ := runs_bind.mp run
  obtain ⟨_, middle, elect, expect⟩ := runs_bind.mp run
  rw [runs_get_bind] at expect
  refine ⟨middle, ?_, expect⟩
  rcases runs_onlyIf.mp refresh with ⟨other, refresh⟩ | ⟨own, rfl⟩
  · have renewed := refreshRetry_awaits refresh
    have querier : (refreshed.myvifs (findVifDirect host src)).querier =
        (s.myvifs (findVifDirect host src)).querier := by
      rw [renewed, awaiting, setMyvif_self]
    have timer : (refreshed.myvifs (findVifDirect host src)).querierRetryId = s.id + 1 := by
      rw [renewed, awaiting, setMyvif_self]
    have query : (refreshed.myvifs (findVifDirect host src)).igmpQuerytimerId =
        (s.myvifs (findVifDirect host src)).igmpQuerytimerId := by
      rw [renewed, awaiting, setMyvif_self]
    have elected := electQuerier_hears elect
    rw [querier, timer, query] at elected
    rcases elected with ⟨rfl, ⟨own, _⟩ | ⟨_, later⟩⟩ | ⟨own, _⟩ | ⟨_, smaller, moved⟩
    · exact absurd own other
    · rw [renewed]
      exact .renewed other later
    · exact absurd own other
    · rw [moved, renewed]
      exact .yielded other smaller
  · have own := not_not.mp own
    rcases electQuerier_hears elect with ⟨rfl, ⟨_, larger⟩ | ⟨other, _⟩⟩ | ⟨_, smaller, rfl⟩ | ⟨other, _⟩
    · exact .ignored own larger
    · exact absurd own other
    · exact .deferred own smaller
    · exact absurd own other

/-! ## The timers of a role -/

/-- A timer for the next query of an interface, or for the silence of its querier. -/
def holdsRole (vif : Vif) (entry : Int × Callback) : Bool :=
  entry.2 == .sendQuery vif || entry.2 == .retryQuery vif

def roleTimers (s : Daemon) (vif : Vif) : List (Int × Callback) := (alarms s).filter (holdsRole vif)

theorem mem_roleTimers {vif : Vif} {entry : Int × Callback} :
    entry ∈ roleTimers s vif ↔ entry ∈ alarms s ∧ holdsRole vif entry = true := List.mem_filter

theorem holdsRole_unique {vif other : Vif} {entry : Int × Callback} (one : holdsRole vif entry = true)
    (two : holdsRole other entry = true) : vif = other := by
  simp only [holdsRole, Bool.or_eq_true, beq_iff_eq] at one two
  rcases one with send | retry
  · simpa [send] using two
  · simpa [retry] using two

theorem roleTimers_setTimer_self (s : Daemon) (vif : Vif) (action : Callback)
    (role : ∀ id, holdsRole vif (id, action) = true) (delay : Int) :
    (roleTimers (s.setTimer delay action) vif).Perm ((s.id + 1, action) :: roleTimers s vif) := by
  have all := (alarms_setTimer s delay action).filter (holdsRole vif)
  rw [List.filter_cons_of_pos (role _)] at all
  exact all

theorem roleTimers_setTimer_other (s : Daemon) (vif : Vif) (action : Callback)
    (role : ∀ id, holdsRole vif (id, action) = false) (delay : Int) :
    (roleTimers (s.setTimer delay action) vif).Perm (roleTimers s vif) := by
  have all := (alarms_setTimer s delay action).filter (holdsRole vif)
  rw [List.filter_cons_of_neg (by simp [role])] at all
  exact all

theorem roleTimers_clearTimer_self (orderly : Orderly s) (idle : s.expired = []) {vif : Vif}
    {timer : Int} {func : Callback} (only : roleTimers s vif = [(timer, func)]) :
    roleTimers (s.clearTimer timer) vif = [] := by
  refine List.eq_nil_iff_forall_not_mem.mpr fun entry member => ?_
  obtain ⟨inside, role⟩ := mem_roleTimers.mp member
  obtain ⟨pending, apart⟩ := (mem_alarms_clearTimer orderly idle timer entry).mp inside
  have known : entry ∈ roleTimers s vif := mem_roleTimers.mpr ⟨pending, role⟩
  rw [only, List.mem_singleton] at known
  rw [known] at apart
  exact apart rfl

theorem nodup_roleTimers (orderly : Orderly s) (vif : Vif) : (roleTimers s vif).Nodup :=
  (List.Nodup.of_map _ orderly.distinct).filter _

/-- Clearing a timer that is not among them leaves the timers of a role. -/
theorem roleTimers_clearTimer_other (orderly : Orderly s) (idle : s.expired = []) (vif : Vif)
    (timer : Int) (absent : ∀ entry ∈ roleTimers s vif, entry.1 ≠ timer) :
    (roleTimers (s.clearTimer timer) vif).Perm (roleTimers s vif) := by
  have cleared : Orderly (s.clearTimer timer) := orderly_update (.clearTimer timer) orderly
  refine (List.perm_ext_iff_of_nodup (nodup_roleTimers cleared vif) (nodup_roleTimers orderly vif)).mpr ?_
  intro entry
  rw [mem_roleTimers, mem_roleTimers, mem_alarms_clearTimer orderly idle]
  constructor
  · rintro ⟨⟨pending, _⟩, role⟩
    exact ⟨pending, role⟩
  · rintro ⟨pending, role⟩
    exact ⟨⟨pending, absent entry (mem_roleTimers.mpr ⟨pending, role⟩)⟩, role⟩

/-! ## Agreement of role and timers -/

/-- One timer is pending for the role, it is the one the interface has noted, and an interface
waits only for a smaller address than its own. -/
def QuerierAgrees (host : Host) (s : Daemon) (vif : Vif) : Prop :=
  ((s.myvifs vif).querier = 0 ∧
    roleTimers s vif = [((s.myvifs vif).igmpQuerytimerId, .sendQuery vif)]) ∨
  ((s.myvifs vif).querier ≠ 0 ∧
    roleTimers s vif = [((s.myvifs vif).querierRetryId, .retryQuery vif)] ∧
    (ntohl (s.myvifs vif).querier).toNat < (ntohl (host.iface vif).address).toNat)

theorem QuerierAgrees.congr {vif : Vif} (agrees : QuerierAgrees host s vif)
    (fields : s'.myvifs vif = s.myvifs vif) (timers : (roleTimers s' vif).Perm (roleTimers s vif)) :
    QuerierAgrees host s' vif := by
  unfold QuerierAgrees at agrees ⊢
  rw [fields]
  rcases agrees with ⟨own, only⟩ | ⟨other, only, smaller⟩
  · rw [only] at timers
    exact Or.inl ⟨own, List.perm_singleton.mp timers⟩
  · rw [only] at timers
    exact Or.inr ⟨other, List.perm_singleton.mp timers, smaller⟩

/-- Some timer of the role is pending. -/
theorem QuerierAgrees.timer {vif : Vif} (agrees : QuerierAgrees host s vif) :
    ∃ entry, roleTimers s vif = [entry] := by
  rcases agrees with ⟨_, only⟩ | ⟨_, only, _⟩
  · exact ⟨_, only⟩
  · exact ⟨_, only⟩

theorem holdsRole_send (vif other : Vif) (id : Int) :
    holdsRole vif (id, .sendQuery other) = decide (other = vif) := by
  simp [holdsRole, Bool.beq_eq_decide_eq]

theorem holdsRole_retry (vif other : Vif) (id : Int) :
    holdsRole vif (id, .retryQuery other) = decide (other = vif) := by
  simp [holdsRole, Bool.beq_eq_decide_eq]

/-- An interface without role timers that asks agrees with the timer it sets. -/
theorem asking_self_agrees {vif : Vif} (none : roleTimers s vif = []) :
    QuerierAgrees host (asking s vif) vif := by
  refine Or.inl ⟨by rw [asking, setMyvif_self], ?_⟩
  have timers := roleTimers_setTimer_self s vif (.sendQuery vif)
    (fun id => by simp [holdsRole_send]) igmpQueryTime
  rw [none] at timers
  rw [asking, setMyvif_self]
  exact List.perm_singleton.mp timers

theorem asking_other_timers {vif other : Vif} (different : other ≠ vif) :
    (roleTimers (asking s vif) other).Perm (roleTimers s other) :=
  roleTimers_setTimer_other s other (.sendQuery vif)
    (fun id => by simp [holdsRole_send, Ne.symm different]) igmpQueryTime

theorem asking_other_agrees {vif other : Vif} (different : other ≠ vif)
    (agrees : QuerierAgrees host s other) : QuerierAgrees host (asking s vif) other :=
  agrees.congr (setMyvif_other different _ _) (asking_other_timers different)

theorem orderly_awaiting (orderly : Orderly s) (vif : Vif) (old : Int) (querier : Addr) (query : Int) :
    Orderly (awaiting s vif old querier query) := by
  have cleared : Orderly (s.clearTimer old) := orderly_update (.clearTimer old) orderly
  have set : Orderly ((s.clearTimer old).setTimer igmpQuerierTimeout (.retryQuery vif)) :=
    orderly_update (.setTimer igmpQuerierTimeout (.retryQuery vif)) cleared
  exact ⟨set.bounds, set.distinct, set.started⟩

theorem awaiting_expired (s : Daemon) (vif : Vif) (old : Int) (querier : Addr) (query : Int) :
    (awaiting s vif old querier query).expired = s.expired := by
  simp [awaiting, Daemon.setMyvif, Daemon.setTimer]

theorem awaiting_timers (orderly : Orderly s) (idle : s.expired = []) {vif : Vif} {old : Int}
    {func : Callback} (only : roleTimers s vif = [(old, func)]) (querier : Addr) (query : Int) :
    roleTimers (awaiting s vif old querier query) vif = [(s.id + 1, .retryQuery vif)] := by
  have timers := roleTimers_setTimer_self (s.clearTimer old) vif (.retryQuery vif)
    (fun id => by simp [holdsRole_retry]) igmpQuerierTimeout
  rw [roleTimers_clearTimer_self orderly idle only, clearTimer_id] at timers
  exact List.perm_singleton.mp timers

/-- An interface that replaces its role timer and waits for a smaller address agrees, and the
others still do. -/
theorem awaiting_agrees (orderly : Orderly s) (idle : s.expired = []) {vif : Vif} {old : Int}
    {func : Callback} (only : roleTimers s vif = [(old, func)]) {querier : Addr} (query : Int)
    (nonzero : querier ≠ 0)
    (smaller : (ntohl querier).toNat < (ntohl (host.iface vif).address).toNat)
    (all : ∀ other, other ≠ vif → host.Serves other → QuerierAgrees host s other) (other : Vif)
    (serves : host.Serves other) : QuerierAgrees host (awaiting s vif old querier query) other := by
  by_cases here : other = vif
  · subst here
    refine Or.inr ?_
    rw [awaiting_timers orderly idle only, awaiting, setMyvif_self]
    exact ⟨nonzero, rfl, smaller⟩
  · refine (all other here serves).congr ?_ ?_
    · rw [awaiting, setMyvif_other here]
      simp [Daemon.setTimer]
    · have cleared := roleTimers_clearTimer_other orderly idle other old ?_
      · exact (roleTimers_setTimer_other (s.clearTimer old) other (.retryQuery vif)
          (fun id => by simp [holdsRole_retry, Ne.symm here]) _).trans cleared
      · intro entry member same
        obtain ⟨pending, role⟩ := mem_roleTimers.mp member
        have first : (old, func) ∈ roleTimers s vif := by simp [only]
        obtain ⟨old_pending, old_role⟩ := mem_roleTimers.mp first
        obtain rfl := orderly.unique pending old_pending same
        exact here (holdsRole_unique role old_role)

/-- A query from an address other than 0 keeps the agreement on every interface. -/
theorem hears_agrees (orderly : Orderly s) (idle : s.expired = []) {src : Addr} (nonzero : src ≠ 0)
    {vif : Vif} (serves : host.Serves vif) (hears : Hears host src vif s s')
    (all : ∀ other, host.Serves other → QuerierAgrees host s other) (other : Vif)
    (served : host.Serves other) : QuerierAgrees host s' other := by
  have rest : ∀ other, other ≠ vif → host.Serves other → QuerierAgrees host s other :=
    fun other _ => all other
  cases hears with
  | ignored own larger => exact all other served
  | deferred own smaller =>
      rcases all vif serves with ⟨_, only⟩ | ⟨other, _⟩
      · exact awaiting_agrees orderly idle only 0 nonzero smaller rest _ served
      · exact absurd own other
  | renewed waits later =>
      rcases all vif serves with ⟨own, _⟩ | ⟨_, only, smaller⟩
      · exact absurd own waits
      · exact awaiting_agrees orderly idle only _ waits smaller rest _ served
  | yielded waits smaller =>
      rcases all vif serves with ⟨own, _⟩ | ⟨_, only, below⟩
      · exact absurd own waits
      · have first : ∀ other, host.Serves other → QuerierAgrees host (awaiting s vif _ _ _) other :=
          awaiting_agrees orderly idle only (s.myvifs vif).igmpQuerytimerId waits below rest
        have timers := awaiting_timers orderly idle only (s.myvifs vif).querier
          (s.myvifs vif).igmpQuerytimerId
        refine awaiting_agrees (orderly_awaiting orderly _ _ _ _) ?_ timers _ nonzero
          (smaller.trans below) (fun other _ => first other) _ served
        rw [awaiting_expired, idle]

end PimDm.Refinement
