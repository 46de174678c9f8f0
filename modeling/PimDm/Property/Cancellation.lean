import PimDm.Property.History
import PimDm.Refinement.Expiry

/-!
# Timers that were cleared

`age_callout_queue` detaches the timers that have run out and then calls them one by
one; `timer_clearTimer` looks for its timer in the queue only.  A timer that another
timer of its own batch clears is called all the same.
-/

namespace PimDm.Property

open PimDm.Foundation PimDm.Source PimDm.Effect PimDm.Refinement

variable {host : Host} {s s' : Daemon} {source group : Addr} {mymrt : Ptr} {e : Mrt} {id : Int} {calls : List Int}

/-! ## Behaviours -/

/-- What may happen from a state on: timers are set, cleared and detached in any way, and
the next timer of the batch is called.  The ids called are listed, the last one first. -/
inductive GoesOn (start : Daemon) : List Int → Daemon → Prop
  | here : GoesOn start [] start
  | does {ids : List Int} {before after : Daemon} (going : GoesOn start ids before)
      (sets : Sets Anything before after) : GoesOn start ids after
  | call {ids : List Int} {before : Daemon} {ptr : TimeoutQ} {rest : List TimeoutQ}
      (going : GoesOn start ids before) (batch : before.expired = ptr :: rest) :
      GoesOn start (ptr.id :: ids) before.popExpired

/-- Whatever happens, no timer with this id is called. -/
def NeverCalled (s : Daemon) (id : Int) : Prop := ∀ ids later, GoesOn s ids later → id ∉ ids

/-- The timer is one of the batch being called. -/
def Detached (s : Daemon) (id : Int) : Prop := ∃ ptr ∈ s.expired, ptr.id = id

/-- A timer that is not pending does not come back, for its id is not given again. -/
theorem absent_of_sets (sets : Sets Anything s s') (given : id ≤ s.id) (absent : ∀ entry ∈ alarms s, entry.1 ≠ id) :
    id ≤ s'.id ∧ ∀ entry ∈ alarms s', entry.1 ≠ id := by
  have grown := sets.ids
  refine ⟨by omega, fun entry member same => ?_⟩
  rcases sets.old_or_new entry member with old | ⟨new, _⟩
  · exact absent entry old same
  · omega

theorem neverCalled_of_absent (given : id ≤ s.id) (absent : ∀ entry ∈ alarms s, entry.1 ≠ id) :
    NeverCalled s id := by
  intro ids later going
  have holds : id ∉ ids ∧ id ≤ later.id ∧ ∀ entry ∈ alarms later, entry.1 ≠ id := by
    induction going with
    | here => exact ⟨List.not_mem_nil, given, absent⟩
    | does going sets ih =>
        obtain ⟨uncalled, below, none⟩ := ih
        exact ⟨uncalled, absent_of_sets sets below none⟩
    | @call ids before ptr rest going batch ih =>
        obtain ⟨uncalled, below, none⟩ := ih
        have split := alarms_cons batch
        have first : ptr.id ≠ id := none (alarm ptr) (split ▸ List.mem_cons_self ..)
        refine ⟨fun called => ?_, below, fun entry member => none entry (split ▸ List.mem_cons_of_mem _ member)⟩
        rcases List.mem_cons.mp called with same | before
        · exact first same.symm
        · exact uncalled before
  exact holds.1

/-- The timers of the batch are called, one after the other. -/
theorem called_of_detached (detached : Detached s id) : ¬ NeverCalled s id := by
  obtain ⟨ptr, member, rfl⟩ := detached
  have some : ∃ ids later, GoesOn s ids later ∧ ptr.id ∈ ids := by
    obtain ⟨ahead, behind, split⟩ := List.append_of_mem member
    have pops : ∀ ahead : List TimeoutQ, ∀ {ids before}, GoesOn s ids before →
        before.expired = ahead ++ ptr :: behind → ∃ ids later, GoesOn s ids later ∧ ptr.id ∈ ids := by
      intro ahead
      induction ahead with
      | nil =>
          intro ids before going batch
          exact ⟨_, _, going.call batch, List.mem_cons_self ..⟩
      | cons first rest ih =>
          intro ids before going batch
          refine ih (going.call batch) ?_
          rw [Daemon.popExpired, batch]
          rfl
    exact pops ahead .here split
  obtain ⟨ids, later, going, called⟩ := some
  exact fun never => never ids later going called

/-- The runs of the daemon are among these behaviours. -/
theorem goesOn_of_step {event : Event} (taken : Step host s event s') :
    GoesOn s ((s.expired.head?.map TimeoutQ.id).toList) s' := by
  cases batch : s.expired with
  | nil => exact .does .here (sets_of_changes (handle_anything taken.2))
  | cons ptr rest =>
      cases event with
      | expire pktcnt =>
          have call : GoesOn s [ptr.id] s.popExpired := .call .here batch
          rcases runs_expire taken.2 with ⟨none, _⟩ | ⟨func, calls, run⟩
          · rw [called, batch] at none
            cases none
          · have within : Within (Changes (callLevel func) Anything) (callFunc host pktcnt func) :=
              callFunc_changes calls (Nat.le_refl _) (mayRegister_anything host s (.expire pktcnt))
            exact call.does (sets_of_changes (within s.popExpired () s' run))
      | _ =>
          have idle := idle_of_enabled rfl taken.1
          rw [batch] at idle
          cases idle

/-- The ids of the timers called in a run. -/
def noteCalled (before : Daemon) (_ : Event) (_ : Daemon) (ids : List Int) : List Int :=
  (before.expired.head?.map TimeoutQ.id).toList ++ ids

theorem GoesOn.trans {middle : Daemon} {more : List Int} (left : GoesOn s calls middle)
    (right : GoesOn middle more s') :
    GoesOn s (more ++ calls) s' := by
  induction right with
  | here => exact left
  | does going sets ih => exact ih.does sets
  | call going batch ih => exact ih.call batch

theorem goesOn_of_run {allowed : Daemon × List Int → Event → Prop}
    (run : Reaches (Monitored (Step host) noteCalled) allowed (s, []) (s', calls)) : GoesOn s calls s' := by
  refine run.keeps (P := fun reached => GoesOn s reached.2 reached.1) .here ?_
  rintro ⟨before, ids⟩ event ⟨after, more⟩ going _ ⟨taken, note⟩
  dsimp only at note taken going
  rw [note, noteCalled]
  exact going.trans (goesOn_of_step taken)

/-! ## Clearing -/

theorem detached_iff : Detached s id ↔ ∃ entry ∈ s.expired.map alarm, entry.1 = id := by
  constructor
  · rintro ⟨ptr, member, same⟩
    exact ⟨alarm ptr, List.mem_map_of_mem member, same⟩
  · rintro ⟨entry, member, same⟩
    obtain ⟨ptr, inside, rfl⟩ := List.mem_map.mp member
    exact ⟨ptr, inside, same⟩

/-- A timer that is cleared is gone, unless it is one of the batch. -/
theorem cleared_absent (orderly : Orderly s) (waits : ¬ Detached s id) :
    ∀ entry ∈ alarms (s.clearTimer id), entry.1 ≠ id := by
  intro entry member same
  obtain ⟨_, other | batch⟩ := (mem_alarms_clearTimer_iff orderly id entry).mp member
  · exact other same
  · exact waits (detached_iff.mpr ⟨entry, batch, same⟩)

theorem cleared_neverCalled_iff (orderly : Orderly s) (given : id ≤ s.id) :
    NeverCalled (s.clearTimer id) id ↔ ¬ Detached s id := by
  have batch : Detached (s.clearTimer id) id ↔ Detached s id := by
    unfold Detached
    rw [clearTimer_expired]
  constructor
  · intro never detached
    exact called_of_detached (batch.mpr detached) never
  · intro waits
    have still : id ≤ (s.clearTimer id).id := by
      rw [clearTimer_id]
      exact given
    exact neverCalled_of_absent still (cleared_absent orderly waits)

/-! ## The timeout that `check_sg` replaces -/

/-- After the timeout is cleared, `check_sg` sets a new one and replaces the check timer. -/
theorem sets_of_restart (s : Daemon) (mymrt : Ptr) (old check : Int) (source group : Addr) (pktcnt : Int) :
    Sets Anything (({ s with packetNumber := pktcnt } : Daemon).clearTimer old)
      (recheck (restart s mymrt old source group pktcnt) mymrt check source group) := by
  have permitted : ∀ update : Update, update.level = .quiet → update.Registers Anything →
      Permits .quiet Anything update := fun update level registers => ⟨by rw [level]; exact Level.quiet_le _, registers⟩
  have each : ∀ update : Update, update.level = .quiet → update.Registers Anything → ∀ state : Daemon,
      Sets Anything state (update.apply state) := fun update level registers =>
    sets_update (permitted update level registers)
  have steady := steady_sets Anything
  have timeout := each (.setTimer pimSgTimeout (.handleSgTimeout source group)) rfl trivial
    (({ s with packetNumber := pktcnt } : Daemon).clearTimer old)
  have noted := each (.field mymrt (.timeout (s.id + 1))) rfl trivial
    ((({ s with packetNumber := pktcnt } : Daemon).clearTimer old).setTimer pimSgTimeout
      (.handleSgTimeout source group))
  have cleared := each (.clearTimer check) rfl trivial (restart s mymrt old source group pktcnt)
  have checks := each (.setTimer pimSgCheck (.checkSg source group)) rfl trivial
    ((restart s mymrt old source group pktcnt).clearTimer check)
  have stored := each (.field mymrt (.checkTimer ((restart s mymrt old source group pktcnt).id + 1))) rfl
    ⟨source, group, trivial⟩ (((restart s mymrt old source group pktcnt).clearTimer check).setTimer pimSgCheck
      (.checkSg source group))
  exact steady.trans (steady.trans timeout noted) (steady.trans (steady.trans cleared checks) stored)

/-- `check_sg` saw fresh traffic, so it has cleared the timeout of its entry. -/
theorem restarted_neverCalled_iff (orderly : Orderly s) {pktcnt : Int}
    (calls : called s (.expire pktcnt) = some (.checkSg source group)) (fresh : pktcnt > s.packetNumber)
    (taken : Step host s (.expire pktcnt) s') (found : Finds s source group mymrt)
    (here : s.mrts.get? mymrt = some e) (pending : (e.timeoutId, .handleSgTimeout source group) ∈ alarms s) :
    NeverCalled s' e.timeoutId ↔ ¬ Detached s e.timeoutId := by
  have call := runs_called calls taken.2
  obtain ⟨ptr, rest, batch, same⟩ := called_batch calls
  have start : Orderly s.popExpired := orderly_update .popExpired orderly
  obtain ⟨other, content, searched, loaded, ⟨_, rfl⟩ | ⟨stale, _⟩⟩ := runs_checkSg call
  · obtain rfl := Except.ok.inj (found.symm.trans searched)
    obtain rfl := Option.some.inj (here.symm.trans loaded)
    have given : e.timeoutId ≤ s.id := (orderly.bounds _ pending).2
    -- The batch is the one the check was called from, and the check was another timer.
    have detached : Detached s.popExpired e.timeoutId ↔ Detached s e.timeoutId := by
      have apart : alarm ptr ≠ (e.timeoutId, .handleSgTimeout source group) := by
        intro first
        have func := congrArg Prod.snd first
        rw [alarm, same] at func
        cases func
      have first : alarm ptr ∈ alarms s := alarm_mem_of_batch batch
      have different : ptr.id ≠ e.timeoutId := fun one => apart (orderly.unique first pending one)
      unfold Detached
      rw [Daemon.popExpired, batch, List.tail_cons]
      simp [different]
    have counted : Orderly { s.popExpired with packetNumber := pktcnt } := orderly_update (.packetNumber pktcnt) start
    have restarts : Sets Anything (({ s.popExpired with packetNumber := pktcnt } : Daemon).clearTimer e.timeoutId)
        (recheck (restart s.popExpired mymrt e.timeoutId source group pktcnt) mymrt e.checkTimerid source group) :=
      sets_of_restart _ _ _ _ _ _ _
    rw [← detached]
    constructor
    · intro never waits
      refine called_of_detached ?_ never
      unfold Detached
      rw [recheck_expired, restart_expired]
      exact waits
    · intro waits
      have still : e.timeoutId ≤
          (({ s.popExpired with packetNumber := pktcnt } : Daemon).clearTimer e.timeoutId).id := by
        rw [clearTimer_id]
        exact given
      obtain ⟨below, none⟩ := absent_of_sets restarts still (cleared_absent counted waits)
      exact neverCalled_of_absent below none
  · exact absurd fresh stale

/-- A timer that is cleared is never called, whatever the callbacks do, exactly when it is not
one of the batch being called; the states and the runs of the daemon are covered, and so is
the timeout that `check_sg` replaces after fresh traffic. -/
theorem cleared_timer_is_silent (orderly : Orderly s) (given : id ≤ s.id) :
    (NeverCalled (s.clearTimer id) id ↔ ¬ Detached s id) ∧
    (∀ reached, Reachable host (fun _ _ => True) reached → Orderly reached) ∧
    (∀ s' ids, Reaches (Monitored (Step host) noteCalled) (fun _ _ => True) (s, []) (s', ids) → GoesOn s ids s') ∧
    ∀ source group pktcnt s' mymrt e, called s (.expire pktcnt) = some (.checkSg source group) →
      pktcnt > s.packetNumber → Step host s (.expire pktcnt) s' → Finds s source group mymrt →
      s.mrts.get? mymrt = some e → (e.timeoutId, .handleSgTimeout source group) ∈ alarms s →
        (NeverCalled s' e.timeoutId ↔ ¬ Detached s e.timeoutId) := by
  refine ⟨cleared_neverCalled_iff orderly given, fun _ => reachable_orderly, fun _ _ run => goesOn_of_run run, ?_⟩
  intro source group pktcnt s' mymrt e calls fresh taken found here pending
  exact restarted_neverCalled_iff orderly calls fresh taken found here pending

/-- The timer set last, with none detached. -/
theorem cleared_timer_is_silent_session :
    ∃ s, Reachable loneRouter (fun _ _ => True) s ∧ (∃ entry ∈ alarms s, entry.1 = s.id) ∧
      NeverCalled (s.clearTimer s.id) s.id := by
  have passed : endsWith loneRouter (fun _ _ => True) [upcall 1 1 (stationOn 1 2) studio channel]
      (fun s => decide (∃ entry ∈ alarms s, entry.1 = s.id) && s.expired.isEmpty) = true := by
    decide +kernel
  obtain ⟨s, reached, seen⟩ := reachable_of_endsWith passed
  obtain ⟨pending, idle⟩ := Bool.and_eq_true_iff.mp seen
  have silent : NeverCalled (s.clearTimer s.id) s.id ↔ ¬ Detached s s.id :=
    (@cleared_timer_is_silent loneRouter s s.id (reachable_orderly reached) (Int.le_refl s.id)).1
  refine ⟨s, reached, of_decide_eq_true pending, silent.mpr ?_⟩
  rintro ⟨ptr, member, _⟩
  rw [List.isEmpty_iff.mp idle] at member
  exact List.not_mem_nil member

/-- After 400 seconds without ageing the check and the timeout of an entry are in one batch.
The check finds 100 new packets, and the timeout removes the entry. -/
theorem cleared_timer_is_called :
    ¬ ∀ (host : Host) (s : Daemon) (source group : Addr) (pktcnt : Int) (s' later : Daemon),
      Reachable host (fun _ _ => True) s → called s (.expire pktcnt) = some (.checkSg source group) →
        pktcnt > s.packetNumber → Step host s (.expire pktcnt) s' →
          Reaches (Step host) (fun _ event => event.isExpire = true) s' later → InTable later source group := by
  intro stays
  have passed : branchEndsWith loneRouter (fun _ _ => True) (fun _ event => event.isExpire = true)
      [upcall 1 1 (stationOn 1 2) studio channel, .age 400, .expire 0, .expire 0, .expire 0] (.expire 100) [.expire 100]
      (fun s _ later => decide (called s (.expire 100) = some (.checkSg studio channel) ∧ 100 > s.packetNumber ∧
        ¬ InTable later studio channel)) = true := by
    decide +kernel
  obtain ⟨s, s', later, reached, taken, pass, seen⟩ := runs_of_branchEndsWith passed
  obtain ⟨calls, fresh, gone⟩ := of_decide_eq_true seen
  exact gone (stays loneRouter s studio channel 100 s' later reached calls fresh taken pass)

end PimDm.Property
