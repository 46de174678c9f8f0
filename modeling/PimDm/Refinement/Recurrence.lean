import PimDm.Refinement.RoleTimers
import PimDm.Refinement.Emissions

/-!
# Timers that set themselves again

`timer` and the regular Hello of each active interface are set at the start, and nothing but
their own functions sets them again.  No other event adds, clears or moves them.
-/

namespace PimDm.Refinement

open PimDm.Foundation PimDm.Source PimDm.Effect

variable {host : Host} {s s' : Daemon} {event : Event} {func : Callback}

/-! ## Other events -/

theorem ne_of_recurs (recurs : Recurs func) {other : Callback} (plain : ¬ Recurs other) : other ≠ func :=
  fun same => plain (same ▸ recurs)

/-- An event that does not call a recurring timer sets none. -/
theorem recurring_sets (recurs : Recurs func) (calls : called s event ≠ some func) :
    MaySet host s event (· ≠ func) where
  graft _ _ := ne_of_recurs recurs id
  prune _ _ _ := ne_of_recurs recurs id
  restored _ _ := ne_of_recurs recurs id
  leave _ _ _ := ne_of_recurs recurs id
  again _ here same := calls (same ▸ here)
  plain _ _ single := ne_of_recurs recurs single
  check _ _ _ := ne_of_recurs recurs id

theorem alarms_begun (s : Daemon) (event : Event) : (alarms (begun s event)).Sublist (alarms s) := by
  unfold begun
  split
  · exact alarms_popExpired s
  · exact List.Sublist.refl _

/-- A recurring timer that is pending after an event that does not call it was pending before. -/
theorem recurring_old (recurs : Recurs func) (calls : called s event ≠ some func)
    (run : Runs (handle host event) s () s') {timer : Int} (pending : (timer, func) ∈ alarms s') :
    (timer, func) ∈ alarms s := by
  by_cases passes : ∀ elapsedTime, event ≠ .age elapsedTime
  · have changes : Changes (eventLevel s event) (· ≠ func) (begun s event) s' :=
      handle_from_begun_sets passes (Nat.le_refl _) (recurring_sets recurs calls) run
    rcases (sets_of_changes changes).old_or_new _ pending with old | ⟨_, _, other⟩
    · exact (alarms_begun s event).subset old
    · exact absurd rfl other
  · simp only [not_forall, not_not] at passes
    obtain ⟨elapsedTime, rfl⟩ := passes
    obtain rfl := runs_modify.mp run
    exact (alarms_age s elapsedTime).subset pending

/-- What an event may clear does not recur. -/
theorem mayCancel_plain (may : MayCancel host s event func) : ¬ Recurs func := by
  have clears := may.clears
  cases func with
  | timer => exact clears.elim
  | pimHelloOutput data => exact clears.elim
  | _ => exact id

/-- A recurring timer stays, due when it was, in every event that takes no time and does not call it. -/
theorem recurring_stays (zero : host.ZeroFilled) (owned : Owned s) (recurs : Recurs func)
    (passes : ∀ elapsedTime, event ≠ .age elapsedTime) (calls : called s event ≠ some func)
    (run : Runs (handle host event) s () s') {now time timer : Int} (pending : (time, timer, func) ∈ agenda now s) :
    (time, timer, func) ∈ agenda now s' :=
  handle_stays zero owned passes calls (fun may => mayCancel_plain may recurs) run pending

/-! ## The functions themselves -/

/-- The timers that set themselves again, with the seconds between. -/
inductive Beats (host : Host) : Callback → Int → Prop where
  | timer : Beats host .timer 5
  | hello {vif : Vif} (serves : host.Serves vif) : Beats host
      (.pimHelloOutput ⟨vif, pimHelloHoldtime, 1⟩) pimHelloPeriod

theorem Beats.recurs {period : Int} (beats : Beats host func period) : Recurs func := by
  cases beats with
  | timer => exact trivial
  | hello serves => exact trivial

theorem Beats.positive {period : Int} (beats : Beats host func period) : 0 < period := by
  cases beats with
  | timer => decide
  | hello serves => decide

theorem runs_timer : Runs timer s () s' ↔
    s' = ({ s with virtualTime := s.virtualTime + 5 } : Daemon).setTimer 5 .timer := by
  constructor
  · intro run
    obtain ⟨_, _, count, set⟩ := runs_bind.mp run
    obtain rfl := runs_modify.mp count
    obtain ⟨_, _, arm, stop⟩ := runs_bind.mp set
    obtain ⟨_, rfl⟩ := runs_timerSetTimer.mp arm
    exact (runs_pure.mp stop).2
  · rintro rfl
    exact runs_bind.mpr ⟨(), _, runs_modify.mpr rfl, runs_bind.mpr ⟨_, _, runs_timerSetTimer.mpr ⟨rfl, rfl⟩,
      runs_pure.mpr ⟨rfl, rfl⟩⟩⟩

/-- A regular Hello sets its timer, and no other. -/
theorem agenda_helloed {data : PimHelloOutputData} (regular : data.regular = 1) (now : Int) :
    agenda now (helloed host data s) = agenda now (s.setTimer pimHelloPeriod (.pimHelloOutput data)) := by
  unfold helloed rearmHello
  rw [if_pos regular]
  rfl

/-- All pending timers with the times they are due, and their functions. -/
def calls (now : Int) (s : Daemon) : List (Int × Callback) := (agenda now s).map fun entry => (entry.1, entry.2.2)

theorem calls_setTimer (now : Int) (s : Daemon) (delay : Int) (action : Callback) :
    (calls now (s.setTimer delay action)).Perm ((now + delay, action) :: calls now s) :=
  (agenda_setTimer now s delay action).map _

/-- A recurring function sets its timer and no other. -/
theorem beats_calls {pktcnt period : Int} (beats : Beats host func period)
    (run : Runs (callFunc host pktcnt func) s () s')
    (now : Int) : (agenda now s').Perm ((now + period, s.id + 1, func) :: agenda now s) := by
  cases beats with
  | timer =>
      rw [runs_timer.mp run]
      exact agenda_setTimer now _ 5 .timer
  | hello serves =>
      rw [runs_pimHelloOutput.mp run, agenda_helloed rfl]
      exact agenda_setTimer now s pimHelloPeriod _

/-! ## Start -/

/-- The timers that `active_vifs` sets for an interface. -/
def vifCalls (now : Int) (vif : Vif) : List (Int × Callback) :=
  [(now + pimHelloPeriod, .pimHelloOutput ⟨vif, pimHelloHoldtime, 1⟩), (now + igmpQueryTime, .sendQuery vif)]

theorem activeVif_calls {vif : Vif} (run : Runs (activeVif host vif) s () s') (now : Int) :
    (calls now s').Perm (vifCalls now vif ++ calls now s) := by
  obtain ⟨_, _, query, hello⟩ := runs_bind.mp run
  obtain rfl := runs_startQuerying.mp query
  rw [runs_pimHelloOutput.mp hello, calls, agenda_helloed rfl]
  refine (calls_setTimer now _ pimHelloPeriod _).trans (List.Perm.cons _ ?_)
  exact calls_setTimer now s igmpQueryTime (.sendQuery vif)

theorem activeVifs_calls {vifs : List Vif} (run : Runs (foldProgram (fun _ vif =>
      onlyIf ((host.iface vif).isActive = true) (activeVif host vif)) vifs ()) s () s') (now : Int) :
    (calls now s').Perm
      (((vifs.filter fun vif => (host.iface vif).isActive).flatMap (vifCalls now)) ++ calls now s) := by
  induction vifs generalizing s with
  | nil =>
      obtain ⟨_, rfl⟩ := runs_pure.mp run
      exact List.Perm.refl _
  | cons vif rest ih =>
      obtain ⟨_, middle, first, others⟩ := runs_bind.mp run
      have later := ih others
      rcases runs_onlyIf.mp first with ⟨active, one⟩ | ⟨inactive, rfl⟩
      · rw [List.filter_cons_of_pos (by exact active), List.flatMap_cons, List.append_assoc]
        refine later.trans ?_
        refine ((activeVif_calls one now).append_left _).trans ?_
        exact List.perm_append_comm_assoc _ _ _
      · rw [List.filter_cons_of_neg (by exact inactive)]
        exact later

/-- The timers that are pending when the main loop starts. -/
theorem start_calls (started : Start host s) (now : Int) :
    (calls now s).Perm ((now + 5, .timer) ::
      (host.vifs.filter fun vif => (host.iface vif).isActive).flatMap (vifCalls now)) := by
  obtain ⟨pimSendBuf, booted⟩ := started
  obtain ⟨_, activated, activate, tick⟩ := runs_bind.mp booted
  obtain ⟨_, _, set, stop⟩ := runs_bind.mp tick
  obtain ⟨_, rfl⟩ := runs_timerSetTimer.mp set
  obtain ⟨_, rfl⟩ := runs_pure.mp stop
  refine (calls_setTimer now activated 5 .timer).trans (List.Perm.cons _ ?_)
  have every := activeVifs_calls activate now
  rwa [show calls now (Daemon.blank pimSendBuf) = [] from rfl, List.append_nil] at every

end PimDm.Refinement
