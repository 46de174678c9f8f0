import PimDm.Effect.Agenda
import PimDm.Refinement.Keys
import PimDm.Refinement.OneSource

/-!
# The timers of an entry

`check_sg` replaces the check timer of its entry, and its expiry timer if there was
traffic.  The check slot of a record always names a timer of `check_sg`, so replacing
it leaves all other timers alone.
-/

namespace PimDm.Refinement

open PimDm.Foundation PimDm.Source PimDm.Effect

variable {s s' : Daemon} {host : Host} {source group : Addr} {mymrt : Ptr} {e : Mrt}

/-! ## Check timers -/

/-- A timer in the check slot of a record calls `check_sg`. -/
def ChecksNamed (s : Daemon) : Prop :=
  ∀ mymrt e, s.mrts.get? mymrt = some e → ∃ source group, Names s e.checkTimerid (.checkSg source group)

/-- The function is not `check_sg`. -/
def NotCheck (func : Callback) : Prop := ∀ source group, func ≠ .checkSg source group

/-- Records keep their check timers, and no timer gets one of their ids. -/
theorem ChecksNamed.of_records (named : ChecksNamed s)
    (records : ∀ mymrt e', s'.mrts.get? mymrt = some e' →
      ∃ e, s.mrts.get? mymrt = some e ∧ e'.checkTimerid = e.checkTimerid)
    (names : ∀ {timer func}, Names s timer func → Names s' timer func) : ChecksNamed s' := by
  intro mymrt e' here
  obtain ⟨e, before, same⟩ := records mymrt e' here
  obtain ⟨source, group, called⟩ := named mymrt e before
  rw [same]
  exact ⟨source, group, names called⟩

theorem checksNamed_update {update : Update} (inside : Permits .removal NotCheck update)
    (named : ChecksNamed s) : ChecksNamed (update.apply s) := by
  have stored : ∀ address (function : Mrt → Mrt), (∀ e, (function e).checkTimerid = e.checkTimerid) →
      ChecksNamed (s.setMrt address function) := by
    intro address function kept
    refine named.of_records (fun mymrt e' here => ?_) fun names => names.congr rfl rfl
    rw [Daemon.setMrt, Heap.get?_modify] at here
    split at here
    · obtain ⟨e, before, rfl⟩ := Option.map_eq_some_iff.mp here
      exact ⟨e, before, kept e⟩
    · exact ⟨e', here, rfl⟩
  cases update with
  | setTimer delay action =>
      exact named.of_records (fun _ e here => ⟨e, here, rfl⟩) fun names => names.setTimer delay action
  | clearTimer timer =>
      refine named.of_records (fun mymrt e here => ⟨e, ?_, rfl⟩) fun names => names.clearTimer timer
      rw [Update.apply, clearTimer_mrts] at here
      exact here
  | age elapsedTime =>
      exact named.of_records (fun _ e here => ⟨e, here, rfl⟩) fun names =>
        names.of_sublist rfl (alarms_age s elapsedTime)
  | popExpired =>
      exact named.of_records (fun _ e here => ⟨e, here, rfl⟩) fun names =>
        names.of_sublist rfl (alarms_popExpired s)
  | field address store =>
      cases store with
      | checkTimer timer =>
          obtain ⟨source, group, may⟩ := inside.2
          exact absurd rfl (may source group)
      | _ => exact stored address _ fun _ => rfl
  | mrtNext address next => exact stored address _ fun _ => rfl
  | linkMrt newmrt => exact absurd inside.1 (by simp only [Update.level]; decide)
  | _ => exact named.of_records (fun _ e here => ⟨e, here, rfl⟩) fun names => names.congr rfl rfl

theorem checksNamed_of_changes (changes : Changes .removal NotCheck s s') (named : ChecksNamed s) :
    ChecksNamed s' :=
  does_relates (steady_keeps ChecksNamed)
    (fun update _ (inside : Permits .removal NotCheck update) => checksNamed_update inside) changes named

/-- A record whose check timer is given a new timer of `check_sg`. -/
theorem ChecksNamed.recheck (orderly : Orderly s) (named : ChecksNamed s) (mymrt : Ptr) (delay : Int)
    (source group : Addr) : ChecksNamed ((s.setTimer delay (.checkSg source group)).setMrt mymrt fun e =>
      { e with checkTimerid := s.id + 1 }) := by
  intro other e' here
  rw [Daemon.setMrt, Heap.get?_modify] at here
  split at here
  · obtain ⟨e, _, rfl⟩ := Option.map_eq_some_iff.mp here
    exact ⟨source, group, (names_new orderly delay (.checkSg source group)).congr rfl rfl⟩
  · obtain ⟨_, _, called⟩ := named other e' here
    exact ⟨_, _, (called.setTimer delay (.checkSg source group)).congr rfl rfl⟩

theorem addSg_checksNamed (orderly : Orderly s) (named : ChecksNamed s) {gateway : Addr} {incoming : Vif}
    (run : Runs (addSg host gateway source group incoming) s () s') : ChecksNamed s' := by
  obtain ⟨newmrt, _, key, slot, announce, _⟩ := runs_addSg run
  have announced : Within (Changes .removal NotCheck) (announceSg host source s.mrts.fresh) :=
    announceSg_changes (fun _ _ _ => Callback.noConfusion) host source _
  refine checksNamed_of_changes (announced _ _ _ announce) fun other e here => ?_
  have expiring := orderly_update (.setTimer pimSgTimeout (.handleSgTimeout source group)) orderly
  have new := names_new expiring pimSgCheck (.checkSg source group)
  rw [linked, Daemon.observe, Daemon.linkMrt, Heap.get?_alloc] at here
  split at here
  · refine ⟨source, group, ?_⟩
    split at here
    · cases here
      rw [slot]
      exact new.congr rfl rfl
    · cases here
      rw [slot]
      exact new.congr rfl rfl
  · obtain ⟨_, _, called⟩ := named other e here
    have kept := (called.setTimer pimSgTimeout (.handleSgTimeout source group)).setTimer pimSgCheck
      (.checkSg source group)
    exact ⟨_, _, kept.congr rfl rfl⟩

/-! ## `check_sg` -/

/-- The branch of `check_sg` for fresh traffic. -/
def restart (s : Daemon) (mymrt : Ptr) (old : Int) (source group : Addr) (nowdata : Int) : Daemon :=
  ((({ s with packetNumber := nowdata } : Daemon).clearTimer old).setTimer pimSgTimeout
    (.handleSgTimeout source group)).setMrt mymrt fun e => { e with timeoutId := s.id + 1 }

/-- The end of `check_sg`. -/
def recheck (s : Daemon) (mymrt : Ptr) (old : Int) (source group : Addr) : Daemon :=
  ((s.clearTimer old).setTimer pimSgCheck (.checkSg source group)).setMrt mymrt fun e =>
    { e with checkTimerid := s.id + 1 }

theorem restart_mrts (s : Daemon) (mymrt : Ptr) (old : Int) (source group : Addr) (nowdata : Int) :
    (restart s mymrt old source group nowdata).mrts =
      s.mrts.modify mymrt fun e => { e with timeoutId := s.id + 1 } := by
  unfold restart Daemon.clearTimer
  split <;> rfl

theorem restart_expired (s : Daemon) (mymrt : Ptr) (old : Int) (source group : Addr) (nowdata : Int) :
    (restart s mymrt old source group nowdata).expired = s.expired := by
  simp [restart, Daemon.setMrt, Daemon.setTimer]

theorem recheck_expired (s : Daemon) (mymrt : Ptr) (old : Int) (source group : Addr) :
    (recheck s mymrt old source group).expired = s.expired := by
  simp [recheck, Daemon.setMrt, Daemon.setTimer]

theorem runs_restartTimeout {nowdata : Int} (run : Runs (restartTimeout source group mymrt nowdata) s () s') :
    ∃ e, s.mrts.get? mymrt = some e ∧ s' = restart s mymrt e.timeoutId source group nowdata := by
  obtain ⟨_, _, count, loadAndClear⟩ := runs_bind.mp run
  obtain ⟨e, _, load, clearAndSet⟩ := runs_bind.mp loadAndClear
  obtain ⟨_, _, clear, setAndStore⟩ := runs_bind.mp clearAndSet
  obtain ⟨_, _, set, store⟩ := runs_bind.mp setAndStore
  obtain rfl := runs_modify.mp count
  obtain ⟨here, rfl⟩ := runs_loadMrt.mp load
  obtain rfl := runs_timerClearTimer.mp clear
  obtain ⟨rfl, rfl⟩ := runs_timerSetTimer.mp set
  obtain ⟨_, rfl⟩ := runs_storeMrt.mp store
  refine ⟨e, here, ?_⟩
  rw [restart, clearTimer_id]

/-- `check_sg` completes only for an entry in the table. -/
theorem runs_checkSg {nowdata : Int} (run : Runs (checkSg source group nowdata) s () s') :
    ∃ mymrt e, Finds s source group mymrt ∧ s.mrts.get? mymrt = some e ∧
      ((nowdata > s.packetNumber ∧
          s' = recheck (restart s mymrt e.timeoutId source group nowdata) mymrt e.checkTimerid source group) ∨
        (¬ nowdata > s.packetNumber ∧ s' = recheck s mymrt e.checkTimerid source group)) := by
  obtain ⟨mymrt, _, search, rest⟩ := runs_bind.mp run
  rw [findSg, findMrt, runs_get_bind, runs_liftHeap] at search
  obtain ⟨found, rfl⟩ := search
  rw [runs_get_bind] at rest
  obtain ⟨_, _, first, again⟩ := runs_bind.mp rest
  obtain ⟨e', _, load, clearAndSet⟩ := runs_bind.mp again
  obtain ⟨_, _, clear, setAndStore⟩ := runs_bind.mp clearAndSet
  obtain ⟨_, _, set, store⟩ := runs_bind.mp setAndStore
  obtain ⟨here, rfl⟩ := runs_loadMrt.mp load
  obtain rfl := runs_timerClearTimer.mp clear
  obtain ⟨rfl, rfl⟩ := runs_timerSetTimer.mp set
  obtain ⟨_, rfl⟩ := runs_storeMrt.mp store
  rcases runs_onlyIf.mp first with ⟨more, restarts⟩ | ⟨none, rfl⟩
  · obtain ⟨e, before, rfl⟩ := runs_restartTimeout restarts
    rw [restart_mrts, Heap.get?_modify_same, before, Option.map_some, Option.some.injEq] at here
    refine ⟨mymrt, e, found, before, Or.inl ⟨more, ?_⟩⟩
    rw [recheck, clearTimer_id, ← here]
  · refine ⟨mymrt, e', found, here, Or.inr ⟨none, ?_⟩⟩
    rw [recheck, clearTimer_id]

/-! ## What is due after `check_sg` -/

/-- A new check timer leaves the timers of other functions alone. -/
theorem mem_agenda_recheck (orderly : Orderly s) {old : Int} {first second : Addr}
    (named : Names s old (.checkSg first second)) {now time timer : Int} {func : Callback}
    (other : NotCheck func) :
    (time, timer, func) ∈ agenda now (recheck s mymrt old source group) ↔ (time, timer, func) ∈ agenda now s := by
  have set : (time, timer, func) ∈ agenda now ((s.clearTimer old).setTimer pimSgCheck (.checkSg source group)) ↔
      _ := mem_agenda_setTimer
  rw [mem_agenda_clearTimer_iff orderly] at set
  constructor
  · intro member
    rcases set.mp member with new | ⟨before, _⟩
    · exact absurd (congrArg (fun entry => entry.2.2) new) (other source group)
    · exact before
  · intro before
    refine set.mpr (Or.inr ⟨before, Or.inl fun same => ?_⟩)
    exact other first second (named.called _ (mem_alarms_of_agenda before) same)

theorem mem_agenda_restart (orderly : Orderly s) {old nowdata now : Int} {entry : Int × Int × Callback} :
    entry ∈ agenda now (restart s mymrt old source group nowdata) ↔
      entry = (now + pimSgTimeout, s.id + 1, .handleSgTimeout source group) ∨
        entry ∈ agenda now s ∧ (entry.2.1 ≠ old ∨ entry.2 ∈ s.expired.map alarm) := by
  have counted : Orderly { s with packetNumber := nowdata } := orderly_update (.packetNumber nowdata) orderly
  have set : entry ∈ agenda now ((({ s with packetNumber := nowdata } : Daemon).clearTimer old).setTimer
      pimSgTimeout (.handleSgTimeout source group)) ↔ _ := mem_agenda_setTimer
  rw [mem_agenda_clearTimer_iff counted, clearTimer_id] at set
  exact set

theorem restart_orderly (orderly : Orderly s) (mymrt : Ptr) (old : Int) (source group : Addr) (nowdata : Int) :
    Orderly (restart s mymrt old source group nowdata) :=
  orderly_update (.field mymrt (.timeout (s.id + 1))) (orderly_update (.setTimer pimSgTimeout _)
    (orderly_update (.clearTimer old) (orderly_update (.packetNumber nowdata) orderly)))

theorem restart_checksNamed (named : ChecksNamed s) (mymrt : Ptr) (old : Int) (source group : Addr)
    (nowdata : Int) : ChecksNamed (restart s mymrt old source group nowdata) := by
  have quiet : ∀ update : Update, update.level = .quiet → update.Registers NotCheck →
      Permits .removal NotCheck update := by
    intro update level registers
    rw [Permits, level]
    exact ⟨Level.quiet_le _, registers⟩
  have counted := checksNamed_update (quiet (.packetNumber nowdata) rfl trivial) named
  have cleared := checksNamed_update (quiet (.clearTimer old) rfl trivial) counted
  have set := checksNamed_update (quiet (.setTimer pimSgTimeout (.handleSgTimeout source group)) rfl
    fun _ _ => Callback.noConfusion) cleared
  exact checksNamed_update (quiet (.field mymrt (.timeout (s.id + 1))) rfl trivial) set

theorem recheck_checksNamed (orderly : Orderly s) (named : ChecksNamed s) (mymrt : Ptr) (old : Int)
    (source group : Addr) : ChecksNamed (recheck s mymrt old source group) := by
  have cleared : ChecksNamed (s.clearTimer old) :=
    named.of_records (fun _ e here => ⟨e, by rw [clearTimer_mrts] at here; exact here, rfl⟩)
      fun names => names.clearTimer old
  have start : Orderly (s.clearTimer old) := orderly_update (.clearTimer old) orderly
  have set := cleared.recheck start mymrt pimSgCheck source group
  rw [clearTimer_id] at set
  exact set

/-! ## Runs -/

theorem level_removal {level : Level} (other : level ≠ .table) : level ≤ .removal := by
  cases level with
  | table => exact absurd rfl other
  | _ => decide

/-- Only the upcall for a missing entry creates one. -/
theorem upcall_of_table {event : Event} (creates : eventLevel s event = .table) :
    ∃ mydata checked routed, event = .multicastPacketError mydata checked routed ∧ mydata.message = 1 := by
  cases event with
  | multicastPacketError mydata checked routed =>
      refine ⟨mydata, checked, routed, rfl, ?_⟩
      by_contra other
      have quiet : eventLevel s (.multicastPacketError mydata checked routed) = .quiet := if_neg other
      rw [quiet] at creates
      cases creates
  | pimInput type src data length => cases type <;> cases creates
  | expire pktcnt =>
      cases calls : called s (.expire pktcnt) with
      | none =>
          simp only [eventLevel, calls] at creates
          cases creates
      | some func =>
          simp only [eventLevel, calls] at creates
          cases func <;> cases creates
  | _ => cases creates

/-- An event that neither creates an entry nor checks one sets no check timer. -/
theorem mayRegister_notCheck {event : Event} (creates : eventLevel s event ≠ .table)
    (checks : ∀ source group, called s event ≠ some (.checkSg source group)) :
    MayRegister host s event NotCheck := by
  refine ⟨fun _ _ _ _ => Callback.noConfusion, fun _ _ _ _ _ => Callback.noConfusion,
    fun _ _ _ _ => Callback.noConfusion, fun _ _ _ _ _ => Callback.noConfusion, ?_, ?_,
    fun table => absurd table creates⟩
  · rintro func calls source group rfl
    exact checks source group calls
  · rintro func plain source group rfl
    exact plain

/-- What an event does that may create an entry. -/
theorem runs_creates {event : Event} (creates : eventLevel s event = .table)
    (run : Runs (handle host event) s () s') :
    s' = s ∨ ∃ gateway source group incoming added,
      Runs (addSg host gateway source group incoming) s () added ∧
        Runs (changeMfc host source group incoming) added () s' := by
  obtain ⟨mydata, checked, routed, rfl, first⟩ := upcall_of_table creates
  obtain ⟨_, middle, new, wrong⟩ := runs_bind.mp run
  rcases runs_onlyIf.mp wrong with ⟨second, _⟩ | ⟨_, rfl⟩
  · omega
  rcases runs_onlyIf.mp new with ⟨_, new⟩ | ⟨other, _⟩
  · obtain ⟨right, _, check, adding⟩ := runs_bind.mp new
    obtain ⟨rightvif, _, ask, stop⟩ := runs_bind.mp check
    obtain ⟨_, rfl⟩ := runs_pure.mp stop
    rcases runs_ite.mp ask with ⟨_, fault⟩ | ⟨_, stop⟩
    · exact (runs_throw.mp fault).elim
    obtain ⟨_, rfl⟩ := runs_pure.mp stop
    rcases runs_onlyIf.mp adding with ⟨_, adding⟩ | ⟨_, rfl⟩
    · obtain ⟨_, added, add, tell⟩ := runs_bind.mp adding
      exact Or.inr ⟨routed, mydata.source, mydata.destination, mydata.vif, added, add, tell⟩
    · exact Or.inl rfl
  · exact absurd first other

theorem handle_checksNamed (orderly : Orderly s) (named : ChecksNamed s) {event : Event}
    (run : Runs (handle host event) s () s') : ChecksNamed s' := by
  by_cases creates : eventLevel s event = .table
  · rcases runs_creates creates run with rfl | ⟨gateway, source, group, incoming, added, add, tell⟩
    · exact named
    · have told : Within (Changes .removal NotCheck) (changeMfc host source group incoming) :=
        changeMfc_changes (by decide) host source group incoming
      exact checksNamed_of_changes (told _ _ _ tell) (addSg_checksNamed orderly named add)
  · by_cases checks : ∃ source group, called s event = some (.checkSg source group)
    · obtain ⟨source, group, calls⟩ := checks
      cases event with
      | expire pktcnt =>
          have call := runs_called calls run
          have popped : ChecksNamed s.popExpired := named.of_records (fun _ e here => ⟨e, here, rfl⟩)
            fun names => names.of_sublist rfl (alarms_popExpired s)
          have start : Orderly s.popExpired := orderly_update .popExpired orderly
          obtain ⟨mymrt, e, _, _, ⟨_, rfl⟩ | ⟨_, rfl⟩⟩ := runs_checkSg call
          · have restarted := restart_checksNamed popped mymrt e.timeoutId source group pktcnt
            exact recheck_checksNamed (restart_orderly start ..) restarted mymrt _ source group
          · exact recheck_checksNamed start popped mymrt _ source group
      | _ => cases calls
    · have registers : MayRegister host s event NotCheck :=
        mayRegister_notCheck creates fun source group calls => checks ⟨source, group, calls⟩
      exact checksNamed_of_changes (handle_changes (level_removal creates) registers run) named

theorem start_checksNamed (start : Start host s) : ChecksNamed s := by
  obtain ⟨pimSendBuf, booted⟩ := start
  have none : NotCheck .timer := fun _ _ => Callback.noConfusion
  have changes : Within (Changes .removal NotCheck) (boot host) :=
    boot_changes (fun _ _ _ => Callback.noConfusion) (fun _ _ _ => Callback.noConfusion) none host
  refine checksNamed_of_changes (changes _ () s booted) fun mymrt e here => ?_
  cases mymrt <;> cases here

end PimDm.Refinement
