import PimDm.Refinement.Messages
import PimDm.Routing.Invariants
import PimDm.Effect.Alarms

/-!
# The daemon refines the routing table

Every event that is handled without a fault carries out the change it asks for.
A run of the daemon is so a run of changes of the table that starts empty, and
what every change keeps holds in every state reached.
-/

namespace PimDm.Refinement

open PimDm.Foundation PimDm.Source PimDm.Effect PimDm.Routing

variable {s s' : Daemon} {t : Table} {host : Host}

/-- The state after an event shows the change applied, and no interface lost its
last neighbour. -/
structure Carries (host : Host) (change : Change) (t : Table) (s' : Daemon) : Prop where
  models : Models s' (change.apply host t)
  neighbors : ∀ vif, t.HasNeighbor vif → (change.apply host t).HasNeighbor vif

theorem carries_of_other {change : Change} (models : Models s' (change.apply host t))
    (other : ¬ change.IsNeighbor) : Carries host change t s' := by
  refine ⟨models, fun vif has => ?_⟩
  unfold Table.HasNeighbor
  rw [Change.apply_neighbors other]
  exact has

/-- Quiet programs carry out the idle change. -/
theorem carries_of_quiet {α : Type} {program : Act α} {value : α} (models : Models s t)
    (run : Runs program s value s') (quiet : Within (Changes .quiet Anything) program) :
    Carries host .idle t s' :=
  ⟨models_of_quiet quiet models run, fun _ => id⟩

/-! ## Callbacks -/

theorem leaveChange_other (host : Host) (s : Daemon) (vif : Vif) (group : Addr) :
    ¬ (leaveChange host s vif group).IsNeighbor := by
  rcases leaveChange_cases host s vif group with idle | ⟨read, leave⟩
  · rw [idle]
    exact id
  · rw [leave]
    exact id

theorem callFunc_models (models : Models s t) {pktcnt : Int} {func : Callback}
    (run : Runs (callFunc host pktcnt func) s () s') :
    Carries host (callChange host s func) t s' := by
  cases func with
  | timer => exact carries_of_quiet models run (timer_changes trivial)
  | pimHelloOutput data => exact carries_of_quiet models run (pimHelloOutput_changes host data trivial)
  | deletePimNeighbor entry =>
      obtain ⟨deleted, kept⟩ := deletePimNeighbor_models models run
      exact ⟨deleted, kept⟩
  | sendJoin data => exact carries_of_quiet models run (sendJoin_changes host data)
  | pruneTimeOut data => exact carries_of_other (pruneTimeOut_follows models run).models id
  | setPrune data => exact carries_of_other (setPrune_follows models run).models id
  | activeForward vif =>
      exact carries_of_quiet models run (activeForward_changes (fun _ => trivial) host)
  | planGraft entry => exact carries_of_quiet models run (planGraft_changes host trivial)
  | handleSgTimeout source group =>
      obtain ⟨result, middle, delete, stop⟩ := runs_bind.mp run
      obtain ⟨_, rfl⟩ := runs_pure.mp stop
      exact carries_of_other (deleteSg_models models delete) id
  | checkSg source group => exact carries_of_quiet models run (checkSg_changes trivial trivial pktcnt)
  | sendQuery vif =>
      exact carries_of_quiet models run (startQuerying_changes (fun _ => trivial) host vif)
  | retryQuery vif =>
      exact carries_of_quiet models run (startQuerying_changes (fun _ => trivial) host vif)
  | leaveQuery vif group =>
      exact carries_of_other (leaveQuery_models models run) (leaveChange_other host s vif group)

/-! ## Events -/

theorem packetChange_other (host : Host) (s : Daemon) (mydata : MulticastErrorData)
    (checked routed : Addr) : ¬ (packetChange host s mydata checked routed).IsNeighbor := by
  unfold packetChange
  split <;> exact id

theorem reportChange_other (host : Host) (s : Daemon) (src group : Addr) :
    ¬ (reportChange host s src group).IsNeighbor := by
  unfold reportChange
  dsimp only
  split <;> exact id

theorem assertChange_other (host : Host) (s : Daemon) (src : Addr) (data : Memory) :
    ¬ (assertChange host s src data).IsNeighbor := by
  unfold assertChange
  dsimp only
  split
  · exact id
  · split
    · exact id
    · split <;> exact id

theorem graftChange_other (host : Host) (s : Daemon) (src : Addr) (data : Memory) :
    ¬ (graftChange host s src data).IsNeighbor := by
  unfold graftChange
  dsimp only
  split <;> exact id

theorem receivePim_models (models : Models s t) {type : PimMessage} {src : Addr} {data : Memory}
    {length : Int} (run : Runs (receivePim host type src data length) s () s') :
    Carries host (requested host s (.pimInput type src data length)) t s' := by
  cases type with
  | hello =>
      obtain ⟨received, kept⟩ := receiveHello_models models run
      exact ⟨received, kept⟩
  | joinPrune =>
      exact carries_of_quiet models run
        (receiveJoinPrune_changes (fun _ => trivial) host (fun _ _ _ _ => trivial) length)
  | assert =>
      exact carries_of_other (receiveAssert_models models run) (assertChange_other host s src data)
  | graft =>
      exact carries_of_other (receivePimGraft_models models run) (graftChange_other host s src data)
  | graftAck => exact carries_of_quiet models run (receivePimGraftAck_changes host src data length)

/-- An event that is handled without a fault carries out the change it asks for. -/
theorem handle_models (zero : host.ZeroFilled) (models : Models s t) {event : Event}
    (run : Runs (handle host event) s () s') : Carries host (requested host s event) t s' := by
  cases event with
  | multicastPacketError mydata checked routed =>
      exact carries_of_other (multicastPacketError_models zero models run)
        (packetChange_other host s mydata checked routed)
  | acceptMembershipQuery src group =>
      exact carries_of_quiet models run
        (acceptMembershipQuery_changes (fun _ => trivial) host (fun _ _ _ => trivial) src group)
  | acceptGroupReport src group =>
      exact carries_of_other (acceptGroupReport_models models (fun _ _ => by simp [zero.group, IgmpGroup.zero]) run)
        (reportChange_other host s src group)
  | acceptLeaveMessage src group =>
      exact carries_of_quiet models run (acceptLeaveMessage_changes host (fun _ _ _ => trivial) src group)
  | pimInput type src data length => exact receivePim_models models run
  | age elapsedTime =>
      obtain rfl := runs_modify.mp run
      exact ⟨models_quiet models (.age elapsedTime) (Level.quiet_le _), fun _ => id⟩
  | expire pktcnt =>
      rcases runs_expire run with ⟨none, rfl⟩ | ⟨func, calls, call⟩
      · rw [requested_expire_none none]
        exact ⟨models, fun _ => id⟩
      · rw [requested_expire calls]
        exact callFunc_models (models_quiet models .popExpired (Level.quiet_le _)) call

/-! ## Runs -/

theorem models_blank (pimSendBuf : Memory) : Models (Daemon.blank pimSendBuf) Table.empty where
  entries := Heap.Shows.empty
  members _ := Heap.Shows.empty
  neighbors _ := Heap.Shows.empty
  membersApart _ _ _ _ inside := nomatch inside
  neighborsApart _ _ _ _ inside := nomatch inside
  mfc := rfl

theorem start_models (start : Start host s) : Models s Table.empty := by
  obtain ⟨pimSendBuf, booted⟩ := start
  refine models_of_quiet ?_ (models_blank pimSendBuf) booted
  exact boot_changes (fun _ => trivial) (fun _ => trivial) trivial host

/-- In a reachable state no change is asked for on an inactive interface. -/
theorem requested_onServed {allowed : Daemon → Event → Prop} (reached : Reachable host allowed s)
    (event : Event) : (requested host s event).OnServed host := by
  have pending : ∀ {label : Event} {func : Callback}, called s label = some func →
      NamesServed host func := by
    intro label func calls
    obtain ⟨id, member⟩ := called_mem calls
    exact reachable_namesServed reached _ member
  have asks := requested_asks host s event
  generalize requested host s event = change at asks
  cases asks with
  | join direct _ => exact findVifDirect_serves direct
  | leave read calls _ => exact pending calls
  | addNeighbor direct => exact findVifDirect_serves direct
  | delNeighbor direct => exact findVifDirect_serves direct
  | prune calls => exact pending calls
  | restore calls => exact pending calls
  | graft direct _ => exact findVifDirect_serves direct
  | _ => trivial

/-- What the changes of all allowed events keep holds in every state reached. -/
theorem reachable_table (zero : host.ZeroFilled) {allowed : Daemon → Event → Prop}
    {P : Table → Prop} (empty : P Table.empty)
    (kept : ∀ s event t s', Reachable host allowed s → Models s t → allowed s event →
      Carries host (requested host s event) t s' → P t → P ((requested host s event).apply host t))
    (reached : Reachable host allowed s) : Models s (table s) ∧ P (table s) := by
  obtain ⟨start, started, run⟩ := reached
  have reads : ∀ state t, Models state t → P t → Models state (table state) ∧ P (table state) := by
    intro state t models holds
    rw [models.table_eq]
    exact ⟨models, holds⟩
  have invariant : Reachable host allowed s ∧ Models s (table s) ∧ P (table s) := by
    refine run.keeps (P := fun state =>
      Reachable host allowed state ∧ Models state (table state) ∧ P (table state)) ?_ ?_
    · exact ⟨⟨start, started, .refl start⟩, reads start _ (start_models started) empty⟩
    · rintro before event after ⟨⟨first, begun, before_run⟩, models, holds⟩ may taken
      have carries := handle_models zero models taken.2
      have holds := kept before event _ after ⟨first, begun, before_run⟩ models may carries holds
      exact ⟨⟨first, begun, before_run.snoc may taken⟩, reads after _ carries.models holds⟩
  exact invariant.2

theorem reachable_models (zero : host.ZeroFilled) {allowed : Daemon → Event → Prop}
    (reached : Reachable host allowed s) : Models s (table s) :=
  (reachable_table (P := fun _ => True) zero trivial (fun _ _ _ _ _ _ _ _ _ => trivial) reached).1

end PimDm.Refinement
