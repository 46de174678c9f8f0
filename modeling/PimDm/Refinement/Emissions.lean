import PimDm.Refinement.Wire
import PimDm.Effect.Alarms

/-!
# What the daemon sends

Everything an event adds to the trace is one of a few kinds of observations: a Hello, a Join or
Prune, a Graft or an Assert built from the state, a copy of the message being received, a query,
or a note of a change of the table.  A Graft and the timer that sends it again go together.  The
proofs follow the text of the functions.
-/

namespace PimDm.Refinement

open PimDm.Foundation PimDm.Source PimDm.Effect

variable {host : Host} {s s' : Daemon} {W : Observation → Prop} {α : Type}

/-- Records stay.  A Graft is sent for a record, and with a new timer of `plan_graft` goes a Graft. -/
structure PairsGrafts (new : List Observation) (before after : Daemon) : Prop where
  records : ∀ mymrt e, before.mrts.get? mymrt = some e → ∃ e', after.mrts.get? mymrt = some e'
  sent : ∀ packet mymrt, .pim packet mymrt ∈ new → packet.type = pimGraft → ∃ e, after.mrts.get? mymrt = some e
  timers : ∀ timer mymrt, (timer, .planGraft mymrt) ∈ alarms after →
    (timer, .planGraft mymrt) ∈ alarms before ∨ ∃ packet, .pim packet mymrt ∈ new ∧ packet.type = pimGraft

/-- All that is new in the trace is in `W`, and Grafts come with their timers. -/
def Emits (W : Observation → Prop) (before after : Daemon) : Prop :=
  ∃ new, after.trace = new ++ before.trace ∧ (∀ observation ∈ new, W observation) ∧ PairsGrafts new before after

theorem steady_emits (W : Observation → Prop) : Steady (Emits W) where
  refl _ := ⟨[], rfl, fun _ member => (List.not_mem_nil member).elim,
    ⟨fun _ e here => ⟨e, here⟩, fun _ _ member => (List.not_mem_nil member).elim, fun _ _ => Or.inl⟩⟩
  trans := by
    rintro first middle last ⟨older, left, early, before⟩ ⟨newer, right, late, after⟩
    refine ⟨newer ++ older, by rw [right, left, List.append_assoc], fun observation member => ?_, ?_, ?_, ?_⟩
    · rcases List.mem_append.mp member with inside | inside
      · exact late observation inside
      · exact early observation inside
    · intro mymrt e here
      obtain ⟨e', there⟩ := before.records mymrt e here
      exact after.records mymrt e' there
    · intro packet mymrt member graft
      rcases List.mem_append.mp member with inside | inside
      · exact after.sent packet mymrt inside graft
      · obtain ⟨e, here⟩ := before.sent packet mymrt inside graft
        exact after.records mymrt e here
    · intro timer mymrt pending
      rcases after.timers timer mymrt pending with old | ⟨packet, inside, graft⟩
      · refine (before.timers timer mymrt old).imp_right fun ⟨packet, inside, graft⟩ => ?_
        exact ⟨packet, List.mem_append_right _ inside, graft⟩
      · exact Or.inr ⟨packet, List.mem_append_left _ inside, graft⟩

/-- No Graft is observed. -/
def NoGraft (observation : Observation) : Prop :=
  ∀ packet mymrt, observation = .pim packet mymrt → packet.type ≠ pimGraft

/-- The records and the timers of `plan_graft` are at most those from before. -/
structure NoNewGraft (before after : Daemon) : Prop where
  records : ∀ mymrt e, before.mrts.get? mymrt = some e → ∃ e', after.mrts.get? mymrt = some e'
  timers : ∀ timer mymrt, (timer, .planGraft mymrt) ∈ alarms after → (timer, .planGraft mymrt) ∈ alarms before

theorem noNewGraft_of_fewer (mrts : s'.mrts = s.mrts) (fewer : ∀ entry ∈ alarms s', entry ∈ alarms s) :
    NoNewGraft s s' :=
  ⟨fun _ e here => ⟨e, mrts ▸ here⟩, fun _ _ => fewer _⟩

theorem emits_silent (quiet : NoNewGraft s s') (same : s'.trace = s.trace) : Emits W s s' :=
  ⟨[], same, fun _ member => (List.not_mem_nil member).elim,
    ⟨quiet.records, fun _ _ member => (List.not_mem_nil member).elim,
      fun timer mymrt pending => Or.inl (quiet.timers timer mymrt pending)⟩⟩

theorem emits_same (same : s'.trace = s.trace) (mrts : s'.mrts = s.mrts) (timers : alarms s' = alarms s) :
    Emits W s s' :=
  emits_silent (noNewGraft_of_fewer mrts fun _ member => timers ▸ member) same

theorem emits_one {observation : Observation} (inside : W observation) (other : NoGraft observation)
    (quiet : NoNewGraft s s') (same : s'.trace = observation :: s.trace) : Emits W s s' := by
  refine ⟨[observation], same, ?_, quiet.records, ?_, fun timer mymrt pending => Or.inl ?_⟩
  · intro observed member
    rwa [List.mem_singleton.mp member]
  · intro packet mymrt member graft
    exact absurd graft (other packet mymrt (List.mem_singleton.mp member).symm)
  · exact quiet.timers timer mymrt pending

/-- The kinds of observations that do not copy a message and are not Hellos. -/
structure Admits (host : Host) (W : Observation → Prop) : Prop where
  joinPrune : ∀ buf (r : Route) kind holdtime entry, W (.pim (sentPacket (writeOneSource buf r holdtime
    (countsOf kind).1 (countsOf kind).2) (host.iface r.incoming).address allpimrouters pimJoinPrune oneSourceLength) entry)
  graft : ∀ buf (r : Route) entry, W (.pim (sentPacket (writeOneSource buf r 0 (htons 1) 0)
    (host.iface r.incoming).address r.upstream pimGraft oneSourceLength) entry)
  assert : ∀ buf source group vif preference metric,
    W (.pim (sentPacket (writeAssert buf source group preference metric)
    (host.iface vif).address allpimrouters pimAssert assertLength) 0)
  query : ∀ src dst type code group, W (.igmp src dst type code group)
  delLeaf : ∀ vif group, W (.delLeaf vif group)
  addSg : ∀ source group, W (.addSg source group)
  deleteSg : ∀ source group, W (.deleteSg source group)

/-- The copies of a message: the echo of a Prune and the Graft-Ack. -/
def Copies (host : Host) (W : Observation → Prop) (data : Memory) (length : Int) : Prop :=
  ∀ buf vif dst type, type = pimJoinPrune ∨ type = pimGraftAck → W (.pim (sentPacket (bcopy data buf 0 length.toNat)
    (host.iface vif).address dst type (length - sizeofPim)) 0)

/-- The Hellos of a timer. -/
def Hails (host : Host) (W : Observation → Prop) (data : PimHelloOutputData) : Prop :=
  ∀ buf, W (.pim (sentPacket (writeHello buf data.holdtime) (host.iface data.vif).address allpimrouters pimHello 6) 0)

/-! ## Accesses -/

theorem modify_emits {function : Daemon → Daemon} (trace : ∀ state, (function state).trace = state.trace)
    (mrts : ∀ state, (function state).mrts = state.mrts) (timers : ∀ state, alarms (function state) = alarms state) :
    Within (Emits W) (modify function : Act PUnit) :=
  within_modify fun state => emits_same (trace state) (mrts state) (timers state)

theorem lookup_emits (look : Daemon → Except HeapFault α) :
    Within (Emits W) (get >>= fun state : Daemon => (liftHeap (look state) : Act α)) := by
  intro s value s' run
  rw [runs_get_bind, runs_liftHeap] at run
  rw [run.2]
  exact (steady_emits W).refl s

theorem storeMrt_emits (mymrt : Ptr) (function : Mrt → Mrt) : Within (Emits W) (storeMrt mymrt function) := by
  refine within_bind (steady_emits W) (lookup_emits _) fun _ => within_modify fun state => ?_
  refine emits_silent ⟨fun other e here => ?_, fun _ _ => id⟩ rfl
  by_cases same : other = mymrt
  · subst same
    exact ⟨function e, by rw [Daemon.setMrt, Heap.get?_modify_same, here, Option.map_some]⟩
  · exact ⟨e, by rw [Daemon.setMrt, Heap.get?_modify_other _ _ same, here]⟩

theorem storeGroup_emits (g : Ptr) (function : IgmpGroup → IgmpGroup) : Within (Emits W) (storeGroup g function) :=
  within_bind (steady_emits W) (lookup_emits _) fun _ => modify_emits (fun _ => rfl) (fun _ => rfl) fun _ => rfl

theorem storeNeighbor_emits (entry : Ptr) (function : PimNeighbor → PimNeighbor) :
    Within (Emits W) (storeNeighbor entry function) :=
  within_bind (steady_emits W) (lookup_emits _) fun _ => modify_emits (fun _ => rfl) (fun _ => rfl) fun _ => rfl

theorem storeMyvif_emits (vif : Vif) (function : Myvif → Myvif) : Within (Emits W) (storeMyvif vif function) :=
  modify_emits (fun _ => rfl) (fun _ => rfl) fun _ => rfl

/-- A timer of another function is set. -/
theorem noNewGraft_setTimer (s : Daemon) (delay : Int) {action : Callback}
    (plain : ∀ mymrt, action ≠ .planGraft mymrt) :
    NoNewGraft s (s.setTimer delay action) := by
  refine ⟨fun _ e here => ⟨e, here⟩, fun timer mymrt pending => ?_⟩
  rcases List.mem_cons.mp ((alarms_setTimer s delay action).subset pending) with new | old
  · exact absurd (Prod.mk.inj new).2.symm (plain mymrt)
  · exact old

theorem timerSetTimer_emits (delay : Int) {action : Callback} (plain : ∀ mymrt, action ≠ .planGraft mymrt) :
    Within (Emits W) (timerSetTimer delay action) := by
  intro s _ s' run
  obtain ⟨_, rfl⟩ := runs_timerSetTimer.mp run
  exact emits_silent (noNewGraft_setTimer s delay plain) rfl

theorem timerClearTimer_emits (timer : Int) : Within (Emits W) (timerClearTimer timer) := by
  intro s _ s' run
  obtain rfl := runs_timerClearTimer.mp run
  refine emits_silent (noNewGraft_of_fewer (clearTimer_mrts s timer) (alarms_clearTimer s timer).subset) ?_
  unfold Daemon.clearTimer
  split <;> rfl

/-- An observation that is no message of PIM. -/
theorem observe_emits {observation : Observation} (inside : W observation)
    (other : ∀ packet mymrt, observation ≠ .pim packet mymrt) : Within (Emits W) (observe observation) := by
  refine within_modify fun _ => emits_one inside ?_ (noNewGraft_of_fewer rfl fun _ => id) rfl
  exact fun packet mymrt same => absurd same (other packet mymrt)

theorem printSg_emits : Within (Emits W) printSg :=
  within_bind (steady_emits W) (within_get (steady_emits W)) fun _ =>
    within_forEach (steady_emits W) (fun _ => within_pure (steady_emits W) ()) _ _

/-- Write the send buffer and hand it over. -/
theorem output_emits {write : Memory → Memory} {src dst : Addr} {type : Nat} {length : Int} {entry : Ptr}
    (other : type ≠ pimGraft) (inside : ∀ buf, W (.pim (sentPacket (write buf) src dst type length) entry)) :
    Within (Emits W) (do
      writeSendBuf write
      pimdmOutput src dst type length entry) := by
  intro s _ s' run
  obtain ⟨_, _, store, send⟩ := runs_bind.mp run
  obtain rfl := runs_modify.mp store
  rw [runs_pimdmOutput.mp send]
  refine emits_one (inside s.pimSendBuf) ?_ (noNewGraft_of_fewer rfl fun _ => id) rfl
  rintro packet mymrt ⟨⟩
  exact other

/-! ## Hellos -/

/-- The timer of a regular Hello is set again. -/
def rearmHello (data : PimHelloOutputData) (s : Daemon) : Daemon :=
  if data.regular = 1 then s.setTimer pimHelloPeriod (.pimHelloOutput data) else s

/-- The state after a Hello. -/
def helloed (host : Host) (data : PimHelloOutputData) (s : Daemon) : Daemon :=
  ((rearmHello data (s.writeBuf fun buf => writeHello buf data.holdtime)).writeBuf fun buf =>
    writePimHeader buf pimHello 6).observe (.pim (sentPacket (writeHello s.pimSendBuf data.holdtime)
      (host.iface data.vif).address allpimrouters pimHello 6) 0)

theorem runs_pimHelloOutput {data : PimHelloOutputData} :
    Runs (pimHelloOutput host data) s () s' ↔ s' = helloed host data s := by
  have only : ∀ {s'}, Runs (pimHelloOutput host data) s () s' → s' = helloed host data s := by
    intro s' run
    obtain ⟨_, _, write, rest⟩ := runs_bind.mp run
    obtain rfl := runs_modify.mp write
    obtain ⟨_, _, again, send⟩ := runs_bind.mp rest
    obtain rfl := runs_pimdmOutput.mp send
    unfold helloed rearmHello
    rcases runs_onlyIf.mp again with ⟨regular, set⟩ | ⟨once, rfl⟩
    · obtain ⟨_, _, arm, stop⟩ := runs_bind.mp set
      obtain ⟨_, rfl⟩ := runs_timerSetTimer.mp arm
      obtain ⟨_, rfl⟩ := runs_pure.mp stop
      rw [if_pos regular]
      rfl
    · rw [if_neg once]
      rfl
  refine ⟨only, ?_⟩
  rintro rfl
  obtain ⟨_, _, run, _⟩ := pimHelloOutput_transmits s host data
  rwa [← only run]

theorem pimHelloOutput_emits {data : PimHelloOutputData} (hails : Hails host W data) :
    Within (Emits W) (pimHelloOutput host data) := by
  intro s _ s' run
  rw [runs_pimHelloOutput.mp run]
  refine emits_one (hails s.pimSendBuf) ?_ ?_ ?_
  · rintro packet mymrt ⟨⟩
    exact (by decide : pimHello ≠ pimGraft)
  · unfold helloed rearmHello
    split
    · have plain : ∀ mymrt, Callback.pimHelloOutput data ≠ .planGraft mymrt := fun _ => Callback.noConfusion
      have armed := noNewGraft_setTimer s pimHelloPeriod plain
      exact ⟨armed.records, armed.timers⟩
    · exact noNewGraft_of_fewer rfl fun _ => id
  · unfold helloed rearmHello
    split <;> rfl

/-! ## `mrt.c` -/

section Sending

variable (admits : Admits host W)

include admits

theorem pimJoinPruneOutput_emits (mymrt : Ptr) (packetType : PacketType) (holdtime : Int) :
    Within (Emits W) (pimJoinPruneOutput host mymrt packetType holdtime) := by
  refine within_bind (steady_emits W) (lookup_emits _) fun e => output_emits (by decide) fun buf => ?_
  cases packetType with
  | join => exact admits.joinPrune buf e.toRoute .join holdtime mymrt
  | prune => exact admits.joinPrune buf e.toRoute .prune holdtime mymrt

theorem planGraft_emits (mymrt : Ptr) : Within (Emits W) (planGraft host mymrt) := by
  refine within_bind (steady_emits W) (lookup_emits _) fun e => ?_
  refine within_bind (steady_emits W) (lookup_emits _) fun thismrt => ?_
  refine within_ite (fun _ => within_pure (steady_emits W) ()) fun _ => ?_
  refine within_ite (fun _ => ?_) fun _ => within_pure (steady_emits W) ()
  intro s _ s' run
  obtain ⟨_, sent, send, rest⟩ := runs_bind.mp run
  obtain ⟨loaded, _, load, output⟩ := runs_bind.mp send
  obtain ⟨here, rfl⟩ := runs_loadMrt.mp load
  obtain ⟨_, _, write, send⟩ := runs_bind.mp output
  obtain rfl := runs_modify.mp write
  obtain rfl := runs_pimdmOutput.mp send
  obtain ⟨timer, _, arm, store⟩ := runs_bind.mp rest
  obtain ⟨rfl, rfl⟩ := runs_timerSetTimer.mp arm
  refine (steady_emits W).trans ⟨[_], rfl, ?_, ?_⟩ (storeMrt_emits mymrt _ _ _ _ store)
  · intro observation member
    rw [List.mem_singleton.mp member]
    exact admits.graft _ loaded.toRoute mymrt
  · refine ⟨fun _ e here => ⟨e, here⟩, ?_, ?_⟩
    · intro packet other member graft
      cases List.mem_singleton.mp member
      exact ⟨loaded, here⟩
    · intro timer other pending
      rcases List.mem_cons.mp ((alarms_setTimer _ _ _).subset pending) with new | old
      · obtain ⟨_, same⟩ := Prod.mk.inj new
        cases same
        exact Or.inr ⟨_, List.mem_singleton.mpr rfl, rfl⟩
      · exact Or.inl old

theorem sendPrune_emits (mymrt : Ptr) : Within (Emits W) (sendPrune host mymrt) :=
  within_bind (steady_emits W) (lookup_emits _) fun _ => pimJoinPruneOutput_emits admits mymrt _ _

theorem checkPimState_emits (judge : Judge) : Within (Emits W) (checkPimState host judge) := by
  refine within_bind (steady_emits W) (within_get (steady_emits W)) fun state => ?_
  refine within_forEach (steady_emits W) (fun mymrt => ?_) _ _
  refine within_bind (steady_emits W) (lookup_emits _) fun e => ?_
  refine within_bind (steady_emits W) ?_ fun _ => ?_
  · refine within_onlyIf (steady_emits W) fun _ => within_onlyIf (steady_emits W) fun _ => ?_
    exact sendPrune_emits admits mymrt
  · refine within_onlyIf (steady_emits W) fun _ => within_onlyIf (steady_emits W) fun _ => ?_
    exact planGraft_emits admits mymrt

omit admits in
theorem changeMfc_emits (source group : Addr) (incoming : Vif) :
    Within (Emits W) (changeMfc host source group incoming) := by
  refine within_bind (steady_emits W) (lookup_emits _) fun mymrt => ?_
  refine within_ite (fun _ => within_pure (steady_emits W) ()) fun _ => ?_
  exact within_bind (steady_emits W) (lookup_emits _) fun e => modify_emits (fun _ => rfl) (fun _ => rfl) fun _ => rfl

theorem addLeaf_emits (vif : Vif) (group : Addr) : Within (Emits W) (addLeaf host vif group) := by
  refine within_bind (steady_emits W) (lookup_emits _) fun mymrt => ?_
  refine within_ite (fun _ => within_pure (steady_emits W) ()) fun _ => ?_
  refine within_bind (steady_emits W) (lookup_emits _) fun e => ?_
  refine within_bind (steady_emits W) (within_onlyIf (steady_emits W) fun _ => storeMrt_emits _ _) fun _ => ?_
  refine within_bind (steady_emits W) (changeMfc_emits _ _ _) fun _ => ?_
  exact within_bind (steady_emits W) (checkPimState_emits admits _) fun _ => printSg_emits

theorem delLeaf_emits (vif : Vif) (group : Addr) : Within (Emits W) (delLeaf host vif group) := by
  refine within_bind (steady_emits W) (observe_emits (admits.delLeaf vif group) ?_) fun _ => ?_
  · exact fun _ _ => Observation.noConfusion
  refine within_bind (steady_emits W) (lookup_emits _) fun mymrt => ?_
  refine within_ite (fun _ => within_pure (steady_emits W) ()) fun _ => ?_
  refine within_bind (steady_emits W) (storeMrt_emits _ _) fun _ => ?_
  refine within_bind (steady_emits W) (lookup_emits _) fun e => ?_
  refine within_bind (steady_emits W) (changeMfc_emits _ _ _) fun _ => ?_
  exact within_bind (steady_emits W) (checkPimState_emits admits _) fun _ => printSg_emits

theorem refreshEntry_emits (vif : Vif) (judge : Judge) (mymrt : Ptr) :
    Within (Emits W) (refreshEntry host vif judge mymrt) := by
  have follow : ∀ e : Mrt, ∀ value change kind, Within (Emits W) (do
      storeMrt mymrt (Mrt.setOutvif vif value change)
      changeMfc host e.source e.group e.incoming
      checkPimState host kind) := fun e value change kind =>
    within_bind (steady_emits W) (storeMrt_emits _ _) fun _ =>
      within_bind (steady_emits W) (changeMfc_emits _ _ _) fun _ => checkPimState_emits admits kind
  refine within_bind (steady_emits W) (lookup_emits _) fun e => ?_
  refine within_ite (fun _ => ?added) fun _ => within_ite (fun _ => ?gone) fun _ => within_pure (steady_emits W) ()
  case added => exact within_ite (fun _ => follow e 1 1 .addNeighbor) fun _ => within_pure (steady_emits W) ()
  case gone =>
    refine within_bind (steady_emits W) (lookup_emits _) fun member => ?_
    refine within_bind (steady_emits W) (within_get (steady_emits W)) fun state => ?_
    exact within_ite (fun _ => follow e 0 (-1) .delNeighbor) fun _ => within_pure (steady_emits W) ()

theorem refreshMrt_emits (vif : Vif) (judge : Judge) : Within (Emits W) (refreshMrt host vif judge) := by
  refine within_bind (steady_emits W) ?_ fun _ => printSg_emits
  refine within_bind (steady_emits W) (within_get (steady_emits W)) fun state => ?_
  exact within_forEach (steady_emits W) (refreshEntry_emits admits vif judge) _ _

theorem deleteSg_emits (source group : Addr) : Within (Emits W) (deleteSg source group) := by
  refine within_bind (steady_emits W) (lookup_emits _) fun found => ?_
  refine within_ite (fun _ => ?_) fun _ => ?_
  · exact within_bind (steady_emits W) printSg_emits fun _ => within_pure (steady_emits W) _
  refine within_bind (steady_emits W) (lookup_emits _) fun mymrt => ?_
  refine within_bind (steady_emits W) (within_get (steady_emits W)) fun state => ?_
  refine within_bind (steady_emits W) (lookup_emits _) fun first => ?_
  refine within_bind (steady_emits W) (modify_emits (fun _ => rfl) (fun _ => rfl) fun _ => rfl) fun _ => ?_
  refine within_bind (steady_emits W) (timerClearTimer_emits _) fun _ => ?_
  refine within_bind (steady_emits W) (within_ite (fun _ => ?head) fun _ => ?_) fun _ => ?_
  case head => exact modify_emits (fun _ => rfl) (fun _ => rfl) fun _ => rfl
  · cases found.1 with
    | none => exact within_throw _
    | some temp => exact storeMrt_emits _ _
  · refine within_bind (steady_emits W) (observe_emits (admits.deleteSg source group) ?_) fun _ => ?_
    · exact fun _ _ => Observation.noConfusion
    exact within_bind (steady_emits W) printSg_emits fun _ => within_pure (steady_emits W) _

omit admits in
theorem checkSg_emits (source group : Addr) (nowdata : Int) : Within (Emits W) (checkSg source group nowdata) := by
  have restart : ∀ mymrt, Within (Emits W) (restartTimeout source group mymrt nowdata) := fun mymrt =>
    within_bind (steady_emits W) (modify_emits (fun _ => rfl) (fun _ => rfl) fun _ => rfl) fun _ =>
      within_bind (steady_emits W) (lookup_emits _) fun e =>
        within_bind (steady_emits W) (timerClearTimer_emits _) fun _ =>
          within_bind (steady_emits W) (timerSetTimer_emits _ fun _ => Callback.noConfusion) fun _ => storeMrt_emits _ _
  refine within_bind (steady_emits W) (lookup_emits _) fun mymrt => ?_
  refine within_bind (steady_emits W) (within_get (steady_emits W)) fun state => ?_
  refine within_bind (steady_emits W) (within_onlyIf (steady_emits W) fun _ => restart mymrt) fun _ => ?_
  refine within_bind (steady_emits W) (lookup_emits _) fun e => ?_
  refine within_bind (steady_emits W) (timerClearTimer_emits _) fun _ => ?_
  exact within_bind (steady_emits W) (timerSetTimer_emits _ fun _ => Callback.noConfusion) fun _ => storeMrt_emits _ _

omit admits in
theorem addSgVif_emits (group : Addr) (incoming : Vif) (so : Mrt × Int) (i : Vif) :
    Within (Emits W) (addSgVif group incoming so i) := by
  refine within_ite (fun _ => ?_) fun _ => within_pure (steady_emits W) _
  refine within_bind (steady_emits W) (within_get (steady_emits W)) fun state => ?_
  refine within_ite (fun _ => within_pure (steady_emits W) _) fun _ => ?_
  exact within_bind (steady_emits W) (lookup_emits _) fun member => within_pure (steady_emits W) _

theorem addSg_emits (gateway source group : Addr) (incoming : Vif) :
    Within (Emits W) (addSg host gateway source group incoming) := by
  refine within_bind (steady_emits W) (within_get (steady_emits W)) fun state => ?_
  refine within_bind (steady_emits W) ?_ fun built => ?_
  · exact within_foldProgram (steady_emits W) _ _ fun i _ so => addSgVif_emits group incoming so i
  refine within_bind (steady_emits W) (timerSetTimer_emits _ fun _ => Callback.noConfusion) fun timeout => ?_
  refine within_bind (steady_emits W) (timerSetTimer_emits _ fun _ => Callback.noConfusion) fun check => ?_
  refine within_bind (steady_emits W) (within_modify fun state => ?_) fun _ => ?_
  · refine emits_silent ⟨fun mymrt e here => ⟨e, ?_⟩, fun _ _ => id⟩ rfl
    rw [Daemon.linkMrt, Heap.get?_alloc, if_neg (Heap.ne_fresh_of_get? here), here]
  refine within_bind (steady_emits W) (observe_emits (admits.addSg source group) ?_) fun _ => ?_
  · exact fun _ _ => Observation.noConfusion
  refine within_bind (steady_emits W) ?_ fun _ => printSg_emits
  refine within_bind (steady_emits W) (lookup_emits _) fun e => ?_
  refine within_ite (fun _ => ?_) fun _ => ?_
  · exact within_onlyIf (steady_emits W) fun _ => planGraft_emits admits _
  · exact within_onlyIf (steady_emits W) fun _ => sendPrune_emits admits _

/-! ## `pim.c` -/

theorem deletePimNeighbor_emits (entry : Ptr) : Within (Emits W) (deletePimNeighbor host entry) := by
  refine within_bind (steady_emits W) (lookup_emits _) fun myentry => ?_
  refine within_ite (fun _ => within_pure (steady_emits W) ()) fun _ => ?_
  refine within_bind (steady_emits W) (lookup_emits _) fun found => ?_
  refine within_bind (steady_emits W) (within_onlyIf (steady_emits W) fun _ => ?_) fun _ => ?_
  · refine within_bind (steady_emits W) (lookup_emits _) fun record => ?_
    refine within_bind (steady_emits W) (within_get (steady_emits W)) fun state => ?_
    refine within_bind (steady_emits W) (lookup_emits _) fun head => ?_
    refine within_bind (steady_emits W) (within_onlyIf (steady_emits W) fun _ => storeMyvif_emits _ _) fun _ => ?_
    cases found.1 with
    | none => exact within_throw _
    | some temp => exact storeNeighbor_emits _ _
  · exact refreshMrt_emits admits _ _

omit admits in
/-- A message with a wrong checksum stops the daemon. -/
theorem validPacket_emits {src : Addr} {data : Memory} {length : Int} {rest : Bool → Act α}
    (later : inetCksum data length = 0 → ∀ valid, Within (Emits W) (rest valid)) :
    Within (Emits W) (validPacket host src data length >>= rest) := by
  intro s value s' run
  obtain ⟨valid, middle, check, others⟩ := runs_bind.mp run
  rcases runs_ite.mp check with ⟨_, stop⟩ | ⟨right, decide⟩
  · exact (runs_throw.mp stop).elim
  · have same : middle = s := by
      rcases runs_ite.mp decide with ⟨_, now⟩ | ⟨_, now⟩
      · exact (runs_pure.mp now).2
      · exact (runs_pure.mp now).2
    rw [same] at others
    exact later (not_not.mp right) valid _ _ _ others

theorem receiveHello_emits (src : Addr) (data : Memory) (length : Int) :
    Within (Emits W) (receiveHello host src data length) := by
  refine validPacket_emits fun _ valid => ?_
  refine within_ite (fun _ => within_pure (steady_emits W) ()) fun _ => ?_
  refine within_bind (steady_emits W) ?_ fun holdtime => ?_
  · intro s _ s' run
    rw [(runs_liftHeap.mp run).2]
    exact (steady_emits W).refl s
  refine within_bind (steady_emits W) (lookup_emits _) fun pimneighbor => ?_
  refine within_ite (fun _ => within_ite (fun _ => deletePimNeighbor_emits admits _) fun _ => ?_) fun _ => ?_
  · refine within_bind (steady_emits W) (storeNeighbor_emits _ _) fun _ => ?_
    refine within_bind (steady_emits W) (lookup_emits _) fun entry => ?_
    refine within_bind (steady_emits W) (within_onlyIf (steady_emits W) fun _ => timerClearTimer_emits _) fun _ => ?_
    exact within_bind (steady_emits W) (timerSetTimer_emits _ fun _ => Callback.noConfusion) fun _ =>
      storeNeighbor_emits _ _
  · refine within_bind (steady_emits W) (within_get (steady_emits W)) fun state => ?_
    refine within_bind (steady_emits W) (timerSetTimer_emits _ fun _ => Callback.noConfusion) fun _ => ?_
    refine within_bind (steady_emits W) ?_ fun _ => refreshMrt_emits admits _ _
    exact modify_emits (fun _ => rfl) (fun _ => rfl) fun _ => rfl

theorem sendJoin_emits (data : PimJoinData) : Within (Emits W) (sendJoin host data) := by
  refine within_bind (steady_emits W) (lookup_emits _) fun mymrt => ?_
  refine within_ite (fun _ => within_pure (steady_emits W) ()) fun _ => ?_
  refine within_bind (steady_emits W) (lookup_emits _) fun e => ?_
  refine within_bind (steady_emits W) (timerClearTimer_emits _) fun _ => ?_
  exact within_bind (steady_emits W) (storeMrt_emits _ _) fun _ => pimJoinPruneOutput_emits admits _ _ _

theorem pruneTimeOut_emits (data : PimPruneData) : Within (Emits W) (pruneTimeOut host data) := by
  refine within_bind (steady_emits W) (lookup_emits _) fun mymrt => ?_
  refine within_ite (fun _ => within_pure (steady_emits W) ()) fun _ => ?_
  refine within_bind (steady_emits W) (storeMrt_emits _ _) fun _ => ?_
  refine within_bind (steady_emits W) (storeMrt_emits _ _) fun _ => ?_
  refine within_bind (steady_emits W) (lookup_emits _) fun e => ?_
  refine within_bind (steady_emits W) (changeMfc_emits _ _ _) fun _ => ?_
  exact within_bind (steady_emits W) (checkPimState_emits admits _) fun _ => printSg_emits

theorem setPrune_emits (data : PimPruneData) : Within (Emits W) (setPrune host data) := by
  refine within_bind (steady_emits W) (lookup_emits _) fun mymrt => ?_
  refine within_ite (fun _ => within_pure (steady_emits W) ()) fun _ => ?_
  refine within_bind (steady_emits W) (storeMrt_emits _ _) fun _ => ?_
  refine within_bind (steady_emits W) (storeMrt_emits _ _) fun _ => ?_
  refine within_bind (steady_emits W) (lookup_emits _) fun e => ?_
  refine within_bind (steady_emits W) (changeMfc_emits _ _ _) fun _ => ?_
  refine within_bind (steady_emits W) (checkPimState_emits admits _) fun _ => ?_
  exact within_bind (steady_emits W) (timerSetTimer_emits _ fun _ => Callback.noConfusion) fun _ => storeMrt_emits _ _

omit admits in
theorem cancelPruneDelay_emits (mymrt : Ptr) (vif : Vif) : Within (Emits W) (cancelPruneDelay mymrt vif) := by
  refine within_bind (steady_emits W) (lookup_emits _) fun e => within_onlyIf (steady_emits W) fun _ => ?_
  exact within_bind (steady_emits W) (timerClearTimer_emits _) fun _ => storeMrt_emits _ _

omit admits in
theorem eachSource_emits {data : Memory} {group : Addr} {action : Addr → Ptr → Act Int}
    (each : ∀ source mymrt, Within (Emits W) (action source mymrt)) (mydata : Int) :
    Within (Emits W) (eachSource data group action mydata) := by
  refine within_ite (fun _ => within_pure (steady_emits W) _) fun _ => ?_
  refine within_bind (steady_emits W) (lookup_emits _) fun mymrt => ?_
  refine within_ite (fun _ => within_pure (steady_emits W) _) fun _ => ?_
  exact within_bind (steady_emits W) (each _ mymrt) fun moved => within_pure (steady_emits W) _

omit admits in
theorem eachGroup_emits {data : Memory} {joinAction pruneAction : Int → Addr → Ptr → Act Int}
    (joins : ∀ all source mymrt, Within (Emits W) (joinAction all source mymrt))
    (prunes : ∀ all source mymrt, Within (Emits W) (pruneAction all source mymrt)) (mydata : Int) :
    Within (Emits W) (eachGroup data joinAction pruneAction mydata) := by
  refine within_ite (fun _ => within_pure (steady_emits W) _) fun _ => ?_
  refine within_bind (steady_emits W) ?_ fun middle => ?_
  · exact within_times (steady_emits W) (eachSource_emits fun source mymrt => joins _ source mymrt) _ _
  · exact within_times (steady_emits W) (eachSource_emits fun source mymrt => prunes _ source mymrt) _ _

omit admits in
theorem overheardJoin_emits (all : Int) (source : Addr) (mymrt : Ptr) :
    Within (Emits W) (overheardJoin all source mymrt) := by
  refine within_bind (steady_emits W) (lookup_emits _) fun e => ?_
  refine within_bind (steady_emits W) (within_onlyIf (steady_emits W) fun _ => ?_) fun _ =>
    within_pure (steady_emits W) _
  exact within_bind (steady_emits W) (timerClearTimer_emits _) fun _ => storeMrt_emits _ _

omit admits in
theorem overheardPrune_emits (upstream : Addr) (all : Int) (source : Addr) (mymrt : Ptr) :
    Within (Emits W) (overheardPrune upstream all source mymrt) := by
  refine within_bind (steady_emits W) (lookup_emits _) fun e => ?_
  refine within_ite (fun _ => ?_) fun _ => within_pure (steady_emits W) _
  refine within_bind (steady_emits W) (within_onlyIf (steady_emits W) fun _ => ?_) fun _ =>
    within_pure (steady_emits W) _
  refine within_bind (steady_emits W) (lookup_emits _) fun e => ?_
  exact within_bind (steady_emits W) (timerSetTimer_emits _ fun _ => Callback.noConfusion) fun _ => storeMrt_emits _ _

omit admits in
theorem addressedPrune_emits {data : Memory} {length : Int} (copies : Copies host W data length) (vif : Vif)
    (holdtime all : Int) (source : Addr) (mymrt : Ptr) :
    Within (Emits W) (addressedPrune host vif data length holdtime all source mymrt) := by
  refine within_bind (steady_emits W) (lookup_emits _) fun e => ?_
  refine within_bind (steady_emits W) (within_onlyIf (steady_emits W) fun _ => ?_) fun _ =>
    within_pure (steady_emits W) _
  intro s _ s' run
  obtain ⟨_, written, write, sending⟩ := runs_bind.mp run
  obtain ⟨_, sent, send, scheduling⟩ := runs_bind.mp sending
  have echoed : Emits W s sent :=
    output_emits (by decide) (fun buf => copies buf vif allpimrouters pimJoinPrune (Or.inl rfl)) _ _ _
      (runs_bind.mpr ⟨_, written, write, send⟩)
  refine (steady_emits W).trans echoed ?_
  refine within_bind (steady_emits W) (lookup_emits _) (fun e => ?_) _ _ _ scheduling
  exact within_bind (steady_emits W) (timerSetTimer_emits _ fun _ => Callback.noConfusion) fun _ => storeMrt_emits _ _

omit admits in
theorem receiveJoinPrune_emits {src : Addr} {data : Memory} {length : Int}
    (copies : inetCksum data length = 0 → Copies host W data length) :
    Within (Emits W) (receiveJoinPrune host src data length) := by
  refine within_ite (fun _ => within_pure (steady_emits W) ()) fun _ => ?_
  refine validPacket_emits fun right valid => ?_
  refine within_ite (fun _ => within_pure (steady_emits W) ()) fun _ => within_ite (fun _ => ?_) fun _ => ?_
  · refine within_bind (steady_emits W) (lookup_emits _) fun neighbor => within_onlyIf (steady_emits W) fun _ => ?_
    refine within_bind (steady_emits W) ?_ fun _ => within_pure (steady_emits W) ()
    exact within_times (steady_emits W) (eachGroup_emits overheardJoin_emits (overheardPrune_emits _)) _ _
  · refine within_bind (steady_emits W) ?_ fun _ => within_pure (steady_emits W) ()
    refine within_times (steady_emits W) (eachGroup_emits (fun all source mymrt => ?_) fun all source mymrt => ?_) _ _
    · exact within_bind (steady_emits W) (cancelPruneDelay_emits mymrt _) fun _ => within_pure (steady_emits W) _
    · exact addressedPrune_emits (copies right) _ _ all source mymrt

theorem receiveAssert_emits (src : Addr) (data : Memory) (length : Int) :
    Within (Emits W) (receiveAssert host src data length) := by
  refine within_ite (fun _ => within_pure (steady_emits W) ()) fun _ => ?_
  refine validPacket_emits fun _ valid => ?_
  refine within_ite (fun _ => within_pure (steady_emits W) ()) fun _ => ?_
  refine within_bind (steady_emits W) (lookup_emits _) fun mymrt => ?_
  refine within_ite (fun _ => within_pure (steady_emits W) ()) fun _ => ?_
  refine within_bind (steady_emits W) (lookup_emits _) fun e => ?_
  refine within_ite (fun _ => ?_) fun _ => ?_
  · refine within_bind (steady_emits W) (lookup_emits _) fun e => ?_
    refine within_ite (fun _ => within_pure (steady_emits W) ()) fun _ => ?_
    exact within_onlyIf (steady_emits W) fun _ => storeMrt_emits _ _
  · refine within_bind (steady_emits W) (lookup_emits _) fun e => ?_
    refine within_ite (fun _ => within_pure (steady_emits W) ()) fun _ => within_ite (fun _ => ?_) fun _ => ?_
    · exact output_emits (by decide) fun buf => admits.assert buf _ _ _ _ _
    · exact within_bind (steady_emits W) (timerSetTimer_emits _ fun _ => Callback.noConfusion) fun _ =>
        storeMrt_emits _ _

omit admits in
theorem receivePimGraft_emits {src : Addr} {data : Memory} {length : Int}
    (copies : inetCksum data length = 0 → Copies host W data length) :
    Within (Emits W) (receivePimGraft host src data length) := by
  refine within_ite (fun _ => within_pure (steady_emits W) ()) fun _ => ?_
  refine validPacket_emits fun right valid => ?_
  refine within_ite (fun _ => within_pure (steady_emits W) ()) fun _ => ?_
  refine within_bind (steady_emits W) ?_ fun _ => within_pure (steady_emits W) ()
  refine within_times (steady_emits W) (fun mydata => ?_) _ _
  refine within_ite (fun _ => within_pure (steady_emits W) _) fun _ => ?_
  refine within_bind (steady_emits W) ?_ fun _ => within_pure (steady_emits W) _
  refine within_times (steady_emits W) (fun mydata => ?_) _ _
  refine within_ite (fun _ => within_pure (steady_emits W) _) fun _ => ?_
  intro s _ s' run
  obtain ⟨_, written, write, sending⟩ := runs_bind.mp run
  obtain ⟨_, sent, send, finding⟩ := runs_bind.mp sending
  have acked : Emits W s sent :=
    output_emits (by decide) (fun buf => copies right buf _ src pimGraftAck (Or.inr rfl)) _ _ _
      (runs_bind.mpr ⟨_, written, write, send⟩)
  refine (steady_emits W).trans acked ?_
  refine within_bind (steady_emits W) (lookup_emits _) (fun mymrt => ?_) _ _ _ finding
  refine within_ite (fun _ => within_pure (steady_emits W) _) fun _ => ?_
  refine within_bind (steady_emits W) ?_ fun _ => within_pure (steady_emits W) _
  refine within_bind (steady_emits W) (cancelPruneDelay_emits mymrt _) fun _ => ?_
  refine within_bind (steady_emits W) (lookup_emits _) fun e => within_onlyIf (steady_emits W) fun _ => ?_
  exact within_bind (steady_emits W) (storeMrt_emits _ _) fun _ => changeMfc_emits _ _ _

omit admits in
theorem receivePimGraftAck_emits (src : Addr) (data : Memory) (length : Int) :
    Within (Emits W) (receivePimGraftAck host src data length) := by
  refine within_ite (fun _ => within_pure (steady_emits W) ()) fun _ => ?_
  refine validPacket_emits fun _ valid => ?_
  refine within_ite (fun _ => within_pure (steady_emits W) ()) fun _ => ?_
  refine within_bind (steady_emits W) ?_ fun _ => within_pure (steady_emits W) ()
  refine within_times (steady_emits W) (fun mydata => ?_) _ _
  refine within_ite (fun _ => within_pure (steady_emits W) _) fun _ => ?_
  refine within_times (steady_emits W) (fun mydata => eachSource_emits (fun source mymrt => ?_) mydata) _ _
  refine within_bind (steady_emits W) ?_ fun _ => within_pure (steady_emits W) _
  refine within_bind (steady_emits W) (lookup_emits _) fun e => within_onlyIf (steady_emits W) fun _ => ?_
  exact within_bind (steady_emits W) (timerClearTimer_emits _) fun _ => storeMrt_emits _ _

/-! ## `igmp.c` -/

omit admits in
theorem startQuerying_emits (queries : ∀ src dst type code group, W (.igmp src dst type code group)) (vif : Vif) :
    Within (Emits W) (startQuerying host vif) := by
  refine within_bind (steady_emits W) (timerSetTimer_emits _ fun _ => Callback.noConfusion) fun _ => ?_
  refine within_bind (steady_emits W) (storeMyvif_emits _ _) fun _ => ?_
  exact observe_emits (queries _ _ _ _ _) fun _ _ => Observation.noConfusion

omit admits in
theorem acceptMembershipQuery_emits (src group : Addr) : Within (Emits W) (acceptMembershipQuery host src group) := by
  have retry : ∀ vif, Within (Emits W) (startRetry vif) := fun vif =>
    within_bind (steady_emits W) (timerSetTimer_emits _ fun _ => Callback.noConfusion) fun _ => storeMyvif_emits _ _
  refine within_ite (fun _ => within_pure (steady_emits W) ()) fun _ => ?_
  refine within_ite (fun _ => within_pure (steady_emits W) ()) fun _ => ?_
  refine within_bind (steady_emits W) (within_get (steady_emits W)) fun state => ?_
  refine within_bind (steady_emits W) (within_onlyIf (steady_emits W) fun _ => ?refresh) fun _ => ?_
  case refresh =>
    refine within_bind (steady_emits W) (within_get (steady_emits W)) fun state => ?_
    exact within_bind (steady_emits W) (timerClearTimer_emits _) fun _ => retry _
  refine within_bind (steady_emits W) ?elect fun _ => ?_
  case elect =>
    refine within_bind (steady_emits W) (within_get (steady_emits W)) fun state => ?_
    refine within_ite (fun _ => within_ite (fun _ => ?_) fun _ => ?_) fun _ => within_pure (steady_emits W) ()
    · refine within_onlyIf (steady_emits W) fun _ => ?_
      refine within_bind (steady_emits W) (storeMyvif_emits _ _) fun _ => ?_
      refine within_bind (steady_emits W) (timerClearTimer_emits _) fun _ => ?_
      exact within_bind (steady_emits W) (storeMyvif_emits _ _) fun _ => retry _
    · refine within_onlyIf (steady_emits W) fun _ => ?_
      refine within_bind (steady_emits W) (storeMyvif_emits _ _) fun _ => ?_
      exact within_bind (steady_emits W) (timerClearTimer_emits _) fun _ => retry _
  refine within_bind (steady_emits W) (within_get (steady_emits W)) fun state => ?_
  refine within_onlyIf (steady_emits W) fun _ => ?_
  refine within_bind (steady_emits W) (within_get (steady_emits W)) fun state => ?_
  refine within_forEach (steady_emits W) (fun g => ?_) _ _
  refine within_bind (steady_emits W) (lookup_emits _) fun record => within_onlyIf (steady_emits W) fun _ => ?_
  exact within_bind (steady_emits W) (timerSetTimer_emits _ fun _ => Callback.noConfusion) fun _ => storeGroup_emits _ _

theorem acceptGroupReport_emits (src group : Addr) : Within (Emits W) (acceptGroupReport host src group) := by
  refine within_ite (fun _ => within_pure (steady_emits W) ()) fun _ => ?_
  refine within_bind (steady_emits W) (lookup_emits _) fun g => within_ite (fun _ => ?_) fun _ => ?_
  · refine within_bind (steady_emits W) (lookup_emits _) fun record => within_onlyIf (steady_emits W) fun _ => ?_
    exact within_bind (steady_emits W) (timerClearTimer_emits _) fun _ => storeGroup_emits _ _
  · refine within_bind (steady_emits W) ?_ fun _ => addLeaf_emits admits _ _
    exact modify_emits (fun _ => rfl) (fun _ => rfl) fun _ => rfl

theorem leaveQuery_emits (vif : Vif) (group : Addr) : Within (Emits W) (leaveQuery host vif group) := by
  have rearm : ∀ g delay timeout, Within (Emits W) (do
      let timer ← timerSetTimer delay (.leaveQuery vif group)
      storeGroup g fun record => { record with leaveQuery := timer, timeout := timeout }) := fun g delay timeout =>
    within_bind (steady_emits W) (timerSetTimer_emits _ fun _ => Callback.noConfusion) fun _ => storeGroup_emits _ _
  refine within_bind (steady_emits W) (lookup_emits _) fun found => ?_
  refine within_ite (fun _ => within_pure (steady_emits W) ()) fun _ => ?_
  refine within_bind (steady_emits W) (lookup_emits _) fun g => ?_
  refine within_ite (fun _ => ?_) fun _ => within_ite (fun _ => rearm _ _ _) fun _ => ?_
  · refine within_bind (steady_emits W) (observe_emits (admits.query _ _ _ _ _) ?_) fun _ => rearm _ _ _
    exact fun _ _ => Observation.noConfusion
  · refine within_bind (steady_emits W) (lookup_emits _) fun record => ?_
    refine within_bind (steady_emits W) ?_ fun _ => ?_
    · refine within_bind (steady_emits W) (within_get (steady_emits W)) fun state => ?_
      refine within_ite (fun _ => ?_) fun _ => storeMyvif_emits _ _
      cases found.1 with
      | none => exact within_throw _
      | some temp => exact within_bind (steady_emits W) (storeGroup_emits _ _) fun _ => storeGroup_emits _ _
    · exact within_bind (steady_emits W) (lookup_emits _) fun freed => delLeaf_emits admits _ _

theorem acceptLeaveMessage_emits (src group : Addr) : Within (Emits W) (acceptLeaveMessage host src group) := by
  refine within_ite (fun _ => within_pure (steady_emits W) ()) fun _ => ?_
  refine within_bind (steady_emits W) (within_get (steady_emits W)) fun state => ?_
  refine within_ite (fun _ => within_pure (steady_emits W) ()) fun _ => ?_
  refine within_bind (steady_emits W) (lookup_emits _) fun found => ?_
  refine within_ite (fun _ => within_pure (steady_emits W) ()) fun _ => ?_
  refine within_bind (steady_emits W) (lookup_emits _) fun g => ?_
  refine within_bind (steady_emits W) (within_onlyIf (steady_emits W) fun _ => timerClearTimer_emits _) fun _ => ?_
  refine within_bind (steady_emits W) (observe_emits (admits.query _ _ _ _ _) fun _ _ =>
    Observation.noConfusion) fun _ => ?_
  exact within_bind (steady_emits W) (timerSetTimer_emits _ fun _ => Callback.noConfusion) fun _ => storeGroup_emits _ _

/-! ## Events -/

theorem multicastPacketError_emits (mydata : MulticastErrorData) (checked routed : Addr) :
    Within (Emits W) (multicastPacketError host mydata checked routed) := by
  refine within_bind (steady_emits W) (within_onlyIf (steady_emits W) fun _ => ?_) fun _ =>
    within_onlyIf (steady_emits W) fun _ => ?_
  · refine within_bind (steady_emits W) ?_ fun right => within_onlyIf (steady_emits W) fun _ => ?_
    · refine within_bind (steady_emits W) ?_ fun _ => within_pure (steady_emits W) _
      exact within_ite (fun _ => within_throw _) fun _ => within_pure (steady_emits W) _
    · exact within_bind (steady_emits W) (addSg_emits admits _ _ _ _) fun _ => changeMfc_emits _ _ _
  · refine within_bind (steady_emits W) (lookup_emits _) fun mymrt => ?_
    refine within_ite (fun _ => within_pure (steady_emits W) ()) fun _ => ?_
    refine within_bind (steady_emits W) printSg_emits fun _ => ?_
    refine within_bind (steady_emits W) (lookup_emits _) fun e => within_onlyIf (steady_emits W) fun _ => ?_
    exact output_emits (by decide) fun buf => admits.assert buf _ _ _ _ _

theorem callFunc_emits {pktcnt : Int} {func : Callback}
    (hails : ∀ data, func = .pimHelloOutput data → Hails host W data) :
    Within (Emits W) (callFunc host pktcnt func) := by
  cases func with
  | timer =>
      refine within_bind (steady_emits W) (modify_emits (fun _ => rfl) (fun _ => rfl) fun _ => rfl) fun _ => ?_
      refine within_bind (steady_emits W) ?_ fun _ => within_pure (steady_emits W) _
      exact timerSetTimer_emits _ fun _ => Callback.noConfusion
  | pimHelloOutput data => exact pimHelloOutput_emits (hails data rfl)
  | deletePimNeighbor entry => exact deletePimNeighbor_emits admits entry
  | sendJoin data => exact sendJoin_emits admits data
  | pruneTimeOut data => exact pruneTimeOut_emits admits data
  | setPrune data => exact setPrune_emits admits data
  | activeForward vif =>
      refine within_bind (steady_emits W) ?_ fun _ => checkPimState_emits admits _
      refine within_bind (steady_emits W) (within_get (steady_emits W)) fun state => ?_
      exact within_forEach (steady_emits W) (fun _ => within_throw _) _ _
  | planGraft entry => exact planGraft_emits admits entry
  | handleSgTimeout source group =>
      exact within_bind (steady_emits W) (deleteSg_emits admits _ _) fun _ => within_pure (steady_emits W) _
  | checkSg source group => exact checkSg_emits source group pktcnt
  | sendQuery vif => exact startQuerying_emits admits.query vif
  | retryQuery vif => exact startQuerying_emits admits.query vif
  | leaveQuery vif group => exact leaveQuery_emits admits vif group

/-- What an event sends: the copies of the message it receives, the Hello it is called for, and the
other kinds. -/
theorem handle_emits {event : Event}
    (copies : ∀ type src data length, event = .pimInput type src data length → inetCksum data length = 0 →
      Copies host W data length)
    (hails : ∀ data, called s event = some (.pimHelloOutput data) → Hails host W data)
    (run : Runs (handle host event) s () s') : Emits W s s' := by
  cases event with
  | multicastPacketError mydata checked routed =>
      exact multicastPacketError_emits admits mydata checked routed _ _ _ run
  | acceptMembershipQuery src group => exact acceptMembershipQuery_emits src group _ _ _ run
  | acceptGroupReport src group => exact acceptGroupReport_emits admits src group _ _ _ run
  | acceptLeaveMessage src group => exact acceptLeaveMessage_emits admits src group _ _ _ run
  | pimInput type src data length =>
      have copied := copies type src data length rfl
      cases type with
      | hello => exact receiveHello_emits admits src data length _ _ _ run
      | joinPrune => exact receiveJoinPrune_emits copied _ _ _ run
      | assert => exact receiveAssert_emits admits src data length _ _ _ run
      | graft => exact receivePimGraft_emits copied _ _ _ run
      | graftAck => exact receivePimGraftAck_emits src data length _ _ _ run
  | age elapsedTime =>
      rw [runs_modify.mp run]
      exact emits_silent (noNewGraft_of_fewer rfl (alarms_age s elapsedTime).subset) rfl
  | expire pktcnt =>
      rcases runs_expire run with ⟨_, rfl⟩ | ⟨func, calls, call⟩
      · exact (steady_emits W).refl _
      · have popped : Emits W s s.popExpired :=
          emits_silent (noNewGraft_of_fewer rfl (alarms_popExpired s).subset) rfl
        refine (steady_emits W).trans popped (callFunc_emits admits (fun data same => hails data ?_) _ _ _ call)
        rw [calls, same]

end Sending

/-- With every timer of `plan_graft` that an event sets goes a Graft. -/
theorem handle_pairsGrafts {event : Event} (run : Runs (handle host event) s () s') :
    ∃ new, s'.trace = new ++ s.trace ∧ PairsGrafts new s s' := by
  have admits : Admits host fun _ => True :=
    ⟨fun _ _ _ _ _ => trivial, fun _ _ _ => trivial, fun _ _ _ _ _ _ => trivial, fun _ _ _ _ _ => trivial,
      fun _ _ => trivial, fun _ _ => trivial, fun _ _ => trivial⟩
  obtain ⟨new, trace, _, pairs⟩ := handle_emits admits (fun _ _ _ _ _ _ _ _ _ _ _ => trivial) (fun _ _ _ => trivial) run
  exact ⟨new, trace, pairs⟩

/-- The Hellos and first queries of the start. -/
theorem boot_emits (queries : ∀ src dst type code group, W (.igmp src dst type code group))
    (hails : ∀ vif, host.Serves vif → Hails host W ⟨vif, pimHelloHoldtime, 1⟩) : Within (Emits W) (boot host) := by
  refine within_bind (steady_emits W) ?_ fun _ =>
    within_bind (steady_emits W) (timerSetTimer_emits _ fun _ => Callback.noConfusion) fun _ =>
      within_pure (steady_emits W) _
  refine within_foldProgram (steady_emits W) _ _ fun vif member _ => within_onlyIf (steady_emits W) fun active => ?_
  obtain ⟨positive, bounded⟩ := Host.mem_vifs.mp member
  refine within_bind (steady_emits W) (startQuerying_emits queries vif) fun _ => ?_
  exact pimHelloOutput_emits (hails vif ⟨positive, bounded, active⟩)

/-- The records that pending timers of `plan_graft` point to. -/
def Backed (s : Daemon) : Prop := ∀ timer mymrt, (timer, .planGraft mymrt) ∈ alarms s → ∃ e, s.mrts.get? mymrt = some e

theorem backed_of_pairs {new : List Observation} (pairs : PairsGrafts new s s') (backed : Backed s) : Backed s' := by
  intro timer mymrt pending
  rcases pairs.timers timer mymrt pending with old | ⟨packet, sent, graft⟩
  · obtain ⟨e, here⟩ := backed timer mymrt old
    exact pairs.records mymrt e here
  · exact pairs.sent packet mymrt sent graft

theorem reachable_backed {allowed : Daemon → Event → Prop} (reached : Reachable host allowed s) : Backed s := by
  obtain ⟨start, ⟨pimSendBuf, booted⟩, run⟩ := reached
  refine run.keeps ?_ fun before event after backed _ taken => ?_
  · obtain ⟨new, _, _, pairs⟩ := boot_emits (W := fun _ => True) (fun _ _ _ _ _ => trivial)
      (fun _ _ _ => trivial) _ _ _ booted
    exact backed_of_pairs pairs fun _ _ pending => (List.not_mem_nil pending).elim
  · obtain ⟨new, _, pairs⟩ := handle_pairsGrafts taken.2
    exact backed_of_pairs pairs backed

end PimDm.Refinement
