import PimDm.Refinement.Wire
import PimDm.Refinement.Keys

/-!
# The hold time a sent Prune carries

`check_pim_state` and `add_sg` pass the incoming interface where
`pim_join_prune_output` takes the hold time.
-/

namespace PimDm.Refinement

open PimDm.Foundation PimDm.Source PimDm.Effect

variable {s s' : Daemon} {host : Host} {source group : Addr} {mymrt : Ptr} {e : Mrt} {packet : PimPacket} {α : Type}

/-- The hold time that the receiver of a Join/Prune reads. -/
def holdTimeOf (packet : PimPacket) : Int := (readJoinPruneHeader (received packet)).holdtime

/-- The number of the interface, as a signed 16-bit hold time. -/
def vifAsHoldTime (vif : Vif) : Int := (BitVec.ofInt 16 (vif : Int)).toInt

theorem vifAsHoldTime_eq_iff {vif : Vif} : vifAsHoldTime vif = pimPruneHoldTime ↔
    (vif : Int) % 65536 = pimPruneHoldTime := by
  have size : ((2 ^ 16 : Nat) : Int) = 65536 := rfl
  rw [vifAsHoldTime, BitVec.toInt_ofInt, Int.bmod_def, size, pimPruneHoldTime]
  split
  · omega
  · omega

/-! ## What is written -/

theorem holdTimeOf_sent (buf : Memory) (r : Route) (holdtime : Int) (joins prunes : BitVec 16) (src dst : Addr)
    (type : Nat) : holdTimeOf (sentPacket (writeOneSource buf r holdtime joins prunes) src dst type oneSourceLength) =
      (BitVec.ofInt 16 holdtime).toInt := by
  have field : load16 (received (sentPacket (writeOneSource buf r holdtime joins prunes) src dst type oneSourceLength)) 12 =
      load16 (writeOneSource buf r holdtime joins prunes) 12 := by
    refine load16_congr fun place low high => received_sent_body (by omega) ?_
    have room : sizeofPim + oneSourceLength = 34 := by decide
    omega
  have written : load16 (writeOneSource buf r holdtime joins prunes) 12 =
      load16 (store16 buf 12 (BitVec.ofInt 16 holdtime)) 12 := by
    simp [load16, writeOneSource, writeEncodedAddress, writeJoinPruneHeader, writeUnicastOption, store32, store16,
      store8]
  change (load16 (received _) 12).toInt = _
  rw [field, written, load16_store16]

theorem runs_pimJoinPruneOutput {packetType : PacketType} {holdtime : Int}
    (here : s.mrts.get? mymrt = some e) (run : Runs (pimJoinPruneOutput host mymrt packetType holdtime) s () s') :
    s'.mrts = s.mrts ∧ ∃ packet, holdTimeOf packet = (BitVec.ofInt 16 holdtime).toInt ∧
      s'.trace = .pim packet mymrt :: s.trace := by
  obtain ⟨e', loaded, load, writing⟩ := runs_bind.mp run
  obtain ⟨again, rfl⟩ := runs_loadMrt.mp load
  obtain rfl := Option.some.inj (here.symm.trans again)
  obtain ⟨_, _, write, send⟩ := runs_bind.mp writing
  obtain rfl := runs_modify.mp write
  rw [runs_pimdmOutput.mp send]
  refine ⟨rfl, sentPacket (writeOneSource loaded.pimSendBuf e.toRoute holdtime (countsOf packetType).1
    (countsOf packetType).2)
    (host.iface e.incoming).address allpimrouters pimJoinPrune oneSourceLength, holdTimeOf_sent .., ?_⟩
  cases packetType with
  | join => rfl
  | prune => rfl

/-! ## Who sends Prunes -/

/-- The incoming interfaces of the records stay, and the Join/Prunes sent for a record carry its own. -/
structure CarriesIncoming (before after : Daemon) : Prop where
  kept : ∀ mymrt e, before.mrts.get? mymrt = some e → ∃ e', after.mrts.get? mymrt = some e' ∧ e'.incoming = e.incoming
  sent : ∃ new, after.trace = new ++ before.trace ∧ ∀ packet mymrt, .pim packet mymrt ∈ new →
    packet.type = pimJoinPrune → ∃ e, after.mrts.get? mymrt = some e ∧ holdTimeOf packet = vifAsHoldTime e.incoming

theorem CarriesIncoming.still (kept : ∀ mymrt e, s.mrts.get? mymrt = some e → ∃ e', s'.mrts.get? mymrt = some e' ∧
    e'.incoming = e.incoming) (same : s'.trace = s.trace) : CarriesIncoming s s' :=
  ⟨kept, [], same, fun _ _ member => absurd member List.not_mem_nil⟩

theorem steady_carriesIncoming : Steady CarriesIncoming where
  refl s := .still (fun _ e here => ⟨e, here, rfl⟩) rfl
  trans left right := by
    refine ⟨fun mymrt e here => ?_, ?_⟩
    · obtain ⟨middle, there, same⟩ := left.kept mymrt e here
      obtain ⟨last, after, again⟩ := right.kept mymrt middle there
      exact ⟨last, after, again.trans same⟩
    · obtain ⟨older, before, carried⟩ := left.sent
      obtain ⟨newer, after, carries⟩ := right.sent
      refine ⟨newer ++ older, by rw [after, before, List.append_assoc], fun packet mymrt member prune => ?_⟩
      rcases List.mem_append.mp member with new | old
      · exact carries packet mymrt new prune
      · obtain ⟨e, there, holds⟩ := carried packet mymrt old prune
        obtain ⟨last, here, same⟩ := right.kept mymrt e there
        exact ⟨last, here, by rw [holds, same]⟩

theorem within_same {program : Act α} (same : ∀ {s s' value}, Runs program s value s' → s' = s) :
    Within CarriesIncoming program := by
  intro s value s' run
  rw [same run]
  exact steady_carriesIncoming.refl s

theorem sendPrune_carriesIncoming (host : Host) (mymrt : Ptr) : Within CarriesIncoming (sendPrune host mymrt) := by
  intro s value s' run
  obtain ⟨e, _, load, output⟩ := runs_bind.mp run
  obtain ⟨here, rfl⟩ := runs_loadMrt.mp load
  obtain ⟨records, packet, carries, sent⟩ := runs_pimJoinPruneOutput here output
  refine ⟨fun other e there => ⟨e, records ▸ there, rfl⟩, [.pim packet mymrt], sent, fun one entry member _ => ?_⟩
  cases List.mem_singleton.mp member
  exact ⟨e, records ▸ here, carries⟩

theorem pimGraftOutput_carriesIncoming (host : Host) (mymrt : Ptr) :
    Within CarriesIncoming (pimGraftOutput host mymrt) := by
  intro s value s' run
  obtain ⟨e, _, load, writing⟩ := runs_bind.mp run
  obtain ⟨_, rfl⟩ := runs_loadMrt.mp load
  obtain ⟨_, _, write, send⟩ := runs_bind.mp writing
  obtain rfl := runs_modify.mp write
  obtain rfl := runs_pimdmOutput.mp send
  refine ⟨fun other e there => ⟨e, there, rfl⟩, [_], rfl, fun one entry member prune => ?_⟩
  cases List.mem_singleton.mp member
  cases prune

theorem storeMrt_carriesIncoming (mymrt : Ptr) {function : Mrt → Mrt} (same : ∀ e, (function e).incoming = e.incoming) :
    Within CarriesIncoming (storeMrt mymrt function) := by
  intro s value s' run
  obtain ⟨_, rfl⟩ := runs_storeMrt.mp run
  refine .still (fun other e there => ?_) rfl
  by_cases here : other = mymrt
  · refine ⟨function e, ?_, same e⟩
    rw [here] at there ⊢
    rw [Daemon.setMrt, Heap.get?_modify_same, there]
    rfl
  · exact ⟨e, (Heap.get?_modify_other s.mrts function here).trans there, rfl⟩

theorem planGraft_carriesIncoming (host : Host) (mymrt : Ptr) : Within CarriesIncoming (planGraft host mymrt) := by
  refine within_bind steady_carriesIncoming (within_same fun load => (runs_loadMrt.mp load).2) fun e => ?_
  refine within_bind steady_carriesIncoming (within_same fun look => (runs_findMrt.mp look).2) fun thismrt => ?_
  refine within_ite (fun _ => within_pure steady_carriesIncoming _) fun _ => ?_
  refine within_ite (fun _ => ?_) fun _ => within_pure steady_carriesIncoming _
  refine within_bind steady_carriesIncoming (pimGraftOutput_carriesIncoming host mymrt) fun _ => ?_
  refine within_bind steady_carriesIncoming ?_ fun timer => storeMrt_carriesIncoming mymrt fun _ => rfl
  intro s value s' run
  obtain ⟨_, rfl⟩ := runs_timerSetTimer.mp run
  exact .still (fun other e there => ⟨e, there, rfl⟩) rfl

theorem checkEntry_carriesIncoming (host : Host) (judge : Judge) (mymrt : Ptr) :
    Within CarriesIncoming (checkEntry host judge mymrt) := by
  refine within_bind steady_carriesIncoming (within_same fun load => (runs_loadMrt.mp load).2) fun e => ?_
  refine within_bind steady_carriesIncoming ?_ fun _ => ?_
  · refine within_onlyIf steady_carriesIncoming fun _ => within_onlyIf steady_carriesIncoming fun _ => ?_
    exact sendPrune_carriesIncoming host mymrt
  · refine within_onlyIf steady_carriesIncoming fun _ => within_onlyIf steady_carriesIncoming fun _ => ?_
    exact planGraft_carriesIncoming host mymrt

theorem checkPimState_carriesIncoming (host : Host) (judge : Judge) :
    Within CarriesIncoming (checkPimState host judge) := by
  refine within_bind steady_carriesIncoming (within_get steady_carriesIncoming) fun _ => ?_
  exact within_forEach steady_carriesIncoming (fun mymrt => checkEntry_carriesIncoming host judge mymrt) _ _

theorem announceSg_carriesIncoming (host : Host) (source : Addr) (newmrt : Ptr) :
    Within CarriesIncoming (announceSg host source newmrt) := by
  refine within_bind steady_carriesIncoming (within_same fun load => (runs_loadMrt.mp load).2) fun e => ?_
  refine within_ite (fun _ => ?_) fun _ => ?_
  · exact within_onlyIf steady_carriesIncoming fun _ => planGraft_carriesIncoming host newmrt
  · exact within_onlyIf steady_carriesIncoming fun _ => sendPrune_carriesIncoming host newmrt

/-- The Join/Prune is sent for the record by `check_pim_state` or by `add_sg`. -/
inductive SendsPrune (host : Host) (e : Mrt) (packet : PimPacket) : Prop where
  | checkPimState {judge : Judge} {s s' : Daemon} {new : List Observation} {mymrt : Ptr}
      (run : Runs (checkPimState host judge) s () s') (trace : s'.trace = new ++ s.trace)
      (sent : .pim packet mymrt ∈ new) (type : packet.type = pimJoinPrune) (here : s'.mrts.get? mymrt = some e)
  | addSg {gateway source group : Addr} {incoming : Vif} {s s' : Daemon} {new : List Observation} {mymrt : Ptr}
      (run : Runs (addSg host gateway source group incoming) s () s') (trace : s'.trace = new ++ s.trace)
      (sent : .pim packet mymrt ∈ new) (type : packet.type = pimJoinPrune) (here : s'.mrts.get? mymrt = some e)

theorem SendsPrune.carries (sends : SendsPrune host e packet) : holdTimeOf packet = vifAsHoldTime e.incoming := by
  have read : ∀ {before after : Daemon} {new : List Observation} {mymrt : Ptr}, CarriesIncoming before after →
      after.trace = new ++ before.trace → .pim packet mymrt ∈ new → packet.type = pimJoinPrune →
      after.mrts.get? mymrt = some e → holdTimeOf packet = vifAsHoldTime e.incoming := by
    intro before after new mymrt carries trace sent type here
    obtain ⟨again, same, holds⟩ := carries.sent
    obtain rfl := List.append_cancel_right (same.symm.trans trace)
    obtain ⟨other, there, carried⟩ := holds packet mymrt sent type
    obtain rfl := Option.some.inj (here.symm.trans there)
    exact carried
  cases sends with
  | checkPimState run trace sent type here =>
      exact read (checkPimState_carriesIncoming host _ _ () _ run) trace sent type here
  | @addSg gateway source group incoming s s' new mymrt run trace sent type here =>
      obtain ⟨newmrt, _, _, _, announce, _⟩ := runs_addSg run
      have carries := announceSg_carriesIncoming host source _ _ () _ announce
      obtain ⟨later, grown, _⟩ := carries.sent
      have told : (linked (timed s source group) source group newmrt).trace = .addSg source group :: s.trace := rfl
      have joined : new ++ s.trace = (later ++ [.addSg source group]) ++ s.trace := by
        rw [← trace, grown, told, List.append_assoc]
        rfl
      rw [List.append_cancel_right joined] at sent
      rcases List.mem_append.mp sent with inside | noted
      · exact read carries grown inside type here
      · cases List.mem_singleton.mp noted

end PimDm.Refinement
