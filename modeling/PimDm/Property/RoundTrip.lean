import PimDm.Property.Session
import PimDm.Refinement.Wire

/-!
# Messages from sender to receiver

What a sender puts into a Hello, a Join/Prune, a Graft or an Assert is what the receiver
takes from it.
-/

namespace PimDm.Property

open PimDm.Foundation PimDm.Source PimDm.Refinement

variable {s : Daemon} {host : Host}

/-- A message that holds one source is read as it was written. -/
theorem decodes_sent (buf : Memory) (r : Route) {holdtime : Int} (low : 0 ≤ holdtime) (high : holdtime ≤ 32767)
    (joins prunes : BitVec 16) (src dst : Addr) (type : Nat) :
    Decodes (received (sentPacket (writeOneSource buf r holdtime joins prunes) src dst type oneSourceLength))
      r.upstream holdtime r.group (ntohs joins).toNat (ntohs prunes).toNat r.source :=
  Decodes.congr (fun _ above below => received_sent_body above below)
    (decodes_writeOneSource buf r low high joins prunes)

/-- The hold time of a Hello, as an unsigned number. -/
theorem runs_getHoldTime_sent (buf : Memory) {holdtime : Nat} (small : holdtime ≤ 65535) (src dst : Addr)
    (type : Nat) : Runs (getHoldTime (received (sentPacket (writeHello buf holdtime) src dst type 6))
      (sentPacket (writeHello buf holdtime) src dst type 6).bytes.length) s (holdtime : Int) s := by
  have half : ∀ offset, 4 ≤ offset → offset + 2 ≤ 10 →
      load16 (received (sentPacket (writeHello buf holdtime) src dst type 6)) offset =
        load16 (writeHello buf holdtime) offset :=
    fun offset above below => load16_congr fun place low high =>
      received_sent_body (by omega) (by simp only [sizeofPim]; omega)
  have kind : load16 (writeHello buf holdtime) 4 = htons 1 := by
    refine Eq.trans ?_ (load16_store16 buf 4 (htons 1))
    simp [load16, writeHello, store16, store8]
  have size : load16 (writeHello buf holdtime) 6 = htons 2 := by
    refine Eq.trans ?_ (load16_store16 buf 6 (htons 2))
    simp [load16, writeHello, store16, store8]
  have time : load16 (writeHello buf holdtime) 8 = htons (BitVec.ofInt 16 holdtime) := load16_store16 _ 8 _
  have value : (BitVec.ofInt 16 (holdtime : Int)).toNat = holdtime := by
    rw [BitVec.ofInt_natCast, BitVec.toNat_ofNat]
    omega
  have option : ntohs (htons 1) = 1 ∧ (ntohs (htons 2)).toNat = 2 := by decide
  have found : getHoldTimeLoop (received (sentPacket (writeHello buf holdtime) src dst type 6)) (64 * 1024 / 4)
      sizeofPim 6 = .ok (holdtime : Int) := by
    have fuel : 64 * 1024 / 4 = 16383 + 1 := rfl
    have first : sizeofPim = 4 := rfl
    rw [fuel, getHoldTimeLoop, first, half 4 (by decide) (by decide), half (4 + 2) (by decide) (by decide),
      half (4 + 4) (by decide) (by decide)]
    rw [kind, show (4 : Int) + 2 = 6 from rfl, size, show (4 : Int) + 4 = 8 from rfl, time, option.1, option.2,
      ntohs_htons, value]
    simp
  unfold getHoldTime
  rw [sent_length]
  exact runs_liftHeap.mpr ⟨found, rfl⟩

/-- Every field comes out as it went in: the hold time of a Hello, the fields of a
Join/Prune and of a Graft, and the four fields of an Assert. -/
theorem messages_round_trip (s : Daemon) (host : Host) :
    (∀ (holdtime : Nat) vif regular, holdtime ≤ 65535 →
      ∃ packet, Transmits (pimHelloOutput host ⟨vif, holdtime, regular⟩) s packet ∧
        ∀ other, Runs (getHoldTime (received packet) packet.bytes.length) other holdtime other) ∧
    (∀ mymrt e, s.mrts.get? mymrt = some e → ∀ holdtime : Int, 0 ≤ holdtime → holdtime ≤ 32767 →
      (∃ packet, Transmits (pimJoinPruneOutput host mymrt .join holdtime) s packet ∧
        Decodes (received packet) e.upstream holdtime e.group 1 0 e.source) ∧
      ∃ packet, Transmits (pimJoinPruneOutput host mymrt .prune holdtime) s packet ∧
        Decodes (received packet) e.upstream holdtime e.group 0 1 e.source) ∧
    (∀ mymrt e, s.mrts.get? mymrt = some e → ∃ packet, Transmits (pimGraftOutput host mymrt) s packet ∧
      Decodes (received packet) e.upstream 0 e.group 1 0 e.source) ∧
    (∀ source group vif preference metric, ∃ packet,
      Transmits (pimAssertOutput host source group vif preference metric) s packet ∧
        readAssert (received packet) = ⟨group, source, preference, metric⟩) := by
  have one : (ntohs (htons 1)).toNat = 1 := by decide
  have none : (ntohs (htons 0)).toNat = 0 := by decide
  have zero : (ntohs 0).toNat = 0 := by decide
  refine ⟨fun holdtime vif regular small => ?_, fun mymrt e here holdtime low high => ⟨?_, ?_⟩,
    fun mymrt e here => ?_, fun source group vif preference metric => ?_⟩
  · exact ⟨_, pimHelloOutput_transmits s host ⟨vif, holdtime, regular⟩, fun other =>
      runs_getHoldTime_sent s.pimSendBuf small (host.iface vif).address allpimrouters pimHello⟩
  · refine ⟨_, pimJoinPruneOutput_transmits here host .join holdtime, ?_⟩
    have decodes := decodes_sent s.pimSendBuf e.toRoute low high (htons 1) (htons 0)
      (host.iface e.incoming).address allpimrouters pimJoinPrune
    rw [one, none] at decodes
    exact decodes
  · refine ⟨_, pimJoinPruneOutput_transmits here host .prune holdtime, ?_⟩
    have decodes := decodes_sent s.pimSendBuf e.toRoute low high (htons 0) (htons 1)
      (host.iface e.incoming).address allpimrouters pimJoinPrune
    rw [one, none] at decodes
    exact decodes
  · refine ⟨_, pimGraftOutput_transmits here host, ?_⟩
    have decodes := decodes_sent s.pimSendBuf e.toRoute (le_refl 0) (by decide) (htons 1) 0
      (host.iface e.incoming).address e.upstream pimGraft
    rw [one, zero] at decodes
    exact decodes
  · exact ⟨_, pimAssertOutput_transmits s host source group vif preference metric,
      readAssert_received host vif s.pimSendBuf source group preference metric⟩

end PimDm.Property
