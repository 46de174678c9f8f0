import PimDm.Refinement.Echoes

/-!
# What a sender hands over and a receiver reads

Each sender writes its message behind the header and `pimdm_output` hands over a prefix
of the buffer.  The receiver reads the fields of the message where the sender wrote them.
-/

namespace PimDm.Refinement

open PimDm.Foundation PimDm.Source

variable {s : Daemon} {host : Host} {buf : Memory} {type : Nat} {length : Int} {packet other : PimPacket}

/-! ## Senders -/

/-- The packet `pimdm_output` hands over when the send buffer holds `buf`. -/
def sentPacket (buf : Memory) (src dst : Addr) (type : Nat) (length : Int) : PimPacket :=
  ⟨type, src, dst, (List.range (sizeofPim + length).toNat).map fun place : Nat =>
    writePimHeader buf type length place⟩

/-- The program completes and sends one packet. -/
def Transmits (program : Act Unit) (s : Daemon) (packet : PimPacket) : Prop :=
  ∃ s' entry, Runs program s () s' ∧ s'.trace = .pim packet entry :: s.trace

theorem Transmits.unique {program : Act Unit} (one : Transmits program s packet)
    (two : Transmits program s other) : packet = other := by
  obtain ⟨first, entry, run, sent⟩ := one
  obtain ⟨second, also, again, seen⟩ := two
  obtain ⟨_, rfl⟩ := runs_deterministic run again
  have same := sent.symm.trans seen
  simp only [List.cons.injEq, Observation.pim.injEq] at same
  exact same.1.1

theorem pimdmOutput_transmits (s : Daemon) (src dst : Addr) (type : Nat) (length : Int) (entry : Ptr) :
    Transmits (pimdmOutput src dst type length entry) s (sentPacket s.pimSendBuf src dst type length) :=
  ⟨_, entry, runs_pimdmOutput.mpr rfl, rfl⟩

theorem pimHelloOutput_transmits (s : Daemon) (host : Host) (data : PimHelloOutputData) :
    Transmits (pimHelloOutput host data) s
      (sentPacket (writeHello s.pimSendBuf data.holdtime) (host.iface data.vif).address allpimrouters pimHello 6) := by
  by_cases regular : data.regular = 1
  · have again : Runs (onlyIf (data.regular = 1) do
        let _ ← timerSetTimer pimHelloPeriod (.pimHelloOutput data))
        (s.writeBuf fun buf => writeHello buf data.holdtime) ()
        ((s.writeBuf fun buf => writeHello buf data.holdtime).setTimer pimHelloPeriod (.pimHelloOutput data)) :=
      runs_onlyIf.mpr (Or.inl ⟨regular, runs_bind.mpr ⟨_, _, runs_timerSetTimer.mpr ⟨rfl, rfl⟩,
        runs_pure.mpr ⟨rfl, rfl⟩⟩⟩)
    exact ⟨_, 0, runs_bind.mpr ⟨(), _, runs_modify.mpr rfl, runs_bind.mpr ⟨(), _, again,
      runs_pimdmOutput.mpr rfl⟩⟩, rfl⟩
  · have once : Runs (onlyIf (data.regular = 1) do
        let _ ← timerSetTimer pimHelloPeriod (.pimHelloOutput data))
        (s.writeBuf fun buf => writeHello buf data.holdtime) ()
        (s.writeBuf fun buf => writeHello buf data.holdtime) := runs_onlyIf.mpr (Or.inr ⟨regular, rfl⟩)
    exact ⟨_, 0, runs_bind.mpr ⟨(), _, runs_modify.mpr rfl, runs_bind.mpr ⟨(), _, once,
      runs_pimdmOutput.mpr rfl⟩⟩, rfl⟩

/-- The counts of a Join and of a Prune, as they lie in memory. -/
def countsOf : PacketType → BitVec 16 × BitVec 16
  | .join => (htons 1, htons 0)
  | .prune => (htons 0, htons 1)

theorem pimJoinPruneOutput_transmits {mymrt : Ptr} {e : Mrt} (here : s.mrts.get? mymrt = some e)
    (host : Host) (packetType : PacketType) (holdtime : Int) :
    Transmits (pimJoinPruneOutput host mymrt packetType holdtime) s
      (sentPacket (writeOneSource s.pimSendBuf e.toRoute holdtime (countsOf packetType).1
        (countsOf packetType).2) (host.iface e.incoming).address allpimrouters pimJoinPrune
        oneSourceLength) := by
  refine ⟨_, mymrt, runs_bind.mpr ⟨e, s, runs_loadMrt.mpr ⟨here, rfl⟩, runs_bind.mpr ⟨(), _, runs_modify.mpr rfl,
    runs_pimdmOutput.mpr rfl⟩⟩, ?_⟩
  cases packetType with
  | join => rfl
  | prune => rfl

theorem pimGraftOutput_transmits {mymrt : Ptr} {e : Mrt} (here : s.mrts.get? mymrt = some e) (host : Host) :
    Transmits (pimGraftOutput host mymrt) s
      (sentPacket (writeOneSource s.pimSendBuf e.toRoute 0 (htons 1) 0) (host.iface e.incoming).address e.upstream
        pimGraft oneSourceLength) :=
  ⟨_, mymrt, runs_bind.mpr ⟨e, s, runs_loadMrt.mpr ⟨here, rfl⟩, runs_bind.mpr ⟨(), _, runs_modify.mpr rfl,
    runs_pimdmOutput.mpr rfl⟩⟩, rfl⟩

theorem pimAssertOutput_transmits (s : Daemon) (host : Host) (source group : Addr) (vif : Vif)
    (preference metric : BitVec 32) : Transmits (pimAssertOutput host source group vif preference metric) s
      (sentPacket (writeAssert s.pimSendBuf source group preference metric) (host.iface vif).address allpimrouters
        pimAssert assertLength) :=
  ⟨_, 0, runs_bind.mpr ⟨(), _, runs_modify.mpr rfl, runs_pimdmOutput.mpr rfl⟩, rfl⟩

/-! ## The bytes handed over -/

theorem sent_length (buf : Memory) (src dst : Addr) (type : Nat) (length : Int) :
    (sentPacket buf src dst type length).bytes.length = (sizeofPim + length).toNat := by simp [sentPacket]

theorem received_sent {src dst : Addr} {place : Int} (low : 0 ≤ place) (high : place < sizeofPim + length) :
    received (sentPacket buf src dst type length) place = writePimHeader buf type length place := by
  obtain ⟨index, rfl⟩ := Int.eq_ofNat_of_zero_le low
  have inside : index < (sizeofPim + length).toNat := by omega
  simp [received, sentPacket, List.getD, inside]

/-- The header ends where the body starts. -/
theorem writePimHeader_body (buf : Memory) (type : Nat) (length : Int) {place : Int} (behind : 4 ≤ place) :
    writePimHeader buf type length place = buf place := by
  unfold writePimHeader
  rw [store16_apart _ _ (by omega), store16_apart _ _ (by omega), store8_apart _ _ (by omega)]

/-- Behind the header the receiver has what the buffer held. -/
theorem received_sent_body {src dst : Addr} {place : Int} (low : 4 ≤ place) (high : place < sizeofPim + length) :
    received (sentPacket buf src dst type length) place = buf place := by
  rw [received_sent (by omega) high]
  exact writePimHeader_body buf type length low

/-- What `pimdm_output` hands over passes the checksum. -/
theorem cksum_sent (buf : Memory) (src dst : Addr) (type : Nat) (nonnegative : 0 ≤ length)
    (short : sizeofPim + length ≤ 65535) :
    inetCksum (received (sentPacket buf src dst type length))
      (sentPacket buf src dst type length).bytes.length = 0 := by
  have total : ((sizeofPim + length).toNat : Int) = sizeofPim + length := by
    simp only [sizeofPim] at short ⊢
    omega
  rw [sent_length, total]
  refine Eq.trans ?_ (inetCksum_written buf type nonnegative short)
  exact inetCksum_congr fun place low high => received_sent low high

/-! ## The fields of a body -/

/-- The receivers of Join/Prunes and Grafts read one group with these counts, and one source. -/
structure Decodes (data : Memory) (upstream : Addr) (holdtime : Int) (group : Addr) (joins prunes : Nat)
    (source : Addr) : Prop where
  header : readJoinPruneHeader data = ⟨upstream, 1, holdtime⟩
  group : namedGroup data = group
  joins : joinCount data = joins
  prunes : pruneCount data = prunes
  source : namedSource data = source

/-- The fields lie behind the header and in the first 34 bytes. -/
theorem Decodes.congr {data other : Memory} (same : ∀ place, 4 ≤ place → place < 34 → data place = other place)
    {upstream group source : Addr} {holdtime : Int} {joins prunes : Nat}
    (decodes : Decodes other upstream holdtime group joins prunes source) :
    Decodes data upstream holdtime group joins prunes source := by
  have word : ∀ offset, 4 ≤ offset → offset + 4 ≤ 34 → load32 data offset = load32 other offset :=
    fun offset low high => load32_congr fun place above below => same place (by omega) (by omega)
  have half : ∀ offset, 4 ≤ offset → offset + 2 ≤ 34 → load16 data offset = load16 other offset :=
    fun offset low high => load16_congr fun place above below => same place (by omega) (by omega)
  have header : readJoinPruneHeader data = readJoinPruneHeader other := by
    unfold readJoinPruneHeader
    rw [word _ (by decide) (by decide), half _ (by decide) (by decide), same _ (by decide) (by decide)]
  have group : readGroupHeader data groupsStart = readGroupHeader other groupsStart := by
    unfold readGroupHeader
    rw [word _ (by decide) (by decide), half _ (by decide) (by decide), half _ (by decide) (by decide)]
  refine ⟨header.trans decodes.header, ?_, ?_, ?_, (word _ (by decide) (by decide)).trans decodes.source⟩
  · exact (congrArg GroupHeader.group group).trans decodes.group
  · rw [joinCount, group]
    exact decodes.joins
  · rw [pruneCount, group]
    exact decodes.prunes

theorem ntohs_htons (word : BitVec 16) : ntohs (htons word) = word := by
  unfold htons ntohs
  refine BitVec.eq_of_getLsbD_eq fun i bound => ?_
  simp only [BitVec.getLsbD_append, BitVec.getLsbD_extractLsb']
  grind

/-- The hold time is cut to a signed half word, and the rest is read as it was written. -/
theorem decodes_written (buf : Memory) (r : Route) (holdtime : Int) (joins prunes : BitVec 16) :
    Decodes (writeOneSource buf r holdtime joins prunes) r.upstream (BitVec.ofInt 16 holdtime).toInt r.group
      (ntohs joins).toNat (ntohs prunes).toNat r.source := by
  have header : readJoinPruneHeader (writeOneSource buf r holdtime joins prunes) =
      ⟨load32 (store32 buf 6 r.upstream) 6, 1, (load16 (store16 buf 12 (BitVec.ofInt 16 holdtime)) 12).toInt⟩ := by
    simp [readJoinPruneHeader, sizeofPim, load32, load16, writeOneSource, writeEncodedAddress, writeJoinPruneHeader,
      writeUnicastOption, store32, store16, store8]
  have group : readGroupHeader (writeOneSource buf r holdtime joins prunes) groupsStart =
      ⟨load32 (store32 buf 18 r.group) 18, load16 (store16 buf 22 joins) 22, load16 (store16 buf 24 prunes) 24⟩ := by
    simp [readGroupHeader, groupsStart, sizeofPim, load32, load16, writeOneSource, writeEncodedAddress,
      writeJoinPruneHeader, writeUnicastOption, store32, store16, store8]
  rw [load32_store32, load16_store16] at header
  rw [load32_store32, load16_store16, load16_store16] at group
  refine ⟨header, ?_, ?_, ?_, ?_⟩
  · rw [namedGroup, group]
  · rw [joinCount, group]
  · rw [pruneCount, group]
  · exact load32_store32 _ 30 r.source

theorem decodes_writeOneSource (buf : Memory) (r : Route) {holdtime : Int} (low : 0 ≤ holdtime)
    (high : holdtime ≤ 32767) (joins prunes : BitVec 16) :
    Decodes (writeOneSource buf r holdtime joins prunes) r.upstream holdtime r.group (ntohs joins).toNat
      (ntohs prunes).toNat r.source := by
  have hold : (BitVec.ofInt 16 holdtime).toInt = holdtime := by
    rw [BitVec.toInt_ofInt]
    exact Int.bmod_eq_of_le (by omega) (by omega)
  have decodes := decodes_written buf r holdtime joins prunes
  rwa [hold] at decodes

end PimDm.Refinement
