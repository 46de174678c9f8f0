import PimDm.Property.Session
import PimDm.Refinement.Buffers

/-!
# What earlier packets leave in a later one

All senders share one buffer.  A sender writes its message and the header, but not the
reserved byte of the header, and the length of an Assert is two bytes more than its body.
-/

namespace PimDm.Property

open PimDm.Foundation PimDm.Source PimDm.Refinement

variable {s t : Daemon} {host : Host} {data other : Memory}

/-! ## Two runs of one sender -/

/-- Both sends complete, and their messages are the same byte for byte. -/
def SameBytes (program other : Act Unit) (s t : Daemon) : Prop :=
  ∃ one two, Transmits program s one ∧ Transmits other t two ∧ one.bytes = two.bytes

theorem sameBytes_iff {program other : Act Unit} {one two : PimPacket} (first : Transmits program s one)
    (second : Transmits other t two) : SameBytes program other s t ↔ one.bytes = two.bytes := by
  constructor
  · rintro ⟨left, right, sent, also, same⟩
    rw [sent.unique first, also.unique second] at same
    exact same
  · intro same
    exact ⟨one, two, first, second, same⟩

/-- A body that is written in full leaves only the reserved byte to the buffer. -/
theorem body_same_iff {first second : Memory} {length : Int} (nonnegative : 0 ≤ length)
    (written : Alike (fun place => 4 ≤ place ∧ place < sizeofPim + length) first second)
    (kept : first 1 = data 1) (left : second 1 = other 1) (src dst src' dst' : Addr) (type : Nat) :
    (sentPacket first src dst type length).bytes = (sentPacket second src' dst' type length).bytes ↔
      data 1 = other 1 := by
  rw [← kept, ← left, sent_same_iff first second src dst src' dst' type nonnegative]
  constructor
  · intro alike
    exact alike 1 (Or.inl rfl)
  · intro reserved place inside
    rcases inside with rfl | body
    · exact reserved
    · exact written place body

theorem hello_same_iff (s t : Daemon) (host : Host) (data : PimHelloOutputData) :
    SameBytes (pimHelloOutput host data) (pimHelloOutput host data) s t ↔ s.pimSendBuf 1 = t.pimSendBuf 1 := by
  refine (sameBytes_iff (pimHelloOutput_transmits s host data) (pimHelloOutput_transmits t host data)).trans ?_
  exact body_same_iff (by decide) (Alike.writeHello _ _ _) (writeHello_apart _ _ (by decide))
    (writeHello_apart _ _ (by decide)) _ _ _ _ _

section Entries

variable {mymrt also : Ptr} {e e' : Mrt}

theorem joinPrune_same_iff (here : s.mrts.get? mymrt = some e) (there : t.mrts.get? also = some e')
    (same : e.toRoute = e'.toRoute) (packetType : PacketType) (holdtime : Int) :
    SameBytes (pimJoinPruneOutput host mymrt packetType holdtime) (pimJoinPruneOutput host also packetType holdtime)
      s t ↔ s.pimSendBuf 1 = t.pimSendBuf 1 := by
  refine (sameBytes_iff (pimJoinPruneOutput_transmits here host packetType holdtime)
    (pimJoinPruneOutput_transmits there host packetType holdtime)).trans ?_
  rw [← same]
  exact body_same_iff (by decide) (Alike.writeOneSource _ _ _ _ _ _) (writeOneSource_apart _ _ _ _ _ (by decide))
    (writeOneSource_apart _ _ _ _ _ (by decide)) _ _ _ _ _

theorem graft_same_iff (here : s.mrts.get? mymrt = some e) (there : t.mrts.get? also = some e')
    (same : e.toRoute = e'.toRoute) : SameBytes (pimGraftOutput host mymrt) (pimGraftOutput host also) s t ↔
      s.pimSendBuf 1 = t.pimSendBuf 1 := by
  refine (sameBytes_iff (pimGraftOutput_transmits here host) (pimGraftOutput_transmits there host)).trans ?_
  rw [← same]
  exact body_same_iff (by decide) (Alike.writeOneSource _ _ _ _ _ _) (writeOneSource_apart _ _ _ _ _ (by decide))
    (writeOneSource_apart _ _ _ _ _ (by decide)) _ _ _ _ _

end Entries

theorem assert_same_iff (s t : Daemon) (host : Host) (source group : Addr) (vif : Vif)
    (preference metric : BitVec 32) : SameBytes (pimAssertOutput host source group vif preference metric)
      (pimAssertOutput host source group vif preference metric) s t ↔
    s.pimSendBuf 1 = t.pimSendBuf 1 ∧ s.pimSendBuf 26 = t.pimSendBuf 26 ∧ s.pimSendBuf 27 = t.pimSendBuf 27 := by
  refine (sameBytes_iff (pimAssertOutput_transmits s host source group vif preference metric)
    (pimAssertOutput_transmits t host source group vif preference metric)).trans ?_
  have body := Alike.writeAssert s.pimSendBuf t.pimSendBuf source group preference metric
  have total : sizeofPim + assertLength = 28 := rfl
  have unwritten : ∀ place, place < 4 ∨ 26 ≤ place →
      (writeAssert s.pimSendBuf source group preference metric place =
        writeAssert t.pimSendBuf source group preference metric place ↔ s.pimSendBuf place = t.pimSendBuf place) := by
    intro place apart
    rw [writeAssert_apart _ _ _ _ _ apart, writeAssert_apart _ _ _ _ _ apart]
  refine (sent_same_iff _ _ _ _ _ _ _ (by decide)).trans ⟨fun alike => ⟨?_, ?_, ?_⟩, ?_⟩
  · exact (unwritten 1 (by decide)).mp (alike 1 (Or.inl rfl))
  · exact (unwritten 26 (by decide)).mp (alike 26 (Or.inr (by decide)))
  · exact (unwritten 27 (by decide)).mp (alike 27 (Or.inr (by decide)))
  · rintro ⟨reserved, first, second⟩ place inside
    by_cases written : 4 ≤ place ∧ place < 26
    · exact body place written
    · have behind : place = 1 ∨ place = 26 ∨ place = 27 := by omega
      rcases behind with rfl | rfl | rfl
      · exact (unwritten 1 (by decide)).mpr reserved
      · exact (unwritten 26 (by decide)).mpr first
      · exact (unwritten 27 (by decide)).mpr second

/-- The messages are the same in all bytes exactly when the two buffers hold the same
reserved byte, and for Asserts also the same two bytes behind the body. -/
theorem messages_same_bytes_iff (s t : Daemon) (host : Host) :
    (∀ data : PimHelloOutputData, SameBytes (pimHelloOutput host data) (pimHelloOutput host data) s t ↔
      s.pimSendBuf 1 = t.pimSendBuf 1) ∧
    (∀ mymrt also e e', s.mrts.get? mymrt = some e → t.mrts.get? also = some e' → e.toRoute = e'.toRoute →
      (∀ packetType holdtime, SameBytes (pimJoinPruneOutput host mymrt packetType holdtime)
        (pimJoinPruneOutput host also packetType holdtime) s t ↔ s.pimSendBuf 1 = t.pimSendBuf 1) ∧
      (SameBytes (pimGraftOutput host mymrt) (pimGraftOutput host also) s t ↔ s.pimSendBuf 1 = t.pimSendBuf 1)) ∧
    ∀ source group vif preference metric, SameBytes (pimAssertOutput host source group vif preference metric)
        (pimAssertOutput host source group vif preference metric) s t ↔
      s.pimSendBuf 1 = t.pimSendBuf 1 ∧ s.pimSendBuf 26 = t.pimSendBuf 26 ∧ s.pimSendBuf 27 = t.pimSendBuf 27 :=
  ⟨hello_same_iff s t host, fun _ _ _ _ here there same =>
    ⟨joinPrune_same_iff here there same, graft_same_iff here there same⟩, assert_same_iff s t host⟩

/-- A Graft of one source with this reserved byte, from 10.0.2.5. -/
def graftReserving (reserved : Byte) : Event :=
  message .graft pimGraft oneSourceLength (fun buf =>
    store8 (writeOneSource buf (named (stationOn 2 1) studio channel) 0 (htons 1) 0) 1 reserved) (stationOn 2 5)

/-- After the acknowledgements of two Grafts that differ in their reserved bytes, so do
two Hellos. -/
theorem messages_differ :
    ¬ ∀ (host : Host) (s t : Daemon), Reachable host (fun _ _ => True) s → Reachable host (fun _ _ => True) t →
      ∀ data, SameBytes (pimHelloOutput host data) (pimHelloOutput host data) s t := by
  intro same
  have first : endsWith router (fun _ _ => True) [graftReserving 0] (fun s => s.pimSendBuf 1 == 0) = true := by
    decide +kernel
  have second : endsWith router (fun _ _ => True) [graftReserving 7] (fun s => s.pimSendBuf 1 == 7) = true := by
    decide +kernel
  obtain ⟨s, reached, zero⟩ := reachable_of_endsWith first
  obtain ⟨t, also, seven⟩ := reachable_of_endsWith second
  have byte := (hello_same_iff s t router ⟨1, 105, 1⟩).mp (same router s t reached also ⟨1, 105, 1⟩)
  rw [beq_iff_eq] at zero seven
  rw [zero, seven] at byte
  exact absurd byte (by decide)

end PimDm.Property
