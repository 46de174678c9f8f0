import PimDm.Refinement.Wire

/-!
# Which bytes the senders write

A sender writes its message and the header of the send buffer.  Two buffers are alike in
the places that were written the same way in both.
-/

namespace PimDm.Refinement

open PimDm.Foundation PimDm.Source

variable {P Q : Int → Prop} {data other : Memory}

/-! ## Bytes that two buffers share -/

/-- The buffers are alike in these places. -/
def Alike (P : Int → Prop) (data other : Memory) : Prop := ∀ place, P place → data place = other place

namespace Alike

theorem mono (alike : Alike P data other) (fewer : ∀ place, Q place → P place) : Alike Q data other :=
  fun place inside => alike place (fewer place inside)

theorem store8 (alike : Alike P data other) (offset : Int) (value : Byte) :
    Alike (fun place => P place ∨ place = offset) (store8 data offset value) (store8 other offset value) := by
  intro place inside
  by_cases written : place = offset
  · subst written
    unfold Source.store8
    rw [Function.update_self, Function.update_self]
  · rw [store8_apart _ _ written, store8_apart _ _ written]
    exact alike place (inside.resolve_right written)

theorem store16 (alike : Alike P data other) (offset : Int) (value : BitVec 16) :
    Alike (fun place => P place ∨ offset ≤ place ∧ place < offset + 2) (store16 data offset value)
      (store16 other offset value) :=
  ((alike.store8 offset _).store8 (offset + 1) _).mono fun place inside => by grind

theorem store32 (alike : Alike P data other) (offset : Int) (value : Addr) :
    Alike (fun place => P place ∨ offset ≤ place ∧ place < offset + 4) (store32 data offset value)
      (store32 other offset value) :=
  ((alike.store16 offset _).store16 (offset + 2) _).mono fun place inside => by grind

theorem writeUnicastOption (alike : Alike P data other) (offset : Int) :
    Alike (fun place => P place ∨ offset ≤ place ∧ place < offset + 2) (writeUnicastOption data offset)
      (writeUnicastOption other offset) :=
  ((alike.store8 offset _).store8 (offset + 1) _).mono fun place inside => by grind

theorem writeEncodedAddress (alike : Alike P data other) (offset : Int) (address : Addr) :
    Alike (fun place => P place ∨ offset ≤ place ∧ place < offset + 8) (writeEncodedAddress data offset address)
      (writeEncodedAddress other offset address) :=
  (((((alike.store8 offset _).store8 (offset + 1) _).store8 (offset + 2) _).store8 (offset + 3) _).store32
    (offset + 4) _).mono fun place inside => by grind

theorem writeJoinPruneHeader (alike : Alike P data other) (offset : Int) (upstream : Addr) (holdtime : Int) :
    Alike (fun place => P place ∨ offset ≤ place ∧ place < offset + 8)
      (writeJoinPruneHeader data offset upstream holdtime) (writeJoinPruneHeader other offset upstream holdtime) :=
  ((((alike.store32 offset _).store8 (offset + 4) _).store8 (offset + 5) _).store16 (offset + 6) _).mono
    fun place inside => by grind

theorem nowhere (data other : Memory) : Alike (fun _ => False) data other := fun _ absurd => absurd.elim

/-- The whole body of a Hello is written. -/
theorem writeHello (data other : Memory) (holdtime : Int) :
    Alike (fun place => 4 ≤ place ∧ place < 10) (writeHello data holdtime) (writeHello other holdtime) :=
  ((((nowhere data other).store16 4 _).store16 6 _).store16 8 _).mono fun place inside => by omega

/-- The whole body of a Join/Prune and of a Graft is written. -/
theorem writeOneSource (data other : Memory) (r : Route) (holdtime : Int) (joins prunes : BitVec 16) :
    Alike (fun place => 4 ≤ place ∧ place < 34) (writeOneSource data r holdtime joins prunes)
      (writeOneSource other r holdtime joins prunes) :=
  (((((((nowhere data other).writeUnicastOption 4).writeJoinPruneHeader 6 _ _).writeEncodedAddress 14 _).store16
    22 _).store16 24 _).writeEncodedAddress 26 _).mono fun place inside => by omega

/-- The body of an Assert ends two bytes before its length. -/
theorem writeAssert (data other : Memory) (source group : Addr) (preference metric : BitVec 32) :
    Alike (fun place => 4 ≤ place ∧ place < 26) (writeAssert data source group preference metric)
      (writeAssert other source group preference metric) :=
  ((((((nowhere data other).writeEncodedAddress 4 _).writeUnicastOption 12).store32 14 _).store32 18 _).store32
    22 _).mono fun place inside => by omega

end Alike

/-! ## What is written leaves the rest alone -/

theorem writeHello_apart (buf : Memory) (holdtime : Int) {place : Int} (apart : place < 4 ∨ 10 ≤ place) :
    writeHello buf holdtime place = buf place := by
  unfold writeHello
  rw [store16_apart _ _ (by omega), store16_apart _ _ (by omega), store16_apart _ _ (by omega)]

theorem writeUnicastOption_apart (buf : Memory) {offset place : Int} (apart : place < offset ∨ offset + 2 ≤ place) :
    writeUnicastOption buf offset place = buf place := by
  unfold writeUnicastOption
  rw [store8_apart _ _ (by omega), store8_apart _ _ (by omega)]

theorem writeEncodedAddress_apart (buf : Memory) {offset place : Int} (address : Addr)
    (apart : place < offset ∨ offset + 8 ≤ place) : writeEncodedAddress buf offset address place = buf place := by
  unfold writeEncodedAddress
  rw [store32_apart _ _ (by omega), store8_apart _ _ (by omega), store8_apart _ _ (by omega),
    store8_apart _ _ (by omega), store8_apart _ _ (by omega)]

theorem writeJoinPruneHeader_apart (buf : Memory) {offset place : Int} (upstream : Addr) (holdtime : Int)
    (apart : place < offset ∨ offset + 8 ≤ place) :
    writeJoinPruneHeader buf offset upstream holdtime place = buf place := by
  unfold writeJoinPruneHeader
  rw [store16_apart _ _ (by omega), store8_apart _ _ (by omega), store8_apart _ _ (by omega),
    store32_apart _ _ (by omega)]

theorem writeOneSource_apart (buf : Memory) (r : Route) (holdtime : Int) (joins prunes : BitVec 16) {place : Int}
    (apart : place < 4 ∨ 34 ≤ place) : writeOneSource buf r holdtime joins prunes place = buf place := by
  unfold writeOneSource
  rw [writeEncodedAddress_apart _ _ (by omega), store16_apart _ _ (by omega), store16_apart _ _ (by omega),
    writeEncodedAddress_apart _ _ (by omega), writeJoinPruneHeader_apart _ _ _ (by omega),
    writeUnicastOption_apart _ (by omega)]

theorem writeAssert_apart (buf : Memory) (source group : Addr) (preference metric : BitVec 32) {place : Int}
    (apart : place < 4 ∨ 26 ≤ place) : writeAssert buf source group preference metric place = buf place := by
  unfold writeAssert
  rw [store32_apart _ _ (by omega), store32_apart _ _ (by omega), store32_apart _ _ (by omega),
    writeUnicastOption_apart _ (by omega), writeEncodedAddress_apart _ _ (by omega)]

/-! ## The packets handed over -/

/-- The header leaves the reserved byte as it was. -/
theorem writePimHeader_reserved (buf : Memory) (type : Nat) (length : Int) :
    writePimHeader buf type length 1 = buf 1 := by
  unfold writePimHeader
  rw [store16_apart _ _ (by omega), store16_apart _ _ (by omega), store8_apart _ _ (by omega)]

theorem Alike.writePimHeader {length : Int}
    (alike : Alike (fun place => place = 1 ∨ 4 ≤ place ∧ place < sizeofPim + length) data other) (type : Nat) :
    Alike (fun place => 0 ≤ place ∧ place < sizeofPim + length) (writePimHeader data type length)
      (writePimHeader other type length) := by
  have cleared := (alike.store8 0 (BitVec.ofNat 8 (2 * 16 + type % 16))).store16 2 0#16
  have whole : inetCksum (Source.store16 (Source.store8 data 0 (BitVec.ofNat 8 (2 * 16 + type % 16))) 2 0#16)
      (sizeofPim + length) =
        inetCksum (Source.store16 (Source.store8 other 0 (BitVec.ofNat 8 (2 * 16 + type % 16))) 2 0#16)
          (sizeofPim + length) :=
    inetCksum_congr fun place low high => cleared place (by omega)
  unfold Source.writePimHeader
  dsimp only
  rw [whole]
  exact (cleared.store16 2 _).mono fun place inside => by omega

/-- Two messages are the same exactly when the reserved byte and the bytes behind the
header are. -/
theorem sent_same_iff (data other : Memory) (src dst src' dst' : Addr) (type : Nat) {length : Int}
    (nonnegative : 0 ≤ length) :
    (sentPacket data src dst type length).bytes = (sentPacket other src' dst' type length).bytes ↔
      Alike (fun place => place = 1 ∨ 4 ≤ place ∧ place < sizeofPim + length) data other := by
  have header : sizeofPim = 4 := rfl
  have listed : (sentPacket data src dst type length).bytes = (sentPacket other src' dst' type length).bytes ↔
      ∀ place : Nat, place < (sizeofPim + length).toNat →
        writePimHeader data type length place = writePimHeader other type length place := by
    unfold sentPacket
    rw [List.map_inj_left]
    exact forall_congr' fun place => imp_congr_left List.mem_range
  refine listed.trans ⟨fun same place inside => ?_, fun alike place bound => ?_⟩
  · rcases inside with rfl | ⟨low, high⟩
    · have reserved := same 1 (by omega)
      rwa [show ((1 : Nat) : Int) = 1 from rfl, writePimHeader_reserved, writePimHeader_reserved] at reserved
    · obtain ⟨index, rfl⟩ := Int.eq_ofNat_of_zero_le (show 0 ≤ place by omega)
      have byte := same index (by omega)
      rwa [writePimHeader_body _ _ _ low, writePimHeader_body _ _ _ low] at byte
  · exact alike.writePimHeader type place (by omega)

end PimDm.Refinement
