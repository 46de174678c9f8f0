import PimDm.Refinement.Wire
import PimDm.Source.Input

/-!
# Sender and receiver agree about the checksum

A message that carries its checksum sums to a multiple of 65535.  The accumulator of
`inet_cksum` is signed; the sum of a message that fits into an IP packet stays below its
sign bit.
-/

namespace PimDm.Property

open PimDm.Foundation PimDm.Source PimDm.Refinement

variable {s : Daemon} {host : Host} {packet : Memory} {length : Int}

/-! ## The accumulator -/

/-- No addition of the summing loop overflows. -/
def SumsExactly (packet : Memory) : Nat → Int → BitVec 32 → Prop
  | 0, _, _ => True
  | 1, offset, sum => sum.saddOverflow ((packet offset).zeroExtend 32) = false
  | nleft + 2, offset, sum =>
      sum.saddOverflow ((load16 packet offset).zeroExtend 32) = false ∧
        SumsExactly packet nleft (offset + 2) (sum + (load16 packet offset).zeroExtend 32)

/-- Neither does adding the carries. -/
def FoldsExactly (sum : BitVec 32) : Prop :=
  (sum.sshiftRight 16).saddOverflow (sum &&& 0xffff#32) = false ∧
    let once := sum.sshiftRight 16 + (sum &&& 0xffff#32)
    once.saddOverflow (once.sshiftRight 16) = false

/-- No addition of `inet_cksum` overflows. -/
def AddsExactly (packet : Memory) (length : Int) : Prop :=
  SumsExactly packet length.toNat 0 0#32 ∧ FoldsExactly (inetCksumLoop packet length.toNat 0 0#32)

theorem saddOverflow_small {one two : BitVec 32} (small : one.toNat + two.toNat < 2 ^ 31) :
    one.saddOverflow two = false := by
  have first : one.toInt = one.toNat := BitVec.toInt_eq_toNat_of_lt (by omega)
  have second : two.toInt = two.toNat := BitVec.toInt_eq_toNat_of_lt (by omega)
  unfold BitVec.saddOverflow
  rw [first, second, Bool.or_eq_false_iff, decide_eq_false_iff_not, decide_eq_false_iff_not]
  omega

theorem sumsExactly {nleft : Nat} {offset : Int} {sum : BitVec 32}
    (small : sum.toNat + wordSum packet nleft offset < 2 ^ 31) : SumsExactly packet nleft offset sum := by
  induction nleft, offset using wordSum.induct generalizing sum with
  | case1 offset => trivial
  | case2 offset =>
      have byte := (packet offset).isLt
      have wide : ((packet offset).zeroExtend 32).toNat = (packet offset).toNat := by
        rw [BitVec.toNat_setWidth]
        exact Nat.mod_eq_of_lt (by omega)
      rw [wordSum] at small
      rw [SumsExactly]
      exact saddOverflow_small (by omega)
  | case3 nleft offset ih =>
      have word := (load16 packet offset).isLt
      have wide : ((load16 packet offset).zeroExtend 32).toNat = (load16 packet offset).toNat := by
        rw [BitVec.toNat_setWidth]
        exact Nat.mod_eq_of_lt (by omega)
      rw [wordSum] at small
      have next : (sum + (load16 packet offset).zeroExtend 32).toNat =
          sum.toNat + (load16 packet offset).toNat := by
        rw [BitVec.toNat_add, wide]
        exact Nat.mod_eq_of_lt (by omega)
      rw [SumsExactly]
      exact ⟨saddOverflow_small (by omega), ih (by omega)⟩

theorem foldsExactly {sum : BitVec 32} (small : sum.toNat < 2 ^ 31) : FoldsExactly sum := by
  have high := sshiftRight_toNat small
  have low := low_toNat sum
  have once : (sum.sshiftRight 16 + (sum &&& 0xffff#32)).toNat = sum.toNat / 65536 + sum.toNat % 65536 := by
    rw [BitVec.toNat_add, high, low]
    exact Nat.mod_eq_of_lt (by omega)
  have carry := sshiftRight_toNat (show (sum.sshiftRight 16 + (sum &&& 0xffff#32)).toNat < 2 ^ 31 by omega)
  exact ⟨saddOverflow_small (by omega), saddOverflow_small (by omega)⟩

theorem addsExactly (short : length ≤ 65535) : AddsExactly packet length := by
  have bound := wordSum_le packet length.toNat 0
  have sum := inetCksumLoop_toNat packet length.toNat 0 0#32
  rw [BitVec.toNat_zero, Nat.zero_add, Nat.mod_eq_of_lt (by omega)] at sum
  exact ⟨sumsExactly (by rw [BitVec.toNat_zero]; omega), foldsExactly (by omega)⟩

/-! ## The test -/

/-- A sum folds to ones exactly when it is a multiple of 65535, but not zero. -/
theorem fold_eq_ones {sum : Nat} (small : sum < 2 ^ 32) :
    fold sum = 65535 ↔ ∃ carries, 0 < carries ∧ sum = 65535 * carries := by
  obtain ⟨⟨more, split⟩, bound, zero⟩ := fold_spec small
  constructor
  · intro ones
    exact ⟨more + 1, by omega, by omega⟩
  · rintro ⟨carries, some, rfl⟩
    have folded : fold (65535 * carries) = 0 ∨ fold (65535 * carries) = 65535 := by omega
    rcases folded with none | ones
    · have empty := zero none
      omega
    · exact ones

theorem inetCksum_eq_zero (short : length ≤ 65535) :
    inetCksum packet length = 0 ↔ ∃ carries, 0 < carries ∧ wordSum packet length.toNat 0 = 65535 * carries := by
  have bound := wordSum_le packet length.toNat 0
  have limit := (fold_spec (show wordSum packet length.toNat 0 < 2 ^ 32 by omega)).2.1
  have value : (inetCksum packet length).toNat = 65535 - fold (wordSum packet length.toNat 0) := inetCksum_toNat short
  have zero : inetCksum packet length = 0 ↔ fold (wordSum packet length.toNat 0) = 65535 := by
    constructor
    · intro none
      rw [none] at value
      have empty : (0 : BitVec 16).toNat = 0 := rfl
      omega
    · intro ones
      refine BitVec.eq_of_toNat_eq ?_
      rw [value, ones]
      rfl
  exact zero.trans (fold_eq_ones (by omega))

/-- `valid_packet` gets past its checksum. -/
def PassesChecksum (host : Host) (src : Addr) (data : Memory) (length : Int) (s : Daemon) : Prop :=
  ∃ valid s', Runs (validPacket host src data length) s valid s'

theorem passesChecksum_iff {src : Addr} :
    PassesChecksum host src packet length s ↔ inetCksum packet length = 0 := by
  constructor
  · rintro ⟨valid, s', run⟩
    exact (runs_validPacket run).2.1
  · intro correct
    have right : ¬ inetCksum packet length ≠ 0 := not_not.mpr correct
    unfold PassesChecksum validPacket
    rw [if_neg right]
    by_cases direct : findVifDirect host src = 0
    · exact ⟨false, s, by rw [if_pos direct]; exact runs_pure.mpr ⟨rfl, rfl⟩⟩
    · exact ⟨_, s, by rw [if_neg direct]; exact runs_pure.mpr ⟨rfl, rfl⟩⟩

/-- Every message that fits into an IP packet passes, in every receiver; a message passes
exactly when the sum of its words is a multiple of 65535 and not zero; no sum overflows. -/
theorem checksums_agree :
    (∀ (s : Daemon) src dst type length entry, 0 ≤ length → sizeofIp + sizeofPim + length ≤ 65535 →
      ∃ packet, Transmits (pimdmOutput src dst type length entry) s packet ∧
        ∀ host neighbor receiver, PassesChecksum host neighbor (received packet) packet.bytes.length receiver) ∧
    (∀ (data : Memory) length, 1 ≤ length → length ≤ 65535 → ∀ host neighbor receiver,
      (PassesChecksum host neighbor data length receiver ↔
        ∃ carries, 0 < carries ∧ wordSum data length.toNat 0 = 65535 * carries)) ∧
    ∀ (data : Memory) length, 1 ≤ length → length ≤ 65535 → AddsExactly data length := by
  refine ⟨fun s src dst type length entry nonnegative short => ?_,
    fun data length some short host neighbor receiver => ?_,
    fun data length some short => addsExactly short⟩
  · have fits : sizeofPim + length ≤ 65535 := by
      have header : sizeofIp = 20 := rfl
      omega
    refine ⟨_, pimdmOutput_transmits s src dst type length entry, fun host neighbor receiver => ?_⟩
    exact passesChecksum_iff.mpr (cksum_sent s.pimSendBuf src dst type nonnegative fits)
  · exact passesChecksum_iff.trans (inetCksum_eq_zero short)

end PimDm.Property
