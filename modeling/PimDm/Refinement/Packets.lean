import PimDm.Source.PimOutput
import Mathlib.Algebra.Order.Ring.Int

/-!
# The bytes of a message

Words are loaded as they were stored.  `inet_cksum` adds the words of a message
and folds the carries twice; the sum of a message that carries its own checksum
folds to ones, so every receiver accepts what `pimdm_output` sends.
-/

namespace PimDm.Refinement

open PimDm.Source

/-! ## Loads and stores -/

theorem load16_store16 (buf : Memory) (offset : Int) (value : BitVec 16) :
    load16 (store16 buf offset value) offset = value := by
  have apart : offset ≠ offset + 1 := by omega
  simp only [load16, store16, store8, Function.update_self, Function.update_of_ne apart]
  exact @BitVec.extractLsb'_append_extractLsb' 8 8 value

theorem words_append (value : BitVec 32) :
    (value.extractLsb' 16 16).extractLsb' 8 8 ++ (value.extractLsb' 16 16).extractLsb' 0 8 ++
      (value.extractLsb' 0 16).extractLsb' 8 8 ++ (value.extractLsb' 0 16).extractLsb' 0 8 = value := by
  have high : (value.extractLsb' 16 16).extractLsb' 8 8 ++ (value.extractLsb' 16 16).extractLsb' 0 8 =
      value.extractLsb' 16 16 := @BitVec.extractLsb'_append_extractLsb' 8 8 (value.extractLsb' 16 16)
  have third : (value.extractLsb' 0 16).extractLsb' 8 8 = value.extractLsb' 8 8 :=
    BitVec.extractLsb'_extractLsb'_of_le (by decide)
  have last : (value.extractLsb' 0 16).extractLsb' 0 8 = value.extractLsb' 0 8 :=
    BitVec.extractLsb'_extractLsb'_of_le (by decide)
  have upper : value.extractLsb' 16 16 ++ value.extractLsb' 8 8 = value.extractLsb' 8 24 :=
    BitVec.extractLsb'_append_extractLsb'_eq_extractLsb' rfl
  have whole : value.extractLsb' 8 24 ++ value.extractLsb' 0 8 = value :=
    @BitVec.extractLsb'_append_extractLsb' 24 8 value
  rw [high, third, last]
  exact (congrArg (· ++ value.extractLsb' 0 8) upper).trans whole

theorem load32_store32 (buf : Memory) (offset : Int) (value : BitVec 32) :
    load32 (store32 buf offset value) offset = value := by
  have first : offset ≠ offset + 1 := by omega
  have second : offset ≠ offset + 2 := by omega
  have third : offset ≠ offset + 2 + 1 := by omega
  have fourth : offset + 1 ≠ offset + 2 := by omega
  have fifth : offset + 1 ≠ offset + 2 + 1 := by omega
  have sixth : offset + 2 ≠ offset + 2 + 1 := by omega
  have last : offset + 3 = offset + 2 + 1 := by omega
  simp only [load32, store32, store16, store8, last, Function.update_self, Function.update_of_ne first,
    Function.update_of_ne second, Function.update_of_ne third, Function.update_of_ne fourth,
    Function.update_of_ne fifth, Function.update_of_ne sixth]
  exact words_append value

/-- A load reads four bytes. -/
theorem load32_congr {data other : Memory} {offset : Int}
    (same : ∀ place, offset ≤ place → place < offset + 4 → data place = other place) :
    load32 data offset = load32 other offset := by
  unfold load32
  rw [same offset (by omega) (by omega), same (offset + 1) (by omega) (by omega),
    same (offset + 2) (by omega) (by omega), same (offset + 3) (by omega) (by omega)]

/-- A load of a half word reads two bytes. -/
theorem load16_congr {data other : Memory} {offset : Int}
    (same : ∀ place, offset ≤ place → place < offset + 2 → data place = other place) :
    load16 data offset = load16 other offset := by
  unfold load16
  rw [same offset (by omega) (by omega), same (offset + 1) (by omega) (by omega)]

theorem store8_apart (buf : Memory) {offset place : Int} (value : Byte) (apart : place ≠ offset) :
    store8 buf offset value place = buf place := by
  unfold store8
  exact Function.update_of_ne apart _ _

theorem store16_apart (buf : Memory) {offset place : Int} (value : BitVec 16)
    (apart : place < offset ∨ offset + 2 ≤ place) : store16 buf offset value place = buf place := by
  unfold store16
  rw [store8_apart _ _ (by omega), store8_apart _ _ (by omega)]

theorem store32_apart (buf : Memory) {offset place : Int} (value : BitVec 32)
    (apart : place < offset ∨ offset + 4 ≤ place) : store32 buf offset value place = buf place := by
  unfold store32
  rw [store16_apart _ _ (by omega), store16_apart _ _ (by omega)]

/-- A second store of a word replaces the first. -/
theorem store16_store16 (buf : Memory) (offset : Int) (first second : BitVec 16) :
    store16 (store16 buf offset first) offset second = store16 buf offset second := by
  funext place
  simp only [store16, store8, Function.update_apply]
  split
  · rfl
  · split
    · rfl
    · rfl

/-! ## The sum -/

/-- The sum of the words of a message, and of a last odd byte. -/
def wordSum (packet : Memory) : Nat → Int → Nat
  | 0, _ => 0
  | 1, offset => (packet offset).toNat
  | nleft + 2, offset => (load16 packet offset).toNat + wordSum packet nleft (offset + 2)

theorem inetCksumLoop_toNat (packet : Memory) (nleft : Nat) (offset : Int) (sum : BitVec 32) :
    (inetCksumLoop packet nleft offset sum).toNat = (sum.toNat + wordSum packet nleft offset) % 2 ^ 32 := by
  induction nleft, offset using wordSum.induct generalizing sum with
  | case1 offset =>
      rw [inetCksumLoop, wordSum, Nat.add_zero, Nat.mod_eq_of_lt sum.isLt]
  | case2 offset =>
      have byte := (packet offset).isLt
      have wide : (packet offset).toNat % 2 ^ 32 = (packet offset).toNat := Nat.mod_eq_of_lt (by omega)
      rw [inetCksumLoop, wordSum, BitVec.toNat_add, BitVec.toNat_setWidth, wide]
  | case3 nleft offset ih =>
      have word := (load16 packet offset).isLt
      have wide : (load16 packet offset).toNat % 2 ^ 32 = (load16 packet offset).toNat :=
        Nat.mod_eq_of_lt (by omega)
      rw [inetCksumLoop, wordSum, ih, BitVec.toNat_add, BitVec.toNat_setWidth, wide, Nat.mod_add_mod,
        Nat.add_assoc]

theorem wordSum_le (packet : Memory) (nleft : Nat) (offset : Int) :
    wordSum packet nleft offset ≤ 65535 * ((nleft + 1) / 2) := by
  induction nleft, offset using wordSum.induct with
  | case1 offset => exact Nat.zero_le _
  | case2 offset =>
      have byte := (packet offset).isLt
      rw [wordSum]
      omega
  | case3 nleft offset ih =>
      have word := (load16 packet offset).isLt
      rw [wordSum]
      omega

/-- The sum reads the bytes of the message only. -/
theorem wordSum_congr {packet other : Memory} {nleft : Nat} {offset : Int}
    (same : ∀ place, offset ≤ place → place < offset + nleft → packet place = other place) :
    wordSum packet nleft offset = wordSum other nleft offset := by
  induction nleft, offset using wordSum.induct with
  | case1 offset => rfl
  | case2 offset =>
      rw [wordSum, wordSum, same offset (by omega) (by omega)]
  | case3 nleft offset ih =>
      have word : load16 packet offset = load16 other offset :=
        load16_congr fun place low high => same place (by omega) (by omega)
      have rest := ih fun place low high => same place (by omega) (by omega)
      rw [wordSum, wordSum, word, rest]

/-! ## Folding the carries -/

/-- The folded sum: `inet_cksum` is its complement. -/
def fold (sum : Nat) : Nat :=
  let once := sum / 65536 + sum % 65536
  (once + once / 65536) % 65536

/-- Folding keeps the sum modulo 65535, and only an empty sum folds to zero. -/
theorem fold_spec {sum : Nat} (small : sum < 2 ^ 32) :
    (∃ carries, sum = 65535 * carries + fold sum) ∧ fold sum ≤ 65535 ∧ (fold sum = 0 → sum = 0) := by
  obtain ⟨high, low, split, below⟩ : ∃ high low, sum = 65536 * high + low ∧ low < 65536 :=
    ⟨sum / 65536, sum % 65536, by omega, by omega⟩
  obtain ⟨carry, rest, once, remains⟩ : ∃ carry rest, high + low = 65536 * carry + rest ∧ rest < 65536 :=
    ⟨(high + low) / 65536, (high + low) % 65536, by omega, by omega⟩
  have first : sum / 65536 + sum % 65536 = high + low := by omega
  have second : (high + low) / 65536 = carry := by omega
  have folded : fold sum = carry + rest := by
    simp only [fold, first, second]
    omega
  exact ⟨⟨high + carry, by omega⟩, by omega, fun none => by omega⟩

/-- A sum and the complement of its fold make all ones. -/
theorem fold_complement {sum : Nat} (small : sum < 2 ^ 31) : fold (sum + (65535 - fold sum)) = 65535 := by
  obtain ⟨⟨carries, split⟩, bound, zero⟩ := fold_spec (Nat.lt_trans small (by decide))
  have room : sum + (65535 - fold sum) < 2 ^ 32 := by omega
  obtain ⟨⟨more, whole⟩, limit, nothing⟩ := fold_spec room
  omega

theorem sshiftRight_toNat {sum : BitVec 32} (small : sum.toNat < 2 ^ 31) :
    (sum.sshiftRight 16).toNat = sum.toNat / 65536 := by
  have positive : sum.msb = false := BitVec.msb_eq_false_iff_two_mul_lt.mpr (by omega)
  rw [BitVec.sshiftRight_eq_of_msb_false positive, BitVec.toNat_ushiftRight, Nat.shiftRight_eq_div_pow]

theorem low_toNat (sum : BitVec 32) : (sum &&& 0xffff#32).toNat = sum.toNat % 65536 := by
  rw [BitVec.toNat_and]
  exact Nat.and_two_pow_sub_one_eq_mod sum.toNat 16

/-- The checksum of a message that fits into the receive buffer. -/
theorem inetCksum_toNat {packet : Memory} {length : Int} (short : length ≤ 65535) :
    (inetCksum packet length).toNat = 65535 - fold (wordSum packet length.toNat 0) := by
  have bound := wordSum_le packet length.toNat 0
  have sum := inetCksumLoop_toNat packet length.toNat 0 0#32
  rw [BitVec.toNat_zero, Nat.zero_add, Nat.mod_eq_of_lt (by omega)] at sum
  unfold inetCksum
  dsimp only
  generalize inetCksumLoop packet length.toNat 0 0#32 = total at sum
  have once : (total.sshiftRight 16 + (total &&& 0xffff#32)).toNat =
      total.toNat / 65536 + total.toNat % 65536 := by
    rw [BitVec.toNat_add, sshiftRight_toNat (by omega), low_toNat, Nat.mod_eq_of_lt (by omega)]
  generalize total.sshiftRight 16 + (total &&& 0xffff#32) = folded at once
  have twice : (folded + folded.sshiftRight 16).toNat = folded.toNat + folded.toNat / 65536 := by
    rw [BitVec.toNat_add, sshiftRight_toNat (by omega), Nat.mod_eq_of_lt (by omega)]
  rw [BitVec.toNat_setWidth, BitVec.toNat_not, twice, once, sum]
  unfold fold
  dsimp only
  omega

theorem inetCksumLoop_congr {packet other : Memory} {nleft : Nat} {offset : Int} {sum : BitVec 32}
    (same : ∀ place, offset ≤ place → place < offset + nleft → packet place = other place) :
    inetCksumLoop packet nleft offset sum = inetCksumLoop other nleft offset sum := by
  induction nleft, offset, sum using inetCksumLoop.induct packet with
  | case1 offset sum => rfl
  | case2 offset sum => rw [inetCksumLoop, inetCksumLoop, same offset (by omega) (by omega)]
  | case3 nleft offset sum ih =>
      have word : load16 packet offset = load16 other offset :=
        load16_congr fun place low high => same place (by omega) (by omega)
      rw [inetCksumLoop, inetCksumLoop, ← word]
      exact ih fun place low high => same place (by omega) (by omega)

/-- The checksum reads the bytes of the message only. -/
theorem inetCksum_congr {packet other : Memory} {length : Int}
    (same : ∀ place, 0 ≤ place → place < length → packet place = other place) :
    inetCksum packet length = inetCksum other length := by
  unfold inetCksum
  rw [inetCksumLoop_congr fun place low high => same place low (by omega)]

/-! ## Messages that carry their checksum -/

/-- A word stored in the second place of a message is added to the sum. -/
theorem wordSum_store16 (buf : Memory) (value : BitVec 16) (nleft : Nat) :
    wordSum (store16 buf 2 value) (nleft + 4) 0 = wordSum (store16 buf 2 0#16) (nleft + 4) 0 + value.toNat := by
  have behind : wordSum (store16 buf 2 value) nleft 4 = wordSum (store16 buf 2 0#16) nleft 4 := by
    refine wordSum_congr fun place low _ => ?_
    rw [store16_apart _ _ (by omega), store16_apart _ _ (by omega)]
  have front : load16 (store16 buf 2 value) 0 = load16 (store16 buf 2 0#16) 0 := by
    refine load16_congr fun place low high => ?_
    rw [store16_apart _ _ (by omega), store16_apart _ _ (by omega)]
  have zero := load16_store16 buf 2 0#16
  have here := load16_store16 buf 2 value
  calc
    wordSum (store16 buf 2 value) (nleft + 4) 0 = (load16 (store16 buf 2 value) 0).toNat +
        ((load16 (store16 buf 2 value) 2).toNat + wordSum (store16 buf 2 value) nleft 4) := rfl
    _ = (load16 (store16 buf 2 0#16) 0).toNat + ((load16 (store16 buf 2 0#16) 2).toNat +
        wordSum (store16 buf 2 0#16) nleft 4) + value.toNat := by
      rw [front, behind, zero, here, BitVec.toNat_zero]
      omega
    _ = wordSum (store16 buf 2 0#16) (nleft + 4) 0 + value.toNat := rfl

/-- What `pimdm_output` sends passes the check of `valid_packet`. -/
theorem inetCksum_written (buf : Memory) (type : Nat) {length : Int} (nonnegative : 0 ≤ length)
    (short : sizeofPim + length ≤ 65535) :
    inetCksum (writePimHeader buf type length) (sizeofPim + length) = 0 := by
  unfold writePimHeader
  dsimp only
  generalize store8 buf 0 (BitVec.ofNat 8 (2 * 16 + type % 16)) = typed
  obtain ⟨nleft, total⟩ : ∃ nleft : Nat, (sizeofPim + length).toNat = nleft + 4 :=
    ⟨length.toNat, by simp only [sizeofPim]; omega⟩
  have bound := wordSum_le (store16 typed 2 0#16) (nleft + 4) 0
  have cksum : (inetCksum (store16 typed 2 0#16) (sizeofPim + length)).toNat =
      65535 - fold (wordSum (store16 typed 2 0#16) (nleft + 4) 0) := by
    rw [inetCksum_toNat short, total]
  rw [store16_store16]
  apply BitVec.eq_of_toNat_eq
  rw [inetCksum_toNat short, total, wordSum_store16, cksum, fold_complement (by omega)]
  rfl

end PimDm.Refinement
