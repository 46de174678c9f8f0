import PimDm.Source.Kern
import Mathlib.Algebra.Order.Ring.Int

/-!
# The search for a receive buffer

The step of the search is a power of two, and the limit lies within one step of the size that is
tried next.  The step is halved until it is 1; from there one refusal is followed by a success.
-/

namespace PimDm.Property

open PimDm.Foundation PimDm.Source

/-- A kernel that accepts the sizes up to a limit. -/
def upTo (limit : Int) (size : Int) : Bool := decide (size ≤ limit)

/-- What is known when a round starts. -/
structure Narrowed (limit : Int) (search : Rcvbuf) : Prop where
  power : ∃ exponent : Nat, search.delta = 2 ^ exponent
  room : search.delta ≤ search.bufsize
  below : search.bufsize - search.delta ≤ limit
  above : limit < search.bufsize + search.delta
  proper : ∀ size ∈ search.tried, 1 ≤ size

/-- What is known when the loop is left. -/
structure Found (limit : Int) (search : Rcvbuf) : Prop where
  granted : search.granted = some search.bufsize
  fits : search.bufsize ≤ limit
  close : limit < search.bufsize + 1024
  proper : ∀ size ∈ search.tried, 1 ≤ size

/-- The step, and one more round while the next size is too large. -/
def roundsLeft (limit : Int) (search : Rcvbuf) : Nat :=
  search.delta.toNat + if search.bufsize ≤ limit then 0 else 1

/-! ## The step -/

theorem half_power (exponent : Nat) : ((2 : Int) ^ (exponent + 1)).tdiv 2 = 2 ^ exponent := by
  rw [pow_succ, Int.mul_tdiv_cancel _ two_ne_zero]

theorem halve_power {search : Rcvbuf} {exponent : Nat} (power : search.delta = 2 ^ exponent) :
    search.halve.delta = 2 ^ (exponent - 1) := by
  unfold Rcvbuf.halve
  dsimp only
  rw [power]
  cases exponent with
  | zero => rfl
  | succ exponent =>
      have large : (2 : Int) ^ (exponent + 1) > 1 := one_lt_pow₀ one_lt_two (Nat.succ_ne_zero exponent)
      rw [if_pos large, half_power, Nat.add_sub_cancel]

/-- The step is halved, or it was 1 already, and it comes below 1024 from 1024 at most. -/
theorem halve_cases {search : Rcvbuf} {exponent : Nat} (power : search.delta = 2 ^ exponent) :
    0 < search.halve.delta ∧
      (search.delta = 2 * search.halve.delta ∨ search.delta = 1 ∧ search.halve.delta = 1) ∧
      (search.halve.delta < 1024 → search.delta ≤ 1024) := by
  rw [halve_power power, power]
  refine ⟨pow_pos two_pos _, ?_, fun small => ?_⟩
  · cases exponent with
    | zero => exact Or.inr ⟨rfl, rfl⟩
    | succ exponent => exact Or.inl (pow_succ' 2 exponent)
  · have fewer : exponent - 1 < 10 := (pow_lt_pow_iff_right₀ one_lt_two).mp (small.trans_eq rfl)
    calc (2 : Int) ^ exponent ≤ 2 ^ 10 := pow_le_pow_right₀ one_le_two (by omega)
      _ = 1024 := rfl

/-! ## One round -/

variable {limit : Int} {search next last : Rcvbuf}

/-- The next round has the halved step, and is below a refused size or above an accepted one. -/
theorem rcvbufRound_again (goes : rcvbufRound (upTo limit) search = .again next) :
    next.delta = search.halve.delta ∧ next.tried = search.tried ++ [search.bufsize] ∧
      (limit < search.bufsize ∧ next.bufsize = search.bufsize - search.halve.delta ∨
        search.bufsize ≤ limit ∧ 1024 ≤ search.halve.delta ∧
          next.bufsize = search.bufsize + search.halve.delta) := by
  unfold rcvbufRound at goes
  dsimp only at goes
  split at goes
  case isTrue refused =>
    cases goes
    exact ⟨rfl, rfl, Or.inl ⟨Int.not_le.mp (of_decide_eq_false refused), rfl⟩⟩
  case isFalse accepted =>
    have fits : search.bufsize ≤ limit := of_decide_eq_true (Bool.of_not_eq_false accepted)
    split at goes
    case isTrue fine => cases goes
    case isFalse coarse =>
      cases goes
      exact ⟨rfl, rfl, Or.inr ⟨fits, Int.not_lt.mp coarse, rfl⟩⟩

/-- The loop is left with a size that has just been accepted. -/
theorem rcvbufRound_leave (leaves : rcvbufRound (upTo limit) search = .leave last) :
    search.halve.delta < 1024 ∧ search.bufsize ≤ limit ∧ last.bufsize = search.bufsize ∧
      last.granted = some search.bufsize ∧ last.tried = search.tried ++ [search.bufsize] := by
  unfold rcvbufRound at leaves
  dsimp only at leaves
  split at leaves
  case isTrue refused => cases leaves
  case isFalse accepted =>
    have took : upTo limit search.bufsize = true := Bool.of_not_eq_false accepted
    split at leaves
    case isFalse coarse => cases leaves
    case isTrue fine =>
      cases leaves
      exact ⟨fine, of_decide_eq_true took, rfl, if_pos took, rfl⟩

theorem Narrowed.positive (narrowed : Narrowed limit search) : 1 ≤ search.bufsize := by
  obtain ⟨exponent, power⟩ := narrowed.power
  have step : 0 < search.delta := power ▸ pow_pos two_pos exponent
  exact Int.le_trans step narrowed.room

theorem Narrowed.proper_next (narrowed : Narrowed limit search) :
    ∀ size ∈ search.tried ++ [search.bufsize], 1 ≤ size := by
  intro size member
  rcases List.mem_append.mp member with before | now
  · exact narrowed.proper size before
  · obtain rfl := List.mem_singleton.mp now
    exact narrowed.positive

/-- A round keeps what is known.  The number of rounds left falls with the step; where the step
stays 1 it falls because a refused size is one more than the limit. -/
theorem Narrowed.again (possible : 1 ≤ limit) (narrowed : Narrowed limit search)
    (goes : rcvbufRound (upTo limit) search = .again next) :
    Narrowed limit next ∧ roundsLeft limit next < roundsLeft limit search := by
  obtain ⟨delta, tried, moved⟩ := rcvbufRound_again goes
  obtain ⟨exponent, power⟩ := narrowed.power
  obtain ⟨positive, step, _⟩ := halve_cases power
  have room := narrowed.room
  have below := narrowed.below
  have above := narrowed.above
  constructor
  · refine ⟨⟨exponent - 1, delta.trans (halve_power power)⟩, ?_, ?_, ?_, tried ▸ narrowed.proper_next⟩
    all_goals rw [delta]
    all_goals omega
  · unfold roundsLeft
    rw [delta]
    split <;> split <;> omega

theorem Narrowed.leave (narrowed : Narrowed limit search)
    (leaves : rcvbufRound (upTo limit) search = .leave last) : Found limit last := by
  obtain ⟨fine, fits, same, granted, tried⟩ := rcvbufRound_leave leaves
  obtain ⟨exponent, power⟩ := narrowed.power
  obtain ⟨_, _, small⟩ := halve_cases power
  have step := small fine
  have above := narrowed.above
  refine ⟨by rw [granted, same], by omega, by omega, tried ▸ narrowed.proper_next⟩

theorem narrowing (possible : 1 ≤ limit) :
    Progress (rcvbufRound (upTo limit)) (Narrowed limit) (Found limit) (roundsLeft limit) where
  again _ _ narrowed goes := narrowed.again possible goes
  leave _ _ narrowed leaves := narrowed.leave leaves

/-! ## The search -/

/-- The first size is refused, and the loop starts with half of it. -/
theorem narrowed_first {exponent : Nat} (possible : 1 ≤ limit) (scarce : limit < 2 ^ (exponent + 1)) :
    Narrowed limit ((Rcvbuf.init (2 ^ (exponent + 1))).setsockopt (upTo limit)).lower := by
  have half := half_power exponent
  have twice : (2 : Int) ^ (exponent + 1) = 2 ^ exponent + 2 ^ exponent := by
    rw [pow_succ, mul_two]
  have positive : (0 : Int) < 2 ^ exponent := pow_pos two_pos exponent
  refine ⟨⟨exponent, half⟩, ?_, ?_, ?_, fun size asked => ?_⟩
  · change ((2 : Int) ^ (exponent + 1)).tdiv 2 ≤ 2 ^ (exponent + 1) - ((2 : Int) ^ (exponent + 1)).tdiv 2
    omega
  · change (2 : Int) ^ (exponent + 1) - ((2 : Int) ^ (exponent + 1)).tdiv 2 -
      ((2 : Int) ^ (exponent + 1)).tdiv 2 ≤ limit
    omega
  · change limit < (2 : Int) ^ (exponent + 1) - ((2 : Int) ^ (exponent + 1)).tdiv 2 +
      ((2 : Int) ^ (exponent + 1)).tdiv 2
    omega
  · obtain rfl := List.mem_singleton.mp asked
    change 1 ≤ (2 : Int) ^ (exponent + 1)
    omega

/-- From a power of two above the limit the search ends, and the loop has been left. -/
theorem rcvbufSearch_found {exponent : Nat} (even : 1 ≤ exponent) (possible : 1 ≤ limit)
    (scarce : limit < 2 ^ exponent) :
    ∃ rounds last, (∀ fuel, rounds ≤ fuel → rcvbufSearch (upTo limit) fuel (2 ^ exponent) = some last) ∧
      Found limit last := by
  obtain ⟨exponent, rfl⟩ := Nat.exists_eq_add_of_le' even
  have refused : upTo limit (2 ^ (exponent + 1)) = false := decide_eq_false (Int.not_le.mpr scarce)
  obtain ⟨last, ends, found⟩ := whileTrue_ends (narrowing possible) (narrowed_first possible scarce)
  exact ⟨_, last, fun fuel enough => (if_pos refused).trans (ends fuel enough), found⟩

/-- The daemon exits when the limit is below the least size it needs, and does not when the limit
is 1023 above it. -/
theorem kSetRcvbuf_returns {exponent : Nat} (even : 1 ≤ exponent) (possible : 1 ≤ limit)
    (scarce : limit < 2 ^ exponent) (minsize : Int) :
    ∃ rounds, ∀ fuel, rounds ≤ fuel →
      (limit < minsize → kSetRcvbuf (upTo limit) fuel (2 ^ exponent) minsize = some (.error .exit)) ∧
      (minsize + 1023 ≤ limit → kSetRcvbuf (upTo limit) fuel (2 ^ exponent) minsize = some (.ok ())) := by
  obtain ⟨rounds, last, ends, found⟩ := rcvbufSearch_found even possible scarce
  have fits := found.fits
  have close := found.close
  have refused : upTo limit (2 ^ exponent) = false := decide_eq_false (Int.not_le.mpr scarce)
  refine ⟨rounds, fun fuel enough => ⟨fun less => ?_, fun more => ?_⟩⟩
  · have short : last.bufsize < minsize := by omega
    simp [kSetRcvbuf, ends fuel enough, refused, short]
  · have long : ¬ last.bufsize < minsize := by omega
    simp [kSetRcvbuf, ends fuel enough, long]

/-- The search from a power of two above the limit ends with a size that the kernel has accepted,
less than 1024 below the limit, and never asks for a size below 1. -/
theorem receive_buffer_found (exponent : Nat) (limit : Int) (even : 1 ≤ exponent) (possible : 1 ≤ limit)
    (scarce : limit < 2 ^ exponent) :
    ∃ rounds last, (∀ fuel, rounds ≤ fuel → rcvbufSearch (upTo limit) fuel (2 ^ exponent) = some last) ∧
      (∀ size ∈ last.tried, 1 ≤ size) ∧ last.granted = some last.bufsize ∧
      last.bufsize ≤ limit ∧ limit < last.bufsize + 1024 := by
  obtain ⟨rounds, last, ends, found⟩ := rcvbufSearch_found even possible scarce
  exact ⟨rounds, last, ends, found.proper, found.granted, found.fits, found.close⟩

/-- The size that `init_igmp` and `init_pim` ask for, where the kernel allows 212992 bytes. -/
theorem receive_buffer_found_linux :
    ∃ rounds last, (∀ fuel, rounds ≤ fuel → rcvbufSearch (upTo 212992) fuel (256 * 1024) = some last) ∧
      (∀ size ∈ last.tried, 1 ≤ size) ∧ last.granted = some last.bufsize ∧
      last.bufsize ≤ 212992 ∧ 212992 < last.bufsize + 1024 :=
  receive_buffer_found 18 212992 (by decide) (by decide) (by decide)

end PimDm.Property
