import PimDm.Source.Reading
import PimDm.Refinement.Models
import PimDm.Property.Session

/-!
# The options of a Hello

`get_hold_time` looks at an option whenever the length that is left is not one of 0 to 3, also
after an option that was longer than the packet, and takes the value of a hold time without
asking whether it is there.  It stays inside the packet exactly if every option it passes
and the value fit, and then it finds the hold time that the options announce.
-/

namespace PimDm.Property

open PimDm.Foundation PimDm.Source PimDm.Refinement

variable {data : Memory} {place left length : Int}

def optionType (data : Memory) (place : Int) : BitVec 16 :=
  ntohs (load16 data place)

def optionLength (data : Memory) (place : Int) : Nat :=
  (ntohs (load16 data (place + 2))).toNat

def optionValue (data : Memory) (place : Int) : Int :=
  (ntohs (load16 data (place + 4))).toNat

/-- The options before the first hold time fit in the bytes that are left, and so does its
value if its length is right. -/
inductive OptionsFit (data : Memory) : Int → Int → Prop
  | rest {place left : Int} (low : 0 ≤ left) (short : left < 4) : OptionsFit data place left
  | badLength {place left : Int} (header : 4 ≤ left) (type : optionType data place = 1)
      (bad : optionLength data place ≠ 2) : OptionsFit data place left
  | holdTime {place left : Int} (value : 6 ≤ left) (type : optionType data place = 1)
      (two : optionLength data place = 2) : OptionsFit data place left
  | skip {place left : Int} (type : optionType data place ≠ 1) (fits : 4 + optionLength data place ≤ left)
      (rest : OptionsFit data (place + 4 + optionLength data place) (left - 4 - optionLength data place)) :
      OptionsFit data place left

/-- The first option of type 1 is a hold time, and it and the options before it are inside. -/
inductive Announces (data : Memory) : Int → Int → Int → Prop
  | here {place left : Int} (value : 6 ≤ left) (type : optionType data place = 1)
      (two : optionLength data place = 2) : Announces data place left (optionValue data place)
  | later {place left value : Int} (type : optionType data place ≠ 1)
      (fits : 4 + optionLength data place ≤ left)
      (rest : Announces data (place + 4 + optionLength data place) (left - 4 - optionLength data place) value) :
      Announces data place left value

/-- The announced hold time, or -1 if none is. -/
def IsHoldTime (data : Memory) (place left value : Int) : Prop :=
  Announces data place left value ∨ value = -1 ∧ ∀ other, ¬ Announces data place left other

/-- The parser finds the hold time with at most a quarter of the length as tests of its loop,
and reads no byte outside of the packet. -/
structure ParsesHello (data : Memory) (length : Int) : Prop where
  ends : ∃ value, IsHoldTime data sizeofPim (length - sizeofPim) value ∧
    ∀ fuel : Nat, length / 4 ≤ fuel → getHoldTimeLoop data fuel sizeofPim (length - sizeofPim) = .ok value
  reads : ∀ fuel s, readingHoldTimeLoop (inside length) data fuel sizeofPim (length - sizeofPim) s =
    readingHoldTimeLoop freely data fuel sizeofPim (length - sizeofPim) s

/-! ## One turn of the loop -/

theorem getHoldTimeLoop_succ (data : Memory) (fuel : Nat) (place left : Int) :
    getHoldTimeLoop data (fuel + 1) place left =
      if 0 ≤ left ∧ left < 4 then .ok (-1)
      else if optionType data place = 1 then
        if optionLength data place ≠ 2 then .ok (-1) else .ok (optionValue data place)
      else getHoldTimeLoop data fuel (place + 4 + optionLength data place) (left - 4 - optionLength data place) :=
  rfl

theorem readingHoldTimeLoop_succ (touch : Touch) (data : Memory) (fuel : Nat) (place left : Int) :
    readingHoldTimeLoop touch data (fuel + 1) place left =
      if 0 ≤ left ∧ left < 4 then pure (-1)
      else touch place 4 >>= fun _ =>
        if optionType data place = 1 then
          if optionLength data place ≠ 2 then pure (-1)
          else touch (place + 4) 2 >>= fun _ => pure (optionValue data place)
        else readingHoldTimeLoop touch data fuel (place + 4 + optionLength data place)
          (left - 4 - optionLength data place) :=
  rfl

theorem inside_bind {α : Type} {offset size : Int} (low : 0 ≤ offset) (high : offset + size ≤ length)
    (rest : Unit → Act α) : (inside length offset size >>= rest) = rest () := by
  rw [inside, if_pos ⟨low, high⟩]
  exact pure_bind _ _

theorem outside_bind {α : Type} {offset size : Int} (high : length < offset + size) (rest : Unit → Act α) :
    (inside length offset size >>= rest) = throw .outOfBounds := by
  rw [inside, if_neg (by omega)]
  rfl

theorem freely_bind {α : Type} (offset size : Int) (rest : Unit → Act α) :
    (freely offset size >>= rest) = rest () :=
  pure_bind _ _

/-- Without a guard no read is a fault. -/
theorem freely_ne_outside (fuel : Nat) (s : Daemon) :
    readingHoldTimeLoop freely data fuel place left s ≠ .error .outOfBounds := by
  rw [readingHoldTimeLoop_freely]
  cases getHoldTimeLoop data fuel place left with
  | ok value => exact nofun
  | error fault => exact nofun

/-! ## Options that fit -/

theorem OptionsFit.nonneg (fit : OptionsFit data place left) : 0 ≤ left := by
  cases fit with
  | rest low _ => exact low
  | badLength header _ _ => omega
  | holdTime value _ _ => omega
  | skip _ fits _ => omega

theorem announces_here_iff (type : optionType data place = 1) (value : Int) :
    Announces data place left value ↔
      6 ≤ left ∧ optionLength data place = 2 ∧ value = optionValue data place := by
  constructor
  · intro announced
    cases announced with
    | here inside _ two => exact ⟨inside, two, rfl⟩
    | later other _ _ => exact absurd type other
  · rintro ⟨inside, two, rfl⟩
    exact .here inside type two

theorem announces_later_iff (type : optionType data place ≠ 1) (fits : 4 + optionLength data place ≤ left)
    (value : Int) : Announces data place left value ↔
      Announces data (place + 4 + optionLength data place) (left - 4 - optionLength data place) value := by
  constructor
  · intro announced
    cases announced with
    | here _ other _ => exact absurd other type
    | later _ _ rest => exact rest
  · exact .later type fits

theorem not_announces_short (short : left < 4) (value : Int) : ¬ Announces data place left value := by
  intro announced
  cases announced with
  | here inside _ _ => omega
  | later _ fits _ => omega

/-- Each option that is passed is at least four bytes of what is left. -/
theorem OptionsFit.parses (fit : OptionsFit data place left) :
    ∃ value, IsHoldTime data place left value ∧
      ∀ fuel : Nat, left / 4 + 1 ≤ fuel → getHoldTimeLoop data fuel place left = .ok value := by
  induction fit with
  | rest low short =>
      refine ⟨-1, Or.inr ⟨rfl, not_announces_short short⟩, fun fuel enough => ?_⟩
      obtain ⟨fuel, rfl⟩ := Nat.exists_eq_add_one_of_ne_zero (n := fuel) (by omega)
      rw [getHoldTimeLoop_succ, if_pos ⟨low, short⟩]
  | @badLength place left header type bad =>
      refine ⟨-1, Or.inr ⟨rfl, fun value announced => ?_⟩, fun fuel enough => ?_⟩
      · exact bad ((announces_here_iff type value).mp announced).2.1
      · obtain ⟨fuel, rfl⟩ := Nat.exists_eq_add_one_of_ne_zero (n := fuel) (by omega)
        rw [getHoldTimeLoop_succ, if_neg (by omega), if_pos type, if_pos bad]
  | @holdTime place left value type two =>
      refine ⟨_, Or.inl (.here value type two), fun fuel enough => ?_⟩
      obtain ⟨fuel, rfl⟩ := Nat.exists_eq_add_one_of_ne_zero (n := fuel) (by omega)
      rw [getHoldTimeLoop_succ, if_neg (by omega), if_pos type, if_neg (not_not.mpr two)]
  | @skip place left type fits rest ih =>
      obtain ⟨value, found, parsed⟩ := ih
      have same := announces_later_iff type fits
      refine ⟨value, ?_, fun fuel enough => ?_⟩
      · simp only [IsHoldTime, same]
        exact found
      · obtain ⟨fuel, rfl⟩ := Nat.exists_eq_add_one_of_ne_zero (n := fuel) (by omega)
        rw [getHoldTimeLoop_succ, if_neg (by omega), if_neg type]
        exact parsed fuel (by omega)

/-- The bytes that are left end where the packet ends, so those of an option that fits are
inside of it. -/
theorem OptionsFit.reads (fit : OptionsFit data place left) (start : 0 ≤ place) (ends : place + left = length)
    (fuel : Nat) (s : Daemon) :
    readingHoldTimeLoop (inside length) data fuel place left s = readingHoldTimeLoop freely data fuel place left s := by
  induction fit generalizing fuel with
  | rest low short =>
      cases fuel with
      | zero => rfl
      | succ fuel => simp only [readingHoldTimeLoop_succ, if_pos (And.intro low short)]
  | @badLength place left header type bad =>
      cases fuel with
      | zero => rfl
      | succ fuel =>
          have more : ¬ (0 ≤ left ∧ left < 4) := by omega
          simp only [readingHoldTimeLoop_succ, if_neg more, if_pos type, if_pos bad]
          rw [inside_bind start (by omega), freely_bind]
  | @holdTime place left value type two =>
      cases fuel with
      | zero => rfl
      | succ fuel =>
          have more : ¬ (0 ≤ left ∧ left < 4) := by omega
          simp only [readingHoldTimeLoop_succ, if_neg more, if_pos type, if_neg (not_not.mpr two)]
          rw [inside_bind start (by omega), inside_bind (by omega) (by omega), freely_bind, freely_bind]
  | @skip place left type fits rest ih =>
      cases fuel with
      | zero => rfl
      | succ fuel =>
          have more : ¬ (0 ≤ left ∧ left < 4) := by omega
          simp only [readingHoldTimeLoop_succ, if_neg more, if_neg type]
          rw [inside_bind start (by omega), freely_bind]
          exact ih (by omega) (by omega) fuel

/-! ## Options that do not -/

/-- A parser that never reads outside has met options that fit; the induction is on a bound
of what is left, which each option shortens. -/
theorem optionsFit_of_reads (turns : Nat) (bound : left < 4 * turns) (start : 0 ≤ place)
    (ends : place + left = length) (s : Daemon)
    (reads : ∀ fuel, readingHoldTimeLoop (inside length) data fuel place left s =
      readingHoldTimeLoop freely data fuel place left s) : OptionsFit data place left := by
  induction turns generalizing place left with
  | zero =>
      -- Nothing is left, or less: the next option is read outside.
      exfalso
      have stopped := reads 1
      rw [readingHoldTimeLoop_succ, if_neg (by omega), outside_bind (by omega)] at stopped
      exact freely_ne_outside 1 s stopped.symm
  | succ turns ih =>
      by_cases short : 0 ≤ left ∧ left < 4
      · exact .rest short.1 short.2
      by_cases negative : left < 0
      · exact ih (by omega) start ends reads
      by_cases type : optionType data place = 1
      · by_cases two : optionLength data place = 2
        · refine .holdTime ?_ type two
          by_contra outside
          have stopped := reads 1
          rw [readingHoldTimeLoop_succ, if_neg short, inside_bind start (by omega), if_pos type,
            if_neg (not_not.mpr two), outside_bind (by omega)] at stopped
          exact freely_ne_outside 1 s stopped.symm
        · exact .badLength (by omega) type two
      · have rest : OptionsFit data (place + 4 + optionLength data place) (left - 4 - optionLength data place) := by
          refine ih (by omega) (by omega) (by omega) fun fuel => ?_
          have next := reads (fuel + 1)
          rw [readingHoldTimeLoop_succ, readingHoldTimeLoop_succ, if_neg short, if_neg short,
            inside_bind start (by omega), freely_bind, if_neg type, if_neg type] at next
          exact next
        have fits := rest.nonneg
        exact .skip type (by omega) rest

theorem hello_options_fit (data : Memory) (length : Int) :
    ParsesHello data length ↔ OptionsFit data sizeofPim (length - sizeofPim) := by
  have start : (0 : Int) ≤ sizeofPim := by decide
  have ends : sizeofPim + (length - sizeofPim) = length := by omega
  have header : sizeofPim = 4 := rfl
  constructor
  · intro parses
    exact optionsFit_of_reads ((length - sizeofPim).toNat + 1) (by omega) start ends (Daemon.blank fun _ => 0)
      fun fuel => parses.reads fuel _
  · intro fit
    obtain ⟨value, found, parsed⟩ := fit.parses
    exact ⟨⟨value, found, fun fuel enough => parsed fuel (by omega)⟩, fit.reads start ends⟩

/-- The parser is right exactly on packets whose options fit, and `get_hold_time` then returns
the announced hold time of every packet in a receive buffer. -/
theorem hello_parsed (data : Memory) (length : Int) :
    (ParsesHello data length ↔ OptionsFit data sizeofPim (length - sizeofPim)) ∧
      (OptionsFit data sizeofPim (length - sizeofPim) → length ≤ 64 * 1024 →
        ∃ value, IsHoldTime data sizeofPim (length - sizeofPim) value ∧
          ∀ s, Runs (getHoldTime data length) s value s) := by
  have header : sizeofPim = 4 := rfl
  refine ⟨hello_options_fit data length, fun fit small => ?_⟩
  obtain ⟨value, found, parsed⟩ := fit.parses
  exact ⟨value, found, fun s => runs_liftHeap.mpr ⟨parsed _ (by omega), rfl⟩⟩

/-- A Hello that ends behind the length of its hold time. -/
def cutHello : Memory :=
  writePimHeader (store8 (store8 (fun _ => 0) 5 1) 7 2) pimHello 4

/-- The value is read behind the end of the packet. -/
theorem hello_misparsed :
    ¬ ∀ (host : Host) (s : Daemon) (src : Addr) (data : Memory) (length : Int),
      Runs (validPacket host src data length) s true s → ParsesHello data length := by
  intro all
  have accepted : ∀ s, Runs (validPacket router (stationOn 2 9) cutHello 8) s true s := by
    intro s
    rw [validPacket, if_neg (by decide +kernel), if_neg (by decide +kernel)]
    exact runs_pure.mpr ⟨by decide +kernel, rfl⟩
  have parses := all router (Daemon.blank fun _ => 0) _ _ _ (accepted _)
  have type : optionType cutHello 4 = 1 := by decide +kernel
  have two : optionLength cutHello 4 = 2 := by decide +kernel
  have fit : OptionsFit cutHello 4 4 := (hello_options_fit _ _).mp parses
  cases fit with
  | rest _ short => exact absurd short (by decide)
  | badLength _ _ bad => exact bad two
  | holdTime value _ _ => exact absurd value (by decide)
  | skip other _ _ => exact other type

/-- A Hello as the daemon lays it out. -/
def fullHello : Memory :=
  writePimHeader (writeHello (fun _ => 0) 105) pimHello 6

theorem hello_parsed_full :
    ParsesHello fullHello 10 ∧ ∃ value, IsHoldTime fullHello sizeofPim (10 - sizeofPim) value ∧
      ∀ s, Runs (getHoldTime fullHello 10) s value s := by
  have fit : OptionsFit fullHello sizeofPim (10 - sizeofPim) :=
    .holdTime (by decide) (by decide +kernel) (by decide +kernel)
  obtain ⟨right, returned⟩ := hello_parsed fullHello 10
  exact ⟨right.mpr fit, returned fit (by decide)⟩

end PimDm.Property
