import PimDm.Foundation.Program

/-!
# Programs with guarded accesses

A program is compared with the same program whose accesses are guarded, each
stopping with `stray` where it is not allowed.  A `Course` says of such a pair, in
advance, whether every access on the way is allowed and which value is returned.
Courses compose as the programs do.
-/

namespace PimDm.Foundation

variable {σ ε α β : Type}

/-- What is known of a program with guarded accesses: whether it makes only allowed ones,
and its value, none if it stops for another reason. -/
structure Course (α : Type) where
  fits : Prop
  next : Option α

namespace Course

/-- No access, and a value. -/
def value (result : α) : Course α := ⟨True, some result⟩

/-- One access. -/
def access (allowed : Prop) : Course Unit := ⟨allowed, some ()⟩

/-- One course after another, which is only taken if the first returns. -/
def andThen (first : Course α) (rest : α → Course β) : Course β where
  fits := first.fits ∧ ∀ value, first.next = some value → (rest value).fits
  next := first.next.bind fun value => (rest value).next

/-- The course of a counted loop. -/
def times (round : α → Course α) : Nat → α → Course α
  | 0, result => value result
  | count + 1, result => (round result).andThen (times round count)

instance decidableValue (result : α) : Decidable (value result).fits := isTrue trivial

instance decidableAccess (allowed : Prop) [Decidable allowed] : Decidable (access allowed).fits :=
  inferInstanceAs (Decidable allowed)

instance decidableAndThen (first : Course α) (rest : α → Course β) [Decidable first.fits]
    [∀ value, Decidable (rest value).fits] : Decidable (first.andThen rest).fits :=
  inferInstanceAs (Decidable (first.fits ∧ ∀ value ∈ first.next, (rest value).fits))

instance decidableIte (condition : Prop) [Decidable condition] (yes no : Course α) [Decidable yes.fits]
    [Decidable no.fits] : Decidable (if condition then yes else no).fits :=
  if holds : condition then decidable_of_iff yes.fits (by rw [if_pos holds])
  else decidable_of_iff no.fits (by rw [if_neg holds])

instance decidableTimes (round : α → Course α) [each : ∀ value, Decidable (round value).fits] :
    (count : Nat) → (result : α) → Decidable (times round count result).fits
  | 0, _ => isTrue trivial
  | count + 1, result =>
      have := decidableTimes round count
      inferInstanceAs (Decidable ((round result).andThen (times round count)).fits)

theorem ite_fits {condition : Prop} [Decidable condition] {yes no : Course α} (left : condition → yes.fits)
    (right : ¬ condition → no.fits) : (if condition then yes else no).fits := by
  by_cases holds : condition
  · rw [if_pos holds]
    exact left holds
  · rw [if_neg holds]
    exact right holds

end Course

/-- From the states in `before`, the guarded program does what the plain one does if the
course fits and strays if it does not; the plain one returns the course's value in a state
in `after`, or stops with a fault of its own. -/
structure Takes (stray : ε) (before after : σ → Prop) (guarded plain : Program σ ε α) (course : Course α) :
    Prop where
  same : course.fits → ∀ s, before s → guarded s = plain s
  strays : ¬ course.fits → ∀ s, before s → Fails guarded s stray
  ends : ∀ s, before s →
    (∃ fault, fault ≠ stray ∧ Fails plain s fault ∧ course.next = none) ∨
    ∃ result s', Runs plain s result s' ∧ course.next = some result ∧ after s'

namespace Takes

variable {stray : ε} {before middle after : σ → Prop}

/-- A program without accesses takes the course of its value. -/
theorem unguarded {program : Program σ ε α} {next : Option α}
    (ends : ∀ s, before s → (∃ fault, fault ≠ stray ∧ Fails program s fault ∧ next = none) ∨
      ∃ result s', Runs program s result s' ∧ next = some result ∧ after s') :
    Takes stray before after program program ⟨True, next⟩ :=
  ⟨fun _ _ _ => rfl, fun outside => (outside trivial).elim, ends⟩

theorem pure (result : α) : Takes stray before before (pure result) (pure result) (.value result) :=
  unguarded fun s holds => Or.inr ⟨result, s, runs_pure.mpr ⟨rfl, rfl⟩, rfl, holds⟩

/-- A guard in place of nothing. -/
theorem guard (allowed : Prop) [Decidable allowed] :
    Takes stray before before (if allowed then Pure.pure () else throw stray : Program σ ε Unit)
      (Pure.pure ()) (.access allowed) where
  same fits s _ := by
    have holds : allowed := fits
    rw [if_pos holds]
  strays outside s _ := by
    have denied : ¬ allowed := outside
    rw [if_neg denied]
    exact fails_throw.mpr rfl
  ends s holds := Or.inr ⟨(), s, runs_pure.mpr ⟨rfl, rfl⟩, rfl, holds⟩

theorem mono {guarded plain : Program σ ε α} {course : Course α} {earlier later : σ → Prop}
    (takes : Takes stray before after guarded plain course) (start : ∀ s, earlier s → before s)
    (stop : ∀ s, after s → later s) : Takes stray earlier later guarded plain course where
  same fits s holds := takes.same fits s (start s holds)
  strays outside s holds := takes.strays outside s (start s holds)
  ends s holds := by
    rcases takes.ends s (start s holds) with fails | ⟨result, s', ran, next, left⟩
    · exact Or.inl fails
    · exact Or.inr ⟨result, s', ran, next, stop s' left⟩

theorem congr {guarded plain guarded' plain' : Program σ ε α} {course : Course α}
    (takes : Takes stray before after guarded plain course) (left : ∀ s, before s → guarded' s = guarded s)
    (right : ∀ s, before s → plain' s = plain s) : Takes stray before after guarded' plain' course where
  same fits s holds := (left s holds).trans ((takes.same fits s holds).trans (right s holds).symm)
  strays outside s holds := (left s holds).trans (takes.strays outside s holds)
  ends s holds := by
    rcases takes.ends s holds with ⟨fault, other, fails, none⟩ | ⟨result, s', ran, next, left⟩
    · exact Or.inl ⟨fault, other, (right s holds).trans fails, none⟩
    · exact Or.inr ⟨result, s', (right s holds).trans ran, next, left⟩

theorem bind {guarded plain : Program σ ε α} {first : Course α} {guardedRest plainRest : α → Program σ ε β}
    {rest : α → Course β} (head : Takes stray before middle guarded plain first)
    (tail : ∀ value, first.next = some value →
      Takes stray middle after (guardedRest value) (plainRest value) (rest value)) :
    Takes stray before after (guarded >>= guardedRest) (plain >>= plainRest) (first.andThen rest) where
  same fits s holds := by
    have started := head.same fits.1 s holds
    change Except.bind (guarded s) _ = Except.bind (plain s) _
    rw [started]
    rcases head.ends s holds with ⟨fault, _, fails, _⟩ | ⟨value, s', ran, next, kept⟩
    · rw [show plain s = .error fault from fails]
      rfl
    · rw [show plain s = .ok (value, s') from ran]
      exact (tail value next).same (fits.2 value next) s' kept
  strays outside s holds := by
    by_cases started : first.fits
    · obtain ⟨value, failing⟩ := not_forall.mp fun all => outside ⟨started, all⟩
      obtain ⟨next, stops⟩ := Classical.not_imp.mp failing
      rcases head.ends s holds with ⟨fault, _, _, none⟩ | ⟨result, s', ran, known, kept⟩
      · cases next.symm.trans none
      · obtain rfl := Option.some.inj (next.symm.trans known)
        have also : Runs guarded s value s' := (head.same started s holds).trans ran
        exact fails_bind.mpr (Or.inr ⟨value, s', also, (tail value next).strays stops s' kept⟩)
    · exact fails_bind.mpr (Or.inl (head.strays started s holds))
  ends s holds := by
    rcases head.ends s holds with ⟨fault, other, fails, none⟩ | ⟨value, s', ran, next, kept⟩
    · refine Or.inl ⟨fault, other, fails_bind.mpr (Or.inl fails), ?_⟩
      simp only [Course.andThen, none, Option.bind_none]
    · rcases (tail value next).ends s' kept with ⟨fault, other, fails, none⟩ | ⟨result, last, continued, final, left⟩
      · refine Or.inl ⟨fault, other, fails_bind.mpr (Or.inr ⟨value, s', ran, fails⟩), ?_⟩
        simp only [Course.andThen, next, Option.bind_some, none]
      · refine Or.inr ⟨result, last, runs_bind.mpr ⟨value, s', ran, continued⟩, ?_, left⟩
        simp only [Course.andThen, next, Option.bind_some, final]

theorem ite {condition : Prop} [Decidable condition] {guardedYes plainYes guardedNo plainNo : Program σ ε α}
    {yes no : Course α} (left : condition → Takes stray before after guardedYes plainYes yes)
    (right : ¬ condition → Takes stray before after guardedNo plainNo no) :
    Takes stray before after (if condition then guardedYes else guardedNo)
      (if condition then plainYes else plainNo) (if condition then yes else no) := by
  by_cases holds : condition
  · simpa only [if_pos holds] using left holds
  · simpa only [if_neg holds] using right holds

theorem times {guarded plain : α → Program σ ε α} {round : α → Course α}
    (each : ∀ value, Takes stray before before (guarded value) (plain value) (round value)) (count : Nat)
    (value : α) : Takes stray before before (Foundation.times guarded count value)
      (Foundation.times plain count value) (Course.times round count value) := by
  induction count generalizing value with
  | zero => exact pure value
  | succ count ih => exact bind (each value) fun next _ => ih next

/-- The plain program does not stray. -/
theorem plain_stays {guarded plain : Program σ ε α} {course : Course α}
    (takes : Takes stray before after guarded plain course) {s : σ} (holds : before s) : ¬ Fails plain s stray := by
  intro fails
  rcases takes.ends s holds with ⟨fault, other, also, _⟩ | ⟨_, _, ran, _⟩
  · exact other (Except.error.inj (also.symm.trans fails))
  · exact not_fails_of_runs ran fails

/-- Where the guarded program completes, the plain one has done the same. -/
theorem runs {guarded plain : Program σ ε α} {course : Course α}
    (takes : Takes stray before after guarded plain course) {s s' : σ} {result : α} (holds : before s)
    (run : Runs guarded s result s') : Runs plain s result s' := by
  by_cases fits : course.fits
  · exact (takes.same fits s holds).symm.trans run
  · exact (not_fails_of_runs run (takes.strays fits s holds)).elim

/-- The course fits exactly when the guarded program does not stray. -/
theorem fits_iff {guarded plain : Program σ ε α} {course : Course α}
    (takes : Takes stray before after guarded plain course) {s : σ} (holds : before s) :
    course.fits ↔ ¬ Fails guarded s stray := by
  refine ⟨fun fits fails => ?_, fun stays => not_not.mp fun outside => stays (takes.strays outside s holds)⟩
  exact takes.plain_stays holds ((takes.same fits s holds).symm.trans fails)

/-- Guarding the accesses makes no difference exactly when they are all allowed. -/
theorem same_iff {guarded plain : Program σ ε α} {course : Course α}
    (takes : Takes stray before after guarded plain course) {s : σ} (holds : before s) :
    guarded s = plain s ↔ course.fits := by
  refine ⟨fun equal => (takes.fits_iff holds).mpr fun fails => ?_, fun fits => takes.same fits s holds⟩
  exact takes.plain_stays holds (equal.symm.trans fails)

end Takes

end PimDm.Foundation
