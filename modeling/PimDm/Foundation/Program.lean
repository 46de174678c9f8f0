import Mathlib.Logic.Basic

/-!
# Programs with a state and faults

A program reads and writes a state and either returns a value or stops with a
fault.  `Runs` is its big-step meaning: a faulting program runs to nothing.
`Within` lifts a relation on states to programs; a reflexive and transitive
relation that holds of every primitive step holds of every program built from
those steps, loops included.
-/

namespace PimDm.Foundation

/-- Sequential programs over the state `σ` that may stop with a fault `ε`. -/
abbrev Program (σ ε : Type) := StateT σ (Except ε)

variable {σ ε α β : Type}

/-- `program` started in `start` returns `value` and leaves the state `final`. -/
def Runs (program : Program σ ε α) (start : σ) (value : α) (final : σ) : Prop :=
  program start = .ok (value, final)

@[simp] theorem runs_pure {value result : α} {start final : σ} :
    Runs (pure value : Program σ ε α) start result final ↔ result = value ∧ final = start := by
  constructor
  · intro run
    cases run
    exact ⟨rfl, rfl⟩
  · rintro ⟨rfl, rfl⟩
    rfl

@[simp] theorem runs_bind {first : Program σ ε α} {rest : α → Program σ ε β}
    {start final : σ} {result : β} :
    Runs (first >>= rest) start result final ↔
      ∃ value middle, Runs first start value middle ∧ Runs (rest value) middle result final := by
  have unfolded : (first >>= rest) start =
      Except.bind (first start) fun pair => rest pair.1 pair.2 := rfl
  unfold Runs
  rw [unfolded]
  cases ran : first start with
  | error fault => simp [Except.bind]
  | ok pair =>
      obtain ⟨value, middle⟩ := pair
      constructor
      · intro run
        exact ⟨value, middle, rfl, run⟩
      · rintro ⟨_, _, same, run⟩
        cases same
        exact run

@[simp] theorem runs_map {program : Program σ ε α} {function : α → β}
    {start final : σ} {result : β} :
    Runs (function <$> program) start result final ↔
      ∃ value, Runs program start value final ∧ result = function value := by
  rw [map_eq_pure_bind, runs_bind]
  constructor
  · rintro ⟨value, middle, ran, last⟩
    obtain ⟨rfl, rfl⟩ := runs_pure.mp last
    exact ⟨value, ran, rfl⟩
  · rintro ⟨value, ran, rfl⟩
    exact ⟨value, final, ran, runs_pure.mpr ⟨rfl, rfl⟩⟩

@[simp] theorem runs_get {start value final : σ} :
    Runs (get : Program σ ε σ) start value final ↔ value = start ∧ final = start :=
  runs_pure

theorem runs_get_bind {rest : σ → Program σ ε α} {start final : σ} {value : α} :
    Runs (get >>= rest) start value final ↔ Runs (rest start) start value final := by
  rw [runs_bind]
  constructor
  · rintro ⟨_, _, got, run⟩
    obtain ⟨rfl, rfl⟩ := runs_get.mp got
    exact run
  · intro run
    exact ⟨start, start, runs_get.mpr ⟨rfl, rfl⟩, run⟩

@[simp] theorem runs_set {state start final : σ} {value : PUnit} :
    Runs (set state : Program σ ε PUnit) start value final ↔ final = state := by
  constructor
  · intro run
    cases run
    rfl
  · rintro rfl
    rfl

@[simp] theorem runs_modify {function : σ → σ} {start final : σ} {value : PUnit} :
    Runs (modify function : Program σ ε PUnit) start value final ↔ final = function start := by
  constructor
  · intro run
    cases run
    rfl
  · rintro rfl
    rfl

@[simp] theorem runs_throw {fault : ε} {start final : σ} {value : α} :
    Runs (throw fault : Program σ ε α) start value final ↔ False := by
  constructor
  · intro run
    cases run
  · exact False.elim

theorem runs_ite {condition : Prop} [Decidable condition] {yes no : Program σ ε α}
    {start final : σ} {value : α} :
    Runs (if condition then yes else no) start value final ↔
      (condition ∧ Runs yes start value final) ∨ (¬ condition ∧ Runs no start value final) := by
  by_cases holds : condition <;> simp [holds]

theorem runs_deterministic {program : Program σ ε α} {start first second : σ} {a b : α}
    (left : Runs program start a first) (right : Runs program start b second) :
    a = b ∧ first = second := by
  have same := left.symm.trans right
  cases same
  exact ⟨rfl, rfl⟩

/-- After first programs that do the same, only what follows the values they return matters. -/
theorem bind_congr_at {first second : Program σ ε α} {rest also : α → Program σ ε β} {start : σ}
    (head : first start = second start)
    (same : ∀ value middle, Runs first start value middle → rest value middle = also value middle) :
    (first >>= rest) start = (second >>= also) start := by
  change Except.bind (first start) _ = Except.bind (second start) _
  rw [← head]
  cases ran : first start with
  | error fault => rfl
  | ok pair => exact same pair.1 pair.2 ran

/-- After a first program, only what follows the values it returns matters. -/
theorem bind_congr_of_runs {first : Program σ ε α} {rest also : α → Program σ ε β} {start : σ}
    (same : ∀ value middle, Runs first start value middle → rest value middle = also value middle) :
    (first >>= rest) start = (first >>= also) start :=
  bind_congr_at rfl same

/-! ## Faults -/

/-- `program` started in `start` stops with `fault`. -/
def Fails (program : Program σ ε α) (start : σ) (fault : ε) : Prop :=
  program start = .error fault

theorem fails_pure {value : α} {start : σ} {fault : ε} :
    ¬ Fails (pure value : Program σ ε α) start fault := by
  intro fails
  cases fails

theorem fails_modify {function : σ → σ} {start : σ} {fault : ε} :
    ¬ Fails (modify function : Program σ ε PUnit) start fault := by
  intro fails
  cases fails

theorem fails_throw {thrown fault : ε} {start : σ} :
    Fails (throw thrown : Program σ ε α) start fault ↔ fault = thrown := by
  constructor
  · intro fails
    cases fails
    rfl
  · rintro rfl
    rfl

theorem fails_bind {first : Program σ ε α} {rest : α → Program σ ε β} {start : σ} {fault : ε} :
    Fails (first >>= rest) start fault ↔
      Fails first start fault ∨ ∃ value middle, Runs first start value middle ∧ Fails (rest value) middle fault := by
  have unfolded : (first >>= rest) start =
      Except.bind (first start) fun pair => rest pair.1 pair.2 := rfl
  unfold Fails Runs
  rw [unfolded]
  cases ran : first start with
  | error other => simp [Except.bind]
  | ok pair =>
      obtain ⟨value, middle⟩ := pair
      constructor
      · intro fails
        exact Or.inr ⟨value, middle, rfl, fails⟩
      · rintro (none | ⟨_, _, same, fails⟩)
        · cases none
        · cases same
          exact fails

theorem fails_get_bind {rest : σ → Program σ ε α} {start : σ} {fault : ε} :
    Fails (get >>= rest) start fault ↔ Fails (rest start) start fault := Iff.rfl

theorem fails_ite {condition : Prop} [Decidable condition] {yes no : Program σ ε α} {start : σ}
    {fault : ε} : Fails (if condition then yes else no) start fault ↔
      (condition ∧ Fails yes start fault) ∨ (¬ condition ∧ Fails no start fault) := by
  by_cases holds : condition <;> simp [holds]

/-- A program ends in exactly one way. -/
theorem fails_or_runs (program : Program σ ε α) (start : σ) :
    (∃ fault, Fails program start fault) ∨ ∃ value final, Runs program start value final := by
  unfold Fails Runs
  cases program start with
  | error fault => exact Or.inl ⟨fault, rfl⟩
  | ok result => exact Or.inr ⟨result.1, result.2, rfl⟩

theorem not_fails_of_runs {program : Program σ ε α} {start final : σ} {value : α} {fault : ε}
    (run : Runs program start value final) : ¬ Fails program start fault := by
  intro fails
  cases run.symm.trans fails

/-- `program` never stops with `fault`, wherever it starts. -/
def Spares (fault : ε) (program : Program σ ε α) : Prop := ∀ start, ¬ Fails program start fault

section Spares

variable {fault : ε}

theorem spares_pure (value : α) : Spares fault (pure value : Program σ ε α) := fun _ => fails_pure

theorem spares_get : Spares fault (get : Program σ ε σ) := fun _ fails => nomatch fails

theorem spares_modify (function : σ → σ) : Spares fault (modify function : Program σ ε PUnit) :=
  fun _ => fails_modify

theorem spares_throw {thrown : ε} (other : fault ≠ thrown) :
    Spares fault (throw thrown : Program σ ε α) := fun _ fails => other (fails_throw.mp fails)

theorem spares_bind {first : Program σ ε α} {rest : α → Program σ ε β} (head : Spares fault first)
    (tail : ∀ value, Spares fault (rest value)) : Spares fault (first >>= rest) := by
  intro start fails
  rcases fails_bind.mp fails with early | ⟨value, middle, _, late⟩
  · exact head start early
  · exact tail value middle late

theorem spares_ite {condition : Prop} [Decidable condition] {yes no : Program σ ε α}
    (left : condition → Spares fault yes) (right : ¬ condition → Spares fault no) :
    Spares fault (if condition then yes else no) := by
  intro start fails
  rcases fails_ite.mp fails with ⟨holds, inside⟩ | ⟨holds, inside⟩
  · exact left holds start inside
  · exact right holds start inside

/-- A program that stops with no fault completes. -/
theorem runs_of_spares {program : Program σ ε α} (spared : ∀ fault, Spares fault program) (start : σ) :
    ∃ value final, Runs program start value final := by
  rcases fails_or_runs program start with ⟨fault, fails⟩ | runs
  · exact (spared fault start fails).elim
  · exact runs

end Spares

/-! ## Relations that hold across a program -/

/-- Whenever `program` runs from one state to another, `R` relates the two. -/
def Within (R : σ → σ → Prop) (program : Program σ ε α) : Prop :=
  ∀ start value final, Runs program start value final → R start final

/-- A reflexive and transitive relation between the states before and after. -/
structure Steady (R : σ → σ → Prop) : Prop where
  refl : ∀ state, R state state
  trans : ∀ {first middle last}, R first middle → R middle last → R first last

/-- Having the same image under a function is steady. -/
theorem steady_same (image : σ → β) : Steady fun first last => image last = image first :=
  ⟨fun _ => rfl, fun left right => right.trans left⟩

/-- Keeping a predicate is steady. -/
theorem steady_keeps (P : σ → Prop) : Steady fun first last => P first → P last :=
  ⟨fun _ => id, fun left right => right ∘ left⟩

theorem within_mono {R S : σ → σ → Prop} {program : Program σ ε α}
    (weaker : ∀ first last, R first last → S first last) (inside : Within R program) :
    Within S program :=
  fun start value final run => weaker _ _ (inside start value final run)

section Rules

variable {R : σ → σ → Prop} (steady : Steady R)
include steady

theorem within_pure (value : α) : Within R (pure value : Program σ ε α) := by
  intro start result final run
  obtain ⟨_, rfl⟩ := runs_pure.mp run
  exact steady.refl _

theorem within_bind {first : Program σ ε α} {rest : α → Program σ ε β}
    (head : Within R first) (tail : ∀ value, Within R (rest value)) :
    Within R (first >>= rest) := by
  intro start result final run
  obtain ⟨value, middle, ran, continued⟩ := runs_bind.mp run
  exact steady.trans (head _ _ _ ran) (tail value _ _ _ continued)

theorem within_get : Within R (get : Program σ ε σ) := by
  intro start value final run
  obtain ⟨_, rfl⟩ := runs_get.mp run
  exact steady.refl _

end Rules

section

variable {R : σ → σ → Prop}

theorem within_modify {function : σ → σ} (step : ∀ state, R state (function state)) :
    Within R (modify function : Program σ ε PUnit) := by
  intro start value final run
  rw [runs_modify.mp run]
  exact step start

theorem within_throw (fault : ε) : Within R (throw fault : Program σ ε α) :=
  fun _ _ _ run => (runs_throw.mp run).elim

theorem within_ite {condition : Prop} [Decidable condition] {yes no : Program σ ε α}
    (left : condition → Within R yes) (right : ¬ condition → Within R no) :
    Within R (if condition then yes else no) := by
  by_cases holds : condition
  · simpa only [if_pos holds] using left holds
  · simpa only [if_neg holds] using right holds

end

/-- `if (condition) program;` -/
def onlyIf (condition : Prop) [Decidable condition] (program : Program σ ε Unit) :
    Program σ ε Unit :=
  if condition then program else pure ()

theorem within_onlyIf {R : σ → σ → Prop} (steady : Steady R) {condition : Prop}
    [Decidable condition] {program : Program σ ε Unit} (inside : condition → Within R program) :
    Within R (onlyIf condition program) :=
  within_ite inside fun _ => within_pure steady ()

theorem runs_onlyIf {condition : Prop} [Decidable condition] {program : Program σ ε Unit}
    {start final : σ} {value : Unit} :
    Runs (onlyIf condition program) start value final ↔
      (condition ∧ Runs program start value final) ∨ (¬ condition ∧ final = start) := by
  unfold onlyIf
  rw [runs_ite]
  simp

theorem fails_onlyIf {condition : Prop} [Decidable condition] {program : Program σ ε Unit} {start : σ}
    {fault : ε} : Fails (onlyIf condition program) start fault ↔ condition ∧ Fails program start fault := by
  unfold onlyIf
  rw [fails_ite]
  constructor
  · rintro (held | ⟨_, none⟩)
    · exact held
    · exact (fails_pure none).elim
  · exact Or.inl

theorem spares_onlyIf {fault : ε} {condition : Prop} [Decidable condition] {program : Program σ ε Unit}
    (inside : condition → Spares fault program) : Spares fault (onlyIf condition program) :=
  spares_ite inside fun _ => spares_pure ()

/-! ## Counted loops -/

/-- Run `body` `count` times, each time on what the time before returned. -/
def times (body : α → Program σ ε α) : Nat → α → Program σ ε α
  | 0, value => pure value
  | count + 1, value => do
      let value ← body value
      times body count value

/-- A loop that carries more along does what it does without. -/
theorem times_erased {γ : Type} {body : α → Program σ ε α} {fuller : γ → Program σ ε γ} {erase : γ → α}
    (each : ∀ value, (fuller value >>= fun value => pure (erase value)) = body (erase value)) (count : Nat)
    (value : γ) :
    (times fuller count value >>= fun value => pure (erase value)) = times body count (erase value) := by
  induction count generalizing value with
  | zero => exact pure_bind _ _
  | succ count ih =>
      unfold times
      rw [bind_assoc, ← each value, bind_assoc]
      simp only [pure_bind]
      exact bind_congr fun next => ih next

/-- A loop of one round is its round. -/
theorem runs_times_one {body : α → Program σ ε α} {value result : α} {start final : σ} :
    Runs (times body 1 value) start result final ↔ Runs (body value) start result final := by
  constructor
  · intro run
    obtain ⟨next, middle, round, stop⟩ := runs_bind.mp run
    obtain ⟨rfl, rfl⟩ := runs_pure.mp stop
    exact round
  · intro round
    exact runs_bind.mpr ⟨result, final, round, runs_pure.mpr ⟨rfl, rfl⟩⟩

theorem within_times {R : σ → σ → Prop} (steady : Steady R) {body : α → Program σ ε α}
    (inside : ∀ value, Within R (body value)) (count : Nat) (value : α) :
    Within R (times body count value) := by
  induction count generalizing value with
  | zero => exact within_pure steady value
  | succ count ih => exact within_bind steady (inside value) fun next => ih next

/-- Run `body` on every element of a list, threading a value. -/
def foldProgram (body : β → α → Program σ ε β) : List α → β → Program σ ε β
  | [], value => pure value
  | item :: rest, value => do
      let value ← body value item
      foldProgram body rest value

/-- A fold that carries more along does what it does without. -/
theorem foldProgram_erased {γ : Type} {body : β → α → Program σ ε β} {fuller : γ → α → Program σ ε γ} {erase : γ → β}
    (each : ∀ value item, (fuller value item >>= fun value => pure (erase value)) = body (erase value) item)
    (items : List α) (value : γ) :
    (foldProgram fuller items value >>= fun value => pure (erase value)) = foldProgram body items (erase value) := by
  induction items generalizing value with
  | nil => exact pure_bind _ _
  | cons item rest ih =>
      unfold foldProgram
      rw [bind_assoc, ← each value item, bind_assoc]
      simp only [pure_bind]
      exact bind_congr fun next => ih next

theorem within_foldProgram {R : σ → σ → Prop} (steady : Steady R)
    {body : β → α → Program σ ε β} (items : List α) (value : β)
    (inside : ∀ item ∈ items, ∀ value, Within R (body value item)) :
    Within R (foldProgram body items value) := by
  induction items generalizing value with
  | nil => exact within_pure steady value
  | cons item rest ih =>
      refine within_bind steady (inside item (List.mem_cons_self ..) value) fun next => ?_
      exact ih next fun other member => inside other (List.mem_cons_of_mem _ member)

end PimDm.Foundation
