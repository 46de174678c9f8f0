import PimDm.Foundation.Completion
import Mathlib.Data.Set.Lattice
import Mathlib.Logic.Function.Iterate

/-!
# Loops over what is laid out one after another

A loop that finds out in each round where the next one starts is compared with a
reference that is given the list of all that is laid out.  Where each round but the
last ends at the next place of the layout, the loop does what the reference does.  A loop
that stays at the first item of a kind visits it again and again.
-/

namespace PimDm.Foundation

variable {σ ε α β γ : Type}

/-- What is laid out from a place on. -/
def laidOut (read : α → β) (next : α → α) : Nat → α → List β
  | 0, _ => []
  | count + 1, place => read place :: laidOut read next count (next place)

theorem laidOut_length (read : α → β) (next : α → α) (count : Nat) (place : α) :
    (laidOut read next count place).length = count := by
  induction count generalizing place with
  | zero => rfl
  | succ count ih =>
      rw [laidOut, List.length_cons, ih]

/-- Two loops find the same if what they read is the same and the rounds of both, but for the
last one, end at the same places. -/
theorem laidOut_congr {read other : α → β} {next further : α → α} {fits inStep : β → Prop}
    (same : ∀ place, fits (read place) → other place = read place)
    (steps : ∀ place, fits (read place) → inStep (read place) → further place = next place) (count : Nat) (place : α)
    (all : ∀ item ∈ laidOut read next count place, fits item)
    (ahead : ∀ item ∈ (laidOut read next count place).dropLast, inStep item) :
    laidOut other further count place = laidOut read next count place := by
  induction count generalizing place with
  | zero => rfl
  | succ count ih =>
      have here := all _ List.mem_cons_self
      unfold laidOut
      rw [same place here]
      cases count with
      | zero => rfl
      | succ count =>
          have first := steps place here (ahead _ List.mem_cons_self)
          have rest := ih (next place) (fun item member => all item (List.mem_cons_of_mem _ member))
            fun item member => ahead item (List.mem_cons_of_mem _ member)
          rw [first, rest]

/-! ## Staying at an item -/

/-- The items up to the first one with a property, which then takes the place of the rest. -/
def repeatFirst (stops : β → Bool) : List β → List β
  | [] => []
  | item :: rest => if stops item then List.replicate (rest.length + 1) item else item :: repeatFirst stops rest

theorem mem_repeatFirst_iff {stops : β → Bool} {items : List β} {item : β} :
    item ∈ repeatFirst stops items ∧ stops item = true ↔ items.find? stops = some item := by
  induction items with
  | nil => simp [repeatFirst]
  | cons first rest ih =>
      unfold repeatFirst
      cases holds : stops first with
      | true =>
          rw [List.find?_cons_of_pos holds, if_pos rfl, List.mem_replicate, Option.some.injEq]
          constructor
          · rintro ⟨⟨_, rfl⟩, _⟩
            rfl
          · rintro rfl
            exact ⟨⟨Nat.succ_ne_zero _, rfl⟩, holds⟩
      | false =>
          have passes : ¬ stops first = true := by simp [holds]
          rw [List.find?_cons_of_neg passes, if_neg Bool.false_ne_true, ← ih, List.mem_cons]
          constructor
          · rintro ⟨rfl | later, stop⟩
            · exact absurd stop passes
            · exact ⟨later, stop⟩
          · rintro ⟨later, stop⟩
            exact ⟨Or.inr later, stop⟩

section Staying

variable {read : α → β} {next : α → α} {stops : β → Bool}

/-- A round that ends where it has started if the item there has a property. -/
def staying (read : α → β) (next : α → α) (stops : β → Bool) (place : α) : α :=
  if stops (read place) then place else next place

theorem iterate_stay {place : α} (here : stops (read place) = true) (count : Nat) :
    (staying read next stops)^[count] place = place := by
  have fixed : staying read next stops place = place := if_pos here
  exact Function.iterate_fixed fixed count

theorem laidOut_stay {place : α} (here : stops (read place) = true) (count : Nat) :
    laidOut read (staying read next stops) count place = List.replicate count (read place) := by
  induction count with
  | zero => rfl
  | succ count ih =>
      have stay : staying read next stops place = place := if_pos here
      rw [laidOut, stay, ih, List.replicate_succ]

theorem laidOut_staying (read : α → β) (next : α → α) (stops : β → Bool) (count : Nat) (place : α) :
    laidOut read (staying read next stops) count place = repeatFirst stops (laidOut read next count place) := by
  induction count generalizing place with
  | zero => rfl
  | succ count ih =>
      cases here : stops (read place) with
      | true =>
          rw [laidOut_stay here, laidOut, repeatFirst, if_pos here, laidOut_length]
      | false =>
          have passes : ¬ stops (read place) = true := by simp [here]
          have step : staying read next stops place = next place := if_neg passes
          rw [laidOut, step, ih, laidOut, repeatFirst, if_neg passes]

theorem iterate_staying (count : Nat) (place : α) :
    (staying read next stops)^[count] place = next^[(laidOut read next count place).findIdx stops] place := by
  induction count generalizing place with
  | zero => rfl
  | succ count ih =>
      cases here : stops (read place) with
      | true => rw [iterate_stay here, laidOut, List.findIdx_cons, here, cond_true, Function.iterate_zero_apply]
      | false =>
          have passes : ¬ stops (read place) = true := by simp [here]
          have step : staying read next stops place = next place := if_neg passes
          rw [Function.iterate_succ_apply, step, ih, laidOut, List.findIdx_cons, here, cond_false,
            Function.iterate_succ_apply]

end Staying

/-! ## Taking notes -/

section Notes

variable {γ : Type} {read : α → β} {next : α → α} {notes : β → List γ}

/-- A round that notes something of its item. -/
def noting (read : α → β) (next : α → α) (notes : β → List γ) (cursor : α × List γ) : α × List γ :=
  (next cursor.1, cursor.2 ++ notes (read cursor.1))

theorem laidOut_noting (count : Nat) (place : α) (noted : List γ) :
    laidOut (fun cursor => read cursor.1) (noting read next notes) count (place, noted) =
      laidOut read next count place := by
  induction count generalizing place noted with
  | zero => rfl
  | succ count ih => exact congrArg (read place :: ·) (ih (next place) (noted ++ notes (read place)))

theorem iterate_noting (count : Nat) (place : α) (noted : List γ) :
    (noting read next notes)^[count] (place, noted) =
      (next^[count] place, noted ++ (laidOut read next count place).flatMap notes) := by
  induction count generalizing place noted with
  | zero => simp [laidOut]
  | succ count ih =>
      rw [Function.iterate_succ_apply, Function.iterate_succ_apply, noting, ih, laidOut, List.flatMap_cons,
        List.append_assoc]

end Notes

/-- After the rounds of a loop there is done what was before and what each of them adds. -/
theorem achieves_times {γ : Type} {done : Set γ → σ → Prop} {body : α → Program σ ε α} {read : α → β}
    {next : α → α} {adds : β → Set γ}
    (each : ∀ place before, Achieves (done before) (body place) fun value s =>
      value = next place ∧ done (before ∪ adds (read place)) s)
    (count : Nat) (place : α) (before : Set γ) :
    Achieves (done before) (times body count place) fun value s =>
      value = next^[count] place ∧
        done (before ∪ {mark | ∃ item ∈ laidOut read next count place, mark ∈ adds item}) s := by
  induction count generalizing place before with
  | zero =>
      refine achieves_pure fun s holds => ⟨rfl, ?_⟩
      have none : before ∪ {mark | ∃ item ∈ laidOut read next 0 place, mark ∈ adds item} = before := by
        simp [laidOut]
      rw [none]
      exact holds
  | succ count ih =>
      refine achieves_bind (each place before) fun value => achieves_of_fact ?_
      rintro rfl
      refine (ih (next place) (before ∪ adds (read place))).mono fun result s left => ⟨left.1, ?_⟩
      have all : before ∪ {mark | ∃ item ∈ laidOut read next (count + 1) place, mark ∈ adds item} =
          before ∪ adds (read place) ∪ {mark | ∃ item ∈ laidOut read next count (next place), mark ∈ adds item} := by
        ext mark
        simp [laidOut, or_assoc]
      rw [all]
      exact left.2

/-- The same loop with notes. -/
theorem achieves_times_noting {γ δ : Type} {done : Set γ → σ → Prop} {body : α × List δ → Program σ ε (α × List δ)}
    {read : α → β} {next : α → α} {notes : β → List δ} {adds : β → Set γ}
    (each : ∀ cursor before, Achieves (done before) (body cursor) fun value s =>
      value = noting read next notes cursor ∧ done (before ∪ adds (read cursor.1)) s)
    (count : Nat) (place : α) (noted : List δ) (before : Set γ) :
    Achieves (done before) (times body count (place, noted)) fun value s =>
      value = (next^[count] place, noted ++ (laidOut read next count place).flatMap notes) ∧
        done (before ∪ {mark | ∃ item ∈ laidOut read next count place, mark ∈ adds item}) s := by
  have loop : Achieves (done before) (times body count (place, noted)) fun value s =>
      value = (noting read next notes)^[count] (place, noted) ∧
        done (before ∪ {mark | ∃ item ∈ laidOut (fun cursor => read cursor.1) (noting read next notes) count
          (place, noted),
          mark ∈ adds item}) s := achieves_times each count (place, noted) before
  rw [iterate_noting, laidOut_noting] at loop
  exact loop

theorem runs_forM_one {visit : β → Program σ ε Unit} {item : β} {s s' : σ} :
    Runs (forM [item] visit) s () s' ↔ Runs (visit item) s () s' := by
  rw [List.forM_cons, List.forM_nil, runs_bind]
  constructor
  · rintro ⟨_, middle, ran, stop⟩
    obtain ⟨_, rfl⟩ := runs_pure.mp stop
    exact ran
  · intro run
    exact ⟨(), s', run, runs_pure.mpr ⟨rfl, rfl⟩⟩

/-- From the states in `before`, the program does what the reference does and returns one
of the given places in a state in `before`. -/
structure Tracks (before : σ → Prop) (program : Program σ ε α) (reference : Program σ ε Unit) (place : α → Prop) :
    Prop where
  same : ∀ s s', before s → ((∃ value, Runs program s value s') ↔ Runs reference s () s')
  ends : ∀ s value s', before s → Runs program s value s' → place value ∧ before s'

namespace Tracks

variable {before : σ → Prop}

theorem pure (value : α) : Tracks (ε := ε) before (pure value) (pure ()) fun result => result = value where
  same s s' _ := by
    constructor
    · rintro ⟨result, run⟩
      exact runs_pure.mpr ⟨rfl, (runs_pure.mp run).2⟩
    · intro run
      exact ⟨value, runs_pure.mpr ⟨rfl, (runs_pure.mp run).2⟩⟩
  ends s result s' holds run := by
    obtain ⟨returned, rfl⟩ := runs_pure.mp run
    exact ⟨returned, holds⟩

theorem mono {program : Program σ ε α} {reference : Program σ ε Unit} {place wider : α → Prop}
    (tracks : Tracks before program reference place) (weaker : ∀ value, place value → wider value) :
    Tracks before program reference wider where
  same := tracks.same
  ends s value s' holds run := by
    obtain ⟨reached, kept⟩ := tracks.ends s value s' holds run
    exact ⟨weaker value reached, kept⟩

theorem bind {program : Program σ ε α} {rest : α → Program σ ε γ} {reference later : Program σ ε Unit} {reached : α}
    {place : γ → Prop} (head : Tracks before program reference fun value => value = reached)
    (tail : Tracks before (rest reached) later place) :
    Tracks before (program >>= rest) (reference >>= fun _ => later) place where
  same s s' holds := by
    constructor
    · rintro ⟨result, run⟩
      obtain ⟨value, middle, ran, continued⟩ := runs_bind.mp run
      obtain ⟨rfl, kept⟩ := head.ends s value middle holds ran
      have first := (head.same s middle holds).mp ⟨value, ran⟩
      exact runs_bind.mpr ⟨(), middle, first, (tail.same middle s' kept).mp ⟨result, continued⟩⟩
    · intro run
      obtain ⟨_, middle, first, last⟩ := runs_bind.mp run
      obtain ⟨value, ran⟩ := (head.same s middle holds).mpr first
      obtain ⟨rfl, kept⟩ := head.ends s value middle holds ran
      obtain ⟨result, continued⟩ := (tail.same middle s' kept).mpr last
      exact ⟨result, runs_bind.mpr ⟨value, middle, ran, continued⟩⟩
  ends s result s' holds run := by
    obtain ⟨value, middle, ran, continued⟩ := runs_bind.mp run
    obtain ⟨rfl, kept⟩ := head.ends s value middle holds ran
    exact tail.ends middle result s' kept continued

section Loops

variable {body : α → Program σ ε α} {visit : β → Program σ ε Unit} {read : α → β} {next : α → α}

/-- Each round ends at the next place. -/
theorem times {inStep : β → Prop}
    (each : ∀ place, inStep (read place) → Tracks before (body place) (visit (read place)) fun value =>
      value = next place)
    (count : Nat) (place : α) (all : ∀ item ∈ laidOut read next count place, inStep item) :
    Tracks before (Foundation.times body count place) (forM (laidOut read next count place) visit)
      fun value => value = next^[count] place := by
  induction count generalizing place with
  | zero => exact pure place
  | succ count ih =>
      rw [laidOut, List.forall_mem_cons] at all
      exact bind (each place all.1) (ih (next place) all.2)

/-- Each round but the last ends at the next place. -/
theorem times_last {inStep : β → Prop} (atEnd : β → Prop)
    (each : ∀ place, inStep (read place) → Tracks before (body place) (visit (read place)) fun value =>
      value = next place)
    (last : ∀ place, atEnd (read place) → Tracks before (body place) (visit (read place)) fun _ => True)
    (count : Nat) (place : α) (all : ∀ item ∈ (laidOut read next count place).dropLast, inStep item)
    (final : ∀ item ∈ (laidOut read next count place).getLast?, atEnd item) :
    Tracks before (Foundation.times body count place) (forM (laidOut read next count place) visit) fun _ => True := by
  induction count generalizing place with
  | zero => exact (pure place).mono fun _ _ => trivial
  | succ count ih =>
      cases count with
      | zero =>
          -- The last round: nothing is read where it ends.
          have round := last place (final _ rfl)
          refine ⟨fun s s' holds => ?_, fun s value s' holds run => ?_⟩
          · refine (exists_congr fun _ => runs_times_one).trans ((round.same s s' holds).trans ?_)
            exact runs_forM_one.symm
          · exact round.ends s value s' holds (runs_times_one.mp run)
      | succ count =>
          have first := each place (all _ List.mem_cons_self)
          refine bind first (ih (next place) (fun item member => ?_) fun item member => ?_)
          · exact all item (List.mem_cons_of_mem _ member)
          · exact final item member

end Loops

end Tracks

/-- A loop over items that have nothing to do does nothing. -/
theorem runs_forM_idle {visit : β → Program σ ε Unit} {s s' : σ} {items : List β}
    (idle : ∀ item ∈ items, ∀ s', Runs (visit item) s () s' ↔ s' = s) : Runs (forM items visit) s () s' ↔ s' = s := by
  induction items with
  | nil =>
      rw [List.forM_nil, runs_pure]
      exact and_iff_right rfl
  | cons item items ih =>
      have rest := ih fun other member => idle other (List.mem_cons_of_mem _ member)
      rw [List.forM_cons, runs_bind]
      constructor
      · rintro ⟨_, middle, first, others⟩
        obtain rfl := (idle item List.mem_cons_self middle).mp first
        exact rest.mp others
      · intro same
        exact ⟨(), s, (idle item List.mem_cons_self s).mpr rfl, rest.mpr same⟩

end PimDm.Foundation
