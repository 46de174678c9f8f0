import Mathlib.Logic.Basic
import Mathlib.Data.Option.Basic
import Mathlib.Tactic.Common

/-!
# The membership of one group on one interface

The record of a group holds the id of a timer and a phase.  Reports, leaves, queries
of a querier and timers move both, and the timers that are pending to take the group
away.  Two things can be said of any order of them: a report leaves no timer pending
as long as the record never lost the id of one; and a querier that set all the timers
itself takes the group away at the third timer after a leave.
-/

namespace PimDm.Routing

/-- The id and the phase in the record of the group, if it has one, and the timers that
are pending to take the group away. -/
structure Membership where
  record : Option (Int × Int)
  pending : Int → Prop

/-- What happens to a group on an interface: a report, a leave while querier, a query for
it while not querier, one of its timers, or something else. -/
inductive Stimulus where
  | other
  | report
  | leave
  | query
  | expiry (timer : Int)
  deriving DecidableEq, Repr

namespace Membership

/-- No timer is new. -/
def NoneNew (before after : Membership) : Prop := ∀ timer, after.pending timer → before.pending timer

/-- No timer is new, and one is gone. -/
def Gone (before after : Membership) (timer : Int) : Prop :=
  ∀ other, after.pending other → before.pending other ∧ other ≠ timer

/-- What one stimulus does, and the number of group-specific queries sent for it. -/
inductive Moves (before after : Membership) : Stimulus → Nat → Prop where
  | other (same : after.record = before.record) (none : before.NoneNew after) : Moves before after .other 0
  | joined (absent : before.record = none) (new : after.record = some (0, 2)) (none : before.NoneNew after) :
      Moves before after .report 0
  | cancelled {timer phase later : Int} (known : before.record = some (timer, phase))
      (stopped : after.record = some (0, later)) (gone : before.Gone after timer) :
      Moves before after .report 0
  | notLeft (absent : before.record = none) (still : after.record = none) (none : before.NoneNew after) :
      Moves before after .leave 0
  | left {timer phase new : Int} (known : before.record = some (timer, phase))
      (waits : after.record = some (new, 1))
      (pending : ∀ other, after.pending other → other = new ∨ before.pending other ∧ other ≠ timer) :
      Moves before after .leave 1
  | notQueried (absent : before.record = none) (still : after.record = none) (none : before.NoneNew after) :
      Moves before after .query 0
  | queried {timer phase new : Int} (known : before.record = some (timer, phase))
      (waits : after.record = some (new, -1))
      (pending : ∀ other, after.pending other → other = new ∨ before.pending other) :
      Moves before after .query 0
  | lapsed {called : Int} (absent : before.record = none) (still : after.record = none)
      (gone : before.Gone after called) : Moves before after (.expiry called) 0
  | asked {called timer new : Int} (known : before.record = some (timer, 1))
      (waits : after.record = some (new, 0))
      (pending : ∀ other, after.pending other → other = new ∨ before.pending other ∧ other ≠ called) :
      Moves before after (.expiry called) 1
  | lastWait {called timer new : Int} (known : before.record = some (timer, 0))
      (waits : after.record = some (new, -1))
      (pending : ∀ other, after.pending other → other = new ∨ before.pending other ∧ other ≠ called) :
      Moves before after (.expiry called) 0
  | removed {called timer phase : Int} (known : before.record = some (timer, phase))
      (notTwice : phase ≠ 1) (notOnce : phase ≠ 0) (taken : after.record = none)
      (gone : before.Gone after called) : Moves before after (.expiry called) 0

variable {before after : Membership} {stimulus : Stimulus} {sent : Nat}

/-! ## Reports -/

/-- The record holds the id of every pending timer. -/
def Tracked (m : Membership) : Prop := ∀ timer, m.pending timer → ∃ phase, m.record = some (timer, phase)

/-- The group has a record, and no timer is pending to take it away. -/
def Settled (m : Membership) : Prop := m.record ≠ none ∧ ∀ timer, ¬ m.pending timer

theorem Tracked.of_noneNew (tracked : before.Tracked) (none : before.NoneNew after)
    (same : after.record = before.record) : after.Tracked := by
  intro timer pending
  rw [same]
  exact tracked timer (none timer pending)

/-- Without a record nothing is pending. -/
theorem Tracked.none (tracked : before.Tracked) (absent : before.record = .none) (timer : Int) :
    ¬ before.pending timer := by
  intro pending
  obtain ⟨phase, known⟩ := tracked timer pending
  rw [absent] at known
  cases known

theorem Tracked.id_eq (tracked : before.Tracked) {timer phase : Int}
    (known : before.record = some (timer, phase)) {other : Int} (pending : before.pending other) :
    other = timer := by
  obtain ⟨phase, same⟩ := tracked other pending
  rw [known] at same
  exact (congrArg Prod.fst (Option.some.inj same)).symm

/-- At most one timer is pending. -/
theorem Tracked.unique (tracked : before.Tracked) {one other : Int} (first : before.pending one)
    (second : before.pending other) : one = other := by
  obtain ⟨phase, known⟩ := tracked other second
  exact tracked.id_eq known first

/-- The record keeps the id of every timer, unless a query of a querier replaces it. -/
theorem Moves.tracked (moves : Moves before after stimulus sent) (tracked : before.Tracked)
    (called : ∀ timer, stimulus = .expiry timer → before.pending timer)
    (free : stimulus = .query → ∀ timer, ¬ before.pending timer) : after.Tracked := by
  cases moves with
  | other same none => exact tracked.of_noneNew none same
  | joined absent new none => exact fun timer pending => absurd (none timer pending) (tracked.none absent timer)
  | cancelled known stopped gone =>
      intro timer pending
      obtain ⟨old, different⟩ := gone timer pending
      exact absurd (tracked.id_eq known old) different
  | notLeft absent still none => exact fun timer pending => absurd (none timer pending) (tracked.none absent timer)
  | left known waits pending =>
      intro timer later
      rcases pending timer later with rfl | ⟨old, different⟩
      · exact ⟨1, waits⟩
      · exact absurd (tracked.id_eq known old) different
  | notQueried absent still none =>
      exact fun timer pending => absurd (none timer pending) (tracked.none absent timer)
  | queried known waits pending =>
      intro timer later
      rcases pending timer later with rfl | old
      · exact ⟨-1, waits⟩
      · exact absurd old (free rfl timer)
  | lapsed absent still gone =>
      exact fun timer pending => absurd (gone timer pending).1 (tracked.none absent timer)
  | asked known waits pending =>
      intro timer later
      rcases pending timer later with rfl | ⟨old, different⟩
      · exact ⟨0, waits⟩
      · exact absurd (tracked.unique old (called _ rfl)) different
  | lastWait known waits pending =>
      intro timer later
      rcases pending timer later with rfl | ⟨old, different⟩
      · exact ⟨-1, waits⟩
      · exact absurd (tracked.unique old (called _ rfl)) different
  | removed known notTwice notOnce taken gone =>
      intro timer pending
      obtain ⟨old, different⟩ := gone timer pending
      exact absurd (tracked.unique old (called _ rfl)) different

/-- A report settles the group. -/
theorem Moves.settled (moves : Moves before after .report sent) (tracked : before.Tracked) :
    after.Settled := by
  cases moves with
  | joined absent new none =>
      refine ⟨?_, fun timer pending => tracked.none absent timer (none timer pending)⟩
      rw [new]
      exact Option.some_ne_none _
  | cancelled known stopped gone =>
      refine ⟨?_, fun timer pending => ?_⟩
      · rw [stopped]
        exact Option.some_ne_none _
      · obtain ⟨old, different⟩ := gone timer pending
        exact different (tracked.id_eq known old)

/-- A settled group stays settled, as long as nobody leaves it or asks for it. -/
theorem Moves.keeps_settled (moves : Moves before after stimulus sent) (settled : before.Settled)
    (called : ∀ timer, stimulus = .expiry timer → before.pending timer)
    (notLeave : stimulus ≠ .leave) (notQuery : stimulus ≠ .query) : after.Settled := by
  have idle := settled.2
  cases moves with
  | other same none =>
      refine ⟨?_, fun timer pending => idle timer (none timer pending)⟩
      rw [same]
      exact settled.1
  | joined absent new none => exact absurd absent settled.1
  | cancelled known stopped gone =>
      refine ⟨?_, fun timer pending => idle timer (gone timer pending).1⟩
      rw [stopped]
      exact Option.some_ne_none _
  | notLeft absent still none => exact absurd rfl notLeave
  | left known waits pending => exact absurd rfl notLeave
  | notQueried absent still none => exact absurd rfl notQuery
  | queried known waits pending => exact absurd rfl notQuery
  | lapsed absent still gone => exact absurd absent settled.1
  | asked known waits pending => exact absurd (called _ rfl) (idle _)
  | lastWait known waits pending => exact absurd (called _ rfl) (idle _)
  | removed known notTwice notOnce taken gone => exact absurd (called _ rfl) (idle _)

/-! ## Leaves -/

/-- How many timers were called since the last leave, if no report came after it, and how many
group-specific queries were sent. -/
structure Count where
  since : Option Nat
  asked : Nat
  deriving DecidableEq, Repr

/-- A leave starts to count, and a report stops. -/
def Count.next (count : Count) (sent : Nat) : Stimulus → Count
  | .report => ⟨none, count.asked + sent⟩
  | .leave => ⟨some 0, sent⟩
  | .expiry _ => ⟨count.since.map (· + 1), count.asked + sent⟩
  | .other | .query => ⟨count.since, count.asked + sent⟩

/-- A pending timer is the one in the record, and the phase tells how many were called. -/
def Phased (m : Membership) (count : Count) : Prop :=
  ∀ timer, m.pending timer → ∃ called : Nat, called ≤ 2 ∧ count.since = some called ∧
    m.record = some (timer, 1 - (called : Int)) ∧ count.asked = if called = 0 then 1 else 2

variable {count : Count}

theorem Phased.tracked (phased : before.Phased count) : before.Tracked := by
  intro timer pending
  obtain ⟨called, _, _, known, _⟩ := phased timer pending
  exact ⟨_, known⟩

/-- The phase of a group whose timer is pending says how many timers were called. -/
theorem Phased.phase_eq (phased : before.Phased count) {called timer phase : Int}
    (pending : before.pending called) (known : before.record = some (timer, phase)) :
    ∃ so_far : Nat, so_far ≤ 2 ∧ count.since = some so_far ∧ phase = 1 - (so_far : Int) ∧
      count.asked = if so_far = 0 then 1 else 2 := by
  obtain ⟨so_far, bound, since, same, asked⟩ := phased called pending
  rw [known] at same
  exact ⟨so_far, bound, since, congrArg Prod.snd (Option.some.inj same), asked⟩

/-- The timer of a group that still waits for an answer is not the third. -/
theorem Phased.not_third (phased : before.Phased count) {called timer phase : Int}
    (pending : before.pending called) (known : before.record = some (timer, phase)) (early : 0 ≤ phase) :
    (count.next sent (.expiry called)).since ≠ some 3 := by
  obtain ⟨so_far, _, since, same, _⟩ := phased.phase_eq pending known
  simp only [Count.next, since, Option.map_some, ne_eq, Option.some.injEq]
  omega

/-- In a run without queries of another querier the phase counts the timers. -/
theorem Moves.phased (moves : Moves before after stimulus sent) (phased : before.Phased count)
    (called : ∀ timer, stimulus = .expiry timer → before.pending timer) (own : stimulus ≠ .query) :
    after.Phased (count.next sent stimulus) := by
  have tracked := phased.tracked
  cases moves with
  | other same none =>
      intro timer pending
      rw [same]
      exact phased timer (none timer pending)
  | joined absent new none => exact fun timer pending => absurd (none timer pending) (tracked.none absent timer)
  | cancelled known stopped gone =>
      intro timer pending
      obtain ⟨old, different⟩ := gone timer pending
      exact absurd (tracked.id_eq known old) different
  | notLeft absent still none => exact fun timer pending => absurd (none timer pending) (tracked.none absent timer)
  | left known waits pending =>
      intro timer later
      rcases pending timer later with rfl | ⟨old, different⟩
      · exact ⟨0, Nat.zero_le _, rfl, waits, rfl⟩
      · exact absurd (tracked.id_eq known old) different
  | notQueried absent still none => exact absurd rfl own
  | queried known waits pending => exact absurd rfl own
  | lapsed absent still gone =>
      exact fun timer pending => absurd (gone timer pending).1 (tracked.none absent timer)
  | asked known waits pending =>
      obtain ⟨so_far, _, since, phase, asked⟩ := phased.phase_eq (called _ rfl) known
      have first : so_far = 0 := by omega
      subst first
      intro timer later
      rcases pending timer later with rfl | ⟨old, different⟩
      · refine ⟨1, by omega, ?_, waits, ?_⟩
        · simp [Count.next, since]
        · simp [Count.next, asked]
      · exact absurd (tracked.unique old (called _ rfl)) different
  | lastWait known waits pending =>
      obtain ⟨so_far, _, since, phase, asked⟩ := phased.phase_eq (called _ rfl) known
      have second : so_far = 1 := by omega
      subst second
      intro timer later
      rcases pending timer later with rfl | ⟨old, different⟩
      · refine ⟨2, by omega, ?_, waits, ?_⟩
        · simp [Count.next, since]
        · simpa [Count.next] using asked
      · exact absurd (tracked.unique old (called _ rfl)) different
  | removed known notTwice notOnce taken gone =>
      intro timer pending
      obtain ⟨old, different⟩ := gone timer pending
      exact absurd (tracked.unique old (called _ rfl)) different

/-- The group is taken away at the third timer after a leave, and only then. -/
theorem Moves.removes_iff (moves : Moves before after stimulus sent) (phased : before.Phased count)
    (called : ∀ timer, stimulus = .expiry timer → before.pending timer) :
    (before.record ≠ none ∧ after.record = none) ↔
      ∃ timer, stimulus = .expiry timer ∧ (count.next sent stimulus).since = some 3 := by
  cases moves with
  | other same none => simp [same]
  | joined absent new none => simp [absent]
  | cancelled known stopped gone => simp [stopped]
  | notLeft absent still none => simp [absent]
  | left known waits pending => simp [waits]
  | notQueried absent still none => simp [absent]
  | queried known waits pending => simp [waits]
  | lapsed absent still gone => exact absurd (called _ rfl) (phased.tracked.none absent _)
  | asked known waits pending =>
      refine iff_of_false (fun both => ?_) ?_
      · rw [waits] at both
        exact Option.some_ne_none _ both.2
      · rintro ⟨_, _, three⟩
        exact phased.not_third (called _ rfl) known (by decide) three
  | lastWait known waits pending =>
      refine iff_of_false (fun both => ?_) ?_
      · rw [waits] at both
        exact Option.some_ne_none _ both.2
      · rintro ⟨_, _, three⟩
        exact phased.not_third (called _ rfl) known (by decide) three
  | removed known notTwice notOnce taken gone =>
      obtain ⟨so_far, bound, since, phase, _⟩ := phased.phase_eq (called _ rfl) known
      have third : so_far = 2 := by omega
      refine iff_of_true ⟨?_, taken⟩ ⟨_, rfl, ?_⟩
      · rw [known]
        exact Option.some_ne_none _
      · simp [Count.next, since, third]

/-- Two group-specific queries were sent when the group is taken away. -/
theorem Moves.asked_twice (moves : Moves before after stimulus sent) (phased : before.Phased count)
    (called : ∀ timer, stimulus = .expiry timer → before.pending timer)
    (listed : before.record ≠ none) (taken : after.record = none) :
    (count.next sent stimulus).asked = 2 := by
  obtain ⟨timer, rfl, three⟩ := (moves.removes_iff phased called).mp ⟨listed, taken⟩
  obtain ⟨so_far, _, since, known, asked⟩ := phased _ (called _ rfl)
  have third : so_far = 2 := by
    simp only [Count.next, since, Option.map_some, Option.some.injEq] at three
    omega
  cases moves with
  | lapsed absent still gone => exact absurd absent listed
  | asked same waits pending =>
      rw [taken] at waits
      cases waits
  | lastWait same waits pending =>
      rw [taken] at waits
      cases waits
  | removed same notTwice notOnce gone pending => simp [Count.next, asked, third]

end Membership

end PimDm.Routing
