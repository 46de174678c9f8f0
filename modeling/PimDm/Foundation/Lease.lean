import Mathlib.Data.Finset.Card
import Mathlib.Data.List.Dedup

/-!
# Leases

Things are held under a name, and each is meant to go when a timer of that name is called.  There
may be several things and timers of one name, and it does not matter which timer was set for which
thing: nothing is held longer than the deadline, as long as there are no more things than timers.
-/

namespace PimDm.Foundation

variable {ι ν : Type} [DecidableEq ι] [DecidableEq ν]

/-- The ids of the timers of a name. -/
def running (agenda : List (Int × ι × ν)) (name : ν) : Finset ι :=
  ((agenda.filter fun entry => entry.2.2 = name).map fun entry => entry.2.1).toFinset

variable {agenda after : List (Int × ι × ν)} {name : ν} {held fewer : Nat} {now : Int} {deadline later : Option Int}
  {timer : ι}

theorem mem_running : timer ∈ running agenda name ↔ ∃ time, (time, timer, name) ∈ agenda := by
  simp only [running, List.mem_toFinset, List.mem_map, List.mem_filter, decide_eq_true_eq]
  constructor
  · rintro ⟨⟨time, _, _⟩, ⟨member, rfl⟩, rfl⟩
    exact ⟨time, member⟩
  · rintro ⟨time, member⟩
    exact ⟨(time, timer, name), ⟨member, rfl⟩, rfl⟩

theorem running_subset (kept : ∀ time timer, (time, timer, name) ∈ agenda → (time, timer, name) ∈ after) :
    running agenda name ⊆ running after name := by
  intro timer member
  obtain ⟨time, listed⟩ := mem_running.mp member
  exact mem_running.mpr ⟨time, kept time timer listed⟩

/-- There are no more things of a name than timers, and these are due by the deadline. -/
structure Leasehold (agenda : List (Int × ι × ν)) (name : ν) (held : Nat) (now : Int)
    (deadline : Option Int) : Prop where
  backed : held ≤ (running agenda name).card
  timely : ∀ time timer, (time, timer, name) ∈ agenda → now ≤ time ∧ ∃ last ∈ deadline, time ≤ last

namespace Leasehold

/-- Nothing is held past the deadline. -/
theorem current (lease : Leasehold agenda name held now deadline) (some : 0 < held) :
    ∃ last ∈ deadline, now ≤ last := by
  obtain ⟨timer, member⟩ := Finset.card_pos.mp (Nat.lt_of_lt_of_le some lease.backed)
  obtain ⟨time, listed⟩ := mem_running.mp member
  obtain ⟨waits, last, here, due⟩ := lease.timely time timer listed
  exact ⟨last, here, Int.le_trans waits due⟩

/-- Nothing is held, and no timer runs. -/
theorem vacant (none : ∀ time timer, (time, timer, name) ∉ agenda) : Leasehold agenda name 0 now deadline :=
  ⟨Nat.zero_le _, fun time timer member => absurd member (none time timer)⟩

/-- The timers of the name are the same, and things may be given up. -/
theorem carry (lease : Leasehold agenda name held now deadline) (given : fewer ≤ held)
    (same : ∀ time timer, (time, timer, name) ∈ after ↔ (time, timer, name) ∈ agenda) :
    Leasehold after name fewer now deadline := by
  refine ⟨?_, fun time timer member => lease.timely time timer ((same time timer).mp member)⟩
  have all := Finset.card_le_card (running_subset fun time timer => (same time timer).mpr)
  exact Nat.le_trans given (Nat.le_trans lease.backed all)

/-- Time passes, but no more than until the first timer of the name is due. -/
theorem wait (lease : Leasehold agenda name held now deadline) {moment : Int}
    (same : ∀ time timer, (time, timer, name) ∈ after ↔ (time, timer, name) ∈ agenda)
    (punctual : ∀ time timer, (time, timer, name) ∈ agenda → moment ≤ time) :
    Leasehold after name held moment deadline := by
  have carried := lease.carry (Nat.le_refl held) same
  exact ⟨carried.backed, fun time timer member =>
    ⟨punctual time timer ((same time timer).mp member), (carried.timely time timer member).2⟩⟩

/-- A timer of the name is called, and one thing goes. -/
theorem lapse {entry : Int × ι × ν} (lease : Leasehold (entry :: after) name held now deadline) :
    Leasehold after name (held - 1) now deadline := by
  refine ⟨?_, fun time timer member => lease.timely time timer (List.mem_cons_of_mem _ member)⟩
  have most : running (entry :: after) name ⊆ insert entry.2.1 (running after name) := by
    intro timer member
    obtain ⟨time, listed⟩ := mem_running.mp member
    rcases List.mem_cons.mp listed with rfl | old
    · exact Finset.mem_insert_self ..
    · exact Finset.mem_insert_of_mem (mem_running.mpr ⟨time, old⟩)
  have backed := lease.backed
  have bound := Nat.le_trans (Finset.card_le_card most) (Finset.card_insert_le ..)
  omega

/-- A new timer is set, and with it there may be one thing more.  Timers of the name may be spent,
each in place of a thing. -/
theorem renew (lease : Leasehold agenda name held now deadline) {more : Nat} (spent : Finset ι) {time : Int}
    (enough : more + spent.card ≤ held + 1) (fresh : timer ∉ running agenda name)
    (set : (time, timer, name) ∈ after)
    (kept : ∀ time other, (time, other, name) ∈ agenda → other ∉ spent → (time, other, name) ∈ after)
    (due : ∀ time timer, (time, timer, name) ∈ after → now ≤ time ∧ ∃ last ∈ later, time ≤ last) :
    Leasehold after name more now later := by
  refine ⟨?_, due⟩
  have all : insert timer (running agenda name \ spent) ⊆ running after name := by
    intro other member
    rcases Finset.mem_insert.mp member with rfl | old
    · exact mem_running.mpr ⟨time, set⟩
    · obtain ⟨listed, unspent⟩ := Finset.mem_sdiff.mp old
      obtain ⟨moment, inside⟩ := mem_running.mp listed
      exact mem_running.mpr ⟨moment, kept moment other inside unspent⟩
  have new : timer ∉ running agenda name \ spent := fun inside => fresh (Finset.mem_sdiff.mp inside).1
  have count := Finset.card_le_card all
  rw [Finset.card_insert_of_notMem new] at count
  have left := Finset.le_card_sdiff spent (running agenda name)
  have backed := lease.backed
  omega

end Leasehold

end PimDm.Foundation
