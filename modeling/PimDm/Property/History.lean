import PimDm.Foundation.Transition
import PimDm.Effect.Agenda
import PimDm.Property.Session

/-!
# Runs of the daemon with a history

What a property says about earlier events is kept in a history beside the state
of the daemon.  A clock counts the seconds by which the timer queue is aged.
-/

namespace PimDm.Property

open PimDm.Foundation PimDm.Source PimDm.Effect

variable {γ : Type} {host : Host} {note : Daemon → Event → Daemon → γ → γ}

/-- The states of the daemon, each with its history, after any run whose events are all allowed. -/
def ReachableWith (host : Host) (note : Daemon → Event → Daemon → γ → γ) (initial : γ)
    (allowed : Daemon × γ → Event → Prop) (reached : Daemon × γ) : Prop :=
  ∃ start, Start host start ∧ Reaches (Monitored (Step host) note) allowed (start, initial) reached

/-! ## Sessions -/

section Sessions

variable (host) (note) (allowed : Daemon × γ → Event → Prop)
variable [∀ before event, Decidable (allowed before event)]

/-- Handle one event, and note it. -/
def watch (before : Daemon × γ) (event : Event) : Except Unit (Daemon × γ) :=
  match attempt host (fun s => allowed (s, before.2)) before.1 event with
  | .ok after => .ok (after, note before.1 event after before.2)
  | .error _ => .error ()

def watchedSession (initial : γ) (events : List Event) : Except Unit (Daemon × γ) :=
  match boot host (Daemon.blank fun _ => 0) with
  | .ok (_, start) => replay (watch host note allowed) events (start, initial)
  | .error _ => .error ()

/-- The session ends in a state and a history that pass a test. -/
def endsWithHistory (initial : γ) (events : List Event) (test : Daemon × γ → Bool) : Bool :=
  match watchedSession host note allowed initial events with
  | .ok final => test final
  | .error _ => false

/-- The session and one more event pass a test of the states before and after the event. -/
def endsWithEvent (initial : γ) (events : List Event) (event : Event)
    (test : Daemon × γ → Daemon × γ → Bool) : Bool :=
  match watchedSession host note allowed initial events with
  | .error _ => false
  | .ok before =>
      match watch host note allowed before event with
      | .error _ => false
      | .ok after => test before after

end Sessions

variable {allowed : Daemon × γ → Event → Prop} [∀ before event, Decidable (allowed before event)]

theorem watch_sound {before after : Daemon × γ} {event : Event}
    (taken : watch host note allowed before event = .ok after) :
    allowed before event ∧ Monitored (Step host) note before event after := by
  unfold watch at taken
  split at taken
  · rename_i state attempted
    obtain ⟨may, stepped⟩ := attempt_sound attempted
    cases taken
    exact ⟨may, stepped, rfl⟩
  · cases taken

theorem watchedSession_reachable {initial : γ} {events : List Event} {final : Daemon × γ}
    (ended : watchedSession host note allowed initial events = .ok final) :
    ReachableWith host note initial allowed final := by
  unfold watchedSession at ended
  split at ended
  · rename_i start booted
    exact ⟨start, ⟨_, booted⟩, reaches_of_replay (fun _ _ _ => watch_sound) ended⟩
  · cases ended

theorem reachable_of_endsWithHistory {initial : γ} {events : List Event} {test : Daemon × γ → Bool}
    (passed : endsWithHistory host note allowed initial events test = true) :
    ∃ final, ReachableWith host note initial allowed final ∧ test final = true := by
  unfold endsWithHistory at passed
  split at passed
  · rename_i final ended
    exact ⟨final, watchedSession_reachable ended, passed⟩
  · cases passed

theorem step_of_endsWithEvent {initial : γ} {events : List Event} {event : Event}
    {test : Daemon × γ → Daemon × γ → Bool}
    (passed : endsWithEvent host note allowed initial events event test = true) :
    ∃ before after, ReachableWith host note initial allowed before ∧ allowed before event ∧
      Monitored (Step host) note before event after ∧ test before after = true := by
  unfold endsWithEvent at passed
  split at passed
  · cases passed
  rename_i before ended
  split at passed
  · cases passed
  rename_i after taken
  obtain ⟨may, noted⟩ := watch_sound taken
  exact ⟨before, after, watchedSession_reachable ended, may, noted, passed⟩

/-! ## Clocks -/

/-- A history with the time, in seconds. -/
structure Timed (γ : Type) where
  now : Int
  seen : γ

/-- How long an event takes: time passes when the queue is aged. -/
def Event.seconds : Event → Nat
  | .age elapsedTime => elapsedTime
  | _ => 0

/-- Note what `record` keeps of an event at its time, and let the time of the event pass. -/
def onClock (record : Int → Event → γ → γ) (_ : Daemon) (event : Event) (_ : Daemon)
    (history : Timed γ) : Timed γ :=
  ⟨history.now + Event.seconds event, record history.now event history.seen⟩

/-- Timers run on time: the queue is aged before any timer in it is overdue. -/
def OnTime (s : Daemon) (now : Int) : Event → Prop
  | .age elapsedTime => ∀ entry ∈ agenda now s, now + elapsedTime ≤ entry.1
  | _ => True

instance decidableOnTime (s : Daemon) (now : Int) : (event : Event) → Decidable (OnTime s now event)
  | .age elapsedTime => inferInstanceAs (Decidable (∀ entry ∈ agenda now s, now + elapsedTime ≤ entry.1))
  | .multicastPacketError .. | .acceptMembershipQuery .. | .acceptGroupReport ..
  | .acceptLeaveMessage .. | .pimInput .. | .expire _ => isTrue trivial

/-- No pending timer is overdue. -/
def NoneOverdue (s : Daemon) (now : Int) : Prop := ∀ entry ∈ agenda now s, now ≤ entry.1

theorem NoneOverdue.age {s : Daemon} (idle : s.expired = []) {now : Int} {elapsedTime : Nat}
    (punctual : ∀ entry ∈ agenda now s, now + elapsedTime ≤ entry.1) :
    NoneOverdue (s.age elapsedTime) (now + elapsedTime) := by
  intro entry member
  rcases agenda_age idle member with waits | ⟨here, _⟩
  · exact punctual entry waits
  · exact Int.le_of_eq here.symm

theorem NoneOverdue.setTimer {s : Daemon} {now : Int} (none : NoneOverdue s now) {delay : Int}
    (later : 0 ≤ delay) (action : Callback) : NoneOverdue (s.setTimer delay action) now := by
  intro entry member
  rcases mem_agenda_setTimer.mp member with rfl | old
  · dsimp only
    omega
  · exact none entry old

/-- Between two batches ageing keeps every alarm, at its time or, if that has come, at the new time. -/
theorem agenda_age_kept {s : Daemon} (idle : s.expired = []) {now : Int} (elapsedTime : Nat)
    {entry : Int × Int × Callback} (member : entry ∈ agenda now s) :
    ∃ time, (time, entry.2) ∈ agenda (now + elapsedTime) (s.age elapsedTime) ∧
      (time = entry.1 ∨ entry.1 ≤ now + elapsedTime ∧ time = now + elapsedTime) := by
  obtain ⟨past, split, detached, overdue⟩ := due_detachExpired now elapsedTime s.queue
  have before : agenda now s =
      past ++ due (now + elapsedTime) (detachExpired elapsedTime s.queue).2 := by
    rw [agenda, idle, split]
    rfl
  rw [before] at member
  rcases List.mem_append.mp member with moved | kept
  · have inside : entry.2 ∈ (detachExpired elapsedTime s.queue).1.map alarm := by
      rw [← detached]
      exact List.mem_map_of_mem moved
    obtain ⟨ptr, member, same⟩ := List.mem_map.mp inside
    refine ⟨_, List.mem_append_left _ ?_, Or.inr ⟨overdue entry moved, rfl⟩⟩
    exact List.mem_map.mpr ⟨ptr, member, by rw [same]⟩
  · exact ⟨entry.1, List.mem_append_right _ kept, Or.inl rfl⟩

/-- An alarm that was pending at its time, between two batches, is so after ageing that does not
make it overdue. -/
theorem agenda_age_punctual {s : Daemon} (idle : s.expired = []) {now : Int} {elapsedTime : Nat}
    {entry : Int × Int × Callback} (member : entry ∈ agenda now s) (punctual : now + elapsedTime ≤ entry.1) :
    entry ∈ agenda (now + elapsedTime) (s.age elapsedTime) := by
  obtain ⟨time, kept, same | ⟨before, late⟩⟩ := agenda_age_kept idle elapsedTime member
  · rwa [same] at kept
  · have here : time = entry.1 := by omega
    rwa [here] at kept

theorem agenda_of_punctual {s : Daemon} (idle : s.expired = []) {now : Int} {elapsedTime : Nat}
    (punctual : ∀ entry ∈ agenda now s, now + elapsedTime ≤ entry.1) {entry : Int × Int × Callback}
    (member : entry ∈ agenda now s) : entry ∈ agenda (now + elapsedTime) (s.age elapsedTime) :=
  agenda_age_punctual idle member (punctual entry member)

end PimDm.Property
