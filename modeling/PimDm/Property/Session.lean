import PimDm.Source.Interfaces

/-!
# Sessions of the daemon

A session boots the daemon and handles a list of events, as long as each is
allowed and completes.  The messages in it are laid out by the daemon's own
senders.
-/

namespace PimDm.Property

open PimDm.Foundation PimDm.Source

/-- Handle one event if it may happen now and completes. -/
def attempt (host : Host) (allowed : Daemon → Event → Prop) [∀ s event, Decidable (allowed s event)]
    (s : Daemon) (event : Event) : Except Unit Daemon :=
  if allowed s event ∧ event.Enabled s then
    match handle host event s with
    | .ok (_, after) => .ok after
    | .error _ => .error ()
  else .error ()

def session (host : Host) (allowed : Daemon → Event → Prop) [∀ s event, Decidable (allowed s event)]
    (events : List Event) : Except Unit Daemon :=
  match boot host (Daemon.blank fun _ => 0) with
  | .ok (_, start) => replay (attempt host allowed) events start
  | .error _ => .error ()

variable {host : Host} {allowed : Daemon → Event → Prop} [∀ s event, Decidable (allowed s event)]

theorem attempt_sound {before after : Daemon} {event : Event}
    (taken : attempt host allowed before event = .ok after) :
    allowed before event ∧ Step host before event after := by
  unfold attempt at taken
  split at taken
  · rename_i may
    cases handled : handle host event before with
    | error fault =>
        rw [handled] at taken
        cases taken
    | ok result =>
        rw [handled] at taken
        cases taken
        exact ⟨may.1, may.2, handled⟩
  · cases taken

/-- A session that ends has reached its last state. -/
theorem session_reachable {events : List Event} {final : Daemon}
    (ended : session host allowed events = .ok final) : Reachable host allowed final := by
  unfold session at ended
  cases booted : boot host (Daemon.blank fun _ => 0) with
  | error fault =>
      rw [booted] at ended
      cases ended
  | ok result =>
      rw [booted] at ended
      exact ⟨result.2, ⟨_, booted⟩, reaches_of_replay (fun _ _ _ => attempt_sound) ended⟩

/-- The session ends in a state that passes a test. -/
def endsWith (host : Host) (allowed : Daemon → Event → Prop) [∀ s event, Decidable (allowed s event)]
    (events : List Event) (test : Daemon → Bool) : Bool :=
  match session host allowed events with
  | .ok final => test final
  | .error _ => false

theorem reachable_of_endsWith {events : List Event} {test : Daemon → Bool}
    (passed : endsWith host allowed events test = true) :
    ∃ final, Reachable host allowed final ∧ test final = true := by
  unfold endsWith at passed
  cases ended : session host allowed events with
  | error fault =>
      rw [ended] at passed
      cases passed
  | ok final =>
      rw [ended] at passed
      exact ⟨final, session_reachable ended, passed⟩

/-- A session, one more event, and a run with other events from there pass a test
of the three states. -/
def branchEndsWith (host : Host) (allowed permitted : Daemon → Event → Prop)
    [∀ s event, Decidable (allowed s event)] [∀ s event, Decidable (permitted s event)]
    (events : List Event) (event : Event) (more : List Event) (test : Daemon → Daemon → Daemon → Bool) :
    Bool :=
  match session host allowed events with
  | .error _ => false
  | .ok s =>
      match attempt host allowed s event with
      | .error _ => false
      | .ok s' =>
          match replay (attempt host permitted) more s' with
          | .error _ => false
          | .ok later => test s s' later

theorem runs_of_branchEndsWith {permitted : Daemon → Event → Prop}
    [∀ s event, Decidable (permitted s event)] {events : List Event} {event : Event}
    {more : List Event} {test : Daemon → Daemon → Daemon → Bool}
    (passed : branchEndsWith host allowed permitted events event more test = true) :
    ∃ s s' later, Reachable host allowed s ∧ Step host s event s' ∧
      Reaches (Step host) permitted s' later ∧ test s s' later = true := by
  unfold branchEndsWith at passed
  split at passed
  · cases passed
  rename_i s ended
  split at passed
  · cases passed
  rename_i s' taken
  split at passed
  · cases passed
  rename_i later replayed
  have run : Reaches (Step host) permitted s' later :=
    reaches_of_replay (fun _ _ _ => attempt_sound) replayed
  exact ⟨s, s', later, session_reachable ended, (attempt_sound taken).2, run, passed⟩

/-! ## Messages -/

/-- A PIM message received as a sender laid it out. -/
def message (kind : PimMessage) (type : Nat) (length : Int) (write : Memory → Memory) (src : Addr) :
    Event :=
  .pimInput kind src (writePimHeader (write fun _ => 0) type length) (sizeofPim + length)

/-- The fields of a route that a message carries. -/
def named (upstream source group : Addr) : Route :=
  { Mrt.zero.toRoute with upstream := upstream, source := source, group := group }

def helloFrom (src : Addr) (holdtime : Int) : Event :=
  message .hello pimHello 6 (fun buf => writeHello buf holdtime) src

/-- A Join or a Prune of one source, sent to `upstream`. -/
def joinPruneFrom (src upstream source group : Addr) (joins prunes : BitVec 16) : Event :=
  message .joinPrune pimJoinPrune oneSourceLength
    (fun buf => writeOneSource buf (named upstream source group) 0 (htons joins) (htons prunes)) src

def graftFrom (src upstream source group : Addr) : Event :=
  message .graft pimGraft oneSourceLength
    (fun buf => writeOneSource buf (named upstream source group) 0 (htons 1) 0) src

def graftAckFrom (src upstream source group : Addr) : Event :=
  message .graftAck pimGraftAck oneSourceLength
    (fun buf => writeOneSource buf (named upstream source group) 0 (htons 1) 0) src

/-- The upcall of the kernel for a source behind `gateway`. -/
def upcall (number : Nat) (vif : Vif) (gateway source group : Addr) : Event :=
  .multicastPacketError ⟨number, vif, source, group⟩ gateway gateway

/-! ## Runs without Asserts -/

/-- The event is no Assert; without one no assert timer is ever set. -/
def NoAssert (_ : Daemon) : Event → Prop
  | .pimInput .assert .. => False
  | _ => True

instance decidableNoAssert (s : Daemon) : (event : Event) → Decidable (NoAssert s event)
  | .pimInput .assert .. => isFalse id
  | .pimInput .hello .. | .pimInput .joinPrune .. | .pimInput .graft .. | .pimInput .graftAck ..
  | .multicastPacketError .. | .acceptMembershipQuery .. | .acceptGroupReport ..
  | .acceptLeaveMessage .. | .age _ | .expire _ => isTrue trivial

/-! ## A router with three networks -/

/-- Interface `i` has the address 10.0.i.1 in the network 10.0.i.0/24. -/
def router : Host where
  maxvif := 3
  iface vif :=
    { address := dotted 10 0 (BitVec.ofNat 8 vif) 1
      subnet := dotted 10 0 (BitVec.ofNat 8 vif) 0
      subnetMask := dotted 255 255 255 0
      subnetBroadcast := dotted 10 0 (BitVec.ofNat 8 vif) 255
      isActive := decide (1 ≤ vif ∧ vif ≤ 3) }
  mallocMrt _ := Mrt.zero
  mallocGroup _ := IgmpGroup.zero
  freedGroup _ := IgmpGroup.zero
  stackTtls _ := 0

/-- A station in the network of interface `vif`. -/
def stationOn (vif number : Byte) : Addr := dotted 10 0 vif number

/-- An interface that is up and takes multicast, with its address and netmask. -/
def upOn (address netmask : Addr) : Ifreq := ⟨afInet, address, iffUp ||| iffMulticast, netmask⟩

/-- A source that is on none of the networks. -/
def studio : Addr := dotted 172 16 0 9

def channel : Addr := dotted 239 1 1 1

def otherChannel : Addr := dotted 239 1 1 2

/-- A router whose address 10.0.i.9 on interface `i` is larger than those of its neighbours. -/
def upperRouter : Host :=
  { router with iface := fun vif => { router.iface vif with address := stationOn (BitVec.ofNat 8 vif) 9 } }

/-- A router with one network, where its address is the largest. -/
def loneRouter : Host := { upperRouter with maxvif := 1 }

theorem loneRouter_zeroFilled : loneRouter.ZeroFilled := ⟨fun _ => rfl, fun _ => rfl⟩

theorem router_zeroFilled : router.ZeroFilled := ⟨fun _ => rfl, fun _ => rfl⟩

end PimDm.Property
