import PimDm.Refinement.Asserts
import PimDm.Property.Session

/-!
# Two routers on a LAN

Both forward a source and group onto the LAN and each hears an Assert of the
other.  Asserts are delivered in any order, and answers travel like the first
ones.  `receive_assert` never closes the interface, so whatever is delivered,
both go on forwarding.
-/

namespace PimDm.Property

open PimDm.Foundation PimDm.Source PimDm.Refinement

/-! ## The LAN -/

inductive Side where
  | left
  | right
  deriving DecidableEq, Repr

def Side.other : Side → Side
  | .left => .right
  | .right => .left

theorem Side.other_other (side : Side) : side.other.other = side := by
  cases side with
  | left => rfl
  | right => rfl

theorem Side.eq_or_other (side one : Side) : one = side ∨ one = side.other := by
  cases side with
  | left =>
      cases one with
      | left => exact Or.inl rfl
      | right => exact Or.inr rfl
  | right =>
      cases one with
      | left => exact Or.inr rfl
      | right => exact Or.inl rfl

theorem Side.other_ne (side : Side) : side.other ≠ side := by
  cases side with
  | left => decide
  | right => decide

/-- The interfaces of two routers on a LAN, and the source and group they forward. -/
structure Lan where
  host : Side → Host
  vif : Side → Vif
  source : Addr
  group : Addr

/-- The address of a router on the LAN. -/
def Lan.address (lan : Lan) (side : Side) : Addr := ((lan.host side).iface (lan.vif side)).address

/-- The two daemons, and the Asserts in flight to each of them. -/
structure LanState where
  router : Side → Daemon
  inbox : Side → List PimPacket

/-- The Assert in an observation, if it is one. -/
def assertIn : Observation → Option PimPacket
  | .pim packet _ => if packet.type = pimAssert then some packet else none
  | _ => none

/-- The Asserts a router has sent since an earlier state. -/
def assertsSince (before after : Daemon) : List PimPacket :=
  (after.trace.take (after.trace.length - before.trace.length)).filterMap assertIn

/-- The LAN after a router has handled one of the Asserts in flight to it. -/
def delivered (state : LanState) (side : Side) (place : Nat) (after : Daemon) : LanState where
  router := Function.update state.router side after
  inbox one :=
    if one = side then (state.inbox side).eraseIdx place
    else state.inbox one ++ assertsSince (state.router side) after

/-- Deliver one of the Asserts in flight to a router: `receive_assert` runs, and the
Asserts it sends are in flight to the other one. -/
def deliver (lan : Lan) (side : Side) (place : Nat) (state : LanState) : Option LanState :=
  match (state.inbox side)[place]? with
  | none => none
  | some packet =>
      match receiveAssert (lan.host side) packet.src (received packet) packet.bytes.length
          (state.router side) with
      | .error _ => none
      | .ok (_, after) => some (delivered state side place after)

/-- Deliveries, as the labelled steps of the LAN. -/
def Delivers (lan : Lan) (before : LanState) (label : Side × Nat) (after : LanState) : Prop :=
  deliver lan label.1 label.2 before = some after

/-- Deliveries in some order lead from one state to the other. -/
abbrev Exchanged (lan : Lan) : LanState → LanState → Prop :=
  Reaches (Delivers lan) fun _ _ => True

/-- No Assert is in flight. -/
def Quiet (state : LanState) : Prop := ∀ side, state.inbox side = []

/-- The router forwards the source and group onto the LAN. -/
def ForwardsOn (lan : Lan) (side : Side) (state : LanState) : Prop :=
  ∃ r, HasEntry (state.router side) lan.source lan.group r ∧ r.outvif (lan.vif side) = 1

/-- One router forwards onto the LAN and the other does not. -/
def Elected (lan : Lan) (state : LanState) : Prop :=
  ∃ side, ForwardsOn lan side state ∧ ¬ ForwardsOn lan side.other state

/-- Both routers forward onto the LAN from another interface, they have distinct
addresses on it, and what is in flight are Asserts that they have sent. -/
structure Contended (lan : Lan) (route : Side → Route) (state : LanState) : Prop where
  shared : ∀ side, findVifDirect (lan.host side) (lan.address side.other) = lan.vif side
  served : ∀ side, lan.vif side ≠ 0
  apart : lan.address .left ≠ lan.address .right
  entry : ∀ side, HasEntry (state.router side) lan.source lan.group (route side)
  downstream : ∀ side, lan.vif side ≠ (route side).incoming
  forwards : ∀ side, (route side).outvif (lan.vif side) = 1
  sent : ∀ side, ∀ packet ∈ state.inbox side, ∃ buf, packet =
    assertPacket (lan.host side.other) (lan.vif side.other) buf lan.source lan.group
      (route side.other).preference (route side.other).metric

/-- The router wins against the Asserts of the other. -/
def WinsOn (lan : Lan) (route : Side → Route) (side : Side) : Prop :=
  Wins (route side) lan.source (route side.other).preference (route side.other).metric

instance (lan : Lan) (route : Side → Route) (side : Side) : Decidable (WinsOn lan route side) :=
  inferInstanceAs (Decidable (Wins ..))

variable {lan : Lan} {route : Side → Route} {state start final : LanState}

/-! ## One delivery -/

section Delivered

variable (state : LanState) (side : Side) (place : Nat) (after : Daemon)

theorem delivered_router_self : (delivered state side place after).router side = after :=
  Function.update_self ..

theorem delivered_router_other :
    (delivered state side place after).router side.other = state.router side.other :=
  Function.update_of_ne side.other_ne ..

theorem delivered_inbox_self :
    (delivered state side place after).inbox side = (state.inbox side).eraseIdx place := if_pos rfl

theorem delivered_inbox_other : (delivered state side place after).inbox side.other =
    state.inbox side.other ++ assertsSince (state.router side) after := if_neg side.other_ne

end Delivered

/-- The Asserts a router answers with. -/
theorem assertsSince_replies {before after : Daemon} {host : Host} {vif : Vif} {buf : Memory}
    {source group : Addr} {r : Route} {preference metric : BitVec 32}
    (trace : after.trace = reply host vif buf source group r preference metric ++ before.trace) :
    assertsSince before after =
      if Wins r source preference metric then
        [assertPacket host vif buf source group r.preference r.metric]
      else [] := by
  unfold assertsSince
  rw [trace, List.length_append, Nat.add_sub_cancel, List.take_left]
  unfold reply
  split
  · rfl
  · rfl

/-- Every Assert in flight can be delivered.  The LAN stays contended, and the receiver
answers with one Assert if it wins and with none if it loses. -/
theorem deliver_contended (contended : Contended lan route state) {side : Side} {place : Nat}
    (inflight : place < (state.inbox side).length) :
    ∃ after, deliver lan side place state = some after ∧ Contended lan route after ∧
      after.inbox side = (state.inbox side).eraseIdx place ∧
      ∃ answers, after.inbox side.other = state.inbox side.other ++ answers ∧
        answers.length = if WinsOn lan route side then 1 else 0 := by
  obtain ⟨packet, here⟩ : ∃ packet, (state.inbox side)[place]? = some packet :=
    ⟨_, List.getElem?_eq_getElem inflight⟩
  obtain ⟨buf, rfl⟩ := contended.sent side packet (List.mem_of_getElem? here)
  obtain ⟨after, run, entry, trace⟩ := receiveAssert_replies (contended.entry side)
    (contended.downstream side) (contended.forwards side) (contended.shared side)
    (contended.served side) buf
  have answered : assertsSince (state.router side) after =
      if WinsOn lan route side then
        [assertPacket (lan.host side) (lan.vif side) (state.router side).pimSendBuf lan.source lan.group
          (route side).preference (route side).metric]
      else [] := assertsSince_replies trace
  have taken : deliver lan side place state = some (delivered state side place after) := by
    have ran : receiveAssert (lan.host side)
        (assertPacket (lan.host side.other) (lan.vif side.other) buf lan.source lan.group
          (route side.other).preference (route side.other).metric).src _ _ (state.router side) =
        .ok ((), after) := run
    unfold deliver
    rw [here]
    dsimp only
    rw [ran]
  refine ⟨delivered state side place after, taken, ?_, ?_, assertsSince (state.router side) after, ?_, ?_⟩
  · refine { contended with entry := fun one => ?_, sent := fun one packet inside => ?_ }
    · rcases side.eq_or_other one with rfl | rfl
      · rw [delivered_router_self]
        exact entry
      · rw [delivered_router_other]
        exact contended.entry side.other
    · rcases side.eq_or_other one with rfl | rfl
      · rw [delivered_inbox_self] at inside
        exact contended.sent _ packet (List.mem_of_mem_eraseIdx inside)
      · rw [delivered_inbox_other, List.mem_append] at inside
        rcases inside with old | new
        · exact contended.sent _ packet old
        · rw [answered] at new
          rw [side.other_other]
          split at new
          · exact ⟨_, List.mem_singleton.mp new⟩
          · cases new
  · exact delivered_inbox_self ..
  · exact delivered_inbox_other ..
  · rw [answered]
    by_cases wins : WinsOn lan route side
    · rw [if_pos wins, if_pos wins]
      rfl
    · rw [if_neg wins, if_neg wins]
      rfl

/-- What a delivery does, read from the step. -/
theorem contended_of_delivers (contended : Contended lan route state) {label : Side × Nat}
    {after : LanState} (taken : Delivers lan state label after) :
    Contended lan route after ∧ ∃ answers,
      after.inbox label.1.other = state.inbox label.1.other ++ answers ∧
        answers.length = if WinsOn lan route label.1 then 1 else 0 := by
  have inflight : label.2 < (state.inbox label.1).length := by
    by_contra beyond
    have none : (state.inbox label.1)[label.2]? = none :=
      List.getElem?_eq_none (Nat.le_of_not_lt beyond)
    unfold Delivers deliver at taken
    rw [none] at taken
    cases taken
  obtain ⟨other, again, still, _, answers⟩ := deliver_contended contended inflight
  obtain rfl := Option.some.inj (again.symm.trans taken)
  exact ⟨still, answers⟩

/-! ## Runs -/

/-- Whatever is delivered, the LAN stays contended. -/
theorem contended_exchanged (contended : Contended lan route start) (run : Exchanged lan start final) :
    Contended lan route final :=
  run.keeps contended fun _ _ _ contended _ taken => (contended_of_delivers contended taken).1

theorem Contended.forwardsOn (contended : Contended lan route state) (side : Side) :
    ForwardsOn lan side state :=
  ⟨route side, contended.entry side, contended.forwards side⟩

theorem Contended.not_elected (contended : Contended lan route state) : ¬ Elected lan state := by
  rintro ⟨side, _, closed⟩
  exact closed (contended.forwardsOn side.other)

/-- If both routers win, some Assert is always in flight. -/
theorem never_quiet (contended : Contended lan route start) (wins : ∀ side, WinsOn lan route side)
    (sent : ∀ side, start.inbox side ≠ []) (run : Exchanged lan start final) : ¬ Quiet final := by
  have busy : Contended lan route final ∧ ∃ side, final.inbox side ≠ [] := by
    refine run.keeps (P := fun state => Contended lan route state ∧ ∃ side, state.inbox side ≠ [])
      ⟨contended, .left, sent .left⟩ ?_
    rintro before label after ⟨contended, _⟩ _ taken
    obtain ⟨still, answers, inbox, count⟩ := contended_of_delivers contended taken
    refine ⟨still, label.1.other, ?_⟩
    rw [if_pos (wins label.1)] at count
    rw [inbox]
    intro empty
    rw [(List.append_eq_nil_iff.mp empty).2] at count
    cases count
  intro quiet
  obtain ⟨side, more⟩ := busy.2
  exact more (quiet side)

/-- All Asserts to a router can be delivered.  If it loses it sends none. -/
theorem drained (contended : Contended lan route state) (side : Side) :
    ∃ after, Exchanged lan state after ∧ Contended lan route after ∧ after.inbox side = [] ∧
      (¬ WinsOn lan route side → after.inbox side.other = state.inbox side.other) := by
  induction size : (state.inbox side).length generalizing state with
  | zero =>
      exact ⟨state, .refl state, contended, List.eq_nil_of_length_eq_zero size, fun _ => rfl⟩
  | succ rest ih =>
      have inflight : 0 < (state.inbox side).length := by omega
      obtain ⟨next, taken, still, inbox, answers, other, count⟩ := deliver_contended contended inflight
      have shorter : (next.inbox side).length = rest := by
        rw [inbox, List.length_eraseIdx_of_lt inflight]
        omega
      obtain ⟨after, run, last, empty, silent⟩ := ih still shorter
      have step : Delivers lan state (side, 0) next := taken
      refine ⟨after, .cons trivial step run, last, empty, fun loses => ?_⟩
      rw [if_neg loses] at count
      rw [silent loses, other, List.eq_nil_of_length_eq_zero count, List.append_nil]

/-- If one of the routers loses, the Asserts run out in some order. -/
theorem quiet_reached (contended : Contended lan route start) {side : Side}
    (loses : ¬ WinsOn lan route side) : ∃ final, Exchanged lan start final ∧ Quiet final := by
  obtain ⟨middle, first, still, emptied, _⟩ := drained contended side.other
  obtain ⟨final, second, _, empty, silent⟩ := drained still side
  refine ⟨final, first.trans second, fun one => ?_⟩
  rcases side.eq_or_other one with rfl | rfl
  · exact empty
  · rw [silent loses, emptied]

/-! ## The property -/

/-- In every state that any order of deliveries reaches, both routers forward onto the
LAN.  So no router is elected, unless both win every comparison and the Asserts never
end. -/
theorem assert_elects_iff (contended : Contended lan route start) (sent : ∀ side, start.inbox side ≠ []) :
    (∀ final, Exchanged lan start final → ∀ side, ForwardsOn lan side final) ∧
      ((∀ final, Exchanged lan start final → Quiet final → Elected lan final) ↔
        ∀ side, WinsOn lan route side) := by
  refine ⟨fun final run => (contended_exchanged contended run).forwardsOn, ?_⟩
  constructor
  · intro elects side
    by_contra loses
    obtain ⟨final, run, quiet⟩ := quiet_reached contended loses
    exact (contended_exchanged contended run).not_elected (elects final run quiet)
  · intro wins final run quiet
    exact absurd quiet (never_quiet contended wins sent run)

/-! ## A LAN with two routers -/

/-- The router with the addresses 10.0.i.2. -/
def rival : Host :=
  { router with
    iface := fun vif => { router.iface vif with address := stationOn (BitVec.ofNat 8 vif) 2 } }

/-- Network 2 of the two routers. -/
def network : Lan where
  host
    | .left => router
    | .right => rival
  vif _ := 2
  source := studio
  group := channel

/-- The entry forwards from network 1 onto network 2 and has heard no Assert. -/
def Contending (e : Mrt) : Prop :=
  e.incoming = 1 ∧ e.outvif 2 = 1 ∧ e.preference = 0 ∧ e.metric = 0 ∧ e.upstream = stationOn 1 7

instance (e : Mrt) : Decidable (Contending e) := inferInstanceAs (Decidable (_ ∧ _ ∧ _ ∧ _ ∧ _))

/-- A neighbour on network 2, and a source behind a router of network 1. -/
def contendingEvents : List Event :=
  [helloFrom (stationOn 2 9) 105, upcall 1 1 (stationOn 1 7) studio channel]

theorem contending_session {host : Host} (passed : endsWith host NoAssert contendingEvents
      (fun s => decide (InTable s studio channel ∧
        slot (fun e => if Contending e then 1 else 0) s studio channel = some 1)) = true) :
    ∃ s e, Reachable host NoAssert s ∧ HasEntry s studio channel e.toRoute ∧ Contending e := by
  obtain ⟨s, reached, found⟩ := reachable_of_endsWith passed
  obtain ⟨inside, marked⟩ := of_decide_eq_true found
  obtain ⟨mymrt, e, finds, nonnull, here⟩ := inside.found
  rw [slot_found finds, here] at marked
  refine ⟨s, e, reached, ⟨mymrt, e, finds, nonnull, here, rfl⟩, ?_⟩
  by_contra other
  simp [other] at marked

/-- The value of one side or the other. -/
def Side.pick {α : Type} (left right : α) : Side → α
  | .left => left
  | .right => right

/-- Two such routers, each with the Assert of the other in flight. -/
theorem network_contended : ∃ route start, (∀ side, Reachable (network.host side) NoAssert
      (start.router side)) ∧ Contended network route start ∧ (∀ side, start.inbox side ≠ []) ∧
    ∀ side, ¬ WinsOn network route side := by
  have first : endsWith router NoAssert contendingEvents (fun s => decide (InTable s studio channel ∧
      slot (fun e => if Contending e then 1 else 0) s studio channel = some 1)) = true := by
    decide +kernel
  have second : endsWith rival NoAssert contendingEvents (fun s => decide (InTable s studio channel ∧
      slot (fun e => if Contending e then 1 else 0) s studio channel = some 1)) = true := by
    decide +kernel
  obtain ⟨left, e, leftReached, leftEntry, leftContends⟩ := contending_session first
  obtain ⟨right, e', rightReached, rightEntry, rightContends⟩ := contending_session second
  have contends : ∀ side, Contending (Side.pick e e' side)
    | .left => leftContends
    | .right => rightContends
  refine ⟨fun side => (Side.pick e e' side).toRoute,
    { router := Side.pick left right
      inbox := fun side => [assertPacket (network.host side.other) 2 (fun _ => 0) studio channel
        (Side.pick e e' side.other).preference (Side.pick e e' side.other).metric] },
    fun side => ?_, ?_, fun side => by simp, fun side => ?_⟩
  · cases side with
    | left => exact leftReached
    | right => exact rightReached
  · refine ⟨fun side => ?_, fun _ => Nat.succ_ne_zero 1, by decide +kernel, fun side => ?_, fun side => ?_,
      fun side => (contends side).2.1, fun side packet inside => ⟨fun _ => 0, List.mem_singleton.mp inside⟩⟩
    · cases side with
      | left => decide +kernel
      | right => decide +kernel
    · cases side with
      | left => exact leftEntry
      | right => exact rightEntry
    · intro same
      have incoming : (Side.pick e e' side).incoming = 1 := (contends side).1
      rw [show (Side.pick e e' side).toRoute.incoming = (Side.pick e e' side).incoming from rfl,
        incoming] at same
      exact absurd same (by decide : ¬ (2 : Nat) = 1)
  · obtain ⟨_, _, preference, metric, upstream⟩ := contends side
    obtain ⟨_, _, otherPreference, otherMetric, _⟩ := contends side.other
    unfold WinsOn Wins
    dsimp only
    rw [preference, metric, upstream, otherPreference, otherMetric]
    decide +kernel

/-- Each router of that LAN hears one Assert, sets a timer and goes on forwarding. -/
theorem assert_elects_nobody :
    ¬ ∀ (lan : Lan) route start, Contended lan route start → (∀ side, start.inbox side ≠ []) →
      ∀ final, Exchanged lan start final → Quiet final → Elected lan final := by
  intro elects
  obtain ⟨route, start, _, contended, sent, loses⟩ := network_contended
  obtain ⟨final, run, quiet⟩ := quiet_reached contended (loses .left)
  exact (contended_exchanged contended run).not_elected (elects network route start contended sent final run quiet)

theorem assert_elects_iff_session : ∃ route start, Contended network route start ∧
    (∀ final, Exchanged network start final → ∀ side, ForwardsOn network side final) ∧
      ¬ ∀ final, Exchanged network start final → Quiet final → Elected network final := by
  obtain ⟨route, start, _, contended, sent, loses⟩ := network_contended
  obtain ⟨forwards, elects⟩ := assert_elects_iff contended sent
  exact ⟨route, start, contended, forwards, fun every => loses .left (elects.mp every .left)⟩

end PimDm.Property
