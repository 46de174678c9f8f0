import PimDm.Foundation.Broadcast
import PimDm.Property.Election
import PimDm.Refinement.Echoes

/-!
# Echoes of a Prune on a LAN

Any number of routers are on a LAN, and a Join/Prune with one group and one source is
put on it.  A router that echoes the message sends the echo to all of them, itself
included.  The echo is echoed again only if the message carries no router address.
-/

namespace PimDm.Property

open PimDm.Foundation PimDm.Source PimDm.Refinement

variable {ι : Type}

/-! ## The LAN -/

/-- Routers on a LAN, and the interface of each to it. -/
structure Segment (ι : Type) where
  host : ι → Host
  vif : ι → Vif

namespace Segment

/-- The address of a router on the LAN. -/
def address (seg : Segment ι) (i : ι) : Addr := ((seg.host i).iface (seg.vif i)).address

/-- The Join/Prune in an observation, if it is one. -/
def joinPruneIn : Observation → Option PimPacket
  | .pim packet _ => if packet.type = pimJoinPrune then some packet else none
  | _ => none

/-- The Join/Prunes a router has sent since an earlier state. -/
def joinPrunesSince (before after : Daemon) : List PimPacket :=
  (after.trace.take (after.trace.length - before.trace.length)).filterMap joinPruneIn

/-- A router receives a Join/Prune.  What it sends goes out on the LAN if it is sent from
its address there. -/
def medium (seg : Segment ι) : Medium ι Daemon PimPacket where
  receive i packet s :=
    match receiveJoinPrune (seg.host i) packet.src (received packet) packet.bytes.length s with
    | .error _ => none
    | .ok (_, after) => some (after, joinPrunesSince s after)
  carries i packet := packet.src == seg.address i

variable (seg : Segment ι) (packet : PimPacket) (routers : ι → Daemon)

/-- The router echoes the message onto the LAN. -/
def EchoesOn (i : ι) : Prop :=
  Echoes (seg.host i) (routers i) packet ∧
    ((seg.host i).iface (findVifDirect (seg.host i) packet.src)).address = seg.address i

/-- The router has an entry for a message of another router, and takes that as a neighbour. -/
def Hears (i sender : ι) : Prop :=
  findVifDirect (seg.host i) (seg.address sender) ≠ 0 ∧
    Relayed (routers i) (namedSource (received packet)) (namedGroup (received packet))

end Segment

/-- The message is on its way to every router, and in whatever order it and its echoes
are delivered, no echo is echoed, a router echoes at most once and only a message that
is addressed to it, and the exchange ends. -/
structure EchoEnds [Fintype ι] [DecidableEq ι] (seg : Segment ι) (packet : PimPacket)
    (routers : ι → Daemon) : Prop where
  firsthand : ∀ net, seg.medium.Exchanges (Net.start routers packet) net →
    ∀ answer ∈ net.answered, answer.2 = false
  once : ∀ net, seg.medium.Exchanges (Net.start routers packet) net → (net.answered.map Prod.fst).Nodup
  addressed : ∀ net, seg.medium.Exchanges (Net.start routers packet) net →
    ∀ answer ∈ net.answered, Addressed (seg.host answer.1) packet
  ends : Ends seg.medium.Delivers (Net.start routers packet)

/-! ## One delivery -/

section Receiving

variable {seg : Segment ι} {packet : PimPacket} {i : ι} {s after : Daemon} {answers : List PimPacket}

/-- A router that echoes answers with its echo. -/
theorem receive_echoes (one : OneSource packet) (echoes : Echoes (seg.host i) s packet) : ∃ after,
    seg.medium.receive i packet s = some (after, [echo (seg.host i) s.pimSendBuf packet]) ∧
      routes after = routes s := by
  obtain ⟨after, run, trace⟩ := receiveJoinPrune_echoes one echoes
  have sent : Segment.joinPrunesSince s after = [echo (seg.host i) s.pimSendBuf packet] := by
    unfold Segment.joinPrunesSince
    rw [trace, List.length_cons, Nat.add_sub_cancel_left, List.take_succ_cons, List.take_zero]
    rfl
  have ran : receiveJoinPrune (seg.host i) packet.src (received packet) packet.bytes.length s = .ok ((), after) := run
  refine ⟨after, ?_, receiveJoinPrune_routes run⟩
  unfold Segment.medium
  dsimp only
  rw [ran, ← sent]

/-- A router answers with its echo or not at all. -/
theorem receive_answers (one : OneSource packet) (taken : seg.medium.receive i packet s = some (after, answers)) :
    routes after = routes s ∧ ((Echoes (seg.host i) s packet ∧ answers = [echo (seg.host i) s.pimSendBuf packet]) ∨
      (¬ Echoes (seg.host i) s packet ∧ answers = [])) := by
  by_cases echoes : Echoes (seg.host i) s packet
  · obtain ⟨other, again, kept⟩ := receive_echoes one echoes
    obtain ⟨rfl, rfl⟩ := Prod.mk.inj (Option.some.inj (again.symm.trans taken))
    exact ⟨kept, Or.inl ⟨echoes, rfl⟩⟩
  · have received_ := taken
    unfold Segment.medium at received_
    dsimp only at received_
    split at received_
    · cases received_
    · rename_i result state ran
      obtain ⟨rfl, rfl⟩ := Prod.mk.inj (Option.some.inj received_)
      have run : Runs (receiveJoinPrune (seg.host i) packet.src (received packet) packet.bytes.length) s () state := ran
      have none : Segment.joinPrunesSince s state = [] := by
        unfold Segment.joinPrunesSince
        rw [receiveJoinPrune_silent one echoes run, Nat.sub_self, List.take_zero, List.filterMap_nil]
      exact ⟨receiveJoinPrune_routes run, Or.inr ⟨echoes, none⟩⟩

end Receiving

/-! ## Exchanges that end -/

variable {seg : Segment ι} {packet : PimPacket} {routers : ι → Daemon} {net : Net ι Daemon PimPacket}

/-- What is in flight is the message or an echo of it. -/
structure Echoing (seg : Segment ι) (packet : PimPacket) (routers : ι → Daemon)
    (net : Net ι Daemon PimPacket) : Prop where
  kept : ∀ i, routes (net.node i) = routes (routers i)
  inflight : ∀ copy ∈ net.inflight, (copy.answer = false ∧ copy.message = packet) ∨
    (copy.answer = true ∧ ∃ i buf, seg.EchoesOn packet routers i ∧ copy.message = echo (seg.host i) buf packet)
  addressed : ∀ answer ∈ net.answered, Addressed (seg.host answer.1) packet

/-- No router hears an echo that it would echo. -/
def Quenched (seg : Segment ι) (packet : PimPacket) (routers : ι → Daemon) : Prop :=
  upstreamOf packet ≠ 0 ∨ ∀ sender i, seg.EchoesOn packet routers sender → ¬ seg.Hears packet routers i sender

/-- The routes decide whether a router echoes. -/
theorem echoes_kept (same : routes (net.node i) = routes (routers i)) :
    Echoes (seg.host i) (net.node i) packet ↔ Echoes (seg.host i) (routers i) packet := by
  constructor
  · rintro ⟨prunes, direct, addressed, relayed⟩
    exact ⟨prunes, direct, addressed, (relayed_congr same _ _).mp relayed⟩
  · rintro ⟨prunes, direct, addressed, relayed⟩
    exact ⟨prunes, direct, addressed, (relayed_congr same _ _).mpr relayed⟩

/-- An echo is not echoed. -/
theorem Echoing.quiet (echoing : Echoing seg packet routers net) (one : OneSource packet)
    (quenched : Quenched seg packet routers) {sender i : ι} {buf : Memory}
    (sent : seg.EchoesOn packet routers sender) :
    ¬ Echoes (seg.host i) (net.node i) (echo (seg.host sender) buf packet) := by
  intro again
  obtain ⟨none, direct, relayed⟩ := (echoes_echo_iff one sent.1).mp again
  rcases quenched with given | apart
  · exact given none
  · refine apart sender i sent ⟨?_, (relayed_congr (echoing.kept i) _ _).mp relayed⟩
    rw [← sent.2]
    exact direct

/-- What the copies in flight are answered with. -/
theorem Echoing.answers (echoing : Echoing seg packet routers net) (one : OneSource packet)
    (quenched : Quenched seg packet routers) {copy : Copy ι PimPacket} (inflight : copy ∈ net.inflight)
    {after : Daemon} {answers : List PimPacket}
    (taken : seg.medium.receive copy.target copy.message (net.node copy.target) = some (after, answers)) :
    routes after = routes (net.node copy.target) ∧ (answers = [] ∨ (copy.answer = false ∧
      Echoes (seg.host copy.target) (routers copy.target) packet ∧
        ∃ buf, answers = [echo (seg.host copy.target) buf packet])) := by
  rcases echoing.inflight copy inflight with ⟨first, message⟩ | ⟨_, sender, buf, sent, message⟩
  · rw [message] at taken
    obtain ⟨kept, ⟨echoes, given⟩ | ⟨_, none⟩⟩ := receive_answers one taken
    · exact ⟨kept, Or.inr ⟨first, (echoes_kept (echoing.kept _)).mp echoes, _, given⟩⟩
    · exact ⟨kept, Or.inl none⟩
  · rw [message] at taken
    obtain ⟨kept, ⟨echoes, _⟩ | ⟨_, none⟩⟩ := receive_answers one.echo taken
    · exact absurd echoes (echoing.quiet one quenched sent)
    · exact ⟨kept, Or.inl none⟩

variable [Fintype ι]

theorem echoing_start (packet : PimPacket) (routers : ι → Daemon) :
    Echoing seg packet routers (Net.start routers packet) where
  kept _ := rfl
  inflight copy member := by
    obtain ⟨message, first⟩ := mem_copies.mp member
    exact Or.inl ⟨first, message⟩
  addressed answer member := absurd member (Multiset.notMem_zero answer)

variable [DecidableEq ι]

theorem echoing_settles (one : OneSource packet) (quenched : Quenched seg packet routers) :
    seg.medium.Settles (Echoing seg packet routers) where
  once net copy after answers echoing inflight taken := by
    rcases (echoing.answers one quenched inflight taken).2 with none | ⟨first, _, buf, given⟩
    · rw [none]
      exact Nat.zero_le _
    · rw [given, first]
      exact Nat.le_refl 1
  kept net copy next echoing taken := by
    obtain ⟨inflight, after, answers, received_, rfl⟩ := Medium.delivers_iff.mp taken
    obtain ⟨same, given⟩ := echoing.answers one quenched inflight received_
    refine ⟨fun i => ?_, fun other member => ?_, fun answer member => ?_⟩
    · exact (seg.medium.delivered_node routes same answers i).trans (echoing.kept i)
    · rcases Multiset.mem_add.mp member with old | new
      · exact echoing.inflight other (Multiset.mem_of_mem_erase old)
      · obtain ⟨sent, carried, isAnswer⟩ := (Medium.mem_spread _).mp new
        rcases given with none | ⟨_, echoes, buf, given⟩
        · rw [none] at sent
          cases sent
        · rw [given, List.mem_singleton] at sent
          refine Or.inr ⟨isAnswer, copy.target, buf, ⟨echoes, ?_⟩, sent⟩
          rw [sent] at carried
          exact eq_of_beq carried
    · rcases Multiset.mem_add.mp member with old | new
      · exact echoing.addressed answer old
      · obtain ⟨some, rfl⟩ := Multiset.mem_replicate.mp new
        rcases given with none | ⟨_, echoes, _⟩
        · rw [none] at some
          exact absurd rfl some
        · exact echoes.addressed

/-- The echoes end if no router hears one that it would echo. -/
theorem echoEnds_of_quenched (one : OneSource packet) (quenched : Quenched seg packet routers) :
    EchoEnds seg packet routers := by
  have settles := echoing_settles one quenched
  have start : Echoing seg packet routers _ := echoing_start packet routers
  refine ⟨fun net run => ?_, fun net run => settles.once_each start run, fun net run => ?_, settles.ends start⟩
  · exact settles.firsthand start (fun answer member => absurd member (Multiset.notMem_zero answer)) run
  · exact (run.keeps start fun _ _ _ echoing _ taken => settles.kept _ _ _ echoing taken).addressed

/-! ## Exchanges that do not end -/

/-- A copy of a message that its receiver echoes can be delivered. -/
theorem delivers_echo {copy : Copy ι PimPacket} (inflight : copy ∈ net.inflight) (one : OneSource copy.message)
    (echoes : Echoes (seg.host copy.target) (net.node copy.target) copy.message) : ∃ next buf,
    seg.medium.Delivers net copy next ∧ (∀ i, routes (next.node i) = routes (net.node i)) ∧
      next.inflight = net.inflight.erase copy +
        seg.medium.spread copy.target [echo (seg.host copy.target) buf copy.message] ∧
      next.answered = net.answered + {(copy.target, copy.answer)} := by
  obtain ⟨after, received_, same⟩ := receive_echoes one echoes
  refine ⟨_, _, Medium.delivers_iff.mpr ⟨inflight, after, _, received_, rfl⟩, ?_, rfl, ?_⟩
  · exact seg.medium.delivered_node routes same _
  · exact congrArg (net.answered + ·) (Multiset.replicate_one _)

/-- A router that hears an echo of a message without router address echoes it. -/
theorem not_firsthand (one : OneSource packet) (none : upstreamOf packet = 0) {sender i : ι}
    (sent : seg.EchoesOn packet routers sender) (hears : seg.Hears packet routers i sender) :
    ¬ EchoEnds seg packet routers := by
  intro ends
  have first : (⟨sender, packet, false⟩ : Copy ι PimPacket) ∈ (Net.start routers packet).inflight :=
    mem_copies.mpr ⟨rfl, rfl⟩
  obtain ⟨middle, buf, taken, kept, inflight, _⟩ := delivers_echo first one sent.1
  have second : (⟨i, echo (seg.host sender) buf packet, true⟩ : Copy ι PimPacket) ∈ middle.inflight := by
    rw [inflight]
    refine Multiset.mem_add.mpr (Or.inr ((Medium.mem_spread _).mpr ⟨List.mem_singleton_self _, ?_, rfl⟩))
    exact beq_iff_eq.mpr sent.2
  have echoes : Echoes (seg.host i) (middle.node i) (echo (seg.host sender) buf packet) := by
    refine (echoes_echo_iff one sent.1).mpr ⟨none, ?_, (relayed_congr (kept i) _ _).mpr hears.2⟩
    rw [sent.2]
    exact hears.1
  obtain ⟨last, _, again, _, _, answered⟩ := delivers_echo second one.echo echoes
  have run : seg.medium.Exchanges (Net.start routers packet) last :=
    .cons trivial taken (.cons trivial again (.refl last))
  have echoed : ((i, true) : ι × Bool) ∈ last.answered := by
    rw [answered]
    exact Multiset.mem_add.mpr (Or.inr (Multiset.mem_singleton_self _))
  cases ends.firsthand last run _ echoed

/-- A router has an entry for the echoes of another one, and echoes them onto the LAN. -/
def Segment.Returns (seg : Segment ι) (packet : PimPacket) (routers : ι → Daemon) (i sender : ι) : Prop :=
  seg.Hears packet routers i sender ∧
    ((seg.host i).iface (findVifDirect (seg.host i) (seg.address sender))).address = seg.address i

/-- The message prunes the same source and group, carries no router address and is sent by
the router. -/
structure Resent (seg : Segment ι) (packet : PimPacket) (sender : ι) (again : PimPacket) : Prop where
  one : OneSource again
  prunes : Prunes again
  src : again.src = seg.address sender
  upstream : upstreamOf again = 0
  source : namedSource (received again) = namedSource (received packet)
  group : namedGroup (received again) = namedGroup (received packet)

omit [Fintype ι] [DecidableEq ι] in
theorem Resent.echo {sender i : ι} {again : PimPacket} (resent : Resent seg packet sender again)
    (returns : seg.Returns packet routers i sender) (buf : Memory) :
    Resent seg packet i (echo (seg.host i) buf again) where
  one := resent.one.echo
  prunes := prunes_echo resent.one resent.prunes
  src := by
    have sent : (Refinement.echo (seg.host i) buf again).src =
        ((seg.host i).iface (findVifDirect (seg.host i) again.src)).address := rfl
    rw [sent, resent.src]
    exact returns.2
  upstream := upstreamOf_echo.trans resent.upstream
  source := namedSource_echo.trans resent.source
  group := namedGroup_echo.trans resent.group

/-- A message of one of two routers is on its way to the other, which returns it. -/
structure Tossed (seg : Segment ι) (packet : PimPacket) (routers : ι → Daemon) (net : Net ι Daemon PimPacket) :
    Prop where
  kept : ∀ i, routes (net.node i) = routes (routers i)
  tossed : ∃ sender i again, seg.Returns packet routers i sender ∧ seg.Returns packet routers sender i ∧
    Resent seg packet sender again ∧ (⟨i, again, true⟩ : Copy ι PimPacket) ∈ net.inflight

theorem Tossed.returned (tossed : Tossed seg packet routers net) :
    ∃ copy next, seg.medium.Delivers net copy next ∧ Tossed seg packet routers next := by
  obtain ⟨sender, i, again, forth, back, resent, inflight⟩ := tossed.tossed
  have echoes : Echoes (seg.host i) (net.node i) again := by
    refine ⟨resent.prunes, ?_, Or.inr resent.upstream, ?_⟩
    · rw [resent.src]
      exact forth.1.1
    · rw [resent.source, resent.group]
      exact (relayed_congr (tossed.kept i) _ _).mpr forth.1.2
  obtain ⟨next, buf, taken, kept, flying, _⟩ := delivers_echo inflight resent.one echoes
  have returned := resent.echo forth buf
  refine ⟨_, next, taken, fun k => (kept k).trans (tossed.kept k), i, sender, _, back, forth, returned, ?_⟩
  rw [flying]
  refine Multiset.mem_add.mpr (Or.inr ((Medium.mem_spread _).mpr ⟨List.mem_singleton_self _, ?_, rfl⟩))
  exact beq_iff_eq.mpr returned.src

/-- Two routers that return the echoes of each other never stop. -/
theorem echo_storm (one : OneSource packet) (none : upstreamOf packet = 0) {sender i : ι}
    (sent : seg.EchoesOn packet routers sender) (forth : seg.Returns packet routers i sender)
    (back : seg.Returns packet routers sender i) : ¬ Ends seg.medium.Delivers (Net.start routers packet) := by
  have first : (⟨sender, packet, false⟩ : Copy ι PimPacket) ∈ (Net.start routers packet).inflight :=
    mem_copies.mpr ⟨rfl, rfl⟩
  obtain ⟨middle, buf, taken, kept, inflight, _⟩ := delivers_echo first one sent.1
  have resent : Resent seg packet sender (echo (seg.host sender) buf packet) :=
    ⟨one.echo, prunes_echo one sent.1.prunes, sent.2, upstreamOf_echo.trans none, namedSource_echo, namedGroup_echo⟩
  have tossed : Tossed seg packet routers middle := by
    refine ⟨kept, sender, i, _, forth, back, resent, ?_⟩
    rw [inflight]
    refine Multiset.mem_add.mpr (Or.inr ((Medium.mem_spread _).mpr ⟨List.mem_singleton_self _, ?_, rfl⟩))
    exact beq_iff_eq.mpr sent.2
  intro ends
  exact endless (fun net tossed => tossed.returned) tossed (ends.inv ⟨_, taken⟩)

/-! ## The property -/

/-- For any number of routers: no echo is echoed, a router echoes at most once and the
exchange ends, exactly if the message carries a router address or no router hears an
echo of it that it would echo. -/
theorem prune_echo_ends (one : OneSource packet) :
    EchoEnds seg packet routers ↔ upstreamOf packet ≠ 0 ∨
      ∀ sender i, seg.EchoesOn packet routers sender → ¬ seg.Hears packet routers i sender := by
  refine ⟨fun ends => ?_, echoEnds_of_quenched one⟩
  by_contra open_
  obtain ⟨given, meets⟩ := not_or.mp open_
  obtain ⟨sender, meets⟩ := not_forall.mp meets
  obtain ⟨i, meets⟩ := not_forall.mp meets
  obtain ⟨sent, hears⟩ := Classical.not_imp.mp meets
  exact not_firsthand one (not_not.mp given) sent (not_not.mp hears) ends

/-! ## Two routers and a Prune -/

/-- The second network of the two routers. -/
def wire : Segment Side where
  host
    | .left => router
    | .right => rival
  vif _ := 2

/-- A Prune that a station of the second network sends. -/
def pruneOn (upstream : Addr) : PimPacket :=
  ⟨pimJoinPrune, stationOn 2 7, allpimrouters, (List.range (sizeofPim + oneSourceLength).toNat).map
    fun place : Nat => writePimHeader (writeOneSource (fun _ => 0) (named upstream studio channel) 0 (htons 0)
      (htons 1)) pimJoinPrune oneSourceLength place⟩

instance : Fintype Side := ⟨{.left, .right}, fun side => by cases side <;> decide⟩

/-- Both routers have an entry whose source is behind another router. -/
theorem wire_relayed : ∃ routers : Side → Daemon, (∀ side, Reachable (wire.host side) NoAssert (routers side)) ∧
    ∀ side, Relayed (routers side) studio channel := by
  have first : endsWith router NoAssert contendingEvents (fun s => decide (Relayed s studio channel)) = true := by
    decide +kernel
  have second : endsWith rival NoAssert contendingEvents (fun s => decide (Relayed s studio channel)) = true := by
    decide +kernel
  obtain ⟨left, leftReached, leftRelayed⟩ := reachable_of_endsWith first
  obtain ⟨right, rightReached, rightRelayed⟩ := reachable_of_endsWith second
  refine ⟨Side.pick left right, fun side => ?_, fun side => ?_⟩
  · cases side with
    | left => exact leftReached
    | right => exact rightReached
  · cases side with
    | left => exact of_decide_eq_true leftRelayed
    | right => exact of_decide_eq_true rightRelayed

theorem oneSource_pruneOn {upstream : Addr} (given : upstream = 0 ∨ upstream = stationOn 2 1) :
    OneSource (pruneOn upstream) := by
  rcases given with rfl | rfl
  · exact ⟨by decide +kernel, by decide +kernel, by decide +kernel, by decide +kernel⟩
  · exact ⟨by decide +kernel, by decide +kernel, by decide +kernel, by decide +kernel⟩

theorem wire_echoes {routers : Side → Daemon} (relayed : ∀ side, Relayed (routers side) studio channel) :
    wire.EchoesOn (pruneOn 0) routers .left := by
  have source : namedSource (received (pruneOn 0)) = studio := by decide +kernel
  have group : namedGroup (received (pruneOn 0)) = channel := by decide +kernel
  have prunes : Prunes (pruneOn 0) := ⟨by decide +kernel, by decide +kernel, by decide +kernel, by decide +kernel⟩
  refine ⟨⟨prunes, by decide +kernel, Or.inr (by decide +kernel), ?_⟩, by decide +kernel⟩
  rw [source, group]
  exact relayed .left

theorem wire_returns {routers : Side → Daemon} (relayed : ∀ side, Relayed (routers side) studio channel)
    (side : Side) : wire.Returns (pruneOn 0) routers side.other side := by
  have source : namedSource (received (pruneOn 0)) = studio := by decide +kernel
  have group : namedGroup (received (pruneOn 0)) = channel := by decide +kernel
  refine ⟨⟨?_, ?_⟩, ?_⟩
  · cases side <;> decide +kernel
  · rw [source, group]
    exact relayed side.other
  · cases side <;> decide +kernel

/-- A Prune without router address is echoed from one router to the other for ever. -/
theorem prune_echo_storms : ∃ routers, (∀ side, Reachable (wire.host side) NoAssert (routers side)) ∧
    OneSource (pruneOn 0) ∧ ¬ EchoEnds wire (pruneOn 0) routers ∧
      ¬ Ends wire.medium.Delivers (Net.start routers (pruneOn 0)) := by
  obtain ⟨routers, reached, relayed⟩ := wire_relayed
  have one := oneSource_pruneOn (Or.inl rfl)
  have none : upstreamOf (pruneOn 0) = 0 := by decide +kernel
  have sent := wire_echoes relayed
  have forth := wire_returns relayed .left
  refine ⟨routers, reached, one, not_firsthand one none sent forth.1, ?_⟩
  exact echo_storm one none sent forth (wire_returns relayed .right)

/-- A Prune that carries the address of one of them is not. -/
theorem prune_echo_ends_wire : ∃ routers, (∀ side, Reachable (wire.host side) NoAssert (routers side)) ∧
    wire.EchoesOn (pruneOn (stationOn 2 1)) routers .left ∧ EchoEnds wire (pruneOn (stationOn 2 1)) routers := by
  obtain ⟨routers, reached, relayed⟩ := wire_relayed
  have source : namedSource (received (pruneOn (stationOn 2 1))) = studio := by decide +kernel
  have group : namedGroup (received (pruneOn (stationOn 2 1))) = channel := by decide +kernel
  have prunes : Prunes (pruneOn (stationOn 2 1)) :=
    ⟨by decide +kernel, by decide +kernel, by decide +kernel, by decide +kernel⟩
  have given : upstreamOf (pruneOn (stationOn 2 1)) ≠ 0 := by decide +kernel
  refine ⟨routers, reached, ⟨⟨prunes, by decide +kernel, Or.inl (by decide +kernel), ?_⟩, by decide +kernel⟩, ?_⟩
  · rw [source, group]
    exact relayed .left
  · exact (prune_echo_ends (oneSource_pruneOn (Or.inr rfl))).mpr (Or.inl given)

end PimDm.Property
