import PimDm.Property.Faults
import PimDm.Property.Heartbeat

/-!
# Routers among themselves

Whatever a router has received and forgotten before, the packets it sends are whole messages with
a right checksum.  Another router handles such a packet to its end exactly when the walk along its
counts keeps to the receive buffer.  All messages but copies of received ones do, and a Hello makes
its sender known there.
-/

namespace PimDm.Property

open PimDm.Foundation PimDm.Source PimDm.Effect PimDm.Routing PimDm.Refinement

variable {host other : Host} {s s' : Daemon} {packet : PimPacket} {buf : Memory} {length : Int}

/-- A message as `pim_input` hands it on from an IP packet: with a whole header, or with a negative length. -/
def Delivered : Event → Prop
  | .pimInput _ _ _ length => length < 0 ∨ sizeofPim ≤ length ∧ length ≤ 65535
  | _ => True

instance decidableDelivered : (event : Event) → Decidable (Delivered event)
  | .pimInput _ _ _ length => inferInstanceAs (Decidable (length < 0 ∨ sizeofPim ≤ length ∧ length ≤ 65535))
  | .multicastPacketError .. | .acceptMembershipQuery .. | .acceptGroupReport .. | .acceptLeaveMessage ..
  | .age _ | .expire _ => isTrue trivial

/-- One of the five messages, with its header and checksum; a Hello has the option for the hold time. -/
structure WholeMessage (packet : PimPacket) : Prop where
  kind : ∃ type, pimMessageOf packet.type = some type
  header : received packet 0 = BitVec.ofNat 8 (2 * 16 + packet.type)
  least : sizeofPim ≤ packet.bytes.length
  most : packet.bytes.length ≤ 65535
  checksum : inetCksum (received packet) packet.bytes.length = 0
  hello : packet.type = pimHello → packet.bytes.length = 10 ∧ load16 (received packet) 4 = htons 1 ∧
    load16 (received packet) 6 = htons 2 ∧ load16 (received packet) 8 = htons (BitVec.ofInt 16 pimHelloHoldtime)

/-- The packet among the observations is well formed. -/
def SendsWell : Observation → Prop
  | .pim packet _ => WholeMessage packet
  | _ => True

/-! ## What is sent -/

theorem kind_small {type : Nat} {message : PimMessage} (kind : pimMessageOf type = some message) : type < 16 := by
  by_contra large
  have none : pimMessageOf type = none := by
    unfold pimMessageOf pimHello pimJoinPrune pimAssert pimGraft pimGraftAck
    rw [if_neg (by omega), if_neg (by omega), if_neg (by omega), if_neg (by omega), if_neg (by omega)]
  rw [none] at kind
  cases kind

theorem sentPacket_whole {src dst : Addr} {type : Nat} {message : PimMessage} (kind : pimMessageOf type = some message)
    (nonnegative : 0 ≤ length) (short : sizeofPim + length ≤ 65535)
    (hello : type = pimHello → length = 6 ∧ load16 buf 4 = htons 1 ∧ load16 buf 6 = htons 2 ∧
      load16 buf 8 = htons (BitVec.ofInt 16 pimHelloHoldtime)) : WholeMessage (sentPacket buf src dst type length) := by
  have header : sizeofPim = 4 := rfl
  have total : ((sentPacket buf src dst type length).bytes.length : Int) = sizeofPim + length := by
    rw [sent_length]
    omega
  refine ⟨⟨message, kind⟩, ?_, by omega, by omega, cksum_sent buf src dst type nonnegative short, fun same => ?_⟩
  · have written : writePimHeader buf type length 0 = BitVec.ofNat 8 (2 * 16 + type % 16) := by
      unfold writePimHeader
      rw [store16_apart _ _ (by omega), store16_apart _ _ (by omega)]
      exact Function.update_self ..
    rw [received_sent (le_refl 0) (by omega), written, Nat.mod_eq_of_lt (kind_small kind)]
    rfl
  · obtain ⟨six, one, two, time⟩ := hello same
    have body : ∀ offset, 4 ≤ offset → offset + 2 ≤ 10 →
        load16 (received (sentPacket buf src dst type length)) offset = load16 buf offset :=
      fun offset low high => load16_congr fun place above below => received_sent_body (by omega) (by omega)
    refine ⟨by omega, ?_, ?_, ?_⟩
    · rw [body 4 (by omega) (by omega), one]
    · rw [body 6 (by omega) (by omega), two]
    · rw [body 8 (by omega) (by omega), time]

theorem otherPacket_whole {src dst : Addr} {type : Nat} {message : PimMessage} (kind : pimMessageOf type = some message)
    (nonnegative : 0 ≤ length) (short : sizeofPim + length ≤ 65535) (notHello : type ≠ pimHello) :
    WholeMessage (sentPacket buf src dst type length) :=
  sentPacket_whole kind nonnegative short fun same => absurd same notHello

theorem writeHello_words (buf : Memory) (holdtime : Int) : load16 (writeHello buf holdtime) 4 = htons 1 ∧
    load16 (writeHello buf holdtime) 6 = htons 2 ∧ load16 (writeHello buf holdtime) 8 = htons
      (BitVec.ofInt 16 holdtime) := by
  refine ⟨?_, ?_, load16_store16 _ 8 _⟩
  · refine Eq.trans ?_ (load16_store16 buf 4 (htons 1))
    simp [load16, writeHello, store16, store8]
  · refine Eq.trans ?_ (load16_store16 buf 6 (htons 2))
    simp [load16, writeHello, store16, store8]

theorem admits_sendsWell (host : Host) : Admits host SendsWell := by
  refine ⟨?_, ?_, ?_, ?_, ?_, ?_, ?_⟩
  · intro buf r kind holdtime entry
    exact otherPacket_whole rfl (by decide) (by decide) (by decide)
  · intro buf r entry
    exact otherPacket_whole rfl (by decide) (by decide) (by decide)
  · intro buf source group vif preference metric
    exact otherPacket_whole rfl (by decide) (by decide) (by decide)
  all_goals
    intros
    exact trivial

theorem copies_sendsWell (host : Host) {data : Memory} (least : sizeofPim ≤ length) (most : length ≤ 65535) :
    Copies host SendsWell data length := by
  have header : sizeofPim = 4 := rfl
  intro buf vif dst type which
  rcases which with rfl | rfl
  · exact otherPacket_whole rfl (by omega) (by omega) (by decide)
  · exact otherPacket_whole rfl (by omega) (by omega) (by decide)

theorem hails_sendsWell (host : Host) (vif : Vif) (regular : Int) :
    Hails host SendsWell ⟨vif, pimHelloHoldtime, regular⟩ :=
  fun buf => sentPacket_whole rfl (by decide) (by decide) fun _ => ⟨rfl, writeHello_words buf _⟩

/-- A copy of a received message: an echo of a Prune, or a Graft-Ack.  No entry stands behind it. -/
def Copied (packet : PimPacket) (entry : Ptr) : Prop :=
  entry = 0 ∧ (packet.type = pimJoinPrune ∨ packet.type = pimGraftAck)

/-- The packet among the observations has at most one group and one source, unless it is a copy. -/
def SendsShort : Observation → Prop
  | .pim packet entry => Copied packet entry ∨ packet.type = pimHello ∨ packet.type = pimAssert ∨ OneSource packet
  | _ => True

theorem sentPacket_oneSource (buf : Memory) (r : Route) (holdtime : Int) {joins prunes : BitVec 16}
    (one : (ntohs joins).toNat + (ntohs prunes).toNat = 1) (src dst : Addr) (type : Nat) :
    OneSource (sentPacket (writeOneSource buf r holdtime joins prunes) src dst type oneSourceLength) := by
  have decodes : Decodes (received (sentPacket (writeOneSource buf r holdtime joins prunes) src dst type oneSourceLength))
      r.upstream _ r.group _ _ r.source :=
    Decodes.congr (fun _ above below => received_sent_body above below) (decodes_written buf r holdtime joins prunes)
  have single := decodes.oneSourceBody one
  have total := sent_length (writeOneSource buf r holdtime joins prunes) src dst type oneSourceLength
  have whole : (sizeofPim + oneSourceLength).toNat = 34 := rfl
  rw [whole] at total
  exact ⟨single.groups, single.sources, by rw [total]; decide, by rw [total]; decide⟩

theorem admits_sendsShort (host : Host) : Admits host SendsShort := by
  refine ⟨?_, ?_, ?_, ?_, ?_, ?_, ?_⟩
  · intro buf r kind holdtime entry
    have one : (ntohs (countsOf kind).1).toNat + (ntohs (countsOf kind).2).toNat = 1 := by
      cases kind with
      | join => decide
      | prune => decide
    exact Or.inr (Or.inr (Or.inr (sentPacket_oneSource buf r holdtime one _ _ _)))
  · intro buf r entry
    exact Or.inr (Or.inr (Or.inr (sentPacket_oneSource buf r 0 (by decide) _ _ _)))
  · intro buf source group vif preference metric
    exact Or.inr (Or.inr (Or.inl rfl))
  all_goals
    intros
    exact trivial

theorem copies_sendsShort (host : Host) (data : Memory) (length : Int) : Copies host SendsShort data length :=
  fun _ _ _ _ which => Or.inl ⟨rfl, which⟩

theorem hails_sendsShort (host : Host) (data : PimHelloOutputData) : Hails host SendsShort data :=
  fun _ => Or.inr (Or.inl rfl)

theorem emits_all {W : Observation → Prop} (emits : Emits W s s') (before : ∀ observation ∈ s.trace, W observation) :
    ∀ observation ∈ s'.trace, W observation := by
  obtain ⟨new, trace, inside, _⟩ := emits
  rw [trace]
  intro observation member
  rcases List.mem_append.mp member with newer | older
  · exact inside observation newer
  · exact before observation older

/-- Every packet a router has sent, in any run on packets that IP delivers, is a whole message. -/
theorem sent_wellFormed (reached : Reachable host (fun _ => Delivered) s) :
    ∀ observation ∈ s.trace, SendsWell observation := by
  obtain ⟨start, ⟨pimSendBuf, booted⟩, run⟩ := reached
  have both : Reachable host (fun _ => Delivered) s ∧ ∀ observation ∈ s.trace, SendsWell observation := by
    refine run.keeps (P := fun state => Reachable host (fun _ => Delivered) state ∧
      ∀ observation ∈ state.trace, SendsWell observation) ⟨⟨start, ⟨pimSendBuf, booted⟩, .refl start⟩, ?_⟩ ?_
    · have greeted := boot_emits (fun _ _ _ _ _ => trivial) (fun vif _ => hails_sendsWell host vif 1) _ _ _ booted
      exact emits_all greeted fun _ member => nomatch member
    · rintro before event after ⟨reached, well⟩ delivered taken
      refine ⟨?_, emits_all (handle_emits (admits_sendsWell host) ?_ ?_ taken.2) well⟩
      · obtain ⟨first, started, run⟩ := reached
        exact ⟨first, started, run.snoc delivered taken⟩
      · rintro type src data length rfl correct
        rcases delivered with negative | ⟨least, most⟩
        · rw [inetCksum_negative data negative] at correct
          cases correct
        · exact copies_sendsWell host least most
      · intro data calls
        obtain ⟨timer, pending⟩ := called_mem calls
        obtain ⟨period, beats⟩ := reachable_recurs reached pending trivial
        cases beats with
        | hello serves => exact hails_sendsWell host _ 1
  exact both.2

/-- What a router has not copied has at most one group and one source. -/
theorem sent_short {allowed : Daemon → Event → Prop} (reached : Reachable host allowed s) :
    ∀ observation ∈ s.trace, SendsShort observation := by
  obtain ⟨start, ⟨pimSendBuf, booted⟩, run⟩ := reached
  refine run.keeps (P := fun state => ∀ observation ∈ state.trace, SendsShort observation) ?_ ?_
  · have greeted := boot_emits (fun _ _ _ _ _ => trivial) (fun vif _ => hails_sendsShort host ⟨vif, _, 1⟩) _ _ _ booted
    exact emits_all greeted fun _ member => nomatch member
  · intro before event after short _ taken
    have emits := handle_emits (admits_sendsShort host) (fun _ _ data length _ _ => copies_sendsShort host data length)
      (fun data _ => hails_sendsShort host data) taken.2
    exact emits_all emits short

/-- Whatever a router has received, every PIM packet it has sent is one of the five messages with a
right checksum, and every Hello states the hold time of the source. -/
theorem sent_packets_wellFormed (reached : Reachable host (fun _ => Delivered) s) {entry : Ptr}
    (sent : .pim packet entry ∈ s.trace) : WholeMessage packet :=
  sent_wellFormed reached _ sent

/-- The packet that was sent last, if that was the last thing to be seen. -/
def lastSent (s : Daemon) : Option PimPacket := s.trace.head?.bind fun observation =>
  match observation with
  | .pim packet _ => some packet
  | _ => none

theorem mem_of_lastSent (last : lastSent s = some packet) : ∃ entry, .pim packet entry ∈ s.trace := by
  obtain ⟨observation, head, sent⟩ := Option.bind_eq_some_iff.mp last
  cases observation with
  | pim other entry =>
      obtain rfl := Option.some.inj sent
      exact ⟨entry, List.mem_of_head? head⟩
  | _ => cases sent

/-- A Prune that is echoed to its network. -/
theorem sent_packets_wellFormed_session : ∃ s packet, Reachable router (fun _ => Delivered) s ∧
    packet.type = pimJoinPrune ∧ packet.bytes.length = 34 ∧ WholeMessage packet := by
  have passed : endsWith router (fun _ => Delivered) [upcall 1 1 (stationOn 1 9) studio channel,
      joinPruneFrom (stationOn 2 9) (stationOn 2 1) studio channel 0 1] (fun s =>
        (lastSent s).any fun packet => packet.type = pimJoinPrune ∧ packet.bytes.length = 34) = true := by
    decide +kernel
  obtain ⟨s, reached, ended⟩ := reachable_of_endsWith passed
  obtain ⟨packet, last, shape⟩ := (Option.any_eq_true _ _).mp ended
  obtain ⟨prune, size⟩ := of_decide_eq_true shape
  obtain ⟨entry, sent⟩ := mem_of_lastSent last
  exact ⟨s, packet, reached, prune, size, sent_packets_wellFormed reached sent⟩

/-! ## What is received -/

/-- A receive buffer holds the packet behind an IP header, and anything behind the packet. -/
structure Conveys (buf : Memory) (length : Int) (packet : PimPacket) : Prop where
  src : (readIp buf).src = packet.src
  size : pimLength buf length = packet.bytes.length
  header : sizeofIp ≤ (readIp buf).iphdrlen
  room : length ≤ pimReceiveBufSize
  bytes : ∀ place : Int, 0 ≤ place → place < packet.bytes.length → pimPart buf place = received packet place

theorem iphdrlen_nonnegative (buf : Memory) : 0 ≤ (readIp buf).iphdrlen := by
  unfold IpHeader.iphdrlen
  omega

theorem iphdrlen_small (buf : Memory) : (readIp buf).iphdrlen ≤ 60 := by
  unfold IpHeader.iphdrlen readIp
  simp only
  omega

namespace Conveys

variable (conveys : Conveys buf length packet)
include conveys

theorem checksum (well : WholeMessage packet) : inetCksum (pimPart buf) (pimLength buf length) = 0 := by
  rw [conveys.size, inetCksum_congr conveys.bytes]
  exact well.checksum

theorem type (well : WholeMessage packet) : pimType buf = packet.type := by
  obtain ⟨message, kind⟩ := well.kind
  have small := kind_small kind
  have least := well.least
  have header : sizeofPim = 4 := rfl
  rw [pimType, conveys.bytes 0 (by omega) (by omega), well.header, BitVec.toNat_ofNat]
  omega

/-- The message fits into the buffer behind its header. -/
theorem fits : pimLength buf length ≤ pimReceiveBufSize - (readIp buf).iphdrlen := by
  have room := conveys.room
  unfold pimLength
  omega

/-- The receiver reads the hold time of the sender, and stays in the buffer. -/
theorem holdTime (well : WholeMessage packet) (hello : packet.type = pimHello) :
    (helloCourse (readIp buf).iphdrlen (pimPart buf) (pimLength buf length)).fits ∧
      (helloCourse (readIp buf).iphdrlen (pimPart buf) (pimLength buf length)).next = some pimHelloHoldtime := by
  obtain ⟨ten, one, two, time⟩ := well.hello hello
  have size := conveys.size
  have word : ∀ offset, 4 ≤ offset → offset + 2 ≤ 10 → load16 (pimPart buf) offset = load16 (received packet) offset :=
    fun offset low high => load16_congr fun place above below => conveys.bytes place (by omega) (by omega)
  have course := helloCourse_of_holdTime (iphdrlen_nonnegative buf) conveys.fits (by omega)
    ((word 4 (by omega) (by omega)).trans one) ((word 6 (by omega) (by omega)).trans two)
  rw [word 8 (by omega) (by omega), time] at course
  exact course

/-- One group and one source are received as they were sent. -/
theorem oneSourceBody (one : OneSource packet) : OneSourceBody (pimPart buf) := by
  have single : OneSourceBody (received packet) := ⟨one.groups, one.sources⟩
  have whole := one.whole
  have body : sizeofPim + oneSourceLength = 34 := rfl
  exact single.congr fun place low high => conveys.bytes place (by omega) (by omega)

end Conveys

/-- The packet behind an IP header without options. -/
def ipPacket (packet : PimPacket) : Memory :=
  bcopy (received packet) (store32 (store8 (fun _ => 0) 0 0x45) 12 packet.src) sizeofIp packet.bytes.length

theorem conveys_ipPacket (short : packet.bytes.length ≤ 65515) :
    Conveys (ipPacket packet) (sizeofIp + packet.bytes.length) packet := by
  have front : ∀ place : Int, place < 20 →
      ipPacket packet place = store32 (store8 (fun _ => 0) 0 0x45) 12 packet.src place :=
    fun place before => if_neg fun both => by simp only [sizeofIp] at both; omega
  have five : (readIp (ipPacket packet)).iphdrlen = 20 := by
    rw [readIp, IpHeader.iphdrlen, front 0 (by omega)]
    simp [store32, store16, store8]
  refine ⟨?_, ?_, ?_, ?_, fun place low high => ?_⟩
  · rw [readIp, load32_congr fun place above below => front place (by omega)]
    exact load32_store32 _ 12 packet.src
  · rw [pimLength, five]
    simp only [sizeofIp]
    omega
  · exact five.ge
  · simp only [sizeofIp, pimReceiveBufSize]
    omega
  · rw [pimPart, Memory.shift, five, ipPacket, bcopy, if_pos (by simp only [sizeofIp]; omega)]
    congr 1
    simp only [sizeofIp]
    omega

theorem type_of_hello {type : Nat} (kind : pimMessageOf type = some .hello) : type = pimHello := by
  by_contra other
  unfold pimMessageOf at kind
  rw [if_neg other] at kind
  split_ifs at kind <;> cases kind

/-- A Hello leaves its sender in the list of neighbours. -/
theorem hello_enlists (models : Models s (table s)) {src : Addr} {data : Memory} {holdtime : Int}
    (direct : findVifDirect host src ≠ 0) (stays : holdtime ≠ 0)
    (read : getHoldTimeLoop data (64 * 1024 / 4) sizeofPim (length - sizeofPim) = .ok holdtime)
    (run : Runs (receiveHello host src data length) s () s') :
    ∃ neighbor, (neighbor, src) ∈ (table s').neighbors (findVifDirect host src) := by
  have after := (receiveHello_models models run).1
  rw [after.table_eq]
  unfold helloChange
  rw [if_neg direct]
  simp only [read, if_neg stays]
  by_cases known : ((table s).neighbors (findVifDirect host src)).any (fun item => item.2 == src) = true
  · obtain ⟨item, member, same⟩ := List.any_eq_true.mp known
    rw [if_pos known]
    obtain rfl := eq_of_beq same
    exact ⟨item.1, member⟩
  · rw [if_neg known]
    refine ⟨s.neighbors.fresh, ?_⟩
    rw [Change.apply, Table.addNeighbor, Table.refreshAdd_neighbors, Table.setNeighbors]
    simp

/-- The message is too short to be looked at. -/
def TooShort (model : DataModel) (buf : Memory) (length : Int) : Prop :=
  0 ≤ pimLength buf length ∧ pimLength buf length < model.sizeofLong

/-- The walk along the counts of the message does not leave the receive buffer. -/
def KeepsToBuffer (model : DataModel) (host : Host) (s : Daemon) (buf : Memory) (length : Int) : Prop :=
  ¬ TooShort model buf length → findVifDirect host (readIp buf).src ≠ 0 →
    ∀ type, pimMessageOf (pimType buf) = some type →
    (bufferCourse (readIp buf).iphdrlen host s (readIp buf).src (pimPart buf) (pimLength buf length) type).fits

/-- A correct message is handled to its end exactly when its walk stays in the buffer. -/
theorem hazard_none_iff {iphdrlen : Int} {src : Addr} {data : Memory} {type : PimMessage}
    (correct : inetCksum data length = 0) (lasting : type = .hello → (helloCourse iphdrlen data length).next ≠ some 0) :
    hazard iphdrlen host s (.pimInput type src data length) = none ↔
      (findVifDirect host src ≠ 0 → (bufferCourse iphdrlen host s src data length type).fits) := by
  have right : ¬ inetCksum data length ≠ 0 := not_not.mpr correct
  have none_iff {fits : Prop} [Decidable fits] : (if findVifDirect host src = 0 then none
      else if ¬ fits then some Fault.outOfBounds else none) = none ↔ (findVifDirect host src ≠ 0 → fits) := by
    by_cases stranger : findVifDirect host src = 0
    · simp [stranger]
    · simp [stranger]
  cases type with
  | hello =>
      rw [hello_fits_iff, hazard, helloHazard, if_neg right, if_neg (lasting rfl)]
      exact none_iff
  | joinPrune | assert | graft | graftAck =>
      rw [hazard, messageHazard, if_neg right]
      · exact none_iff
      · rintro ⟨⟩

/-- What a router has not copied keeps to the buffer, and so does a copy with one group and one source. -/
theorem keepsToBuffer_of_short {entry : Ptr} (short : SendsShort (.pim packet entry)) (well : WholeMessage packet)
    (conveys : Conveys buf length packet) (model : DataModel) (single : Copied packet entry → OneSource packet) :
    KeepsToBuffer model host s buf length := by
  intro _ _ type kind
  have low := iphdrlen_nonnegative buf
  have high := iphdrlen_small buf
  have size : pimReceiveBufSize = 65536 := rfl
  rw [conveys.type well] at kind
  by_cases greets : type = .hello
  · subst greets
    exact hello_fits_iff.mpr (conveys.holdTime well (type_of_hello kind)).1
  rw [bufferCourse_walks greets]
  refine walkCourse_fits (fun other => ?_) (by omega) (by omega)
  rcases short with copied | hello | assert | one
  · exact conveys.oneSourceBody (single copied)
  · rw [hello] at kind
    exact absurd (Option.some.inj kind).symm greets
  · rw [assert] at kind
    exact absurd (Option.some.inj kind).symm other
  · exact conveys.oneSourceBody one

/-- The message of a buffer, as an event. -/
def pimEvent (buf : Memory) (length : Int) (type : PimMessage) : Event :=
  .pimInput type (readIp buf).src (pimPart buf) (pimLength buf length)

theorem runs_pimInputInBuffer {model : DataModel} {type : PimMessage} (long : ¬ TooShort model buf length)
    (kind : pimMessageOf (pimType buf) = some type) : Runs (pimInputInBuffer model host buf length) s () s' ↔
      Runs (handleInBuffer (readIp buf).iphdrlen host (pimEvent buf length type)) s () s' := by
  unfold TooShort at long
  unfold pimInputInBuffer
  rw [if_neg long, kind]
  exact Iff.rfl

theorem runs_pimInput {model : DataModel} {type : PimMessage} (long : ¬ TooShort model buf length)
    (kind : pimMessageOf (pimType buf) = some type) : Runs (pimInput model host buf length) s () s' ↔
      Runs (handle host (pimEvent buf length type)) s () s' := by
  unfold TooShort at long
  unfold pimInput
  rw [if_neg long, kind]
  exact Iff.rfl

theorem runs_tooShort {model : DataModel} (short : TooShort model buf length) :
    (Runs (pimInputInBuffer model host buf length) s () s' ↔ s' = s) ∧
      (Runs (pimInput model host buf length) s () s' ↔ s' = s) := by
  unfold TooShort at short
  unfold pimInputInBuffer pimInput
  rw [if_pos short, if_pos short, runs_pure]
  exact ⟨⟨And.right, fun same => ⟨rfl, same⟩⟩, ⟨And.right, fun same => ⟨rfl, same⟩⟩⟩

/-- With the ends of the buffer or without, `pim_input` does the same as long as it does not stop. -/
theorem pimInput_of_buffer {model : DataModel} (run : Runs (pimInputInBuffer model host buf length) s () s') :
    Runs (pimInput model host buf length) s () s' := by
  by_cases short : TooShort model buf length
  · exact (runs_tooShort short).2.mpr ((runs_tooShort short).1.mp run)
  · cases kind : pimMessageOf (pimType buf) with
    | none =>
        unfold TooShort at short
        unfold pimInputInBuffer at run
        unfold pimInput
        rw [if_neg short, kind] at run ⊢
        exact run
    | some type => exact (runs_pimInput short kind).mpr (handle_of_buffer ((runs_pimInputInBuffer short kind).mp run))

section Receiving

variable {model : DataModel} {r r' : Daemon} (models : Models r (table r)) (well : WholeMessage packet)
  (conveys : Conveys buf length packet)
include models well conveys

theorem handled_iff_keepsToBuffer (zero : other.ZeroFilled) (owned : Owned r) (idle : r.expired = []) :
    (∃ r', Runs (pimInputInBuffer model other buf length) r () r') ↔ KeepsToBuffer model other r buf length := by
  obtain ⟨type, kind⟩ := well.kind
  have read := (congrArg pimMessageOf (conveys.type well)).trans kind
  by_cases short : TooShort model buf length
  · exact ⟨fun _ long => absurd short long, fun _ => ⟨r, (runs_tooShort short).1.mpr rfl⟩⟩
  have arrives : Arrives (readIp buf).iphdrlen (pimEvent buf length type) := ⟨conveys.header, conveys.fits⟩
  have enabled : (pimEvent buf length type).Enabled r := by
    rw [Event.Enabled, idle]
    rfl
  have handled : (∃ r', Runs (pimInputInBuffer model other buf length) r () r') ↔
      hazard (readIp buf).iphdrlen other r (pimEvent buf length type) = none := by
    simp only [runs_pimInputInBuffer short read]
    exact (handleInBuffer_ends zero owned models enabled arrives).completes_iff
  have lasting : type = .hello →
      (helloCourse (readIp buf).iphdrlen (pimPart buf) (pimLength buf length)).next ≠ some 0 := by
    rintro rfl
    rw [(conveys.holdTime well (type_of_hello kind)).2]
    decide
  rw [handled, pimEvent, hazard_none_iff (conveys.checksum well) lasting]
  constructor
  · intro fits _ direct type' kind'
    rw [read] at kind'
    obtain rfl := Option.some.inj kind'
    exact fits direct
  · exact fun keeps direct => keeps short direct type read

theorem hello_heard (hello : packet.type = pimHello) (direct : findVifDirect other packet.src ≠ 0)
    (run : Runs (pimInput model other buf length) r () r') :
    ∃ neighbor, (neighbor, packet.src) ∈ (table r').neighbors (findVifDirect other packet.src) := by
  have long : ¬ TooShort model buf length := by
    rintro ⟨_, less⟩
    have ten := (well.hello hello).1
    have size := conveys.size
    have small : model.sizeofLong ≤ 8 := by cases model <;> decide
    omega
  have kind : pimMessageOf (pimType buf) = some .hello := by
    rw [conveys.type well, hello]
    rfl
  have handled := (runs_pimInput long kind).mp run
  rw [← conveys.src] at direct ⊢
  exact hello_enlists models direct (by decide) (getHoldTimeLoop_of_course (conveys.holdTime well hello).2) handled

end Receiving

/-- A packet of another router is handled to its end exactly when its walk stays in the receive buffer.
It does for every message the sender has built itself and for copies with one group and one source,
and a Hello makes its sender a neighbour. -/
theorem sent_packets_handled (reached : Reachable host (fun _ => Delivered) s) {entry : Ptr}
    (sent : .pim packet entry ∈ s.trace) (fitting : Fitting other) {allowed : Daemon → Event → Prop} {r : Daemon}
    (there : Reachable other allowed r) (idle : r.expired = []) (model : DataModel)
    (conveys : Conveys buf length packet) :
    ((∃ r', Runs (pimInputInBuffer model other buf length) r () r') ↔ KeepsToBuffer model other r buf length) ∧
      ((Copied packet entry → OneSource packet) → KeepsToBuffer model other r buf length) ∧
      ∀ r', Runs (pimInputInBuffer model other buf length) r () r' → Runs (pimInput model other buf length) r () r' ∧
        (packet.type = pimHello → findVifDirect other packet.src ≠ 0 →
          ∃ neighbor, (neighbor, packet.src) ∈ (table r').neighbors (findVifDirect other packet.src)) := by
  have zero := fitting.toZeroFilled
  have well := sent_wellFormed reached _ sent
  have models := reachable_models zero there
  refine ⟨handled_iff_keepsToBuffer models well conveys zero (reachable_owned zero there) idle,
    keepsToBuffer_of_short (sent_short reached _ sent) well conveys model, fun r' run => ?_⟩
  have same := pimInput_of_buffer run
  exact ⟨same, fun hello direct => hello_heard models well conveys hello direct same⟩

/-- The Hello of a router that has just started, and the echo of a Prune, received by another router. -/
theorem sent_packets_handled_session :
    (∃ packet r r', packet.type = pimHello ∧ Reachable upperRouter (fun _ _ => True) r ∧
      Runs (pimInputInBuffer .ilp32 upperRouter (ipPacket packet) (sizeofIp + packet.bytes.length)) r () r' ∧
        ∃ neighbor, (neighbor, packet.src) ∈ (table r').neighbors (findVifDirect upperRouter packet.src)) ∧
    ∃ packet r r', packet.type = pimJoinPrune ∧ pruneCount (received packet) = 1 ∧
      Reachable upperRouter (fun _ _ => True) r ∧
        Runs (pimInputInBuffer .ilp32 upperRouter (ipPacket packet) (sizeofIp + packet.bytes.length)) r () r' := by
  have there : endsWith upperRouter (fun _ _ => True) [] (fun r => decide (r.expired = [])) = true := by decide +kernel
  obtain ⟨r, started, idle⟩ := reachable_of_endsWith there
  have idle := of_decide_eq_true idle
  have fitting : Fitting upperRouter := ⟨⟨fun _ => rfl, fun _ => rfl⟩, by decide⟩
  constructor
  · have greeted : endsWith router (fun _ => Delivered) [] (fun s => (lastSent s).any fun packet =>
        packet.type = pimHello ∧ findVifDirect upperRouter packet.src ≠ 0 ∧ packet.bytes.length ≤ 65515) = true := by
      decide +kernel
    obtain ⟨s, reached, ended⟩ := reachable_of_endsWith greeted
    obtain ⟨packet, last, shape⟩ := (Option.any_eq_true _ _).mp ended
    obtain ⟨hello, direct, short⟩ := of_decide_eq_true shape
    obtain ⟨entry, sent⟩ := mem_of_lastSent last
    obtain ⟨handled, keeps, does⟩ := sent_packets_handled reached sent fitting started idle .ilp32
      (conveys_ipPacket short)
    have built : Copied packet entry → OneSource packet := by
      rintro ⟨_, joins | acks⟩
      · rw [hello] at joins
        cases joins
      · rw [hello] at acks
        cases acks
    obtain ⟨r', run⟩ := handled.mpr (keeps built)
    exact ⟨packet, r, r', hello, started, run, (does r' run).2 hello direct⟩
  · have echoed : endsWith router (fun _ => Delivered) [upcall 1 1 (stationOn 1 9) studio channel,
        joinPruneFrom (stationOn 2 9) (stationOn 2 1) studio channel 0 1] (fun s => (lastSent s).any fun packet =>
          packet.type = pimJoinPrune ∧ (readJoinPruneHeader (received packet)).numGroups = 1 ∧
            joinCount (received packet) = 0 ∧ pruneCount (received packet) = 1 ∧ packet.bytes.length = 34) = true := by
      decide +kernel
    obtain ⟨s, reached, ended⟩ := reachable_of_endsWith echoed
    obtain ⟨packet, last, shape⟩ := (Option.any_eq_true _ _).mp ended
    obtain ⟨prune, groups, joins, prunes, size⟩ := of_decide_eq_true shape
    obtain ⟨entry, sent⟩ := mem_of_lastSent last
    have one : OneSource packet := ⟨groups, by omega, by rw [size]; decide, by omega⟩
    obtain ⟨handled, keeps, _⟩ := sent_packets_handled reached sent fitting started idle .ilp32
      (conveys_ipPacket one.short)
    obtain ⟨r', run⟩ := handled.mpr (keeps fun _ => one)
    exact ⟨packet, r, r', prune, prunes, started, run⟩

end PimDm.Property
