import PimDm.Refinement.Stale
import PimDm.Property.Session

/-!
# Reads outside of a packet

The receivers go by the counts in a packet and never look at its length.  They stay
inside it exactly when the groups and sources the counts lead to do.
-/

namespace PimDm.Property

open PimDm.Foundation PimDm.Source PimDm.Refinement

variable {host : Host} {type : PimMessage} {src : Addr} {data : Memory} {length : Int} {s : Daemon}

/-- The receiver reads only bytes of the packet: it makes no difference to stop it before
it reads others. -/
def StaysInside (host : Host) (type : PimMessage) (src : Addr) (data : Memory) (length : Int) (s : Daemon) : Prop :=
  readingPim (inside length) host type src data length s = receivePim host type src data length s

/-- A receiver that takes a fitting course does the same on every buffer with this packet. -/
theorem receivePim_congr (walks : type ≠ .hello) (direct : findVifDirect host src ≠ 0)
    (correct : inetCksum data length = 0) (fits : (pimCourse host s src data length type).fits) {other : Memory}
    (agree : Agree length data other) :
    receivePim host type src other length s = receivePim host type src data length s := by
  have takes := readingPim_inside (s := s) walks direct correct
  have also := readingPim_inside (s := s) walks direct ((inetCksum_congr agree).symm.trans correct)
  have guarded : readingPim (inside length) host type src data length s =
      readingPim (inside length) host type src other length s := congrFun (readingPim_congr walks agree src) s
  have same : readingPim (inside length) host type src data length s = receivePim host type src data length s :=
    takes.same fits s rfl
  have inside_other : (pimCourse host s src other length type).fits := by
    refine (also.fits_iff rfl).mpr fun fails => (takes.fits_iff rfl).mp fits ?_
    exact guarded.trans fails
  exact (also.same inside_other s rfl).symm.trans (guarded.symm.trans same)

/-- A receiver of a correct packet of an on-link station reads only bytes of the packet
exactly when its course fits, and then nothing behind the packet has a part in it. -/
theorem reads_inside_packet (walks : type ≠ .hello) (direct : findVifDirect host src ≠ 0)
    (correct : inetCksum data length = 0) :
    (StaysInside host type src data length s ↔ (pimCourse host s src data length type).fits) ∧
      (StaysInside host type src data length s → ∀ other, Agree length data other →
        receivePim host type src other length s = receivePim host type src data length s) := by
  have same : StaysInside host type src data length s ↔ (pimCourse host s src data length type).fits :=
    (readingPim_inside walks direct correct).same_iff rfl
  exact ⟨same, fun stays other agree => receivePim_congr walks direct correct (same.mp stays) agree⟩

/-- A Join/Prune without an upstream address that announces one group and ends there. -/
def announcing : Memory := writePimHeader (store8 (fun _ => 0) 11 1) pimJoinPrune 10

/-- The run stopped where it would have read outside of the packet. -/
def strays (result : Except Fault (Unit × Daemon)) : Bool :=
  match result with
  | .error .outOfBounds => true
  | _ => false

/-- The announced group is read behind the end of the packet. -/
theorem reads_outside_packet :
    ¬ ∀ (host : Host) (type : PimMessage) (src : Addr) (data : Memory) (length : Int) (s : Daemon),
      Reachable host (fun _ _ => True) s → type ≠ .hello → findVifDirect host src ≠ 0 →
        inetCksum data length = 0 → StaysInside host type src data length s := by
  intro inside_packet
  have passed : endsWith loneRouter (fun _ _ => True) []
      (fun s => strays (readingPim (inside 14) loneRouter .joinPrune (stationOn 1 2) announcing 14 s) &&
        !strays (receivePim loneRouter .joinPrune (stationOn 1 2) announcing 14 s)) = true := by decide +kernel
  obtain ⟨s, reached, differ⟩ := reachable_of_endsWith passed
  have stays := inside_packet loneRouter .joinPrune (stationOn 1 2) announcing 14 s reached nofun
    (by decide +kernel) (by decide +kernel)
  unfold StaysInside at stays
  rw [stays] at differ
  simp at differ

/-- A Join/Prune that joins the studio in one channel and prunes it in the other. -/
def bothChannels (upstream : Addr) : Memory :=
  writePimHeader (store32 (store16 (store32 (store8 (writeOneSource (fun _ => 0) (named upstream studio channel) 0
    (htons 1) 0) 11 2) 38 otherChannel) 44 (htons 1)) 50 studio) pimJoinPrune 50

/-- Two groups, whose sources have entries, are read inside of the 54 bytes of their message. -/
theorem reads_inside_packet_session : ∃ s, Reachable router (fun _ _ => True) s ∧
    sgOf s studio channel ≠ .ok 0 ∧ sgOf s studio otherChannel ≠ .ok 0 ∧
    (readJoinPruneHeader (bothChannels (stationOn 2 1))).numGroups = 2 ∧
    StaysInside router .joinPrune (stationOn 2 9) (bothChannels (stationOn 2 1)) 54 s ∧
    ∀ other, Agree 54 (bothChannels (stationOn 2 1)) other →
      receivePim router .joinPrune (stationOn 2 9) other 54 s =
        receivePim router .joinPrune (stationOn 2 9) (bothChannels (stationOn 2 1)) 54 s := by
  have passed : endsWith router (fun _ _ => True) [helloFrom (stationOn 2 9) 310,
      upcall 1 1 (stationOn 1 7) studio channel, upcall 1 1 (stationOn 1 7) studio otherChannel] (fun s =>
        decide ((pimCourse router s (stationOn 2 9) (bothChannels (stationOn 2 1)) 54 .joinPrune).fits ∧
          sgOf s studio channel ≠ .ok 0 ∧ sgOf s studio otherChannel ≠ .ok 0)) = true := by decide +kernel
  obtain ⟨s, reached, ended⟩ := reachable_of_endsWith passed
  obtain ⟨fits, here, there⟩ := of_decide_eq_true ended
  have walks : PimMessage.joinPrune ≠ .hello := by decide
  have direct : findVifDirect router (stationOn 2 9) ≠ 0 := by decide +kernel
  have correct : inetCksum (bothChannels (stationOn 2 1)) 54 = 0 := by decide +kernel
  obtain ⟨same, alone⟩ := reads_inside_packet walks direct correct
  have stays := same.mpr fits
  exact ⟨s, reached, here, there, by decide +kernel, stays, alone stays⟩

end PimDm.Property
