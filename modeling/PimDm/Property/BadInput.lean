import PimDm.Source.Input
import PimDm.Refinement.Stirring
import PimDm.Property.Session

/-!
# Bad packets and failed reads

`pim_input` goes on with a packet that is too short, and leaves it to the receivers
to find the wrong checksum; `valid_packet` finds it and calls `log` without a format.
`igmp_input` goes on with whatever the buffer holds, so a read that failed can be
the message before once more.
-/

namespace PimDm.Property

open PimDm.Foundation PimDm.Source PimDm.Refinement

variable {model : DataModel} {host : Host} {s s' : Daemon} {buf data : Memory} {length : Int}
  {src : Addr}

/-! ## PIM packets -/

/-- The PIM part is shorter than a PIM header, or its checksum is wrong. -/
def BadPim (buf : Memory) (length : Int) : Prop :=
  pimLength buf length < sizeofPim ∨ inetCksum (pimPart buf) (pimLength buf length) ≠ 0

instance (buf : Memory) (length : Int) : Decidable (BadPim buf length) :=
  inferInstanceAs (Decidable (_ ∨ _))

/-- No receiver checks the packet: it is shorter than a pointer, or of another type,
or no Hello and from a sender that is not on one of our networks. -/
def Unchecked (model : DataModel) (host : Host) (buf : Memory) (length : Int) : Prop :=
  (0 ≤ pimLength buf length ∧ pimLength buf length < model.sizeofLong) ∨
    pimMessageOf (pimType buf) = none ∨
    (pimMessageOf (pimType buf) ≠ some .hello ∧ findVifDirect host (readIp buf).src = 0)

instance (model : DataModel) (host : Host) (buf : Memory) (length : Int) :
    Decidable (Unchecked model host buf length) :=
  inferInstanceAs (Decidable (_ ∨ _))

/-- Nothing is summed up over a negative length. -/
theorem inetCksum_negative (packet : Memory) (negative : length < 0) : inetCksum packet length = 0xffff#16 := by
  have none : length.toNat = 0 := Int.toNat_of_nonpos (Int.le_of_lt negative)
  unfold inetCksum
  rw [none, inetCksumLoop]
  decide

/-- A bad packet that is not shorter than a pointer fails the test of `valid_packet`. -/
theorem wrong_cksum_of_bad (bad : BadPim buf length)
    (long : ¬ (0 ≤ pimLength buf length ∧ pimLength buf length < model.sizeofLong)) :
    inetCksum (pimPart buf) (pimLength buf length) ≠ 0 := by
  rcases bad with short | wrong
  · have pointer : sizeofPim ≤ model.sizeofLong := by cases model <;> decide
    have negative : pimLength buf length < 0 := by omega
    rw [inetCksum_negative _ negative]
    decide
  · exact wrong

theorem validPacket_fails (wrong : inetCksum data length ≠ 0) :
    Fails (validPacket host src data length) s .nullFormat := by
  unfold validPacket
  rw [if_pos wrong]
  rfl

/-- With a wrong checksum only a Join/Prune, an Assert, a Graft or a Graft-Ack of a
stranger is dropped. -/
theorem receivePim_wrong_cksum (wrong : inetCksum data length ≠ 0) {type : PimMessage} :
    Runs (receivePim host type src data length) s () s ↔ type ≠ .hello ∧ findVifDirect host src = 0 := by
  have faulty {β : Type} {rest : Bool → Act β} {value : β} :
      ¬ Runs (validPacket host src data length >>= rest) s value s := by
    intro run
    obtain ⟨_, _, checked, _⟩ := runs_bind.mp run
    exact not_fails_of_runs checked (validPacket_fails wrong)
  cases type with
  | hello => exact ⟨fun run => (faulty run).elim, fun both => (both.1 rfl).elim⟩
  | joinPrune | assert | graft | graftAck =>
      constructor
      · intro run
        rcases runs_ite.mp run with ⟨stranger, _⟩ | ⟨_, checked⟩
        · exact ⟨nofun, stranger⟩
        · exact (faulty checked).elim
      · rintro ⟨_, stranger⟩
        exact runs_ite.mpr (Or.inl ⟨stranger, runs_pure.mpr ⟨rfl, rfl⟩⟩)

/-- A bad packet is dropped, with nothing changed or sent, exactly when no receiver
checks it. -/
theorem bad_pim_dropped (bad : BadPim buf length) :
    Runs (pimInput model host buf length) s () s ↔ Unchecked model host buf length := by
  unfold pimInput Unchecked
  by_cases short : 0 ≤ pimLength buf length ∧ pimLength buf length < model.sizeofLong
  · rw [if_pos short]
    exact ⟨fun _ => Or.inl short, fun _ => runs_pure.mpr ⟨rfl, rfl⟩⟩
  rw [if_neg short]
  cases message : pimMessageOf (pimType buf) with
  | none => exact ⟨fun _ => Or.inr (Or.inl rfl), fun _ => runs_pure.mpr ⟨rfl, rfl⟩⟩
  | some type =>
      have received : Runs (receivePim host type (readIp buf).src (pimPart buf) (pimLength buf length)) s () s ↔
          type ≠ .hello ∧ findVifDirect host (readIp buf).src = 0 :=
        receivePim_wrong_cksum (wrong_cksum_of_bad bad short)
      constructor
      · intro run
        obtain ⟨other, stranger⟩ := received.mp run
        exact Or.inr (Or.inr ⟨fun same => other (Option.some.inj same), stranger⟩)
      · rintro (pointer | none | ⟨other, stranger⟩)
        · exact (short pointer).elim
        · cases none
        · exact received.mpr ⟨fun same => other (congrArg some same), stranger⟩

/-- A Hello from 10.0.1.2 in an IP packet of 30 bytes, with nothing in its checksum field. -/
def damagedHello : Memory :=
  store32 (store8 (store8 (fun _ => 0) 0 0x45) 20 0x20) 12 (stationOn 1 2)

/-- The damaged Hello stops the daemon. -/
theorem bad_pim_not_dropped :
    ¬ ∀ (model : DataModel) (host : Host) (buf : Memory) (length : Int) (s : Daemon),
      Reachable host (fun _ _ => True) s → BadPim buf length → Runs (pimInput model host buf length) s () s := by
  intro dropped
  have passed : endsWith loneRouter (fun _ _ => True) [] (fun _ => true) = true := by decide +kernel
  obtain ⟨s, reached, _⟩ := reachable_of_endsWith passed
  have wrong : inetCksum (pimPart damagedHello) (pimLength damagedHello 30) ≠ 0 := by decide +kernel
  have run := dropped .ilp32 loneRouter damagedHello 30 s reached (Or.inr wrong)
  have long : ¬ (0 ≤ pimLength damagedHello 30 ∧ pimLength damagedHello 30 < DataModel.ilp32.sizeofLong) := by
    decide +kernel
  have hello : pimMessageOf (pimType damagedHello) = some .hello := by decide +kernel
  unfold pimInput at run
  rw [if_neg long, hello] at run
  exact ((receivePim_wrong_cksum wrong).mp run).1 rfl

/-- A Prune in an IP packet of 54 bytes, one of which was changed on the way. -/
def damagedPrune (src : Addr) : Memory :=
  bcopy (store8 (writePimHeader (writeOneSource (fun _ => 0) (named (stationOn 2 1) studio channel) 0 0 (htons 1))
    pimJoinPrune oneSourceLength) 1 1) (store32 (store8 (fun _ => 0) 0 0x45) 12 src) sizeofIp 34

/-- A router with an entry drops the damaged Prune of a stranger, and not that of a station on its network. -/
theorem bad_pim_dropped_session : ∃ s, Reachable router (fun _ _ => True) s ∧ s.themrt ≠ 0 ∧
    Runs (pimInput .lp64 router (damagedPrune (dotted 192 168 0 9)) 54) s () s ∧
    ¬ Runs (pimInput .lp64 router (damagedPrune (stationOn 2 9)) 54) s () s := by
  have passed : endsWith router (fun _ _ => True) [helloFrom (stationOn 2 9) 310,
      upcall 1 1 (stationOn 1 7) studio channel] (fun s => decide (s.themrt ≠ 0)) = true := by decide +kernel
  obtain ⟨s, reached, ended⟩ := reachable_of_endsWith passed
  have strange : BadPim (damagedPrune (dotted 192 168 0 9)) 54 := by decide +kernel
  have damaged : BadPim (damagedPrune (stationOn 2 9)) 54 := by decide +kernel
  have stranger : Unchecked .lp64 router (damagedPrune (dotted 192 168 0 9)) 54 := by decide +kernel
  have neighbor : ¬ Unchecked .lp64 router (damagedPrune (stationOn 2 9)) 54 := by decide +kernel
  refine ⟨s, reached, of_decide_eq_true ended, ?_, fun dropped => neighbor ?_⟩
  · exact (bad_pim_dropped strange).mpr stranger
  · exact (bad_pim_dropped damaged).mp dropped

/-! ## IGMP messages -/

/-- An IGMP message that asks for nothing. -/
structure QuietMessage (host : Host) (s : Daemon) (type : Nat) (src group : Addr) : Prop where
  query : type = igmpMembershipQuery → QuietQuery host s src
  report : type = igmpV2MembershipReport → QuietReport host s src group
  leave : type = igmpV2LeaveGroup → QuietLeave host s src group

/-- What the buffer holds amounts to nothing: the kernel's message names no source or
group or asks for nothing, or the lengths in the packet are not the one read, or its
IGMP message asks for nothing. -/
def Inert (model : DataModel) (host : Host) (s : Daemon) (buf : Memory) (length : Int) (checked : Addr) :
    Prop :=
  if (readIp buf).protocol = 0 then
    (readIp buf).src = 0 ∨ (readIp buf).dst = 0 ∨ QuietUpcall host s (readErrorData model buf) checked
  else
    (readIp buf).iphdrlen + (readIp buf).len ≠ length ∨ (readIp buf).len < 8 ∨
      QuietMessage host s (igmpType buf) (readIp buf).src (igmpGroup buf)

theorem quietMessage_other {type : Nat} {group : Addr} (query : type ≠ igmpMembershipQuery)
    (report : type ≠ igmpV2MembershipReport) (leave : type ≠ igmpV2LeaveGroup) :
    QuietMessage host s type src group :=
  ⟨fun same => (query same).elim, fun same => (report same).elim, fun same => (leave same).elim⟩

/-- The switch of `igmp_input` leaves the daemon as it was exactly on a quiet message. -/
theorem igmpMessage_rests {type : Nat} {group : Addr} :
    Runs (match (if type = igmpMembershipQuery then some (Event.acceptMembershipQuery src group)
        else if type = igmpV2MembershipReport then some (.acceptGroupReport src group)
        else if type = igmpV2LeaveGroup then some (.acceptLeaveMessage src group)
        else none) with
      | none => pure ()
      | some event => handle host event) s () s ↔ QuietMessage host s type src group := by
  by_cases query : type = igmpMembershipQuery
  · rw [if_pos query]
    refine acceptMembershipQuery_rests.trans ⟨fun quiet => ?_, fun quiet => quiet.query query⟩
    subst query
    exact ⟨fun _ => quiet, nofun, nofun⟩
  rw [if_neg query]
  by_cases report : type = igmpV2MembershipReport
  · rw [if_pos report]
    refine acceptGroupReport_rests.trans ⟨fun quiet => ?_, fun quiet => quiet.report report⟩
    subst report
    exact ⟨nofun, fun _ => quiet, nofun⟩
  rw [if_neg report]
  by_cases leave : type = igmpV2LeaveGroup
  · rw [if_pos leave]
    refine acceptLeaveMessage_rests.trans ⟨fun quiet => ?_, fun quiet => quiet.leave leave⟩
    subst leave
    exact ⟨nofun, nofun, fun _ => quiet⟩
  rw [if_neg leave]
  exact ⟨fun _ => quietMessage_other query report leave, fun _ => runs_pure.mpr ⟨rfl, rfl⟩⟩

/-- Whatever a read returned, it changes and sends nothing exactly when what the buffer
holds amounts to nothing. -/
theorem read_changes_nothing {checked routed : Addr} :
    Runs (igmpInput model host buf length checked routed) s () s ↔ Inert model host s buf length checked := by
  have idle : Runs (pure () : Act Unit) s () s := runs_pure.mpr ⟨rfl, rfl⟩
  unfold igmpInput igmpEvent Inert
  by_cases upcall : (readIp buf).protocol = 0
  · simp only [if_pos upcall]
    by_cases nameless : (readIp buf).src = 0 ∨ (readIp buf).dst = 0
    · rw [if_pos nameless]
      exact ⟨fun _ => or_assoc.mp (Or.inl nameless), fun _ => idle⟩
    · rw [if_neg nameless]
      refine multicastPacketError_rests.trans ⟨fun quiet => Or.inr (Or.inr quiet), fun either => ?_⟩
      exact (or_assoc.mpr either).resolve_left nameless
  simp only [if_neg upcall]
  by_cases other : (readIp buf).iphdrlen + (readIp buf).len ≠ length
  · rw [if_pos other]
    exact ⟨fun _ => Or.inl other, fun _ => idle⟩
  rw [if_neg other]
  by_cases short : ((readIp buf).len : Int) - igmpMinlen < 0
  · rw [if_pos short]
    refine ⟨fun _ => Or.inr (Or.inl ?_), fun _ => idle⟩
    unfold igmpMinlen at short
    omega
  rw [if_neg short]
  refine igmpMessage_rests.trans ⟨fun quiet => Or.inr (Or.inr quiet), fun either => ?_⟩
  rcases either with differs | small | quiet
  · exact (other differs).elim
  · unfold igmpMinlen at short
    omega
  · exact quiet

/-- After a failed read only a kernel message can be left to do. -/
theorem inert_failed_read (failed : length < 0) {checked : Addr} :
    Inert model host s buf length checked ↔ ((readIp buf).protocol = 0 →
      (readIp buf).src = 0 ∨ (readIp buf).dst = 0 ∨ QuietUpcall host s (readErrorData model buf) checked) := by
  unfold Inert
  by_cases upcall : (readIp buf).protocol = 0
  · rw [if_pos upcall]
    exact ⟨fun quiet _ => quiet, fun quiet => quiet upcall⟩
  · rw [if_neg upcall]
    refine iff_of_true (Or.inl ?_) fun same => (upcall same).elim
    unfold IpHeader.iphdrlen
    omega

/-- The kernel's message about the first packet of a station on 10.0.1.0 to the channel. -/
def firstPacketUpcall : Memory :=
  store32 (store32 (store8 (store8 (fun _ => 0) 8 1) 10 1) 12 (stationOn 1 2)) 16 channel

/-- The message left in the buffer creates its entry again. -/
theorem read_changes_table :
    ¬ ∀ (model : DataModel) (host : Host) (buf : Memory) (length : Int) (checked routed : Addr) (s : Daemon),
      Reachable host (fun _ _ => True) s → length < sizeofIp →
        Runs (igmpInput model host buf length checked routed) s () s := by
  intro unchanged
  have passed : endsWith loneRouter (fun _ _ => True)
      [.multicastPacketError (readErrorData .ilp32 firstPacketUpcall) 0 0] (fun _ => true) = true := by
    decide +kernel
  obtain ⟨s, reached, _⟩ := reachable_of_endsWith passed
  have run := unchanged .ilp32 loneRouter firstPacketUpcall (-1) 0 0 s reached (by decide)
  have upcall : (readIp firstPacketUpcall).protocol = 0 := by decide +kernel
  have named : ¬ ((readIp firstPacketUpcall).src = 0 ∨ (readIp firstPacketUpcall).dst = 0) := by decide +kernel
  unfold igmpInput igmpEvent at run
  simp only [if_pos upcall, if_neg named] at run
  have new : (readErrorData .ilp32 firstPacketUpcall).message = 1 := by decide +kernel
  have right : findVifDirect loneRouter (getUpstream loneRouter 0 (readErrorData .ilp32 firstPacketUpcall).source) =
      (readErrorData .ilp32 firstPacketUpcall).vif := by decide +kernel
  exact ((multicastPacketError_rests.mp run).new new).2 right

end PimDm.Property
