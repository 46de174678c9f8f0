import PimDm.Source.Machine

/-!
# `pim_input` and `igmp_input`

What is done with a receive buffer after `recvfrom`, whose result may be -1 or
shorter than an IP header: the test for that only logs.  A buffer is memory from
the IP header on, with whatever earlier packets have left behind the bytes just
received.
-/

namespace PimDm.Source

open PimDm.Foundation

/-- The widths of `long` and of pointers the daemon is compiled for. -/
inductive DataModel where
  | ilp32
  | lp64
  deriving DecidableEq, Repr

/-- `sizeof(u_long)`, which is also the size of a pointer. -/
def DataModel.sizeofLong : DataModel → Int
  | .ilp32 => 4
  | .lp64 => 8

/-- `sizeof(struct ip)`. -/
def sizeofIp : Int := 20

/-- The fields of `struct ip` the daemon reads; `ip_len` is in host order. -/
structure IpHeader where
  hl : Nat
  len : Nat
  protocol : Byte
  src : Addr
  dst : Addr
  deriving DecidableEq, Repr

def readIp (buf : Memory) : IpHeader :=
  ⟨(buf 0).toNat % 16, (load16 buf 2).toNat, buf 9, load32 buf 12, load32 buf 16⟩

/-- `ip->ip_hl << 2`. -/
def IpHeader.iphdrlen (ip : IpHeader) : Int := (4 * ip.hl : Nat)

/-- `buf + distance`. -/
def Memory.shift (buf : Memory) (distance : Int) : Memory := fun place => buf (distance + place)

/-- The switch of `pim_input` on `pim->pim_type`; any other type is logged. -/
def pimMessageOf (type : Nat) : Option PimMessage :=
  if type = pimHello then some .hello
  else if type = pimJoinPrune then some .joinPrune
  else if type = pimAssert then some .assert
  else if type = pimGraft then some .graft
  else if type = pimGraftAck then some .graftAck
  else none

/-- The PIM part of a received packet. -/
def pimPart (buf : Memory) : Memory := buf.shift (readIp buf).iphdrlen

/-- `length - iphdrlen`. -/
def pimLength (buf : Memory) (length : Int) : Int := length - (readIp buf).iphdrlen

/-- `pim->pim_type`, the low half of the first byte. -/
def pimType (buf : Memory) : Nat := (pimPart buf 0).toNat % 16

/-- `pim_input`.  The length is compared, as an unsigned number, with the size
of the pointer `pim`. -/
def pimInput (model : DataModel) (host : Host) (pimReceiveBuf : Memory) (length : Int) : Act Unit :=
  if 0 ≤ pimLength pimReceiveBuf length ∧ pimLength pimReceiveBuf length < model.sizeofLong then pure ()
  else
    match pimMessageOf (pimType pimReceiveBuf) with
    | none => pure ()
    | some type =>
        receivePim host type (readIp pimReceiveBuf).src (pimPart pimReceiveBuf)
          (pimLength pimReceiveBuf length)

/-- `(struct multicast_error_data *)igmp_receive_buf`. -/
def readErrorData (model : DataModel) (buf : Memory) : MulticastErrorData where
  message := (buf (2 * model.sizeofLong)).toNat
  vif := (buf (2 * model.sizeofLong + 2)).toNat
  source := load32 buf (2 * model.sizeofLong + 4)
  destination := load32 buf (2 * model.sizeofLong + 8)

/-- `IGMP_MINLEN`. -/
def igmpMinlen : Int := 8

def igmpV2MembershipReport : Nat := 0x16
def igmpV2LeaveGroup : Nat := 0x17

/-- The IGMP part of a received packet. -/
def igmpPart (buf : Memory) : Memory := buf.shift (readIp buf).iphdrlen

/-- `igmp->igmp_type`. -/
def igmpType (buf : Memory) : Nat := (igmpPart buf 0).toNat

/-- `igmp->igmp_group.s_addr`. -/
def igmpGroup (buf : Memory) : Addr := load32 (igmpPart buf) 4

/-- The event a received packet amounts to, if `igmp_input` dispatches it. -/
def igmpEvent (model : DataModel) (igmpReceiveBuf : Memory) (length : Int) (checked routed : Addr) :
    Option Event :=
  let ip := readIp igmpReceiveBuf
  if ip.protocol = 0 then
    if ip.src = 0 ∨ ip.dst = 0 then none
    else some (.multicastPacketError (readErrorData model igmpReceiveBuf) checked routed)
  else if ip.iphdrlen + ip.len ≠ length then none
  else if (ip.len : Int) - igmpMinlen < 0 then none
  else if igmpType igmpReceiveBuf = igmpMembershipQuery then
    some (.acceptMembershipQuery ip.src (igmpGroup igmpReceiveBuf))
  else if igmpType igmpReceiveBuf = igmpV2MembershipReport then
    some (.acceptGroupReport ip.src (igmpGroup igmpReceiveBuf))
  else if igmpType igmpReceiveBuf = igmpV2LeaveGroup then
    some (.acceptLeaveMessage ip.src (igmpGroup igmpReceiveBuf))
  else none

/-- `igmp_input`. -/
def igmpInput (model : DataModel) (host : Host) (igmpReceiveBuf : Memory) (length : Int)
    (checked routed : Addr) : Act Unit :=
  match igmpEvent model igmpReceiveBuf length checked routed with
  | none => pure ()
  | some event => handle host event

/-- A packet of `pim_input` is dropped or is one event of the machine. -/
theorem pimInput_handles (model : DataModel) (host : Host) (buf : Memory) (length : Int) :
    pimInput model host buf length = pure () ∨ ∃ type, pimInput model host buf length =
      handle host (.pimInput type (readIp buf).src (pimPart buf) (pimLength buf length)) := by
  unfold pimInput
  split
  · exact Or.inl rfl
  · cases pimMessageOf (pimType buf) with
    | none => exact Or.inl rfl
    | some type => exact Or.inr ⟨type, rfl⟩

end PimDm.Source
