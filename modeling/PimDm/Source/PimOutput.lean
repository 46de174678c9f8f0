import PimDm.Source.Callout
import PimDm.Source.Vif

/-!
# The senders of `pim.c`

Every sender writes its message into the one buffer `pim_send_buf` and hands it
to `pimdm_output`.  The buffer is modelled from the PIM header on: the IP header
in front of it only carries the addresses, which the observation records.
-/

namespace PimDm.Source

open PimDm.Foundation

def pimHello : Nat := 0
def pimJoinPrune : Nat := 3
def pimAssert : Nat := 5
def pimGraft : Nat := 6
def pimGraftAck : Nat := 7

/-- `sizeof(struct pim)`. -/
def sizeofPim : Int := 4

/-- `PIM_HELLO_HOLDTIME`, `3.5 * PIM_HELLO_PERIOD`. -/
def pimHelloHoldtime : Int := 105
def pimHelloPeriod : Int := 30
def pimPruneDelay : Int := 3
def pimAssertTimer : Int := 180
def pimGraftTimer : Int := 3
def pimPruneHoldTime : Int := 30
def pimSgTimeout : Int := 298
def pimSgCheck : Int := 30

/-- The `packet_type` argument of `pim_join_prune_output`. -/
inductive PacketType where
  | join
  | prune
  deriving DecidableEq, Repr

/-- The PIM header `pimdm_output` writes: type and version share a byte, the
reserved byte keeps what the buffer held. -/
def writePimHeader (buf : Memory) (type : Nat) (length : Int) : Memory :=
  let buf := store8 buf 0 (BitVec.ofNat 8 (2 * 16 + type % 16))
  let buf := store16 buf 2 0#16
  store16 buf 2 (inetCksum buf (sizeofPim + length))

def Daemon.writeBuf (state : Daemon) (write : Memory → Memory) : Daemon :=
  { state with pimSendBuf := write state.pimSendBuf }

def writeSendBuf (write : Memory → Memory) : Act Unit :=
  modify fun state => state.writeBuf write

/-- `pimdm_output`; `length` counts the bytes after the PIM header, and `entry`
is the routing entry the message was built from, 0 if there is none. -/
def pimdmOutput (src dst : Addr) (type : Nat) (length : Int) (entry : Ptr) : Act Unit := do
  writeSendBuf fun buf => writePimHeader buf type length
  let state ← get
  let bytes := (List.range (sizeofPim + length).toNat).map fun place : Nat => state.pimSendBuf place
  observe (.pim ⟨type, src, dst, bytes⟩ entry)

/-! ## Message bodies -/

/-- `struct encode_unicast_option`. -/
def writeUnicastOption (buf : Memory) (offset : Int) : Memory :=
  store8 (store8 buf offset 1) (offset + 1) 0

/-- `struct encode_group_address` and `struct encode_source_address`. -/
def writeEncodedAddress (buf : Memory) (offset : Int) (address : Addr) : Memory :=
  let buf := store8 buf offset 1
  let buf := store8 buf (offset + 1) 0
  let buf := store8 buf (offset + 2) 0
  let buf := store8 buf (offset + 3) 32
  store32 buf (offset + 4) address

/-- `struct pim_join_prune_header`. -/
def writeJoinPruneHeader (buf : Memory) (offset : Int) (upstream : Addr) (holdtime : Int) : Memory :=
  let buf := store32 buf offset upstream
  let buf := store8 buf (offset + 4) 0
  let buf := store8 buf (offset + 5) 1
  store16 buf (offset + 6) (BitVec.ofInt 16 holdtime)

/-- The body that `pim_join_prune_output` and `pim_graft_output` build alike:
one group with one source and the given counts. -/
def writeOneSource (buf : Memory) (e : Route) (holdtime : Int) (joins prunes : BitVec 16) : Memory :=
  let buf := writeUnicastOption buf 4
  let buf := writeJoinPruneHeader buf 6 e.upstream holdtime
  let buf := writeEncodedAddress buf 14 e.group
  let buf := store16 buf 22 joins
  let buf := store16 buf 24 prunes
  writeEncodedAddress buf 26 e.source

/-- Length of the body of `writeOneSource`. -/
def oneSourceLength : Int := 2 + 8 + 12 + 8

/-- `pim_join_prune_output`. -/
def pimJoinPruneOutput (host : Host) (mymrt : Ptr) (packetType : PacketType) (holdtime : Int) :
    Act Unit := do
  let e ← loadMrt mymrt
  writeSendBuf fun buf =>
    match packetType with
    | .join => writeOneSource buf e.toRoute holdtime (htons 1) (htons 0)
    | .prune => writeOneSource buf e.toRoute holdtime (htons 0) (htons 1)
  pimdmOutput (host.iface e.incoming).address allpimrouters pimJoinPrune oneSourceLength mymrt

/-- `pim_graft_output`. -/
def pimGraftOutput (host : Host) (mymrt : Ptr) : Act Unit := do
  let e ← loadMrt mymrt
  writeSendBuf fun buf => writeOneSource buf e.toRoute 0 (htons 1) 0
  pimdmOutput (host.iface e.incoming).address e.upstream pimGraft oneSourceLength mymrt

/-- The body of an Assert. -/
def writeAssert (buf : Memory) (source group : Addr) (preference metric : BitVec 32) : Memory :=
  let buf := writeEncodedAddress buf 4 group
  let buf := writeUnicastOption buf 12
  let buf := store32 buf 14 source
  let buf := store32 buf 18 preference
  store32 buf 22 metric

/-- The length `pim_assert_output` computes: the size of the group address is
taken twice. -/
def assertLength : Int := 8 + 8 + 2 * 4

/-- `pim_assert_output`. -/
def pimAssertOutput (host : Host) (source group : Addr) (vif : Vif)
    (preference metric : BitVec 32) : Act Unit := do
  writeSendBuf fun buf => writeAssert buf source group preference metric
  pimdmOutput (host.iface vif).address allpimrouters pimAssert assertLength 0

/-- The body of a Hello with its hold time option. -/
def writeHello (buf : Memory) (holdtime : Int) : Memory :=
  let buf := store16 buf 4 (htons 1)
  let buf := store16 buf 6 (htons 2)
  store16 buf 8 (htons (BitVec.ofInt 16 holdtime))

/-- `pim_hello_output`. -/
def pimHelloOutput (host : Host) (data : PimHelloOutputData) : Act Unit := do
  writeSendBuf fun buf => writeHello buf data.holdtime
  onlyIf (data.regular = 1) do
    let _ ← timerSetTimer pimHelloPeriod (.pimHelloOutput data)
  pimdmOutput (host.iface data.vif).address allpimrouters pimHello 6 0

end PimDm.Source
