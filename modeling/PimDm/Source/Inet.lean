import Mathlib.Logic.Function.Basic

/-!
# Addresses, bytes and the functions of `inet.c`

Addresses are kept as the daemon keeps them, 32-bit words in network order read
on a little-endian host; `ntohl` swaps the bytes.  Packet buffers are memory
around a pointer: the daemon never compares an offset with a buffer's end.
-/

namespace PimDm.Source

/-- `u_int32` in network byte order. -/
abbrev Addr := BitVec 32

abbrev Byte := BitVec 8

/-- The bytes around some pointer, by their distance from it. -/
abbrev Memory := Int → Byte

def ntohl (word : Addr) : Addr :=
  word.extractLsb' 0 8 ++ word.extractLsb' 8 8 ++ word.extractLsb' 16 8 ++ word.extractLsb' 24 8

theorem ntohl_ntohl (word : Addr) : ntohl (ntohl word) = word := by
  unfold ntohl
  refine BitVec.eq_of_getLsbD_eq fun i bound => ?_
  simp only [BitVec.getLsbD_append, BitVec.getLsbD_extractLsb']
  grind

def ntohs (word : BitVec 16) : BitVec 16 :=
  word.extractLsb' 0 8 ++ word.extractLsb' 8 8

def htons (word : BitVec 16) : BitVec 16 := ntohs word

/-! ## Little-endian loads and stores -/

def load16 (data : Memory) (offset : Int) : BitVec 16 :=
  data (offset + 1) ++ data offset

def load32 (data : Memory) (offset : Int) : Addr :=
  data (offset + 3) ++ data (offset + 2) ++ data (offset + 1) ++ data offset

def store8 (data : Memory) (offset : Int) (value : Byte) : Memory :=
  Function.update data offset value

def store16 (data : Memory) (offset : Int) (value : BitVec 16) : Memory :=
  store8 (store8 data offset (value.extractLsb' 0 8)) (offset + 1) (value.extractLsb' 8 8)

def store32 (data : Memory) (offset : Int) (value : Addr) : Memory :=
  store16 (store16 data offset (value.extractLsb' 0 16)) (offset + 2) (value.extractLsb' 16 16)

/-- `bcopy(source, target + offset, length)`. -/
def bcopy (source target : Memory) (offset : Int) (length : Nat) : Memory := fun place =>
  if offset ≤ place ∧ place < offset + length then source (place - offset) else target place

/-! ## `inet.c` -/

/-- `IN_MULTICAST` of a host-order address. -/
def inMulticast (address : Addr) : Bool := address &&& 0xf0000000#32 == 0xe0000000#32

/-- `IN_BADCLASS` of a host-order address. -/
def inBadclass (address : Addr) : Bool := address &&& 0xf0000000#32 == 0xf0000000#32

def inetValidHost (naddr : Addr) : Bool :=
  let addr := ntohl naddr
  !(inMulticast addr || inBadclass addr || addr &&& 0xff000000#32 == 0#32)

/-- The summing loop of `inet_cksum`: whole words, then a last odd byte. -/
def inetCksumLoop (packet : Memory) : Nat → Int → BitVec 32 → BitVec 32
  | 0, _, sum => sum
  | 1, offset, sum => sum + (packet offset).zeroExtend 32
  | nleft + 2, offset, sum =>
      inetCksumLoop packet nleft (offset + 2) (sum + (load16 packet offset).zeroExtend 32)

/-- `inet_cksum`; a negative length leaves the sum at zero. -/
def inetCksum (packet : Memory) (length : Int) : BitVec 16 :=
  let sum := inetCksumLoop packet length.toNat 0 0#32
  let sum := sum.sshiftRight 16 + (sum &&& 0xffff#32)
  let sum := sum + sum.sshiftRight 16
  (~~~sum).truncate 16

/-- `htonl` of the dotted address `a.b.c.d`, as the daemon holds it. -/
def dotted (a b c d : Byte) : Addr := d ++ c ++ b ++ a

/-- `htonl(INADDR_ALLHOSTS_GROUP)`. -/
def allhosts : Addr := dotted 224 0 0 1

/-- `htonl(INADDR_ALLPIM_ROUTERS_GROUP)`. -/
def allpimrouters : Addr := dotted 224 0 0 13

end PimDm.Source
