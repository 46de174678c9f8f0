import PimDm.Source.Inet
import PimDm.Foundation.ListLoop

/-!
# The data of the daemon

The structures of `mrt.h`, `vif.h` and `pimdm.h`, the timer records of
`callout.c`, and the state all handlers share.  Records live in one heap per
type and are linked through their `next` fields.  `Host` collects what the
daemon's code does not decide: the interface table `init_vifs` filled, the
contents of fresh and freed blocks, and of the uninitialised `mfcctl` on the
stack of `change_mfc`.
-/

namespace PimDm.Source

open PimDm.Foundation

/-- `vifi_t`; interfaces are numbered from 1, and 0 stands for no interface. -/
abbrev Vif := Nat

/-- The fields of `struct mrt` that decide forwarding. -/
@[ext] structure Route where
  source : Addr
  group : Addr
  upstream : Addr
  incoming : Vif
  preference : BitVec 32
  metric : BitVec 32
  outvif : Vif → Int
  outnumber : Int

/-- `struct mrt`. -/
structure Mrt extends Route where
  next : Ptr
  joinDelayTimerId : Int
  pruneTimerId : Vif → Int
  pruneDelayTimerId : Vif → Int
  graftTimerId : Int
  timeoutId : Int
  checkTimerid : Int

/-- A block of zero bytes read as `struct mrt`. -/
def Mrt.zero : Mrt where
  source := 0
  group := 0
  upstream := 0
  incoming := 0
  preference := 0
  metric := 0
  outvif _ := 0
  outnumber := 0
  next := 0
  joinDelayTimerId := 0
  pruneTimerId _ := 0
  pruneDelayTimerId _ := 0
  graftTimerId := 0
  timeoutId := 0
  checkTimerid := 0

/-- `struct igmp_group`. -/
structure IgmpGroup where
  next : Ptr
  address : Addr
  leaveQuery : Int
  timeout : Int
  deriving DecidableEq, Repr

/-- A block of zero bytes read as `struct igmp_group`. -/
def IgmpGroup.zero : IgmpGroup := ⟨0, 0, 0, 0⟩

/-- `struct pim_neighbor`. -/
structure PimNeighbor where
  next : Ptr
  address : Addr
  holdtime : Int
  timeoutid : Int
  deriving DecidableEq, Repr

/-- The fields of `struct myvif` that change after `init_vifs`. -/
structure Myvif where
  groups : Ptr
  querier : Addr
  igmpQuerytimerId : Int
  querierRetryId : Int
  neighbor : Ptr
  deriving DecidableEq, Repr

/-- The fields of `struct myvif` that `init_vifs` writes once. -/
structure Iface where
  address : Addr
  subnet : Addr
  subnetMask : Addr
  subnetBroadcast : Addr
  isActive : Bool
  deriving DecidableEq, Repr

/-- `struct pim_prune_data`. -/
structure PimPruneData where
  source : Addr
  group : Addr
  destination : Addr
  vif : Vif
  holdtime : Int
  deriving DecidableEq, Repr

/-- `struct pim_join_data`. -/
structure PimJoinData where
  source : Addr
  group : Addr
  destination : Addr
  deriving DecidableEq, Repr

/-- `struct pim_hello_output_data`. -/
structure PimHelloOutputData where
  vif : Vif
  holdtime : Int
  regular : Int
  deriving DecidableEq, Repr

/-- The functions given to `timer_setTimer`, with their data. -/
inductive Callback where
  | timer
  | pimHelloOutput (data : PimHelloOutputData)
  | deletePimNeighbor (entry : Ptr)
  | sendJoin (data : PimJoinData)
  | pruneTimeOut (data : PimPruneData)
  | setPrune (data : PimPruneData)
  | activeForward (vif : Vif)
  | planGraft (entry : Ptr)
  | handleSgTimeout (source group : Addr)
  | checkSg (source group : Addr)
  | sendQuery (vif : Vif)
  | retryQuery (vif : Vif)
  | leaveQuery (vif : Vif) (group : Addr)
  deriving DecidableEq, Repr

/-- `struct timeout_q`, with `func` and `data` as one callback. -/
structure TimeoutQ where
  id : Int
  func : Callback
  time : Int
  deriving DecidableEq, Repr

/-- What the kernel keeps of a `struct mfcctl` for one source and group. -/
structure Mfc where
  parent : Vif
  ttls : Vif → Nat

/-- A PIM message handed to `sendto`: addresses, and the bytes from the PIM header on. -/
structure PimPacket where
  type : Nat
  src : Addr
  dst : Addr
  bytes : List Byte
  deriving DecidableEq, Repr

/-- What can be seen of a run: messages sent, the entry a message was built
from where there is one, and calls that create and delete state. -/
inductive Observation where
  | pim (packet : PimPacket) (entry : Ptr)
  | igmp (src dst : Addr) (type code : Nat) (group : Addr)
  | addSg (source group : Addr)
  | deleteSg (source group : Addr)
  | delLeaf (vif : Vif) (group : Addr)
  deriving DecidableEq, Repr

/-- How a handler can fail to complete. -/
inductive Fault where
  /-- A null or wild pointer is followed, or a list never ends. -/
  | memory (fault : HeapFault)
  /-- A local pointer is used before it is set. -/
  | uninitialised
  /-- `log` is called with a null format string. -/
  | nullFormat
  /-- An array is indexed with a pointer, or a buffer is left. -/
  | outOfBounds
  /-- The daemon calls `exit`. -/
  | exit
  deriving DecidableEq, Repr

/-- What the environment fixes for a run. -/
structure Host where
  maxvif : Nat
  iface : Vif → Iface
  mallocMrt : Ptr → Mrt
  mallocGroup : Ptr → IgmpGroup
  freedGroup : Ptr → IgmpGroup
  stackTtls : Vif → Nat

/-- `malloc` returns zero-filled blocks. -/
structure Host.ZeroFilled (host : Host) : Prop where
  mrt : ∀ address, host.mallocMrt address = Mrt.zero
  group : ∀ address, host.mallocGroup address = IgmpGroup.zero

/-- The global variables of the daemon, its heap, its timers and the kernel's
forwarding cache. `expired` is the batch `age_callout_queue` is working on. -/
structure Daemon where
  themrt : Ptr
  packetNumber : Int
  myvifs : Vif → Myvif
  mrts : Heap Mrt
  groups : Heap IgmpGroup
  neighbors : Heap PimNeighbor
  id : Int
  queue : List TimeoutQ
  expired : List TimeoutQ
  virtualTime : Nat
  pimSendBuf : Memory
  mfc : Addr → Addr → Option Mfc
  trace : List Observation

/-- The handlers of the daemon: they act on its state and may fault. -/
abbrev Act := Program Daemon Fault

/-! ## Access to the heaps -/

def liftHeap {α : Type} : Except HeapFault α → Act α
  | .ok value => pure value
  | .error fault => throw (.memory fault)

def loadMrt (address : Ptr) : Act Mrt := do
  let state ← get
  liftHeap (state.mrts.load address)

def Daemon.setMrt (state : Daemon) (address : Ptr) (function : Mrt → Mrt) : Daemon :=
  { state with mrts := state.mrts.modify address function }

def storeMrt (address : Ptr) (function : Mrt → Mrt) : Act Unit := do
  let _ ← loadMrt address
  modify fun state => state.setMrt address function

def loadGroup (address : Ptr) : Act IgmpGroup := do
  let state ← get
  liftHeap (state.groups.load address)

def Daemon.setGroup (state : Daemon) (address : Ptr) (function : IgmpGroup → IgmpGroup) : Daemon :=
  { state with groups := state.groups.modify address function }

def storeGroup (address : Ptr) (function : IgmpGroup → IgmpGroup) : Act Unit := do
  let _ ← loadGroup address
  modify fun state => state.setGroup address function

def loadNeighbor (address : Ptr) : Act PimNeighbor := do
  let state ← get
  liftHeap (state.neighbors.load address)

def Daemon.setNeighbor (state : Daemon) (address : Ptr) (function : PimNeighbor → PimNeighbor) :
    Daemon :=
  { state with neighbors := state.neighbors.modify address function }

def storeNeighbor (address : Ptr) (function : PimNeighbor → PimNeighbor) : Act Unit := do
  let _ ← loadNeighbor address
  modify fun state => state.setNeighbor address function

def Daemon.setMyvif (state : Daemon) (vif : Vif) (function : Myvif → Myvif) : Daemon :=
  { state with myvifs := Function.update state.myvifs vif (function (state.myvifs vif)) }

def storeMyvif (vif : Vif) (function : Myvif → Myvif) : Act Unit :=
  modify fun state => state.setMyvif vif function

def Daemon.observe (state : Daemon) (observation : Observation) : Daemon :=
  { state with trace := observation :: state.trace }

def observe (observation : Observation) : Act Unit :=
  modify fun state => state.observe observation

/-! ## Loops over the lists of the daemon -/

/-- The first block of the routing table with a property, or `NULL`. -/
def findMrt (property : Mrt → Bool) : Act Ptr := do
  let state ← get
  liftHeap (state.mrts.find Mrt.next property (state.mrts.size + 1) state.themrt)

/-- The search through the routing table with a trailing pointer. -/
def findMrtTrailing (property : Mrt → Bool) : Act (Option Ptr × Ptr) := do
  let state ← get
  liftHeap (state.mrts.findTrailing Mrt.next property (state.mrts.size + 1) none state.themrt)

/-- `for (mymrt = themrt; mymrt != NULL; mymrt = mymrt->next)`. -/
def forMrt (body : Ptr → Act Unit) : Act Unit := do
  let state ← get
  forEach Daemon.mrts Mrt.next Fault.memory body (state.mrts.size + 1) state.themrt

/-- The record of a group in the list of an interface, or `NULL`. -/
def findGroup (vif : Vif) (group : Addr) : Act Ptr := do
  let state ← get
  liftHeap (state.groups.find IgmpGroup.next (fun g => g.address == group)
    (state.groups.size + 1) (state.myvifs vif).groups)

/-- The search through the groups of an interface with a trailing pointer. -/
def findGroupTrailing (vif : Vif) (group : Addr) : Act (Option Ptr × Ptr) := do
  let state ← get
  liftHeap (state.groups.findTrailing IgmpGroup.next (fun g => g.address == group)
    (state.groups.size + 1) none (state.myvifs vif).groups)

/-- `for (g = myv->groups; g != NULL; g = g->next)`. -/
def forGroups (vif : Vif) (body : Ptr → Act Unit) : Act Unit := do
  let state ← get
  forEach Daemon.groups IgmpGroup.next Fault.memory body (state.groups.size + 1)
    (state.myvifs vif).groups

/-- The search through the neighbours of an interface with a trailing pointer. -/
def findNeighborTrailing (vif : Vif) (address : Addr) : Act (Option Ptr × Ptr) := do
  let state ← get
  liftHeap (state.neighbors.findTrailing PimNeighbor.next (fun entry => entry.address == address)
    (state.neighbors.size + 1) none (state.myvifs vif).neighbor)

/-- `findneighbor`: the record of a neighbour of an interface, or `NULL`. -/
def findneighbor (address : Addr) (vif : Vif) : Act Ptr := do
  let state ← get
  liftHeap (state.neighbors.find PimNeighbor.next (fun entry => entry.address == address)
    (state.neighbors.size + 1) (state.myvifs vif).neighbor)

end PimDm.Source
