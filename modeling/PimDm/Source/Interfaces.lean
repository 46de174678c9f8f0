import PimDm.Source.Machine

/-!
# The interface table

`init_vifs` numbers the interfaces the kernel reports from 1 and fills `myvifs`, and
`active_vifs` starts the protocols on those that are up.  Where they write arrays of a
declared size, the indices are noted.
-/

namespace PimDm.Source

open PimDm.Foundation

/-- The declared size of `myvifs`. -/
def myvifsSize : Nat := 32

/-- The declared size of `outvif`, `prune_timer_id` and `prune_delay_timer_id` in `struct mrt`. -/
def outvifSize : Nat := 32

def afInet : Nat := 2

def iffUp : BitVec 16 := 0x0001#16

def iffLoopback : BitVec 16 := 0x0008#16

def iffMulticast : BitVec 16 := 0x8000#16

/-- A record of `SIOCGIFCONF`, and what `iftemp` holds for it after `SIOCGIFFLAGS` and
`SIOCGIFNETMASK`; a call that fails leaves there whatever it was. -/
structure Ifreq where
  family : Nat
  address : Addr
  flags : BitVec 16
  netmask : Addr
  deriving DecidableEq, Repr

/-- The interface is up. -/
def Ifreq.isUp (ifr : Ifreq) : Bool := ifr.flags &&& iffUp != 0#16

/-- What `init_vifs` stores of an interface. -/
def Ifreq.toIface (ifr : Ifreq) : Iface where
  address := ifr.address
  subnet := ifr.address &&& ifr.netmask
  subnetMask := ifr.netmask
  subnetBroadcast := ifr.address &&& ifr.netmask ||| ~~~ifr.netmask
  isActive := ifr.isUp

/-- The variables of `init_vifs`, with `myv` as the index it points to, and the indices at which
`myvifs` has been written. -/
structure VifTable where
  maxvif : Nat
  myv : Vif
  iface : Vif → Iface
  written : List Vif

def VifTable.empty : VifTable := ⟨0, 0, fun _ => ⟨0, 0, 0, 0, false⟩, []⟩

/-- `myv++`, the stores through `myv`, and `maxvif++`. -/
def VifTable.add (table : VifTable) (ifr : Ifreq) : VifTable where
  maxvif := table.maxvif + 1
  myv := table.myv + 1
  iface := Function.update table.iface (table.myv + 1) ifr.toIface
  written := table.written ++ [table.myv + 1]

/-- The loop of `init_vifs` over the records. -/
def initVifsLoop : List Ifreq → VifTable → VifTable
  | [], table => table
  | ifr :: rest, table =>
      if ifr.family ≠ afInet then initVifsLoop rest table
      else if ifr.flags &&& (iffLoopback ||| iffMulticast) ≠ iffMulticast then initVifsLoop rest table
      else if table.maxvif = 32 then table
      else initVifsLoop rest (table.add ifr)

/-- `init_vifs`, up to the call of `active_vifs`. -/
def initVifs (ifreqs : List Ifreq) : VifTable := initVifsLoop ifreqs .empty

/-- The host with the interfaces that `init_vifs` finds. -/
def Host.initVifs (host : Host) (ifreqs : List Ifreq) : Host :=
  { host with
    maxvif := (Source.initVifs ifreqs).maxvif
    iface := (Source.initVifs ifreqs).iface }

/-- `active_vifs`, which returns the indices at which it writes `mydata` and `hellodata`; both
arrays have `maxvif` elements. -/
def loggingActiveVifs (host : Host) : Act (List Vif) :=
  foldProgram (fun written vif =>
    if (host.iface vif).isActive = true then do
      activeVif host vif
      pure (written ++ [vif])
    else pure written) host.vifs []

/-- Without the indices it is `active_vifs`. -/
theorem loggingActiveVifs_erased (host : Host) :
    (loggingActiveVifs host >>= fun _ => pure ()) = activeVifs host := by
  unfold activeVifs
  refine foldProgram_erased (fun written vif => ?_) host.vifs []
  by_cases active : (host.iface vif).isActive = true
  · rw [if_pos active, onlyIf, if_pos active, bind_assoc]
    simp only [pure_bind]
    exact bind_pure _
  · rw [if_neg active, onlyIf, if_neg active, pure_bind]

end PimDm.Source
