import PimDm.Source.State

/-!
# `vif.c` and `route.c`

Look-ups in the interface table, each a scan over the interfaces `1..maxvif`.
The answer of the kernel's routing socket is an argument of `get_upstream`.
-/

namespace PimDm.Source

/-- The interface numbers of the loops `for (vif = 1; vif <= maxvif; vif++)`. -/
def Host.vifs (host : Host) : List Vif := List.range' 1 host.maxvif

/-- The address lies in the subnet of the interface and is not its broadcast address. -/
def Iface.onLink (myv : Iface) (address : Addr) : Bool :=
  address &&& myv.subnetMask == myv.subnet &&
    (myv.subnetMask == 0xffffffff#32 || address != myv.subnetBroadcast)

def findVifDirectFrom (host : Host) (address : Addr) : List Vif → Vif
  | [] => 0
  | vif :: rest =>
      let myv := host.iface vif
      if !myv.isActive then findVifDirectFrom host address rest
      else if myv.address = address then 0
      else if myv.onLink address then vif
      else findVifDirectFrom host address rest

/-- The interface an on-link neighbour's address belongs to, 0 if there is none
or the address is one of our own. -/
def findVifDirect (host : Host) (address : Addr) : Vif :=
  findVifDirectFrom host address host.vifs

def isLocalAddressFrom (host : Host) (address : Addr) : List Vif → Vif
  | [] => 0
  | vif :: rest =>
      let myv := host.iface vif
      if !myv.isActive then isLocalAddressFrom host address rest
      else if myv.address = address then vif
      else isLocalAddressFrom host address rest

/-- The interface whose own address this is, or 0. -/
def isLocalAddress (host : Host) (address : Addr) : Vif :=
  isLocalAddressFrom host address host.vifs

def findVifDirectLocalFrom (host : Host) (address : Addr) : List Vif → Vif
  | [] => 0
  | vif :: rest =>
      let myv := host.iface vif
      if !myv.isActive then findVifDirectLocalFrom host address rest
      else if myv.address = address then vif
      else if myv.onLink address then vif
      else findVifDirectLocalFrom host address rest

/-- As `find_vif_direct`, but our own address also answers its interface. -/
def findVifDirectLocal (host : Host) (address : Addr) : Vif :=
  findVifDirectLocalFrom host address host.vifs

/-- `get_upstream`; `gateway` is what the routing socket answers for `source`. -/
def getUpstream (host : Host) (gateway source : Addr) : Addr :=
  if findVifDirect host source ≠ 0 then source else gateway

/-- `get_incoming_vif`. -/
def getIncomingVif (host : Host) (gateway source : Addr) : Act Vif :=
  let neighbor := getUpstream host gateway source
  if neighbor = 0 then throw .exit
  else pure (findVifDirect host neighbor)

/-- An interface that takes part in the protocols. -/
structure Host.Serves (host : Host) (vif : Vif) : Prop where
  positive : 1 ≤ vif
  bounded : vif ≤ host.maxvif
  active : (host.iface vif).isActive = true

theorem Host.mem_vifs {host : Host} {vif : Vif} : vif ∈ host.vifs ↔ 1 ≤ vif ∧ vif ≤ host.maxvif := by
  unfold Host.vifs
  rw [List.mem_range'_1, Nat.add_comm, Nat.lt_succ_iff]

theorem Host.nodup_vifs (host : Host) : host.vifs.Nodup := List.nodup_range'

theorem findVifDirectFrom_found {host : Host} {address : Addr} {vifs : List Vif}
    (found : findVifDirectFrom host address vifs ≠ 0) :
    findVifDirectFrom host address vifs ∈ vifs ∧
      (host.iface (findVifDirectFrom host address vifs)).isActive = true ∧
      (host.iface (findVifDirectFrom host address vifs)).address ≠ address := by
  induction vifs with
  | nil => exact (found rfl).elim
  | cons vif rest ih =>
      unfold findVifDirectFrom at found ⊢
      by_cases active : (host.iface vif).isActive = true
      · by_cases own : (host.iface vif).address = address
        · simp [active, own] at found
        · by_cases link : (host.iface vif).onLink address = true
          · simp [active, own, link]
          · simp only [active, own, link] at found ⊢
            obtain ⟨member, rest⟩ := ih found
            exact ⟨List.mem_cons_of_mem _ member, rest⟩
      · simp only [active] at found ⊢
        obtain ⟨member, rest⟩ := ih found
        exact ⟨List.mem_cons_of_mem _ member, rest⟩

theorem findVifDirectLocalFrom_mem {host : Host} {address : Addr} {vifs : List Vif}
    (found : findVifDirectLocalFrom host address vifs ≠ 0) :
    findVifDirectLocalFrom host address vifs ∈ vifs ∧
      (host.iface (findVifDirectLocalFrom host address vifs)).isActive = true := by
  induction vifs with
  | nil => exact (found rfl).elim
  | cons vif rest ih =>
      unfold findVifDirectLocalFrom at found ⊢
      by_cases active : (host.iface vif).isActive = true
      · by_cases near : (host.iface vif).address = address ∨ (host.iface vif).onLink address = true
        · rcases near with own | link
          · simp [active, own]
          · by_cases own : (host.iface vif).address = address <;> simp [active, own, link]
        · obtain ⟨own, link⟩ := not_or.mp near
          simp only [active, own, link] at found ⊢
          exact ⟨List.mem_cons_of_mem _ (ih found).1, (ih found).2⟩
      · simp only [active] at found ⊢
        exact ⟨List.mem_cons_of_mem _ (ih found).1, (ih found).2⟩

/-- A neighbour's address is not the one of our own interface to it. -/
theorem findVifDirect_other {host : Host} {address : Addr} (found : findVifDirect host address ≠ 0) :
    (host.iface (findVifDirect host address)).address ≠ address :=
  (findVifDirectFrom_found found).2.2

/-- A neighbour's interface is in the table and active. -/
theorem findVifDirect_serves {host : Host} {address : Addr} (found : findVifDirect host address ≠ 0) :
    host.Serves (findVifDirect host address) := by
  obtain ⟨member, active, _⟩ := findVifDirectFrom_found found
  exact ⟨(Host.mem_vifs.mp member).1, (Host.mem_vifs.mp member).2, active⟩

theorem findVifDirectLocal_serves {host : Host} {address : Addr}
    (found : findVifDirectLocal host address ≠ 0) :
    host.Serves (findVifDirectLocal host address) := by
  obtain ⟨member, active⟩ := findVifDirectLocalFrom_mem found
  exact ⟨(Host.mem_vifs.mp member).1, (Host.mem_vifs.mp member).2, active⟩

end PimDm.Source
