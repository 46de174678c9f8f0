import PimDm.Refinement.Models

/-!
# The change an event asks for

What each event does to the routing state, computed from the event and the state
before it.
-/

namespace PimDm.Refinement

open PimDm.Foundation PimDm.Source PimDm.Effect PimDm.Routing

/-- A report from a new member of a group. -/
def reportChange (host : Host) (s : Daemon) (src group : Addr) : Change :=
  let vif := findVifDirect host src
  if vif = 0 ∨ (table s).HasMember vif group then .idle else .join vif s.groups.fresh group

/-- The last expiry of `leave_query`.  Freed memory answers for a record that was
not the head of its list. -/
def leaveChange (host : Host) (s : Daemon) (vif : Vif) (group : Addr) : Change :=
  match ((table s).members vif).find? fun item => item.2 == group with
  | none => .idle
  | some item =>
      match s.groups.get? item.1 with
      | none => .idle
      | some g =>
          if g.timeout = 1 ∨ g.timeout = 0 then .idle
          else .leave vif group
            (if item.1 = (s.myvifs vif).groups then group else (host.freedGroup item.1).address)

theorem leaveChange_cases (host : Host) (s : Daemon) (vif : Vif) (group : Addr) :
    leaveChange host s vif group = .idle ∨ ∃ read, leaveChange host s vif group = .leave vif group read := by
  unfold leaveChange
  split
  · exact Or.inl rfl
  · split
    · exact Or.inl rfl
    · split
      · exact Or.inl rfl
      · exact Or.inr ⟨_, rfl⟩

/-- The loss of the neighbour a record is about. -/
def lostNeighborChange (host : Host) (s : Daemon) (entry : Ptr) : Change :=
  match s.neighbors.get? entry with
  | none => .idle
  | some n =>
      let vif := findVifDirect host n.address
      if vif = 0 then .idle else .delNeighbor vif n.address

def helloChange (host : Host) (s : Daemon) (src : Addr) (data : Memory) (length : Int) : Change :=
  let vif := findVifDirect host src
  if vif = 0 then .idle
  else
    match getHoldTimeLoop data (64 * 1024 / 4) sizeofPim (length - sizeofPim) with
    | .error _ => .idle
    | .ok holdtime =>
        if ((table s).neighbors vif).any fun item => item.2 == src then
          if holdtime = 0 then .delNeighbor vif src else .idle
        else .addNeighbor vif s.neighbors.fresh src

/-- The upcall for a packet without a forwarding cache entry. -/
def packetChange (host : Host) (s : Daemon) (mydata : MulticastErrorData) (checked routed : Addr) :
    Change :=
  if mydata.message = 1 ∧ findVifDirect host (getUpstream host checked mydata.source) = mydata.vif then
    .create s.mrts.fresh (getUpstream host routed mydata.source) mydata.source mydata.destination
      mydata.vif
  else .idle

/-- An Assert wins against the upstream neighbour of an entry. -/
def Outdone (r : Route) (body : AssertBody) : Prop :=
  body.source ≠ r.upstream ∧
    assertCompare r.preference r.metric r.upstream body.preference body.metric body.source ≠ 1

instance (r : Route) (body : AssertBody) : Decidable (Outdone r body) :=
  inferInstanceAs (Decidable (_ ∧ _))

def assertChange (host : Host) (s : Daemon) (src : Addr) (data : Memory) : Change :=
  let vif := findVifDirect host src
  let body := readAssert data
  if vif = 0 then .idle
  else
    match (table s).find (routeIsFor body.source body.group) with
    | none => .idle
    | some item =>
        if vif = item.2.incoming ∧ Outdone item.2 body then
          .winner item.1 body.preference body.metric body.source
        else .idle

/-! ## The entries a Graft names -/

/-- Collect what the rounds of a counted loop over a cursor list. -/
def collect {α : Type} (round : Int → List α × Int) : Nat → Int → List α × Int
  | 0, mydata => ([], mydata)
  | count + 1, mydata =>
      let now := round mydata
      let later := collect round count now.2
      (now.1 ++ later.1, later.2)

/-- The entry a round of the loop over the sources of a Graft acts on. -/
def graftSourceNames (find : Addr → Addr → Ptr) (data : Memory) (group : Addr) (mydata : Int) :
    List Ptr × Int :=
  let source := load32 data (mydata + 4)
  if inetValidHost source = false then ([], mydata + sizeofSource)
  else
    let mymrt := find source group
    if mymrt = 0 then ([], mydata + sizeofSource) else ([mymrt], mydata)

def graftGroupNames (find : Addr → Addr → Ptr) (data : Memory) (mydata : Int) : List Ptr × Int :=
  let header := readGroupHeader data mydata
  let joinNumber := (ntohs header.joinField).toNat
  let mydata := mydata + 12
  if inMulticast (ntohl header.group) = false then ([], mydata + joinNumber * sizeofSource)
  else
    let named := collect (graftSourceNames find data header.group) joinNumber mydata
    (named.1, named.2 + sizeofSource)

/-- The name of the entry of a source and group, or `NULL`. -/
def lookup (t : Table) (source group : Addr) : Ptr := addressOf (t.find (routeIsFor source group))

/-- The entries a Graft acts on, in order. -/
def graftNames (t : Table) (data : Memory) : List Ptr :=
  (collect (graftGroupNames (lookup t) data) (readJoinPruneHeader data).numGroups.toNat groupsStart).1

def graftChange (host : Host) (s : Daemon) (src : Addr) (data : Memory) : Change :=
  let vif := findVifDirect host src
  if vif = 0 ∨ (readJoinPruneHeader data).numGroups = 0 then .idle
  else .graft vif (graftNames (table s) data)

/-! ## Events -/

def callChange (host : Host) (s : Daemon) : Callback → Change
  | .deletePimNeighbor entry => lostNeighborChange host s entry
  | .pruneTimeOut data => .restore data.source data.group data.vif
  | .setPrune data => .prune data.source data.group data.vif
  | .handleSgTimeout source group => .remove source group
  | .leaveQuery vif group => leaveChange host s vif group
  | _ => .idle

/-- The change of the routing state an event asks for. -/
def requested (host : Host) (s : Daemon) : Event → Change
  | .multicastPacketError mydata checked routed => packetChange host s mydata checked routed
  | .acceptGroupReport src group => reportChange host s src group
  | .pimInput .hello src data length => helloChange host s src data length
  | .pimInput .assert src data _ => assertChange host s src data
  | .pimInput .graft src data _ => graftChange host s src data
  | .expire _ =>
      match s.expired with
      | [] => .idle
      | ptr :: _ => callChange host s ptr.func
  | _ => .idle

theorem requested_expire_none {host : Host} {s : Daemon} {pktcnt : Int}
    (none : called s (.expire pktcnt) = none) : requested host s (.expire pktcnt) = .idle := by
  have empty : s.expired = [] := by simpa [called] using none
  simp [requested, empty]

theorem requested_expire {host : Host} {s : Daemon} {pktcnt : Int} {func : Callback}
    (calls : called s (.expire pktcnt) = some func) :
    requested host s (.expire pktcnt) = callChange host s func := by
  obtain ⟨ptr, head, rfl⟩ := Option.map_eq_some_iff.mp calls
  obtain ⟨rest, batch⟩ := List.head?_eq_some_iff.mp head
  simp [requested, batch]

/-! ## Which event asks for which change -/

/-- The changes events ask for, with what the daemon has checked. -/
inductive Asks (host : Host) (s : Daemon) : Event → Change → Prop where
  | idle (event : Event) : Asks host s event .idle
  | create {mydata : MulticastErrorData} {checked routed : Addr} (first : mydata.message = 1)
      (right : findVifDirect host (getUpstream host checked mydata.source) = mydata.vif) :
      Asks host s (.multicastPacketError mydata checked routed)
        (.create s.mrts.fresh (getUpstream host routed mydata.source) mydata.source mydata.destination
          mydata.vif)
  | remove {pktcnt : Int} {source group : Addr}
      (calls : called s (.expire pktcnt) = some (.handleSgTimeout source group)) :
      Asks host s (.expire pktcnt) (.remove source group)
  | join {src group : Addr} (direct : findVifDirect host src ≠ 0)
      (absent : ¬ (table s).HasMember (findVifDirect host src) group) :
      Asks host s (.acceptGroupReport src group) (.join (findVifDirect host src) s.groups.fresh group)
  | leave {pktcnt : Int} {vif : Vif} {group : Addr} (read : Addr)
      (calls : called s (.expire pktcnt) = some (.leaveQuery vif group))
      (member : (table s).HasMember vif group) :
      Asks host s (.expire pktcnt) (.leave vif group read)
  | addNeighbor {src : Addr} {data : Memory} {length : Int} (direct : findVifDirect host src ≠ 0) :
      Asks host s (.pimInput .hello src data length)
        (.addNeighbor (findVifDirect host src) s.neighbors.fresh src)
  | delNeighbor {event : Event} {address : Addr} (direct : findVifDirect host address ≠ 0) :
      Asks host s event (.delNeighbor (findVifDirect host address) address)
  | prune {pktcnt : Int} {data : PimPruneData} (calls : called s (.expire pktcnt) = some (.setPrune data)) :
      Asks host s (.expire pktcnt) (.prune data.source data.group data.vif)
  | restore {pktcnt : Int} {data : PimPruneData}
      (calls : called s (.expire pktcnt) = some (.pruneTimeOut data)) :
      Asks host s (.expire pktcnt) (.restore data.source data.group data.vif)
  | graft {src : Addr} {data : Memory} {length : Int} (direct : findVifDirect host src ≠ 0)
      (mymrts : List Ptr) :
      Asks host s (.pimInput .graft src data length) (.graft (findVifDirect host src) mymrts)
  | winner {src : Addr} {data : Memory} {length : Int} (mymrt : Ptr) (preference metric : BitVec 32)
      (upstream : Addr) :
      Asks host s (.pimInput .assert src data length) (.winner mymrt preference metric upstream)

theorem leaveChange_asks (host : Host) {s : Daemon} {pktcnt : Int} {vif : Vif} {group : Addr}
    (calls : called s (.expire pktcnt) = some (.leaveQuery vif group)) :
    Asks host s (.expire pktcnt) (leaveChange host s vif group) := by
  unfold leaveChange
  cases found : ((table s).members vif).find? fun item => item.2 == group with
  | none => exact .idle _
  | some item =>
      cases record : s.groups.get? item.1 with
      | none =>
          simp only [record]
          exact .idle _
      | some g =>
          have same := List.find?_some (p := fun other : Ptr × Addr => other.2 == group) found
          have member : (table s).HasMember vif group :=
            ⟨item, List.mem_of_find?_eq_some found, eq_of_beq same⟩
          simp only [record]
          split
          · exact .idle _
          · exact .leave _ calls member

theorem lostNeighborChange_asks (host : Host) (s : Daemon) (event : Event) (entry : Ptr) :
    Asks host s event (lostNeighborChange host s entry) := by
  unfold lostNeighborChange
  cases record : s.neighbors.get? entry with
  | none => exact .idle _
  | some n =>
      dsimp only
      split
      · exact .idle _
      · rename_i direct
        exact .delNeighbor direct

theorem callChange_asks (host : Host) {s : Daemon} {pktcnt : Int} {func : Callback}
    (calls : called s (.expire pktcnt) = some func) :
    Asks host s (.expire pktcnt) (callChange host s func) := by
  cases func with
  | deletePimNeighbor entry => exact lostNeighborChange_asks host s _ entry
  | pruneTimeOut data => exact .restore calls
  | setPrune data => exact .prune calls
  | handleSgTimeout source group => exact .remove calls
  | leaveQuery vif group => exact leaveChange_asks host calls
  | _ => exact .idle _

theorem receivePim_asks (host : Host) (s : Daemon) (type : PimMessage) (src : Addr) (data : Memory)
    (length : Int) :
    Asks host s (.pimInput type src data length) (requested host s (.pimInput type src data length)) := by
  cases type with
  | hello =>
      change Asks host s _ (helloChange host s src data length)
      unfold helloChange
      dsimp only
      split
      · exact .idle _
      rename_i direct
      split
      · exact .idle _
      · split
        · split
          · exact .delNeighbor direct
          · exact .idle _
        · exact .addNeighbor direct
  | joinPrune => exact .idle _
  | assert =>
      change Asks host s _ (assertChange host s src data)
      unfold assertChange
      dsimp only
      split
      · exact .idle _
      · split
        · exact .idle _
        · split
          · exact .winner ..
          · exact .idle _
  | graft =>
      change Asks host s _ (graftChange host s src data)
      unfold graftChange
      dsimp only
      split
      · exact .idle _
      · rename_i direct
        exact .graft (not_or.mp direct).1 _
  | graftAck => exact .idle _

/-- Every event asks for one of the changes `Asks` lists. -/
theorem requested_asks (host : Host) (s : Daemon) (event : Event) :
    Asks host s event (requested host s event) := by
  cases event with
  | multicastPacketError mydata checked routed =>
      change Asks host s _ (packetChange host s mydata checked routed)
      unfold packetChange
      split
      · rename_i both
        exact .create both.1 both.2
      · exact .idle _
  | acceptGroupReport src group =>
      change Asks host s _ (reportChange host s src group)
      unfold reportChange
      dsimp only
      split
      · exact .idle _
      · rename_i neither
        obtain ⟨direct, absent⟩ := not_or.mp neither
        exact .join direct absent
  | pimInput type src data length => exact receivePim_asks host s type src data length
  | expire pktcnt =>
      cases calls : called s (.expire pktcnt) with
      | none =>
          rw [requested_expire_none calls]
          exact .idle _
      | some func =>
          rw [requested_expire calls]
          exact callChange_asks host calls
  | _ => exact .idle _

end PimDm.Refinement
