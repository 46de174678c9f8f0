import PimDm.Source.Mrt

/-!
# The timers and receivers of `pim.c`

A message is memory around its PIM header, together with the length the IP
layer reported.  The parsers walk it with a cursor `mydata`; the counts in the
message alone bound their loops.
-/

namespace PimDm.Source

open PimDm.Foundation

/-- `valid_packet`.  On a checksum error the source calls `log` with a null
format string. -/
def validPacket (host : Host) (src : Addr) (packet : Memory) (length : Int) : Act Bool :=
  if inetCksum packet length ≠ 0 then throw .nullFormat
  else
    let vif := findVifDirect host src
    if vif = 0 then pure false
    else pure (host.iface vif).isActive

/-! ## Hello -/

/-- The loop of `get_hold_time`.  The remaining length is compared as an
unsigned number, so a negative one goes on; the fuel lets the cursor pass the
64 KiB receive buffer. -/
def getHoldTimeLoop (data : Memory) : Nat → Int → Int → Except HeapFault Int
  | 0, _, _ => .error .wild
  | fuel + 1, mydata, length =>
      if 0 ≤ length ∧ length < 4 then .ok (-1)
      else
        let optionLength := (ntohs (load16 data (mydata + 2))).toNat
        if ntohs (load16 data mydata) = 1 then
          if optionLength ≠ 2 then .ok (-1)
          else .ok (ntohs (load16 data (mydata + 4))).toNat
        else getHoldTimeLoop data fuel (mydata + 4 + optionLength) (length - 4 - optionLength)

/-- `get_hold_time`. -/
def getHoldTime (data : Memory) (length : Int) : Act Int :=
  liftHeap (getHoldTimeLoop data (64 * 1024 / 4) sizeofPim (length - sizeofPim))

/-- The unlinking in `delete_pim_neighbor`: `temp` is unset on the first round. -/
def unlinkNeighbor (vif : Vif) (address : Addr) (temp : Option Ptr) (pimneighbor : Ptr) :
    Act Unit := do
  let entry ← loadNeighbor pimneighbor
  let state ← get
  let head ← loadNeighbor (state.myvifs vif).neighbor
  onlyIf (head.address = address) (storeMyvif vif fun myv => { myv with neighbor := 0 })
  match temp with
  | none => throw .uninitialised
  | some temp => storeNeighbor temp fun before => { before with next := entry.next }

/-- `delete_pim_neighbor`. -/
def deletePimNeighbor (host : Host) (arg : Ptr) : Act Unit := do
  let myentry ← loadNeighbor arg
  let vif := findVifDirect host myentry.address
  if vif = 0 then pure ()
  else
    let found ← findNeighborTrailing vif myentry.address
    onlyIf (found.2 ≠ 0) (unlinkNeighbor vif myentry.address found.1 found.2)
    refreshMrt host vif .delNeighbor

/-- Put a new record in front of the neighbours of an interface. -/
def Daemon.linkNeighbor (state : Daemon) (vif : Vif) (newentry : PimNeighbor) : Daemon :=
  { state with
    neighbors := state.neighbors.alloc newentry
    myvifs := Function.update state.myvifs vif
      { state.myvifs vif with neighbor := state.neighbors.fresh } }

/-- `add_pim_neighbor`. -/
def addPimNeighbor (host : Host) (src : Addr) (holdtime : Int) (vif : Vif) : Act Unit := do
  let state ← get
  let timeoutid ← timerSetTimer holdtime (.deletePimNeighbor state.neighbors.fresh)
  modify fun state => state.linkNeighbor vif ⟨(state.myvifs vif).neighbor, src, holdtime, timeoutid⟩
  refreshMrt host vif .addNeighbor

/-- The branch of `receive_hello` for a known neighbour that stays. -/
def refreshNeighbor (pimneighbor : Ptr) (holdtime : Int) : Act Unit := do
  storeNeighbor pimneighbor fun entry => { entry with holdtime := holdtime }
  let entry ← loadNeighbor pimneighbor
  onlyIf (entry.timeoutid ≠ -1) (timerClearTimer entry.timeoutid)
  let timeoutid ← timerSetTimer holdtime (.deletePimNeighbor pimneighbor)
  storeNeighbor pimneighbor fun entry => { entry with timeoutid := timeoutid }

/-- `receive_hello`.  A missing hold time is logged, and -1 is used. -/
def receiveHello (host : Host) (src : Addr) (data : Memory) (length : Int) : Act Unit := do
  let vif := findVifDirect host src
  let valid ← validPacket host src data length
  if valid = false then pure ()
  else
    let holdtime ← getHoldTime data length
    let pimneighbor ← findneighbor src vif
    if pimneighbor ≠ 0 then
      if holdtime = 0 then deletePimNeighbor host pimneighbor
      else refreshNeighbor pimneighbor holdtime
    else addPimNeighbor host src holdtime vif

/-! ## Delayed joins and prunes -/

/-- `send_join`. -/
def sendJoin (host : Host) (joindata : PimJoinData) : Act Unit := do
  let mymrt ← findSg joindata.source joindata.group
  if mymrt = 0 then pure ()
  else
    let e ← loadMrt mymrt
    timerClearTimer e.joinDelayTimerId
    storeMrt mymrt fun e => { e with joinDelayTimerId := 0 }
    pimJoinPruneOutput host mymrt .join 0

/-- `mymrt->prune_timer_id[vif] = id`. -/
def Mrt.setPruneTimer (vif : Vif) (timer : Int) (e : Mrt) : Mrt :=
  { e with pruneTimerId := Function.update e.pruneTimerId vif timer }

/-- `mymrt->prune_delay_timer_id[vif] = id`. -/
def Mrt.setPruneDelayTimer (vif : Vif) (timer : Int) (e : Mrt) : Mrt :=
  { e with pruneDelayTimerId := Function.update e.pruneDelayTimerId vif timer }

/-- `prune_time_out`. -/
def pruneTimeOut (host : Host) (prunedata : PimPruneData) : Act Unit := do
  let mymrt ← findSg prunedata.source prunedata.group
  if mymrt = 0 then pure ()
  else
    storeMrt mymrt (Mrt.setPruneTimer prunedata.vif 0)
    storeMrt mymrt (Mrt.putOutvif prunedata.vif 1)
    let e ← loadMrt mymrt
    changeMfc host e.source e.group e.incoming
    checkPimState host .addLeaf
    printSg

/-- `set_prune`. -/
def setPrune (host : Host) (prunedata : PimPruneData) : Act Unit := do
  let mymrt ← findSg prunedata.source prunedata.group
  if mymrt = 0 then pure ()
  else
    storeMrt mymrt (Mrt.setPruneDelayTimer prunedata.vif 0)
    storeMrt mymrt (Mrt.putOutvif prunedata.vif 0)
    let e ← loadMrt mymrt
    changeMfc host e.source e.group e.incoming
    checkPimState host .delLeaf
    let timer ← timerSetTimer 5 (.pruneTimeOut prunedata)
    storeMrt mymrt (Mrt.setPruneTimer prunedata.vif timer)

/-- `schedule_join`. -/
def scheduleJoin (mymrt : Ptr) (dst : Addr) : Act Unit := do
  let e ← loadMrt mymrt
  let timer ← timerSetTimer 1 (.sendJoin ⟨e.source, e.group, dst⟩)
  storeMrt mymrt fun e => { e with joinDelayTimerId := timer }

/-- `schedule_prune`. -/
def schedulePrune (mymrt : Ptr) (vif : Vif) (holdtime : Int) : Act Unit := do
  let e ← loadMrt mymrt
  let timer ← timerSetTimer pimPruneDelay (.setPrune ⟨e.source, e.group, e.upstream, vif, holdtime⟩)
  storeMrt mymrt (Mrt.setPruneDelayTimer vif timer)

/-- Stop the delayed prune of an interface if one is recorded. -/
def cancelPruneDelay (mymrt : Ptr) (vif : Vif) : Act Unit := do
  let e ← loadMrt mymrt
  onlyIf (e.pruneDelayTimerId vif ≠ 0) do
    timerClearTimer (e.pruneDelayTimerId vif)
    storeMrt mymrt (Mrt.setPruneDelayTimer vif 0)

/-! ## Join/Prune -/

/-- `sizeof(struct encode_source_address)`. -/
def sizeofSource : Int := 8

/-- The head of a group in a Join/Prune or Graft body, as it lies in memory. -/
structure GroupHeader where
  group : Addr
  joinField : BitVec 16
  pruneField : BitVec 16

/-- `struct pim_join_prune_group` at the cursor; it is 12 bytes long. -/
def readGroupHeader (data : Memory) (mydata : Int) : GroupHeader :=
  ⟨load32 data (mydata + 4), load16 data (mydata + 8), load16 data (mydata + 10)⟩

/-- One round of a loop over the sources of a group: read the source at the
cursor, skip it when it is no host address or has no entry, and otherwise do
what `action` does, which returns how far the cursor moves. -/
def eachSource (data : Memory) (group : Addr) (action : Addr → Ptr → Act Int) (mydata : Int) :
    Act Int :=
  let source := load32 data (mydata + 4)
  if inetValidHost source = false then pure (mydata + sizeofSource)
  else do
    let mymrt ← findSg source group
    if mymrt = 0 then pure (mydata + sizeofSource)
    else
      let moved ← action source mymrt
      pure (mydata + moved)

/-- An overheard Join cancels our own delayed Join. -/
def overheardJoin (all : Int) (_source : Addr) (mymrt : Ptr) : Act Int := do
  let e ← loadMrt mymrt
  onlyIf (e.joinDelayTimerId ≠ 0) do
    timerClearTimer e.joinDelayTimerId
    storeMrt mymrt fun e => { e with joinDelayTimerId := 0 }
  pure (all * sizeofSource)

/-- An overheard Prune of traffic we still want schedules a Join. -/
def overheardPrune (upstream : Addr) (all : Int) (_source : Addr) (mymrt : Ptr) : Act Int := do
  let e ← loadMrt mymrt
  if e.outnumber ≠ 0 then
    onlyIf (e.upstream ≠ e.source) (scheduleJoin mymrt upstream)
    pure sizeofSource
  else pure (all * sizeofSource)

/-- A Join addressed to us cancels the delayed prune of the interface. -/
def addressedJoin (vif : Vif) (all : Int) (_source : Addr) (mymrt : Ptr) : Act Int := do
  cancelPruneDelay mymrt vif
  pure (all * sizeofSource)

/-- A Prune addressed to us is echoed and scheduled. -/
def addressedPrune (host : Host) (vif : Vif) (data : Memory) (length holdtime : Int) (all : Int)
    (_source : Addr) (mymrt : Ptr) : Act Int := do
  let e ← loadMrt mymrt
  onlyIf (e.upstream ≠ e.source) do
    writeSendBuf fun buf => bcopy data buf 0 length.toNat
    pimdmOutput (host.iface vif).address allpimrouters pimJoinPrune (length - sizeofPim) 0
    schedulePrune mymrt vif holdtime
  pure (all * sizeofSource)

/-- One round of the loop over the groups, the same in both branches but for
what is done with a joined and with a pruned source. -/
def eachGroup (data : Memory) (joinAction pruneAction : Int → Addr → Ptr → Act Int) (mydata : Int) :
    Act Int :=
  let header := readGroupHeader data mydata
  let joinNumber := (ntohs header.joinField).toNat
  let pruneNumber := (ntohs header.pruneField).toNat
  let mydata := mydata + 12
  if inMulticast (ntohl header.group) = false then
    pure (mydata + (joinNumber + pruneNumber) * sizeofSource)
  else do
    let mydata ←
      times (eachSource data header.group (joinAction (joinNumber + pruneNumber))) joinNumber mydata
    times (eachSource data header.group (pruneAction (joinNumber + pruneNumber))) pruneNumber mydata

/-- The header of a Join/Prune or Graft body, after the unicast option. -/
structure JoinPruneHeader where
  upstream : Addr
  numGroups : Int
  holdtime : Int

/-- `struct pim_join_prune_header`; `num_groups` and `holdtime` are signed. -/
def readJoinPruneHeader (data : Memory) : JoinPruneHeader :=
  ⟨load32 data (sizeofPim + 2), (data (sizeofPim + 7)).toInt, (load16 data (sizeofPim + 8)).toInt⟩

/-- Where the groups of a Join/Prune or Graft body start. -/
def groupsStart : Int := sizeofPim + 2 + 8

/-- `receive_join_prune`. -/
def receiveJoinPrune (host : Host) (src : Addr) (data : Memory) (length : Int) : Act Unit :=
  let vif := findVifDirect host src
  if vif = 0 then pure ()
  else do
    let valid ← validPacket host src data length
    let header := readJoinPruneHeader data
    if valid = false ∨ header.numGroups = 0 then pure ()
    else if header.upstream ≠ (host.iface vif).address ∧ header.upstream ≠ 0 then do
      let neighbor ← findneighbor header.upstream vif
      onlyIf (neighbor ≠ 0) do
        let _ ← times (eachGroup data overheardJoin (overheardPrune header.upstream))
          header.numGroups.toNat groupsStart
    else do
      let _ ← times
        (eachGroup data (addressedJoin vif) (addressedPrune host vif data length header.holdtime))
        header.numGroups.toNat groupsStart

/-! ## Assert -/

/-- `assert_compare`: 1 if the first triple wins, 0 otherwise. -/
def assertCompare (localPreference localMetric : BitVec 32) (localAddress : Addr)
    (remotePreference remoteMetric : BitVec 32) (remoteAddress : Addr) : Int :=
  if remotePreference.toNat > localPreference.toNat then 1
  else if remotePreference.toNat < localPreference.toNat then 0
  else if remoteMetric.toNat > localMetric.toNat then 1
  else if remoteMetric.toNat < localMetric.toNat then 0
  else if (ntohl localAddress).toNat > (ntohl remoteAddress).toNat then 1
  else 0

/-- `active_forward`: the cell written is indexed with the pointer itself. -/
def activeForward (host : Host) : Act Unit := do
  forMrt fun _ => throw .outOfBounds
  checkPimState host .addLeaf

/-- What an Assert says, as it lies in memory. -/
structure AssertBody where
  group : Addr
  source : Addr
  preference : BitVec 32
  metric : BitVec 32
  deriving DecidableEq, Repr

def readAssert (data : Memory) : AssertBody :=
  ⟨load32 data (sizeofPim + 4), load32 data (sizeofPim + 10), load32 data (sizeofPim + 14),
    load32 data (sizeofPim + 18)⟩

/-- An Assert on the incoming interface of an entry. -/
def assertUpstream (mymrt : Ptr) (body : AssertBody) : Act Unit := do
  let e ← loadMrt mymrt
  if body.source = e.upstream then pure ()
  else
    onlyIf (assertCompare e.preference e.metric e.upstream body.preference body.metric
        body.source ≠ 1)
      (storeMrt mymrt fun e => { e with
        preference := body.preference, metric := body.metric, upstream := body.source })

/-- An Assert on another interface of an entry. -/
def assertDownstream (host : Host) (vif : Vif) (mymrt : Ptr) (body : AssertBody) : Act Unit := do
  let e ← loadMrt mymrt
  if e.outvif vif = 0 then pure ()
  else if assertCompare e.preference e.metric e.upstream body.preference body.metric
      body.source = 1 then
    pimAssertOutput host body.source body.group vif e.preference e.metric
  else do
    let timer ← timerSetTimer pimAssertTimer (.activeForward vif)
    storeMrt mymrt (Mrt.setPruneDelayTimer vif timer)

/-- `receive_assert`. -/
def receiveAssert (host : Host) (src : Addr) (data : Memory) (length : Int) : Act Unit :=
  let vif := findVifDirect host src
  if vif = 0 then pure ()
  else do
    let valid ← validPacket host src data length
    if valid = false then pure ()
    else
      let body := readAssert data
      let mymrt ← findSg body.source body.group
      if mymrt = 0 then pure ()
      else
        let e ← loadMrt mymrt
        if vif = e.incoming then assertUpstream mymrt body
        else assertDownstream host vif mymrt body

/-! ## Graft and Graft-Ack -/

/-- What a Graft does with an entry on the interface it came in on. -/
def graftEntry (host : Host) (vif : Vif) (mymrt : Ptr) : Act Unit := do
  cancelPruneDelay mymrt vif
  let e ← loadMrt mymrt
  onlyIf (e.outvif vif = 0) do
    storeMrt mymrt (Mrt.putOutvif vif 1)
    changeMfc host e.source e.group e.incoming

/-- One round of the inner loop of `receive_pim_graft`: the cursor stays on a
source that has an entry. -/
def graftSource (host : Host) (vif : Vif) (src : Addr) (data : Memory) (length : Int) (group : Addr)
    (mydata : Int) : Act Int :=
  let source := load32 data (mydata + 4)
  if inetValidHost source = false then pure (mydata + sizeofSource)
  else do
    writeSendBuf fun buf => bcopy data buf 0 length.toNat
    pimdmOutput (host.iface vif).address src pimGraftAck (length - sizeofPim) 0
    let mymrt ← findSg source group
    if mymrt = 0 then pure (mydata + sizeofSource)
    else
      graftEntry host vif mymrt
      pure mydata

/-- One round of the outer loop of `receive_pim_graft`. -/
def graftGroup (host : Host) (vif : Vif) (src : Addr) (data : Memory) (length : Int) (mydata : Int) :
    Act Int :=
  let header := readGroupHeader data mydata
  let joinNumber := (ntohs header.joinField).toNat
  let mydata := mydata + 12
  if inMulticast (ntohl header.group) = false then pure (mydata + joinNumber * sizeofSource)
  else do
    let mydata ← times (graftSource host vif src data length header.group) joinNumber mydata
    pure (mydata + sizeofSource)

/-- `receive_pim_graft`. -/
def receivePimGraft (host : Host) (src : Addr) (data : Memory) (length : Int) : Act Unit :=
  let vif := findVifDirect host src
  if vif = 0 then pure ()
  else do
    let valid ← validPacket host src data length
    let header := readJoinPruneHeader data
    if valid = false ∨ header.numGroups = 0 then pure ()
    else
      let _ ← times (graftGroup host vif src data length) header.numGroups.toNat groupsStart

/-- What a Graft-Ack does with an entry. -/
def ackEntry (mymrt : Ptr) : Act Unit := do
  let e ← loadMrt mymrt
  onlyIf (e.graftTimerId ≠ 0) do
    timerClearTimer e.graftTimerId
    storeMrt mymrt fun e => { e with graftTimerId := 0 }

/-- One round of the inner loop of `receive_pim_graft_ack`: the cursor stays on
a source that has an entry. -/
def graftAckSource (data : Memory) (group : Addr) (mydata : Int) : Act Int :=
  eachSource data group (fun _ mymrt => do
    ackEntry mymrt
    pure 0) mydata

/-- One round of the outer loop of `receive_pim_graft_ack`: the count is read
without a byte swap, as a signed number. -/
def graftAckGroup (data : Memory) (mydata : Int) : Act Int :=
  let header := readGroupHeader data mydata
  let joinNumber := header.joinField.toInt
  let mydata := mydata + 12
  if inMulticast (ntohl header.group) = false then
    pure (mydata + joinNumber * sizeofSource)
  else times (graftAckSource data header.group) joinNumber.toNat mydata

/-- `receive_pim_graft_ack`. -/
def receivePimGraftAck (host : Host) (src : Addr) (data : Memory) (length : Int) : Act Unit :=
  let vif := findVifDirect host src
  if vif = 0 then pure ()
  else do
    let valid ← validPacket host src data length
    let header := readJoinPruneHeader data
    if valid = false ∨ header.numGroups = 0 then pure ()
    else
      let _ ← times (graftAckGroup data) header.numGroups.toNat groupsStart

end PimDm.Source
