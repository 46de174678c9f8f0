import PimDm.Source.PimOutput

/-!
# `mrt.c`, with the functions of `kern.c` and `pim.c` it calls

The routing table is the list that starts at `themrt`.  `setsockopt` is taken to
succeed, so the kernel's forwarding cache is a map that `change_mfc` and
`delete_mfc` update.
-/

namespace PimDm.Source

open PimDm.Foundation

/-- The `judge` argument of `check_pim_state` and the mode of `refresh_mrt`. -/
inductive Judge where
  | addLeaf
  | delLeaf
  | addNeighbor
  | delNeighbor
  deriving DecidableEq, Repr

/-- The value of the macro, which `refresh_mrt` also uses as an index. -/
def Judge.code : Judge → Nat
  | .addLeaf => 0
  | .delLeaf => 1
  | .addNeighbor => 2
  | .delNeighbor => 3

/-- The entry is for this source and group. -/
def Mrt.isFor (source group : Addr) (e : Mrt) : Bool := e.source == source && e.group == group

/-- `find_sg`. -/
def findSg (source group : Addr) : Act Ptr := findMrt (Mrt.isFor source group)

/-- `find_sg_group`. -/
def findSgGroup (group : Addr) : Act Ptr := findMrt fun e => e.group == group

/-- `print_sg` follows the whole list and changes nothing. -/
def printSg : Act Unit := forMrt fun _ => pure ()

/-! ## `kern.c` -/

/-- What `change_mfc` tells the kernel: cells outside `1..maxvif` are not set. -/
def mfcOf (host : Host) (e : Route) (incoming : Vif) : Mfc where
  parent := incoming
  ttls vif :=
    if 1 ≤ vif ∧ vif ≤ host.maxvif then (if e.outvif vif = 1 then 1 else 0)
    else host.stackTtls vif

def Daemon.setMfc (state : Daemon) (source group : Addr) (entry : Option Mfc) : Daemon :=
  { state with
    mfc := Function.update state.mfc source (Function.update (state.mfc source) group entry) }

/-- `delete_mfc`. -/
def deleteMfc (source group : Addr) : Act Unit :=
  modify fun state => state.setMfc source group none

/-- `change_mfc`. -/
def changeMfc (host : Host) (source group : Addr) (incoming : Vif) : Act Unit := do
  let mymrt ← findSg source group
  if mymrt = 0 then pure ()
  else
    let e ← loadMrt mymrt
    modify fun state => state.setMfc source group (some (mfcOf host e.toRoute incoming))

/-! ## Upstream signalling -/

/-- `plan_graft`. -/
def planGraft (host : Host) (mymrt : Ptr) : Act Unit := do
  let e ← loadMrt mymrt
  let thismrt ← findSg e.source e.group
  if e.upstream = e.source then pure ()
  else if thismrt ≠ 0 then
    pimGraftOutput host mymrt
    let timer ← timerSetTimer pimGraftTimer (.planGraft mymrt)
    storeMrt mymrt fun e => { e with graftTimerId := timer }
  else pure ()

/-- The call `pim_join_prune_output(mymrt, PIM_PRUNE, mymrt->incoming, PIM_PRUNE_HOLD_TIME)`
of `mrt.c`: no prototype is in scope, the definition takes three arguments, and
the third one is the hold time. -/
def sendPrune (host : Host) (mymrt : Ptr) : Act Unit := do
  let e ← loadMrt mymrt
  pimJoinPruneOutput host mymrt .prune e.incoming

/-- The body of the loop of `check_pim_state`. -/
def checkEntry (host : Host) (judge : Judge) (mymrt : Ptr) : Act Unit := do
  let e ← loadMrt mymrt
  onlyIf (e.outnumber = 0 ∧ (judge = .delLeaf ∨ judge = .delNeighbor))
    (onlyIf (e.upstream ≠ e.source) (sendPrune host mymrt))
  onlyIf (e.outnumber = 1 ∧ (judge = .addLeaf ∨ judge = .addNeighbor))
    (onlyIf (e.upstream ≠ e.source) (planGraft host mymrt))

/-- `check_pim_state`. -/
def checkPimState (host : Host) (judge : Judge) : Act Unit := forMrt (checkEntry host judge)

/-! ## Deletion and creation -/

/-- The unlinking in `delete_sg`: `first` is the head of the table, `mymrt` the
entry to remove, and `temp` the one before it, unset if there is none. -/
def unlinkSg (source group : Addr) (first mymrt : Mrt) (temp : Option Ptr) : Act Unit :=
  if first.isFor source group then
    modify fun state => { state with themrt := first.next }
  else
    match temp with
    | none => throw .uninitialised
    | some temp => storeMrt temp fun before => { before with next := mymrt.next }

/-- `delete_sg`: 1 if an entry was removed, 0 otherwise. -/
def deleteSg (source group : Addr) : Act Int := do
  let found ← findMrtTrailing (Mrt.isFor source group)
  if found.2 = 0 then
    printSg
    pure 0
  else
    let mymrt ← loadMrt found.2
    let state ← get
    let first ← loadMrt state.themrt
    deleteMfc source group
    timerClearTimer mymrt.checkTimerid
    unlinkSg source group first mymrt found.1
    observe (.deleteSg source group)
    printSg
    pure 1

/-- `handle_sg_timeout`. -/
def handleSgTimeout (source group : Addr) : Act Unit := do
  let _ ← deleteSg source group

/-- The branch of `check_sg` for fresh traffic. -/
def restartTimeout (source group : Addr) (mymrt : Ptr) (nowdata : Int) : Act Unit := do
  modify fun state => { state with packetNumber := nowdata }
  let e ← loadMrt mymrt
  timerClearTimer e.timeoutId
  let timer ← timerSetTimer pimSgTimeout (.handleSgTimeout source group)
  storeMrt mymrt fun e => { e with timeoutId := timer }

/-- `check_sg`; `nowdata` is the packet count `k_get_sg_cnt` returns. -/
def checkSg (source group : Addr) (nowdata : Int) : Act Unit := do
  let mymrt ← findSg source group
  let state ← get
  onlyIf (nowdata > state.packetNumber) (restartTimeout source group mymrt nowdata)
  let e ← loadMrt mymrt
  timerClearTimer e.checkTimerid
  let timer ← timerSetTimer pimSgCheck (.checkSg source group)
  storeMrt mymrt fun e => { e with checkTimerid := timer }

/-- `mymrt->outvif[vif] = value`. -/
def Mrt.putOutvif (vif : Vif) (value : Int) (e : Mrt) : Mrt :=
  { e with outvif := Function.update e.outvif vif value }

/-- The end of a round of the loop of `add_sg` for an interface without
neighbours: the cell is tested even when nothing has been stored in it. -/
def addSgMember (i : Vif) (member : Bool) (newmrt : Mrt) (number : Int) : Mrt × Int :=
  let so := if member then (newmrt.putOutvif i 1, number + 1) else (newmrt, number)
  if so.1.outvif i ≠ 1 then (so.1.putOutvif i 0, so.2) else so

/-- One round of the loop of `add_sg` over the interfaces: the new record and
the number of outgoing interfaces so far. -/
def addSgVif (group : Addr) (incoming : Vif) (so : Mrt × Int) (i : Vif) : Act (Mrt × Int) :=
  let newmrt := { so.1 with
    pruneTimerId := Function.update so.1.pruneTimerId i 0
    pruneDelayTimerId := Function.update so.1.pruneDelayTimerId i 0 }
  if i ≠ incoming then do
    let state ← get
    if (state.myvifs i).neighbor ≠ 0 then
      pure (newmrt.putOutvif i 1, so.2 + 1)
    else
      let member ← findGroup i group
      pure (addSgMember i (member != 0) newmrt so.2)
  else
    pure (newmrt.putOutvif i 0, so.2)

/-- The Graft or Prune `add_sg` ends with. -/
def announceSg (host : Host) (source : Addr) (newmrt : Ptr) : Act Unit := do
  let e ← loadMrt newmrt
  if e.outnumber ≠ 0 then onlyIf (e.upstream ≠ source) (planGraft host newmrt)
  else onlyIf (e.upstream ≠ source) (sendPrune host newmrt)

/-- Link a new record in front of the table; only the branch for a table that
is not empty sets its `next` field. -/
def Daemon.linkMrt (state : Daemon) (newmrt : Mrt) : Daemon :=
  { state with
    mrts := state.mrts.alloc
      (if state.themrt = 0 then newmrt else { newmrt with next := state.themrt })
    themrt := state.mrts.fresh }

/-- `add_sg`.  The record is written in full before anything can read it, so it
is kept in a local variable until it is linked in. -/
def addSg (host : Host) (gateway source group : Addr) (incoming : Vif) : Act Unit := do
  let state ← get
  let address := state.mrts.fresh
  let newmrt := { host.mallocMrt address with
    source := source
    group := group
    incoming := incoming
    upstream := getUpstream host gateway source
    preference := 0
    metric := 0
    joinDelayTimerId := 0 }
  let built ← foldProgram (addSgVif group incoming) host.vifs (newmrt, 0)
  let timeout ← timerSetTimer pimSgTimeout (.handleSgTimeout source group)
  let check ← timerSetTimer pimSgCheck (.checkSg source group)
  modify fun state => state.linkMrt { built.1 with
    outnumber := built.2
    graftTimerId := 0
    timeoutId := timeout
    checkTimerid := check }
  observe (.addSg source group)
  announceSg host source address
  printSg

/-! ## Changes of the outgoing interfaces -/

/-- `mymrt->outvif[vif] = value; mymrt->outnumber += change`. -/
def Mrt.setOutvif (vif : Vif) (value change : Int) (e : Mrt) : Mrt :=
  { e with outvif := Function.update e.outvif vif value, outnumber := e.outnumber + change }

/-- `add_leaf`. -/
def addLeaf (host : Host) (vif : Vif) (group : Addr) : Act Unit := do
  let mymrt ← findSgGroup group
  if mymrt = 0 then pure ()
  else
    let e ← loadMrt mymrt
    onlyIf (e.outvif vif ≠ 1) (storeMrt mymrt (Mrt.setOutvif vif 1 1))
    changeMfc host e.source group e.incoming
    checkPimState host .addLeaf
    printSg

/-- `del_leaf`. -/
def delLeaf (host : Host) (vif : Vif) (group : Addr) : Act Unit := do
  observe (.delLeaf vif group)
  let mymrt ← findSgGroup group
  if mymrt = 0 then pure ()
  else
    storeMrt mymrt (Mrt.setOutvif vif 0 (-1))
    let e ← loadMrt mymrt
    changeMfc host e.source group e.incoming
    checkPimState host .delLeaf
    printSg

/-- The body of the loop of `refresh_mrt`. The searches of the second mode go
through `myvifs[i]`, with the mode itself as the index. -/
def refreshEntry (host : Host) (vif : Vif) (i : Judge) (mymrt : Ptr) : Act Unit := do
  let e ← loadMrt mymrt
  if i = .addNeighbor then
    if e.outvif vif = 0 then
      storeMrt mymrt (Mrt.setOutvif vif 1 1)
      changeMfc host e.source e.group e.incoming
      checkPimState host .addNeighbor
    else pure ()
  else if i = .delNeighbor then
    let member ← findGroup i.code e.group
    let state ← get
    if member = 0 ∧ (state.myvifs i.code).neighbor = 0 then
      storeMrt mymrt (Mrt.setOutvif vif 0 (-1))
      changeMfc host e.source e.group e.incoming
      checkPimState host .delNeighbor
    else pure ()
  else pure ()

/-- `refresh_mrt`. -/
def refreshMrt (host : Host) (vif : Vif) (i : Judge) : Act Unit := do
  forMrt (refreshEntry host vif i)
  printSg

end PimDm.Source
