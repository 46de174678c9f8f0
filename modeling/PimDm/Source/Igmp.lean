import PimDm.Source.Mrt

/-!
# `igmp.c`

The IGMP side of an interface: the querier role with its two timers, and the
list of groups with members.
-/

namespace PimDm.Source

open PimDm.Foundation

def igmpMembershipQuery : Nat := 0x11
def igmpQueryTime : Int := 10
def igmpResponseTime : Int := 100
def igmpQuerierTimeout : Int := 310

/-- `igmp_output`. -/
def igmpOutput (src dst : Addr) (type code : Nat) (group : Addr) : Act Unit :=
  observe (.igmp src dst type code group)

/-- The body that `send_query` and `retry_query` share. -/
def startQuerying (host : Host) (vif : Vif) : Act Unit := do
  let timer ← timerSetTimer igmpQueryTime (.sendQuery vif)
  storeMyvif vif fun myv =>
    { myv with igmpQuerytimerId := timer, querier := 0, querierRetryId := 0 }
  igmpOutput (host.iface vif).address allhosts igmpMembershipQuery 100 0

/-- `retry_query`. -/
def retryQuery (host : Host) (vif : Vif) : Act Unit := startQuerying host vif

/-- `send_query`. -/
def sendQuery (host : Host) (vif : Vif) : Act Unit := startQuerying host vif

/-- `myv->querier_retry_id = timer_setTimer(IGMP_Querier_Timeout, retry_query, retrydata)`. -/
def startRetry (vif : Vif) : Act Unit := do
  let timer ← timerSetTimer igmpQuerierTimeout (.retryQuery vif)
  storeMyvif vif fun myv => { myv with querierRetryId := timer }

/-- A query restarts the timeout of a querier that is not this router. -/
def refreshRetry (vif : Vif) : Act Unit := do
  let state ← get
  timerClearTimer (state.myvifs vif).querierRetryId
  startRetry vif

/-- The election in `accept_membership_query`. -/
def electQuerier (host : Host) (src : Addr) (vif : Vif) : Act Unit := do
  let state ← get
  let myv := state.myvifs vif
  if myv.querier = 0 ∨ myv.querier ≠ src then
    if myv.querier = 0 then
      onlyIf ((ntohl src).toNat < (ntohl (host.iface vif).address).toNat) do
        storeMyvif vif fun myv => { myv with querier := src }
        timerClearTimer myv.igmpQuerytimerId
        storeMyvif vif fun myv => { myv with igmpQuerytimerId := 0 }
        startRetry vif
    else
      onlyIf ((ntohl src).toNat < (ntohl myv.querier).toNat) do
        storeMyvif vif fun myv => { myv with querier := src }
        timerClearTimer myv.querierRetryId
        startRetry vif
  else pure ()

/-- A group-specific query heard while not the querier: every record of the
group gets a removal timer. -/
def expectReport (vif : Vif) (group : Addr) (g : Ptr) : Act Unit := do
  let record ← loadGroup g
  onlyIf (record.address = group) do
    let timer ← timerSetTimer (igmpQueryTime * 2 + 10) (.leaveQuery vif group)
    storeGroup g fun record => { record with leaveQuery := timer, timeout := -1 }

/-- `accept_membership_query`. -/
def acceptMembershipQuery (host : Host) (src group : Addr) : Act Unit :=
  if isLocalAddress host src ≠ 0 then pure ()
  else
    let vif := findVifDirect host src
    if vif = 0 then pure ()
    else do
      let state ← get
      onlyIf ((state.myvifs vif).querier ≠ 0) (refreshRetry vif)
      electQuerier host src vif
      let state ← get
      onlyIf ((state.myvifs vif).querier ≠ 0 ∧ group ≠ 0) (forGroups vif (expectReport vif group))

/-- A report of a group that is in its leave phase ends the phase. -/
def cancelLeave (g : Ptr) : Act Unit := do
  let record ← loadGroup g
  onlyIf (record.leaveQuery ≠ 0) do
    timerClearTimer record.leaveQuery
    storeGroup g fun record => { record with leaveQuery := 0, timeout := 2 }

/-- Put a new record in front of the groups of an interface: `g->next == NULL`
in the branch for an empty list compares and stores nothing. -/
def Daemon.linkGroup (state : Daemon) (vif : Vif) (g : IgmpGroup) : Daemon :=
  { state with
    groups := state.groups.alloc
      (if (state.myvifs vif).groups ≠ 0 then { g with next := (state.myvifs vif).groups } else g)
    myvifs := Function.update state.myvifs vif
      { state.myvifs vif with groups := state.groups.fresh } }

/-- `accept_group_report`. -/
def acceptGroupReport (host : Host) (src group : Addr) : Act Unit :=
  let vif := findVifDirect host src
  if vif = 0 then pure ()
  else do
    let g ← findGroup vif group
    if g ≠ 0 then cancelLeave g
    else do
      modify fun state => state.linkGroup vif { host.mallocGroup state.groups.fresh with
        address := group, leaveQuery := 0, timeout := 2 }
      addLeaf host vif group

/-- The unlinking in `leave_query`; a record that is not the head is freed. -/
def unlinkGroup (host : Host) (vif : Vif) (temp : Option Ptr) (g : Ptr) (record : IgmpGroup) :
    Act Unit := do
  let state ← get
  if g ≠ (state.myvifs vif).groups then
    match temp with
    | none => throw .uninitialised
    | some temp =>
        storeGroup temp fun before => { before with next := record.next }
        storeGroup g fun _ => host.freedGroup g
  else storeMyvif vif fun myv => { myv with groups := record.next }

/-- The removal of a record in `leave_query`: its address is read after it may
have been freed. -/
def removeGroup (host : Host) (vif : Vif) (temp : Option Ptr) (g : Ptr) : Act Unit := do
  let record ← loadGroup g
  unlinkGroup host vif temp g record
  let freed ← loadGroup g
  delLeaf host vif freed.address

/-- `leave_query`. -/
def leaveQuery (host : Host) (vif : Vif) (group : Addr) : Act Unit := do
  let found ← findGroupTrailing vif group
  if found.2 = 0 then pure ()
  else
    let g ← loadGroup found.2
    if g.timeout = 1 then
      igmpOutput (host.iface vif).address g.address igmpMembershipQuery 100 g.address
      let timer ← timerSetTimer igmpQueryTime (.leaveQuery vif group)
      storeGroup found.2 fun g => { g with leaveQuery := timer, timeout := 0 }
    else if g.timeout = 0 then
      let timer ← timerSetTimer (igmpResponseTime / 10) (.leaveQuery vif group)
      storeGroup found.2 fun g => { g with leaveQuery := timer, timeout := -1 }
    else removeGroup host vif found.1 found.2

/-- `accept_leave_message`. -/
def acceptLeaveMessage (host : Host) (src group : Addr) : Act Unit :=
  let vif := findVifDirectLocal host src
  if vif = 0 then pure ()
  else do
    let state ← get
    if (state.myvifs vif).querier ≠ 0 then pure ()
    else
      let found ← findGroup vif group
      if found = 0 then pure ()
      else
        let g ← loadGroup found
        onlyIf (g.leaveQuery ≠ 0) (timerClearTimer g.leaveQuery)
        igmpOutput (host.iface vif).address g.address igmpMembershipQuery igmpResponseTime.toNat
          g.address
        let timer ← timerSetTimer igmpQueryTime (.leaveQuery vif group)
        storeGroup found fun g => { g with leaveQuery := timer, timeout := 1 }

end PimDm.Source
