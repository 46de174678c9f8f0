import PimDm.Source.Pim
import PimDm.Source.Igmp
import PimDm.Foundation.Transition

/-!
# The daemon as a state machine

`multicastpacket.c` and the dispatch of `main.c`: one event is one message or
kernel upcall, one ageing of the timer queue, or one callback of the timers that
ageing has detached.  What the environment answers during an event, the gateways
of the routing socket and the packet counter of the kernel, is part of the event.
-/

namespace PimDm.Source

open PimDm.Foundation

/-- `struct multicast_error_data`. -/
structure MulticastErrorData where
  message : Nat
  vif : Vif
  source : Addr
  destination : Addr
  deriving DecidableEq, Repr

/-- `check_incoming`. -/
def checkIncoming (host : Host) (gateway : Addr) (vif : Vif) (address : Addr) : Act Bool := do
  let rightvif ← getIncomingVif host gateway address
  pure (rightvif == vif)

/-- The first packet of a source: message 1 of the kernel. -/
def newMulticastPacket (host : Host) (mydata : MulticastErrorData) (checked routed : Addr) :
    Act Unit := do
  let right ← checkIncoming host checked mydata.vif mydata.source
  onlyIf (right = true) do
    addSg host routed mydata.source mydata.destination mydata.vif
    changeMfc host mydata.source mydata.destination mydata.vif

/-- A packet on an interface other than the incoming one: message 2 of the kernel. -/
def wrongMulticastPacket (host : Host) (mydata : MulticastErrorData) : Act Unit := do
  let mymrt ← findSg mydata.source mydata.destination
  if mymrt = 0 then pure ()
  else
    printSg
    let e ← loadMrt mymrt
    onlyIf (e.outnumber ≠ 0)
      (pimAssertOutput host mydata.source mydata.destination mydata.vif e.preference e.metric)

/-- `multicast_packet_error`; the routing socket is asked once by
`check_incoming` and once by `add_sg`. -/
def multicastPacketError (host : Host) (mydata : MulticastErrorData) (checked routed : Addr) :
    Act Unit := do
  onlyIf (mydata.message = 1) (newMulticastPacket host mydata checked routed)
  onlyIf (mydata.message = 2) (wrongMulticastPacket host mydata)

/-- `timer` of `main.c`. -/
def timer : Act Unit := do
  modify fun state => { state with virtualTime := state.virtualTime + 5 }
  let _ ← timerSetTimer 5 .timer

/-- Call the function of a timer; `pktcnt` is the kernel's packet counter. -/
def callFunc (host : Host) (pktcnt : Int) : Callback → Act Unit
  | .timer => timer
  | .pimHelloOutput data => pimHelloOutput host data
  | .deletePimNeighbor entry => deletePimNeighbor host entry
  | .sendJoin data => sendJoin host data
  | .pruneTimeOut data => pruneTimeOut host data
  | .setPrune data => setPrune host data
  | .activeForward _ => activeForward host
  | .planGraft entry => planGraft host entry
  | .handleSgTimeout source group => handleSgTimeout source group
  | .checkSg source group => checkSg source group pktcnt
  | .sendQuery vif => sendQuery host vif
  | .retryQuery vif => retryQuery host vif
  | .leaveQuery vif group => leaveQuery host vif group

/-! ## Ageing -/

def Daemon.age (state : Daemon) (elapsedTime : Int) : Daemon :=
  let detached := detachExpired elapsedTime state.queue
  { state with expired := detached.1, queue := detached.2 }

def Daemon.popExpired (state : Daemon) : Daemon := { state with expired := state.expired.tail }

/-- One round of the second loop of `age_callout_queue`. -/
def callNext (host : Host) (pktcnt : Int) : Act Unit := do
  let state ← get
  match state.expired with
  | [] => pure ()
  | ptr :: _ =>
      modify Daemon.popExpired
      callFunc host pktcnt ptr.func

/-- `age_callout_queue`, with the packet counter at each round. -/
def ageCalloutQueue (host : Host) (elapsedTime : Int) (pktcnts : Nat → Int) : Act Unit := do
  modify fun state => state.age elapsedTime
  let state ← get
  foldProgram (fun _ round => callNext host (pktcnts round)) (List.range state.expired.length) ()

/-- `callNext` where the functions of the timers are not those of the daemon. -/
def callNextWith (call : Callback → Act Unit) : Act Unit := do
  let state ← get
  match state.expired with
  | [] => pure ()
  | ptr :: _ =>
      modify Daemon.popExpired
      call ptr.func

/-- `age_callout_queue` whatever the functions of the timers do in each round. -/
def ageCalling (call : Nat → Callback → Act Unit) (elapsedTime : Int) : Act Unit := do
  modify fun state => state.age elapsedTime
  let state ← get
  foldProgram (fun _ round => callNextWith (call round)) (List.range state.expired.length) ()

theorem ageCalling_callFunc (host : Host) (elapsedTime : Int) (pktcnts : Nat → Int) :
    ageCalling (fun round => callFunc host (pktcnts round)) elapsedTime =
      ageCalloutQueue host elapsedTime pktcnts := rfl

/-! ## Start -/

/-- One round of the loop of `active_vifs`. -/
def activeVif (host : Host) (vif : Vif) : Act Unit := do
  sendQuery host vif
  pimHelloOutput host ⟨vif, pimHelloHoldtime, 1⟩

/-- `active_vifs`. -/
def activeVifs (host : Host) : Act Unit :=
  foldProgram (fun _ vif => onlyIf ((host.iface vif).isActive = true) (activeVif host vif))
    host.vifs ()

/-- What `main` does before its loop, from `active_vifs` on. -/
def boot (host : Host) : Act Unit := do
  activeVifs host
  let _ ← timerSetTimer 5 .timer

/-- The state when `active_vifs` is called: nothing is known yet, and
`pim_send_buf` is as `malloc` returned it. -/
def Daemon.blank (pimSendBuf : Memory) : Daemon where
  themrt := 0
  packetNumber := 0
  myvifs _ := ⟨0, 0, 0, 0, 0⟩
  mrts := .empty
  groups := .empty
  neighbors := .empty
  id := 0
  queue := []
  expired := []
  virtualTime := 0
  pimSendBuf := pimSendBuf
  mfc _ _ := none
  trace := []

/-! ## Events -/

/-- The messages of `pim_input`, by the function that receives them. -/
inductive PimMessage where
  | hello
  | joinPrune
  | assert
  | graft
  | graftAck
  deriving DecidableEq, Repr

inductive Event where
  | multicastPacketError (mydata : MulticastErrorData) (checked routed : Addr)
  | acceptMembershipQuery (src group : Addr)
  | acceptGroupReport (src group : Addr)
  | acceptLeaveMessage (src group : Addr)
  | pimInput (type : PimMessage) (src : Addr) (data : Memory) (length : Int)
  | age (elapsedTime : Nat)
  | expire (pktcnt : Int)

/-- The receiver of a PIM message. -/
def receivePim (host : Host) : PimMessage → Addr → Memory → Int → Act Unit
  | .hello => receiveHello host
  | .joinPrune => receiveJoinPrune host
  | .assert => receiveAssert host
  | .graft => receivePimGraft host
  | .graftAck => receivePimGraftAck host

def handle (host : Host) : Event → Act Unit
  | .multicastPacketError mydata checked routed => multicastPacketError host mydata checked routed
  | .acceptMembershipQuery src group => acceptMembershipQuery host src group
  | .acceptGroupReport src group => acceptGroupReport host src group
  | .acceptLeaveMessage src group => acceptLeaveMessage host src group
  | .pimInput type src data length => receivePim host type src data length
  | .age elapsedTime => modify fun state => state.age elapsedTime
  | .expire pktcnt => callNext host pktcnt

def Event.isExpire : Event → Bool
  | .expire _ => true
  | _ => false

/-- Detached timers are called before anything else happens. -/
def Event.Enabled (state : Daemon) (event : Event) : Prop :=
  event.isExpire = !state.expired.isEmpty

instance (state : Daemon) (event : Event) : Decidable (event.Enabled state) :=
  inferInstanceAs (Decidable (_ = _))

/-- One event that is handled without a fault. -/
def Step (host : Host) (before : Daemon) (event : Event) (after : Daemon) : Prop :=
  event.Enabled before ∧ Runs (handle host event) before () after

/-- The state in which the main loop starts. -/
def Start (host : Host) (state : Daemon) : Prop :=
  ∃ pimSendBuf, Runs (boot host) (Daemon.blank pimSendBuf) () state

/-- The states of the daemon after any run whose events are all allowed. -/
def Reachable (host : Host) (allowed : Daemon → Event → Prop) (state : Daemon) : Prop :=
  ∃ start, Start host start ∧ Reaches (Step host) allowed start state

end PimDm.Source
