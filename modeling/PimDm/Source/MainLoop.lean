import PimDm.Source.Input

/-!
# The loop of `main.c`

One turn is one call of `select`, one pass of the inner loop, the handlers of the sockets that
are ready, or a signal.  The clock belongs to the environment; `gettimeofday` reads it.  The
seconds that `age_callout_queue` is called with are noted.
-/

namespace PimDm.Source

open PimDm.Foundation

/-- `struct timeval`. -/
structure Timeval where
  sec : Int
  usec : Int
  deriving DecidableEq, Repr

/-- What `gettimeofday` stores at a time in microseconds. -/
def gettimeofday (clock : Int) : Timeval := ⟨clock / 1000000, clock % 1000000⟩

/-- `while (difftime.tv_usec > 1000000)`. -/
def carry (difftime : Timeval) : Timeval :=
  if difftime.usec > 1000000 then carry ⟨difftime.sec + 1, difftime.usec - 1000000⟩
  else difftime
termination_by difftime.usec.toNat
decreasing_by omega

/-- `if (difftime.tv_usec < 0)`. -/
def borrow (difftime : Timeval) : Timeval :=
  if difftime.usec < 0 then ⟨difftime.sec - 1, difftime.usec + 1000000⟩
  else difftime

/-- Where the loop stands. -/
inductive Control where
  | top
  | pass
  | handlers
  | exited
  deriving DecidableEq, Repr

/-- The variables of `main` and of the signal handler, the state of the daemon, the clock, and the
seconds that `age_callout_queue` has been called with. -/
structure MainLoop where
  daemon : Daemon
  mysignal : Int
  secs : Int
  n : Int
  curtime : Timeval
  difftime : Timeval
  lasttime : Timeval
  control : Control
  clock : Int
  aged : List Int

abbrev MainAct := Program MainLoop Fault

/-- Run a program of the daemon. -/
def onDaemon {α : Type} (program : Act α) : MainAct α := fun loop =>
  match program loop.daemon with
  | .ok (value, daemon) => .ok (value, { loop with daemon := daemon })
  | .error fault => .error fault

/-! ## Turns -/

/-- The top of the loop, with the result of `select` and the time when it returns. -/
def selectTurn (n clock : Int) : MainAct Unit := do
  let secs ← onDaemon timerNextTimer
  modify fun loop =>
    { loop with
      secs := secs
      n := n
      clock := clock
      control := if n < 0 then .top else .pass }

/-- The current time: after a timeout it is computed, else it is read. -/
def MainLoop.readTime (loop : MainLoop) : MainLoop :=
  if loop.n = 0 then
    { loop with
      curtime := ⟨loop.lasttime.sec + loop.secs, loop.lasttime.usec⟩
      n := -1 }
  else { loop with curtime := gettimeofday loop.clock }

/-- The time since the last pass; the microseconds are added to what was left of them. -/
def MainLoop.account (loop : MainLoop) : MainLoop :=
  { loop with
    difftime := borrow (carry ⟨loop.curtime.sec - loop.lasttime.sec,
      loop.difftime.usec + (loop.curtime.usec - loop.lasttime.usec)⟩)
    lasttime := loop.curtime }

/-- The environment's clock goes on. -/
def MainLoop.tick (loop : MainLoop) (clock : Int) : MainLoop := { loop with clock := clock }

/-- A pass up to the test for ageing, which reads the clock at this time. -/
def MainLoop.measure (loop : MainLoop) (clock : Int) : MainLoop := (loop.tick clock).readTime.account

/-- `age_callout_queue(difftime.tv_sec)`. -/
def ageDaemon (host : Host) (elapsedTime : Int) (pktcnts : Nat → Int) : MainAct Unit := do
  modify fun loop => { loop with aged := loop.aged ++ [elapsedTime] }
  onDaemon (ageCalloutQueue host elapsedTime pktcnts)

/-- The end of a pass: another one, the handlers, or `select` again. -/
def MainLoop.endPass (loop : MainLoop) : MainLoop :=
  { loop with
    secs := -1
    control := if loop.difftime.sec > 0 then .pass else if loop.n > 0 then .handlers else .top }

/-- A pass of the inner loop. -/
def passTurn (host : Host) (clock : Int) (pktcnts : Nat → Int) : MainAct Unit := do
  modify fun loop => loop.measure clock
  let loop ← get
  onlyIf (loop.secs = 0 ∨ loop.difftime.sec > 0) (ageDaemon host loop.difftime.sec pktcnts)
  modify MainLoop.endPass

/-- A packet as `recvfrom` leaves it in a receive buffer, and what the routing socket answers. -/
structure Received where
  buf : Memory
  length : Int
  checked : Addr
  routed : Addr

/-- `igmp_input`, if the socket is ready. -/
def readIgmp (model : DataModel) (host : Host) : Option Received → MainAct Unit
  | none => pure ()
  | some packet => onDaemon (igmpInput model host packet.buf packet.length packet.checked packet.routed)

/-- `pim_input`, if the socket is ready. -/
def readPim (model : DataModel) (host : Host) : Option Received → MainAct Unit
  | none => pure ()
  | some packet => onDaemon (pimInput model host packet.buf packet.length)

/-- The handlers in the order they were registered. -/
def handlersTurn (model : DataModel) (host : Host) (igmp pim : Option Received) : MainAct Unit := do
  readIgmp model host igmp
  readPim model host pim
  modify fun loop => { loop with control := .top }

inductive Turn where
  | signal
  | select (n clock : Int)
  | pass (clock : Int) (pktcnts : Nat → Int)
  | handlers (igmp pim : Option Received)
  | exit

def takeTurn (model : DataModel) (host : Host) : Turn → MainAct Unit
  | .signal => modify fun loop => { loop with mysignal := 1 }
  | .select n clock => selectTurn n clock
  | .pass clock pktcnts => passTurn host clock pktcnts
  | .handlers igmp pim => handlersTurn model host igmp pim
  | .exit => modify fun loop => { loop with control := .exited }

/-- What the loop does next; `select` times out only where it has been given a timeout. -/
def Turn.Enabled (loop : MainLoop) : Turn → Prop
  | .signal => True
  | .select n _ => loop.control = .top ∧ loop.mysignal ≠ 1 ∧ (n = 0 → loop.daemon.nextTimer ≠ -1)
  | .pass _ _ => loop.control = .pass
  | .handlers _ _ => loop.control = .handlers
  | .exit => loop.control = .top ∧ loop.mysignal = 1

/-- One turn that ends without a fault. -/
def MainStep (model : DataModel) (host : Host) (before : MainLoop) (turn : Turn) (after : MainLoop) : Prop :=
  turn.Enabled before ∧ Runs (takeTurn model host turn) before () after

/-- The state in which `main` enters the loop: `difftime` and `lasttime` are set, and `secs`, `n`
and the seconds of `difftime` are whatever was on the stack. -/
structure StartsLoop (host : Host) (loop : MainLoop) : Prop where
  daemon : Start host loop.daemon
  residue : loop.difftime.usec = 0
  curtime : loop.curtime = gettimeofday loop.clock
  lasttime : loop.lasttime = loop.curtime
  control : loop.control = .top
  aged : loop.aged = []

end PimDm.Source
