import PimDm.Source.State

/-!
# `callout.c`

The timer queue stores each time as the difference to the timer before it.
`age_callout_queue` first detaches the timers that have run out and then calls
them one by one; `timer_clearTimer` searches only the live queue.
-/

namespace PimDm.Source

open PimDm.Foundation

/-- The insertion loop of `timer_setTimer`. -/
def insertTimer (node : TimeoutQ) : List TimeoutQ → List TimeoutQ
  | [] => [node]
  | ptr :: rest =>
      if node.time < ptr.time then
        node :: { ptr with time := ptr.time - node.time } :: rest
      else
        ptr :: insertTimer { node with time := node.time - ptr.time } rest

/-- The search and unlinking of `timer_clearTimer`. -/
def removeTimer (timerId : Int) : List TimeoutQ → List TimeoutQ
  | [] => []
  | ptr :: rest =>
      if ptr.id = timerId then
        match rest with
        | [] => []
        | next :: rest => { next with time := next.time + ptr.time } :: rest
      else
        ptr :: removeTimer timerId rest

/-- The first loop of `age_callout_queue`: the expired prefix and the rest. -/
def detachExpired (elapsedTime : Int) : List TimeoutQ → List TimeoutQ × List TimeoutQ
  | [] => ([], [])
  | ptr :: rest =>
      if ptr.time > elapsedTime then
        ([], { ptr with time := ptr.time - elapsedTime } :: rest)
      else
        let (expired, queue) := detachExpired (elapsedTime - ptr.time) rest
        (ptr :: expired, queue)

def Daemon.setTimer (state : Daemon) (delay : Int) (action : Callback) : Daemon :=
  { state with
    id := state.id + 1
    queue := insertTimer ⟨state.id + 1, action, delay⟩ state.queue }

def timerSetTimer (delay : Int) (action : Callback) : Act Int := do
  let state ← get
  set (state.setTimer delay action)
  return state.id + 1

def Daemon.clearTimer (state : Daemon) (timerId : Int) : Daemon :=
  if timerId = 0 ∨ timerId = -1 then state
  else { state with queue := removeTimer timerId state.queue }

@[simp] theorem clearTimer_themrt (state : Daemon) (timerId : Int) :
    (state.clearTimer timerId).themrt = state.themrt := by
  unfold Daemon.clearTimer
  split <;> rfl

@[simp] theorem clearTimer_mrts (state : Daemon) (timerId : Int) :
    (state.clearTimer timerId).mrts = state.mrts := by
  unfold Daemon.clearTimer
  split <;> rfl

@[simp] theorem clearTimer_myvifs (state : Daemon) (timerId : Int) :
    (state.clearTimer timerId).myvifs = state.myvifs := by
  unfold Daemon.clearTimer
  split <;> rfl

@[simp] theorem clearTimer_groups (state : Daemon) (timerId : Int) :
    (state.clearTimer timerId).groups = state.groups := by
  unfold Daemon.clearTimer
  split <;> rfl

@[simp] theorem clearTimer_expired (state : Daemon) (timerId : Int) :
    (state.clearTimer timerId).expired = state.expired := by
  unfold Daemon.clearTimer
  split <;> rfl

@[simp] theorem clearTimer_trace (state : Daemon) (timerId : Int) :
    (state.clearTimer timerId).trace = state.trace := by
  unfold Daemon.clearTimer
  split <;> rfl

def timerClearTimer (timerId : Int) : Act Unit :=
  modify fun state => state.clearTimer timerId

/-- The loop of `timer_leftTimer`. -/
def leftTimerLoop (timerId left : Int) : List TimeoutQ → Int
  | [] => -1
  | ptr :: rest =>
      if ptr.id = timerId then left + ptr.time
      else leftTimerLoop timerId (left + ptr.time) rest

def Daemon.leftTimer (state : Daemon) (timerId : Int) : Int :=
  if timerId = 0 then -1 else leftTimerLoop timerId 0 state.queue

def timerLeftTimer (timerId : Int) : Act Int := do
  let state ← get
  return state.leftTimer timerId

def Daemon.nextTimer (state : Daemon) : Int :=
  match state.queue with
  | [] => -1
  | ptr :: _ => if ptr.time < 0 then 0 else ptr.time

def timerNextTimer : Act Int := do
  let state ← get
  return state.nextTimer

/-- The timers that are still to run: those in the queue and those of the batch
being processed. -/
def Daemon.pending (state : Daemon) : List TimeoutQ := state.expired ++ state.queue

end PimDm.Source
