import PimDm.Foundation.While
import PimDm.Source.State

/-!
# `kern.c`

`k_set_rcvbuf` looks for the largest receive buffer that the kernel allows.
-/

namespace PimDm.Source

open PimDm.Foundation

/-- The variables of `k_set_rcvbuf`, the sizes it has asked for, and the last one it was given. -/
structure Rcvbuf where
  bufsize : Int
  delta : Int
  iter : Int
  tried : List Int
  granted : Option Int
  deriving DecidableEq, Repr

def Rcvbuf.init (bufsize : Int) : Rcvbuf := ⟨bufsize, bufsize.tdiv 2, 0, [], none⟩

/-- `setsockopt` with `SO_RCVBUF` and the size in `bufsize`. -/
def Rcvbuf.setsockopt (accepts : Int → Bool) (search : Rcvbuf) : Rcvbuf :=
  { search with
    tried := search.tried ++ [search.bufsize]
    granted := if accepts search.bufsize then some search.bufsize else search.granted }

/-- `iter++`, and half the step if it can be halved. -/
def Rcvbuf.halve (search : Rcvbuf) : Rcvbuf :=
  { search with
    iter := search.iter + 1
    delta := if search.delta > 1 then search.delta.tdiv 2 else search.delta }

/-- `bufsize -= delta`. -/
def Rcvbuf.lower (search : Rcvbuf) : Rcvbuf := { search with bufsize := search.bufsize - search.delta }

/-- `bufsize += delta`. -/
def Rcvbuf.raise (search : Rcvbuf) : Rcvbuf := { search with bufsize := search.bufsize + search.delta }

/-- The body of the loop of `k_set_rcvbuf`. -/
def rcvbufRound (accepts : Int → Bool) (search : Rcvbuf) : Round Rcvbuf :=
  let search := search.halve
  let asked := search.setsockopt accepts
  if accepts search.bufsize = false then .again asked.lower
  else if search.delta < 1024 then .leave asked
  else .again asked.raise

/-- `k_set_rcvbuf` up to the check of `minsize`; `none` when the fuel runs out. -/
def rcvbufSearch (accepts : Int → Bool) (fuel : Nat) (bufsize : Int) : Option Rcvbuf :=
  let asked := (Rcvbuf.init bufsize).setsockopt accepts
  if accepts bufsize = false then whileTrue (rcvbufRound accepts) fuel asked.lower
  else some asked

/-- `k_set_rcvbuf`; `log` with `LOG_ERR` exits. -/
def kSetRcvbuf (accepts : Int → Bool) (fuel : Nat) (bufsize minsize : Int) : Option (Except Fault Unit) := do
  let search ← rcvbufSearch accepts fuel bufsize
  if accepts bufsize = false ∧ search.bufsize < minsize then return .error .exit
  else return .ok ()

end PimDm.Source
