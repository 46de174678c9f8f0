import PimDm.Source.Input

/-!
# The receivers of `pim.c` with their reads of the packet

The four receivers that walk a packet with a cursor once more, with what `touch` does
before bytes of the packet are read: those at an offset, as many as `size` says.
`valid_packet` and `bcopy` are given the length of the packet itself and read no other
bytes.  With a `touch` that does nothing these are the receivers, and with one that keeps to
`pim_receive_buf` the daemon as far as the memory it owns goes.  In the same way, the removal
of a group with the record it has freed, and `receive_pim_graft_ack` with a log of its inner
rounds.
-/

namespace PimDm.Source

open PimDm.Foundation

/-- What is done before bytes of a packet are read. -/
abbrev Touch := (offset size : Int) → Act Unit

/-- Nothing is done. -/
def freely : Touch := fun _ _ => pure ()

/-- Reading outside of a packet of this length is a fault. -/
def inside (length : Int) : Touch := fun offset size =>
  if 0 ≤ offset ∧ offset + size ≤ length then pure () else throw .outOfBounds

/-- Reading outside of the bytes from one place up to another is a fault. -/
def between (first last : Int) : Touch := fun offset size =>
  if first ≤ offset ∧ offset + size ≤ last then pure () else throw .outOfBounds

variable (touch : Touch)

/-- A round of a loop over sources reads the address of the source. -/
def readingSource (round : Int → Act Int) (mydata : Int) : Act Int := do
  touch (mydata + 4) 4
  round mydata

/-- `eachGroup`: the group is copied with both counts, all of the 12 bytes. -/
def readingGroup (data : Memory) (joinAction pruneAction : Int → Addr → Ptr → Act Int) (mydata : Int) :
    Act Int := do
  touch mydata 12
  let header := readGroupHeader data mydata
  let joinNumber := (ntohs header.joinField).toNat
  let pruneNumber := (ntohs header.pruneField).toNat
  let mydata := mydata + 12
  if inMulticast (ntohl header.group) = false then
    pure (mydata + (joinNumber + pruneNumber) * sizeofSource)
  else do
    let mydata ← times (readingSource touch (eachSource data header.group (joinAction (joinNumber + pruneNumber))))
      joinNumber mydata
    times (readingSource touch (eachSource data header.group (pruneAction (joinNumber + pruneNumber))))
      pruneNumber mydata

/-- What the four receivers do first, before they read the packet themselves. -/
def ifAccepted (host : Host) (src : Addr) (data : Memory) (length : Int) (body : Vif → Act Unit) : Act Unit :=
  let vif := findVifDirect host src
  if vif = 0 then pure ()
  else do
    let valid ← validPacket host src data length
    if valid = false then pure () else body vif

/-- `receive_join_prune` after `valid_packet`; the upstream address, the number of groups and
the hold time are read before anything is decided. -/
def readingJoinPrune (host : Host) (data : Memory) (length : Int) (vif : Vif) : Act Unit := do
  touch (sizeofPim + 2) 8
  let header := readJoinPruneHeader data
  if header.numGroups = 0 then pure ()
  else if header.upstream ≠ (host.iface vif).address ∧ header.upstream ≠ 0 then do
    let neighbor ← findneighbor header.upstream vif
    onlyIf (neighbor ≠ 0) do
      let _ ← times (readingGroup touch data overheardJoin (overheardPrune header.upstream))
        header.numGroups.toNat groupsStart
  else do
    let _ ← times
      (readingGroup touch data (addressedJoin vif) (addressedPrune host vif data length header.holdtime))
      header.numGroups.toNat groupsStart

/-- `receive_assert` after `valid_packet`; preference and metric are read where they are
compared. -/
def readingAssert (host : Host) (data : Memory) (vif : Vif) : Act Unit := do
  touch (sizeofPim + 4) 4
  touch (sizeofPim + 10) 4
  let body := readAssert data
  let mymrt ← findSg body.source body.group
  if mymrt = 0 then pure ()
  else
    let e ← loadMrt mymrt
    if vif = e.incoming then
      onlyIf (body.source ≠ e.upstream) (touch (sizeofPim + 14) 8)
      assertUpstream mymrt body
    else
      onlyIf (e.outvif vif ≠ 0) (touch (sizeofPim + 14) 8)
      assertDownstream host vif mymrt body

/-- `graftGroup`: the group is copied and the first count is read, 10 bytes. -/
def readingGraftGroup (host : Host) (vif : Vif) (src : Addr) (data : Memory) (length : Int) (mydata : Int) :
    Act Int := do
  touch mydata 10
  let header := readGroupHeader data mydata
  let joinNumber := (ntohs header.joinField).toNat
  let mydata := mydata + 12
  if inMulticast (ntohl header.group) = false then pure (mydata + joinNumber * sizeofSource)
  else do
    let mydata ← times (readingSource touch (graftSource host vif src data length header.group)) joinNumber mydata
    pure (mydata + sizeofSource)

/-- `graftAckGroup`, which reads as many bytes. -/
def readingGraftAckGroup (data : Memory) (mydata : Int) : Act Int := do
  touch mydata 10
  let header := readGroupHeader data mydata
  let joinNumber := header.joinField.toInt
  let mydata := mydata + 12
  if inMulticast (ntohl header.group) = false then
    pure (mydata + joinNumber * sizeofSource)
  else times (readingSource touch (graftAckSource data header.group)) joinNumber.toNat mydata

/-- `receive_pim_graft` and `receive_pim_graft_ack` after `valid_packet`; the hold time is
not read. -/
def readingGrafts (data : Memory) (group : Int → Act Int) : Act Unit := do
  touch (sizeofPim + 2) 4
  touch (sizeofPim + 7) 1
  let header := readJoinPruneHeader data
  if header.numGroups = 0 then pure ()
  else
    let _ ← times group header.numGroups.toNat groupsStart

/-- The receiver of a PIM message, with its reads; `receive_hello` is not one of the four. -/
def readingPim (host : Host) (type : PimMessage) (src : Addr) (data : Memory) (length : Int) : Act Unit :=
  match type with
  | .hello => receiveHello host src data length
  | .joinPrune => ifAccepted host src data length (readingJoinPrune touch host data length)
  | .assert => ifAccepted host src data length (readingAssert touch host data)
  | .graft => ifAccepted host src data length fun vif =>
      readingGrafts touch data (readingGraftGroup touch host vif src data length)
  | .graftAck => ifAccepted host src data length fun _ => readingGrafts touch data (readingGraftAckGroup touch data)

/-! ## The options of a Hello -/

/-- `getHoldTimeLoop` with its reads: type and length of an option, and of the hold time also
the value. -/
def readingHoldTimeLoop (data : Memory) : Nat → Int → Int → Act Int
  | 0, _, _ => throw (.memory .wild)
  | fuel + 1, mydata, length =>
      if 0 ≤ length ∧ length < 4 then pure (-1)
      else do
        touch mydata 4
        let optionLength := (ntohs (load16 data (mydata + 2))).toNat
        if ntohs (load16 data mydata) = 1 then
          if optionLength ≠ 2 then pure (-1)
          else do
            touch (mydata + 4) 2
            pure (ntohs (load16 data (mydata + 4))).toNat
        else readingHoldTimeLoop data fuel (mydata + 4 + optionLength) (length - 4 - optionLength)

/-! ## The receive buffer -/

/-- `receive_hello`, with the reads of the options. -/
def readingHello (host : Host) (src : Addr) (data : Memory) (length : Int) : Act Unit := do
  let vif := findVifDirect host src
  let valid ← validPacket host src data length
  if valid = false then pure ()
  else
    let holdtime ← readingHoldTimeLoop touch data (64 * 1024 / 4) sizeofPim (length - sizeofPim)
    let pimneighbor ← findneighbor src vif
    if pimneighbor ≠ 0 then
      if holdtime = 0 then deletePimNeighbor host pimneighbor
      else refreshNeighbor pimneighbor holdtime
    else addPimNeighbor host src holdtime vif

/-- What an event does, with the reads of a PIM message. -/
def handleReading (host : Host) : Event → Act Unit
  | .pimInput .hello src data length => readingHello touch host src data length
  | .pimInput type src data length => readingPim touch host type src data length
  | event => handle host event

/-- `pim_receive_buf=malloc(64*1024)`. -/
def pimReceiveBufSize : Int := 64 * 1024

/-- Reading outside of `pim_receive_buf` is a fault; offsets count from the end of the IP header. -/
def inReceiveBuf (iphdrlen : Int) : Touch := between (-iphdrlen) (pimReceiveBufSize - iphdrlen)

/-- What an event does, if reading outside of the receive buffer is a fault. -/
def handleInBuffer (iphdrlen : Int) (host : Host) (event : Event) : Act Unit :=
  handleReading (inReceiveBuf iphdrlen) host event

/-- `pim_input`, if reading outside of the receive buffer is a fault. -/
def pimInputInBuffer (model : DataModel) (host : Host) (pimReceiveBuf : Memory) (length : Int) : Act Unit :=
  if 0 ≤ pimLength pimReceiveBuf length ∧ pimLength pimReceiveBuf length < model.sizeofLong then pure ()
  else
    match pimMessageOf (pimType pimReceiveBuf) with
    | none => pure ()
    | some type =>
        handleInBuffer (readIp pimReceiveBuf).iphdrlen host
          (.pimInput type (readIp pimReceiveBuf).src (pimPart pimReceiveBuf) (pimLength pimReceiveBuf length))

/-! ## The removal of a group -/

/-- `removeGroup` if a record cannot be read any more once it has been freed. -/
def strictRemoveGroup (host : Host) (vif : Vif) (temp : Option Ptr) (g : Ptr) : Act Unit := do
  let record ← loadGroup g
  let state ← get
  unlinkGroup host vif temp g record
  onlyIf (g ≠ (state.myvifs vif).groups) (throw (.memory .wild))
  let read ← loadGroup g
  delLeaf host vif read.address

/-! ## The rounds of a Graft-Ack -/

/-- The groups and sources that the inner rounds have looked at. -/
abbrev Rounds := List (Addr × Addr)

/-- `graftAckSource`, with a note of its group and source. -/
def loggingAckSource (data : Memory) (group : Addr) (cursor : Int × Rounds) : Act (Int × Rounds) := do
  let mydata ← graftAckSource data group cursor.1
  pure (mydata, cursor.2 ++ [(group, load32 data (cursor.1 + 4))])

/-- `graftAckGroup`, with its inner rounds. -/
def loggingAckGroup (data : Memory) (cursor : Int × Rounds) : Act (Int × Rounds) :=
  let header := readGroupHeader data cursor.1
  let joinNumber := header.joinField.toInt
  let mydata := cursor.1 + 12
  if inMulticast (ntohl header.group) = false then
    pure (mydata + joinNumber * sizeofSource, cursor.2)
  else times (loggingAckSource data header.group) joinNumber.toNat (mydata, cursor.2)

/-- `receive_pim_graft_ack`, which returns its inner rounds. -/
def loggingGraftAck (host : Host) (src : Addr) (data : Memory) (length : Int) : Act Rounds :=
  let vif := findVifDirect host src
  if vif = 0 then pure []
  else do
    let valid ← validPacket host src data length
    let header := readJoinPruneHeader data
    if valid = false ∨ header.numGroups = 0 then pure []
    else
      let cursor ← times (loggingAckGroup data) header.numGroups.toNat (groupsStart, [])
      pure cursor.2

theorem loggingAckGroup_erased (data : Memory) (cursor : Int × Rounds) :
    (loggingAckGroup data cursor >>= fun cursor => pure cursor.1) = graftAckGroup data cursor.1 := by
  unfold loggingAckGroup graftAckGroup
  dsimp only
  split
  · exact pure_bind _ _
  · refine times_erased (fun cursor => ?_) _ _
    unfold loggingAckSource
    rw [bind_assoc]
    simp only [pure_bind, bind_pure]

/-- Without its rounds it is the receiver. -/
theorem loggingGraftAck_erased (host : Host) (src : Addr) (data : Memory) (length : Int) :
    (loggingGraftAck host src data length >>= fun _ => pure ()) = receivePimGraftAck host src data length := by
  have groups := times_erased (loggingAckGroup_erased data) (readJoinPruneHeader data).numGroups.toNat (groupsStart, [])
  unfold loggingGraftAck receivePimGraftAck
  dsimp only
  split
  · exact pure_bind _ _
  rw [bind_assoc]
  refine bind_congr fun valid => ?_
  split
  · exact pure_bind _ _
  · rw [← groups]
    simp only [bind_assoc, pure_bind]

/-! ## Reading freely -/

theorem readingSource_freely (round : Int → Act Int) : readingSource freely round = round := by
  funext mydata
  exact pure_bind _ _

theorem readingGroup_freely (data : Memory) (joinAction pruneAction : Int → Addr → Ptr → Act Int) :
    readingGroup freely data joinAction pruneAction = eachGroup data joinAction pruneAction := by
  funext mydata
  unfold readingGroup
  simp only [readingSource_freely]
  exact pure_bind _ _

theorem readingGraftGroup_freely (host : Host) (vif : Vif) (src : Addr) (data : Memory) (length : Int) :
    readingGraftGroup freely host vif src data length = graftGroup host vif src data length := by
  funext mydata
  unfold readingGraftGroup
  simp only [readingSource_freely]
  exact pure_bind _ _

theorem readingGraftAckGroup_freely (data : Memory) : readingGraftAckGroup freely data = graftAckGroup data := by
  funext mydata
  unfold readingGraftAckGroup
  simp only [readingSource_freely]
  exact pure_bind _ _

/-- Two tests that lead to the same program are one. -/
theorem ite_or {α : Type} {first second : Prop} [Decidable first] [Decidable second] (yes no : α) :
    (if first ∨ second then yes else no) = if first then yes else if second then yes else no := by
  by_cases holds : first
  · rw [if_pos holds, if_pos (Or.inl holds)]
  · rw [if_neg holds]
    exact if_congr (or_iff_right holds) rfl rfl

/-- With a `touch` that does nothing these are the receivers. -/
theorem readingPim_freely (host : Host) (type : PimMessage) (src : Addr) (data : Memory) (length : Int) :
    readingPim freely host type src data length = receivePim host type src data length := by
  have untouched {β : Type} (offset size : Int) (rest : Unit → Act β) : (freely offset size >>= rest) = rest () :=
    pure_bind _ _
  cases type with
  | hello => rfl
  | joinPrune =>
      simp only [readingPim, receivePim, ifAccepted, readingJoinPrune, receiveJoinPrune, readingGroup_freely,
        untouched, ite_or]
  | assert =>
      have skipped {β : Type} (condition : Prop) [Decidable condition] (offset size : Int) (rest : Unit → Act β) :
          (onlyIf condition (freely offset size) >>= rest) = rest () := by
        unfold onlyIf
        split
        · exact pure_bind _ _
        · exact pure_bind _ _
      simp only [readingPim, receivePim, ifAccepted, readingAssert, receiveAssert, untouched, skipped]
  | graft =>
      simp only [readingPim, receivePim, ifAccepted, readingGrafts, receivePimGraft, readingGraftGroup_freely,
        untouched, ite_or]
  | graftAck =>
      simp only [readingPim, receivePim, ifAccepted, readingGrafts, receivePimGraftAck, readingGraftAckGroup_freely,
        untouched, ite_or]

theorem readingHoldTimeLoop_freely (data : Memory) (fuel : Nat) (mydata length : Int) :
    readingHoldTimeLoop freely data fuel mydata length = liftHeap (getHoldTimeLoop data fuel mydata length) := by
  induction fuel generalizing mydata length with
  | zero => rfl
  | succ fuel ih =>
      have untouched {β : Type} (offset size : Int) (rest : Unit → Act β) : (freely offset size >>= rest) = rest () :=
        pure_bind _ _
      simp only [readingHoldTimeLoop, getHoldTimeLoop, untouched, ih, apply_ite liftHeap]
      rfl

theorem readingHello_freely (host : Host) (src : Addr) (data : Memory) (length : Int) :
    readingHello freely host src data length = receiveHello host src data length := by
  unfold readingHello receiveHello getHoldTime
  simp only [readingHoldTimeLoop_freely]

theorem handleReading_freely (host : Host) (event : Event) : handleReading freely host event = handle host event := by
  cases event with
  | pimInput type src data length =>
      cases type with
      | hello => exact readingHello_freely host src data length
      | joinPrune => exact readingPim_freely host .joinPrune src data length
      | assert => exact readingPim_freely host .assert src data length
      | graft => exact readingPim_freely host .graft src data length
      | graftAck => exact readingPim_freely host .graftAck src data length
  | _ => rfl

end PimDm.Source
