import PimDm.Foundation.Verdict
import PimDm.Refinement.Progress
import PimDm.Refinement.Grafts
import PimDm.Refinement.RoleTimers
import PimDm.Refinement.BufferWalks
import PimDm.Property.BadInput
import PimDm.Property.GroupLists
import PimDm.Property.NeighborRemoval
import PimDm.Property.SmallestQuerier

/-!
# Which events stop the daemon

The places in which the daemon can stop are few: a log message without a format, a message whose
counts or option lengths lead out of the receive buffer, the removal of the first neighbour of an
interface, the end of a wait after an Assert, a check of an entry that has just gone, and a source
without a route.  Each is known from the event and the state before it, and every other event is
handled to its end.
-/

namespace PimDm.Property

open PimDm.Foundation PimDm.Source PimDm.Effect PimDm.Routing PimDm.Refinement

variable {host : Host} {s s' : Daemon} {entry : Ptr} {n : PimNeighbor} {src : Addr} {data : Memory} {length : Int}

/-- The first neighbour in the list of an interface. -/
def firstNeighbor (s : Daemon) (vif : Vif) : Option Addr := ((table s).neighbors vif).head?.map Prod.snd

/-- What stops the removal of a neighbour. -/
def removalHazard (host : Host) (s : Daemon) (address : Addr) : Option Fault :=
  if findVifDirect host address ≠ 0 ∧ firstNeighbor s (findVifDirect host address) = some address then
    some .uninitialised
  else none

/-- What stops the reception of a Hello: the checksum, the reads of the options, or the removal of its
sender. -/
def helloHazard (iphdrlen : Int) (host : Host) (s : Daemon) (src : Addr) (data : Memory) (length : Int) :
    Option Fault :=
  if inetCksum data length ≠ 0 then some .nullFormat
  else if findVifDirect host src = 0 then none
  else if ¬ (helloCourse iphdrlen data length).fits then some .outOfBounds
  else if (helloCourse iphdrlen data length).next = some 0 then removalHazard host s src
  else none

/-- What stops the reception of another PIM message: strangers are dropped before the checksum. -/
def messageHazard (iphdrlen : Int) (host : Host) (s : Daemon) (src : Addr) (data : Memory) (length : Int)
    (type : PimMessage) : Option Fault :=
  if findVifDirect host src = 0 then none
  else if inetCksum data length ≠ 0 then some .nullFormat
  else if ¬ (bufferCourse iphdrlen host s src data length type).fits then some .outOfBounds
  else none

/-- What stops the function of a timer. -/
def timerHazard (host : Host) (s : Daemon) : Callback → Option Fault
  | .deletePimNeighbor entry => (s.neighbors.get? entry).bind fun n => removalHazard host s n.address
  | .activeForward _ => if s.themrt = 0 then none else some .outOfBounds
  | .checkSg source group => if ((table s).find (routeIsFor source group)).isSome then none else some (.memory .null)
  | _ => none

/-- The fault an event runs into, if any; the bytes of a PIM message start at `iphdrlen` in the buffer. -/
def hazard (iphdrlen : Int) (host : Host) (s : Daemon) : Event → Option Fault
  | .multicastPacketError mydata checked _ =>
      if mydata.message = 1 ∧ getUpstream host checked mydata.source = 0 then some .exit else none
  | .pimInput .hello src data length => helloHazard iphdrlen host s src data length
  | .pimInput type src data length => messageHazard iphdrlen host s src data length type
  | .expire _ => s.expired.head?.bind fun ptr => timerHazard host s ptr.func
  | _ => none

/-- The interfaces of the host fit into the arrays of the daemon, and `malloc` returns zero-filled blocks. -/
structure Fitting (host : Host) : Prop extends host.ZeroFilled where
  few : host.maxvif < myvifsSize

/-- What the kernel hands over: an upcall names an interface of the array, and a PIM message lies in the
receive buffer behind an IP header, so that its copies fit into the send buffer. -/
def Arrives (iphdrlen : Int) : Event → Prop
  | .multicastPacketError mydata _ _ => mydata.vif < myvifsSize
  | .pimInput _ _ _ length => sizeofIp ≤ iphdrlen ∧ length ≤ pimReceiveBufSize - iphdrlen
  | _ => True

instance decidableArrives (iphdrlen : Int) : (event : Event) → Decidable (Arrives iphdrlen event)
  | .multicastPacketError mydata _ _ => inferInstanceAs (Decidable (mydata.vif < myvifsSize))
  | .pimInput _ _ _ length => inferInstanceAs (Decidable (sizeofIp ≤ iphdrlen ∧ length ≤ pimReceiveBufSize - iphdrlen))
  | .acceptMembershipQuery .. | .acceptGroupReport .. | .acceptLeaveMessage .. | .age _ | .expire _ => isTrue trivial

theorem endsAs_of_completes {program : Act Unit} (completes : Completes program s) : EndsAs program s none :=
  ⟨(), completes⟩

/-! ## Removing a neighbour -/

theorem unlinkNeighbor_stops {vif : Vif} {address : Addr} {item : Ptr × Addr} {behind : List (Ptr × Addr)}
    (models : Models s (table s)) (split : (table s).neighbors vif = item :: behind) :
    Fails (unlinkNeighbor vif address none item.1) s .uninitialised := by
  have shows := models.neighbors vif
  rw [split] at shows
  obtain ⟨head, content, _⟩ := shows.found (List.mem_cons_self ..)
  have first : Runs (loadNeighbor (s.myvifs vif).neighbor) s head s := by
    rw [shows.start_eq]
    exact runs_loadNeighbor.mpr ⟨content, rfl⟩
  have reset : Completes (onlyIf (head.address = address) (storeMyvif vif fun myv => { myv with neighbor := 0 })) s :=
    completes_onlyIf fun _ => ⟨_, runs_modify.mpr rfl⟩
  obtain ⟨_, reset⟩ := reset
  change EndsAs _ s (some Fault.uninitialised)
  refine endsAs_bind _ (runs_loadNeighbor.mpr ⟨content, rfl⟩) (endsAs_get_bind (endsAs_bind _ first ?_))
  exact endsAs_bind () reset (fails_throw.mpr rfl)

/-- A neighbour that is not the first one of its list is removed, and for the first one the daemon stops. -/
theorem deletePimNeighbor_ends (models : Models s (table s)) (content : s.neighbors.get? entry = some n) :
    EndsAs (deletePimNeighbor host entry) s (removalHazard host s n.address) := by
  unfold removalHazard
  refine endsAs_bind _ (runs_loadNeighbor.mpr ⟨content, rfl⟩) ?_
  by_cases stranger : findVifDirect host n.address = 0
  · rw [if_pos stranger, if_neg fun both => both.1 stranger]
    exact endsAs_runs (runs_pure.mpr ⟨rfl, rfl⟩)
  rw [if_neg stranger]
  have search : ∀ found, s.neighbors.findTrailing PimNeighbor.next (fun entry => entry.address == n.address)
      (s.neighbors.size + 1) none (s.myvifs (findVifDirect host n.address)).neighbor = .ok found →
        Runs (findNeighborTrailing (findVifDirect host n.address) n.address) s found s := by
    intro found result
    rw [findNeighborTrailing, runs_get_bind, runs_liftHeap]
    exact ⟨result, rfl⟩
  rcases (models.neighbors (findVifDirect host n.address)).findTrailing_eq (fun entry => entry.address == n.address)
      (fun other => other == n.address) (fun _ => rfl) with
    ⟨last, none, absent⟩ | ⟨ahead, item, behind, split, before, here, some⟩
  · refine endsAs_bind _ (search _ none) (endsAs_bind () (runs_onlyIf.mpr (Or.inr ⟨not_not.mpr rfl, rfl⟩)) ?_)
    rw [if_neg fun both => ?_]
    · exact endsAs_of_completes (refreshMrt_completes host models _ _)
    · obtain ⟨item, first, same⟩ := Option.map_eq_some_iff.mp both.2
      have other := absent item (List.mem_of_head? first)
      exact absurd same (ne_of_beq_false other)
  have member : item ∈ (table s).neighbors (findVifDirect host n.address) := by simp [split]
  have listed : item.1 ≠ 0 := (models.neighbors _).nonnull member
  refine endsAs_bind _ (search _ some) ?_
  cases ahead with
  | nil =>
      rw [if_pos ⟨stranger, by rw [firstNeighbor, split]; exact congrArg _ (eq_of_beq here)⟩]
      exact endsAs_bind_fails (fails_onlyIf.mpr ⟨listed, unlinkNeighbor_stops models split⟩)
  | cons front rest =>
      have later : ¬ (findVifDirect host n.address ≠ 0 ∧
          firstNeighbor s (findVifDirect host n.address) = .some n.address) := by
        rintro ⟨_, first⟩
        rw [firstNeighbor, split] at first
        exact ne_of_beq_false (before front (List.mem_cons_self ..)) (Option.some.inj first)
      rw [if_neg later]
      obtain ⟨unlinked, unlink⟩ := unlinkNeighbor_completes models n.address split (List.cons_ne_nil front rest)
      obtain ⟨_, after⟩ := unlinkNeighbor_models models split before unlink
      refine endsAs_bind () (runs_onlyIf.mpr (Or.inl ⟨listed, unlink⟩)) ?_
      exact endsAs_of_completes (refreshMrt_completes host after _ _)

/-! ## Messages -/

/-- A correct Hello of a station on one of our networks. -/
theorem receiveHello_ends (models : Models s (table s)) (direct : findVifDirect host src ≠ 0)
    (correct : inetCksum data length = 0) {holdtime : Int}
    (read : getHoldTimeLoop data (64 * 1024 / 4) sizeofPim (length - sizeofPim) = .ok holdtime) :
    EndsAs (receiveHello host src data length) s (if holdtime = 0 then removalHazard host s src else none) := by
  refine endsAs_bind _ (validPacket_accepts correct direct) ?_
  rw [if_neg Bool.noConfusion]
  refine endsAs_bind _ (runs_liftHeap.mpr ⟨read, rfl⟩) (endsAs_bind _ (models.runs_findneighbor.mpr ⟨rfl, rfl⟩) ?_)
  cases known : ((table s).neighbors (findVifDirect host src)).find? (fun item => item.2 == src) with
  | none =>
      rw [addressOf, Option.map_none, Option.getD_none, if_neg (not_not.mpr rfl)]
      have later : removalHazard host s src = none := by
        refine if_neg fun both => ?_
        obtain ⟨item, first, same⟩ := Option.map_eq_some_iff.mp both.2
        exact List.find?_eq_none.mp known item (List.mem_of_head? first) (beq_iff_eq.mpr same)
      simp only [later, ite_self]
      exact endsAs_of_completes (addPimNeighbor_completes models src holdtime _)
  | some item =>
      have member := List.mem_of_find?_eq_some known
      have named : item.2 = src := by simpa using List.find?_some known
      obtain ⟨n, content, address⟩ := (models.neighbors _).found member
      rw [addressOf, Option.map_some, Option.getD_some, if_pos ((models.neighbors _).nonnull member)]
      refine endsAs_ite (fun _ => ?_) fun _ => endsAs_of_completes (refreshNeighbor_completes content holdtime)
      rw [← named, ← address]
      exact deletePimNeighbor_ends models content

theorem readingHello_ends (models : Models s (table s)) {iphdrlen : Int} (header : 0 ≤ iphdrlen) (host : Host)
    (src : Addr) (data : Memory) (length : Int) : EndsAs (readingHello (inReceiveBuf iphdrlen) host src data length) s
      (helloHazard iphdrlen host s src data length) := by
  unfold helloHazard
  by_cases wrong : inetCksum data length ≠ 0
  · rw [if_pos wrong]
    exact endsAs_bind_fails (validPacket_fails wrong)
  rw [if_neg wrong]
  have correct := not_not.mp wrong
  by_cases stranger : findVifDirect host src = 0
  · rw [if_pos stranger]
    have dropped : Runs (validPacket host src data length) s false s := by
      unfold validPacket
      rw [if_neg wrong, if_pos stranger]
      exact runs_pure.mpr ⟨rfl, rfl⟩
    exact endsAs_bind _ dropped (endsAs_runs (runs_pure.mpr ⟨rfl, rfl⟩))
  rw [if_neg stranger]
  by_cases outside : ¬ (helloCourse iphdrlen data length).fits
  · rw [if_pos outside]
    exact readingHello_strays stranger correct outside
  rw [if_neg outside]
  have fits := not_not.mp outside
  obtain ⟨holdtime, next⟩ := helloCourse_found header fits
  refine endsAs_congr (readingHello_same fits) ?_
  simp only [next, Option.some.injEq]
  exact receiveHello_ends models stranger correct (getHoldTimeLoop_of_course next)

/-- Other correct messages of a station on one of our networks. -/
theorem receivePim_completes (models : Models s (table s)) (orderly : Orderly s) (idle : s.expired = [])
    {type : PimMessage} (walks : type ≠ .hello) (direct : findVifDirect host src ≠ 0)
    (correct : inetCksum data length = 0) : EndsAs (receivePim host type src data length) s (none : Option Fault) := by
  cases type with
  | hello => exact (walks rfl).elim
  | joinPrune => exact endsAs_of_completes (receiveJoinPrune_completes models direct correct)
  | assert => exact endsAs_of_completes (receiveAssert_completes models direct correct)
  | graft =>
      obtain ⟨_, run, _⟩ := receivePimGraft_marks models direct correct
      exact endsAs_runs run
  | graftAck =>
      obtain ⟨_, run, _⟩ := loggingGraftAck_acked models orderly idle direct correct
      exact endsAs_runs (receivePimGraftAck_of_logging run)

theorem ifAccepted_ends {body : Vif → Act Unit} {verdict : Option Fault}
    (accepted : findVifDirect host src ≠ 0 → inetCksum data length = 0 →
      EndsAs (ifAccepted host src data length body) s verdict) :
    EndsAs (ifAccepted host src data length body) s (if findVifDirect host src = 0 then none
      else if inetCksum data length ≠ 0 then some .nullFormat else verdict) := by
  by_cases stranger : findVifDirect host src = 0
  · rw [if_pos stranger]
    exact endsAs_runs (runs_ite.mpr (Or.inl ⟨stranger, runs_pure.mpr ⟨rfl, rfl⟩⟩))
  rw [if_neg stranger]
  by_cases wrong : inetCksum data length ≠ 0
  · rw [if_pos wrong]
    exact fails_ite.mpr (Or.inr ⟨stranger, endsAs_bind_fails (validPacket_fails wrong)⟩)
  · rw [if_neg wrong]
    exact accepted stranger (not_not.mp wrong)

theorem readingPim_ends (models : Models s (table s)) (orderly : Orderly s) (idle : s.expired = [])
    (iphdrlen : Int) (host : Host) {type : PimMessage} (walks : type ≠ .hello) (src : Addr) (data : Memory)
    (length : Int) : EndsAs (readingPim (inReceiveBuf iphdrlen) host type src data length) s
      (messageHazard iphdrlen host s src data length type) := by
  have accepted : findVifDirect host src ≠ 0 → inetCksum data length = 0 →
      EndsAs (readingPim (inReceiveBuf iphdrlen) host type src data length) s
        (if ¬ (bufferCourse iphdrlen host s src data length type).fits then some Fault.outOfBounds else none) := by
    intro direct correct
    have takes : Takes Fault.outOfBounds (fun now => now = s) (fun _ => True) _ _
        (bufferCourse iphdrlen host s src data length type) := readingBuffer_takes walks direct correct
    by_cases outside : ¬ (bufferCourse iphdrlen host s src data length type).fits
    · rw [if_pos outside]
      exact takes.strays outside s rfl
    · rw [if_neg outside]
      exact endsAs_congr (takes.same (not_not.mp outside) s rfl)
        (receivePim_completes models orderly idle walks direct correct)
  cases type with
  | hello => exact (walks rfl).elim
  | joinPrune | assert => exact ifAccepted_ends accepted
  | graft | graftAck =>
      rw [readingPim] at accepted ⊢
      exact ifAccepted_ends accepted

/-! ## Upcalls and IGMP -/

theorem multicastPacketError_ends (zero : host.ZeroFilled) (models : Models s (table s)) (mydata : MulticastErrorData)
    (checked routed : Addr) : EndsAs (multicastPacketError host mydata checked routed) s
      (if mydata.message = 1 ∧ getUpstream host checked mydata.source = 0 then some .exit else none) := by
  by_cases first : mydata.message = 1
  · have second : ∀ now, Completes (onlyIf (mydata.message = 2) (wrongMulticastPacket host mydata)) now := by
      refine fun now => completes_onlyIf fun other => ?_
      rw [first] at other
      cases other
    by_cases route : getUpstream host checked mydata.source = 0
    · rw [if_pos ⟨first, route⟩]
      refine endsAs_bind_fails (fails_onlyIf.mpr ⟨first, endsAs_bind_fails (endsAs_bind_fails ?_)⟩)
      exact fails_ite.mpr (Or.inl ⟨route, fails_throw.mpr rfl⟩)
    · rw [if_neg fun both => route both.2]
      obtain ⟨created, creates⟩ := newMulticastPacket_completes zero models routed route
      refine endsAs_bind () (runs_onlyIf.mpr (Or.inl ⟨first, creates⟩)) ?_
      exact endsAs_of_completes (second created)
  · rw [if_neg fun both => first both.1]
    refine endsAs_bind () (runs_onlyIf.mpr (Or.inr ⟨first, rfl⟩)) ?_
    exact endsAs_of_completes (completes_onlyIf fun _ => wrongMulticastPacket_completes models mydata)

theorem acceptMembershipQuery_ends (models : Models s (table s)) (host : Host) (src group : Addr) :
    Completes (acceptMembershipQuery host src group) s := by
  unfold acceptMembershipQuery
  by_cases ours : isLocalAddress host src ≠ 0
  · rw [if_pos ours]
    exact ⟨s, runs_pure.mpr ⟨rfl, rfl⟩⟩
  rw [if_neg ours]
  by_cases stranger : findVifDirect host src = 0
  · rw [if_pos stranger]
    exact ⟨s, runs_pure.mpr ⟨rfl, rfl⟩⟩
  rw [if_neg stranger]
  have spared : ∀ fault : Fault, Spares fault (onlyIf ((s.myvifs (findVifDirect host src)).querier ≠ 0)
      (refreshRetry (findVifDirect host src))) := fun fault => spares_onlyIf fun _ => refreshRetry_spares fault _
  obtain ⟨_, refreshed, refresh⟩ := runs_of_spares spared s
  have electing : ∀ fault : Fault, Spares fault (electQuerier host src (findVifDirect host src)) :=
    fun fault => electQuerier_spares fault src _
  obtain ⟨_, elected, elect⟩ := runs_of_spares electing refreshed
  have waiting := models_of_quiet (does_onlyIf fun _ => refreshRetry_changes (fun _ => trivial) _) models refresh
  have after := models_of_quiet (electQuerier_changes (fun _ => trivial) host src _) waiting elect
  refine completes_bind s (runs_get.mpr ⟨rfl, rfl⟩) (completes_bind () refresh (completes_bind () elect ?_))
  refine completes_bind elected (runs_get.mpr ⟨rfl, rfl⟩) (completes_onlyIf fun _ => ?_)
  exact expectReports_completes after _ _

theorem acceptGroupReport_completes (zero : host.ZeroFilled) (models : Models s (table s)) (src group : Addr) :
    Completes (acceptGroupReport host src group) s := by
  unfold acceptGroupReport
  by_cases stranger : findVifDirect host src = 0
  · rw [if_pos stranger]
    exact ⟨s, runs_pure.mpr ⟨rfl, rfl⟩⟩
  rw [if_neg stranger]
  refine completes_bind _ (models.runs_findGroup.mpr ⟨rfl, rfl⟩) ?_
  rcases models.lookup_group (findVifDirect host src) group with ⟨_, null⟩ | ⟨record, g, listed, nonnull, here⟩
  · rw [null, if_neg (not_not.mpr rfl)]
    have linked := models.linkGroup (findVifDirect host src) (g := newGroup host s.groups.fresh group) fun _ => by
      rw [newGroup, zero.group]
      rfl
    exact completes_bind () (runs_modify.mpr rfl) (.of_achieves (addLeaf_achieves host _ group) linked)
  · rw [here, if_pos nonnull]
    exact cancelLeave_completes listed.content

/-! ## Timers -/

theorem activeForward_ends (models : Models s (table s)) (host : Host) :
    EndsAs (activeForward host) s (if s.themrt = 0 then none else some .outOfBounds) := by
  by_cases empty : s.themrt = 0
  · rw [if_pos empty]
    have nothing : Runs (forMrt fun _ => throw .outOfBounds) s () s := by
      unfold forMrt
      rw [runs_get_bind, empty]
      exact runs_pure.mpr ⟨rfl, rfl⟩
    refine endsAs_bind () nothing ?_
    exact endsAs_of_completes (.of_achieves (checkPimState_achieves .addLeaf) models)
  · rw [if_neg empty]
    have first : Fails (forMrt fun _ => throw .outOfBounds) s .outOfBounds := by
      unfold forMrt
      rw [fails_get_bind, forEach, if_neg empty]
      exact fails_bind.mpr (Or.inl (fails_throw.mpr rfl))
    exact endsAs_bind_fails first

theorem loadMrt_null (s : Daemon) : Fails (loadMrt 0) s (.memory .null) := rfl

theorem checkSg_ends (models : Models s (table s)) (source group : Addr) (nowdata : Int) :
    EndsAs (checkSg source group nowdata) s
      (if ((table s).find (routeIsFor source group)).isSome then none else some (.memory .null)) := by
  have search : ∀ mymrt, addressOf ((table s).find (routeIsFor source group)) = mymrt →
      Runs (findSg source group) s mymrt s := fun mymrt found => models.runs_findSg.mpr ⟨found.symm, rfl⟩
  cases found : (table s).find (routeIsFor source group) with
  | some item =>
      obtain ⟨_, _, _, e, content, _⟩ := models.entry_of_find found
      have finds := (runs_findMrt.mp (search item.1 (congrArg addressOf found))).1
      exact endsAs_of_completes (checkSg_completes finds content nowdata)
  | none =>
      change EndsAs (checkSg source group nowdata) s (some (.memory .null))
      refine endsAs_bind 0 (search 0 (congrArg addressOf found)) (endsAs_get_bind ?_)
      by_cases fresh : nowdata > s.packetNumber
      · have counted : Runs (modify fun state => { state with packetNumber := nowdata } : Act Unit) s ()
          { s with packetNumber := nowdata } := runs_modify.mpr rfl
        refine endsAs_bind_fails (fails_onlyIf.mpr ⟨fresh, ?_⟩)
        exact fails_bind.mpr (Or.inr ⟨(), _, counted, endsAs_bind_fails (loadMrt_null _)⟩)
      · exact endsAs_bind () (runs_onlyIf.mpr (Or.inr ⟨fresh, rfl⟩)) (endsAs_bind_fails (loadMrt_null s))

theorem callFunc_ends (models : Models s (table s)) (pktcnt : Int) (func : Callback)
    (graft : ∀ mymrt, func = .planGraft mymrt → ∃ e, s.mrts.get? mymrt = some e)
    (expiry : ∀ entry, func = .deletePimNeighbor entry → ∃ n, s.neighbors.get? entry = some n) :
    EndsAs (callFunc host pktcnt func) s (timerHazard host s func) := by
  cases func with
  | timer => exact endsAs_bind () (runs_modify.mpr rfl) (endsAs_bind _ (runs_timerSetTimer.mpr ⟨rfl, rfl⟩)
      (endsAs_runs (runs_pure.mpr ⟨rfl, rfl⟩)))
  | pimHelloOutput data =>
      obtain ⟨_, _, run, _⟩ := pimHelloOutput_transmits s host data
      exact endsAs_runs run
  | deletePimNeighbor entry =>
      obtain ⟨n, content⟩ := expiry entry rfl
      rw [timerHazard, content]
      exact deletePimNeighbor_ends models content
  | sendJoin data => exact endsAs_of_completes (.of_achieves (sendJoin_achieves host data) models)
  | pruneTimeOut data => exact endsAs_of_completes (.of_achieves (pruneTimeOut_achieves host data) models)
  | setPrune data => exact endsAs_of_completes (.of_achieves (setPrune_achieves host data) models)
  | activeForward vif => exact activeForward_ends models host
  | planGraft entry =>
      obtain ⟨e, content⟩ := graft entry rfl
      exact endsAs_of_completes (planGraft_completes models content)
  | handleSgTimeout source group => exact endsAs_of_completes (handleSgTimeout_completes models source group)
  | checkSg source group => exact checkSg_ends models source group pktcnt
  | sendQuery vif | retryQuery vif =>
      refine endsAs_bind _ (runs_timerSetTimer.mpr ⟨rfl, rfl⟩) (endsAs_bind () (runs_modify.mpr rfl) ?_)
      exact endsAs_of_completes ⟨_, runs_modify.mpr rfl⟩
  | leaveQuery vif group => exact endsAs_of_completes (leaveQuery_completes models vif group)

/-! ## Every event -/

theorem handleInBuffer_ends (zero : host.ZeroFilled) (owned : Owned s) (models : Models s (table s)) {event : Event}
    (enabled : event.Enabled s) {iphdrlen : Int} (arrives : Arrives iphdrlen event) :
    EndsAs (handleInBuffer iphdrlen host event) s (hazard iphdrlen host s event) := by
  cases event with
  | multicastPacketError mydata checked routed => exact multicastPacketError_ends zero models mydata checked routed
  | acceptMembershipQuery src group => exact endsAs_of_completes (acceptMembershipQuery_ends models host src group)
  | acceptGroupReport src group => exact endsAs_of_completes (acceptGroupReport_completes zero models src group)
  | acceptLeaveMessage src group => exact endsAs_of_completes (acceptLeaveMessage_completes models src group)
  | pimInput type src data length =>
      have idle := idle_of_enabled rfl enabled
      have ends {type : PimMessage} (walks : type ≠ .hello) := readingPim_ends models owned.orderly idle iphdrlen host
        walks src data length
      cases type with
      | hello => exact readingHello_ends models (Int.le_trans (by decide) arrives.1) host src data length
      | joinPrune => exact ends (by decide)
      | assert => exact ends (by decide)
      | graft => exact ends (by decide)
      | graftAck => exact ends (by decide)
  | age elapsedTime => exact endsAs_of_completes ⟨_, runs_modify.mpr rfl⟩
  | expire pktcnt =>
      refine endsAs_get_bind ?_
      unfold hazard
      cases batch : s.expired with
      | nil => exact endsAs_runs (runs_pure.mpr ⟨rfl, rfl⟩)
      | cons ptr rest =>
          have calls : called s (.expire pktcnt) = some ptr.func := by
            rw [called, batch]
            rfl
          obtain ⟨timer, pending⟩ := called_mem calls
          have popped : Models s.popExpired (table s.popExpired) := models_quiet models .popExpired (Level.quiet_le _)
          refine endsAs_bind () (runs_modify.mpr rfl) ?_
          refine callFunc_ends popped pktcnt ptr.func ?_ ?_
          · rintro mymrt same
            exact owned.grafts timer mymrt (same ▸ pending)
          · rintro entry same
            exact owned.expiries timer entry (same ▸ pending)

/-- Of every event it is known beforehand whether it stops the daemon, and how; what it does else is a step. -/
theorem faults_foretold (fitting : Fitting host) {allowed : Daemon → Event → Prop} (reached : Reachable host allowed s)
    {event : Event} (enabled : event.Enabled s) {iphdrlen : Int} (arrives : Arrives iphdrlen event) :
    (∀ fault, Fails (handleInBuffer iphdrlen host event) s fault ↔ hazard iphdrlen host s event = some fault) ∧
      ((∃ s', Runs (handleInBuffer iphdrlen host event) s () s') ↔ hazard iphdrlen host s event = none) ∧
      ∀ s', Runs (handleInBuffer iphdrlen host event) s () s' → Step host s event s' := by
  have zero := fitting.toZeroFilled
  have ends := handleInBuffer_ends zero (reachable_owned zero reached) (reachable_models zero reached) enabled arrives
  exact ⟨fun fault => ends.fails_iff, ends.completes_iff, fun s' run => ⟨enabled, handle_of_buffer run⟩⟩

/-- A Join/Prune with two groups, of which the first is no group and states 131070 sources. -/
def crowdedFrom (src upstream : Addr) : Event :=
  message .joinPrune pimJoinPrune oneSourceLength
    (fun buf => store8 (writeOneSource buf (named upstream studio studio) 0 (htons 65535) (htons 65535)) 11 2) src

/-- The second group of a message lies behind the receive buffer, and the only neighbour of an interface
falls silent. -/
theorem faults_foretold_session :
    (∃ s, Reachable router (fun _ _ => True) s ∧
      Fails (handleInBuffer sizeofIp router (crowdedFrom (stationOn 2 9) (stationOn 2 1))) s .outOfBounds) ∧
    ∃ s, Reachable router (fun _ _ => True) s ∧ Fails (handleInBuffer sizeofIp router (.expire 0)) s .uninitialised ∧
      ¬ ∃ s', Runs (handleInBuffer sizeofIp router (.expire 0)) s () s' := by
  have fitting : Fitting router := ⟨router_zeroFilled, by decide⟩
  have crowded : endsWith router (fun _ _ => True) [helloFrom (stationOn 2 9) 4] (fun s =>
      decide (hazard sizeofIp router s (crowdedFrom (stationOn 2 9) (stationOn 2 1)) = some .outOfBounds ∧
        (crowdedFrom (stationOn 2 9) (stationOn 2 1)).Enabled s)) = true := by
    decide +kernel
  have silent : endsWith router (fun _ _ => True) [helloFrom (stationOn 2 9) 4, .age 4] (fun s =>
      decide (hazard sizeofIp router s (.expire 0) = some .uninitialised ∧ (Event.expire 0).Enabled s)) = true := by
    decide +kernel
  constructor
  · obtain ⟨s, reached, ended⟩ := reachable_of_endsWith crowded
    obtain ⟨strays, enabled⟩ := of_decide_eq_true ended
    have arrives : Arrives sizeofIp (crowdedFrom (stationOn 2 9) (stationOn 2 1)) := by decide
    exact ⟨s, reached, ((faults_foretold fitting reached enabled arrives).1 _).mpr strays⟩
  · obtain ⟨s, reached, ended⟩ := reachable_of_endsWith silent
    obtain ⟨stops, enabled⟩ := of_decide_eq_true ended
    have arrives : Arrives sizeofIp (.expire 0) := trivial
    obtain ⟨faults, completes, _⟩ := faults_foretold fitting reached enabled arrives
    refine ⟨s, reached, (faults _).mpr stops, fun run => ?_⟩
    rw [completes.mp run] at stops
    cases stops

end PimDm.Property
