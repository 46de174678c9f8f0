import PimDm.Refinement.Asserts
import PimDm.Refinement.Roles
import PimDm.Refinement.Signals

/-!
# Echoes of a Prune

What `receive_join_prune` does with a message of one group and one source: it sends a
copy of the message, with a header of its own, or it sends nothing.
-/

namespace PimDm.Refinement

open PimDm.Foundation PimDm.Source PimDm.Effect

variable {s s' : Daemon} {host : Host} {data : Memory} {packet : PimPacket} {mymrt : Ptr} {e : Mrt}

/-! ## Entries that echo -/

/-- The link and the route of an entry. -/
def linkRoute (e : Mrt) : Ptr × Route := (e.next, e.toRoute)

/-- The links and routes of the routing table. -/
def routes (s : Daemon) : Ptr × Heap (Ptr × Route) := (s.themrt, s.mrts.map linkRoute)

theorem routes_quiet (update : Update) (quiet : update.level ≤ .quiet) (s : Daemon) :
    routes (update.apply s) = routes s := by
  cases update with
  | clearTimer timer =>
      unfold routes
      rw [Update.apply, clearTimer_themrt, clearTimer_mrts]
  | field mymrt store =>
      have same : ∀ e, linkRoute (store.write e) = linkRoute e := fun e =>
        Prod.ext (Field.quiet_write store quiet e).1 (Field.quiet_write store quiet e).2
      unfold routes Update.apply Daemon.setMrt
      rw [Heap.map_modify_same s.mrts mymrt same]
  | sendBuf | send | query | callDelLeaf | setTimer | age | popExpired | packetNumber | virtualTime | querier
  | leavePhase | holdtime | neighborTimer => rfl
  | _ => exact absurd quiet (by simp only [Update.level]; decide)

/-- `find_sg` finds an entry whose source is behind another router. -/
def Relayed (s : Daemon) (source group : Addr) : Prop :=
  slot (fun e => if e.upstream = e.source then 0 else 1) s source group = some 1

instance (s : Daemon) (source group : Addr) : Decidable (Relayed s source group) :=
  inferInstanceAs (Decidable (_ = _))

theorem relayed_found {source group : Addr} (found : Finds s source group mymrt)
    (here : s.mrts.get? mymrt = some e) : Relayed s source group ↔ e.upstream ≠ e.source := by
  unfold Relayed
  rw [slot_found found, here, Option.map_some]
  split
  · rename_i same
    simp [same]
  · rename_i other
    simp [other]

theorem Relayed.found {source group : Addr} (relayed : Relayed s source group) :
    ∃ mymrt e, Finds s source group mymrt ∧ mymrt ≠ 0 ∧ s.mrts.get? mymrt = some e ∧ e.upstream ≠ e.source := by
  have inside : InTable s source group := by
    unfold Relayed slot at relayed
    unfold InTable slot
    split at relayed
    · obtain ⟨e, here, _⟩ := Option.map_eq_some_iff.mp relayed
      rw [here]
      rfl
    · cases relayed
  obtain ⟨mymrt, e, found, nonnull, here⟩ := inside.found
  exact ⟨mymrt, e, found, nonnull, here, (relayed_found found here).mp relayed⟩

/-- A slot whose content is read from the route is known from the routes. -/
theorem slot_routes (content : Route → Int) (s : Daemon) (source group : Addr) :
    slot (fun e => content e.toRoute) s source group =
      match (routes s).2.find Prod.fst (fun key => key.2.source == source && key.2.group == group)
        ((routes s).2.size + 1) (routes s).1 with
      | .ok mymrt => ((routes s).2.get? mymrt).map fun key => content key.2
      | .error _ => none := by
  have found : (s.mrts.map linkRoute).find Prod.fst (fun key => key.2.source == source && key.2.group == group)
      (s.mrts.size + 1) s.themrt = s.mrts.find Mrt.next (Mrt.isFor source group) (s.mrts.size + 1) s.themrt :=
    Heap.find_map (fun _ => rfl) (fun _ => rfl) _ _ _
  unfold slot routes
  rw [Heap.size_map, found]
  simp only [Heap.get?_map, Option.map_map]
  rfl

theorem relayed_congr (same : routes s' = routes s) (source group : Addr) :
    Relayed s' source group ↔ Relayed s source group := by
  have known (state : Daemon) := slot_routes (fun r => if r.upstream = r.source then 0 else 1) state source group
  unfold Relayed
  rw [known s', known s, same]

/-! ## Programs that send nothing -/

/-- Whenever the program completes, nothing has been sent. -/
abbrev Silent {α : Type} (program : Act α) : Prop := Within (fun s s' : Daemon => s'.trace = s.trace) program

section Silent

variable {α β : Type}

theorem silent_bind {first : Act α} {rest : α → Act β} (head : Silent first)
    (tail : ∀ value, Silent (rest value)) : Silent (first >>= rest) :=
  within_bind (steady_same Daemon.trace) head tail

theorem silent_pure (value : α) : Silent (pure value) := within_pure (steady_same Daemon.trace) value

theorem silent_onlyIf {condition : Prop} [Decidable condition] {program : Act Unit} (inside : Silent program) :
    Silent (onlyIf condition program) :=
  within_onlyIf (steady_same Daemon.trace) fun _ => inside

theorem silent_loadMrt (mymrt : Ptr) : Silent (loadMrt mymrt) := by
  intro s value s' run
  rw [(runs_loadMrt.mp run).2]

theorem silent_findSg (source group : Addr) : Silent (findSg source group) := by
  intro s value s' run
  rw [(runs_findMrt.mp run).2]

theorem silent_storeMrt (mymrt : Ptr) (function : Mrt → Mrt) : Silent (storeMrt mymrt function) := by
  intro s value s' run
  obtain ⟨_, rfl⟩ := runs_storeMrt.mp run
  rfl

theorem silent_timerClearTimer (timer : Int) : Silent (timerClearTimer timer) := by
  intro s value s' run
  rw [runs_timerClearTimer.mp run, clearTimer_trace]

theorem silent_timerSetTimer (delay : Int) (action : Callback) : Silent (timerSetTimer delay action) := by
  intro s value s' run
  rw [(runs_timerSetTimer.mp run).2]
  rfl

theorem silent_overheardJoin (all : Int) (source : Addr) (mymrt : Ptr) : Silent (overheardJoin all source mymrt) := by
  refine silent_bind (silent_loadMrt mymrt) fun e => silent_bind (silent_onlyIf ?_) fun _ => silent_pure _
  exact silent_bind (silent_timerClearTimer _) fun _ => silent_storeMrt _ _

theorem silent_overheardPrune (upstream : Addr) (all : Int) (source : Addr) (mymrt : Ptr) :
    Silent (overheardPrune upstream all source mymrt) := by
  refine silent_bind (silent_loadMrt mymrt) fun e => within_ite (fun _ => ?_) fun _ => silent_pure _
  refine silent_bind (silent_onlyIf ?_) fun _ => silent_pure _
  refine silent_bind (silent_loadMrt mymrt) fun e => ?_
  exact silent_bind (silent_timerSetTimer _ _) fun _ => silent_storeMrt _ _

theorem silent_addressedJoin (vif : Vif) (all : Int) (source : Addr) (mymrt : Ptr) :
    Silent (addressedJoin vif all source mymrt) := by
  refine silent_bind (silent_bind (silent_loadMrt mymrt) fun e => silent_onlyIf ?_) fun _ => silent_pure _
  exact silent_bind (silent_timerClearTimer _) fun _ => silent_storeMrt _ _

theorem silent_eachSource {action : Addr → Ptr → Act Int} (inside : ∀ source mymrt, Silent (action source mymrt))
    (data : Memory) (group : Addr) (mydata : Int) : Silent (eachSource data group action mydata) := by
  refine within_ite (fun _ => silent_pure _) fun _ => silent_bind (silent_findSg _ _) fun mymrt => ?_
  exact within_ite (fun _ => silent_pure _) fun _ => silent_bind (inside _ _) fun _ => silent_pure _

theorem silent_eachGroup {joinAction pruneAction : Int → Addr → Ptr → Act Int} {mydata : Int}
    (joins : ∀ all source mymrt, Silent (joinAction all source mymrt))
    (prunes : (ntohs (readGroupHeader data mydata).pruneField).toNat ≠ 0 →
      ∀ all source mymrt, Silent (pruneAction all source mymrt)) :
    Silent (eachGroup data joinAction pruneAction mydata) := by
  refine within_ite (fun _ => silent_pure _) fun _ => silent_bind ?_ fun cursor => ?_
  · exact within_times (steady_same Daemon.trace) (fun cursor => silent_eachSource (joins _) data _ cursor) _ _
  · by_cases none : (ntohs (readGroupHeader data mydata).pruneField).toNat = 0
    · rw [none]
      exact silent_pure _
    · exact within_times (steady_same Daemon.trace)
        (fun cursor => silent_eachSource (prunes none _) data _ cursor) _ _

end Silent

/-! ## The message -/

/-- The group that a message names. -/
def namedGroup (data : Memory) : Addr := (readGroupHeader data groupsStart).group

/-- The source that a message names. -/
def namedSource (data : Memory) : Addr := load32 data (groupsStart + 12 + 4)

/-- How many sources the first group of a message joins. -/
def joinCount (data : Memory) : Nat := (ntohs (readGroupHeader data groupsStart).joinField).toNat

/-- How many sources the first group of a message prunes. -/
def pruneCount (data : Memory) : Nat := (ntohs (readGroupHeader data groupsStart).pruneField).toNat

/-- A Join/Prune with one group and one source, as long as an IP packet carries it. -/
structure OneSource (packet : PimPacket) : Prop where
  groups : (readJoinPruneHeader (received packet)).numGroups = 1
  sources : joinCount (received packet) + pruneCount (received packet) = 1
  whole : sizeofPim + oneSourceLength ≤ packet.bytes.length
  short : packet.bytes.length ≤ 65515

/-- The message passes the checksum and prunes a source that can be looked up. -/
structure Prunes (packet : PimPacket) : Prop where
  correct : inetCksum (received packet) packet.bytes.length = 0
  pruned : pruneCount (received packet) = 1
  multicast : inMulticast (ntohl (namedGroup (received packet))) = true
  valid : inetValidHost (namedSource (received packet)) = true

/-- The router address that a message carries. -/
def upstreamOf (packet : PimPacket) : Addr := (readJoinPruneHeader (received packet)).upstream

/-- The receiver takes the message as addressed to it. -/
def Addressed (host : Host) (packet : PimPacket) : Prop :=
  upstreamOf packet = (host.iface (findVifDirect host packet.src)).address ∨ upstreamOf packet = 0

/-- A router in this state echoes the message. -/
structure Echoes (host : Host) (s : Daemon) (packet : PimPacket) : Prop where
  prunes : Prunes packet
  direct : findVifDirect host packet.src ≠ 0
  addressed : Addressed host packet
  relayed : Relayed s (namedSource (received packet)) (namedGroup (received packet))

/-- The send buffer with the echo of a message. -/
def echoed (packet : PimPacket) (buf : Memory) : Memory :=
  writePimHeader (bcopy (received packet) buf 0 packet.bytes.length) pimJoinPrune (packet.bytes.length - sizeofPim)

/-- The echo of a message when the send buffer holds `buf`. -/
def echo (host : Host) (buf : Memory) (packet : PimPacket) : PimPacket :=
  ⟨pimJoinPrune, (host.iface (findVifDirect host packet.src)).address, allpimrouters,
    (List.range packet.bytes.length).map fun place : Nat => echoed packet buf place⟩

section Echo

variable {buf : Memory}

theorem echo_length : (echo host buf packet).bytes.length = packet.bytes.length := by simp [echo]

theorem received_echo {place : Int} (low : 0 ≤ place) (high : place < packet.bytes.length) :
    received (echo host buf packet) place = echoed packet buf place := by
  obtain ⟨index, rfl⟩ := Int.eq_ofNat_of_zero_le low
  have inside : index < packet.bytes.length := by omega
  simp [received, echo, List.getD, inside]

/-- Behind its header the echo is the message. -/
theorem received_echo_body {place : Int} (body : 4 ≤ place) :
    received (echo host buf packet) place = received packet place := by
  by_cases high : place < packet.bytes.length
  · have copied : 0 ≤ place ∧ place < 0 + (packet.bytes.length : Int) := by omega
    rw [received_echo (by omega) high]
    unfold echoed writePimHeader
    rw [store16_apart _ _ (by omega), store16_apart _ _ (by omega), store8_apart _ _ (by omega), bcopy,
      if_pos copied, Int.sub_zero]
  · have beyond : packet.bytes.length ≤ place.toNat := by omega
    have also : (echo host buf packet).bytes.length ≤ place.toNat := by
      rw [echo_length]
      exact beyond
    unfold received
    rw [List.getD, List.getD, List.getElem?_eq_none beyond, List.getElem?_eq_none also]

theorem readJoinPruneHeader_echo :
    readJoinPruneHeader (received (echo host buf packet)) = readJoinPruneHeader (received packet) := by
  unfold readJoinPruneHeader
  rw [load32_congr fun place low _ => received_echo_body (le_trans (by decide) low),
    received_echo_body (by decide), load16_congr fun place low _ => received_echo_body (le_trans (by decide) low)]

theorem readGroupHeader_echo : readGroupHeader (received (echo host buf packet)) groupsStart =
    readGroupHeader (received packet) groupsStart := by
  unfold readGroupHeader
  rw [load32_congr fun place low _ => received_echo_body (le_trans (by decide) low),
    load16_congr fun place low _ => received_echo_body (le_trans (by decide) low),
    load16_congr fun place low _ => received_echo_body (le_trans (by decide) low)]

theorem namedSource_echo : namedSource (received (echo host buf packet)) = namedSource (received packet) :=
  load32_congr fun place low _ => received_echo_body (le_trans (by decide) low)

theorem namedGroup_echo : namedGroup (received (echo host buf packet)) = namedGroup (received packet) :=
  congrArg GroupHeader.group readGroupHeader_echo

theorem pruneCount_echo : pruneCount (received (echo host buf packet)) = pruneCount (received packet) := by
  unfold pruneCount
  rw [readGroupHeader_echo]

theorem upstreamOf_echo : upstreamOf (echo host buf packet) = upstreamOf packet :=
  congrArg JoinPruneHeader.upstream readJoinPruneHeader_echo

/-- The echo is a message of one group and one source as well. -/
theorem OneSource.echo (one : OneSource packet) : OneSource (echo host buf packet) where
  groups := by
    rw [readJoinPruneHeader_echo]
    exact one.groups
  sources := by
    have joins : joinCount (received (Refinement.echo host buf packet)) = joinCount (received packet) := by
      unfold joinCount
      rw [readGroupHeader_echo]
    rw [joins, pruneCount_echo]
    exact one.sources
  whole := by
    rw [echo_length]
    exact one.whole
  short := by
    rw [echo_length]
    exact one.short

theorem cksum_echo (one : OneSource packet) :
    inetCksum (received (echo host buf packet)) (echo host buf packet).bytes.length = 0 := by
  have whole := one.whole
  have short := one.short
  have positive : 0 ≤ (packet.bytes.length : Int) - sizeofPim := by
    simp only [sizeofPim, oneSourceLength] at whole ⊢
    omega
  have total : sizeofPim + ((packet.bytes.length : Int) - sizeofPim) = packet.bytes.length := by omega
  have written := inetCksum_written (bcopy (received packet) buf 0 packet.bytes.length) pimJoinPrune positive
    (by omega)
  rw [total] at written
  rw [echo_length]
  refine Eq.trans ?_ written
  exact inetCksum_congr fun place low high => received_echo low high

theorem prunes_echo (one : OneSource packet) (prunes : Prunes packet) : Prunes (echo host buf packet) where
  correct := cksum_echo one
  pruned := pruneCount_echo.trans prunes.pruned
  multicast := by
    rw [namedGroup_echo]
    exact prunes.multicast
  valid := by
    rw [namedSource_echo]
    exact prunes.valid

end Echo

/-! ## The receiver -/

/-- A Prune addressed to us of an entry that is relayed is echoed. -/
theorem addressedPrune_echoes (here : s.mrts.get? mymrt = some e) (relayed : e.upstream ≠ e.source) (all : Int)
    (source : Addr) (holdtime : Int) : ∃ s',
    Runs (addressedPrune host (findVifDirect host packet.src) (received packet) packet.bytes.length holdtime all
      source mymrt) s (all * sizeofSource) s' ∧ s'.trace = .pim (echo host s.pimSendBuf packet) 0 :: s.trace := by
  obtain ⟨sent, send, trace, kept⟩ : ∃ sent, Runs (pimdmOutput (host.iface (findVifDirect host packet.src)).address
      allpimrouters pimJoinPrune (packet.bytes.length - sizeofPim) 0)
      (s.writeBuf fun buf => bcopy (received packet) buf 0 packet.bytes.length) () sent ∧
        sent.trace = .pim (echo host s.pimSendBuf packet) 0 :: s.trace ∧ sent.mrts = s.mrts := by
    refine ⟨_, runs_pimdmOutput.mpr rfl, ?_, rfl⟩
    have total : (sizeofPim + ((packet.bytes.length : Int) - sizeofPim)).toNat = packet.bytes.length := by omega
    rw [total]
    rfl
  rw [← kept] at here
  obtain ⟨s', schedule, same⟩ : ∃ s', Runs (schedulePrune mymrt (findVifDirect host packet.src) holdtime) sent () s' ∧
      s'.trace = sent.trace := by
    refine ⟨(sent.setTimer pimPruneDelay (.setPrune ⟨e.source, e.group, e.upstream, findVifDirect host packet.src,
      holdtime⟩)).setMrt mymrt (Mrt.setPruneDelayTimer (findVifDirect host packet.src) (sent.id + 1)), ?_, rfl⟩
    simp [schedulePrune, here, Daemon.setTimer]
  refine ⟨s', runs_bind.mpr ⟨e, s, runs_loadMrt.mpr ⟨kept ▸ here, rfl⟩, ?_⟩, same.trans trace⟩
  refine runs_bind.mpr ⟨(), s', runs_onlyIf.mpr (Or.inl ⟨relayed, ?_⟩), runs_pure.mpr ⟨rfl, rfl⟩⟩
  exact runs_bind.mpr ⟨(), _, runs_modify.mpr rfl, runs_bind.mpr ⟨(), sent, send, schedule⟩⟩

/-- A group with one pruned source is one round over it. -/
theorem eachGroup_pruned {joinAction pruneAction : Int → Addr → Ptr → Act Int} {next : Int}
    (joined : joinCount data = 0) (pruned : pruneCount data = 1)
    (multicast : inMulticast (ntohl (namedGroup data)) = true) :
    Runs (eachGroup data joinAction pruneAction groupsStart) s next s' ↔
      Runs (eachSource data (namedGroup data) (pruneAction (joinCount data + pruneCount data)) (groupsStart + 12))
        s next s' := by
  have group : ¬ inMulticast (ntohl (readGroupHeader data groupsStart).group) = false := by
    rw [show inMulticast (ntohl (readGroupHeader data groupsStart).group) = true from multicast]
    decide
  have joins : (ntohs (readGroupHeader data groupsStart).joinField).toNat = 0 := joined
  have prunes : (ntohs (readGroupHeader data groupsStart).pruneField).toNat = 1 := pruned
  unfold eachGroup
  dsimp only
  rw [if_neg group, joins, prunes, joined, pruned]
  constructor
  · intro run
    obtain ⟨_, _, none, some⟩ := runs_bind.mp run
    obtain ⟨rfl, rfl⟩ := runs_pure.mp none
    exact runs_times_one.mp some
  · intro run
    exact runs_bind.mpr ⟨groupsStart + 12, s, runs_pure.mpr ⟨rfl, rfl⟩, runs_times_one.mpr run⟩

/-- A router that echoes a message sends its echo and nothing else. -/
theorem receiveJoinPrune_echoes (one : OneSource packet) (echoes : Echoes host s packet) : ∃ s',
    Runs (receiveJoinPrune host packet.src (received packet) packet.bytes.length) s () s' ∧
      s'.trace = .pim (echo host s.pimSendBuf packet) 0 :: s.trace := by
  obtain ⟨⟨correct, pruned, multicast, valid⟩, direct, addressed, relayed⟩ := echoes
  obtain ⟨mymrt, e, found, nonnull, here, behind⟩ := relayed.found
  have joined : joinCount (received packet) = 0 := by
    have sources := one.sources
    omega
  have some : ¬ (true = false ∨ (readJoinPruneHeader (received packet)).numGroups = 0) := by
    rw [one.groups]
    decide
  have ours : ¬ ((readJoinPruneHeader (received packet)).upstream ≠
      (host.iface (findVifDirect host packet.src)).address ∧
        (readJoinPruneHeader (received packet)).upstream ≠ 0) := by
    rintro ⟨other, given⟩
    exact addressed.elim other given
  obtain ⟨s', prune, trace⟩ := addressedPrune_echoes here behind
    (joinCount (received packet) + pruneCount (received packet)) (namedSource (received packet))
    (readJoinPruneHeader (received packet)).holdtime
  refine ⟨s', ?_, trace⟩
  unfold receiveJoinPrune
  dsimp only
  rw [if_neg direct]
  refine runs_bind.mpr ⟨true, s, validPacket_accepts correct direct, ?_⟩
  rw [if_neg some, if_neg ours, one.groups]
  have round := eachSource_acts rfl valid found nonnull prune
  have group : Runs (eachGroup (received packet) (addressedJoin
    (findVifDirect host packet.src)) _ groupsStart) s _ s' :=
    (eachGroup_pruned joined pruned multicast).mpr round
  exact runs_bind.mpr ⟨_, s', runs_times_one.mpr group, runs_pure.mpr ⟨rfl, rfl⟩⟩

/-- A router that does not echo a message sends nothing. -/
theorem receiveJoinPrune_silent (one : OneSource packet) (silent : ¬ Echoes host s packet)
    (run : Runs (receiveJoinPrune host packet.src (received packet) packet.bytes.length) s () s') :
    s'.trace = s.trace := by
  rcases runs_ite.mp run with ⟨_, stop⟩ | ⟨direct, checking⟩
  · rw [(runs_pure.mp stop).2]
  obtain ⟨valid, _, check, reading⟩ := runs_bind.mp checking
  obtain ⟨rfl, correct, _⟩ := runs_validPacket check
  rcases runs_ite.mp reading with ⟨_, stop⟩ | ⟨_, branches⟩
  · rw [(runs_pure.mp stop).2]
  rcases runs_ite.mp branches with ⟨_, overheard⟩ | ⟨ours, addressed⟩
  · refine silent_bind ?_ (fun neighbor => silent_onlyIf (silent_bind ?_ fun _ => silent_pure ())) _ _ _ overheard
    · intro s value s' run
      rw [findneighbor, runs_get_bind, runs_liftHeap] at run
      rw [run.2]
    · refine within_times (steady_same Daemon.trace) (fun mydata => ?_) _ _
      exact silent_eachGroup silent_overheardJoin fun _ => silent_overheardPrune _
  rw [one.groups] at addressed
  obtain ⟨_, _, groups, stop⟩ := runs_bind.mp addressed
  obtain ⟨_, rfl⟩ := runs_pure.mp stop
  have group := runs_times_one.mp groups
  by_cases pruned : pruneCount (received packet) = 0
  · exact silent_eachGroup (silent_addressedJoin _) (fun some => absurd pruned some) _ _ _ group
  have sources := one.sources
  have joined : joinCount (received packet) = 0 := by omega
  have pruned : pruneCount (received packet) = 1 := by omega
  by_cases multicast : inMulticast (ntohl (namedGroup (received packet))) = true
  · have round := (eachGroup_pruned joined pruned multicast).mp group
    rcases runs_ite.mp round with ⟨_, stop⟩ | ⟨usable, search⟩
    · rw [(runs_pure.mp stop).2]
    obtain ⟨mymrt, _, looked, rest⟩ := runs_bind.mp search
    obtain ⟨found, rfl⟩ := runs_findMrt.mp looked
    rcases runs_ite.mp rest with ⟨_, stop⟩ | ⟨_, act⟩
    · rw [(runs_pure.mp stop).2]
    obtain ⟨_, _, prune, stop⟩ := runs_bind.mp act
    obtain ⟨_, rfl⟩ := runs_pure.mp stop
    obtain ⟨e, _, load, sending⟩ := runs_bind.mp prune
    obtain ⟨here, rfl⟩ := runs_loadMrt.mp load
    obtain ⟨_, _, send, stop⟩ := runs_bind.mp sending
    obtain ⟨_, rfl⟩ := runs_pure.mp stop
    rcases runs_onlyIf.mp send with ⟨behind, _⟩ | ⟨_, rfl⟩
    · have addressed : Addressed host packet := by
        by_contra other
        exact ours (not_or.mp other)
      refine (silent ⟨⟨correct, pruned, multicast, ?_⟩, direct, addressed, ?_⟩).elim
      · exact Bool.eq_true_of_not_eq_false usable
      · exact (relayed_found found here).mpr behind
    · rfl
  · rcases runs_ite.mp group with ⟨_, stop⟩ | ⟨is_multicast, _⟩
    · rw [(runs_pure.mp stop).2]
    · exact absurd (Bool.eq_true_of_not_eq_false is_multicast) multicast

/-- Receiving a Join/Prune keeps the routes. -/
theorem receiveJoinPrune_routes {src : Addr} {length : Int}
    (run : Runs (receiveJoinPrune host src data length) s () s') : routes s' = routes s := by
  have changes : Within (Changes .quiet Anything) (receiveJoinPrune host src data length) :=
    receiveJoinPrune_changes (fun _ => trivial) host (fun _ _ _ _ => trivial) length
  exact within_of_does changes (steady_same routes)
    (fun update state inside => routes_quiet update inside.1 state) s () s' run

/-- An echo is echoed only if the message carries no router address: a router address
in it is the sender's own, and no neighbour has the receiver's. -/
theorem echoes_echo_iff {sender : Host} {before : Daemon} {buf : Memory} (one : OneSource packet)
    (echoes : Echoes sender before packet) : Echoes host s (echo sender buf packet) ↔
      upstreamOf packet = 0 ∧ findVifDirect host (sender.iface (findVifDirect sender packet.src)).address ≠ 0 ∧
        Relayed s (namedSource (received packet)) (namedGroup (received packet)) := by
  constructor
  · rintro ⟨_, direct, addressed, relayed⟩
    rw [namedSource_echo, namedGroup_echo] at relayed
    refine ⟨?_, direct, relayed⟩
    rcases echoes.addressed with sent | none
    · rcases addressed with own | none
      · rw [upstreamOf_echo, sent] at own
        exact absurd own.symm (findVifDirect_other direct)
      · rw [← none, upstreamOf_echo]
    · exact none
  · rintro ⟨none, direct, relayed⟩
    refine ⟨prunes_echo one echoes.prunes, direct, Or.inr ?_, ?_⟩
    · rw [upstreamOf_echo]
      exact none
    · rw [namedSource_echo, namedGroup_echo]
      exact relayed

end PimDm.Refinement
