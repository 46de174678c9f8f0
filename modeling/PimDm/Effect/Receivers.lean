import PimDm.Effect.Handlers

/-!
# The updates of the receivers and timers

The rest of `pim.c`, `igmp.c` and `multicastpacket.c`, and from them every event
of the daemon.
-/

namespace PimDm.Effect

open PimDm.Foundation PimDm.Source

variable {P : Level → (Callback → Prop) → Update → Prop} {level : Level} {A : Callback → Prop}

/-! ## `pim.c`: neighbours -/

theorem validPacket_changes (host : Host) (src : Addr) (packet : Memory) (length : Int) :
    Within (Does Update.apply (P level A)) (validPacket host src packet length) := by
  refine within_ite (fun _ => within_throw _) fun _ => ?_
  exact within_ite (fun _ => does_pure _) fun _ => does_pure _

variable [CoversBeside P]

theorem storeNeighborNext_changes (may : Level.lists ≤ level) (entry next : Ptr) :
    Within (Does Update.apply (P level A)) (storeNeighbor entry fun n => { n with next := next }) :=
  does_bind (loadNeighbor_changes entry) fun _ =>
    does_modify (.neighborNext entry next) (coversBeside _ may trivial trivial trivial) fun _ => rfl

theorem unlinkNeighbor_changes (may : Level.lists ≤ level) (vif : Vif) (address : Addr)
    (temp : Option Ptr) (pimneighbor : Ptr) :
    Within (Does Update.apply (P level A)) (unlinkNeighbor vif address temp pimneighbor) := by
  refine does_bind (loadNeighbor_changes _) fun entry => does_bind does_get fun state => ?_
  refine does_bind (loadNeighbor_changes _) fun head => does_bind (does_onlyIf fun _ => ?_) fun _ => ?_
  · exact does_modify (.neighborHead vif 0) (coversBeside _ may trivial trivial trivial) fun _ => rfl
  · cases temp with
    | none => exact within_throw _
    | some temp => exact storeNeighborNext_changes may temp entry.next

theorem deletePimNeighbor_changes (may : Level.lists ≤ level) (graft : ∀ mymrt, A (.planGraft mymrt))
    (host : Host) (arg : Ptr) : Within (Does Update.apply (P level A)) (deletePimNeighbor host arg) := by
  have lower : Level.forwarding ≤ level := Level.le_trans (by decide) may
  refine does_bind (loadNeighbor_changes arg) fun myentry => ?_
  refine within_ite (fun _ => does_pure ()) fun _ => ?_
  refine does_bind (findNeighborTrailing_changes _ _) fun found => ?_
  refine does_bind (does_onlyIf fun _ => unlinkNeighbor_changes may _ _ _ _) fun _ => ?_
  exact refreshMrt_changes lower graft host _ .delNeighbor

theorem addPimNeighbor_changes (may : Level.lists ≤ level) (graft : ∀ mymrt, A (.planGraft mymrt))
    (expiry : ∀ entry, A (.deletePimNeighbor entry)) (host : Host) (src : Addr) (holdtime : Int)
    (vif : Vif) : Within (Does Update.apply (P level A)) (addPimNeighbor host src holdtime vif) := by
  have lower : Level.forwarding ≤ level := Level.le_trans (by decide) may
  refine does_bind does_get fun state => ?_
  refine does_bind (timerSetTimer_changes _ (expiry _)) fun timeoutid => does_bind ?_ fun _ => ?_
  · intro start value final run
    rw [runs_modify.mp run]
    exact .single ⟨.linkNeighbor vif _, coversBeside _ may trivial trivial trivial, rfl⟩
  · exact refreshMrt_changes lower graft host vif .addNeighbor

theorem refreshNeighbor_changes (expiry : ∀ entry, A (.deletePimNeighbor entry)) (pimneighbor : Ptr)
    (holdtime : Int) : Within (Does Update.apply (P level A)) (refreshNeighbor pimneighbor holdtime) := by
  refine does_bind (does_bind (loadNeighbor_changes _) fun _ => ?_) fun _ => ?_
  · exact does_modify (.holdtime pimneighbor holdtime) (coversBeside _ level.quiet_le trivial trivial trivial)
      fun _ => rfl
  refine does_bind (loadNeighbor_changes _) fun entry => ?_
  refine does_bind (does_onlyIf fun _ => timerClearTimer_changes _) fun _ => ?_
  refine does_bind (timerSetTimer_changes _ (expiry pimneighbor)) fun timeoutid => ?_
  refine does_bind (loadNeighbor_changes _) fun _ => ?_
  exact does_modify (.neighborTimer pimneighbor timeoutid) (coversBeside _ level.quiet_le trivial trivial trivial)
    fun _ => rfl

theorem receiveHello_changes (may : Level.lists ≤ level) (graft : ∀ mymrt, A (.planGraft mymrt))
    (expiry : ∀ entry, A (.deletePimNeighbor entry)) (host : Host) (src : Addr) (data : Memory)
    (length : Int) : Within (Does Update.apply (P level A)) (receiveHello host src data length) := by
  refine does_bind (validPacket_changes host src data length) fun valid =>
    within_ite (fun _ => does_pure ()) fun _ => ?_
  refine does_bind (liftHeap_changes _) fun holdtime => ?_
  refine does_bind (findneighbor_changes _ _) fun pimneighbor => ?_
  refine within_ite (fun _ => within_ite (fun _ => ?_) fun _ => ?_) fun _ => ?_
  · exact deletePimNeighbor_changes may graft host pimneighbor
  · exact refreshNeighbor_changes expiry pimneighbor holdtime
  · exact addPimNeighbor_changes may graft expiry host src holdtime _

/-! ## `pim.c`: joins and prunes -/

theorem sendJoin_changes (host : Host) (joindata : PimJoinData) :
    Within (Does Update.apply (P level A)) (sendJoin host joindata) := by
  refine does_bind (findSg_changes _ _) fun mymrt => within_ite (fun _ => does_pure ()) fun _ => ?_
  refine does_bind (loadMrt_changes mymrt) fun e => does_bind (timerClearTimer_changes _) fun _ => ?_
  refine does_bind ?_ fun _ => pimJoinPruneOutput_changes host mymrt _ _
  exact storeField_changes mymrt (.joinDelayTimer 0) level.quiet_le (fun _ => rfl) trivial

theorem pruneTimeOut_changes (may : Level.forwarding ≤ level)
    (graft : ∀ mymrt, A (.planGraft mymrt)) (host : Host) (prunedata : PimPruneData) :
    Within (Does Update.apply (P level A)) (pruneTimeOut host prunedata) := by
  refine does_bind (findSg_changes _ _) fun mymrt => within_ite (fun _ => does_pure ()) fun _ => ?_
  refine does_bind ?_ fun _ => does_bind (putOutvif_changes may mymrt prunedata.vif 1) fun _ => ?_
  · exact storeField_changes mymrt (.pruneTimer prunedata.vif 0) level.quiet_le (fun _ => rfl) trivial
  refine does_bind (loadMrt_changes mymrt) fun e => ?_
  refine does_bind (changeMfc_changes may host _ _ _) fun _ => ?_
  exact does_bind (checkPimState_changes graft host .addLeaf) fun _ => printSg_changes

theorem setPrune_changes (may : Level.forwarding ≤ level) (graft : ∀ mymrt, A (.planGraft mymrt))
    (host : Host) (prunedata : PimPruneData) (expiry : A (.pruneTimeOut prunedata)) :
    Within (Does Update.apply (P level A)) (setPrune host prunedata) := by
  refine does_bind (findSg_changes _ _) fun mymrt => within_ite (fun _ => does_pure ()) fun _ => ?_
  refine does_bind ?_ fun _ => does_bind (putOutvif_changes may mymrt prunedata.vif 0) fun _ => ?_
  · exact storeField_changes mymrt (.pruneDelayTimer prunedata.vif 0) level.quiet_le (fun _ => rfl) trivial
  refine does_bind (loadMrt_changes mymrt) fun e => ?_
  refine does_bind (changeMfc_changes may host _ _ _) fun _ => ?_
  refine does_bind (checkPimState_changes graft host .delLeaf) fun _ => ?_
  refine does_bind (timerSetTimer_changes _ expiry) fun timer => ?_
  exact storeField_changes mymrt (.pruneTimer prunedata.vif timer) level.quiet_le (fun _ => rfl) trivial

theorem scheduleJoin_changes (join : ∀ data, A (.sendJoin data)) (mymrt : Ptr) (dst : Addr) :
    Within (Does Update.apply (P level A)) (scheduleJoin mymrt dst) := by
  refine does_bind (loadMrt_changes mymrt) fun e => ?_
  refine does_bind (timerSetTimer_changes _ (join _)) fun timer => ?_
  exact storeField_changes mymrt (.joinDelayTimer timer) level.quiet_le (fun _ => rfl) trivial

theorem schedulePrune_changes {vif : Vif} (prune : ∀ data, data.vif = vif → A (.setPrune data))
    (mymrt : Ptr) (holdtime : Int) : Within (Does Update.apply (P level A)) (schedulePrune mymrt vif holdtime) := by
  refine does_bind (loadMrt_changes mymrt) fun e => ?_
  refine does_bind (timerSetTimer_changes _ (prune _ rfl)) fun timer => ?_
  exact storeField_changes mymrt (.pruneDelayTimer vif timer) level.quiet_le (fun _ => rfl) trivial

theorem cancelPruneDelay_changes (mymrt : Ptr) (vif : Vif) :
    Within (Does Update.apply (P level A)) (cancelPruneDelay mymrt vif) := by
  refine does_bind (loadMrt_changes mymrt) fun e => does_onlyIf fun _ => ?_
  refine does_bind (timerClearTimer_changes _) fun _ => ?_
  exact storeField_changes mymrt (.pruneDelayTimer vif 0) level.quiet_le (fun _ => rfl) trivial

omit [CoversBeside P] in
theorem eachSource_changes {data : Memory} {group : Addr} {action : Addr → Ptr → Act Int}
    (inside : ∀ source mymrt, Within (Does Update.apply (P level A)) (action source mymrt)) (mydata : Int) :
    Within (Does Update.apply (P level A)) (eachSource data group action mydata) := by
  unfold eachSource
  refine within_ite (fun _ => does_pure _) fun _ => does_bind (findSg_changes _ _) fun mymrt => ?_
  exact within_ite (fun _ => does_pure _) fun _ => does_bind (inside _ _) fun _ => does_pure _

theorem overheardJoin_changes (all : Int) (source : Addr) (mymrt : Ptr) :
    Within (Does Update.apply (P level A)) (overheardJoin all source mymrt) := by
  refine does_bind (loadMrt_changes mymrt) fun e => does_bind (does_onlyIf fun _ => ?_) fun _ => does_pure _
  refine does_bind (timerClearTimer_changes _) fun _ => ?_
  exact storeField_changes mymrt (.joinDelayTimer 0) level.quiet_le (fun _ => rfl) trivial

theorem overheardPrune_changes (join : ∀ data, A (.sendJoin data)) (upstream : Addr) (all : Int)
    (source : Addr) (mymrt : Ptr) :
    Within (Does Update.apply (P level A)) (overheardPrune upstream all source mymrt) := by
  refine does_bind (loadMrt_changes mymrt) fun e => within_ite (fun _ => ?_) fun _ => does_pure _
  exact does_bind (does_onlyIf fun _ => scheduleJoin_changes join mymrt upstream) fun _ => does_pure _

theorem addressedJoin_changes (vif : Vif) (all : Int) (source : Addr) (mymrt : Ptr) :
    Within (Does Update.apply (P level A)) (addressedJoin vif all source mymrt) :=
  does_bind (cancelPruneDelay_changes mymrt vif) fun _ => does_pure _

theorem addressedPrune_changes {vif : Vif} (prune : ∀ data, data.vif = vif → A (.setPrune data))
    (host : Host) (data : Memory) (length holdtime all : Int) (source : Addr) (mymrt : Ptr) :
    Within (Does Update.apply (P level A)) (addressedPrune host vif data length holdtime all source mymrt) := by
  refine does_bind (loadMrt_changes mymrt) fun e => does_bind (does_onlyIf fun _ => ?_) fun _ => does_pure _
  refine does_bind (writeSendBuf_changes _) fun _ => ?_
  refine does_bind (pimdmOutput_plain (by decide) _ _ _ _) fun _ => ?_
  exact schedulePrune_changes prune mymrt holdtime

omit [CoversBeside P] in
theorem eachGroup_changes {data : Memory} {joinAction pruneAction : Int → Addr → Ptr → Act Int}
    {mydata : Int} (joins : ∀ all source mymrt, Within (Does Update.apply (P level A)) (joinAction all source mymrt))
    (prunes : (readGroupHeader data mydata).pruneField ≠ 0 →
      ∀ all source mymrt, Within (Does Update.apply (P level A)) (pruneAction all source mymrt)) :
    Within (Does Update.apply (P level A)) (eachGroup data joinAction pruneAction mydata) := by
  refine within_ite (fun _ => does_pure _) fun _ => ?_
  refine does_bind (does_times (fun mydata => eachSource_changes (joins _) mydata) _ _) fun _ => ?_
  by_cases none : (readGroupHeader data mydata).pruneField = 0
  · rw [none]
    exact does_pure _
  · exact does_times (fun mydata => eachSource_changes (prunes none _) mydata) _ _

/-- The message has one group, and no pruned source in it. -/
def JoinsOnly (data : Memory) : Prop :=
  (readJoinPruneHeader data).numGroups = 1 ∧ (readGroupHeader data groupsStart).pruneField = 0

instance (data : Memory) : Decidable (JoinsOnly data) := inferInstanceAs (Decidable (_ ∧ _))

theorem addressedGroups_changes {host : Host} {vif : Vif} {data : Memory}
    (prune : ¬ JoinsOnly data → ∀ prunedata : PimPruneData, prunedata.vif = vif → A (.setPrune prunedata))
    (length holdtime : Int) :
    Within (Does Update.apply (P level A))
      (times (eachGroup data (addressedJoin vif) (addressedPrune host vif data length holdtime))
        (readJoinPruneHeader data).numGroups.toNat groupsStart) := by
  have pruned : ¬ JoinsOnly data → ∀ all source mymrt, Within (Does Update.apply (P level A))
      (addressedPrune host vif data length holdtime all source mymrt) := fun other =>
    addressedPrune_changes (prune other) host data length holdtime
  by_cases joins : JoinsOnly data
  · obtain ⟨one, none⟩ := joins
    rw [one]
    refine does_bind (eachGroup_changes (addressedJoin_changes vif) ?_) fun _ => does_pure _
    exact fun some => absurd none some
  · refine does_times (fun mydata => eachGroup_changes (addressedJoin_changes vif) ?_) _ _
    exact fun _ => pruned joins

theorem receiveJoinPrune_changes (join : ∀ data, A (.sendJoin data)) (host : Host) {src : Addr}
    {data : Memory}
    (prune : ¬ JoinsOnly data → ∀ prunedata : PimPruneData, prunedata.vif = findVifDirect host src →
      host.Serves prunedata.vif → A (.setPrune prunedata)) (length : Int) :
    Within (Does Update.apply (P level A)) (receiveJoinPrune host src data length) := by
  refine within_ite (fun _ => does_pure ()) fun direct => ?_
  have serves := findVifDirect_serves direct
  refine does_bind (validPacket_changes host src data length) fun valid => ?_
  refine within_ite (fun _ => does_pure ()) fun _ => within_ite (fun _ => ?_) fun _ => ?_
  · refine does_bind (findneighbor_changes _ _) fun neighbor => does_onlyIf fun _ => ?_
    refine does_bind (does_times (fun mydata => ?_) _ _) fun _ => does_pure _
    exact eachGroup_changes overheardJoin_changes fun _ => overheardPrune_changes join _
  · refine does_bind (addressedGroups_changes ?_ length _) fun _ => does_pure _
    exact fun other prunedata same => prune other prunedata same (same ▸ serves)

/-! ## `pim.c`: asserts and grafts -/

theorem activeForward_changes (graft : ∀ mymrt, A (.planGraft mymrt)) (host : Host) :
    Within (Does Update.apply (P level A)) (activeForward host) :=
  does_bind (forMrt_changes fun _ => within_throw _) fun _ => checkPimState_changes graft host .addLeaf

theorem assertUpstream_changes (may : Level.forwarding ≤ level) (mymrt : Ptr) (body : AssertBody) :
    Within (Does Update.apply (P level A)) (assertUpstream mymrt body) := by
  refine does_bind (loadMrt_changes mymrt) fun e => within_ite (fun _ => does_pure ()) fun _ => ?_
  refine does_onlyIf fun _ => ?_
  exact storeField_changes mymrt (.winner body.preference body.metric body.source) may (fun _ => rfl) trivial

theorem assertDownstream_changes {vif : Vif} (expiry : A (.activeForward vif)) (host : Host)
    (mymrt : Ptr) (body : AssertBody) :
    Within (Does Update.apply (P level A)) (assertDownstream host vif mymrt body) := by
  refine does_bind (loadMrt_changes mymrt) fun e => within_ite (fun _ => does_pure ()) fun _ => ?_
  refine within_ite (fun _ => pimAssertOutput_changes host _ _ _ _ _) fun _ => ?_
  refine does_bind (timerSetTimer_changes _ expiry) fun timer => ?_
  exact storeField_changes mymrt (.pruneDelayTimer vif timer) level.quiet_le (fun _ => rfl) trivial

theorem receiveAssert_changes (may : Level.forwarding ≤ level) (expiry : ∀ vif, A (.activeForward vif))
    (host : Host) (src : Addr) (data : Memory) (length : Int) :
    Within (Does Update.apply (P level A)) (receiveAssert host src data length) := by
  refine within_ite (fun _ => does_pure ()) fun _ =>
    does_bind (validPacket_changes host src data length) fun valid => ?_
  refine within_ite (fun _ => does_pure ()) fun _ => does_bind (findSg_changes _ _) fun mymrt => ?_
  refine within_ite (fun _ => does_pure ()) fun _ => does_bind (loadMrt_changes mymrt) fun e => ?_
  refine within_ite (fun _ => assertUpstream_changes may mymrt _) fun _ => ?_
  exact assertDownstream_changes (expiry _) host mymrt _

theorem graftEntry_changes (may : Level.forwarding ≤ level) (host : Host) (vif : Vif) (mymrt : Ptr) :
    Within (Does Update.apply (P level A)) (graftEntry host vif mymrt) := by
  refine does_bind (cancelPruneDelay_changes mymrt vif) fun _ => ?_
  refine does_bind (loadMrt_changes mymrt) fun e => does_onlyIf fun _ => ?_
  exact does_bind (putOutvif_changes may mymrt vif 1) fun _ => changeMfc_changes may host _ _ _

section Grafts

variable {R : Daemon → Daemon → Prop} (steady : Steady R)
  (quiet : ∀ (β : Type) (program : Act β), Within (Does Update.apply (HandlesBeside .quiet fun _ => False)) program →
    Within R program)
include steady quiet

/-- But for what it does to the entries it names, a Graft is quiet and sets no timer. -/
theorem graftSource_within {host : Host} {vif : Vif} (entry : ∀ mymrt, Within R (graftEntry host vif mymrt))
    (src : Addr) (data : Memory) (length : Int) (group : Addr) (mydata : Int) :
    Within R (graftSource host vif src data length group mydata) := by
  refine within_ite (fun _ => within_pure steady _) fun _ => ?_
  refine within_bind steady (quiet _ _ (writeSendBuf_changes _)) fun _ => ?_
  refine within_bind steady (quiet _ _ (pimdmOutput_plain (by decide) _ _ _ _)) fun _ => ?_
  refine within_bind steady (quiet _ _ (findSg_changes _ _)) fun mymrt => ?_
  refine within_ite (fun _ => within_pure steady _) fun _ => ?_
  exact within_bind steady (entry mymrt) fun _ => within_pure steady _

theorem graftGroup_within {host : Host} {vif : Vif} (entry : ∀ mymrt, Within R (graftEntry host vif mymrt))
    (src : Addr) (data : Memory) (length mydata : Int) :
    Within R (graftGroup host vif src data length mydata) := by
  refine within_ite (fun _ => within_pure steady _) fun _ => ?_
  refine within_bind steady (within_times steady (fun mydata => ?_) _ _) fun _ => within_pure steady _
  exact graftSource_within steady quiet entry src data length _ mydata

theorem receivePimGraft_within {host : Host} {src : Addr}
    (entry : ∀ mymrt, Within R (graftEntry host (findVifDirect host src) mymrt)) (data : Memory)
    (length : Int) : Within R (receivePimGraft host src data length) := by
  refine within_ite (fun _ => within_pure steady ()) fun _ => ?_
  refine within_bind steady (quiet _ _ (validPacket_changes host src data length)) fun valid => ?_
  refine within_ite (fun _ => within_pure steady ()) fun _ => ?_
  refine within_bind steady (within_times steady (fun mydata => ?_) _ _) fun _ => within_pure steady _
  exact graftGroup_within steady quiet entry src data length mydata

end Grafts

theorem receivePimGraft_changes (may : Level.forwarding ≤ level) (host : Host) (src : Addr)
    (data : Memory) (length : Int) :
    Within (Does Update.apply (P level A)) (receivePimGraft host src data length) :=
  receivePimGraft_within (steady_does _ _)
    (fun _ _ done => does_weaken done (coversBeside_of_handles level.quiet_le fun _ => False.elim))
    (graftEntry_changes may host _) data length

theorem ackEntry_changes (mymrt : Ptr) : Within (Does Update.apply (P level A)) (ackEntry mymrt) := by
  refine does_bind (loadMrt_changes mymrt) fun e => does_onlyIf fun _ => ?_
  refine does_bind (timerClearTimer_changes _) fun _ => ?_
  exact storeField_changes mymrt (.graftTimer 0) level.quiet_le (fun _ => rfl) trivial

theorem graftAckGroup_changes (data : Memory) (mydata : Int) :
    Within (Does Update.apply (P level A)) (graftAckGroup data mydata) := by
  refine within_ite (fun _ => does_pure _) fun _ => does_times (fun mydata => ?_) _ _
  exact eachSource_changes (fun _ mymrt => does_bind (ackEntry_changes mymrt) fun _ => does_pure 0) mydata

theorem receivePimGraftAck_changes (host : Host) (src : Addr) (data : Memory) (length : Int) :
    Within (Does Update.apply (P level A)) (receivePimGraftAck host src data length) := by
  refine within_ite (fun _ => does_pure ()) fun _ =>
    does_bind (validPacket_changes host src data length) fun valid => ?_
  refine within_ite (fun _ => does_pure ()) fun _ => ?_
  exact does_bind (does_times (fun mydata => graftAckGroup_changes data mydata) _ _) fun _ => does_pure _

/-! ## `igmp.c` -/

theorem igmpOutput_changes (src dst : Addr) (type code : Nat) (group : Addr) :
    Within (Does Update.apply (P level A)) (igmpOutput src dst type code group) :=
  does_modify (.query src dst type code group) (coversBeside _ level.quiet_le trivial trivial trivial) fun _ => rfl

theorem expectReport_changes {vif : Vif} {group : Addr} (leave : A (.leaveQuery vif group)) (g : Ptr) :
    Within (Does Update.apply (P level A)) (expectReport vif group g) := by
  refine does_bind (loadGroup_changes g) fun record => does_onlyIf fun _ => ?_
  refine does_bind (timerSetTimer_changes _ leave) fun timer => ?_
  exact storeLeavePhase_changes g timer (-1)

section Roles

omit [CoversBeside P]

variable [Covers P]

theorem startQuerying_changes (query : ∀ vif, A (.sendQuery vif)) (host : Host) (vif : Vif) :
    Within (Does Update.apply (P level A)) (startQuerying host vif) := by
  refine does_bind (timerSetTimer_changes _ (query vif)) fun timer => ?_
  exact does_bind (storeQuerier_changes vif fun _ => ⟨rfl, rfl⟩) fun _ => igmpOutput_changes _ _ _ _ _

theorem startRetry_changes (retry : ∀ vif, A (.retryQuery vif)) (vif : Vif) :
    Within (Does Update.apply (P level A)) (startRetry vif) :=
  does_bind (timerSetTimer_changes _ (retry vif)) fun _ =>
    storeQuerier_changes vif fun _ => ⟨rfl, rfl⟩

theorem refreshRetry_changes (retry : ∀ vif, A (.retryQuery vif)) (vif : Vif) :
    Within (Does Update.apply (P level A)) (refreshRetry vif) :=
  does_bind does_get fun _ =>
    does_bind (timerClearTimer_changes _) fun _ => startRetry_changes retry vif

theorem electQuerier_changes (retry : ∀ vif, A (.retryQuery vif)) (host : Host) (src : Addr)
    (vif : Vif) : Within (Does Update.apply (P level A)) (electQuerier host src vif) := by
  refine does_bind does_get fun state => within_ite (fun _ => ?_) fun _ => does_pure ()
  refine within_ite (fun _ => does_onlyIf fun _ => ?_) fun _ => does_onlyIf fun _ => ?_
  · refine does_bind (storeQuerier_changes vif fun _ => ⟨rfl, rfl⟩) fun _ => ?_
    refine does_bind (timerClearTimer_changes _) fun _ => ?_
    refine does_bind (storeQuerier_changes vif fun _ => ⟨rfl, rfl⟩) fun _ => ?_
    exact startRetry_changes retry vif
  · refine does_bind (storeQuerier_changes vif fun _ => ⟨rfl, rfl⟩) fun _ => ?_
    exact does_bind (timerClearTimer_changes _) fun _ => startRetry_changes retry vif

theorem acceptMembershipQuery_changes (retry : ∀ vif, A (.retryQuery vif)) (host : Host)
    (leave : ∀ vif group, host.Serves vif → A (.leaveQuery vif group)) (src group : Addr) :
    Within (Does Update.apply (P level A)) (acceptMembershipQuery host src group) := by
  refine within_ite (fun _ => does_pure ()) fun _ => within_ite (fun _ => does_pure ()) fun direct => ?_
  have serves := findVifDirect_serves direct
  refine does_bind does_get fun state => ?_
  refine does_bind (does_onlyIf fun _ => refreshRetry_changes retry _) fun _ => ?_
  refine does_bind (electQuerier_changes retry host src _) fun _ => does_bind does_get fun state => ?_
  exact does_onlyIf fun _ => forGroups_changes _ fun g => expectReport_changes (leave _ group serves) g

end Roles

theorem cancelLeave_changes (g : Ptr) : Within (Does Update.apply (P level A)) (cancelLeave g) := by
  refine does_bind (loadGroup_changes g) fun record => does_onlyIf fun _ => ?_
  exact does_bind (timerClearTimer_changes _) fun _ => storeLeavePhase_changes g 0 2

theorem acceptGroupReport_changes (may : Level.lists ≤ level) (graft : ∀ mymrt, A (.planGraft mymrt))
    (host : Host) (src group : Addr) :
    Within (Does Update.apply (P level A)) (acceptGroupReport host src group) := by
  have lower : Level.forwarding ≤ level := Level.le_trans (by decide) may
  refine within_ite (fun _ => does_pure ()) fun _ => does_bind (findGroup_changes _ _) fun g => ?_
  refine within_ite (fun _ => cancelLeave_changes g) fun _ => does_bind ?_ fun _ => ?_
  · intro start value final run
    rw [runs_modify.mp run]
    exact .single ⟨.linkGroup _ _, coversBeside _ may trivial trivial trivial, rfl⟩
  · exact addLeaf_changes lower graft host _ group

theorem unlinkGroup_changes (may : Level.lists ≤ level) (host : Host) (vif : Vif)
    (temp : Option Ptr) (g : Ptr) (record : IgmpGroup) :
    Within (Does Update.apply (P level A)) (unlinkGroup host vif temp g record) := by
  refine does_bind does_get fun state => within_ite (fun _ => ?_) fun _ => ?_
  · cases temp with
    | none => exact within_throw _
    | some temp =>
        refine does_bind (does_bind (loadGroup_changes temp) fun _ => ?_) fun _ =>
          does_bind (loadGroup_changes g) fun _ => ?_
        · exact does_modify (.groupNext temp record.next) (coversBeside _ may trivial trivial trivial) fun _ => rfl
        · exact does_modify (.freeGroup g (host.freedGroup g)) (coversBeside _ may trivial trivial trivial) fun _ => rfl
  · exact does_modify (.groupHead vif record.next) (coversBeside _ may trivial trivial trivial) fun _ => rfl

theorem removeGroup_changes (may : Level.lists ≤ level) (graft : ∀ mymrt, A (.planGraft mymrt))
    (host : Host) (vif : Vif) (temp : Option Ptr) (g : Ptr) :
    Within (Does Update.apply (P level A)) (removeGroup host vif temp g) := by
  have lower : Level.forwarding ≤ level := Level.le_trans (by decide) may
  refine does_bind (loadGroup_changes g) fun record => ?_
  refine does_bind (unlinkGroup_changes may host vif temp g record) fun _ => ?_
  exact does_bind (loadGroup_changes g) fun freed => delLeaf_changes lower graft host vif _

theorem leaveQuery_changes (may : Level.lists ≤ level) (graft : ∀ mymrt, A (.planGraft mymrt))
    (host : Host) {vif : Vif} {group : Addr} (leave : A (.leaveQuery vif group)) :
    Within (Does Update.apply (P level A)) (leaveQuery host vif group) := by
  refine does_bind (findGroupTrailing_changes vif group) fun found => ?_
  refine within_ite (fun _ => does_pure ()) fun _ => does_bind (loadGroup_changes _) fun g => ?_
  refine within_ite (fun _ => ?_) fun _ => within_ite (fun _ => ?_) fun _ => ?_
  · refine does_bind (igmpOutput_changes _ _ _ _ _) fun _ => ?_
    refine does_bind (timerSetTimer_changes _ leave) fun timer => ?_
    exact storeLeavePhase_changes _ timer 0
  · refine does_bind (timerSetTimer_changes _ leave) fun timer => ?_
    exact storeLeavePhase_changes _ timer (-1)
  · exact removeGroup_changes may graft host vif _ _

theorem acceptLeaveMessage_changes (host : Host)
    (leave : ∀ vif group, host.Serves vif → A (.leaveQuery vif group)) (src group : Addr) :
    Within (Does Update.apply (P level A)) (acceptLeaveMessage host src group) := by
  refine within_ite (fun _ => does_pure ()) fun direct => does_bind does_get fun state => ?_
  have serves := findVifDirectLocal_serves direct
  refine within_ite (fun _ => does_pure ()) fun _ => does_bind (findGroup_changes _ _) fun found => ?_
  refine within_ite (fun _ => does_pure ()) fun _ => does_bind (loadGroup_changes _) fun g => ?_
  refine does_bind (does_onlyIf fun _ => timerClearTimer_changes _) fun _ => ?_
  refine does_bind (igmpOutput_changes _ _ _ _ _) fun _ => ?_
  refine does_bind (timerSetTimer_changes _ (leave _ group serves)) fun timer => ?_
  exact storeLeavePhase_changes _ timer 1

/-! ## `multicastpacket.c` and `main.c` -/

theorem newMulticastPacket_changes {mydata : MulticastErrorData} (may : Level.table ≤ level)
    (graft : ∀ mymrt, A (.planGraft mymrt)) (expiry : A (.handleSgTimeout mydata.source mydata.destination))
    (check : ∀ source group, A (.checkSg source group)) (host : Host) (checked routed : Addr) :
    Within (Does Update.apply (P level A)) (newMulticastPacket host mydata checked routed) := by
  have lower : Level.forwarding ≤ level := Level.le_trans (by decide) may
  refine does_bind (does_bind (within_ite (fun _ => within_throw _) fun _ => does_pure _) fun _ =>
    does_pure _) fun right => does_onlyIf fun _ => ?_
  refine does_bind (addSg_changes may graft expiry (check _ _) host routed mydata.vif) fun _ => ?_
  exact changeMfc_changes lower host _ _ _

theorem wrongMulticastPacket_changes (host : Host) (mydata : MulticastErrorData) :
    Within (Does Update.apply (P level A)) (wrongMulticastPacket host mydata) := by
  refine does_bind (findSg_changes _ _) fun mymrt => within_ite (fun _ => does_pure ()) fun _ => ?_
  refine does_bind printSg_changes fun _ => does_bind (loadMrt_changes mymrt) fun e => ?_
  exact does_onlyIf fun _ => pimAssertOutput_changes host _ _ _ _ _

theorem multicastPacketError_changes {mydata : MulticastErrorData}
    (may : mydata.message = 1 → Level.table ≤ level)
    (graft : mydata.message = 1 → ∀ mymrt, A (.planGraft mymrt))
    (expiry : mydata.message = 1 → A (.handleSgTimeout mydata.source mydata.destination))
    (check : mydata.message = 1 → ∀ source group, A (.checkSg source group)) (host : Host)
    (checked routed : Addr) : Within (Does Update.apply (P level A))
      (multicastPacketError host mydata checked routed) := by
  refine does_bind (does_onlyIf fun first => ?_) fun _ => does_onlyIf fun _ => ?_
  · exact newMulticastPacket_changes (may first) (graft first) (expiry first) (check first) host checked routed
  · exact wrongMulticastPacket_changes host mydata

theorem timer_changes (tick : A .timer) : Within (Does Update.apply (P level A)) timer := by
  refine does_bind ?_ fun _ => does_bind (timerSetTimer_changes _ tick) fun _ => does_pure _
  exact does_modify (.virtualTime 5) (coversBeside _ level.quiet_le trivial trivial trivial) fun _ => rfl

end PimDm.Effect
