import PimDm.Effect.Update

/-!
# The updates of each function

For every function of the source, the level of its updates and the functions
its new timers call.  The proofs follow the text of the functions.
-/

namespace PimDm.Effect

open PimDm.Foundation PimDm.Source

variable {P : Level → (Callback → Prop) → Update → Prop} [CoversBeside P] {level : Level} {A : Callback → Prop}

/-! ## `pim.c`: senders -/

theorem writeSendBuf_changes (write : Memory → Memory) :
    Within (Does Update.apply (P level A)) (writeSendBuf write) :=
  does_modify (.sendBuf write) (coversBeside _ level.quiet_le trivial trivial trivial) fun _ => rfl

theorem pimdmOutput_changes {type : Nat} {entry : Ptr} (graft : type = pimGraft → A (.planGraft entry))
    (src dst : Addr) (length : Int) :
    Within (Does Update.apply (P level A)) (pimdmOutput src dst type length entry) := by
  refine does_bind (writeSendBuf_changes _) fun _ => does_bind does_get fun state => ?_
  exact does_modify (.send ⟨type, src, dst, _⟩ entry) (coversBeside _ level.quiet_le graft trivial trivial) fun _ => rfl

/-- Every message but the Graft. -/
theorem pimdmOutput_plain {type : Nat} (plain : type ≠ pimGraft) (src dst : Addr) (length : Int)
    (entry : Ptr) : Within (Does Update.apply (P level A)) (pimdmOutput src dst type length entry) :=
  pimdmOutput_changes (fun same => absurd same plain) src dst length

theorem pimJoinPruneOutput_changes (host : Host) (mymrt : Ptr) (packetType : PacketType)
    (holdtime : Int) :
    Within (Does Update.apply (P level A)) (pimJoinPruneOutput host mymrt packetType holdtime) :=
  does_bind (loadMrt_changes mymrt) fun _ =>
    does_bind (writeSendBuf_changes _) fun _ => pimdmOutput_plain (by decide) _ _ _ _

theorem pimGraftOutput_changes (host : Host) {mymrt : Ptr} (graft : A (.planGraft mymrt)) :
    Within (Does Update.apply (P level A)) (pimGraftOutput host mymrt) :=
  does_bind (loadMrt_changes mymrt) fun _ =>
    does_bind (writeSendBuf_changes _) fun _ => pimdmOutput_changes (fun _ => graft) _ _ _

theorem pimAssertOutput_changes (host : Host) (source group : Addr) (vif : Vif)
    (preference metric : BitVec 32) :
    Within (Does Update.apply (P level A)) (pimAssertOutput host source group vif preference metric) :=
  does_bind (writeSendBuf_changes _) fun _ => pimdmOutput_plain (by decide) _ _ _ _

theorem pimHelloOutput_changes (host : Host) (data : PimHelloOutputData)
    (hello : A (.pimHelloOutput data)) : Within (Does Update.apply (P level A)) (pimHelloOutput host data) := by
  refine does_bind (writeSendBuf_changes _) fun _ => does_bind ?_ fun _ => pimdmOutput_plain (by decide) _ _ _ _
  exact does_onlyIf fun _ => does_bind (timerSetTimer_changes _ hello) fun _ => does_pure _

/-! ## `mrt.c` -/

omit [CoversBeside P] in
theorem printSg_changes : Within (Does Update.apply (P level A)) printSg := forMrt_changes fun _ => does_pure ()

theorem deleteMfc_changes (may : Level.forwarding ≤ level) (source group : Addr) :
    Within (Does Update.apply (P level A)) (deleteMfc source group) :=
  does_modify (.mfc source group none) (coversBeside _ may trivial trivial trivial) fun _ => rfl

theorem changeMfc_changes (may : Level.forwarding ≤ level) (host : Host) (source group : Addr)
    (incoming : Vif) : Within (Does Update.apply (P level A)) (changeMfc host source group incoming) := by
  refine does_bind (findSg_changes source group) fun mymrt => ?_
  refine within_ite (fun _ => does_pure ()) fun _ => does_bind (loadMrt_changes mymrt) fun e => ?_
  exact does_modify (.mfc source group (some (mfcOf host e.toRoute incoming)))
    (coversBeside _ may trivial trivial trivial)
    fun _ => rfl

theorem planGraft_changes (host : Host) {mymrt : Ptr} (graft : A (.planGraft mymrt)) :
    Within (Does Update.apply (P level A)) (planGraft host mymrt) := by
  refine does_bind (loadMrt_changes mymrt) fun e => does_bind (findSg_changes _ _) fun thismrt => ?_
  refine within_ite (fun _ => does_pure ()) fun _ => within_ite (fun _ => ?_) fun _ => does_pure ()
  refine does_bind (pimGraftOutput_changes host graft) fun _ => ?_
  refine does_bind (timerSetTimer_changes _ graft) fun timer => ?_
  exact storeField_changes mymrt (.graftTimer timer) level.quiet_le (fun _ => rfl) trivial

theorem sendPrune_changes (host : Host) (mymrt : Ptr) :
    Within (Does Update.apply (P level A)) (sendPrune host mymrt) :=
  does_bind (loadMrt_changes mymrt) fun _ => pimJoinPruneOutput_changes host mymrt _ _

theorem checkEntry_changes (graft : ∀ mymrt, A (.planGraft mymrt)) (host : Host) (judge : Judge)
    (mymrt : Ptr) : Within (Does Update.apply (P level A)) (checkEntry host judge mymrt) := by
  refine does_bind (loadMrt_changes mymrt) fun e => does_bind ?_ fun _ => ?_
  · exact does_onlyIf fun _ => does_onlyIf fun _ => sendPrune_changes host mymrt
  · exact does_onlyIf fun _ => does_onlyIf fun _ => planGraft_changes host (graft mymrt)

theorem checkPimState_changes (graft : ∀ mymrt, A (.planGraft mymrt)) (host : Host) (judge : Judge) :
    Within (Does Update.apply (P level A)) (checkPimState host judge) :=
  forMrt_changes fun mymrt => checkEntry_changes graft host judge mymrt

theorem unlinkSg_changes (may : Level.removal ≤ level) (source group : Addr) (first mymrt : Mrt)
    (temp : Option Ptr) : Within (Does Update.apply (P level A)) (unlinkSg source group first mymrt temp) := by
  unfold unlinkSg
  refine within_ite (fun _ => ?_) fun _ => ?_
  · exact does_modify (.mrtHead first.next) (coversBeside _ may trivial trivial trivial) fun _ => rfl
  · cases temp with
    | none => exact within_throw _
    | some temp => exact storeNext_changes may temp mymrt.next

theorem deleteSg_changes (may : Level.removal ≤ level) (source group : Addr) :
    Within (Does Update.apply (P level A)) (deleteSg source group) := by
  have lower : Level.forwarding ≤ level := Level.le_trans (by decide) may
  refine does_bind (findMrtTrailing_changes _) fun found => ?_
  refine within_ite (fun _ => does_bind printSg_changes fun _ => does_pure _) fun _ => ?_
  refine does_bind (loadMrt_changes _) fun mymrt => does_bind does_get fun state => ?_
  refine does_bind (loadMrt_changes _) fun first => ?_
  refine does_bind (deleteMfc_changes lower source group) fun _ => ?_
  refine does_bind (timerClearTimer_changes _) fun _ => ?_
  refine does_bind (unlinkSg_changes may source group first mymrt _) fun _ => ?_
  refine does_bind ?_ fun _ => does_bind printSg_changes fun _ => does_pure _
  exact does_modify (.deletedSg source group) (coversBeside _ may trivial trivial trivial) fun _ => rfl

theorem handleSgTimeout_changes (may : Level.removal ≤ level) (source group : Addr) :
    Within (Does Update.apply (P level A)) (handleSgTimeout source group) :=
  does_bind (deleteSg_changes may source group) fun _ => does_pure ()

theorem restartTimeout_changes {source group : Addr} (expiry : A (.handleSgTimeout source group))
    (mymrt : Ptr) (nowdata : Int) :
    Within (Does Update.apply (P level A)) (restartTimeout source group mymrt nowdata) := by
  refine does_bind ?_ fun _ => does_bind (loadMrt_changes mymrt) fun e => ?_
  · exact does_modify (.packetNumber nowdata) (coversBeside _ level.quiet_le trivial trivial trivial) fun _ => rfl
  refine does_bind (timerClearTimer_changes _) fun _ => ?_
  refine does_bind (timerSetTimer_changes _ expiry) fun timer => ?_
  exact storeField_changes mymrt (.timeout timer) level.quiet_le (fun _ => rfl) trivial

theorem checkSg_changes {source group : Addr} (expiry : A (.handleSgTimeout source group))
    (check : A (.checkSg source group)) (nowdata : Int) :
    Within (Does Update.apply (P level A)) (checkSg source group nowdata) := by
  refine does_bind (findSg_changes source group) fun mymrt => does_bind does_get fun state => ?_
  refine does_bind (does_onlyIf fun _ => restartTimeout_changes expiry mymrt nowdata) fun _ => ?_
  refine does_bind (loadMrt_changes mymrt) fun e => ?_
  refine does_bind (timerClearTimer_changes _) fun _ => ?_
  refine does_bind (timerSetTimer_changes _ check) fun timer => ?_
  exact storeField_changes mymrt (.checkTimer timer) level.quiet_le (fun _ => rfl) ⟨source, group, check⟩

omit [CoversBeside P] in
theorem addSgVif_changes (group : Addr) (incoming : Vif) (so : Mrt × Int) (i : Vif) :
    Within (Does Update.apply (P level A)) (addSgVif group incoming so i) := by
  unfold addSgVif
  refine within_ite (fun _ => does_bind does_get fun state => ?_) fun _ => does_pure _
  refine within_ite (fun _ => does_pure _) fun _ => ?_
  exact does_bind (findGroup_changes i group) fun _ => does_pure _

theorem announceSg_changes (graft : ∀ mymrt, A (.planGraft mymrt)) (host : Host) (source : Addr)
    (newmrt : Ptr) : Within (Does Update.apply (P level A)) (announceSg host source newmrt) := by
  refine does_bind (loadMrt_changes newmrt) fun e => within_ite (fun _ => ?_) fun _ => ?_
  · exact does_onlyIf fun _ => planGraft_changes host (graft newmrt)
  · exact does_onlyIf fun _ => sendPrune_changes host newmrt

theorem addSg_changes (may : Level.table ≤ level) (graft : ∀ mymrt, A (.planGraft mymrt))
    {source group : Addr} (expiry : A (.handleSgTimeout source group))
    (check : A (.checkSg source group)) (host : Host) (gateway : Addr) (incoming : Vif) :
    Within (Does Update.apply (P level A)) (addSg host gateway source group incoming) := by
  refine does_bind does_get fun state => ?_
  refine does_bind (does_foldProgram _ _ fun i _ so => addSgVif_changes group incoming so i)
    fun built => ?_
  refine does_bind (timerSetTimer_changes _ expiry) fun timeout => ?_
  refine does_bind (timerSetTimer_changes _ check) fun check => does_bind ?_ fun _ => ?_
  · exact does_modify (.linkMrt _) (coversBeside _ may trivial trivial trivial) fun _ => rfl
  refine does_bind ?_ fun _ => does_bind (announceSg_changes graft host source _) fun _ =>
    printSg_changes
  exact does_modify (.addedSg source group) (coversBeside _ may trivial trivial trivial) fun _ => rfl

/-- `mymrt->outvif[vif] = value` as an update. -/
theorem putOutvif_changes (may : Level.forwarding ≤ level) (mymrt : Ptr) (vif : Vif) (value : Int) :
    Within (Does Update.apply (P level A)) (storeMrt mymrt (Mrt.putOutvif vif value)) := by
  refine storeField_changes mymrt (.outvif vif value 0) may (fun e => ?_) trivial
  simp [Field.write, Mrt.putOutvif, Mrt.setOutvif]

theorem setOutvif_changes (may : Level.forwarding ≤ level) (mymrt : Ptr) (vif : Vif)
    (value change : Int) :
    Within (Does Update.apply (P level A)) (storeMrt mymrt (Mrt.setOutvif vif value change)) :=
  storeField_changes mymrt (.outvif vif value change) may (fun _ => rfl) trivial

theorem addLeaf_changes (may : Level.forwarding ≤ level) (graft : ∀ mymrt, A (.planGraft mymrt))
    (host : Host) (vif : Vif) (group : Addr) : Within (Does Update.apply (P level A)) (addLeaf host vif group) := by
  refine does_bind (findSgGroup_changes group) fun mymrt => ?_
  refine within_ite (fun _ => does_pure ()) fun _ => does_bind (loadMrt_changes mymrt) fun e => ?_
  refine does_bind (does_onlyIf fun _ => setOutvif_changes may mymrt vif 1 1) fun _ => ?_
  refine does_bind (changeMfc_changes may host _ group _) fun _ => ?_
  exact does_bind (checkPimState_changes graft host .addLeaf) fun _ => printSg_changes

theorem callDelLeaf_changes (vif : Vif) (group : Addr) :
    Within (Does Update.apply (P level A)) (observe (.delLeaf vif group)) :=
  does_modify (.callDelLeaf vif group) (coversBeside _ level.quiet_le trivial trivial trivial) fun _ => rfl

theorem delLeaf_changes (may : Level.forwarding ≤ level) (graft : ∀ mymrt, A (.planGraft mymrt))
    (host : Host) (vif : Vif) (group : Addr) : Within (Does Update.apply (P level A)) (delLeaf host vif group) := by
  refine does_bind (callDelLeaf_changes vif group) fun _ => ?_
  refine does_bind (findSgGroup_changes group) fun mymrt => ?_
  refine within_ite (fun _ => does_pure ()) fun _ => ?_
  refine does_bind (setOutvif_changes may mymrt vif 0 (-1)) fun _ => ?_
  refine does_bind (loadMrt_changes mymrt) fun e => ?_
  refine does_bind (changeMfc_changes may host _ group _) fun _ => ?_
  exact does_bind (checkPimState_changes graft host .delLeaf) fun _ => printSg_changes

theorem refreshEntry_changes (may : Level.forwarding ≤ level)
    (graft : ∀ mymrt, A (.planGraft mymrt)) (host : Host) (vif : Vif) (i : Judge) (mymrt : Ptr) :
    Within (Does Update.apply (P level A)) (refreshEntry host vif i mymrt) := by
  refine does_bind (loadMrt_changes mymrt) fun e => ?_
  refine within_ite (fun _ => ?_) fun _ => within_ite (fun _ => ?_) fun _ => does_pure ()
  · refine within_ite (fun _ => ?_) fun _ => does_pure ()
    refine does_bind (setOutvif_changes may mymrt vif 1 1) fun _ => ?_
    refine does_bind (changeMfc_changes may host _ _ _) fun _ => ?_
    exact checkPimState_changes graft host .addNeighbor
  · refine does_bind (findGroup_changes i.code _) fun member => does_bind does_get fun state => ?_
    refine within_ite (fun _ => ?_) fun _ => does_pure ()
    refine does_bind (setOutvif_changes may mymrt vif 0 (-1)) fun _ => ?_
    refine does_bind (changeMfc_changes may host _ _ _) fun _ => ?_
    exact checkPimState_changes graft host .delNeighbor

theorem refreshMrt_changes (may : Level.forwarding ≤ level) (graft : ∀ mymrt, A (.planGraft mymrt))
    (host : Host) (vif : Vif) (i : Judge) : Within (Does Update.apply (P level A)) (refreshMrt host vif i) :=
  does_bind (forMrt_changes fun mymrt => refreshEntry_changes may graft host vif i mymrt)
    fun _ => printSg_changes

end PimDm.Effect
