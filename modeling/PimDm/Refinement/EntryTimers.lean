import PimDm.Refinement.Ownership
import PimDm.Refinement.Keys
import PimDm.Refinement.OneSource

/-!
# The timers that `mrt.c` and `pim.c` clear

Every function keeps the ids of the records with their records, and of the pending timers it
clears at most those it is about.  The proofs follow the text of the functions.
-/

namespace PimDm.Refinement

open PimDm.Foundation PimDm.Source PimDm.Effect PimDm.Routing

variable {host : Host} {s s' : Daemon} {A B : Callback → Prop} {α : Type}

/-- What a program tends of all states, it tends with more functions. -/
theorem within_tends_mono {program : Act α} (inside : Within (Tends A) program) (weaker : ∀ func, A func → B func) :
    Within (Tends B) program :=
  within_mono (fun _ _ tends => tends.mono weaker) inside

theorem Tends.trans {middle : Daemon} (left : Tends A s middle) (right : Tends A middle s') : Tends A s s' :=
  (steady_tends A).trans left right

theorem Tends.refl (s : Daemon) : Tends A s s := (steady_tends A).refl s

/-! ## Single accesses -/

/-- Reading changes nothing. -/
theorem lookup_tends (look : Daemon → Except HeapFault α) :
    Within (Tends A) (get >>= fun state : Daemon => (liftHeap (look state) : Act α)) := by
  intro s value s' run
  rw [runs_get_bind, runs_liftHeap] at run
  rw [run.2]
  exact .refl s

theorem loadMrt_tends (mymrt : Ptr) : Within (Tends A) (loadMrt mymrt) := lookup_tends _

theorem findSg_tends (source group : Addr) : Within (Tends A) (findSg source group) := lookup_tends _

theorem printSg_tends : Within (Tends A) printSg := by
  intro s _ s' run
  rw [runs_printSg run]
  exact .refl s

theorem update_tends (update : Update) (timeless : Update.Timeless update) {function : Daemon → Daemon}
    (same : ∀ state, function state = update.apply state) : Within (Tends A) (modify function : Act PUnit) :=
  within_modify fun state => by
    rw [same]
    exact tends_same (timeless_update update timeless state)

/-- A store into an entry that leaves it owning its ids. -/
theorem storeMrt_tends {mymrt : Ptr} {function : Mrt → Mrt}
    (owns : ∀ state e, Orderly state → OwnsTimers state mymrt e → OwnsTimers state mymrt (function e)) :
    Within (Tends A) (storeMrt mymrt function) := by
  intro s _ s' run
  obtain ⟨_, rfl⟩ := runs_storeMrt.mp run
  exact tends_setMrt fun owned e here => owns s e owned.orderly (owned.entries mymrt e here)

theorem storeRoute_tends {mymrt : Ptr} {function : Mrt → Mrt} (kept : ∀ e, slots (function e) = slots e) :
    Within (Tends A) (storeMrt mymrt function) :=
  storeMrt_tends fun _ e _ owns => owns.congr (kept e)

theorem timerSetTimer_tends (delay : Int) {action : Callback} (graft : ∀ mymrt, action ≠ .planGraft mymrt)
    (expiry : ∀ entry, action ≠ .deletePimNeighbor entry) : Within (Tends A) (timerSetTimer delay action) := by
  intro s _ s' run
  obtain ⟨_, rfl⟩ := runs_timerSetTimer.mp run
  exact tends_setTimer delay (fun mymrt same => absurd same (graft mymrt)) fun entry same => absurd same (expiry entry)

/-! ## Ids set to zero -/

theorem OwnsTimers.noJoin {mymrt : Ptr} {e : Mrt} (owns : OwnsTimers s mymrt e) (orderly : Orderly s) :
    OwnsTimers s mymrt { e with joinDelayTimerId := 0 } :=
  { owns with join := ticket_blank orderly (Int.le_refl 0) }

theorem OwnsTimers.setPruneTimer {mymrt : Ptr} {e : Mrt} (owns : OwnsTimers s mymrt e) (vif : Vif) {timer : Int}
    (ticket : Ticket s timer (RestoresOn e.source e.group vif)) : OwnsTimers s mymrt (e.setPruneTimer vif timer) := by
  refine { owns with prune := fun other => ?_ }
  by_cases here : other = vif
  · subst here
    simpa [Mrt.setPruneTimer] using ticket
  · simpa [Mrt.setPruneTimer, here] using owns.prune other

theorem OwnsTimers.setPruneDelayTimer {mymrt : Ptr} {e : Mrt} (owns : OwnsTimers s mymrt e) (vif : Vif) {timer : Int}
    (ticket : Ticket s timer (HoldsOff e.source e.group vif)) :
    OwnsTimers s mymrt (e.setPruneDelayTimer vif timer) := by
  refine { owns with pruneDelay := fun other => ?_ }
  by_cases here : other = vif
  · subst here
    simpa [Mrt.setPruneDelayTimer] using ticket
  · simpa [Mrt.setPruneDelayTimer, here] using owns.pruneDelay other

theorem noPruneDelay_tends (mymrt : Ptr) (vif : Vif) :
    Within (Tends A) (storeMrt mymrt (Mrt.setPruneDelayTimer vif 0)) :=
  storeMrt_tends fun _ _ orderly owns => owns.setPruneDelayTimer vif (ticket_blank orderly (Int.le_refl 0))

/-! ## Messages and the kernel -/

theorem writeSendBuf_tends (write : Memory → Memory) : Within (Tends A) (writeSendBuf write) :=
  update_tends (.sendBuf write) trivial fun _ => rfl

theorem pimdmOutput_tends (src dst : Addr) (type : Nat) (length : Int) (entry : Ptr) :
    Within (Tends A) (pimdmOutput src dst type length entry) := by
  refine within_bind (steady_tends A) (writeSendBuf_tends _) fun _ => ?_
  refine within_bind (steady_tends A) (within_get (steady_tends A)) fun state => ?_
  exact update_tends (.send _ entry) trivial fun _ => rfl

theorem pimJoinPruneOutput_tends (mymrt : Ptr) (packetType : PacketType) (holdtime : Int) :
    Within (Tends A) (pimJoinPruneOutput host mymrt packetType holdtime) := by
  refine within_bind (steady_tends A) (loadMrt_tends mymrt) fun e => ?_
  exact within_bind (steady_tends A) (writeSendBuf_tends _) fun _ => pimdmOutput_tends _ _ _ _ _

theorem pimGraftOutput_tends (mymrt : Ptr) : Within (Tends A) (pimGraftOutput host mymrt) := by
  refine within_bind (steady_tends A) (loadMrt_tends mymrt) fun e => ?_
  exact within_bind (steady_tends A) (writeSendBuf_tends _) fun _ => pimdmOutput_tends _ _ _ _ _

theorem pimAssertOutput_tends (source group : Addr) (vif : Vif) (preference metric : BitVec 32) :
    Within (Tends A) (pimAssertOutput host source group vif preference metric) :=
  within_bind (steady_tends A) (writeSendBuf_tends _) fun _ => pimdmOutput_tends _ _ _ _ _

theorem pimHelloOutput_tends (data : PimHelloOutputData) : Within (Tends A) (pimHelloOutput host data) := by
  refine within_bind (steady_tends A) (writeSendBuf_tends _) fun _ => ?_
  refine within_bind (steady_tends A) ?_ fun _ => pimdmOutput_tends _ _ _ _ _
  refine within_onlyIf (steady_tends A) fun _ => ?_
  refine within_bind (steady_tends A) ?_ fun _ => within_pure (steady_tends A) ()
  exact timerSetTimer_tends _ (fun _ => Callback.noConfusion) fun _ => Callback.noConfusion

theorem changeMfc_tends (source group : Addr) (incoming : Vif) :
    Within (Tends A) (changeMfc host source group incoming) := by
  refine within_bind (steady_tends A) (findSg_tends source group) fun mymrt => ?_
  refine within_ite (fun _ => within_pure (steady_tends A) ()) fun _ => ?_
  refine within_bind (steady_tends A) (loadMrt_tends mymrt) fun e => ?_
  exact update_tends (.mfc source group (some (mfcOf host e.toRoute incoming))) trivial fun _ => rfl

/-! ## `mrt.c` -/

theorem planGraft_tends (mymrt : Ptr) : Within (Tends A) (planGraft host mymrt) := by
  refine within_bind (steady_tends A) (loadMrt_tends mymrt) fun e => ?_
  refine within_bind (steady_tends A) (findSg_tends _ _) fun thismrt => ?_
  refine within_ite (fun _ => within_pure (steady_tends A) ()) fun _ => ?_
  refine within_ite (fun _ => ?_) fun _ => within_pure (steady_tends A) ()
  refine within_bind (steady_tends A) (pimGraftOutput_tends mymrt) fun _ => ?_
  intro s _ s' run
  obtain ⟨timer, _, arm, store⟩ := runs_bind.mp run
  obtain ⟨rfl, rfl⟩ := runs_timerSetTimer.mp arm
  obtain ⟨here, rfl⟩ := runs_storeMrt.mp store
  refine tends_arm pimGraftTimer (fun _ => Callback.noConfusion) (fun other same => ?_) fun e _ owns issued => ?_
  · cases same
    exact here
  · exact { owns with graft := issued }

theorem sendPrune_tends (mymrt : Ptr) : Within (Tends A) (sendPrune host mymrt) :=
  within_bind (steady_tends A) (loadMrt_tends mymrt) fun _ => pimJoinPruneOutput_tends mymrt _ _

theorem checkPimState_tends (judge : Judge) : Within (Tends A) (checkPimState host judge) := by
  refine within_bind (steady_tends A) (within_get (steady_tends A)) fun state => ?_
  refine within_forEach (steady_tends A) (fun mymrt => ?_) _ _
  refine within_bind (steady_tends A) (loadMrt_tends mymrt) fun e => ?_
  refine within_bind (steady_tends A) ?_ fun _ => ?_
  · refine within_onlyIf (steady_tends A) fun _ => within_onlyIf (steady_tends A) fun _ => ?_
    exact sendPrune_tends mymrt
  · refine within_onlyIf (steady_tends A) fun _ => within_onlyIf (steady_tends A) fun _ => ?_
    exact planGraft_tends mymrt

/-- `change_mfc` and `check_pim_state`, with which changes of the outgoing interfaces end. -/
theorem follow_tends (source group : Addr) (incoming : Vif) (judge : Judge) : Within (Tends A) (do
    changeMfc host source group incoming
    checkPimState host judge) :=
  within_bind (steady_tends A) (changeMfc_tends source group incoming) fun _ => checkPimState_tends judge

theorem addLeaf_tends (vif : Vif) (group : Addr) : Within (Tends A) (addLeaf host vif group) := by
  refine within_bind (steady_tends A) (lookup_tends _) fun mymrt => ?_
  refine within_ite (fun _ => within_pure (steady_tends A) ()) fun _ => ?_
  refine within_bind (steady_tends A) (loadMrt_tends mymrt) fun e => ?_
  refine within_bind (steady_tends A) ?_ fun _ => ?_
  · exact within_onlyIf (steady_tends A) fun _ => storeRoute_tends fun _ => rfl
  refine within_bind (steady_tends A) (changeMfc_tends _ _ _) fun _ => ?_
  exact within_bind (steady_tends A) (checkPimState_tends _) fun _ => printSg_tends

theorem delLeaf_tends (vif : Vif) (group : Addr) : Within (Tends A) (delLeaf host vif group) := by
  refine within_bind (steady_tends A) ?_ fun _ => ?_
  · exact update_tends (.callDelLeaf vif group) trivial fun _ => rfl
  refine within_bind (steady_tends A) (lookup_tends _) fun mymrt => ?_
  refine within_ite (fun _ => within_pure (steady_tends A) ()) fun _ => ?_
  refine within_bind (steady_tends A) (storeRoute_tends fun _ => rfl) fun _ => ?_
  refine within_bind (steady_tends A) (loadMrt_tends mymrt) fun e => ?_
  refine within_bind (steady_tends A) (changeMfc_tends _ _ _) fun _ => ?_
  exact within_bind (steady_tends A) (checkPimState_tends _) fun _ => printSg_tends

theorem refreshEntry_tends (vif : Vif) (judge : Judge) (mymrt : Ptr) :
    Within (Tends A) (refreshEntry host vif judge mymrt) := by
  refine within_bind (steady_tends A) (loadMrt_tends mymrt) fun e => ?_
  refine within_ite (fun _ => ?added) fun _ => within_ite (fun _ => ?gone) fun _ => within_pure (steady_tends A) ()
  case added =>
    refine within_ite (fun _ => ?_) fun _ => within_pure (steady_tends A) ()
    exact within_bind (steady_tends A) (storeRoute_tends fun _ => rfl) fun _ => follow_tends _ _ _ _
  case gone =>
    refine within_bind (steady_tends A) (lookup_tends _) fun member => ?_
    refine within_bind (steady_tends A) (within_get (steady_tends A)) fun state => ?_
    refine within_ite (fun _ => ?_) fun _ => within_pure (steady_tends A) ()
    exact within_bind (steady_tends A) (storeRoute_tends fun _ => rfl) fun _ => follow_tends _ _ _ _

theorem refreshMrt_tends (vif : Vif) (judge : Judge) : Within (Tends A) (refreshMrt host vif judge) := by
  refine within_bind (steady_tends A) ?_ fun _ => printSg_tends
  refine within_bind (steady_tends A) (within_get (steady_tends A)) fun state => ?_
  exact within_forEach (steady_tends A) (refreshEntry_tends vif judge) _ _

/-! ## Deletion and creation -/

theorem isFor_key {source group : Addr} {e : Mrt} (same : e.isFor source group = true) :
    e.source = source ∧ e.group = group := by
  simpa [Mrt.isFor] using same

/-- The entry that `find_sg` finds has the key. -/
theorem Finds.key {source group : Addr} {mymrt : Ptr} {e : Mrt} (found : Finds s source group mymrt)
    (nonnull : mymrt ≠ 0) (here : s.mrts.get? mymrt = some e) : e.source = source ∧ e.group = group := by
  obtain ⟨block, content, holds⟩ := Heap.find_holds found nonnull
  obtain rfl := Option.some.inj (content.symm.trans here)
  exact isFor_key holds

theorem unlinkSg_tends (source group : Addr) (first mymrt : Mrt) (temp : Option Ptr) :
    Within (Tends A) (unlinkSg source group first mymrt temp) := by
  refine within_ite (fun _ => ?_) fun _ => ?_
  · exact update_tends (.mrtHead first.next) trivial fun _ => rfl
  · cases temp with
    | none => exact within_throw _
    | some temp => exact storeRoute_tends fun _ => rfl

/-- `delete_sg` clears the check of the entry it removes. -/
theorem deleteSg_tends (source group : Addr) : Within (Tends (· = .checkSg source group)) (deleteSg source group) := by
  intro s _ s' run
  obtain ⟨⟨temp, mymrt⟩, _, looked, deciding⟩ := runs_bind.mp run
  rw [findMrtTrailing, runs_get_bind, runs_liftHeap] at looked
  obtain ⟨search, rfl⟩ := looked
  rcases runs_ite.mp deciding with ⟨_, absent⟩ | ⟨nonnull, deleting⟩
  · exact within_bind (steady_tends _) printSg_tends (fun _ => within_pure (steady_tends _) _) _ _ _ absent
  obtain ⟨e, _, load, afterLoad⟩ := runs_bind.mp deleting
  obtain ⟨here, rfl⟩ := runs_loadMrt.mp load
  rw [runs_get_bind] at afterLoad
  obtain ⟨first, start, loadHead, afterHead⟩ := runs_bind.mp afterLoad
  obtain ⟨_, rfl⟩ := runs_loadMrt.mp loadHead
  obtain ⟨_, _, forget, afterForget⟩ := runs_bind.mp afterHead
  obtain rfl := runs_modify.mp forget
  obtain ⟨_, cleared, clear, finish⟩ := runs_bind.mp afterForget
  obtain rfl := runs_timerClearTimer.mp clear
  obtain ⟨source_eq, group_eq⟩ := Finds.key (Heap.find_of_findTrailing search) nonnull here
  have forgets : Tends (· = .checkSg source group) start (start.setMfc source group none) :=
    tends_same (timeless_update (.mfc source group none) trivial start)
  have clears : Tends (· = .checkSg source group) (start.setMfc source group none)
      ((start.setMfc source group none).clearTimer e.checkTimerid) := by
    refine tends_clearTimer fun owned => ?_
    have ticket := (owned.entries mymrt e here).check
    rwa [source_eq, group_eq] at ticket
  refine (forgets.trans clears).trans ?_
  refine within_bind (steady_tends _) (unlinkSg_tends source group first e temp) (fun _ => ?_) _ _ _ finish
  refine within_bind (steady_tends _) ?_ fun _ => ?_
  · exact update_tends (.deletedSg source group) trivial fun _ => rfl
  · exact within_bind (steady_tends _) printSg_tends fun _ => within_pure (steady_tends _) _

/-- Clear the timer an entry names, and set another one whose id takes its place. -/
theorem rearm_tends {delay : Int} {action : Callback} {mymrt : Ptr} {function : Mrt → Mrt} {e : Mrt} {timer : Int}
    (plain : (∀ entry, action ≠ .deletePimNeighbor entry) ∧ ∀ other, action ≠ .planGraft other)
    (here : s.mrts.get? mymrt = some e) (stands : ∀ state, OwnsTimers state mymrt e → Ticket state timer A)
    (owns : ∀ state, OwnsTimers state mymrt e → Ticket state (s.id + 1) (· = action) →
      OwnsTimers state mymrt (function e)) :
    Tends A s (((s.clearTimer timer).setTimer delay action).setMrt mymrt function) := by
  refine (tends_clearTimer fun owned => stands s (owned.entries mymrt e here)).trans ?_
  refine tends_arm delay plain.1 (fun other same => absurd same (plain.2 other)) fun again there held issued => ?_
  rw [clearTimer_mrts] at there
  obtain rfl := Option.some.inj (here.symm.trans there)
  rw [clearTimer_id] at issued
  exact owns _ held issued

/-- The entry at a pointer has this source and group. -/
def KeyedAt (s : Daemon) (mymrt : Ptr) (source group : Addr) : Prop :=
  ∀ e, s.mrts.get? mymrt = some e → e.source = source ∧ e.group = group

theorem restartTimeout_tends {source group : Addr} {mymrt : Ptr} {nowdata : Int} (keyed : KeyedAt s mymrt source group)
    (run : Runs (restartTimeout source group mymrt nowdata) s () s') :
    Tends (· = .handleSgTimeout source group) s s' ∧ KeyedAt s' mymrt source group := by
  obtain ⟨_, _, count, loading⟩ := runs_bind.mp run
  obtain rfl := runs_modify.mp count
  obtain ⟨e, _, load, clearing⟩ := runs_bind.mp loading
  obtain ⟨here, rfl⟩ := runs_loadMrt.mp load
  obtain ⟨_, _, clear, arming⟩ := runs_bind.mp clearing
  obtain rfl := runs_timerClearTimer.mp clear
  obtain ⟨timer, _, arm, store⟩ := runs_bind.mp arming
  obtain ⟨rfl, rfl⟩ := runs_timerSetTimer.mp arm
  obtain ⟨_, rfl⟩ := runs_storeMrt.mp store
  have counts : Tends (· = .handleSgTimeout source group) s { s with packetNumber := nowdata } :=
    tends_same (timeless_update (.packetNumber nowdata) trivial s)
  obtain ⟨rfl, rfl⟩ := keyed e here
  refine ⟨counts.trans (rearm_tends ⟨fun _ => nofun, fun _ => nofun⟩ here (fun _ owns => owns.timeout)
    fun _ owns issued => ?_), fun after there => ?_⟩
  · rw [clearTimer_id]
    exact { owns with timeout := issued }
  · rw [Daemon.setMrt, Heap.get?_modify, if_pos rfl] at there
    obtain ⟨old, before, rfl⟩ := Option.map_eq_some_iff.mp there
    have same : s.mrts.get? mymrt = some old := by
      simpa [Daemon.setTimer] using before
    exact keyed old same

/-- `check_sg` restarts the check of its entry, and with fresh traffic also its timeout. -/
theorem checkSg_tends {source group : Addr} {nowdata : Int} (run : Runs (checkSg source group nowdata) s () s') :
    Tends (fun func => func = .checkSg source group ∨
      nowdata > s.packetNumber ∧ func = .handleSgTimeout source group) s s' := by
  obtain ⟨mymrt, first, looked, checking⟩ := runs_bind.mp run
  obtain ⟨found, same⟩ := runs_findMrt.mp looked
  rw [same, runs_get_bind] at checking
  obtain ⟨_, middle, restart, loading⟩ := runs_bind.mp checking
  obtain ⟨e, again, load, clearing⟩ := runs_bind.mp loading
  obtain ⟨here, unchanged⟩ := runs_loadMrt.mp load
  rw [unchanged] at clearing
  obtain ⟨_, _, clear, arming⟩ := runs_bind.mp clearing
  obtain rfl := runs_timerClearTimer.mp clear
  obtain ⟨timer, _, arm, store⟩ := runs_bind.mp arming
  obtain ⟨rfl, rfl⟩ := runs_timerSetTimer.mp arm
  obtain ⟨_, rfl⟩ := runs_storeMrt.mp store
  have nonnull : mymrt ≠ 0 := by
    rintro rfl
    cases here
  have keyed : KeyedAt s mymrt source group := fun e here => Finds.key found nonnull here
  have restarts : Tends (fun func => func = .checkSg source group ∨
      nowdata > s.packetNumber ∧ func = .handleSgTimeout source group) s middle ∧
        KeyedAt middle mymrt source group := by
    rcases runs_onlyIf.mp restart with ⟨fresh, restart⟩ | ⟨_, rfl⟩
    · obtain ⟨tends, after⟩ := restartTimeout_tends keyed restart
      exact ⟨tends.mono fun _ same => Or.inr ⟨fresh, same⟩, after⟩
    · exact ⟨.refl _, keyed⟩
  obtain ⟨rfl, rfl⟩ := restarts.2 e here
  refine restarts.1.trans (rearm_tends ⟨fun _ => nofun, fun _ => nofun⟩ here (fun _ owns => ?_) fun _ owns issued => ?_)
  · exact owns.check.mono fun _ => Or.inl
  · rw [clearTimer_id]
    exact { owns with check := issued }

/-- A record that has no timers of Joins and Prunes. -/
structure Untimed (e : Mrt) : Prop where
  join : e.joinDelayTimerId = 0
  prune : ∀ vif, e.pruneTimerId vif = 0
  pruneDelay : ∀ vif, e.pruneDelayTimerId vif = 0

/-- The loop of `add_sg` sets no timers, and changes no state. -/
theorem addSgVif_untimed {group : Addr} {incoming i : Vif} {so after : Mrt × Int} (untimed : Untimed so.1)
    (run : Runs (addSgVif group incoming so i) s after s') : Untimed after.1 := by
  have cleared : Untimed { so.1 with
      pruneTimerId := Function.update so.1.pruneTimerId i 0
      pruneDelayTimerId := Function.update so.1.pruneDelayTimerId i 0 } := by
    refine ⟨untimed.join, fun vif => ?_, fun vif => ?_⟩
    · by_cases here : vif = i <;> simp [here, untimed.prune]
    · by_cases here : vif = i <;> simp [here, untimed.pruneDelay]
  have put : ∀ {e : Mrt} (vif : Vif) (value : Int), Untimed e → Untimed (e.putOutvif vif value) :=
    fun _ _ clean => ⟨clean.join, clean.prune, clean.pruneDelay⟩
  rcases runs_ite.mp run with ⟨_, rest⟩ | ⟨_, stop⟩
  · rw [runs_get_bind] at rest
    rcases runs_ite.mp rest with ⟨_, stop⟩ | ⟨_, search⟩
    · obtain ⟨rfl, rfl⟩ := runs_pure.mp stop
      exact put _ _ cleared
    · obtain ⟨member, _, _, stop⟩ := runs_bind.mp search
      obtain ⟨rfl, rfl⟩ := runs_pure.mp stop
      unfold addSgMember
      dsimp only
      split <;> split
      · exact put _ _ (put _ _ cleared)
      · exact put _ _ cleared
      · exact put _ _ cleared
      · exact cleared
  · obtain ⟨rfl, rfl⟩ := runs_pure.mp stop
    exact put _ _ cleared

theorem addSgLoop_untimed {group : Addr} {incoming : Vif} {vifs : List Vif} {so after : Mrt × Int}
    (untimed : Untimed so.1) (run : Runs (foldProgram (addSgVif group incoming) vifs so) s after s') :
    Untimed after.1 := by
  induction vifs generalizing so s with
  | nil =>
      obtain ⟨rfl, rfl⟩ := runs_pure.mp run
      exact untimed
  | cons vif rest ih =>
      obtain ⟨_, _, first, later⟩ := runs_bind.mp run
      exact ih (addSgVif_untimed untimed first) later

theorem announceSg_tends (source : Addr) (newmrt : Ptr) : Within (Tends A) (announceSg host source newmrt) := by
  refine within_bind (steady_tends A) (loadMrt_tends newmrt) fun e => within_ite (fun _ => ?_) fun _ => ?_
  · exact within_onlyIf (steady_tends A) fun _ => planGraft_tends newmrt
  · exact within_onlyIf (steady_tends A) fun _ => sendPrune_tends newmrt

/-- A new record owns the two timers `add_sg` has set for it. -/
theorem linkMrt_tends {source group : Addr} {e : Mrt} (untimed : Untimed e) (key : keyOf e = (source, group))
    (number : Int) : Tends A s ((timed s source group).linkMrt { e with
      outnumber := number
      graftTimerId := 0
      timeoutId := s.id + 1
      checkTimerid := s.id + 1 + 1 }) := by
  obtain ⟨rfl, rfl⟩ := Prod.mk.inj key
  have first : Tends A s (s.setTimer pimSgTimeout (.handleSgTimeout e.source e.group)) :=
    tends_setTimer _ (fun _ => nofun) fun _ => nofun
  have second : Tends A (s.setTimer pimSgTimeout (.handleSgTimeout e.source e.group)) (timed s e.source e.group) :=
    tends_setTimer _ (fun _ => nofun) fun _ => nofun
  refine ⟨fun owned => ?_, (first.trans second).stays⟩
  have one := first.owned owned
  have both := second.owned one
  have timeout := ticket_issued owned.orderly pimSgTimeout (.handleSgTimeout e.source e.group)
  have check := ticket_issued one.orderly pimSgCheck (.checkSg e.source e.group)
  have blank : ∀ A, Ticket (timed s e.source e.group) 0 A := fun A => ticket_blank both.orderly (Int.le_refl 0)
  refine both.linkMrt ⟨?_, fun vif => ?_, fun vif => ?_, blank _, ?_, check⟩
  · rw [untimed.join]
    exact blank _
  · rw [untimed.prune vif]
    exact blank _
  · rw [untimed.pruneDelay vif]
    exact blank _
  · exact ticket_setTimer timeout pimSgCheck (.checkSg e.source e.group)

/-- `add_sg` sets the two timers of its record before it links it. -/
theorem addSg_splits (zero : host.ZeroFilled) {gateway source group : Addr} {incoming : Vif}
    (run : Runs (addSg host gateway source group incoming) s () s') :
    ∃ newmrt, Tends A s ((timed s source group).linkMrt newmrt) ∧
      Tends A ((timed s source group).linkMrt newmrt) s' := by
  unfold addSg at run
  rw [runs_get_bind] at run
  obtain ⟨built, looped, loop, rest⟩ := runs_bind.mp run
  have untimed : Untimed built.1 := by
    refine addSgLoop_untimed ?_ loop
    rw [zero.mrt]
    exact ⟨rfl, fun _ => rfl, fun _ => rfl⟩
  obtain ⟨rfl, _, key⟩ := addSgLoop_keeps loop
  obtain ⟨timeout, _, setTimeout, afterTimeout⟩ := runs_bind.mp rest
  obtain ⟨rfl, rfl⟩ := runs_timerSetTimer.mp setTimeout
  obtain ⟨check, _, setCheck, afterCheck⟩ := runs_bind.mp afterTimeout
  obtain ⟨rfl, rfl⟩ := runs_timerSetTimer.mp setCheck
  obtain ⟨_, _, link, noting⟩ := runs_bind.mp afterCheck
  obtain rfl := runs_modify.mp link
  refine ⟨_, linkMrt_tends untimed key built.2, within_bind (steady_tends A) ?_ (fun _ => ?_) _ _ _ noting⟩
  · exact update_tends (.addedSg source group) trivial fun _ => rfl
  · exact within_bind (steady_tends A) (announceSg_tends source _) fun _ => printSg_tends

theorem addSg_tends (zero : host.ZeroFilled) (gateway source group : Addr) (incoming : Vif) :
    Within (Tends A) (addSg host gateway source group incoming) := by
  intro s _ s' run
  obtain ⟨_, linking, announcing⟩ := addSg_splits zero run
  exact linking.trans announcing

theorem multicastPacketError_tends (zero : host.ZeroFilled) (mydata : MulticastErrorData) (checked routed : Addr) :
    Within (Tends A) (multicastPacketError host mydata checked routed) := by
  refine within_bind (steady_tends A) ?first fun _ => ?second
  case first =>
    refine within_onlyIf (steady_tends A) fun _ => ?_
    refine within_bind (steady_tends A) ?_ fun right => within_onlyIf (steady_tends A) fun _ => ?_
    · refine within_bind (steady_tends A) ?_ fun _ => within_pure (steady_tends A) _
      exact within_ite (fun _ => within_throw _) fun _ => within_pure (steady_tends A) _
    · exact within_bind (steady_tends A) (addSg_tends zero _ _ _ _) fun _ => changeMfc_tends _ _ _
  case second =>
    refine within_onlyIf (steady_tends A) fun _ => within_bind (steady_tends A) (findSg_tends _ _) fun mymrt => ?_
    refine within_ite (fun _ => within_pure (steady_tends A) ()) fun _ => ?_
    refine within_bind (steady_tends A) printSg_tends fun _ => ?_
    refine within_bind (steady_tends A) (loadMrt_tends mymrt) fun e => within_onlyIf (steady_tends A) fun _ => ?_
    exact pimAssertOutput_tends _ _ _ _ _

theorem timer_tends : Within (Tends A) timer := by
  refine within_bind (steady_tends A) (update_tends (.virtualTime 5) trivial fun _ => rfl) fun _ => ?_
  refine within_bind (steady_tends A) (timerSetTimer_tends _ (fun _ => nofun) fun _ => nofun) fun _ => ?_
  exact within_pure (steady_tends A) ()

/-! ## Neighbours -/

theorem unlinkNeighbor_tends (vif : Vif) (address : Addr) (temp : Option Ptr) (pimneighbor : Ptr) :
    Within (Tends A) (unlinkNeighbor vif address temp pimneighbor) := by
  refine within_bind (steady_tends A) (lookup_tends _) fun entry => ?_
  refine within_bind (steady_tends A) (within_get (steady_tends A)) fun state => ?_
  refine within_bind (steady_tends A) (lookup_tends _) fun head => within_bind (steady_tends A) ?_ fun _ => ?_
  · exact within_onlyIf (steady_tends A) fun _ => update_tends (.neighborHead vif 0) trivial fun _ => rfl
  · cases temp with
    | none => exact within_throw _
    | some temp =>
        refine within_bind (steady_tends A) (lookup_tends _) fun _ => ?_
        exact update_tends (.neighborNext temp entry.next) trivial fun _ => rfl

theorem deletePimNeighbor_tends (arg : Ptr) : Within (Tends A) (deletePimNeighbor host arg) := by
  refine within_bind (steady_tends A) (lookup_tends _) fun myentry => ?_
  refine within_ite (fun _ => within_pure (steady_tends A) ()) fun _ => ?_
  refine within_bind (steady_tends A) (lookup_tends _) fun found => ?_
  refine within_bind (steady_tends A) ?_ fun _ => refreshMrt_tends _ _
  exact within_onlyIf (steady_tends A) fun _ => unlinkNeighbor_tends _ _ _ _

theorem addPimNeighbor_tends (src : Addr) (holdtime : Int) (vif : Vif) :
    Within (Tends A) (addPimNeighbor host src holdtime vif) := by
  intro s _ s' run
  unfold addPimNeighbor at run
  rw [runs_get_bind] at run
  obtain ⟨timeoutid, _, set, rest⟩ := runs_bind.mp run
  obtain ⟨rfl, rfl⟩ := runs_timerSetTimer.mp set
  obtain ⟨_, _, link, refresh⟩ := runs_bind.mp rest
  obtain rfl := runs_modify.mp link
  exact (tends_addNeighbor holdtime vif rfl).trans (refreshMrt_tends vif .addNeighbor _ _ _ refresh)

/-- A known neighbour gets a new timeout for its old one. -/
theorem refreshNeighbor_tends (entry : Ptr) (holdtime : Int) :
    Within (Tends (· = .deletePimNeighbor entry)) (refreshNeighbor entry holdtime) := by
  intro s _ s' run
  obtain ⟨_, held, hold, loading⟩ := runs_bind.mp run
  obtain ⟨_, rfl⟩ := runs_storeNeighbor.mp hold
  obtain ⟨n, _, load, clearing⟩ := runs_bind.mp loading
  obtain ⟨here, same⟩ := runs_loadNeighbor.mp load
  rw [same] at clearing
  obtain ⟨_, cleared, clear, arming⟩ := runs_bind.mp clearing
  obtain ⟨timer, _, arm, store⟩ := runs_bind.mp arming
  obtain ⟨rfl, rfl⟩ := runs_timerSetTimer.mp arm
  obtain ⟨⟨record, there⟩, rfl⟩ := runs_storeNeighbor.mp store
  have holds : Tends (· = .deletePimNeighbor entry) s (s.setNeighbor entry fun n => { n with holdtime := holdtime }) :=
    tends_same (timeless_update (.holdtime entry holdtime) trivial s)
  have clears : Tends (· = .deletePimNeighbor entry) (s.setNeighbor entry fun n => { n with holdtime := holdtime })
      cleared := by
    rcases runs_onlyIf.mp clear with ⟨_, clear⟩ | ⟨_, rfl⟩
    · obtain rfl := runs_timerClearTimer.mp clear
      exact tends_clearTimer fun owned => owned.neighbors entry n here
    · exact .refl _
  refine (holds.trans clears).trans ⟨fun owned => ?_, fun _ now item member _ => ?_⟩
  · have issued := ticket_issued owned.orderly holdtime (.deletePimNeighbor entry)
    have armed : Owned (cleared.setTimer holdtime (.deletePimNeighbor entry)) := by
      refine owned.setTimer holdtime (fun _ => nofun) fun other same => ?_
      cases same
      exact ⟨record, there⟩
    exact armed.setNeighborTimer issued
  · exact mem_agenda_setTimer.mpr (Or.inr member)

theorem validPacket_tends (src : Addr) (packet : Memory) (length : Int) :
    Within (Tends A) (validPacket host src packet length) := by
  intro s _ s' run
  rw [(runs_validPacket run).1]
  exact .refl s

/-- A Hello clears at most the timeout of its sender. -/
theorem receiveHello_tends {src : Addr} {data : Memory} {length : Int}
    (run : Runs (receiveHello host src data length) s () s') :
    Tends (fun func => ∃ entry n, func = .deletePimNeighbor entry ∧ s.neighbors.get? entry = some n ∧ n.address = src)
      s s' := by
  obtain ⟨valid, _, check, deciding⟩ := runs_bind.mp run
  rw [(runs_validPacket check).1] at deciding
  rcases runs_ite.mp deciding with ⟨_, stop⟩ | ⟨_, reading⟩
  · rw [(runs_pure.mp stop).2]
    exact .refl s
  obtain ⟨holdtime, _, read, searching⟩ := runs_bind.mp reading
  rw [(runs_liftHeap.mp read).2] at searching
  obtain ⟨entry, _, look, acting⟩ := runs_bind.mp searching
  rw [findneighbor, runs_get_bind, runs_liftHeap] at look
  rw [look.2] at acting
  rcases runs_ite.mp acting with ⟨nonnull, known⟩ | ⟨_, new⟩
  · obtain ⟨n, here, same⟩ := Heap.find_holds look.1 nonnull
    have address : n.address = src := by simpa using same
    rcases runs_ite.mp known with ⟨_, leaves⟩ | ⟨_, stays⟩
    · exact deletePimNeighbor_tends entry _ _ _ leaves
    · refine (refreshNeighbor_tends entry holdtime _ _ _ stays).mono ?_
      rintro _ rfl
      exact ⟨entry, n, rfl, here, address⟩
  · exact addPimNeighbor_tends _ _ _ _ _ _ new

/-! ## Joins and Prunes -/

theorem sendJoin_tends (joindata : PimJoinData) : Within (Tends fun func => ∃ dst,
    func = .sendJoin ⟨joindata.source, joindata.group, dst⟩) (sendJoin host joindata) := by
  intro s _ s' run
  obtain ⟨mymrt, first, looked, acting⟩ := runs_bind.mp run
  obtain ⟨found, same⟩ := runs_findMrt.mp looked
  rw [same] at acting
  rcases runs_ite.mp acting with ⟨_, stop⟩ | ⟨nonnull, joining⟩
  · rw [(runs_pure.mp stop).2]
    exact .refl s
  obtain ⟨e, again, load, clearing⟩ := runs_bind.mp joining
  obtain ⟨here, unchanged⟩ := runs_loadMrt.mp load
  rw [unchanged] at clearing
  obtain ⟨_, _, clear, storing⟩ := runs_bind.mp clearing
  obtain rfl := runs_timerClearTimer.mp clear
  obtain ⟨source, group⟩ := Finds.key found nonnull here
  have clears : Tends (fun func => ∃ dst, func = .sendJoin ⟨joindata.source, joindata.group, dst⟩) s
      (s.clearTimer e.joinDelayTimerId) := by
    refine tends_clearTimer fun owned => ?_
    have ticket := (owned.entries mymrt e here).join
    rwa [source, group] at ticket
  refine clears.trans (within_bind (steady_tends _) ?_ (fun _ => ?_) _ _ _ storing)
  · exact storeMrt_tends fun _ _ orderly owns => owns.noJoin orderly
  · exact pimJoinPruneOutput_tends _ _ _

theorem pruneTimeOut_tends (prunedata : PimPruneData) : Within (Tends A) (pruneTimeOut host prunedata) := by
  refine within_bind (steady_tends A) (findSg_tends _ _) fun mymrt => ?_
  refine within_ite (fun _ => within_pure (steady_tends A) ()) fun _ => ?_
  refine within_bind (steady_tends A) ?_ fun _ => within_bind (steady_tends A) ?_ fun _ => ?_
  · exact storeMrt_tends fun _ _ orderly owns => owns.setPruneTimer _ (ticket_blank orderly (Int.le_refl 0))
  · exact storeRoute_tends fun _ => rfl
  refine within_bind (steady_tends A) (loadMrt_tends mymrt) fun e => ?_
  refine within_bind (steady_tends A) (changeMfc_tends _ _ _) fun _ => ?_
  exact within_bind (steady_tends A) (checkPimState_tends _) fun _ => printSg_tends

/-- A record keeps its source and group through updates of lists and below. -/
theorem keyedAt_of_changes {level : Level} (below : level ≤ .lists) (changes : Changes level B s s') {mymrt : Ptr}
    {source group : Addr} (keyed : KeyedAt s mymrt source group) : KeyedAt s' mymrt source group := by
  intro e here
  have same := congrArg (fun heap => (heap.get? mymrt).map Prod.snd) (sameKeys_of_changes below changes).records
  simp only [Heap.get?_map, Option.map_map, here, Option.map_some] at same
  obtain ⟨old, before, key⟩ := Option.map_eq_some_iff.mp same.symm
  obtain ⟨source_eq, group_eq⟩ := Prod.mk.inj key
  rw [← source_eq, ← group_eq]
  exact keyed old before

theorem setPrune_tends (prunedata : PimPruneData) : Within (Tends A) (setPrune host prunedata) := by
  intro s _ s' run
  obtain ⟨mymrt, first, looked, acting⟩ := runs_bind.mp run
  obtain ⟨found, same⟩ := runs_findMrt.mp looked
  rw [same] at acting
  rcases runs_ite.mp acting with ⟨_, stop⟩ | ⟨nonnull, pruning⟩
  · rw [(runs_pure.mp stop).2]
    exact .refl s
  have keyed : KeyedAt s mymrt prunedata.source prunedata.group := fun e here => Finds.key found nonnull here
  obtain ⟨_, unset, clear, afterClear⟩ := runs_bind.mp pruning
  obtain ⟨_, pruned, prune, afterPrune⟩ := runs_bind.mp afterClear
  obtain ⟨e, _, load, afterLoad⟩ := runs_bind.mp afterPrune
  obtain ⟨_, rfl⟩ := runs_loadMrt.mp load
  obtain ⟨_, _, change, afterChange⟩ := runs_bind.mp afterLoad
  obtain ⟨_, checked, check, arming⟩ := runs_bind.mp afterChange
  obtain ⟨timer, _, arm, store⟩ := runs_bind.mp arming
  obtain ⟨rfl, rfl⟩ := runs_timerSetTimer.mp arm
  obtain ⟨_, rfl⟩ := runs_storeMrt.mp store
  have before : KeyedAt checked mymrt prunedata.source prunedata.group := by
    have unsets : Changes .forwarding Anything s unset :=
      storeField_changes mymrt (.pruneDelayTimer prunedata.vif 0) (Level.quiet_le _) (fun _ => rfl) trivial _ _ _ clear
    have prunes := putOutvif_changes (P := Permits) (A := Anything) (Nat.le_refl _) mymrt prunedata.vif 0 _ _ _ prune
    have changes := changeMfc_changes (P := Permits) (A := Anything) (Nat.le_refl _) host _ _ _ _ _ _ change
    have checks : Changes .forwarding Anything _ checked :=
      checkPimState_changes (fun _ => trivial) host .delLeaf _ _ _ check
    exact keyedAt_of_changes (by decide) (((unsets.trans prunes).trans changes).trans checks) keyed
  have puts : Within (Tends A) (storeMrt mymrt (Mrt.putOutvif prunedata.vif 0)) := storeRoute_tends fun _ => rfl
  have tends : Tends A s checked :=
    (((noPruneDelay_tends mymrt prunedata.vif _ _ _ clear).trans (puts _ _ _ prune)).trans
      (changeMfc_tends _ _ _ _ _ _ change)).trans (checkPimState_tends .delLeaf _ _ _ check)
  refine tends.trans (tends_arm 5 (fun _ => nofun) (fun _ => nofun) fun e here owns issued => ?_)
  obtain ⟨source, group⟩ := before e here
  refine owns.setPruneTimer _ (issued.mono ?_)
  rintro _ rfl
  exact ⟨prunedata, rfl, source.symm, group.symm, rfl⟩

theorem scheduleJoin_tends (mymrt : Ptr) (dst : Addr) : Within (Tends A) (scheduleJoin mymrt dst) := by
  intro s _ s' run
  obtain ⟨e, _, load, arming⟩ := runs_bind.mp run
  obtain ⟨here, rfl⟩ := runs_loadMrt.mp load
  obtain ⟨timer, _, arm, store⟩ := runs_bind.mp arming
  obtain ⟨rfl, rfl⟩ := runs_timerSetTimer.mp arm
  obtain ⟨_, rfl⟩ := runs_storeMrt.mp store
  refine tends_arm 1 (fun _ => nofun) (fun _ => nofun) fun other there owns issued => ?_
  obtain rfl := Option.some.inj (here.symm.trans there)
  refine { owns with join := issued.mono ?_ }
  rintro _ rfl
  exact ⟨dst, rfl⟩

theorem schedulePrune_tends (mymrt : Ptr) (vif : Vif) (holdtime : Int) :
    Within (Tends A) (schedulePrune mymrt vif holdtime) := by
  intro s _ s' run
  obtain ⟨e, _, load, arming⟩ := runs_bind.mp run
  obtain ⟨here, rfl⟩ := runs_loadMrt.mp load
  obtain ⟨timer, _, arm, store⟩ := runs_bind.mp arming
  obtain ⟨rfl, rfl⟩ := runs_timerSetTimer.mp arm
  obtain ⟨_, rfl⟩ := runs_storeMrt.mp store
  refine tends_arm pimPruneDelay (fun _ => nofun) (fun _ => nofun) fun other there owns issued => ?_
  obtain rfl := Option.some.inj (here.symm.trans there)
  refine owns.setPruneDelayTimer vif (issued.mono ?_)
  rintro _ rfl
  exact Or.inl ⟨_, rfl, rfl, rfl, rfl⟩

/-- A slot of an entry is emptied, and the timer in it cleared, if there is one. -/
theorem clearSlot_tends {mymrt : Ptr} {e : Mrt} {timer : Int} {function : Mrt → Mrt}
    (here : s.mrts.get? mymrt = some e) (stands : OwnsTimers s mymrt e → Ticket s timer A)
    (owns : ∀ state e, Orderly state → OwnsTimers state mymrt e → OwnsTimers state mymrt (function e))
    (run : Runs (onlyIf (timer ≠ 0) do
      timerClearTimer timer
      storeMrt mymrt function) s () s') : Tends A s s' := by
  rcases runs_onlyIf.mp run with ⟨_, cancelling⟩ | ⟨_, rfl⟩
  · obtain ⟨_, _, clear, store⟩ := runs_bind.mp cancelling
    obtain rfl := runs_timerClearTimer.mp clear
    refine Tends.trans (tends_clearTimer fun owned => ?_) (storeMrt_tends owns _ _ _ store)
    exact stands (owned.entries mymrt e here)
  · exact .refl _

/-- A timer that holds forwarding on an interface off, for whatever entry. -/
def HoldsOffOn (vif : Vif) (func : Callback) : Prop := ∃ source group, HoldsOff source group vif func

theorem cancelPruneDelay_tends (mymrt : Ptr) (vif : Vif) :
    Within (Tends (HoldsOffOn vif)) (cancelPruneDelay mymrt vif) := by
  intro s _ s' run
  obtain ⟨e, _, load, deciding⟩ := runs_bind.mp run
  obtain ⟨here, rfl⟩ := runs_loadMrt.mp load
  refine clearSlot_tends here (fun owns => ?_) (fun _ _ orderly owns => ?_) deciding
  · exact (owns.pruneDelay vif).mono fun _ holds => ⟨_, _, holds⟩
  · exact owns.setPruneDelayTimer vif (ticket_blank orderly (Int.le_refl 0))

/-- A Join that waits for its delay. -/
def JoinsLater (func : Callback) : Prop := ∃ data, func = .sendJoin data

theorem overheardJoin_tends (all : Int) (source : Addr) (mymrt : Ptr) :
    Within (Tends JoinsLater) (overheardJoin all source mymrt) := by
  intro s _ s' run
  obtain ⟨e, _, load, deciding⟩ := runs_bind.mp run
  obtain ⟨here, rfl⟩ := runs_loadMrt.mp load
  obtain ⟨_, _, cancel, stop⟩ := runs_bind.mp deciding
  obtain ⟨_, rfl⟩ := runs_pure.mp stop
  refine clearSlot_tends here (fun owns => ?_) (fun _ _ orderly owns => owns.noJoin orderly) cancel
  exact owns.join.mono fun _ ⟨_, same⟩ => ⟨_, same⟩

/-- A Graft that waits to be sent again. -/
def GraftsLater (func : Callback) : Prop := ∃ mymrt, func = .planGraft mymrt

theorem ackEntry_tends (mymrt : Ptr) : Within (Tends GraftsLater) (ackEntry mymrt) := by
  intro s _ s' run
  obtain ⟨e, _, load, deciding⟩ := runs_bind.mp run
  obtain ⟨here, rfl⟩ := runs_loadMrt.mp load
  refine clearSlot_tends here (fun owns => ?_) (fun _ _ orderly owns => ?_) deciding
  · exact owns.graft.mono fun _ same => ⟨_, same⟩
  · exact { owns with graft := ticket_blank orderly (Int.le_refl 0) }

/-! ## The receivers of `pim.c` -/

theorem eachSource_tends {data : Memory} {group : Addr} {action : Addr → Ptr → Act Int}
    (inside : ∀ source mymrt, Within (Tends A) (action source mymrt)) (mydata : Int) :
    Within (Tends A) (eachSource data group action mydata) := by
  refine within_ite (fun _ => within_pure (steady_tends A) _) fun _ => ?_
  refine within_bind (steady_tends A) (findSg_tends _ _) fun mymrt => ?_
  refine within_ite (fun _ => within_pure (steady_tends A) _) fun _ => ?_
  exact within_bind (steady_tends A) (inside _ mymrt) fun _ => within_pure (steady_tends A) _

theorem eachGroup_tends {data : Memory} {joinAction pruneAction : Int → Addr → Ptr → Act Int}
    (joins : ∀ all source mymrt, Within (Tends A) (joinAction all source mymrt))
    (prunes : ∀ all source mymrt, Within (Tends A) (pruneAction all source mymrt)) (mydata : Int) :
    Within (Tends A) (eachGroup data joinAction pruneAction mydata) := by
  refine within_ite (fun _ => within_pure (steady_tends A) _) fun _ => ?_
  refine within_bind (steady_tends A) (within_times (steady_tends A) (fun mydata => ?_) _ _) fun mydata => ?_
  · exact eachSource_tends (joins _) mydata
  · exact within_times (steady_tends A) (fun mydata => eachSource_tends (prunes _) mydata) _ _

theorem overheardPrune_tends (upstream : Addr) (all : Int) (source : Addr) (mymrt : Ptr) :
    Within (Tends A) (overheardPrune upstream all source mymrt) := by
  refine within_bind (steady_tends A) (loadMrt_tends mymrt) fun e => ?_
  refine within_ite (fun _ => ?_) fun _ => within_pure (steady_tends A) _
  refine within_bind (steady_tends A) ?_ fun _ => within_pure (steady_tends A) _
  exact within_onlyIf (steady_tends A) fun _ => scheduleJoin_tends mymrt upstream

theorem addressedPrune_tends (vif : Vif) (data : Memory) (length holdtime all : Int) (source : Addr) (mymrt : Ptr) :
    Within (Tends A) (addressedPrune host vif data length holdtime all source mymrt) := by
  refine within_bind (steady_tends A) (loadMrt_tends mymrt) fun e => ?_
  refine within_bind (steady_tends A) ?_ fun _ => within_pure (steady_tends A) _
  refine within_onlyIf (steady_tends A) fun _ => within_bind (steady_tends A) (writeSendBuf_tends _) fun _ => ?_
  exact within_bind (steady_tends A) (pimdmOutput_tends _ _ _ _ _) fun _ => schedulePrune_tends mymrt vif holdtime

theorem receiveJoinPrune_tends (src : Addr) (data : Memory) (length : Int) :
    Within (Tends fun func => JoinsLater func ∨ HoldsOffOn (findVifDirect host src) func)
      (receiveJoinPrune host src data length) := by
  refine within_ite (fun _ => within_pure (steady_tends _) ()) fun _ => ?_
  refine within_bind (steady_tends _) (validPacket_tends src data length) fun valid => ?_
  refine within_ite (fun _ => within_pure (steady_tends _) ()) fun _ => within_ite (fun _ => ?_) fun _ => ?_
  · refine within_bind (steady_tends _) (lookup_tends _) fun neighbor => within_onlyIf (steady_tends _) fun _ => ?_
    refine within_bind (steady_tends _) ?_ fun _ => within_pure (steady_tends _) ()
    refine within_times (steady_tends _) (fun mydata => ?_) _ _
    refine eachGroup_tends (fun all source mymrt => ?_) (fun all source mymrt => ?_) mydata
    · exact within_tends_mono (overheardJoin_tends all source mymrt) fun _ => Or.inl
    · exact overheardPrune_tends _ all source mymrt
  · refine within_bind (steady_tends _) ?_ fun _ => within_pure (steady_tends _) ()
    refine within_times (steady_tends _) (fun mydata => ?_) _ _
    refine eachGroup_tends (fun all source mymrt => ?_) (fun all source mymrt => ?_) mydata
    · refine within_bind (steady_tends _) ?_ fun _ => within_pure (steady_tends _) _
      exact within_tends_mono (cancelPruneDelay_tends mymrt _) fun _ => Or.inr
    · exact addressedPrune_tends _ data length _ all source mymrt

theorem assertUpstream_tends (mymrt : Ptr) (body : AssertBody) : Within (Tends A) (assertUpstream mymrt body) := by
  refine within_bind (steady_tends A) (loadMrt_tends mymrt) fun e => ?_
  refine within_ite (fun _ => within_pure (steady_tends A) ()) fun _ => ?_
  exact within_onlyIf (steady_tends A) fun _ => storeRoute_tends fun _ => rfl

theorem loseAssert_tends (mymrt : Ptr) (vif : Vif) : Within (Tends A) (do
    let timer ← timerSetTimer pimAssertTimer (.activeForward vif)
    storeMrt mymrt (Mrt.setPruneDelayTimer vif timer)) := by
  intro s _ s' run
  obtain ⟨timer, _, arm, store⟩ := runs_bind.mp run
  obtain ⟨rfl, rfl⟩ := runs_timerSetTimer.mp arm
  obtain ⟨_, rfl⟩ := runs_storeMrt.mp store
  refine tends_arm pimAssertTimer (fun _ => nofun) (fun _ => nofun) fun e here owns issued => ?_
  exact owns.setPruneDelayTimer vif (issued.mono fun _ => Or.inr)

theorem receiveAssert_tends (src : Addr) (data : Memory) (length : Int) :
    Within (Tends A) (receiveAssert host src data length) := by
  refine within_ite (fun _ => within_pure (steady_tends A) ()) fun _ => ?_
  refine within_bind (steady_tends A) (validPacket_tends src data length) fun valid => ?_
  refine within_ite (fun _ => within_pure (steady_tends A) ()) fun _ => ?_
  refine within_bind (steady_tends A) (findSg_tends _ _) fun mymrt => ?_
  refine within_ite (fun _ => within_pure (steady_tends A) ()) fun _ => ?_
  refine within_bind (steady_tends A) (loadMrt_tends mymrt) fun e => ?_
  refine within_ite (fun _ => assertUpstream_tends mymrt _) fun _ => ?_
  refine within_bind (steady_tends A) (loadMrt_tends mymrt) fun e => ?_
  refine within_ite (fun _ => within_pure (steady_tends A) ()) fun _ => ?_
  exact within_ite (fun _ => pimAssertOutput_tends _ _ _ _ _) fun _ => loseAssert_tends mymrt _

theorem activeForward_tends : Within (Tends A) (activeForward host) := by
  refine within_bind (steady_tends A) ?_ fun _ => checkPimState_tends _
  refine within_bind (steady_tends A) (within_get (steady_tends A)) fun state => ?_
  exact within_forEach (steady_tends A) (fun _ => within_throw _) _ _

theorem graftEntry_tends (vif : Vif) (mymrt : Ptr) : Within (Tends (HoldsOffOn vif)) (graftEntry host vif mymrt) := by
  refine within_bind (steady_tends _) (cancelPruneDelay_tends mymrt vif) fun _ => ?_
  refine within_bind (steady_tends _) (loadMrt_tends mymrt) fun e => within_onlyIf (steady_tends _) fun _ => ?_
  exact within_bind (steady_tends _) (storeRoute_tends fun _ => rfl) fun _ => changeMfc_tends _ _ _

theorem receivePimGraft_tends (src : Addr) (data : Memory) (length : Int) :
    Within (Tends (HoldsOffOn (findVifDirect host src))) (receivePimGraft host src data length) := by
  refine within_ite (fun _ => within_pure (steady_tends _) ()) fun _ => ?_
  refine within_bind (steady_tends _) (validPacket_tends src data length) fun valid => ?_
  refine within_ite (fun _ => within_pure (steady_tends _) ()) fun _ => ?_
  refine within_bind (steady_tends _) (within_times (steady_tends _) (fun mydata => ?_) _ _) fun _ =>
    within_pure (steady_tends _) ()
  refine within_ite (fun _ => within_pure (steady_tends _) _) fun _ => ?_
  refine within_bind (steady_tends _) (within_times (steady_tends _) (fun mydata => ?_) _ _) fun _ =>
    within_pure (steady_tends _) _
  refine within_ite (fun _ => within_pure (steady_tends _) _) fun _ => ?_
  refine within_bind (steady_tends _) (writeSendBuf_tends _) fun _ => ?_
  refine within_bind (steady_tends _) (pimdmOutput_tends _ _ _ _ _) fun _ => ?_
  refine within_bind (steady_tends _) (findSg_tends _ _) fun mymrt => ?_
  refine within_ite (fun _ => within_pure (steady_tends _) _) fun _ => ?_
  exact within_bind (steady_tends _) (graftEntry_tends _ mymrt) fun _ => within_pure (steady_tends _) _

theorem receivePimGraftAck_tends (src : Addr) (data : Memory) (length : Int) :
    Within (Tends GraftsLater) (receivePimGraftAck host src data length) := by
  refine within_ite (fun _ => within_pure (steady_tends _) ()) fun _ => ?_
  refine within_bind (steady_tends _) (validPacket_tends src data length) fun valid => ?_
  refine within_ite (fun _ => within_pure (steady_tends _) ()) fun _ => ?_
  refine within_bind (steady_tends _) (within_times (steady_tends _) (fun mydata => ?_) _ _) fun _ =>
    within_pure (steady_tends _) ()
  refine within_ite (fun _ => within_pure (steady_tends _) _) fun _ => ?_
  refine within_times (steady_tends _) (fun mydata => ?_) _ _
  refine eachSource_tends (fun _ mymrt => ?_) mydata
  exact within_bind (steady_tends _) (ackEntry_tends mymrt) fun _ => within_pure (steady_tends _) _

end PimDm.Refinement
