import PimDm.Refinement.Completion
import PimDm.Refinement.NewEntry
import PimDm.Refinement.Courses
import PimDm.Refinement.Checks
import PimDm.Refinement.GroupRecords
import PimDm.Refinement.Steps

/-!
# What always completes

On memory that models a table the timers and receivers run to their end, but for the few
places that follow a pointer nobody has set.  The searches find the records they look for,
the loops end with the lists, and a record in a list can be read and written.
-/

namespace PimDm.Refinement

open PimDm.Foundation PimDm.Source PimDm.Effect PimDm.Routing

variable {s s' : Daemon} {t : Table} {host : Host} {data : Memory} {item : Ptr × Route}

theorem Completes.of_achieves {program : Act Unit} {P : Daemon → Prop} {Q : Unit → Daemon → Prop}
    (achieves : Achieves P program Q) (holds : P s) : Completes program s := by
  obtain ⟨_, s', run, _⟩ := achieves s holds
  exact ⟨s', run⟩

theorem completes_onlyIf {condition : Prop} [Decidable condition] {program : Act Unit}
    (inside : condition → Completes program s) : Completes (onlyIf condition program) s := by
  by_cases holds : condition
  · obtain ⟨s', run⟩ := inside holds
    exact ⟨s', runs_onlyIf.mpr (Or.inl ⟨holds, run⟩)⟩
  · exact ⟨s, runs_onlyIf.mpr (Or.inr ⟨holds, rfl⟩)⟩

theorem timerClearTimer_achieves (timer : Int) :
    Achieves (fun s => Models s t) (timerClearTimer timer) fun _ s => Models s t :=
  achieves_modify fun _ models => models_quiet models (.clearTimer timer) (Level.quiet_le _)

/-! ## Delayed joins and prunes -/

theorem sendJoin_achieves (host : Host) (joindata : PimJoinData) :
    Achieves (fun s => Models s t) (sendJoin host joindata) fun _ s => Models s t := by
  refine lookup_achieves (routeIsFor joindata.source joindata.group) (fun _ => rfl)
    (fun _ => achieves_pure fun _ => id) fun item _ member => ?_
  refine achieves_bind (loadMrt_achieves member) fun e => achieves_of_fact fun _ => ?_
  refine achieves_bind (timerClearTimer_achieves _) fun _ => ?_
  refine achieves_bind (storeMrt_hidden_achieves member (fun _ => rfl) fun _ => rfl) fun _ => ?_
  exact pimJoinPruneOutput_achieves member .join 0

theorem putOutvif_achieves (member : item ∈ t.entries) (vif : Vif) (value : Int) :
    Achieves (fun s => Models s t) (storeMrt item.1 (Mrt.putOutvif vif value)) fun _ s =>
      Models s (t.amendEntry item.1 (routeSetOutvif vif value 0)) := by
  intro s models
  obtain ⟨e, found, _⟩ := models.entries.found member
  refine ⟨(), _, runs_storeMrt.mpr ⟨⟨e, found⟩, rfl⟩, models.setMrt item.1 (fun _ => rfl) fun e => ?_⟩
  simp [Mrt.putOutvif, routeSetOutvif]

/-- The store of a delayed prune or of its end, with what the kernel and the upstream are told. -/
theorem putAndTell_achieves (member : item ∈ t.entries) (vif : Vif) (value : Int) (judge : Judge) {rest : Act Unit}
    {Q : Unit → Daemon → Prop} (continues : ∀ t', (item.1, routeSetOutvif vif value 0 item.2) ∈ t'.entries →
      Achieves (fun s => Models s t') rest Q) : Achieves (fun s => Models s t) (do
        storeMrt item.1 (Mrt.putOutvif vif value)
        let e ← loadMrt item.1
        changeMfc host e.source e.group e.incoming
        checkPimState host judge
        rest) Q := by
  have stored := mem_amendEntry member (routeSetOutvif vif value 0)
  have again := loadMrt_achieves stored
  refine achieves_bind (putOutvif_achieves member vif value) fun _ => ?_
  refine achieves_bind again fun e => achieves_of_fact fun _ => ?_
  refine achieves_bind (changeMfc_achieves _ _ _) fun _ => achieves_bind (checkPimState_achieves _) fun _ => ?_
  refine continues _ ?_
  rwa [Table.changeMfc_entries]

theorem pruneTimeOut_achieves (host : Host) (prunedata : PimPruneData) :
    Achieves (fun s => Models s t) (pruneTimeOut host prunedata) fun _ _ => True := by
  refine lookup_achieves (routeIsFor prunedata.source prunedata.group) (fun _ => rfl)
    (fun _ => achieves_pure fun _ _ => trivial) fun item _ member => ?_
  refine achieves_bind (storeMrt_hidden_achieves member (fun _ => rfl) fun _ => rfl) fun _ => ?_
  exact putAndTell_achieves member prunedata.vif 1 .addLeaf fun _ _ => printSg_achieves.mono fun _ _ _ => trivial

theorem setPrune_achieves (host : Host) (prunedata : PimPruneData) :
    Achieves (fun s => Models s t) (setPrune host prunedata) fun _ _ => True := by
  refine lookup_achieves (routeIsFor prunedata.source prunedata.group) (fun _ => rfl)
    (fun _ => achieves_pure fun _ _ => trivial) fun item _ member => ?_
  refine achieves_bind (storeMrt_hidden_achieves member (fun _ => rfl) fun _ => rfl) fun _ => ?_
  refine putAndTell_achieves member prunedata.vif 0 .delLeaf fun t' stored => ?_
  refine achieves_bind (timerSetTimer_achieves _) fun timer => ?_
  have noted : Achieves (fun s => Models s t') (storeMrt item.1 (Mrt.setPruneTimer prunedata.vif timer))
      fun _ s => Models s t' := storeMrt_hidden_achieves stored (fun _ => rfl) fun _ => rfl
  exact noted.mono fun _ _ _ => trivial

theorem cancelPruneDelay_achieves (member : item ∈ t.entries) (vif : Vif) :
    Achieves (fun s => Models s t) (cancelPruneDelay item.1 vif) fun _ s => Models s t := by
  refine achieves_bind (loadMrt_achieves member) fun e => achieves_of_fact fun _ => achieves_onlyIf fun _ => ?_
  refine achieves_bind (timerClearTimer_achieves _) fun _ => ?_
  exact storeMrt_hidden_achieves member (fun _ => rfl) fun _ => rfl

theorem scheduleJoin_achieves (member : item ∈ t.entries) (dst : Addr) :
    Achieves (fun s => Models s t) (scheduleJoin item.1 dst) fun _ s => Models s t := by
  refine achieves_bind (loadMrt_achieves member) fun e => achieves_of_fact fun _ => ?_
  refine achieves_bind (timerSetTimer_achieves _) fun timer => ?_
  exact storeMrt_hidden_achieves member (fun _ => rfl) fun _ => rfl

theorem schedulePrune_achieves (member : item ∈ t.entries) (vif : Vif) (holdtime : Int) :
    Achieves (fun s => Models s t) (schedulePrune item.1 vif holdtime) fun _ s => Models s t := by
  refine achieves_bind (loadMrt_achieves member) fun e => achieves_of_fact fun _ => ?_
  refine achieves_bind (timerSetTimer_achieves _) fun timer => ?_
  exact storeMrt_hidden_achieves member (fun _ => rfl) fun _ => rfl

/-! ## Join/Prunes -/

/-- A source of a Join/Prune is handled whatever memory the cursor points to. -/
theorem eachSource_achieves {action : Addr → Ptr → Act Int} (inside : ∀ source, ∀ item ∈ t.entries,
      Achieves (fun s => Models s t) (action source item.1) fun _ s => Models s t) (data : Memory) (group : Addr)
    (mydata : Int) : Achieves (fun s => Models s t) (eachSource data group action mydata) fun _ s => Models s t := by
  refine achieves_ite (fun _ => achieves_pure fun _ => id) fun _ => ?_
  refine lookup_achieves (routeIsFor (load32 data (mydata + 4)) group) (fun _ => rfl)
    (fun _ => achieves_pure fun _ => id) fun item _ member => ?_
  exact achieves_bind (inside _ item member) fun moved => achieves_pure fun _ => id

theorem eachGroup_achieves {joinAction pruneAction : Int → Addr → Ptr → Act Int}
    (joins : ∀ all source, ∀ item ∈ t.entries,
      Achieves (fun s => Models s t) (joinAction all source item.1) fun _ s => Models s t)
    (prunes : ∀ all source, ∀ item ∈ t.entries,
      Achieves (fun s => Models s t) (pruneAction all source item.1) fun _ s => Models s t)
    (data : Memory) (mydata : Int) :
    Achieves (fun s => Models s t) (eachGroup data joinAction pruneAction mydata) fun _ s => Models s t := by
  refine achieves_ite (fun _ => achieves_pure fun _ => id) fun _ => ?_
  refine achieves_bind (achieves_rounds (eachSource_achieves (joins _) data _) _ _) fun _ => ?_
  exact achieves_rounds (eachSource_achieves (prunes _) data _) _ _

theorem overheardJoin_achieves (all : Int) (source : Addr) (member : item ∈ t.entries) :
    Achieves (fun s => Models s t) (overheardJoin all source item.1) fun _ s => Models s t := by
  refine achieves_bind (loadMrt_achieves member) fun e => achieves_of_fact fun _ => ?_
  refine achieves_bind (achieves_onlyIf fun _ => ?_) fun _ => achieves_pure fun _ => id
  refine achieves_bind (timerClearTimer_achieves _) fun _ => ?_
  exact storeMrt_hidden_achieves member (fun _ => rfl) fun _ => rfl

theorem overheardPrune_achieves (upstream : Addr) (all : Int) (source : Addr) (member : item ∈ t.entries) :
    Achieves (fun s => Models s t) (overheardPrune upstream all source item.1) fun _ s => Models s t := by
  refine achieves_bind (loadMrt_achieves member) fun e => achieves_of_fact fun _ => ?_
  refine achieves_ite (fun _ => ?_) fun _ => achieves_pure fun _ => id
  exact achieves_bind (achieves_onlyIf fun _ => scheduleJoin_achieves member upstream) fun _ =>
    achieves_pure fun _ => id

theorem addressedJoin_achieves (vif : Vif) (all : Int) (source : Addr) (member : item ∈ t.entries) :
    Achieves (fun s => Models s t) (addressedJoin vif all source item.1) fun _ s => Models s t :=
  achieves_bind (cancelPruneDelay_achieves member vif) fun _ => achieves_pure fun _ => id

theorem addressedPrune_achieves (host : Host) (vif : Vif) (data : Memory) (length holdtime : Int) (all : Int)
    (source : Addr) (member : item ∈ t.entries) :
    Achieves (fun s => Models s t) (addressedPrune host vif data length holdtime all source item.1) fun _ s =>
      Models s t := by
  refine achieves_bind (loadMrt_achieves member) fun e => achieves_of_fact fun _ => ?_
  refine achieves_bind (achieves_onlyIf fun _ => ?_) fun _ => achieves_pure fun _ => id
  refine achieves_bind (writeSendBuf_achieves _) fun _ => achieves_bind (pimdmOutput_achieves _ _ _ _ _) fun _ => ?_
  exact schedulePrune_achieves member vif holdtime

/-- A Join/Prune with a right checksum is handled to its end. -/
theorem receiveJoinPrune_completes (models : Models s t) {src : Addr} {length : Int}
    (direct : findVifDirect host src ≠ 0) (correct : inetCksum data length = 0) :
    Completes (receiveJoinPrune host src data length) s := by
  unfold receiveJoinPrune
  rw [if_neg direct]
  refine completes_bind true (validPacket_accepts correct direct) ?_
  have overheard : Achieves (fun s => Models s t) (do
      let neighbor ← findneighbor (readJoinPruneHeader data).upstream (findVifDirect host src)
      onlyIf (neighbor ≠ 0) do
        let _ ← times (eachGroup data overheardJoin (overheardPrune (readJoinPruneHeader data).upstream))
          (readJoinPruneHeader data).numGroups.toNat groupsStart) fun _ s => Models s t := by
    have search : Achieves (fun s => Models s t)
        (findneighbor (readJoinPruneHeader data).upstream (findVifDirect host src)) fun _ s => Models s t :=
      fun s models => ⟨_, s, models.runs_findneighbor.mpr ⟨rfl, rfl⟩, models⟩
    refine achieves_bind search fun neighbor => achieves_onlyIf fun _ => ?_
    refine achieves_bind (achieves_rounds (eachGroup_achieves (fun all source item member =>
      overheardJoin_achieves all source member) (fun all source item member =>
      overheardPrune_achieves _ all source member) data) _ _) fun _ => achieves_pure fun _ => id
  have addressed : Achieves (fun s => Models s t) (do
      let _ ← times (eachGroup data (addressedJoin (findVifDirect host src)) (addressedPrune host
        (findVifDirect host src) data length (readJoinPruneHeader data).holdtime))
        (readJoinPruneHeader data).numGroups.toNat groupsStart) fun _ s => Models s t :=
    achieves_bind (achieves_rounds (eachGroup_achieves (fun all source item member =>
      addressedJoin_achieves _ all source member) (fun all source item member =>
      addressedPrune_achieves _ _ _ _ _ all source member) data) _ _) fun _ => achieves_pure fun _ => id
  refine Completes.of_achieves (P := fun s => Models s t) (Q := fun _ s => Models s t) ?_ models
  refine achieves_ite (fun _ => achieves_pure fun _ => id) fun _ => ?_
  exact achieves_ite (fun _ => overheard) fun _ => addressed

/-! ## Asserts -/

/-- An Assert with a right checksum is handled to its end. -/
theorem receiveAssert_completes (models : Models s t) {src : Addr} {length : Int}
    (direct : findVifDirect host src ≠ 0) (correct : inetCksum data length = 0) :
    Completes (receiveAssert host src data length) s := by
  unfold receiveAssert
  rw [if_neg direct]
  refine completes_bind true (validPacket_accepts correct direct) ?_
  rw [if_neg Bool.noConfusion]
  have body : Achieves (fun s => Models s t) (do
      let mymrt ← findSg (readAssert data).source (readAssert data).group
      if mymrt = 0 then pure ()
      else
        let e ← loadMrt mymrt
        if findVifDirect host src = e.incoming then assertUpstream mymrt (readAssert data)
        else assertDownstream host (findVifDirect host src) mymrt (readAssert data)) fun _ _ => True := by
    refine lookup_achieves (routeIsFor (readAssert data).source (readAssert data).group) (fun _ => rfl)
      (fun _ => achieves_pure fun _ _ => trivial) fun item _ member => ?_
    intro s models
    obtain ⟨e, content, _⟩ := models.entries.found member
    by_cases incoming : findVifDirect host src = e.incoming
    · obtain ⟨s', run⟩ := assertUpstream_completes content (readAssert data)
      exact ⟨(), s', runs_bind.mpr ⟨e, s, runs_loadMrt.mpr ⟨content, rfl⟩,
        runs_ite.mpr (Or.inl ⟨incoming, run⟩)⟩, trivial⟩
    · obtain ⟨s', run⟩ := assertDownstream_completes content host (findVifDirect host src) (readAssert data)
      exact ⟨(), s', runs_bind.mpr ⟨e, s, runs_loadMrt.mpr ⟨content, rfl⟩,
        runs_ite.mpr (Or.inr ⟨incoming, run⟩)⟩, trivial⟩
  exact Completes.of_achieves body models

/-! ## The timers of the table -/

/-- The Graft timer of a record completes whether the record is still in the table or not. -/
theorem planGraft_completes (models : Models s t) {mymrt : Ptr} {e : Mrt} (content : s.mrts.get? mymrt = some e) :
    Completes (planGraft host mymrt) s := by
  refine completes_bind e (runs_loadMrt.mpr ⟨content, rfl⟩) (completes_bind _ (models.runs_findSg.mpr ⟨rfl, rfl⟩) ?_)
  have sends : Completes (do
      pimGraftOutput host mymrt
      let timer ← timerSetTimer pimGraftTimer (.planGraft mymrt)
      storeMrt mymrt fun e => { e with graftTimerId := timer }) s := by
    have output : Runs (pimGraftOutput host mymrt) s () _ :=
      runs_bind.mpr ⟨e, s, runs_loadMrt.mpr ⟨content, rfl⟩, runs_bind.mpr ⟨(), _, runs_modify.mpr rfl,
        runs_pimdmOutput.mpr rfl⟩⟩
    refine completes_bind () output (completes_bind _ (runs_timerSetTimer.mpr ⟨rfl, rfl⟩) ?_)
    exact ⟨_, runs_storeMrt.mpr ⟨⟨e, content⟩, rfl⟩⟩
  by_cases direct : e.upstream = e.source
  · rw [if_pos direct]
    exact ⟨s, runs_pure.mpr ⟨rfl, rfl⟩⟩
  rw [if_neg direct]
  by_cases listed : addressOf (t.find (routeIsFor e.source e.group)) ≠ 0
  · rwa [if_pos listed]
  · rw [if_neg listed]
    exact ⟨s, runs_pure.mpr ⟨rfl, rfl⟩⟩

/-- `print_sg` follows a null-terminated table to its end. -/
theorem printSg_runs {β : Type} {image : Mrt → β} {items : List (Ptr × β)}
    (shows : s.mrts.Shows Mrt.next image s.themrt items) : Runs printSg s () s := by
  have enough := Nat.lt_succ_of_le shows.chain.length_le
  have idle : Achieves (fun now => now = s) (forList (fun _ => pure ()) (items.map Prod.fst) : Act Unit)
      fun _ now => now = s := achieves_forList fun _ _ => achieves_pure fun _ => id
  obtain ⟨_, _, run, rfl⟩ := idle s rfl
  unfold printSg forMrt
  rw [runs_get_bind]
  exact (forEach_runs (fun _ => within_pure (steady_same _) ()) shows.chain enough).mpr run

/-- The record before the one to remove is known where it is needed. -/
theorem unlinkSg_completes (models : Models s t) {source group : Addr} {ahead behind : List (Ptr × Route)}
    (split : t.entries = ahead ++ item :: behind) (here : routeIsFor source group item.2 = true) {first : Mrt}
    (head : s.mrts.get? s.themrt = some first) (mymrt : Mrt) :
    Completes (unlinkSg source group first mymrt (ahead.getLast?.map Prod.fst)) s := by
  by_cases front : first.isFor source group = true
  · exact ⟨_, runs_ite.mpr (Or.inl ⟨front, runs_modify.mpr rfl⟩)⟩
  rcases List.eq_nil_or_concat' ahead with rfl | ⟨before, last, rfl⟩
  · have shows := models.entries
    rw [split, List.nil_append] at shows
    obtain ⟨e, content, same⟩ := shows.found (List.mem_cons_self ..)
    rw [← shows.start_eq, head] at content
    obtain rfl := Option.some.inj content
    rw [← same] at here
    exact absurd here front
  · have member : last ∈ t.entries := by simp [split]
    obtain ⟨e, content, _⟩ := models.entries.found member
    rw [List.getLast?_concat, Option.map_some]
    exact ⟨_, runs_ite.mpr (Or.inr ⟨front, runs_storeMrt.mpr ⟨⟨e, content⟩, rfl⟩⟩)⟩

/-- The end of `delete_sg` once the record is found. -/
theorem removeSg_completes (models : Models s t) {source group : Addr} {ahead behind : List (Ptr × Route)}
    (split : t.entries = ahead ++ item :: behind) (before : ∀ other ∈ ahead, routeIsFor source group other.2 = false)
    (here : routeIsFor source group item.2 = true) {first mymrt : Mrt} (head : s.mrts.get? s.themrt = some first)
    (found : s.mrts.get? item.1 = some mymrt) : ∃ s', Runs (do
      unlinkSg source group first mymrt (ahead.getLast?.map Prod.fst)
      observe (.deleteSg source group)
      printSg
      pure 1 : Act Int) s 1 s' := by
  have shows := models.entries
  rw [split] at shows
  obtain ⟨_, unlink⟩ := unlinkSg_completes models split here head mymrt
  obtain ⟨themrt, mrts, rfl, shorter⟩ := unlinkSg_shows shows (fun _ => rfl)
    (fun _ _ => rfl) before here head found unlink
  have print := printSg_runs (s := Daemon.observe { s with themrt := themrt, mrts := mrts }
    (.deleteSg source group)) shorter
  exact ⟨_, runs_bind.mpr ⟨(), _, unlink, runs_bind.mpr ⟨(), _, runs_modify.mpr rfl, runs_bind.mpr ⟨(), _, print,
    runs_pure.mpr ⟨rfl, rfl⟩⟩⟩⟩⟩

/-- `handle_sg_timeout` completes whether the entry is there or not. -/
theorem handleSgTimeout_completes (models : Models s t) (source group : Addr) :
    Completes (handleSgTimeout source group) s := by
  suffices deletes : ∃ result s', Runs (deleteSg source group) s result s' by
    obtain ⟨result, s', run⟩ := deletes
    exact ⟨s', runs_bind.mpr ⟨result, s', run, runs_pure.mpr ⟨rfl, rfl⟩⟩⟩
  have search : ∀ found, s.mrts.findTrailing Mrt.next (Mrt.isFor source group) (s.mrts.size + 1) none s.themrt =
      .ok found → Runs (findMrtTrailing (Mrt.isFor source group)) s found s := by
    intro found result
    rw [findMrtTrailing, runs_get_bind, runs_liftHeap]
    exact ⟨result, rfl⟩
  rcases models.entries.findTrailing_eq (Mrt.isFor source group) (routeIsFor source group) (fun _ => rfl) with
    ⟨last, none, _⟩ | ⟨ahead, item, behind, split, before, here, some⟩
  · refine ⟨0, s, runs_bind.mpr ⟨_, s, search _ none, runs_ite.mpr (Or.inl ⟨rfl, ?_⟩)⟩⟩
    exact runs_bind.mpr ⟨(), s, printSg_runs models.entries, runs_pure.mpr ⟨rfl, rfl⟩⟩
  have member : item ∈ t.entries := by simp [split]
  obtain ⟨mymrt, content, _⟩ := models.entries.found member
  obtain ⟨top, rest, starts⟩ := List.exists_cons_of_ne_nil (List.ne_nil_of_mem member)
  have headed := models.entries
  rw [starts] at headed
  obtain ⟨first, head, _⟩ := headed.found (List.mem_cons_self ..)
  rw [← headed.start_eq] at head
  have cleared : Models ((s.setMfc source group .none).clearTimer mymrt.checkTimerid) (t.setMfc source group .none) :=
    models_quiet (models.setMfc source group .none) (.clearTimer mymrt.checkTimerid) (Level.quiet_le _)
  have front : ((s.setMfc source group .none).clearTimer mymrt.checkTimerid).mrts.get?
      ((s.setMfc source group .none).clearTimer mymrt.checkTimerid).themrt = .some first := by
    rwa [clearTimer_mrts, clearTimer_themrt]
  have found : ((s.setMfc source group .none).clearTimer mymrt.checkTimerid).mrts.get? item.1 = .some mymrt := by
    rwa [clearTimer_mrts]
  obtain ⟨s', removes⟩ := removeSg_completes cleared split before here front found
  refine ⟨1, s', runs_bind.mpr ⟨_, s, search _ some, runs_ite.mpr (Or.inr ⟨models.entries.nonnull member, ?_⟩)⟩⟩
  refine runs_bind.mpr ⟨mymrt, s, runs_loadMrt.mpr ⟨content, rfl⟩, ?_⟩
  rw [runs_get_bind]
  refine runs_bind.mpr ⟨first, s, runs_loadMrt.mpr ⟨head, rfl⟩, runs_bind.mpr ⟨(), _, runs_modify.mpr rfl, ?_⟩⟩
  exact runs_bind.mpr ⟨(), _, runs_timerClearTimer.mpr rfl, removes⟩

/-! ## Upcalls -/

/-- A packet whose source has a route back is handled to its end. -/
theorem newMulticastPacket_completes (zero : host.ZeroFilled) (models : Models s t) {mydata : MulticastErrorData}
    {checked : Addr} (routed : Addr) (route : getUpstream host checked mydata.source ≠ 0) :
    Completes (newMulticastPacket host mydata checked routed) s := by
  have ask : Runs (checkIncoming host checked mydata.vif mydata.source) s
      (findVifDirect host (getUpstream host checked mydata.source) == mydata.vif) s := by
    refine runs_bind.mpr ⟨_, s, runs_ite.mpr (Or.inr ⟨route, runs_pure.mpr ⟨rfl, rfl⟩⟩), ?_⟩
    exact runs_pure.mpr ⟨rfl, rfl⟩
  refine completes_bind _ ask (completes_onlyIf fun _ => ?_)
  have clean : s.themrt = 0 → s.mrts.Linked Mrt.next (host.mallocMrt s.mrts.fresh).next := by
    intro _
    rw [zero.mrt]
    exact Heap.linked_of_chain .nil
  obtain ⟨added, add⟩ := (addSg_returns host models routed mydata.source mydata.destination mydata.vif).1.mpr clean
  exact completes_bind () add (Completes.of_achieves (changeMfc_achieves _ _ _) (addSg_models zero models add))

theorem wrongMulticastPacket_completes (models : Models s t) (mydata : MulticastErrorData) :
    Completes (wrongMulticastPacket host mydata) s := by
  refine Completes.of_achieves (P := fun s => Models s t) (Q := fun _ _ => True) ?_ models
  refine lookup_achieves (routeIsFor mydata.source mydata.destination) (fun _ => rfl)
    (fun _ => achieves_pure fun _ _ => trivial) fun item _ member => ?_
  refine achieves_bind printSg_achieves fun _ => ?_
  refine achieves_bind (loadMrt_achieves member) fun e => achieves_of_fact fun _ => ?_
  have sends : Achieves (fun s => Models s t) (pimAssertOutput host mydata.source mydata.destination mydata.vif
      e.preference e.metric) fun _ s => Models s t :=
    achieves_bind (writeSendBuf_achieves _) fun _ => pimdmOutput_achieves _ _ _ _ _
  exact (achieves_onlyIf fun _ => sends).mono fun _ _ _ => trivial

/-! ## Groups -/

theorem setTimer_storeGroup_completes {record : Ptr} {g : IgmpGroup} (content : s.groups.get? record = some g)
    (delay : Int) (action : Callback) (write : Int → IgmpGroup → IgmpGroup) : Completes (do
      let timer ← timerSetTimer delay action
      storeGroup record (write timer)) s :=
  completes_bind _ (runs_timerSetTimer.mpr ⟨rfl, rfl⟩) ⟨_, runs_storeGroup.mpr ⟨⟨g, content⟩, rfl⟩⟩

theorem expectReport_completes {record : Ptr} {g : IgmpGroup} (content : s.groups.get? record = some g) (vif : Vif)
    (group : Addr) : Completes (expectReport vif group record) s := by
  refine completes_bind g (runs_loadGroup.mpr ⟨content, rfl⟩) (completes_onlyIf fun _ => ?_)
  exact setTimer_storeGroup_completes content _ _ fun timer record => { record with leaveQuery := timer, timeout := -1 }

theorem expectReports_completes (models : Models s t) (vif : Vif) (group : Addr) :
    Completes (forGroups vif (expectReport vif group)) s := by
  have chain := (models.members vif).chain
  have enough := Nat.lt_succ_of_le chain.length_le
  have rounds : Achieves (fun s => Models s t) (forList (expectReport vif group) ((t.members vif).map Prod.fst))
      fun _ s => Models s t := by
    refine achieves_forList fun record member => ?_
    obtain ⟨item, listed, rfl⟩ := List.mem_map.mp member
    intro s models
    obtain ⟨g, content, _⟩ := (models.members vif).found listed
    obtain ⟨s', run⟩ := expectReport_completes content vif group
    exact ⟨(), s', run, models_of_quiet (expectReport_changes trivial item.1) models run⟩
  obtain ⟨_, s', run, _⟩ := rounds s models
  refine ⟨s', ?_⟩
  unfold forGroups
  rw [runs_get_bind]
  exact (forEach_runs (expectReport_keeps vif group) chain enough).mpr run

theorem acceptLeaveMessage_completes (models : Models s t) (src group : Addr) :
    Completes (acceptLeaveMessage host src group) s := by
  unfold acceptLeaveMessage
  by_cases stranger : findVifDirectLocal host src = 0
  · rw [if_pos stranger]
    exact ⟨s, runs_pure.mpr ⟨rfl, rfl⟩⟩
  rw [if_neg stranger]
  refine completes_bind s (runs_get.mpr ⟨rfl, rfl⟩) ?_
  by_cases waits : (s.myvifs (findVifDirectLocal host src)).querier ≠ 0
  · rw [if_pos waits]
    exact ⟨s, runs_pure.mpr ⟨rfl, rfl⟩⟩
  rw [if_neg waits]
  refine completes_bind _ (models.runs_findGroup.mpr ⟨rfl, rfl⟩) ?_
  rcases models.lookup_group (findVifDirectLocal host src) group with ⟨_, null⟩ | ⟨record, g, listed, nonnull, here⟩
  · rw [if_pos null]
    exact ⟨s, runs_pure.mpr ⟨rfl, rfl⟩⟩
  rw [here, if_neg nonnull]
  refine completes_bind g (runs_loadGroup.mpr ⟨listed.content, rfl⟩) ?_
  have cleared : ∃ now, Runs (onlyIf (g.leaveQuery ≠ 0) (timerClearTimer g.leaveQuery)) s () now ∧
      now.groups.get? record = some g := by
    by_cases leaving : g.leaveQuery ≠ 0
    · refine ⟨_, runs_onlyIf.mpr (Or.inl ⟨leaving, runs_timerClearTimer.mpr rfl⟩), ?_⟩
      rw [clearTimer_groups]
      exact listed.content
    · exact ⟨s, runs_onlyIf.mpr (Or.inr ⟨leaving, rfl⟩), listed.content⟩
  obtain ⟨now, clear, content⟩ := cleared
  refine completes_bind () clear (completes_bind () (runs_modify.mpr rfl) ?_)
  exact setTimer_storeGroup_completes (s := now.observe _) content _ _ fun timer g =>
    { g with leaveQuery := timer, timeout := 1 }

/-- The record before the one to remove is known where it is needed. -/
theorem unlinkGroup_completes (models : Models s t) {vif : Vif} {ahead behind : List (Ptr × Addr)}
    {item : Ptr × Addr} (split : t.members vif = ahead ++ item :: behind) (host : Host) (record : IgmpGroup) :
    Completes (unlinkGroup host vif (ahead.getLast?.map Prod.fst) item.1 record) s := by
  have shows := models.members vif
  unfold unlinkGroup
  refine completes_bind s (runs_get.mpr ⟨rfl, rfl⟩) ?_
  by_cases inner : item.1 ≠ (s.myvifs vif).groups
  · rw [if_pos inner]
    rcases List.eq_nil_or_concat' ahead with rfl | ⟨front, last, rfl⟩
    · rw [split, List.nil_append] at shows
      exact absurd shows.start_eq.symm inner
    have before : last ∈ t.members vif := by simp [split]
    have here : item ∈ t.members vif := by simp [split]
    obtain ⟨b, content, _⟩ := shows.found before
    obtain ⟨g, stored, _⟩ := shows.found here
    rw [List.getLast?_concat, Option.map_some]
    refine completes_bind () (runs_storeGroup.mpr ⟨⟨b, content⟩, rfl⟩) ⟨_, runs_storeGroup.mpr ⟨?_, rfl⟩⟩
    simp only [Daemon.setGroup, Heap.get?_modify]
    split
    · exact ⟨_, congrArg (Option.map _) stored⟩
    · exact ⟨g, stored⟩
  · rw [if_neg inner]
    exact ⟨_, runs_modify.mpr rfl⟩

theorem leaveQuery_completes (models : Models s t) (vif : Vif) (group : Addr) :
    Completes (leaveQuery host vif group) s := by
  have search : ∀ found, s.groups.findTrailing IgmpGroup.next (fun g => g.address == group) (s.groups.size + 1) none
      (s.myvifs vif).groups = .ok found → Runs (findGroupTrailing vif group) s found s := by
    intro found result
    rw [findGroupTrailing, runs_get_bind, runs_liftHeap]
    exact ⟨result, rfl⟩
  rcases (models.members vif).findTrailing_eq (fun g => g.address == group) (fun address => address == group)
      (fun _ => rfl) with ⟨last, none, _⟩ | ⟨ahead, item, behind, split, before, here, some⟩
  · exact completes_bind _ (search _ none) ⟨s, runs_ite.mpr (Or.inl ⟨rfl, runs_pure.mpr ⟨rfl, rfl⟩⟩)⟩
  have member : item ∈ t.members vif := by simp [split]
  obtain ⟨g, content, address⟩ := (models.members vif).found member
  refine completes_bind _ (search _ some) ?_
  rw [if_neg ((models.members vif).nonnull member)]
  refine completes_bind g (runs_loadGroup.mpr ⟨content, rfl⟩) ?_
  by_cases twice : g.timeout = 1
  · rw [if_pos twice]
    refine completes_bind () (runs_modify.mpr rfl) ?_
    exact setTimer_storeGroup_completes (s := s.observe _) content _ _ fun timer g =>
      { g with leaveQuery := timer, timeout := 0 }
  rw [if_neg twice]
  by_cases once : g.timeout = 0
  · rw [if_pos once]
    exact setTimer_storeGroup_completes content _ _ fun timer g => { g with leaveQuery := timer, timeout := -1 }
  rw [if_neg once]
  obtain ⟨unlinked, unlink⟩ := unlinkGroup_completes models split host g
  obtain ⟨after, freed, memory, _⟩ := unlinkGroup_models models split content address unlink
  refine completes_bind g (runs_loadGroup.mpr ⟨content, rfl⟩) (completes_bind () unlink ?_)
  refine completes_bind freed (runs_loadGroup.mpr ⟨memory, rfl⟩) ?_
  exact Completes.of_achieves (delLeaf_achieves host vif freed.address) after

/-! ## Neighbours -/

theorem addPimNeighbor_completes (models : Models s t) (src : Addr) (holdtime : Int) (vif : Vif) :
    Completes (addPimNeighbor host src holdtime vif) s := by
  have timed := models_quiet models (.setTimer holdtime (.deletePimNeighbor s.neighbors.fresh)) (Level.quiet_le _)
  refine completes_bind s (runs_get.mpr ⟨rfl, rfl⟩) (completes_bind _ (runs_timerSetTimer.mpr ⟨rfl, rfl⟩) ?_)
  refine completes_bind () (runs_modify.mpr rfl) ?_
  exact refreshMrt_completes host (timed.linkNeighbor vif rfl) vif .addNeighbor

theorem refreshNeighbor_completes {entry : Ptr} {n : PimNeighbor} (content : s.neighbors.get? entry = some n)
    (holdtime : Int) : Completes (refreshNeighbor entry holdtime) s := by
  have held : (s.setNeighbor entry fun entry => { entry with holdtime := holdtime }).neighbors.get? entry =
      some { n with holdtime := holdtime } := by
    rw [Daemon.setNeighbor, Heap.get?_modify_same, content, Option.map_some]
  refine completes_bind () (runs_storeNeighbor.mpr ⟨⟨n, content⟩, rfl⟩) ?_
  refine completes_bind _ (runs_loadNeighbor.mpr ⟨held, rfl⟩) ?_
  have cleared : ∃ now, Runs (onlyIf (n.timeoutid ≠ -1) (timerClearTimer n.timeoutid))
      (s.setNeighbor entry fun entry => { entry with holdtime := holdtime }) () now ∧
      now.neighbors.get? entry = some { n with holdtime := holdtime } := by
    by_cases set : n.timeoutid ≠ -1
    · refine ⟨_, runs_onlyIf.mpr (Or.inl ⟨set, runs_timerClearTimer.mpr rfl⟩), ?_⟩
      unfold Daemon.clearTimer
      split
      · exact held
      · exact held
    · exact ⟨_, runs_onlyIf.mpr (Or.inr ⟨set, rfl⟩), held⟩
  obtain ⟨now, clear, still⟩ := cleared
  refine completes_bind () clear (completes_bind _ (runs_timerSetTimer.mpr ⟨rfl, rfl⟩) ?_)
  exact ⟨_, runs_storeNeighbor.mpr ⟨⟨_, still⟩, rfl⟩⟩

end PimDm.Refinement
