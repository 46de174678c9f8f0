import PimDm.Foundation.Completion
import PimDm.Refinement.Forwarding

/-!
# The updates of the routing table complete

On memory that models a table every search ends, every entry that is found can be read, and
so the functions that change the outgoing interfaces never stop with a fault.
-/

namespace PimDm.Refinement

open PimDm.Foundation PimDm.Source PimDm.Effect PimDm.Routing

variable {t : Table} {host : Host}

/-- The program completes and leaves these entries in the table. -/
def LeavesEntries (program : Act Unit) (s : Daemon) (entries : List (Ptr × Route)) : Prop :=
  ∃ s', Runs program s () s' ∧ (table s').entries = entries

/-- It leaves no others. -/
theorem leavesEntries_iff {program : Act Unit} {s : Daemon} {left entries : List (Ptr × Route)}
    (leaves : LeavesEntries program s left) : LeavesEntries program s entries ↔ left = entries := by
  obtain ⟨s', run, rfl⟩ := leaves
  constructor
  · rintro ⟨other, again, same⟩
    rw [(runs_deterministic run again).2]
    exact same
  · intro same
    exact ⟨s', run, same⟩

/-! ## Single steps -/

theorem loadMrt_achieves {item : Ptr × Route} (member : item ∈ t.entries) :
    Achieves (fun s => Models s t) (loadMrt item.1) fun e s => e.toRoute = item.2 ∧ Models s t := by
  intro s models
  obtain ⟨e, found, same⟩ := models.entries.found member
  exact ⟨e, s, runs_loadMrt.mpr ⟨found, rfl⟩, same, models⟩

theorem setOutvif_achieves {item : Ptr × Route} (member : item ∈ t.entries) (vif : Vif) (value change : Int) :
    Achieves (fun s => Models s t) (storeMrt item.1 (Mrt.setOutvif vif value change)) fun _ s =>
      Models s (t.amendEntry item.1 (routeSetOutvif vif value change)) := by
  intro s models
  obtain ⟨e, found, _⟩ := models.entries.found member
  exact ⟨(), _, runs_storeMrt.mpr ⟨⟨e, found⟩, rfl⟩, models.setOutvif item.1 vif value change⟩

theorem storeMrt_hidden_achieves {item : Ptr × Route} (member : item ∈ t.entries) {function : Mrt → Mrt}
    (links : ∀ e, (function e).next = e.next) (kept : ∀ e, (function e).toRoute = e.toRoute) :
    Achieves (fun s => Models s t) (storeMrt item.1 function) fun _ s => Models s t := by
  intro s models
  obtain ⟨e, found, _⟩ := models.entries.found member
  exact ⟨(), _, runs_storeMrt.mpr ⟨⟨e, found⟩, rfl⟩, models.setMrt_hidden item.1 function links kept⟩

theorem findMrt_achieves {property : Mrt → Bool} (shown : Route → Bool)
    (reads : ∀ e, property e = shown e.toRoute) :
    Achieves (fun s => Models s t) (findMrt property) fun mymrt s =>
      mymrt = addressOf (t.find shown) ∧ Models s t :=
  fun s models => ⟨_, s, (models.runs_findMrt property shown reads).mpr ⟨rfl, rfl⟩, rfl, models⟩

theorem findGroup_achieves (vif : Vif) (group : Addr) :
    Achieves (fun s => Models s t) (findGroup vif group) fun record s =>
      record = addressOf ((t.members vif).find? fun item => item.2 == group) ∧ Models s t :=
  fun s models => ⟨_, s, models.runs_findGroup.mpr ⟨rfl, rfl⟩, rfl, models⟩

theorem timerSetTimer_achieves (delay : Int) {action : Callback} :
    Achieves (fun s => Models s t) (timerSetTimer delay action) fun _ s => Models s t :=
  fun _ models => ⟨_, _, runs_timerSetTimer.mpr ⟨rfl, rfl⟩,
    models_quiet models (.setTimer delay action) (Level.quiet_le _)⟩

theorem pimdmOutput_achieves (src dst : Addr) (type : Nat) (length : Int) (entry : Ptr) :
    Achieves (fun s => Models s t) (pimdmOutput src dst type length entry) fun _ s => Models s t :=
  fun _ models => ⟨(), _, runs_pimdmOutput.mpr rfl,
    (models_quiet models (.sendBuf _) (Level.quiet_le _)).observe _⟩

theorem writeSendBuf_achieves (write : Memory → Memory) :
    Achieves (fun s => Models s t) (writeSendBuf write) fun _ s => Models s t :=
  achieves_modify fun _ models => models_quiet models (.sendBuf write) (Level.quiet_le _)

/-- `mymrt = find(...); if (mymrt == NULL) absent; else body`. -/
theorem lookup_achieves {α : Type} {property : Mrt → Bool} (shown : Route → Bool)
    (reads : ∀ e, property e = shown e.toRoute) {absent : Act α} {body : Ptr → Act α} {Q : α → Daemon → Prop}
    (none : t.find shown = none → Achieves (fun s => Models s t) absent Q)
    (some : ∀ item, t.find shown = some item → item ∈ t.entries →
      Achieves (fun s => Models s t) (body item.1) Q) :
    Achieves (fun s => Models s t) (do
      let mymrt ← findMrt property
      if mymrt = 0 then absent else body mymrt) Q := by
  refine achieves_bind (findMrt_achieves shown reads) fun mymrt => achieves_of_fact fun found => ?_
  intro s models
  cases looked : t.find shown with
  | none =>
      have null : addressOf (t.find shown) = 0 := by rw [looked]; rfl
      rw [found, if_pos null]
      exact none looked s models
  | some item =>
      obtain ⟨member, _, nonnull, _⟩ := models.entry_of_find looked
      rw [found, looked, addressOf, Option.map_some, Option.getD_some, if_neg nonnull]
      exact some item looked member s models

/-! ## Loops over the table -/

/-- A loop over the table whose rounds keep a property of the memory and its links. -/
theorem forMrt_achieves {P : Daemon → Prop} {body : Ptr → Act Unit} {s : Daemon} (models : Models s t)
    (kept : ∀ mymrt, Within (fun before after =>
      after.mrts.links Mrt.next = before.mrts.links Mrt.next) (body mymrt))
    (holds : P s) (inside : ∀ item ∈ t.entries, Achieves P (body item.1) fun _ => P) :
    ∃ s', Runs (forMrt body) s () s' ∧ P s' := by
  have rounds : ∀ address ∈ t.entries.map Prod.fst, Achieves P (body address) fun _ => P := by
    intro address member
    obtain ⟨item, listed, rfl⟩ := List.mem_map.mp member
    exact inside item listed
  obtain ⟨_, s', run, left⟩ := achieves_forList rounds s holds
  exact ⟨s', (models.runs_forMrt kept).mpr run, left⟩

theorem printSg_achieves : Achieves (fun s => Models s t) printSg fun _ s => Models s t := by
  intro s models
  obtain ⟨s', run, left⟩ := forMrt_achieves (P := fun s => Models s t) models
    (fun _ => within_pure (steady_same _) ()) models fun _ _ => achieves_pure fun _ => id
  exact ⟨(), s', run, left⟩

/-! ## `check_pim_state` -/

theorem pimJoinPruneOutput_achieves {item : Ptr × Route} (member : item ∈ t.entries) (packetType : PacketType)
    (holdtime : Int) : Achieves (fun s => Models s t) (pimJoinPruneOutput host item.1 packetType holdtime)
      fun _ s => Models s t := by
  refine achieves_bind (loadMrt_achieves member) fun e => achieves_of_fact fun _ => ?_
  exact achieves_bind (writeSendBuf_achieves _) fun _ => pimdmOutput_achieves _ _ _ _ _

theorem sendPrune_achieves {item : Ptr × Route} (member : item ∈ t.entries) :
    Achieves (fun s => Models s t) (sendPrune host item.1) fun _ s => Models s t :=
  achieves_bind (loadMrt_achieves member) fun _ => achieves_of_fact fun _ =>
    pimJoinPruneOutput_achieves member _ _

theorem pimGraftOutput_achieves {item : Ptr × Route} (member : item ∈ t.entries) :
    Achieves (fun s => Models s t) (pimGraftOutput host item.1) fun _ s => Models s t := by
  refine achieves_bind (loadMrt_achieves member) fun e => achieves_of_fact fun _ => ?_
  exact achieves_bind (writeSendBuf_achieves _) fun _ => pimdmOutput_achieves _ _ _ _ _

theorem planGraft_achieves {item : Ptr × Route} (member : item ∈ t.entries) :
    Achieves (fun s => Models s t) (planGraft host item.1) fun _ s => Models s t := by
  refine achieves_bind (loadMrt_achieves member) fun e => achieves_of_fact fun _ => ?_
  refine achieves_bind (findMrt_achieves (routeIsFor e.source e.group) fun _ => rfl) fun thismrt =>
    achieves_of_fact fun _ => ?_
  refine achieves_ite (fun _ => achieves_pure fun _ => id) fun _ => ?_
  refine achieves_ite (fun _ => ?_) fun _ => achieves_pure fun _ => id
  refine achieves_bind (pimGraftOutput_achieves member) fun _ => ?_
  refine achieves_bind (timerSetTimer_achieves _) fun timer => ?_
  exact storeMrt_hidden_achieves member (fun _ => rfl) fun _ => rfl

theorem checkEntry_achieves {item : Ptr × Route} (member : item ∈ t.entries) (judge : Judge) :
    Achieves (fun s => Models s t) (checkEntry host judge item.1) fun _ s => Models s t := by
  refine achieves_bind (loadMrt_achieves member) fun e => achieves_of_fact fun _ => ?_
  refine achieves_bind (achieves_onlyIf fun _ => achieves_onlyIf fun _ => sendPrune_achieves member) fun _ => ?_
  exact achieves_onlyIf fun _ => achieves_onlyIf fun _ => planGraft_achieves member

theorem checkPimState_achieves (judge : Judge) :
    Achieves (fun s => Models s t) (checkPimState host judge) fun _ s => Models s t := by
  intro s models
  obtain ⟨s', run, left⟩ := forMrt_achieves (P := fun s => Models s t) models (checkEntry_links host judge) models
    fun item member => checkEntry_achieves member judge
  exact ⟨(), s', run, left⟩

/-! ## Stores of outgoing interfaces -/

theorem changeMfc_achieves (source group : Addr) (incoming : Vif) :
    Achieves (fun s => Models s t) (changeMfc host source group incoming) fun _ s =>
      Models s (t.changeMfc host source group incoming) := by
  refine Achieves.of_runs (Q := fun _ _ => True) ?_ fun s _ s' models run => changeMfc_models models run
  refine lookup_achieves (routeIsFor source group) (fun _ => rfl) (fun _ => achieves_pure fun _ _ => trivial) ?_
  intro item _ member
  exact achieves_bind (loadMrt_achieves member) fun _ => achieves_modify fun _ _ => trivial

/-- A store into an entry leaves it in the table. -/
theorem mem_amendEntry {item : Ptr × Route} (member : item ∈ t.entries) (function : Route → Route) :
    (item.1, function item.2) ∈ (t.amendEntry item.1 function).entries :=
  mem_amend.mpr ⟨item, member, (if_pos rfl).symm⟩

theorem addLeaf_achieves (host : Host) (vif : Vif) (group : Addr) :
    Achieves (fun s => Models s t) (addLeaf host vif group) fun _ s => Models s (t.addLeaf host vif group) := by
  refine Achieves.of_runs (Q := fun _ _ => True) ?_ fun s _ s' models run => (addLeaf_follows models run).models
  refine lookup_achieves (fun r => r.group == group) (fun _ => rfl) (fun _ => achieves_pure fun _ _ => trivial) ?_
  intro item _ member
  refine achieves_bind (loadMrt_achieves member) fun e => achieves_of_fact fun _ => ?_
  have stored : Achieves (fun s => Models s t) (onlyIf (e.outvif vif ≠ 1) (storeMrt item.1 (Mrt.setOutvif vif 1 1)))
      fun _ s => ∃ t', Models s t' := by
    refine achieves_ite (fun _ => ?_) fun _ => achieves_pure fun s models => ⟨t, models⟩
    exact (setOutvif_achieves member vif 1 1).mono fun _ s models => ⟨_, models⟩
  refine achieves_bind stored fun _ => ?_
  rintro s ⟨t', models⟩
  have rest : Achieves (fun s => Models s t') (do
      changeMfc host e.source group e.incoming
      checkPimState host .addLeaf
      printSg) fun _ _ => True :=
    achieves_bind (changeMfc_achieves _ _ _) fun _ => achieves_bind (checkPimState_achieves _) fun _ =>
      printSg_achieves.mono fun _ _ _ => trivial
  exact rest s models

theorem delLeaf_achieves (host : Host) (vif : Vif) (group : Addr) :
    Achieves (fun s => Models s t) (delLeaf host vif group) fun _ s => Models s (t.delLeaf host vif group) := by
  refine Achieves.of_runs (Q := fun _ _ => True) ?_ fun s _ s' models run => (delLeaf_follows models run).models
  have told : Achieves (fun s => Models s t) (observe (.delLeaf vif group)) fun _ s => Models s t :=
    achieves_modify fun _ models => models.observe _
  refine achieves_bind told fun _ => ?_
  refine lookup_achieves (fun r => r.group == group) (fun _ => rfl) (fun _ => achieves_pure fun _ _ => trivial) ?_
  intro item _ member
  refine achieves_bind (setOutvif_achieves member vif 0 (-1)) fun _ => ?_
  have stored := loadMrt_achieves (mem_amendEntry member (routeSetOutvif vif 0 (-1)))
  refine achieves_bind stored fun e => achieves_of_fact fun _ => ?_
  refine achieves_bind (changeMfc_achieves _ _ _) fun _ => ?_
  refine achieves_bind (checkPimState_achieves _) fun _ => ?_
  exact printSg_achieves.mono fun _ _ _ => trivial

/-! ## `refresh_mrt` -/

/-- The table has these names. -/
def Named (names : List Ptr) (s : Daemon) : Prop := ∃ t, Models s t ∧ t.entries.map Prod.fst = names

theorem Named.of_forward {names : List Ptr} (same : t.entries.map Prod.fst = names) {vif : Vif}
    {value change : Int} {item : Ptr × Route} {s : Daemon}
    (models : Models s (t.forward host vif value change item)) : Named names s :=
  ⟨_, models, by rw [Table.forward_entries, amend_keys, same]⟩

/-- The store of a round of `refresh_mrt`, with what the kernel and the upstream are told. -/
theorem refreshStore_achieves {names : List Ptr} (same : t.entries.map Prod.fst = names) {item : Ptr × Route}
    (member : item ∈ t.entries) (vif : Vif) (value change : Int) (judge : Judge) {e : Mrt}
    (read : e.toRoute = item.2) :
    Achieves (fun s => Models s t) (do
      storeMrt item.1 (Mrt.setOutvif vif value change)
      changeMfc host e.source e.group e.incoming
      checkPimState host judge) fun _ s => Named names s := by
  refine achieves_bind (setOutvif_achieves member vif value change) fun _ => ?_
  refine achieves_bind (changeMfc_achieves _ _ _) fun _ => ?_
  refine (checkPimState_achieves judge).mono fun _ s models => ?_
  have forwarded : Models s (t.forward host vif value change item) := by
    rw [Table.forward, ← read]
    exact models
  exact .of_forward same forwarded

theorem refreshEntry_achieves {names : List Ptr} {mymrt : Ptr} (listed : mymrt ∈ names) (vif : Vif) (i : Judge) :
    Achieves (Named names) (refreshEntry host vif i mymrt) fun _ => Named names := by
  rintro s ⟨t, models, same⟩
  obtain ⟨item, member, rfl⟩ := List.mem_map.mp (same ▸ listed)
  have round : Achieves (fun s => Models s t) (refreshEntry host vif i item.1) fun _ => Named names := by
    have idle : Achieves (fun s => Models s t) (pure () : Act Unit) fun _ => Named names :=
      achieves_pure fun s models => ⟨t, models, same⟩
    refine achieves_bind (loadMrt_achieves member) fun e => achieves_of_fact fun read => ?_
    refine achieves_ite (fun _ => ?_) fun _ => achieves_ite (fun _ => ?_) fun _ => idle
    · exact achieves_ite (fun _ => refreshStore_achieves same member vif 1 1 _ read) fun _ => idle
    · refine achieves_bind (findGroup_achieves _ _) fun record => achieves_of_fact fun _ => ?_
      refine achieves_get_bind fun state models => ?_
      have kept : ∀ s, s = state → Models s t := fun s now => now ▸ models
      intro s now
      exact achieves_ite (P := fun s => Models s t) (fun _ => refreshStore_achieves same member vif 0 (-1) _ read)
        (fun _ => idle) s (kept s now)
  exact round s models

theorem refreshMrt_completes (host : Host) {s : Daemon} (models : Models s t) (vif : Vif) (i : Judge) :
    ∃ s', Runs (refreshMrt host vif i) s () s' := by
  have start : Named (t.entries.map Prod.fst) s := ⟨t, models, rfl⟩
  obtain ⟨looped, loop, t', after, _⟩ := forMrt_achieves models (refreshEntry_links host vif i) start
    fun item member => refreshEntry_achieves (List.mem_map_of_mem member) vif i
  obtain ⟨_, s', print, _⟩ := printSg_achieves looped after
  exact ⟨s', runs_bind.mpr ⟨(), looped, loop, print⟩⟩

end PimDm.Refinement
