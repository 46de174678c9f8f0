import PimDm.Refinement.Signals

/-!
# Changes of the outgoing interfaces

`change_mfc` and the functions that store an outgoing interface, each as the
operation of the routing table it carries out.  `check_pim_state` and
`print_sg`, which end them, are quiet.
-/

namespace PimDm.Refinement

open PimDm.Foundation PimDm.Source PimDm.Effect PimDm.Routing

variable {s s' : Daemon} {t : Table} {host : Host}

/-! ## One store -/

theorem Models.setMfc (models : Models s t) (source group : Addr) (entry : Option Mfc) :
    Models (s.setMfc source group entry) (t.setMfc source group entry) :=
  { models with
    mfc := by
      simp only [Daemon.setMfc, Table.setMfc, models.mfc] }

theorem Models.setMrt (models : Models s t) (mymrt : Ptr) {function : Mrt → Mrt}
    {after : Route → Route} (links : ∀ e, (function e).next = e.next)
    (commutes : ∀ e, (function e).toRoute = after e.toRoute) :
    Models (s.setMrt mymrt function) (t.amendEntry mymrt after) :=
  { models with entries := models.entries.modify mymrt links commutes }

theorem Models.setOutvif (models : Models s t) (mymrt : Ptr) (vif : Vif) (value change : Int) :
    Models (s.setMrt mymrt (Mrt.setOutvif vif value change))
      (t.amendEntry mymrt (routeSetOutvif vif value change)) :=
  models.setMrt mymrt (fun _ => rfl) fun _ => rfl

theorem setMrt_get? {mymrt : Ptr} {e : Mrt} (found : s.mrts.get? mymrt = some e)
    (function : Mrt → Mrt) : (s.setMrt mymrt function).mrts.get? mymrt = some (function e) := by
  simp [Daemon.setMrt, Heap.get?_modify_same, found]

/-- An entry is what its name shows. -/
theorem Models.route_eq (models : Models s t) {item : Ptr × Route} (member : item ∈ t.entries)
    {e : Mrt} (found : s.mrts.get? item.1 = some e) : e.toRoute = item.2 := by
  obtain ⟨other, here, same⟩ := models.entries.found member
  rw [here] at found
  cases found
  exact same

/-- Storing the value an entry already has changes nothing. -/
theorem Models.amend_same (models : Models s t) {item : Ptr × Route} (member : item ∈ t.entries)
    {function : Route → Route} (same : function item.2 = item.2) :
    t.amendEntry item.1 function = t := by
  unfold Table.amendEntry
  suffices kept : amend item.1 function t.entries = t.entries by rw [kept]
  unfold amend
  refine (List.map_congr_left fun other inside => ?_).trans (List.map_id _)
  by_cases here : other.1 = item.1
  · obtain rfl := List.inj_on_of_nodup_map models.entries.nodup inside member here
    rw [if_pos rfl, same]
    rfl
  · rw [if_neg here]
    rfl

theorem runs_changeMfc {source group : Addr} {incoming : Vif}
    (run : Runs (changeMfc host source group incoming) s () s') :
    ∃ mfc, s' = { s with mfc := mfc } := by
  obtain ⟨mymrt, _, looked, rest⟩ := runs_bind.mp run
  obtain ⟨_, rfl⟩ := runs_findMrt.mp looked
  rcases runs_ite.mp rest with ⟨_, stop⟩ | ⟨_, tell⟩
  · obtain ⟨_, rfl⟩ := runs_pure.mp stop
    exact ⟨_, rfl⟩
  · obtain ⟨e, _, load, store⟩ := runs_bind.mp tell
    obtain ⟨_, rfl⟩ := runs_loadMrt.mp load
    exact ⟨_, runs_modify.mp store⟩

/-- `change_mfc` is the operation of the table. -/
theorem changeMfc_models (models : Models s t) {source group : Addr} {incoming : Vif}
    (run : Runs (changeMfc host source group incoming) s () s') :
    Models s' (t.changeMfc host source group incoming) := by
  unfold Table.changeMfc
  rcases models.runs_lookup (routeIsFor source group) (fun _ => rfl) run with
    ⟨absent, stop⟩ | ⟨item, found, continued⟩
  · rw [absent, (runs_pure.mp stop).2]
    exact models
  · obtain ⟨_, _, _, e, here, same⟩ := models.entry_of_find found
    simp only [runs_bind, runs_loadMrt, runs_modify] at continued
    obtain ⟨_, _, ⟨read, rfl⟩, rfl⟩ := continued
    obtain rfl := Option.some.inj (here.symm.trans read)
    rw [found, same]
    exact models.setMfc source group _

/-- A store of an outgoing interface followed by `change_mfc`. -/
theorem forward_models (models : Models s t) {item : Ptr × Route} {vif : Vif} {value change : Int}
    (function : Mrt → Mrt) (links : ∀ e, (function e).next = e.next)
    (commutes : ∀ e, (function e).toRoute = routeSetOutvif vif value change e.toRoute)
    {e : Mrt} (same : e.toRoute = item.2)
    (run : Runs (changeMfc host e.toRoute.source e.toRoute.group e.toRoute.incoming)
      (s.setMrt item.1 function) () s') :
    Models s' (t.forward host vif value change item) := by
  rw [same] at run
  exact changeMfc_models (models.setMrt item.1 links commutes) run

theorem changeMfc_trace {source group : Addr} {incoming : Vif}
    (run : Runs (changeMfc host source group incoming) s () s') : s'.trace = s.trace := by
  obtain ⟨mfc, rfl⟩ := runs_changeMfc run
  rfl

/-- `check_pim_state` after a store that has sent nothing. -/
theorem checked_follows {judge : Judge} {told : Daemon} (models : Models told t)
    (silent : told.trace = s.trace) (run : Runs (checkPimState host judge) told () s') :
    Follows judge s s' t [t] := by
  obtain ⟨after, sent⟩ := checkPimState_follows models run
  exact ⟨after, (sent_of_trace judge silent).trans sent⟩

/-- `check_pim_state` and `print_sg` at the end of a handler. -/
theorem ended_follows {judge : Judge} {told : Daemon} (models : Models told t)
    (silent : told.trace = s.trace)
    (run : Runs (do checkPimState host judge; printSg) told () s') : Follows judge s s' t [t] := by
  obtain ⟨_, checked, check, print⟩ := runs_bind.mp run
  obtain rfl := runs_printSg print
  exact checked_follows models silent check

theorem Models.follows_nothing (models : Models s t) (judge : Judge) : Follows judge s s t [] :=
  ⟨models, sent_of_trace judge rfl⟩

/-! ## The handlers -/

theorem addLeaf_follows (models : Models s t) {vif : Vif} {group : Addr}
    (run : Runs (addLeaf host vif group) s () s') :
    Follows .addLeaf s s' (t.addLeaf host vif group)
      (t.passes host vif 1 (fun r => if r.outvif vif = 1 then 0 else 1)
        (t.find fun r => r.group == group).toList) := by
  unfold Table.addLeaf
  rcases models.runs_lookup (fun r => r.group == group) (fun _ => rfl) run with
    ⟨absent, stop⟩ | ⟨item, found, continued⟩
  · rw [Table.forwardFirst_none absent, absent, (runs_pure.mp stop).2]
    exact models.follows_nothing .addLeaf
  · obtain ⟨member, holds, _, e, here, same⟩ := models.entry_of_find found
    obtain rfl : e.toRoute.group = group := (congrArg Route.group same).trans (eq_of_beq holds)
    rw [Table.forwardFirst_some found, found]
    simp only [runs_bind, runs_loadMrt, runs_onlyIf, runs_storeMrt] at continued
    obtain ⟨_, _, ⟨read, rfl⟩, _, stored, store, _, told, tell, rest⟩ := continued
    obtain rfl := Option.some.inj (here.symm.trans read)
    have ending := runs_bind.mpr rest
    have silent := changeMfc_trace tell
    rcases store with ⟨off, _, rfl⟩ | ⟨on, rfl⟩
    · have after := forward_models models (Mrt.setOutvif vif 1 1) (fun _ => rfl) (fun _ => rfl) same tell
      rw [same] at off
      simp only [Option.toList_some, Table.passes, if_neg off]
      exact ended_follows after silent ending
    · rw [same, not_not] at on
      have kept : routeSetOutvif vif 1 0 item.2 = item.2 := by
        simp [routeSetOutvif, ← on]
      have after : Models told (t.forward host vif 1 0 item) := by
        unfold Table.forward
        rw [models.amend_same member kept, ← same]
        exact changeMfc_models models tell
      simp only [Option.toList_some, Table.passes, if_pos on]
      exact ended_follows after silent ending

theorem delLeaf_follows (models : Models s t) {vif : Vif} {group : Addr}
    (run : Runs (delLeaf host vif group) s () s') :
    Follows .delLeaf s s' (t.delLeaf host vif group)
      (t.passes host vif 0 (fun _ => -1) (t.find fun r => r.group == group).toList) := by
  unfold Table.delLeaf
  obtain ⟨_, noted, note, rest⟩ := runs_bind.mp run
  have models := models_of_quiet (callDelLeaf_changes vif group) models note
  obtain rfl := runs_modify.mp note
  have silent : Sent .delLeaf [] s (s.observe (.delLeaf vif group)) :=
    sent_observe .delLeaf fun _ _ => nofun
  rcases models.runs_lookup (fun r => r.group == group) (fun _ => rfl) rest with
    ⟨absent, stop⟩ | ⟨item, found, continued⟩
  · rw [Table.forwardFirst_none absent, absent, (runs_pure.mp stop).2]
    exact ⟨models, silent⟩
  · obtain ⟨_, holds, _, e, here, same⟩ := models.entry_of_find found
    obtain rfl : e.toRoute.group = group := (congrArg Route.group same).trans (eq_of_beq holds)
    rw [Table.forwardFirst_some found, found]
    simp only [runs_bind, runs_loadMrt, runs_storeMrt] at continued
    obtain ⟨_, _, ⟨_, rfl⟩, _, _, ⟨read, rfl⟩, _, told, tell, rest⟩ := continued
    obtain rfl := Option.some.inj ((setMrt_get? here _).symm.trans read)
    have after := forward_models models (Mrt.setOutvif vif 0 (-1)) (fun _ => rfl) (fun _ => rfl) same tell
    obtain ⟨final, sent⟩ := ended_follows after (changeMfc_trace tell) (runs_bind.mpr rest)
    exact ⟨final, silent.trans sent⟩

/-- The store and the call of `change_mfc` that `prune_time_out` and `set_prune` share. -/
theorem Models.runs_put {α : Type} {value : α} (models : Models s t) {item : Ptr × Route}
    (member : item ∈ t.entries) {vif : Vif} {cell : Int} {rest : Act α}
    (run : Runs (do
      storeMrt item.1 (Mrt.putOutvif vif cell)
      let e ← loadMrt item.1
      changeMfc host e.source e.group e.incoming
      rest) s value s') :
    ∃ told, Models told (t.forward host vif cell 0 item) ∧ told.trace = s.trace ∧
      Runs rest told value s' := by
  obtain ⟨e, here, same⟩ := models.entries.found member
  simp only [runs_bind, runs_loadMrt, runs_storeMrt] at run
  obtain ⟨_, _, ⟨_, rfl⟩, _, _, ⟨read, rfl⟩, _, told, tell, continued⟩ := run
  obtain rfl := Option.some.inj ((setMrt_get? here _).symm.trans read)
  have silent := changeMfc_trace tell
  refine ⟨told, ?_, silent, continued⟩
  refine forward_models models (Mrt.putOutvif vif cell) (fun _ => rfl) (fun e => ?_) same tell
  simp [Mrt.putOutvif, routeSetOutvif]

theorem pruneTimeOut_follows (models : Models s t) {data : PimPruneData}
    (run : Runs (pruneTimeOut host data) s () s') :
    Follows .addLeaf s s'
      (t.forwardFirst host (routeIsFor data.source data.group) data.vif 1 fun _ => 0)
      (t.passes host data.vif 1 (fun _ => 0) (t.find (routeIsFor data.source data.group)).toList) := by
  rcases models.runs_lookup (routeIsFor data.source data.group) (fun _ => rfl) run with
    ⟨absent, stop⟩ | ⟨item, found, continued⟩
  · rw [Table.forwardFirst_none absent, absent, (runs_pure.mp stop).2]
    exact models.follows_nothing .addLeaf
  · have member := (models.entry_of_find found).1
    rw [Table.forwardFirst_some found, found]
    obtain ⟨_, reset, store, continued⟩ := runs_bind.mp continued
    obtain ⟨_, rfl⟩ := runs_storeMrt.mp store
    have models := models.setMrt_hidden item.1 (Mrt.setPruneTimer data.vif 0) (fun _ => rfl) fun _ => rfl
    obtain ⟨told, forwarded, silent, rest⟩ := models.runs_put member continued
    exact ended_follows forwarded silent rest

theorem setPrune_follows (models : Models s t) {data : PimPruneData}
    (run : Runs (setPrune host data) s () s') :
    Follows .delLeaf s s'
      (t.forwardFirst host (routeIsFor data.source data.group) data.vif 0 fun _ => 0)
      (t.passes host data.vif 0 (fun _ => 0) (t.find (routeIsFor data.source data.group)).toList) := by
  rcases models.runs_lookup (routeIsFor data.source data.group) (fun _ => rfl) run with
    ⟨absent, stop⟩ | ⟨item, found, continued⟩
  · rw [Table.forwardFirst_none absent, absent, (runs_pure.mp stop).2]
    exact models.follows_nothing .delLeaf
  · have member := (models.entry_of_find found).1
    rw [Table.forwardFirst_some found, found]
    obtain ⟨_, reset, store, continued⟩ := runs_bind.mp continued
    obtain ⟨_, rfl⟩ := runs_storeMrt.mp store
    have models := models.setMrt_hidden item.1 (Mrt.setPruneDelayTimer data.vif 0) (fun _ => rfl) fun _ => rfl
    obtain ⟨told, forwarded, silent, rest⟩ := models.runs_put member continued
    obtain ⟨_, checked, check, timing⟩ := runs_bind.mp rest
    obtain ⟨still, sent⟩ := checked_follows forwarded silent check
    obtain ⟨timer, armed, arm, note⟩ := runs_bind.mp timing
    obtain ⟨rfl, rfl⟩ := runs_timerSetTimer.mp arm
    obtain ⟨_, rfl⟩ := runs_storeMrt.mp note
    have quiet : Within (Changes .quiet Anything) (do
        let timer ← timerSetTimer 5 (.pruneTimeOut data)
        storeMrt item.1 (Mrt.setPruneTimer data.vif timer)) :=
      does_bind (timerSetTimer_changes _ trivial) fun timer =>
        storeField_changes item.1 (.pruneTimer data.vif timer) (Level.quiet_le _) (fun _ => rfl) trivial
    exact ⟨models_of_quiet quiet still timing, sent.trans (sent_of_trace .delLeaf rfl)⟩

theorem graftEntry_models (models : Models s t) {vif : Vif} {item : Ptr × Route}
    (member : item ∈ t.entries) (run : Runs (graftEntry host vif item.1) s () s') :
    Models s' (t.forwardIf host (fun r => r.outvif vif == 0) vif 1 0 item) := by
  unfold Table.forwardIf
  obtain ⟨_, stopped, stop, continued⟩ := runs_bind.mp run
  have models := models_of_quiet (cancelPruneDelay_changes item.1 vif) models stop
  obtain ⟨e, here, same⟩ := models.entries.found member
  obtain ⟨_, _, read, continued⟩ := runs_bind.mp continued
  obtain ⟨read, rfl⟩ := runs_loadMrt.mp read
  obtain rfl := Option.some.inj (here.symm.trans read)
  rcases runs_onlyIf.mp continued with ⟨off, continued⟩ | ⟨on, rfl⟩
  · obtain ⟨_, _, store, tell⟩ := runs_bind.mp continued
    obtain ⟨_, rfl⟩ := runs_storeMrt.mp store
    rw [same] at off
    rw [if_pos (beq_iff_eq.mpr off)]
    refine forward_models models (Mrt.putOutvif vif 1) (fun _ => rfl) (fun e => ?_) same tell
    simp [Mrt.putOutvif, routeSetOutvif]
  · rw [same] at on
    rw [if_neg (fun equal => on (beq_iff_eq.mp equal))]
    exact models

/-! ## `refresh_mrt` -/

/-- A loop that forwards on the entries with a property, one after another. -/
theorem forList_follows {judge : Judge} {property : Route → Bool} {vif : Vif} {value change : Int}
    {body : Ptr → Act Unit} {members neighbors : Vif → List (Ptr × Addr)}
    (step : ∀ (s s' : Daemon) (t : Table) (item : Ptr × Route), Models s t → t.members = members →
      t.neighbors = neighbors → item ∈ t.entries → Runs (body item.1) s () s' →
      Follows judge s s' (t.forwardIf host property vif value change item)
        (t.passes host vif value (fun _ => change) ([item].filter fun item => property item.2)))
    (models : Models s t) (sameMembers : t.members = members)
    (sameNeighbors : t.neighbors = neighbors) {items : List (Ptr × Route)}
    (inside : ∀ item ∈ items, item ∈ t.entries) (distinct : (items.map Prod.fst).Nodup)
    (run : Runs (forList body (items.map Prod.fst)) s () s') :
    Follows judge s s' (t.forwardAll host property vif value change items)
      (t.passes host vif value (fun _ => change) (items.filter fun item => property item.2)) := by
  induction items generalizing s t with
  | nil =>
      rw [(runs_pure.mp run).2]
      exact models.follows_nothing judge
  | cons item rest ih =>
      obtain ⟨_, middle, ran, continued⟩ := runs_bind.mp run
      have here := inside item (List.mem_cons_self ..)
      have first := step s middle t item models sameMembers sameNeighbors here ran
      rw [List.map_cons, List.nodup_cons] at distinct
      have more := ih first.models
        ((Table.forwardIf_members ..).trans sameMembers)
        ((Table.forwardIf_neighbors ..).trans sameNeighbors) (fun other member => by
          have old := inside other (List.mem_cons_of_mem _ member)
          refine Table.mem_forwardIf_of_ne old (fun same => distinct.1 ?_) property vif value change
          rw [← same]
          exact List.mem_map_of_mem member) distinct.2 continued
      rw [Table.passes_filter_cons]
      exact ⟨more.models, first.sent.trans more.sent⟩

theorem Models.hasMember_iff (models : Models s t) {vif : Vif} {group : Addr} :
    addressOf ((t.members vif).find? fun item => item.2 == group) ≠ 0 ↔ t.HasMember vif group := by
  unfold Table.HasMember
  cases found : (t.members vif).find? fun item => item.2 == group with
  | none =>
      have absent := List.find?_eq_none.mp found
      simp only [addressOf, Option.map_none, Option.getD_none, ne_eq, not_true_eq_false, false_iff]
      rintro ⟨item, member, same⟩
      exact absent item member (beq_iff_eq.mpr same)
  | some item =>
      have member := List.mem_of_find?_eq_some found
      have holds := List.find?_some (p := fun other : Ptr × Addr => other.2 == group) found
      have nonnull := (models.members vif).nonnull member
      simp only [addressOf, Option.map_some, Option.getD_some, ne_eq, nonnull, not_false_eq_true,
        true_iff]
      exact ⟨item, member, eq_of_beq holds⟩

theorem Models.hasNeighbor_iff (models : Models s t) {vif : Vif} :
    (s.myvifs vif).neighbor ≠ 0 ↔ t.HasNeighbor vif :=
  not_congr (models.neighbors vif).nil_iff

/-- What the source tests before it stops forwarding to a lost neighbour. -/
theorem Models.deserted_iff (models : Models s t) {r : Route} :
    t.Deserted r = true ↔
      addressOf ((t.members Table.searchedVif).find? fun item => item.2 == r.group) = 0 ∧
        (s.myvifs Table.searchedVif).neighbor = 0 := by
  rw [Table.deserted_iff, ← models.hasMember_iff, ← models.hasNeighbor_iff, not_not, not_not]

theorem refreshEntry_add_follows (models : Models s t) {vif : Vif} {item : Ptr × Route}
    (member : item ∈ t.entries) (run : Runs (refreshEntry host vif .addNeighbor item.1) s () s') :
    Follows .addNeighbor s s' (t.forwardIf host (fun r => r.outvif vif == 0) vif 1 1 item)
      (t.passes host vif 1 (fun _ => 1) ([item].filter fun item => item.2.outvif vif == 0)) := by
  unfold Table.forwardIf
  obtain ⟨e, here, same⟩ := models.entries.found member
  obtain ⟨_, _, read, continued⟩ := runs_bind.mp run
  obtain ⟨read, rfl⟩ := runs_loadMrt.mp read
  obtain rfl := Option.some.inj (here.symm.trans read)
  rw [if_pos rfl, same] at continued
  rcases runs_ite.mp continued with ⟨off, continued⟩ | ⟨on, stop⟩
  · have holds : (item.2.outvif vif == 0) = true := beq_iff_eq.mpr off
    rw [if_pos holds, List.filter_cons_of_pos (p := fun item : Ptr × Route => item.2.outvif vif == 0) holds]
    obtain ⟨_, stored, store, continued⟩ := runs_bind.mp continued
    obtain ⟨_, told, tell, check⟩ := runs_bind.mp continued
    obtain ⟨_, rfl⟩ := runs_storeMrt.mp store
    have forwarded := changeMfc_models (models.setOutvif item.1 vif 1 1) tell
    have silent := changeMfc_trace tell
    exact checked_follows forwarded silent check
  · have other : ¬ (item.2.outvif vif == 0) = true := fun equal => on (beq_iff_eq.mp equal)
    rw [if_neg other, List.filter_cons_of_neg (p := fun item : Ptr × Route => item.2.outvif vif == 0) other,
      (runs_pure.mp stop).2]
    exact models.follows_nothing .addNeighbor

theorem refreshEntry_del_follows (models : Models s t) {vif : Vif} {item : Ptr × Route}
    (member : item ∈ t.entries) (run : Runs (refreshEntry host vif .delNeighbor item.1) s () s') :
    Follows .delNeighbor s s' (t.forwardIf host t.Deserted vif 0 (-1) item)
      (t.passes host vif 0 (fun _ => -1) ([item].filter fun item => t.Deserted item.2)) := by
  obtain ⟨e, here, same⟩ := models.entries.found member
  obtain ⟨_, _, read, continued⟩ := runs_bind.mp run
  obtain ⟨read, rfl⟩ := runs_loadMrt.mp read
  obtain rfl := Option.some.inj (here.symm.trans read)
  rw [if_neg (by decide), if_pos rfl, same] at continued
  obtain ⟨_, _, search, searched⟩ := runs_bind.mp continued
  obtain ⟨rfl, rfl⟩ := models.runs_findGroup.mp search
  obtain ⟨_, _, got, decided⟩ := runs_bind.mp searched
  obtain ⟨rfl, rfl⟩ := runs_get.mp got
  have deserted := models.deserted_iff (r := item.2)
  unfold Table.forwardIf
  rcases runs_ite.mp decided with ⟨alone, continued⟩ | ⟨wanted, stop⟩
  · have holds := deserted.mpr alone
    rw [if_pos holds, List.filter_cons_of_pos (p := fun item : Ptr × Route => t.Deserted item.2) holds]
    obtain ⟨_, stored, store, continued⟩ := runs_bind.mp continued
    obtain ⟨_, told, tell, check⟩ := runs_bind.mp continued
    obtain ⟨_, rfl⟩ := runs_storeMrt.mp store
    have forwarded := changeMfc_models (models.setOutvif item.1 vif 0 (-1)) tell
    have silent := changeMfc_trace tell
    exact checked_follows forwarded silent check
  · have other : ¬ t.Deserted item.2 = true := fun alone => wanted (deserted.mp alone)
    rw [if_neg other, List.filter_cons_of_neg (p := fun item : Ptr × Route => t.Deserted item.2) other,
      (runs_pure.mp stop).2]
    exact models.follows_nothing .delNeighbor

theorem refreshEntry_links (host : Host) (vif : Vif) (i : Judge) (mymrt : Ptr) :
    Within (fun before after => after.mrts.links Mrt.next = before.mrts.links Mrt.next)
      (refreshEntry host vif i mymrt) := by
  have changes : Within (Changes .forwarding Anything) (refreshEntry host vif i mymrt) :=
    refreshEntry_changes (by decide) (fun _ => trivial) host vif i mymrt
  exact links_of_changes (by decide) changes

theorem refreshMrt_add_follows (models : Models s t) {vif : Vif}
    (run : Runs (refreshMrt host vif .addNeighbor) s () s') :
    Follows .addNeighbor s s' (t.refreshAdd host vif)
      (t.passes host vif 1 (fun _ => 1) (t.entries.filter fun item => item.2.outvif vif == 0)) := by
  obtain ⟨_, looped, loop, print⟩ := runs_bind.mp run
  obtain rfl := runs_printSg print
  have loop := (models.runs_forMrt (refreshEntry_links host vif .addNeighbor)).mp loop
  exact forList_follows (fun s s' t item models _ _ member run =>
    refreshEntry_add_follows models member run) models rfl rfl (fun _ member => member)
    models.entries.nodup loop

theorem refreshMrt_del_follows (models : Models s t) {vif : Vif}
    (run : Runs (refreshMrt host vif .delNeighbor) s () s') :
    Follows .delNeighbor s s' (t.refreshDel host vif)
      (t.passes host vif 0 (fun _ => -1) (t.entries.filter fun item => t.Deserted item.2)) := by
  obtain ⟨_, looped, loop, print⟩ := runs_bind.mp run
  obtain rfl := runs_printSg print
  have loop := (models.runs_forMrt (refreshEntry_links host vif .delNeighbor)).mp loop
  have step : ∀ (s s' : Daemon) (other : Table) (item : Ptr × Route), Models s other →
      other.members = t.members → other.neighbors = t.neighbors → item ∈ other.entries →
      Runs (refreshEntry host vif .delNeighbor item.1) s () s' →
      Follows .delNeighbor s s' (other.forwardIf host t.Deserted vif 0 (-1) item)
        (other.passes host vif 0 (fun _ => -1) ([item].filter fun item => t.Deserted item.2)) := by
    intro s s' other item models sameMembers sameNeighbors member run
    rw [← Table.deserted_congr sameMembers sameNeighbors]
    exact refreshEntry_del_follows models member run
  exact forList_follows step models rfl rfl (fun _ member => member) models.entries.nodup loop

end PimDm.Refinement
