import PimDm.Refinement.Lists

/-!
# Creation and deletion of entries

`add_sg` on clean memory links an entry that forwards where there is a neighbour
or a member; `delete_sg` unlinks the first entry of its source and group.
-/

namespace PimDm.Refinement

open PimDm.Foundation PimDm.Source PimDm.Effect PimDm.Routing

variable {s s' : Daemon} {t : Table} {host : Host}

/-! ## `delete_sg` -/

section Unlinking

variable {β : Type} {image : Mrt → β} {shown : β → Bool} {source group : Addr}
  {items ahead behind : List (Ptr × β)} {item : Ptr × β}

/-- The search with a trailing pointer through the table. -/
theorem runs_findMrtTrailing (shows : s.mrts.Shows Mrt.next image s.themrt items)
    (reads : ∀ e, Mrt.isFor source group e = shown (image e)) {found : Option Ptr × Ptr}
    (run : Runs (findMrtTrailing (Mrt.isFor source group)) s found s') :
    s' = s ∧ ((found.2 = 0 ∧ ∀ item ∈ items, shown item.2 = false) ∨
      ∃ ahead item behind, items = ahead ++ item :: behind ∧
        (∀ other ∈ ahead, shown other.2 = false) ∧ shown item.2 = true ∧
        found = (ahead.getLast?.map Prod.fst, item.1)) := by
  rw [findMrtTrailing, runs_get_bind, runs_liftHeap] at run
  obtain ⟨result, rfl⟩ := run
  refine ⟨rfl, ?_⟩
  rcases shows.findTrailing_eq (Mrt.isFor source group) shown reads with
    ⟨last, none, absent⟩ | ⟨ahead, item, behind, split, before, here, some⟩
  · obtain rfl := Except.ok.inj (none.symm.trans result)
    exact Or.inl ⟨rfl, absent⟩
  · obtain rfl := Except.ok.inj (some.symm.trans result)
    exact Or.inr ⟨ahead, item, behind, split, before, here, rfl⟩

/-- The unlinking of `delete_sg`: on a null-terminated table `temp` is set
whenever it is used. -/
theorem unlinkSg_shows (shows : s.mrts.Shows Mrt.next image s.themrt (ahead ++ item :: behind))
    (reads : ∀ e, Mrt.isFor source group e = shown (image e))
    (kept : ∀ e next, image { e with next := next } = image e)
    (before : ∀ other ∈ ahead, shown other.2 = false) (here : shown item.2 = true)
    {first mymrt : Mrt} (head : s.mrts.get? s.themrt = some first)
    (found : s.mrts.get? item.1 = some mymrt)
    (run : Runs (unlinkSg source group first mymrt (ahead.getLast?.map Prod.fst)) s () s') :
    ∃ themrt mrts, s' = { s with themrt := themrt, mrts := mrts } ∧
      mrts.Shows Mrt.next image themrt (ahead ++ behind) := by
  have inside : item ∈ ahead ++ item :: behind := by simp
  rcases List.eq_nil_or_concat' ahead with rfl | ⟨front, last, rfl⟩
  · rw [List.nil_append] at shows
    rw [shows.start_eq, found] at head
    obtain rfl := Option.some.inj head
    obtain ⟨block, present, same⟩ := shows.found (List.mem_cons_self ..)
    obtain rfl := Option.some.inj (found.symm.trans present)
    rcases runs_ite.mp run with ⟨_, link⟩ | ⟨other, _⟩
    · obtain rfl := runs_modify.mp link
      exact ⟨mymrt.next, s.mrts, rfl, shows.tail found⟩
    · rw [← same, ← reads] at here
      exact absurd here other
  · have apart : ¬ first.isFor source group = true := by
      obtain ⟨top, others, cons⟩ := List.exists_cons_of_ne_nil (l := front ++ [last]) (by simp)
      rw [cons, List.cons_append] at shows
      rw [shows.start_eq] at head
      have differs := before top (by simp [cons])
      obtain ⟨block, present, same⟩ := shows.found (List.mem_cons_self ..)
      obtain rfl := Option.some.inj (present.symm.trans head)
      rw [← same, ← reads] at differs
      exact ne_true_of_eq_false differs
    rcases runs_ite.mp run with ⟨same, _⟩ | ⟨_, redirect⟩
    · exact absurd same apart
    rw [List.getLast?_concat, Option.map_some] at redirect
    obtain ⟨_, rfl⟩ := runs_storeMrt.mp redirect
    rw [List.append_assoc, List.cons_append, List.nil_append] at shows
    have unlinked := shows.unlink found (fun e => { e with next := mymrt.next }) (fun _ => rfl)
      fun e => kept e mymrt.next
    refine ⟨s.themrt, s.mrts.modify last.1 fun e => { e with next := mymrt.next }, rfl, ?_⟩
    simpa using unlinked

/-- `delete_sg` unlinks the first record of its source and group, if there is one, and clears
the timer in its check slot. -/
theorem deleteSg_unlinks (shown : β → Bool) (shows : s.mrts.Shows Mrt.next image s.themrt items)
    (reads : ∀ e, Mrt.isFor source group e = shown (image e))
    (kept : ∀ e next, image { e with next := next } = image e) {result : Int}
    (run : Runs (deleteSg source group) s result s') :
    (s' = s ∧ ∀ item ∈ items, shown item.2 = false) ∨
      ∃ mymrt themrt mrts ahead item behind, s.mrts.get? item.1 = some mymrt ∧
        s' = { (s.setMfc source group none).clearTimer mymrt.checkTimerid with
          themrt := themrt, mrts := mrts }.observe (.deleteSg source group) ∧
        items = ahead ++ item :: behind ∧ (∀ other ∈ ahead, shown other.2 = false) ∧
        shown item.2 = true ∧ mrts.Shows Mrt.next image themrt (ahead ++ behind) := by
  obtain ⟨found, _, looked, deciding⟩ := runs_bind.mp run
  obtain ⟨rfl, ⟨null, absent⟩ | ⟨ahead, item, behind, rfl, before, here, rfl⟩⟩ :=
    runs_findMrtTrailing shows reads looked
  · rw [if_pos null] at deciding
    obtain ⟨_, _, print, stop⟩ := runs_bind.mp deciding
    obtain ⟨_, rfl⟩ := runs_pure.mp stop
    exact Or.inl ⟨runs_printSg print, absent⟩
  · have inside : item ∈ ahead ++ item :: behind := by simp
    have nonnull := shows.nonnull inside
    rw [if_neg nonnull] at deciding
    obtain ⟨mymrt, _, load, afterLoad⟩ := runs_bind.mp deciding
    obtain ⟨memory, rfl⟩ := runs_loadMrt.mp load
    rw [runs_get_bind] at afterLoad
    obtain ⟨top, _, loadHead, afterHead⟩ := runs_bind.mp afterLoad
    obtain ⟨head, rfl⟩ := runs_loadMrt.mp loadHead
    obtain ⟨_, _, forget, afterForget⟩ := runs_bind.mp afterHead
    obtain rfl := runs_modify.mp forget
    obtain ⟨_, _, clear, afterClear⟩ := runs_bind.mp afterForget
    obtain rfl := runs_timerClearTimer.mp clear
    obtain ⟨_, unlinked, unlink, finish⟩ := runs_bind.mp afterClear
    obtain ⟨themrt, mrts, rfl, shorter⟩ := unlinkSg_shows (by simpa [Daemon.setMfc] using shows) reads kept
      before here (by simpa [Daemon.setMfc] using head) (by simpa [Daemon.setMfc] using memory) unlink
    obtain ⟨_, _, note, printed⟩ := runs_bind.mp finish
    obtain rfl := runs_modify.mp note
    obtain ⟨_, _, print, stop⟩ := runs_bind.mp printed
    obtain ⟨_, rfl⟩ := runs_pure.mp stop
    refine Or.inr ⟨mymrt, themrt, mrts, ahead, item, behind, memory, ?_, rfl, before, here, shorter⟩
    exact runs_printSg print

end Unlinking

theorem deleteSg_models (models : Models s t) {source group : Addr} {result : Int}
    (run : Runs (deleteSg source group) s result s') : Models s' (t.remove source group) := by
  rcases deleteSg_unlinks (routeIsFor source group) models.entries (fun _ => rfl)
      (fun _ _ => rfl) run with
    ⟨rfl, absent⟩ | ⟨mymrt, themrt, mrts, ahead, item, behind, _, rfl, split, before, here, shorter⟩
  · have none : t.find (routeIsFor source group) = none :=
      List.find?_eq_none.mpr fun item member => by simp [absent item member]
    rw [Table.remove, none]
    exact models
  · have first : t.find (routeIsFor source group) = some item := by
      rw [Table.find, split]
      exact find?_split before here
    have erased : t.entries.eraseP (fun item => routeIsFor source group item.2) = ahead ++ behind := by
      rw [split]
      exact eraseP_split before here
    have cleared := models_quiet (models.setMfc source group none) (.clearTimer mymrt.checkTimerid)
      (Level.quiet_le _)
    rw [Table.remove, first]
    simp only [erased]
    exact { cleared.observe (.deleteSg source group) with entries := shorter }

/-! ## `add_sg` -/

/-- The loop of `add_sg` sets the cell of an interface. -/
def WantsVif (t : Table) (group : Addr) (incoming vif : Vif) : Prop :=
  vif ≠ incoming ∧ (t.HasNeighbor vif ∨ t.HasMember vif group)

instance (t : Table) (group : Addr) (incoming vif : Vif) :
    Decidable (WantsVif t group incoming vif) :=
  inferInstanceAs (Decidable (_ ∧ _))

/-- What the loop of `add_sg` makes of a cell: one that is 1 already stays so on an interface
that is not incoming. -/
def startCell (t : Table) (group : Addr) (incoming vif : Vif) (old : Int) : Int :=
  if WantsVif t group incoming vif then 1 else if vif ≠ incoming ∧ old = 1 then 1 else 0

theorem startCell_zero (t : Table) (group : Addr) (incoming vif : Vif) :
    startCell t group incoming vif 0 = if WantsVif t group incoming vif then 1 else 0 := by
  simp [startCell]

/-- One round of the loop of `add_sg`. -/
theorem addSgVif_models (models : Models s t) {group : Addr} {incoming i : Vif} {so after : Mrt × Int}
    (run : Runs (addSgVif group incoming so i) s after s') :
    s' = s ∧ after.1.next = so.1.next ∧
      after.1.toRoute = { so.1.toRoute with
        outvif := Function.update so.1.outvif i (startCell t group incoming i (so.1.outvif i)) } ∧
      after.2 = so.2 + (if WantsVif t group incoming i then 1 else 0) := by
  unfold addSgVif at run
  rcases runs_ite.mp run with ⟨other, rest⟩ | ⟨same, stop⟩
  · rw [runs_get_bind] at rest
    rcases runs_ite.mp rest with ⟨neighbor, stop⟩ | ⟨none, search⟩
    · obtain ⟨rfl, rfl⟩ := runs_pure.mp stop
      have wants : WantsVif t group incoming i := ⟨other, Or.inl (models.hasNeighbor_iff.mp neighbor)⟩
      simp [Mrt.putOutvif, startCell, wants]
    · obtain ⟨_, _, looked, stop⟩ := runs_bind.mp search
      obtain ⟨rfl, rfl⟩ := models.runs_findGroup.mp looked
      obtain ⟨rfl, rfl⟩ := runs_pure.mp stop
      have wants : WantsVif t group incoming i ↔ t.HasMember i group := by
        unfold WantsVif
        rw [← models.hasNeighbor_iff]
        simp [other, not_not.mp none]
      by_cases member : t.HasMember i group
      · have found := models.hasMember_iff.mpr member
        simp [addSgMember, startCell, wants, member, found, Mrt.putOutvif]
      · have found := not_not.mp (fun found => member (models.hasMember_iff.mp found))
        by_cases dirty : so.1.outvif i = 1
        · have kept : Function.update so.1.outvif i 1 = so.1.outvif := dirty ▸ Function.update_eq_self ..
          simp [addSgMember, startCell, wants, member, found, dirty, other, kept]
        · simp [addSgMember, startCell, wants, member, found, Mrt.putOutvif, dirty]
  · obtain ⟨rfl, rfl⟩ := runs_pure.mp stop
    have unwanted : ¬ WantsVif t group incoming i := fun wants => wants.1 (not_not.mp same)
    have closed : startCell t group incoming i (so.1.outvif i) = 0 := by simp [startCell, unwanted, same]
    simp [Mrt.putOutvif, closed, unwanted]

/-- The whole loop of `add_sg`. -/
theorem addSgLoop_models (models : Models s t) {group : Addr} {incoming : Vif} {vifs : List Vif}
    (distinct : vifs.Nodup) {so after : Mrt × Int}
    (run : Runs (foldProgram (addSgVif group incoming) vifs so) s after s') :
    s' = s ∧ after.1.next = so.1.next ∧
      after.1.toRoute = { so.1.toRoute with
        outvif := fun vif => if vif ∈ vifs then startCell t group incoming vif (so.1.outvif vif)
          else so.1.outvif vif } ∧
      after.2 = so.2 + (vifs.filter fun vif => decide (WantsVif t group incoming vif)).length := by
  induction vifs generalizing so s with
  | nil =>
      obtain ⟨rfl, rfl⟩ := runs_pure.mp run
      simp
  | cons vif rest ih =>
      obtain ⟨round, _, first, later⟩ := runs_bind.mp run
      obtain ⟨absent, distinct⟩ := List.nodup_cons.mp distinct
      obtain ⟨rfl, next, route, number⟩ := addSgVif_models models first
      obtain ⟨rfl, next', route', number'⟩ := ih models distinct later
      refine ⟨rfl, next'.trans next, ?_, ?_⟩
      · rw [route', route]
        ext other <;> try rfl
        by_cases here : other = vif
        · subst here
          simp [absent]
        · simp [here]
      · rw [number', number, List.filter_cons]
        by_cases wanted : WantsVif t group incoming vif
        · simp [wanted]
          omega
        · simp [wanted]

/-- A new entry, with the loop's test of an interface in place of `Wants`. -/
theorem newRoute_eq (host : Host) (t : Table) (upstream source group : Addr) (incoming : Vif) :
    t.newRoute host upstream source group incoming =
      { source := source, group := group, upstream := upstream, incoming := incoming,
        preference := 0, metric := 0,
        outvif := fun vif => if vif ∈ host.vifs then
          (if WantsVif t group incoming vif then 1 else 0) else 0,
        outnumber := (host.vifs.filter fun vif => decide (WantsVif t group incoming vif)).length } := by
  have wants : ∀ vif, t.Wants host group incoming vif ↔
      vif ∈ host.vifs ∧ WantsVif t group incoming vif := fun _ => Iff.rfl
  unfold Table.newRoute
  congr 1
  · funext vif
    by_cases inside : vif ∈ host.vifs <;> simp [wants, inside]
  · have same : ∀ vif ∈ host.vifs, decide (t.Wants host group incoming vif) =
        decide (WantsVif t group incoming vif) := by
      intro vif inside
      simp [wants, inside]
    rw [List.filter_congr same]

/-- A record from clean memory in front of the table. -/
theorem Models.linkMrt (models : Models s t) (newmrt : Mrt) (clean : newmrt.next = 0) :
    Models (s.linkMrt newmrt) (t.push (s.mrts.fresh, newmrt.toRoute)) := by
  have link : (if s.themrt = 0 then newmrt else { newmrt with next := s.themrt }).next = s.themrt := by
    by_cases empty : s.themrt = 0
    · rw [if_pos empty, clean, empty]
    · rw [if_neg empty]
  have route : (if s.themrt = 0 then newmrt else { newmrt with next := s.themrt }).toRoute =
      newmrt.toRoute := by
    split <;> rfl
  have pushed := models.entries.push link
  rw [route] at pushed
  exact { models with entries := pushed }

theorem addSg_models (zero : host.ZeroFilled) (models : Models s t) {gateway source group : Addr}
    {incoming : Vif} (run : Runs (addSg host gateway source group incoming) s () s') :
    Models s' (t.push (s.mrts.fresh,
      t.newRoute host (getUpstream host gateway source) source group incoming)) := by
  unfold addSg at run
  rw [runs_get_bind] at run
  obtain ⟨built, looped, loop, rest⟩ := runs_bind.mp run
  obtain ⟨same, next, route, number⟩ := addSgLoop_models models host.nodup_vifs loop
  subst same
  obtain ⟨timeout, _, setTimeout, afterTimeout⟩ := runs_bind.mp rest
  obtain ⟨rfl, rfl⟩ := runs_timerSetTimer.mp setTimeout
  obtain ⟨check, _, setCheck, afterCheck⟩ := runs_bind.mp afterTimeout
  obtain ⟨rfl, rfl⟩ := runs_timerSetTimer.mp setCheck
  obtain ⟨_, _, link, noteAndAnnounce⟩ := runs_bind.mp afterCheck
  obtain ⟨_, _, note, announce⟩ := runs_bind.mp noteAndAnnounce
  obtain rfl := runs_modify.mp link
  obtain rfl := runs_modify.mp note
  have clean : built.1.next = 0 := next.trans (by simp [zero.mrt, Mrt.zero])
  have shown : ({ built.1.toRoute with outnumber := built.2 } : Route) =
      t.newRoute host (getUpstream host gateway source) source group incoming := by
    rw [newRoute_eq, route, number]
    simp [zero.mrt, Mrt.zero, startCell_zero]
  rw [← shown]
  have timed := models_quiet (models_quiet models
    (.setTimer pimSgTimeout (.handleSgTimeout source group)) (Level.quiet_le _))
    (.setTimer pimSgCheck (.checkSg source group)) (Level.quiet_le _)
  have linked := timed.linkMrt { built.1 with
    outnumber := built.2
    graftTimerId := 0
    timeoutId := looped.id + 1
    checkTimerid := (looped.setTimer pimSgTimeout (.handleSgTimeout source group)).id + 1 } clean
  refine models_of_quiet ?_ (linked.observe (.addSg source group)) announce
  exact does_bind (announceSg_changes (fun _ => trivial) host source _) fun _ => printSg_changes

/-! ## The upcall -/

/-- An upcall for a new packet adds an entry if the packet came in on the right interface. -/
theorem newMulticastPacket_creates {mydata : MulticastErrorData} {checked routed : Addr}
    (run : Runs (newMulticastPacket host mydata checked routed) s () s') :
    (findVifDirect host (getUpstream host checked mydata.source) = mydata.vif ∧ ∃ added,
        Runs (addSg host routed mydata.source mydata.destination mydata.vif) s () added ∧
          Runs (changeMfc host mydata.source mydata.destination mydata.vif) added () s') ∨
      findVifDirect host (getUpstream host checked mydata.source) ≠ mydata.vif ∧ s' = s := by
  obtain ⟨right, _, checkVif, rest⟩ := runs_bind.mp run
  obtain ⟨rightvif, _, ask, answer⟩ := runs_bind.mp checkVif
  obtain ⟨rfl, rfl⟩ := runs_pure.mp answer
  rcases runs_ite.mp ask with ⟨_, fault⟩ | ⟨_, incoming⟩
  · exact (runs_throw.mp fault).elim
  obtain ⟨rfl, rfl⟩ := runs_pure.mp incoming
  rcases runs_onlyIf.mp rest with ⟨right, create⟩ | ⟨wrong, rfl⟩
  · obtain ⟨_, added, add, tell⟩ := runs_bind.mp create
    exact Or.inl ⟨eq_of_beq right, added, add, tell⟩
  · exact Or.inr ⟨fun right => wrong (beq_iff_eq.mpr right), rfl⟩

theorem newMulticastPacket_models (zero : host.ZeroFilled) (models : Models s t)
    {mydata : MulticastErrorData} {checked routed : Addr}
    (run : Runs (newMulticastPacket host mydata checked routed) s () s') :
    Models s' (if findVifDirect host (getUpstream host checked mydata.source) = mydata.vif then
      t.create host s.mrts.fresh (getUpstream host routed mydata.source) mydata.source
        mydata.destination mydata.vif else t) := by
  rcases newMulticastPacket_creates run with ⟨right, added, add, tell⟩ | ⟨wrong, rfl⟩
  · rw [if_pos right]
    exact changeMfc_models (addSg_models zero models add) tell
  · rw [if_neg wrong]
    exact models

theorem multicastPacketError_models (zero : host.ZeroFilled) (models : Models s t)
    {mydata : MulticastErrorData} {checked routed : Addr}
    (run : Runs (multicastPacketError host mydata checked routed) s () s') :
    Models s' ((packetChange host s mydata checked routed).apply host t) := by
  obtain ⟨_, middle, first, second⟩ := runs_bind.mp run
  have quiet : Within (Changes .quiet Anything)
      (onlyIf (mydata.message = 2) (wrongMulticastPacket host mydata)) :=
    does_onlyIf fun _ => wrongMulticastPacket_changes host mydata
  refine models_of_quiet quiet ?_ second
  unfold packetChange
  rcases runs_onlyIf.mp first with ⟨fresh, create⟩ | ⟨other, rfl⟩
  · have created := newMulticastPacket_models zero models create
    by_cases right : findVifDirect host (getUpstream host checked mydata.source) = mydata.vif
    · rw [if_pos right] at created
      rw [if_pos ⟨fresh, right⟩]
      exact created
    · rw [if_neg right] at created
      rw [if_neg fun both => right both.2]
      exact created
  · rw [if_neg fun both => other both.1]
    exact models

end PimDm.Refinement
