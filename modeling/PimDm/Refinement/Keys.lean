import PimDm.Refinement.Entries

/-!
# The keys of the routing table

Only the source and group of each entry are followed here, against the calls of
`add_sg` and `delete_sg` in the trace.  Nothing is assumed of fresh memory.
-/

namespace PimDm.Refinement

open PimDm.Foundation PimDm.Source PimDm.Effect

variable {s s' : Daemon} {host : Host} {items : List (Ptr × Addr × Addr)}

/-- The source and group of an entry. -/
def keyOf (e : Mrt) : Addr × Addr := (e.source, e.group)

/-- `add_sg` was called for the source and group, and `delete_sg` removed no entry
of theirs since; the trace starts with the newest observation. -/
def Live (source group : Addr) : List Observation → Prop
  | [] => False
  | .addSg newSource newGroup :: older =>
      (source = newSource ∧ group = newGroup) ∨ Live source group older
  | .deleteSg oldSource oldGroup :: older =>
      ¬ (source = oldSource ∧ group = oldGroup) ∧ Live source group older
  | _ :: older => Live source group older

/-- The table is a null-terminated list without a repeated key, of the keys that
are live. -/
structure Represents (s : Daemon) (items : List (Ptr × Addr × Addr)) : Prop where
  shows : s.mrts.Shows Mrt.next keyOf s.themrt items
  distinct : (items.map Prod.snd).Nodup
  live : ∀ source group, (source, group) ∈ items.map Prod.snd ↔ Live source group s.trace

/-! ## Updates that keep the keys -/

/-- The same records with the same keys in the same order, and no call of
`add_sg` or `delete_sg` in between. -/
structure SameKeys (s s' : Daemon) : Prop where
  themrt : s'.themrt = s.themrt
  records : s'.mrts.map (fun e => (e.next, keyOf e)) = s.mrts.map fun e => (e.next, keyOf e)
  live : ∀ source group, Live source group s'.trace ↔ Live source group s.trace

theorem steady_sameKeys : Steady SameKeys where
  refl _ := ⟨rfl, rfl, fun _ _ => Iff.rfl⟩
  trans left right :=
    ⟨right.themrt.trans left.themrt, right.records.trans left.records, fun source group =>
      (right.live source group).trans (left.live source group)⟩

theorem SameKeys.symm (same : SameKeys s s') : SameKeys s' s :=
  ⟨same.themrt.symm, same.records.symm, fun source group => (same.live source group).symm⟩

theorem SameKeys.represents (same : SameKeys s s') (represents : Represents s items) :
    Represents s' items := by
  refine ⟨?_, represents.distinct, fun source group => ?_⟩
  · rw [same.themrt]
    refine represents.shows.congr fun address _ => ?_
    rw [← Heap.get?_map, ← Heap.get?_map, same.records]
  · rw [same.live]
    exact represents.live source group

theorem SameKeys.represents_iff (same : SameKeys s s') : Represents s' items ↔ Represents s items :=
  ⟨same.symm.represents, same.represents⟩

theorem field_sameKeys (s : Daemon) (mymrt : Ptr) (store : Field) :
    SameKeys s (s.setMrt mymrt store.write) := by
  refine ⟨rfl, ?_, fun _ _ => Iff.rfl⟩
  refine Heap.map_modify_same _ _ fun e => ?_
  cases store <;> rfl

/-- Updates below the removal of entries keep the keys. -/
theorem update_sameKeys (s : Daemon) (update : Update) (below : update.level ≤ .lists) :
    SameKeys s (update.apply s) := by
  cases update with
  | clearTimer timer =>
      refine ⟨clearTimer_themrt s timer, ?_, fun source group => ?_⟩
      · simp [Update.apply]
      · simp only [Update.apply, Daemon.clearTimer]
        split <;> rfl
  | field mymrt store => exact field_sameKeys s mymrt store
  | linkMrt newmrt => exact absurd below (by simp only [Update.level]; decide)
  | mrtHead mymrt => exact absurd below (by simp only [Update.level]; decide)
  | mrtNext mymrt next => exact absurd below (by simp only [Update.level]; decide)
  | addedSg source group => exact absurd below (by simp only [Update.level]; decide)
  | deletedSg source group => exact absurd below (by simp only [Update.level]; decide)
  | _ => exact ⟨rfl, rfl, fun _ _ => Iff.rfl⟩

theorem sameKeys_of_changes {level : Level} {A : Callback → Prop} (below : level ≤ .lists)
    (changes : Changes level A s s') : SameKeys s s' :=
  does_relates steady_sameKeys
    (fun update state inside => update_sameKeys state update (Level.le_trans inside.1 below)) changes

/-! ## Removal -/

theorem mem_keys_without {ahead behind : List (Ptr × Addr × Addr)} {item : Ptr × Addr × Addr}
    (distinct : ((ahead ++ item :: behind).map Prod.snd).Nodup) (key : Addr × Addr) :
    key ∈ (ahead ++ behind).map Prod.snd ↔
      key ≠ item.2 ∧ key ∈ (ahead ++ item :: behind).map Prod.snd := by
  constructor
  · intro member
    obtain ⟨other, inside, rfl⟩ := List.mem_map.mp member
    refine ⟨apart_of_nodup distinct other inside, List.mem_map_of_mem ?_⟩
    rw [List.mem_append, List.mem_cons]
    exact (List.mem_append.mp inside).imp_right Or.inr
  · rintro ⟨other, member⟩
    rw [List.map_append, List.map_cons] at member
    rw [List.map_append]
    rcases List.mem_append.mp member with before | rest
    · exact List.mem_append_left _ before
    · exact List.mem_append_right _ ((List.mem_cons.mp rest).resolve_left other)

theorem deleteSg_represents (represents : Represents s items) {source group : Addr} {result : Int}
    (run : Runs (deleteSg source group) s result s') : ∃ items', Represents s' items' := by
  rcases deleteSg_unlinks (fun key => key.1 == source && key.2 == group) represents.shows
      (fun _ => rfl) (fun _ _ => rfl) run with
    ⟨rfl, _⟩ | ⟨mymrt, themrt, mrts, ahead, item, behind, _, rfl, rfl, _, here, shorter⟩
  · exact ⟨items, represents⟩
  have key : item.2 = (source, group) := by
    obtain ⟨sameSource, sameGroup⟩ := Bool.and_eq_true_iff.mp here
    exact Prod.ext (eq_of_beq sameSource) (eq_of_beq sameGroup)
  refine ⟨ahead ++ behind, shorter, ?_, fun otherSource otherGroup => ?_⟩
  · have fewer : (ahead ++ behind).Sublist (ahead ++ item :: behind) :=
      (List.Sublist.refl ahead).append (List.sublist_cons_self item behind)
    exact represents.distinct.sublist (fewer.map Prod.snd)
  · have cleared : ((s.setMfc source group none).clearTimer mymrt.checkTimerid).trace = s.trace :=
      clearTimer_trace _ _
    rw [mem_keys_without represents.distinct, represents.live, key, Ne, Prod.mk.injEq]
    simp only [Daemon.observe, Live, cleared]

/-! ## Creation -/

theorem addSgVif_keeps {group : Addr} {incoming i : Vif} {so after : Mrt × Int}
    (run : Runs (addSgVif group incoming so i) s after s') :
    s' = s ∧ after.1.next = so.1.next ∧ keyOf after.1 = keyOf so.1 := by
  rcases runs_ite.mp run with ⟨_, rest⟩ | ⟨_, stop⟩
  · rw [runs_get_bind] at rest
    rcases runs_ite.mp rest with ⟨_, stop⟩ | ⟨_, search⟩
    · obtain ⟨rfl, rfl⟩ := runs_pure.mp stop
      exact ⟨rfl, rfl, rfl⟩
    · obtain ⟨member, _, looked, stop⟩ := runs_bind.mp search
      rw [findGroup, runs_get_bind, runs_liftHeap] at looked
      obtain ⟨_, rfl⟩ := looked
      obtain ⟨rfl, rfl⟩ := runs_pure.mp stop
      refine ⟨rfl, ?_, ?_⟩ <;> unfold addSgMember <;> dsimp only <;> split <;> split <;> rfl
  · obtain ⟨rfl, rfl⟩ := runs_pure.mp stop
    exact ⟨rfl, rfl, rfl⟩

theorem addSgLoop_keeps {group : Addr} {incoming : Vif} {vifs : List Vif} {so after : Mrt × Int}
    (run : Runs (foldProgram (addSgVif group incoming) vifs so) s after s') :
    s' = s ∧ after.1.next = so.1.next ∧ keyOf after.1 = keyOf so.1 := by
  induction vifs generalizing so s with
  | nil =>
      obtain ⟨rfl, rfl⟩ := runs_pure.mp run
      exact ⟨rfl, rfl, rfl⟩
  | cons vif rest ih =>
      obtain ⟨round, _, first, later⟩ := runs_bind.mp run
      obtain ⟨rfl, next, key⟩ := addSgVif_keeps first
      obtain ⟨rfl, next', key'⟩ := ih later
      exact ⟨rfl, next'.trans next, key'.trans key⟩

/-- The state right after `add_sg` has linked its record and noted the call. -/
def linked (s : Daemon) (source group : Addr) (newmrt : Mrt) : Daemon :=
  (s.linkMrt newmrt).observe (.addSg source group)

/-- The timers `add_sg` sets for its record. -/
def timed (s : Daemon) (source group : Addr) : Daemon :=
  (s.setTimer pimSgTimeout (.handleSgTimeout source group)).setTimer pimSgCheck (.checkSg source group)

/-- `add_sg` sets two timers and links one record, with the `next` field of its block and the
second timer in its check slot; then it announces the record and follows the list. -/
theorem runs_addSg {gateway source group : Addr} {incoming : Vif}
    (run : Runs (addSg host gateway source group incoming) s () s') :
    ∃ newmrt, newmrt.next = (host.mallocMrt s.mrts.fresh).next ∧ keyOf newmrt = (source, group) ∧
      newmrt.checkTimerid = s.id + 1 + 1 ∧
      Runs (announceSg host source s.mrts.fresh) (linked (timed s source group) source group newmrt) () s' ∧
      Runs printSg s' () s' := by
  unfold addSg at run
  rw [runs_get_bind] at run
  obtain ⟨built, looped, loop, rest⟩ := runs_bind.mp run
  obtain ⟨rfl, next, key⟩ := addSgLoop_keeps loop
  obtain ⟨timeout, _, setTimeout, afterTimeout⟩ := runs_bind.mp rest
  obtain ⟨rfl, rfl⟩ := runs_timerSetTimer.mp setTimeout
  obtain ⟨check, _, setCheck, afterCheck⟩ := runs_bind.mp afterTimeout
  obtain ⟨rfl, rfl⟩ := runs_timerSetTimer.mp setCheck
  obtain ⟨_, _, link, noteAndAnnounce⟩ := runs_bind.mp afterCheck
  obtain ⟨_, _, note, announcing⟩ := runs_bind.mp noteAndAnnounce
  obtain ⟨_, announced, announce, print⟩ := runs_bind.mp announcing
  obtain rfl := runs_modify.mp link
  obtain rfl := runs_modify.mp note
  obtain rfl := runs_printSg print
  exact ⟨{ built.1 with
    outnumber := built.2
    graftTimerId := 0
    timeoutId := looped.id + 1
    checkTimerid := looped.id + 1 + 1 }, next, key, rfl, announce, print⟩

/-- `add_sg` links one record with the key and the `next` field of its block, and
keeps the keys before and after that. -/
theorem addSg_links {gateway source group : Addr} {incoming : Vif}
    (run : Runs (addSg host gateway source group incoming) s () s') :
    ∃ timed newmrt, SameKeys s timed ∧ newmrt.next = (host.mallocMrt s.mrts.fresh).next ∧
      keyOf newmrt = (source, group) ∧ SameKeys (linked timed source group newmrt) s' := by
  obtain ⟨newmrt, next, key, _, announce, _⟩ := runs_addSg run
  have quiet : Within (Changes .quiet Anything) (announceSg host source s.mrts.fresh) :=
    announceSg_changes (fun _ => trivial) host source _
  exact ⟨timed s source group, newmrt, ⟨rfl, rfl, fun _ _ => Iff.rfl⟩, next, key,
    sameKeys_of_changes (by decide) (quiet _ _ _ announce)⟩

theorem linked_next (s : Daemon) (newmrt : Mrt) :
    (if s.themrt = 0 then newmrt else { newmrt with next := s.themrt }).next =
      if s.themrt = 0 then newmrt.next else s.themrt := by
  split <;> rfl

theorem linked_key (s : Daemon) (newmrt : Mrt) :
    keyOf (if s.themrt = 0 then newmrt else { newmrt with next := s.themrt }) = keyOf newmrt := by
  split <;> rfl

/-- A linked record leaves the table representing what is live exactly when a
first record ends the list and the key is new. -/
theorem linked_represents_iff (represents : Represents s items) {source group : Addr} {newmrt : Mrt}
    (key : keyOf newmrt = (source, group)) :
    (∃ items', Represents (linked s source group newmrt) items') ↔
      (s.themrt = 0 → newmrt.next = 0) ∧ ¬ Live source group s.trace := by
  have absent : ¬ Live source group s.trace ↔ (source, group) ∉ items.map Prod.snd :=
    not_congr (represents.live source group).symm
  rw [absent]
  constructor
  · rintro ⟨items', after⟩
    have nonempty : items' ≠ [] := fun empty => s.mrts.fresh_ne_zero (after.shows.nil_iff.mpr empty)
    obtain ⟨first, rest, rfl⟩ := List.exists_cons_of_ne_nil nonempty
    have head : s.mrts.fresh = first.1 := after.shows.start_eq
    have block : (linked s source group newmrt).mrts.get? first.1 =
        some (if s.themrt = 0 then newmrt else { newmrt with next := s.themrt }) := by
      rw [← head]
      simp [linked, Daemon.observe, Daemon.linkMrt, Heap.get?_alloc]
    have named : first.2 = (source, group) := by
      obtain ⟨content, found, same⟩ := after.shows.found (List.mem_cons_self ..)
      obtain rfl := Option.some.inj (block.symm.trans found)
      rw [← same, linked_key, key]
    have tail := after.shows.tail block
    rw [linked_next] at tail
    obtain ⟨new, _⟩ := List.nodup_cons.mp after.distinct
    rw [named] at new
    by_cases empty : s.themrt = 0
    · rw [if_pos empty] at tail
      have none : items = [] := represents.shows.nil_iff.mp empty
      subst none
      refine ⟨fun _ => tail.nil_iff.mpr ?_, List.not_mem_nil⟩
      -- A second record would be live without being the new one.
      refine List.eq_nil_iff_forall_not_mem.mpr fun other member => ?_
      have inside : other.2 ∈ rest.map Prod.snd := List.mem_map_of_mem member
      rcases (after.live other.2.1 other.2.2).mp (List.mem_cons_of_mem _ inside) with
        ⟨sameSource, sameGroup⟩ | old
      · rw [show other.2 = (source, group) from Prod.ext sameSource sameGroup] at inside
        exact new inside
      · exact List.not_mem_nil ((represents.live _ _).mpr old)
    · rw [if_neg empty] at tail
      have same : rest = items := tail.view_eq.symm.trans (represents.shows.alloc_other _).view_eq
      subst same
      exact ⟨fun zero => absurd zero empty, new⟩
  · rintro ⟨ended, new⟩
    have link : (if s.themrt = 0 then newmrt else { newmrt with next := s.themrt }).next =
        s.themrt := by
      rw [linked_next]
      by_cases empty : s.themrt = 0
      · rw [if_pos empty, ended empty, empty]
      · rw [if_neg empty]
    have pushed := represents.shows.push link
    rw [linked_key, key] at pushed
    refine ⟨_, pushed, List.nodup_cons.mpr ⟨new, represents.distinct⟩, fun otherSource otherGroup => ?_⟩
    rw [List.map_cons, List.mem_cons, Prod.mk.injEq, represents.live]
    exact Iff.rfl

end PimDm.Refinement
