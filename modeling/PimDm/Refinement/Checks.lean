import PimDm.Refinement.Expiry
import PimDm.Refinement.Stirring

/-!
# The entries that are still to be checked

Every timer of `check_sg` in the queue is in the check slot of an entry of its source
and group.  `delete_sg` clears the slot of the entry it removes, which takes the timer
out of the queue but not out of a batch that is being called.
-/

namespace PimDm.Refinement

open PimDm.Foundation PimDm.Source PimDm.Effect

variable {s s' : Daemon} {host : Host} {source group : Addr} {mymrt : Ptr} {e : Mrt}
  {items : List (Ptr × (Addr × Addr) × Int)}

/-- The source, the group and the check timer of an entry. -/
def checkOf (e : Mrt) : (Addr × Addr) × Int := (keyOf e, e.checkTimerid)

/-- Every check that is still to run has an entry of its source and group, and one that is
still in the queue is in the check slot of such an entry. -/
structure ChecksListed (s : Daemon) (items : List (Ptr × (Addr × Addr) × Int)) : Prop where
  shows : s.mrts.Shows Mrt.next checkOf s.themrt items
  queued : ∀ id source group, (id, .checkSg source group) ∈ s.queue.map alarm →
    ((source, group), id) ∈ items.map Prod.snd
  batch : ∀ ptr ∈ s.expired, ∀ source group, ptr.func = .checkSg source group →
    (source, group) ∈ items.map fun item => item.2.1

/-! ## Updates that set no check -/

/-- The same entries with the same check timers in the same order, and no new check. -/
structure KeepsChecks (s s' : Daemon) : Prop where
  themrt : s'.themrt = s.themrt
  records : s'.mrts.map (fun e => (e.next, checkOf e)) = s.mrts.map fun e => (e.next, checkOf e)
  queued : ∀ id source group, (id, .checkSg source group) ∈ s'.queue.map alarm →
    (id, .checkSg source group) ∈ s.queue.map alarm
  batch : ∀ ptr ∈ s'.expired, ∀ source group, ptr.func = .checkSg source group →
    ptr ∈ s.expired ∨ ∃ id, (id, .checkSg source group) ∈ s.queue.map alarm

theorem steady_keepsChecks : Steady KeepsChecks where
  refl _ := ⟨rfl, rfl, fun _ _ _ member => member, fun _ member _ _ _ => Or.inl member⟩
  trans left right := by
    refine ⟨right.themrt.trans left.themrt, right.records.trans left.records, ?_, ?_⟩
    · intro id source group member
      exact left.queued id source group (right.queued id source group member)
    · intro ptr member source group calls
      rcases right.batch ptr member source group calls with before | ⟨id, queued⟩
      · exact left.batch ptr before source group calls
      · exact Or.inr ⟨id, left.queued id source group queued⟩

/-- What is shown of the table before can be seen after, and the other way round. -/
theorem KeepsChecks.shows_iff (keeps : KeepsChecks s s') :
    s'.mrts.Shows Mrt.next checkOf s'.themrt items ↔ s.mrts.Shows Mrt.next checkOf s.themrt items := by
  rw [keeps.themrt]
  constructor
  · intro shows
    refine shows.congr fun address _ => ?_
    rw [← Heap.get?_map, ← Heap.get?_map, keeps.records]
  · intro shows
    refine shows.congr fun address _ => ?_
    rw [← Heap.get?_map, ← Heap.get?_map, keeps.records]

theorem ChecksListed.keeps (listed : ChecksListed s items) (keeps : KeepsChecks s s') : ChecksListed s' items := by
  refine ⟨keeps.shows_iff.mpr listed.shows, ?_, ?_⟩
  · intro id source group member
    exact listed.queued id source group (keeps.queued id source group member)
  · intro ptr member source group calls
    rcases keeps.batch ptr member source group calls with before | ⟨id, queued⟩
    · exact listed.batch ptr before source group calls
    · have listing := List.mem_map_of_mem (f := Prod.fst) (listed.queued id source group queued)
      rw [List.map_map] at listing
      exact listing

theorem mem_queue_setTimer {delay : Int} {action : Callback} {entry : Int × Callback} :
    entry ∈ (s.setTimer delay action).queue.map alarm ↔ entry = (s.id + 1, action) ∨ entry ∈ s.queue.map alarm := by
  have inserted := (insertTimer_perm ⟨s.id + 1, action, delay⟩ s.queue).mem_iff (a := entry)
  rw [List.mem_cons] at inserted
  exact inserted

theorem mem_queue_of_clearTimer {timer : Int} {entry : Int × Callback}
    (member : entry ∈ (s.clearTimer timer).queue.map alarm) : entry ∈ s.queue.map alarm := by
  unfold Daemon.clearTimer at member
  split at member
  · exact member
  · rw [removeTimer_alarms] at member
    exact List.mem_of_mem_eraseP member

theorem keepsChecks_update {update : Update} (inside : Permits .lists NotCheck update) (s : Daemon) :
    KeepsChecks s (update.apply s) := by
  cases update with
  | setTimer delay action =>
      refine ⟨rfl, rfl, fun id source group member => ?_, fun _ member _ _ _ => Or.inl member⟩
      rcases mem_queue_setTimer.mp member with new | old
      · have same : Callback.checkSg source group = action := congrArg Prod.snd new
        exact absurd same.symm (inside.2 source group)
      · exact old
  | clearTimer timer =>
      refine ⟨clearTimer_themrt s timer, ?_, fun id source group member => ?_, fun ptr member _ _ _ => Or.inl ?_⟩
      · rw [Update.apply, clearTimer_mrts]
      · exact mem_queue_of_clearTimer member
      · rw [Update.apply, clearTimer_expired] at member
        exact member
  | age elapsedTime =>
      have detached := detachExpired_alarms elapsedTime s.queue
      rw [List.map_append] at detached
      refine ⟨rfl, rfl, fun id source group member => ?_, fun ptr member source group calls => Or.inr ⟨ptr.id, ?_⟩⟩
      · rw [← detached]
        exact List.mem_append_right _ member
      · rw [← detached, ← calls]
        exact List.mem_append_left _ (List.mem_map_of_mem (f := alarm) member)
  | popExpired =>
      exact ⟨rfl, rfl, fun _ _ _ member => member, fun _ member _ _ _ => Or.inl (List.mem_of_mem_tail member)⟩
  | field mymrt store =>
      refine ⟨rfl, ?_, fun _ _ _ member => member, fun _ member _ _ _ => Or.inl member⟩
      cases store with
      | checkTimer timer =>
          obtain ⟨source, group, may⟩ := inside.2
          exact absurd rfl (may source group)
      | _ => exact Heap.map_modify_same _ _ fun _ => rfl
  | linkMrt newmrt => exact absurd inside.1 (by simp only [Update.level]; decide)
  | mrtHead mymrt => exact absurd inside.1 (by simp only [Update.level]; decide)
  | mrtNext mymrt next => exact absurd inside.1 (by simp only [Update.level]; decide)
  | _ => exact ⟨rfl, rfl, fun _ _ _ member => member, fun _ member _ _ _ => Or.inl member⟩

theorem keepsChecks_of_changes {level : Level} (below : level ≤ .lists) (changes : Changes level NotCheck s s') :
    KeepsChecks s s' := by
  refine does_relates steady_keepsChecks (fun update state (inside : Permits level NotCheck update) => ?_) changes
  exact keepsChecks_update (permits_mono below (fun _ may => may) update inside) state

/-! ## Searching -/

section Searching

variable {β : Type} {image : Mrt → β} (key : β → Addr × Addr) {shown : List (Ptr × β)}

/-- The entry that `find_sg` finds is the first of its key. -/
theorem finds_of_shows (shows : s.mrts.Shows Mrt.next image s.themrt shown) (reads : ∀ e, key (image e) = keyOf e)
    (source group : Addr) :
    Finds s source group (((shown.find? fun item => decide (key item.2 = (source, group))).map Prod.fst).getD 0) := by
  refine shows.find_eq (Mrt.isFor source group) (fun image => decide (key image = (source, group))) fun e => ?_
  rw [Bool.eq_iff_iff, reads, Mrt.isFor]
  simp [keyOf]

theorem inTable_of_shows (shows : s.mrts.Shows Mrt.next image s.themrt shown) (reads : ∀ e, key (image e) = keyOf e)
    (member : (source, group) ∈ shown.map fun item => key item.2) : InTable s source group := by
  obtain ⟨item, inside, same⟩ := List.mem_map.mp member
  have found := finds_of_shows key shows reads source group
  cases first : shown.find? fun item => decide (key item.2 = (source, group)) with
  | none =>
      have differs := List.find?_eq_none.mp first item inside
      exact absurd (decide_eq_true same) differs
  | some other =>
      rw [first] at found
      obtain ⟨e, here, _⟩ := shows.found (List.mem_of_find?_eq_some first)
      unfold InTable
      rw [slot_found found, Option.map_some, Option.getD_some, here]
      rfl

theorem not_inTable_of_shows (shows : s.mrts.Shows Mrt.next image s.themrt shown)
    (reads : ∀ e, key (image e) = keyOf e) (absent : ∀ item ∈ shown, key item.2 ≠ (source, group)) :
    ¬ InTable s source group := by
  intro inside
  obtain ⟨mymrt, e, found, nonnull, _⟩ := inside.found
  have none : shown.find? (fun item => decide (key item.2 = (source, group))) = none :=
    List.find?_eq_none.mpr fun item member same => absent item member (of_decide_eq_true same)
  have null := finds_of_shows key shows reads source group
  rw [none] at null
  exact nonnull (found.unique null)

/-- What is shown of the entry that is found. -/
theorem shown_of_finds (shows : s.mrts.Shows Mrt.next image s.themrt shown) (reads : ∀ e, key (image e) = keyOf e)
    (found : Finds s source group mymrt) (here : s.mrts.get? mymrt = some e) :
    (mymrt, image e) ∈ shown ∧ keyOf e = (source, group) := by
  have searched := found.unique (finds_of_shows key shows reads source group)
  cases first : shown.find? fun item => decide (key item.2 = (source, group)) with
  | none =>
      rw [first] at searched
      obtain rfl : mymrt = 0 := searched
      cases here
  | some item =>
      rw [first] at searched
      obtain rfl : mymrt = item.1 := searched
      have inside := List.mem_of_find?_eq_some first
      have same : key item.2 = (source, group) := by simpa using List.find?_some first
      obtain ⟨content, present, images⟩ := shows.found inside
      obtain rfl := Option.some.inj (here.symm.trans present)
      rw [← images, reads] at same
      rw [images]
      exact ⟨inside, same⟩

end Searching

/-! ## `check_sg` -/

/-- `check_sg` puts its new timer into the slot of the entry it finds. -/
theorem ChecksListed.recheck (orderly : Orderly s) (listed : ChecksListed s items)
    (found : Finds s source group mymrt) (here : s.mrts.get? mymrt = some e) :
    ChecksListed (recheck s mymrt e.checkTimerid source group)
      (amend mymrt (fun shown => (shown.1, s.id + 1)) items) := by
  obtain ⟨slot, key⟩ := shown_of_finds Prod.fst listed.shows (fun _ => rfl) found here
  have fields : (Refinement.recheck s mymrt e.checkTimerid source group).mrts =
      s.mrts.modify mymrt fun e => { e with checkTimerid := s.id + 1 } := by
    simp [Refinement.recheck, Daemon.setMrt, Daemon.setTimer]
  have head : (Refinement.recheck s mymrt e.checkTimerid source group).themrt = s.themrt :=
    clearTimer_themrt s e.checkTimerid
  constructor
  · rw [fields, head]
    exact listed.shows.modify mymrt (fun _ => rfl) fun _ => rfl
  · intro id first second member
    rw [List.mem_map]
    rcases mem_queue_setTimer.mp member with new | old
    · rw [clearTimer_id, Prod.mk.injEq, Callback.checkSg.injEq] at new
      obtain ⟨rfl, rfl, rfl⟩ := new
      refine ⟨(mymrt, keyOf e, s.id + 1), mem_amend.mpr ⟨(mymrt, checkOf e), slot, ?_⟩, ?_⟩
      · rw [if_pos rfl]
        rfl
      · rw [key]
    · -- The slot that changes held the timer that is cleared.
      obtain ⟨before, other⟩ := (mem_queue_clearTimer orderly e.checkTimerid _).mp old
      obtain ⟨item, inside, shown⟩ := List.mem_map.mp (listed.queued id first second before)
      have apart : item.1 ≠ mymrt := by
        rintro rfl
        obtain ⟨content, present, same⟩ := listed.shows.found inside
        obtain rfl := Option.some.inj (here.symm.trans present)
        rw [shown] at same
        exact other (congrArg Prod.snd same).symm
      exact ⟨item, mem_amend.mpr ⟨item, inside, by rw [if_neg apart]⟩, shown⟩
  · intro ptr member first second calls
    rw [recheck_expired] at member
    obtain ⟨item, inside, shown⟩ := List.mem_map.mp (listed.batch ptr member first second calls)
    refine List.mem_map.mpr ⟨_, mem_amend.mpr ⟨item, inside, rfl⟩, ?_⟩
    split
    · exact shown
    · exact shown

theorem restart_keepsChecks (s : Daemon) (mymrt : Ptr) (old : Int) (source group : Addr) (nowdata : Int) :
    KeepsChecks s (restart s mymrt old source group nowdata) := by
  have quiet : ∀ update : Update, update.level = .quiet → update.Registers NotCheck → ∀ state : Daemon,
      KeepsChecks state (update.apply state) := by
    intro update level registers state
    exact keepsChecks_update ⟨level ▸ Level.quiet_le _, registers⟩ state
  have counted := quiet (.packetNumber nowdata) rfl trivial s
  have cleared := quiet (.clearTimer old) rfl trivial { s with packetNumber := nowdata }
  have set := quiet (.setTimer pimSgTimeout (.handleSgTimeout source group)) rfl (fun _ _ => Callback.noConfusion)
    (({ s with packetNumber := nowdata } : Daemon).clearTimer old)
  have stored := quiet (.field mymrt (.timeout (s.id + 1))) rfl trivial
    ((({ s with packetNumber := nowdata } : Daemon).clearTimer old).setTimer pimSgTimeout
      (.handleSgTimeout source group))
  have steady := steady_keepsChecks
  exact steady.trans (steady.trans counted cleared) (steady.trans set stored)

theorem restart_content (here : s.mrts.get? mymrt = some e) (source group : Addr) (nowdata : Int) :
    (restart s mymrt e.timeoutId source group nowdata).mrts.get? mymrt = some { e with timeoutId := s.id + 1 } := by
  rw [restart_mrts, Heap.get?_modify_same, here, Option.map_some]

theorem ChecksListed.checkSg (orderly : Orderly s) (listed : ChecksListed s items) {nowdata : Int}
    (run : Runs (checkSg source group nowdata) s () s') : ∃ items', ChecksListed s' items' := by
  obtain ⟨mymrt, e, found, here, ⟨_, rfl⟩ | ⟨_, rfl⟩⟩ := runs_checkSg run
  · have start := restart_orderly orderly mymrt e.timeoutId source group nowdata
    have restarted := listed.keeps (restart_keepsChecks s mymrt e.timeoutId source group nowdata)
    have again : Finds (restart s mymrt e.timeoutId source group nowdata) source group mymrt := by
      have kept : Finds (s.setMrt mymrt fun e => { e with timeoutId := s.id + 1 }) source group mymrt :=
        found.setMrt mymrt (fun _ => rfl) fun _ => rfl
      unfold Finds at kept ⊢
      rw [restart_mrts]
      have head : (restart s mymrt e.timeoutId source group nowdata).themrt = s.themrt :=
        clearTimer_themrt _ e.timeoutId
      rw [head]
      exact kept
    have content := restart_content here source group nowdata
    exact ⟨_, restarted.recheck (e := { e with timeoutId := s.id + 1 }) start again content⟩
  · exact ⟨_, listed.recheck orderly found here⟩

theorem restartTimeout_completes (source group : Addr) (here : s.mrts.get? mymrt = some e) (nowdata : Int) :
    Runs (restartTimeout source group mymrt nowdata) s () (restart s mymrt e.timeoutId source group nowdata) := by
  have kept : ((({ s with packetNumber := nowdata } : Daemon).clearTimer e.timeoutId).setTimer pimSgTimeout
      (.handleSgTimeout source group)).mrts.get? mymrt = some e := by
    rw [Daemon.setTimer, clearTimer_mrts]
    exact here
  refine runs_bind.mpr ⟨(), _, runs_modify.mpr rfl, runs_bind.mpr ⟨e, _, runs_loadMrt.mpr ⟨here, rfl⟩, ?_⟩⟩
  refine runs_bind.mpr ⟨(), _, runs_timerClearTimer.mpr rfl, ?_⟩
  refine runs_bind.mpr ⟨_, _, runs_timerSetTimer.mpr ⟨rfl, rfl⟩, runs_storeMrt.mpr ⟨⟨e, kept⟩, ?_⟩⟩
  rw [restart, clearTimer_id]

/-- The end of `check_sg` completes for a record. -/
theorem recheck_completes (source group : Addr) (here : s.mrts.get? mymrt = some e) :
    Runs (do
      let e ← loadMrt mymrt
      timerClearTimer e.checkTimerid
      let timer ← timerSetTimer pimSgCheck (.checkSg source group)
      storeMrt mymrt fun e => { e with checkTimerid := timer }) s () (recheck s mymrt e.checkTimerid source group) := by
  have kept : ((s.clearTimer e.checkTimerid).setTimer pimSgCheck (.checkSg source group)).mrts.get? mymrt =
      some e := by
    rw [Daemon.setTimer, clearTimer_mrts]
    exact here
  refine runs_bind.mpr ⟨e, s, runs_loadMrt.mpr ⟨here, rfl⟩, ?_⟩
  refine runs_bind.mpr ⟨(), _, runs_timerClearTimer.mpr rfl, ?_⟩
  refine runs_bind.mpr ⟨_, _, runs_timerSetTimer.mpr ⟨rfl, rfl⟩, runs_storeMrt.mpr ⟨⟨e, kept⟩, ?_⟩⟩
  rw [recheck, clearTimer_id]

/-- `check_sg` completes for an entry in the table. -/
theorem checkSg_completes (found : Finds s source group mymrt) (here : s.mrts.get? mymrt = some e) (nowdata : Int) :
    ∃ s', Runs (checkSg source group nowdata) s () s' := by
  have search : Runs (findSg source group) s mymrt s := runs_findMrt.mpr ⟨found, rfl⟩
  by_cases fresh : nowdata > s.packetNumber
  · have restarts := restartTimeout_completes source group here nowdata
    have again := recheck_completes source group (restart_content here source group nowdata)
    refine ⟨recheck (restart s mymrt e.timeoutId source group nowdata) mymrt e.checkTimerid source group, ?_⟩
    refine runs_bind.mpr ⟨mymrt, s, search, ?_⟩
    rw [runs_get_bind]
    exact runs_bind.mpr ⟨(), _, runs_onlyIf.mpr (Or.inl ⟨fresh, restarts⟩), again⟩
  · refine ⟨recheck s mymrt e.checkTimerid source group, runs_bind.mpr ⟨mymrt, s, search, ?_⟩⟩
    rw [runs_get_bind]
    exact runs_bind.mpr ⟨(), _, runs_onlyIf.mpr (Or.inr ⟨fresh, rfl⟩), recheck_completes source group here⟩

/-! ## `delete_sg` -/

/-- The records of a source and group in the table. -/
def entriesOf (s : Daemon) (source group : Addr) : List Ptr :=
  (s.mrts.list Mrt.next s.themrt).filter (s.mrts.Holds (Mrt.isFor source group))

theorem entriesOf_eq (shows : s.mrts.Shows Mrt.next checkOf s.themrt items) (source group : Addr) :
    entriesOf s source group = (items.filter fun item => item.2.1 == (source, group)).map Prod.fst := by
  rw [entriesOf, shows.list_eq, List.filter_map]
  congr 1
  refine List.filter_congr fun item member => ?_
  exact @Heap.Shows.holds_eq _ _ _ _ _ _ _ shows (Mrt.isFor source group) (fun shown => shown.1 == (source, group))
    (fun _ => rfl) item member

/-- What `delete_sg` leaves of the checks: the entry it removes is the first of its key. -/
theorem ChecksListed.deleteSg (orderly : Orderly s) (listed : ChecksListed s items) {result : Int}
    (run : Runs (deleteSg source group) s result s') :
    (s' = s ∧ ∀ item ∈ items, item.2.1 ≠ (source, group)) ∨
      ∃ ahead item behind, items = ahead ++ item :: behind ∧ (∀ other ∈ ahead, other.2.1 ≠ (source, group)) ∧
        item.2.1 = (source, group) ∧ s'.expired = s.expired ∧
        s'.mrts.Shows Mrt.next checkOf s'.themrt (ahead ++ behind) ∧
        ∀ id first second, (id, .checkSg first second) ∈ s'.queue.map alarm →
          ((first, second), id) ∈ (ahead ++ behind).map Prod.snd := by
  have different : ∀ shown : (Addr × Addr) × Int, (shown.1 == (source, group)) = false → shown.1 ≠ (source, group) :=
    fun shown apart same => by simp [same] at apart
  rcases deleteSg_unlinks (fun shown => shown.1 == (source, group)) listed.shows (fun _ => rfl) (fun _ _ => rfl) run
    with ⟨rfl, absent⟩ | ⟨mymrt, themrt, mrts, ahead, item, behind, here, rfl, rfl, before, key, shorter⟩
  · exact Or.inl ⟨rfl, fun item member => different item.2 (absent item member)⟩
  refine Or.inr ⟨ahead, item, behind, rfl, fun other member => different other.2 (before other member),
    eq_of_beq key, clearTimer_expired _ _, shorter, ?_⟩
  intro id first second member
  have start : Orderly (s.setMfc source group none) := orderly_update (.mfc source group none) orderly
  obtain ⟨queued, other⟩ := (mem_queue_clearTimer start mymrt.checkTimerid (id, .checkSg first second)).mp member
  have slot := listed.shows.content item (by simp)
  rw [here, Option.map_some, Option.some.injEq] at slot
  obtain ⟨kept, inside, shown⟩ := List.mem_map.mp (listed.queued id first second queued)
  have apart : kept ≠ item := by
    rintro rfl
    rw [shown] at slot
    exact other (congrArg Prod.snd slot).symm
  refine List.mem_map.mpr ⟨kept, ?_, shown⟩
  rcases List.mem_append.mp inside with left | right
  · exact List.mem_append_left _ left
  · exact List.mem_append_right _ ((List.mem_cons.mp right).resolve_left apart)

/-! ## `add_sg` -/

theorem linked_check (s : Daemon) (newmrt : Mrt) :
    checkOf (if s.themrt = 0 then newmrt else { newmrt with next := s.themrt }) = checkOf newmrt := by
  split <;> rfl

/-- A record linked in front of the table is shown in front, and what was shown stays behind
it, if the list ends at all. -/
theorem linked_shows (shows : s.mrts.Shows Mrt.next checkOf s.themrt items) {newmrt : Mrt}
    (ends : ∃ blocks, Chain ((linked s source group newmrt).mrts.links Mrt.next) s.mrts.fresh blocks) :
    ∃ items', (linked s source group newmrt).mrts.Shows Mrt.next checkOf s.mrts.fresh items' ∧
      (checkOf newmrt) ∈ items'.map Prod.snd ∧ ∀ item ∈ items, item ∈ items' := by
  by_cases empty : s.themrt = 0
  · -- There is no older list; the new block may link to anything.
    obtain ⟨blocks, chain⟩ := ends
    obtain ⟨items', after, _⟩ := Heap.Shows.of_chain checkOf chain
    have none : items = [] := shows.nil_iff.mp empty
    refine ⟨items', after, ?_, fun item member => ?_⟩
    · have nonempty : items' ≠ [] := fun nil => s.mrts.fresh_ne_zero (after.nil_iff.mpr nil)
      obtain ⟨first, rest, rfl⟩ := List.exists_cons_of_ne_nil nonempty
      have head : s.mrts.fresh = first.1 := after.start_eq
      obtain ⟨content, found, shown⟩ := after.found (List.mem_cons_self ..)
      rw [← head, linked, Daemon.observe, Daemon.linkMrt, Heap.get?_alloc, if_pos rfl, Option.some.injEq] at found
      rw [← found, linked_check] at shown
      rw [shown, List.map_cons]
      exact List.mem_cons_self ..
    · rw [none] at member
      exact absurd member List.not_mem_nil
  · have link : (if s.themrt = 0 then newmrt else { newmrt with next := s.themrt }).next = s.themrt := by
      rw [linked_next, if_neg empty]
    have pushed := shows.push link
    rw [linked_check] at pushed
    refine ⟨_, pushed, ?_, fun item member => List.mem_cons_of_mem _ member⟩
    rw [List.map_cons]
    exact List.mem_cons_self ..

/-- The end of `add_sg` follows the whole list, so whatever the new block contains, the
list ends. -/
theorem ChecksListed.addSg (listed : ChecksListed s items) {gateway : Addr} {incoming : Vif}
    (run : Runs (addSg host gateway source group incoming) s () s') : ∃ items', ChecksListed s' items' := by
  obtain ⟨newmrt, _, key, slot, announce, print⟩ := runs_addSg run
  have told : Within (Changes .quiet NotCheck) (announceSg host source s.mrts.fresh) :=
    announceSg_changes (fun _ _ _ => Callback.noConfusion) host source _
  have keeps := keepsChecks_of_changes (Level.quiet_le _) (told _ _ _ announce)
  have ended : ∃ blocks, Chain ((linked (timed s source group) source group newmrt).mrts.links Mrt.next)
      s.mrts.fresh blocks := by
    obtain ⟨items', shows, _⟩ := Heap.Shows.of_chain checkOf (runs_printSg_iff.mp print)
    exact ⟨_, (keeps.shows_iff.mp shows).chain⟩
  have before : (timed s source group).mrts.Shows Mrt.next checkOf (timed s source group).themrt items := listed.shows
  obtain ⟨items', shows, new, old⟩ := linked_shows before ended
  refine ⟨items', ChecksListed.keeps ⟨shows, fun id first second member => ?_, fun ptr member first second calls => ?_⟩
    keeps⟩
  · rcases mem_queue_setTimer.mp member with check | earlier
    · cases check
      rw [checkOf, key, slot] at new
      exact new
    · rcases mem_queue_setTimer.mp earlier with timeout | queued
      · cases timeout
      · obtain ⟨item, inside, shown⟩ := List.mem_map.mp (listed.queued id first second queued)
        exact List.mem_map.mpr ⟨item, old item inside, shown⟩
  · obtain ⟨item, inside, shown⟩ := List.mem_map.mp (listed.batch ptr member first second calls)
    exact List.mem_map.mpr ⟨item, old item inside, shown⟩

end PimDm.Refinement
