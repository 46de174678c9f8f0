import PimDm.Foundation.ListLoop
import Mathlib.Data.List.Find

/-!
# What a linked list shows

`Shows` states that a pointer starts a null-terminated list and names its blocks
with what an image of their contents shows.  Stores, insertions and removals
become operations on that list of pairs, and a search is a search in it.
-/

namespace PimDm.Foundation

variable {α β : Type}

/-- Change what is shown of one block. -/
def amend (address : Ptr) (function : β → β) (items : List (Ptr × β)) : List (Ptr × β) :=
  items.map fun item => if item.1 = address then (item.1, function item.2) else item

@[simp] theorem amend_keys (address : Ptr) (function : β → β) (items : List (Ptr × β)) :
    (amend address function items).map Prod.fst = items.map Prod.fst := by
  unfold amend
  rw [List.map_map]
  refine List.map_congr_left fun item _ => ?_
  simp only [Function.comp_apply]
  split <;> rfl

theorem mem_amend {address : Ptr} {function : β → β} {items : List (Ptr × β)} {item : Ptr × β} :
    item ∈ amend address function items ↔
      ∃ old ∈ items, item = if old.1 = address then (old.1, function old.2) else old := by
  unfold amend
  rw [List.mem_map]
  constructor
  · rintro ⟨old, member, rfl⟩
    exact ⟨old, member, rfl⟩
  · rintro ⟨old, member, rfl⟩
    exact ⟨old, member, rfl⟩

/-- The first element with a property, found and erased. -/
theorem find?_split {property : α → Bool} {ahead behind : List α} {item : α}
    (before : ∀ other ∈ ahead, property other = false) (here : property item = true) :
    (ahead ++ item :: behind).find? property = some item := by
  have none : ahead.find? property = none :=
    List.find?_eq_none.mpr fun other member => by simp [before other member]
  rw [List.find?_append, none, List.find?_cons_of_pos here]
  rfl

theorem eraseP_split {property : α → Bool} {ahead behind : List α} {item : α}
    (before : ∀ other ∈ ahead, property other = false) (here : property item = true) :
    (ahead ++ item :: behind).eraseP property = ahead ++ behind := by
  rw [List.eraseP_append_right _ fun other member => by simp [before other member],
    List.eraseP_cons_of_pos here]

/-- Among different keys, to find a key is to have it. -/
theorem find?_key_iff {γ : Type} [DecidableEq γ] {key : α → γ} {items : List α} (distinct : (items.map key).Nodup)
    {value : γ} {item : α} :
    items.find? (fun other => decide (key other = value)) = some item ↔ item ∈ items ∧ key item = value := by
  constructor
  · intro found
    have same := List.find?_some (p := fun other => decide (key other = value)) found
    exact ⟨List.mem_of_find?_eq_some found, of_decide_eq_true same⟩
  · rintro ⟨member, rfl⟩
    cases found : items.find? fun other => decide (key other = key item) with
    | none => exact absurd (decide_eq_true rfl) (List.find?_eq_none.mp found item member)
    | some other =>
        have inside := List.mem_of_find?_eq_some found
        have same := List.find?_some (p := fun other => decide (key other = key item)) found
        rw [List.inj_on_of_nodup_map distinct inside member (of_decide_eq_true same)]

/-- The other elements of a list without repetition have other keys. -/
theorem apart_of_nodup {γ : Type} {key : α → γ} {ahead behind : List α} {item : α}
    (distinct : ((ahead ++ item :: behind).map key).Nodup) : ∀ other ∈ ahead ++ behind, key other ≠ key item := by
  intro other member same
  rw [List.map_append, List.map_cons, List.nodup_middle, ← List.map_append] at distinct
  exact (List.nodup_cons.mp distinct).1 (List.mem_map.mpr ⟨other, member, same⟩)

theorem filter_split {γ : Type} [DecidableEq γ] {key : α → γ} {ahead behind : List α} {item : α}
    (distinct : ((ahead ++ item :: behind).map key).Nodup) :
    (ahead ++ item :: behind).filter (fun other => key other ≠ key item) = ahead ++ behind := by
  rw [List.filter_append, List.filter_cons_of_neg (by simp), ← List.filter_append, List.filter_eq_self]
  intro other member
  exact decide_eq_true (apart_of_nodup distinct other member)

namespace Heap

/-- The blocks of a list with what `image` shows of each. -/
def view (next : α → Ptr) (image : α → β) (heap : Heap α) (start : Ptr) : List (Ptr × β) :=
  (heap.list next start).filterMap fun address =>
    (heap.get? address).map fun block => (address, image block)

/-- `start` points to a null-terminated list that shows `items`. -/
structure Shows (next : α → Ptr) (image : α → β) (heap : Heap α) (start : Ptr)
    (items : List (Ptr × β)) : Prop where
  chain : Chain (heap.links next) start (items.map Prod.fst)
  content : ∀ item ∈ items, (heap.get? item.1).map image = some item.2

namespace Shows

variable {next : α → Ptr} {image : α → β} {heap other : Heap α} {start : Ptr}
  {items : List (Ptr × β)}

theorem list_eq (shows : Shows next image heap start items) :
    heap.list next start = items.map Prod.fst :=
  Heap.list_eq shows.chain

theorem view_eq (shows : Shows next image heap start items) :
    heap.view next image start = items := by
  unfold view
  rw [shows.list_eq, List.filterMap_map]
  refine (List.filterMap_congr fun item member => ?_).trans List.filterMap_some
  obtain ⟨block, found, same⟩ := Option.map_eq_some_iff.mp (shows.content item member)
  simp [found, same]

theorem nodup (shows : Shows next image heap start items) : (items.map Prod.fst).Nodup :=
  shows.chain.nodup

theorem found (shows : Shows next image heap start items) {item : Ptr × β} (member : item ∈ items) :
    ∃ block, heap.get? item.1 = some block ∧ image block = item.2 :=
  Option.map_eq_some_iff.mp (shows.content item member)

theorem nonnull (shows : Shows next image heap start items) {item : Ptr × β} (member : item ∈ items) :
    item.1 ≠ 0 := (shows.chain.linked (List.mem_map_of_mem member)).1

theorem empty : Shows next image heap 0 [] := ⟨.nil, fun _ member => nomatch member⟩

theorem nil_iff (shows : Shows next image heap start items) : start = 0 ↔ items = [] := by
  rw [shows.chain.nil_iff, List.map_eq_nil_iff]

/-- A chain of blocks shows some items. -/
theorem of_chain (image : α → β) {blocks : List Ptr} (chain : Chain (heap.links next) start blocks) :
    ∃ items, Shows next image heap start items ∧ items.map Prod.fst = blocks := by
  induction chain with
  | nil => exact ⟨[], empty, rfl⟩
  | @cons start after rest nonnull step tail ih =>
      obtain ⟨items, later, rfl⟩ := ih
      obtain ⟨block, found, _⟩ := Option.map_eq_some_iff.mp step
      refine ⟨(start, image block) :: items, ⟨.cons nonnull step later.chain, ?_⟩, rfl⟩
      intro item member
      rcases List.mem_cons.mp member with rfl | inside
      · rw [found]
        rfl
      · exact later.content item inside

/-- A list that shows more of its blocks shows less of them too. -/
theorem coarser {γ : Type} (shows : Shows next image heap start items) (after : β → γ) :
    Shows next (fun block => after (image block)) heap start (items.map fun item => (item.1, after item.2)) := by
  constructor
  · rw [List.map_map]
    exact shows.chain
  · intro item member
    obtain ⟨old, inside, rfl⟩ := List.mem_map.mp member
    obtain ⟨block, found, same⟩ := shows.found inside
    rw [found, Option.map_some, same]

/-- A list shows the same in any heap that agrees on its blocks. -/
theorem congr (shows : Shows next image heap start items)
    (same : ∀ address ∈ items.map Prod.fst,
      (other.get? address).map (fun block => (next block, image block)) =
        (heap.get? address).map fun block => (next block, image block)) :
    Shows next image other start items := by
  constructor
  · refine shows.chain.congr fun address member => ?_
    have step := congrArg (Option.map Prod.fst) (same address member)
    rw [Option.map_map, Option.map_map] at step
    exact step
  · intro item member
    have step := congrArg (Option.map Prod.snd) (same item.1 (List.mem_map_of_mem member))
    rw [Option.map_map, Option.map_map] at step
    exact step.trans (shows.content item member)

theorem alloc_other (shows : Shows next image heap start items) (block : α) :
    Shows next image (heap.alloc block) start items := by
  refine shows.congr fun address member => ?_
  obtain ⟨item, inside, rfl⟩ := List.mem_map.mp member
  obtain ⟨content, found, _⟩ := shows.found inside
  rw [get?_alloc, if_neg (ne_fresh_of_get? found)]

theorem modify_other (shows : Shows next image heap start items) {address : Ptr}
    (function : α → α) (outside : address ∉ items.map Prod.fst) :
    Shows next image (heap.modify address function) start items := by
  refine shows.congr fun other member => ?_
  rw [get?_modify_other]
  rintro rfl
  exact outside member

/-- A store that neither moves the `next` field nor shows. -/
theorem modify_same (shows : Shows next image heap start items) (address : Ptr) {function : α → α}
    (links : ∀ block, next (function block) = next block)
    (kept : ∀ block, image (function block) = image block) :
    Shows next image (heap.modify address function) start items := by
  refine shows.congr fun other _ => ?_
  rw [get?_modify]
  split
  · rw [Option.map_map]
    congr 1
    funext block
    simp only [Function.comp_apply, links, kept]
  · rfl

/-- A store that does not move the `next` field. -/
theorem modify (shows : Shows next image heap start items) (address : Ptr) {function : α → α}
    {after : β → β} (links : ∀ block, next (function block) = next block)
    (commutes : ∀ block, image (function block) = after (image block)) :
    Shows next image (heap.modify address function) start (amend address after items) := by
  constructor
  · rw [amend_keys, links_modify_same links]
    exact shows.chain
  · intro item member
    obtain ⟨old, inside, rfl⟩ := mem_amend.mp member
    have content := shows.content old inside
    rw [get?_modify]
    by_cases here : old.1 = address
    · rw [if_pos here, if_pos here, Option.map_map]
      obtain ⟨block, found, same⟩ := Option.map_eq_some_iff.mp content
      rw [found, Option.map_some, Function.comp_apply, commutes, same]
    · rw [if_neg here, if_neg here]
      exact content

/-- Put a fresh block in front. -/
theorem push (shows : Shows next image heap start items) {block : α} (link : next block = start) :
    Shows next image (heap.alloc block) heap.fresh ((heap.fresh, image block) :: items) := by
  have rest := shows.alloc_other block
  constructor
  · refine .cons heap.fresh_ne_zero ?_ rest.chain
    simp [links, get?_alloc, link]
  · intro item member
    rcases List.mem_cons.mp member with rfl | later
    · simp [get?_alloc]
    · exact rest.content item later

/-- Drop the head. -/
theorem tail {block : α} {item : Ptr × β} {rest : List (Ptr × β)}
    (shows : Shows next image heap start (item :: rest)) (found : heap.get? item.1 = some block) :
    Shows next image heap (next block) rest := by
  refine ⟨?_, fun other member => shows.content other (List.mem_cons_of_mem _ member)⟩
  cases shows.chain with
  | cons nonnull step tail =>
      simp only [links, found, Option.map_some, Option.some.injEq] at step
      rw [step]
      exact tail

/-- The head is the first of the names. -/
theorem start_eq {item : Ptr × β} {rest : List (Ptr × β)}
    (shows : Shows next image heap start (item :: rest)) : start = item.1 :=
  shows.chain.head_eq

theorem start_eq_iff {ahead behind : List (Ptr × β)} {item : Ptr × β}
    (shows : Shows next image heap start (ahead ++ item :: behind)) :
    start = item.1 ↔ ahead = [] := by
  cases ahead with
  | nil => simpa using shows.start_eq
  | cons first rest =>
      have distinct := shows.nodup
      rw [List.cons_append] at shows
      rw [shows.start_eq]
      simp only [List.cons_append, List.map_cons, List.map_append, List.nodup_cons] at distinct
      refine iff_of_false (fun same => distinct.1 ?_) (by simp)
      rw [same]
      simp

/-- Redirect the `next` field of `before` past `item`. -/
theorem unlink {ahead behind : List (Ptr × β)} {before item : Ptr × β} {block : α}
    (shows : Shows next image heap start (ahead ++ before :: item :: behind))
    (found : heap.get? item.1 = some block) (function : α → α) (links : ∀ other, next (function other) = next block)
    (kept : ∀ other, image (function other) = image other) :
    Shows next image (heap.modify before.1 function) start (ahead ++ before :: behind) := by
  have inside : before ∈ ahead ++ before :: item :: behind := by simp
  constructor
  · have chain := shows.chain
    simp only [List.map_append, List.map_cons] at chain ⊢
    obtain ⟨content, here, _⟩ := shows.found inside
    have skipped : heap.links next item.1 = some (next block) := by simp [Heap.links, found]
    refine chain.unlink skipped ?_ fun other apart => ?_
    · simp [Heap.links, get?_modify, here, links]
    · simp [Heap.links, get?_modify, apart]
  · intro other member
    have old : other ∈ ahead ++ before :: item :: behind := by
      simp only [List.mem_append, List.mem_cons] at member ⊢
      tauto
    have content := shows.content other old
    rw [get?_modify]
    split
    · rw [Option.map_map]
      have same : image ∘ function = image := funext kept
      rw [same]
      exact content
    · exact content

/-! ## Searches -/

theorem holds_eq (shows : Shows next image heap start items) {property : α → Bool}
    {shown : β → Bool} (reads : ∀ block, property block = shown (image block)) {item : Ptr × β}
    (member : item ∈ items) : heap.Holds property item.1 = shown item.2 := by
  obtain ⟨block, found, same⟩ := shows.found member
  simp [Heap.Holds, found, reads, same]

theorem find?_eq (shows : Shows next image heap start items) {property : α → Bool}
    {shown : β → Bool} (reads : ∀ block, property block = shown (image block)) :
    (items.map Prod.fst).find? (heap.Holds property) =
      (items.find? fun item => shown item.2).map Prod.fst := by
  have agree : ∀ item ∈ items, (heap.Holds property ∘ Prod.fst) item = shown item.2 :=
    fun item member => shows.holds_eq reads member
  rw [List.find?_map, List.find?_congr agree]

/-- The search finds the first block that shows the property, or returns `NULL`. -/
theorem find_eq (shows : Shows next image heap start items) (property : α → Bool)
    (shown : β → Bool) (reads : ∀ block, property block = shown (image block)) :
    heap.find next property (heap.size + 1) start =
      .ok (((items.find? fun item => shown item.2).map Prod.fst).getD 0) := by
  rw [Heap.find_eq shows.chain (Nat.lt_succ_of_le shows.chain.length_le), shows.find?_eq reads]

/-- The trailing search finds the first block that shows the property and the
block before it, or returns `NULL`. -/
theorem findTrailing_eq (shows : Shows next image heap start items) (property : α → Bool)
    (shown : β → Bool) (reads : ∀ block, property block = shown (image block)) :
    (∃ last, heap.findTrailing next property (heap.size + 1) none start = .ok (last, 0) ∧
      ∀ item ∈ items, shown item.2 = false) ∨
    ∃ ahead item behind, items = ahead ++ item :: behind ∧
      (∀ other ∈ ahead, shown other.2 = false) ∧ shown item.2 = true ∧
      heap.findTrailing next property (heap.size + 1) none start =
        .ok (ahead.getLast?.map Prod.fst, item.1) := by
  have enough := Nat.lt_succ_of_le shows.chain.length_le
  rcases Heap.findTrailing_eq property shows.chain enough none with
    ⟨last, result, absent⟩ | ⟨ahead, address, behind, split, before, here, result⟩
  · refine Or.inl ⟨last, result, fun item member => ?_⟩
    rw [← shows.holds_eq reads member]
    exact absent item.1 (List.mem_map_of_mem member)
  · obtain ⟨first, rest, rfl, rfl, more⟩ := List.map_eq_append_iff.mp split
    obtain ⟨item, tail, rfl, rfl, rfl⟩ := List.map_eq_cons_iff.mp more
    refine Or.inr ⟨first, item, tail, rfl, fun other member => ?_, ?_, ?_⟩
    · rw [← shows.holds_eq reads (List.mem_append_left _ member)]
      exact before other.1 (List.mem_map_of_mem member)
    · rw [← shows.holds_eq reads (List.mem_append_right _ (List.mem_cons_self ..))]
      exact here
    · rw [result, Option.or_none, List.getLast?_map]

end Shows

end Heap

end PimDm.Foundation
