import Mathlib.Data.List.Perm.Subperm
import Mathlib.Data.List.Nodup
import Mathlib.Data.List.Range

/-!
# Blocks of memory and the linked lists in them

A heap holds blocks at the addresses `1, 2, …`; the address `0` is the null
pointer.  A link map says where the `next` field of a block points.  `Chain`
states that a pointer starts a null-terminated list and names its blocks.
-/

namespace PimDm.Foundation

/-- Addresses of blocks; `0` is the null pointer. -/
abbrev Ptr := Nat

/-- The allocated blocks, the block at address `k + 1` in position `k`. -/
structure Heap (α : Type) where
  cells : List α
  deriving Repr, DecidableEq

/-- What goes wrong when a list is followed through memory. -/
inductive HeapFault where
  | null
  | wild
  | endless
  deriving DecidableEq, Repr

variable {α β : Type}

namespace Heap

def empty : Heap α := ⟨[]⟩

def size (heap : Heap α) : Nat := heap.cells.length

def get? (heap : Heap α) : Ptr → Option α
  | 0 => none
  | place + 1 => heap.cells[place]?

def modify (heap : Heap α) (address : Ptr) (function : α → α) : Heap α :=
  match address with
  | 0 => heap
  | place + 1 => ⟨heap.cells.modify place function⟩

/-- The address the next allocated block gets. -/
def fresh (heap : Heap α) : Ptr := heap.size + 1

def alloc (heap : Heap α) (block : α) : Heap α := ⟨heap.cells ++ [block]⟩

def map (function : α → β) (heap : Heap α) : Heap β := ⟨heap.cells.map function⟩

/-- Read a block; the null pointer and an address without a block fault. -/
def load (heap : Heap α) (address : Ptr) : Except HeapFault α :=
  match heap.get? address with
  | some block => .ok block
  | none => .error (if address = 0 then .null else .wild)

@[simp] theorem get?_zero (heap : Heap α) : heap.get? 0 = none := rfl

@[simp] theorem size_modify (heap : Heap α) (address : Ptr) (function : α → α) :
    (heap.modify address function).size = heap.size := by
  cases address with
  | zero => rfl
  | succ place => simp [modify, size]

@[simp] theorem size_alloc (heap : Heap α) (block : α) : (heap.alloc block).size = heap.size + 1 := by
  simp [alloc, size]

@[simp] theorem size_map (function : α → β) (heap : Heap α) : (heap.map function).size = heap.size := by
  simp [map, size]

theorem get?_modify (heap : Heap α) (address other : Ptr) (function : α → α) :
    (heap.modify address function).get? other =
      if other = address then (heap.get? other).map function else heap.get? other := by
  cases address with
  | zero =>
      cases other with
      | zero => rfl
      | succ place => simp [modify]
  | succ place =>
      cases other with
      | zero => simp
      | succ index =>
          simp only [modify, get?, List.getElem?_modify]
          by_cases same : place = index
          · simp [same]
          · simp [same, Ne.symm same]

theorem get?_modify_same (heap : Heap α) (address : Ptr) (function : α → α) :
    (heap.modify address function).get? address = (heap.get? address).map function := by
  rw [get?_modify, if_pos rfl]

theorem get?_modify_other (heap : Heap α) {address other : Ptr} (function : α → α)
    (different : other ≠ address) :
    (heap.modify address function).get? other = heap.get? other := by
  rw [get?_modify, if_neg different]

@[simp] theorem get?_map (function : α → β) (heap : Heap α) (address : Ptr) :
    (heap.map function).get? address = (heap.get? address).map function := by
  cases address with
  | zero => rfl
  | succ place => simp [map, get?]

theorem le_size_of_get? {heap : Heap α} {address : Ptr} {block : α}
    (found : heap.get? address = some block) : address ≤ heap.size := by
  cases address with
  | zero => exact Nat.zero_le _
  | succ place =>
      have bound := (List.getElem?_eq_some_iff.mp found).1
      exact bound

theorem get?_fresh (heap : Heap α) : heap.get? heap.fresh = none := by
  simp [fresh, get?, size]

theorem fresh_ne_zero (heap : Heap α) : heap.fresh ≠ 0 := Nat.succ_ne_zero _

theorem ne_fresh_of_get? {heap : Heap α} {address : Ptr} {block : α}
    (found : heap.get? address = some block) : address ≠ heap.fresh := by
  rintro rfl
  rw [get?_fresh] at found
  cases found

theorem get?_alloc (heap : Heap α) (block : α) (address : Ptr) :
    (heap.alloc block).get? address =
      if address = heap.fresh then some block else heap.get? address := by
  by_cases last : address = heap.fresh
  · subst last
    simp [alloc, get?, fresh, size]
  · rw [if_neg last]
    cases address with
    | zero => rfl
    | succ place =>
        have apart : place ≠ heap.cells.length := fun same => last (congrArg Nat.succ same)
        rcases Nat.lt_or_gt_of_ne apart with before | after
        · exact List.getElem?_append_left before
        · have outside : (heap.cells ++ [block]).length ≤ place := by
            rw [List.length_append]
            exact after
          exact (List.getElem?_eq_none outside).trans
            (List.getElem?_eq_none (Nat.le_of_lt after)).symm

/-- An update the image of a block does not show leaves the image of the heap. -/
theorem map_modify_same (heap : Heap α) (address : Ptr) {function : α → α} {image : α → β}
    (kept : ∀ block, image (function block) = image block) :
    (heap.modify address function).map image = heap.map image := by
  cases address with
  | zero => rfl
  | succ place =>
      simp only [modify, map, Heap.mk.injEq]
      apply List.ext_getElem?
      intro index
      simp only [List.getElem?_map, List.getElem?_modify]
      cases heap.cells[index]? with
      | none => simp
      | some block => by_cases same : place = index <;> simp [same, kept]

theorem load_eq_ok {heap : Heap α} {address : Ptr} {block : α} :
    heap.load address = .ok block ↔ heap.get? address = some block := by
  unfold load
  cases heap.get? address <;> simp

/-- Where the `next` field of each block points. -/
def links (next : α → Ptr) (heap : Heap α) (address : Ptr) : Option Ptr :=
  (heap.get? address).map next

theorem links_modify_same {next : α → Ptr} {function : α → α}
    (kept : ∀ block, next (function block) = next block) (heap : Heap α) (address : Ptr) :
    (heap.modify address function).links next = heap.links next := by
  funext other
  simp only [links, get?_modify]
  split
  · simp [Function.comp_def, kept]
  · rfl

end Heap

/-! ## Null-terminated lists -/

/-- `start` points to a null-terminated list of exactly the blocks `blocks`. -/
inductive Chain (link : Ptr → Option Ptr) : Ptr → List Ptr → Prop where
  | nil : Chain link 0 []
  | cons {start after : Ptr} {rest : List Ptr} (nonnull : start ≠ 0)
      (next : link start = some after) (tail : Chain link after rest) :
      Chain link start (start :: rest)

namespace Chain

variable {link other : Ptr → Option Ptr} {start : Ptr} {blocks : List Ptr}

theorem unique {first second : List Ptr} (left : Chain link start first)
    (right : Chain link start second) : first = second := by
  induction left generalizing second with
  | nil =>
      cases right with
      | nil => rfl
      | cons nonnull _ _ => exact (nonnull rfl).elim
  | cons nonnull next tail ih =>
      cases right with
      | nil => exact (nonnull rfl).elim
      | cons _ next' tail' =>
          cases Option.some.inj (next.symm.trans next')
          rw [ih tail']

theorem congr (chain : Chain link start blocks)
    (same : ∀ block ∈ blocks, other block = link block) : Chain other start blocks := by
  induction chain with
  | nil => exact .nil
  | cons nonnull next tail ih =>
      refine .cons nonnull ?_ (ih fun block member => same block (List.mem_cons_of_mem _ member))
      rw [same _ (List.mem_cons_self ..), next]

theorem linked (chain : Chain link start blocks) {block : Ptr} (member : block ∈ blocks) :
    block ≠ 0 ∧ ∃ after, link block = some after := by
  induction chain with
  | nil => cases member
  | cons nonnull next tail ih =>
      rcases List.mem_cons.mp member with rfl | later
      · exact ⟨nonnull, _, next⟩
      · exact ih later

theorem suffix {before after : List Ptr} {block : Ptr}
    (chain : Chain link start (before ++ block :: after)) : Chain link block (block :: after) := by
  induction before generalizing start with
  | nil =>
      cases chain with
      | cons nonnull next tail => exact .cons nonnull next tail
  | cons head before ih =>
      cases chain with
      | cons _ _ tail => exact ih tail

theorem head_eq {block : Ptr} {rest : List Ptr} (chain : Chain link start (block :: rest)) :
    start = block := by
  cases chain
  rfl

theorem nil_iff (chain : Chain link start blocks) : start = 0 ↔ blocks = [] := by
  cases chain with
  | nil => simp
  | cons nonnull _ _ => simp [nonnull]

/-- The only block of a list ends it. -/
theorem single {block : Ptr} (chain : Chain link start [block]) : link block = some 0 := by
  cases chain with
  | cons _ next tail => rw [next, tail.nil_iff.mpr rfl]

/-- A null-terminated list visits no block twice. -/
theorem nodup (chain : Chain link start blocks) : blocks.Nodup := by
  induction chain with
  | nil => exact List.nodup_nil
  | @cons start after rest nonnull next tail ih =>
      refine List.nodup_cons.mpr ⟨?_, ih⟩
      intro again
      obtain ⟨before, behind, split⟩ := List.append_of_mem again
      rw [split] at tail
      have whole : Chain link start (start :: (before ++ start :: behind)) := .cons nonnull next tail
      have shorter := unique whole tail.suffix
      have lengths := congrArg List.length shorter
      simp only [List.length_cons, List.length_append] at lengths
      omega

/-- Redirect the `next` field of `before` past `block`. -/
theorem unlink {ahead behind : List Ptr} {before block after : Ptr}
    (chain : Chain link start (ahead ++ before :: block :: behind))
    (next : link block = some after) (redirected : other before = some after)
    (same : ∀ item, item ≠ before → other item = link item) :
    Chain other start (ahead ++ before :: behind) := by
  have distinct := chain.nodup
  induction ahead generalizing start with
  | nil =>
      cases chain with
      | cons nonnull _ tail =>
          cases tail with
          | cons _ next' rest =>
              cases Option.some.inj (next.symm.trans next')
              refine .cons nonnull redirected (rest.congr fun item member => same item ?_)
              rintro rfl
              simp [member] at distinct
  | cons head ahead ih =>
      cases chain with
      | cons nonnull step tail =>
          have apart : head ≠ before := by
            rintro rfl
            simp at distinct
          refine .cons nonnull ?_ (ih tail (List.nodup_cons.mp distinct).2)
          rw [same _ apart, step]

theorem length_le {next : α → Ptr} {heap : Heap α}
    (chain : Chain (heap.links next) start blocks) : blocks.length ≤ heap.size := by
  have inside : blocks ⊆ List.range' 1 heap.size := by
    intro block member
    obtain ⟨nonnull, after, step⟩ := chain.linked member
    obtain ⟨content, found, _⟩ := Option.map_eq_some_iff.mp step
    have bound := Heap.le_size_of_get? found
    rw [List.mem_range'_1, Nat.add_comm]
    exact ⟨Nat.pos_of_ne_zero nonnull, Nat.lt_succ_of_le bound⟩
  have shorter := (chain.nodup.subperm inside).length_le
  simpa using shorter

end Chain

/-- The blocks met when following the links from `start`, at most `count`. -/
def walk (link : Ptr → Option Ptr) : Nat → Ptr → List Ptr
  | 0, _ => []
  | count + 1, start =>
      match link start with
      | none => []
      | some after => start :: walk link count after

theorem Chain.walk_eq {link : Ptr → Option Ptr} {start : Ptr} {blocks : List Ptr}
    (null : link 0 = none) (chain : Chain link start blocks) {count : Nat}
    (enough : blocks.length ≤ count) : walk link count start = blocks := by
  induction chain generalizing count with
  | nil =>
      cases count with
      | zero => rfl
      | succ count => rw [walk, null]
  | cons _ next _ ih =>
      cases count with
      | zero => cases enough
      | succ count =>
          simp only [walk, next, ih (Nat.le_of_succ_le_succ enough)]

namespace Heap

/-- The blocks of the list that starts at `start`. -/
def list (next : α → Ptr) (heap : Heap α) (start : Ptr) : List Ptr :=
  walk (heap.links next) heap.size start

/-- `start` points to a null-terminated list. -/
def Linked (next : α → Ptr) (heap : Heap α) (start : Ptr) : Prop :=
  Chain (heap.links next) start (heap.list next start)

theorem list_eq {next : α → Ptr} {heap : Heap α} {start : Ptr} {blocks : List Ptr}
    (chain : Chain (heap.links next) start blocks) : heap.list next start = blocks :=
  chain.walk_eq rfl chain.length_le

theorem linked_of_chain {next : α → Ptr} {heap : Heap α} {start : Ptr} {blocks : List Ptr}
    (chain : Chain (heap.links next) start blocks) : heap.Linked next start := by
  unfold Linked
  rw [list_eq chain]
  exact chain

/-- Whether a list ends is known from the links. -/
theorem linked_congr {next : α → Ptr} {heap other : Heap α} (same : other.links next = heap.links next)
    (start : Ptr) : other.Linked next start ↔ heap.Linked next start := by
  constructor
  · intro chain
    unfold Linked at chain
    rw [same] at chain
    exact linked_of_chain chain
  · intro chain
    unfold Linked at chain
    rw [← same] at chain
    exact linked_of_chain chain

/-- A new block does not change where the links of older blocks lead. -/
theorem links_alloc_other (next : α → Ptr) (heap : Heap α) (block : α) {address : Ptr}
    (old : address ≠ heap.fresh) : (heap.alloc block).links next address = heap.links next address := by
  rw [links, get?_alloc, if_neg old, links]

/-- A list that starts with a new block ends if the list behind it does. -/
theorem linked_alloc_iff (next : α → Ptr) (heap : Heap α) (block : α) :
    (heap.alloc block).Linked next heap.fresh ↔ heap.Linked next (next block) := by
  have first : (heap.alloc block).links next heap.fresh = some (next block) := by
    rw [links, get?_alloc, if_pos rfl, Option.map_some]
  constructor
  · intro chain
    unfold Linked at chain
    generalize (heap.alloc block).list next heap.fresh = blocks at chain
    cases chain with
    | @cons _ after rest nonnull step tail =>
        obtain rfl := Option.some.inj (first.symm.trans step)
        have apart := (List.nodup_cons.mp (Chain.cons nonnull first tail).nodup).1
        refine linked_of_chain (tail.congr fun other member => ?_)
        exact (links_alloc_other next heap block fun same => apart (same ▸ member)).symm
  · intro chain
    refine linked_of_chain (.cons heap.fresh_ne_zero first (chain.congr fun other member => ?_))
    obtain ⟨_, _, step⟩ := chain.linked member
    obtain ⟨content, found, _⟩ := Option.map_eq_some_iff.mp step
    exact links_alloc_other next heap block (ne_fresh_of_get? found)

end Heap

end PimDm.Foundation
