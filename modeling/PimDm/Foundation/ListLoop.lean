import PimDm.Foundation.Heap
import PimDm.Foundation.Program

/-!
# Loops over a linked list

The three shapes of a loop over a list in memory: search for the first block
with a property, the same search with a pointer trailing one block behind, and
a loop whose body may change the state.  Each takes fuel and faults with
`endless` when it runs out; on a null-terminated list one more than the number
of allocated blocks is enough, and the loop is the one over the list of blocks.
-/

namespace PimDm.Foundation

variable {α σ ε : Type}

namespace Heap

/-- The block at this address exists and has the property. -/
def Holds (heap : Heap α) (property : α → Bool) (address : Ptr) : Bool :=
  (heap.get? address).any property

/-- `while (p != NULL) { if (property(p)) return p; p = p->next; } return NULL;` -/
def find (next : α → Ptr) (property : α → Bool) (heap : Heap α) : Nat → Ptr → Except HeapFault Ptr
  | 0, _ => .error .endless
  | fuel + 1, start =>
      if start = 0 then .ok 0
      else
        match heap.get? start with
        | none => .error .wild
        | some block => if property block then .ok start else find next property heap fuel (next block)

/-- The search with a trailing pointer, unset until the first block is passed. -/
def findTrailing (next : α → Ptr) (property : α → Bool) (heap : Heap α) :
    Nat → Option Ptr → Ptr → Except HeapFault (Option Ptr × Ptr)
  | 0, _, _ => .error .endless
  | fuel + 1, trailing, start =>
      if start = 0 then .ok (trailing, 0)
      else
        match heap.get? start with
        | none => .error .wild
        | some block =>
            if property block then .ok (trailing, start)
            else findTrailing next property heap fuel (some start) (next block)

theorem find_eq {next : α → Ptr} {property : α → Bool} {heap : Heap α} {start : Ptr}
    {blocks : List Ptr} (chain : Chain (heap.links next) start blocks) {fuel : Nat}
    (enough : blocks.length < fuel) :
    heap.find next property fuel start = .ok ((blocks.find? (heap.Holds property)).getD 0) := by
  induction chain generalizing fuel with
  | nil =>
      cases fuel with
      | zero => cases enough
      | succ fuel => rfl
  | @cons start after rest nonnull step tail ih =>
      cases fuel with
      | zero => cases enough
      | succ fuel =>
          obtain ⟨block, found, rfl⟩ := Option.map_eq_some_iff.mp step
          have more := ih (Nat.lt_of_succ_lt_succ enough)
          cases holds : property block with
          | true => simp [find, nonnull, found, holds, Holds]
          | false => simp [find, nonnull, found, holds, Holds, more]

/-- A store that keeps the links and the property keeps what a search finds. -/
theorem find_modify_same {next : α → Ptr} {property : α → Bool} {function : α → α}
    (links : ∀ block, next (function block) = next block)
    (kept : ∀ block, property (function block) = property block) (heap : Heap α) (address : Ptr)
    (fuel : Nat) (start : Ptr) :
    (heap.modify address function).find next property fuel start =
      heap.find next property fuel start := by
  induction fuel generalizing start with
  | zero => rfl
  | succ fuel ih =>
      unfold find
      rw [get?_modify]
      cases content : heap.get? start with
      | none => simp
      | some block => by_cases here : start = address <;> simp [here, links, kept, ih]

/-- A search sees of a block only its link and the property. -/
theorem find_map {β : Type} {next : α → Ptr} {property : α → Bool} {image : α → β} {after : β → Ptr}
    {holds : β → Bool} (links : ∀ block, after (image block) = next block)
    (reads : ∀ block, holds (image block) = property block) (heap : Heap α) (fuel : Nat) (start : Ptr) :
    (heap.map image).find after holds fuel start = heap.find next property fuel start := by
  induction fuel generalizing start with
  | zero => rfl
  | succ fuel ih =>
      unfold find
      rw [get?_map]
      cases heap.get? start with
      | none => rfl
      | some block => simp only [Option.map_some, links, reads, ih]

/-- Whatever the links, a block that is found has the property. -/
theorem find_holds {next : α → Ptr} {property : α → Bool} {heap : Heap α} {fuel : Nat}
    {start address : Ptr} (found : heap.find next property fuel start = .ok address)
    (nonnull : address ≠ 0) : ∃ block, heap.get? address = some block ∧ property block = true := by
  induction fuel generalizing start with
  | zero => cases found
  | succ fuel ih =>
      unfold find at found
      split at found
      · exact absurd (Except.ok.inj found).symm nonnull
      · cases content : heap.get? start with
        | none => simp [content] at found
        | some block =>
            simp only [content] at found
            split at found
            · rename_i holds
              obtain rfl := Except.ok.inj found
              exact ⟨block, content, holds⟩
            · exact ih found

/-- A trailing search on a null-terminated list finds the first block with the
property and the block before it, or reaches the end. -/
theorem findTrailing_eq {next : α → Ptr} (property : α → Bool) {heap : Heap α} {start : Ptr}
    {blocks : List Ptr} (chain : Chain (heap.links next) start blocks) {fuel : Nat}
    (enough : blocks.length < fuel) (trailing : Option Ptr) :
    (∃ last, heap.findTrailing next property fuel trailing start = .ok (last, 0) ∧
      ∀ block ∈ blocks, heap.Holds property block = false) ∨
    ∃ ahead block behind, blocks = ahead ++ block :: behind ∧
      (∀ other ∈ ahead, heap.Holds property other = false) ∧
      heap.Holds property block = true ∧
      heap.findTrailing next property fuel trailing start =
        .ok (ahead.getLast?.or trailing, block) := by
  induction chain generalizing fuel trailing with
  | nil =>
      cases fuel with
      | zero => cases enough
      | succ fuel => exact Or.inl ⟨trailing, rfl, fun _ member => nomatch member⟩
  | @cons start after rest nonnull step tail ih =>
      cases fuel with
      | zero => cases enough
      | succ fuel =>
          obtain ⟨block, found, rfl⟩ := Option.map_eq_some_iff.mp step
          cases holds : property block with
          | true =>
              refine Or.inr ⟨[], start, rest, rfl, fun _ member => (nomatch member), ?_, ?_⟩
              · simp [Holds, found, holds]
              · simp [findTrailing, nonnull, found, holds]
          | false =>
              have fails : heap.Holds property start = false := by simp [Holds, found, holds]
              have unfolded : heap.findTrailing next property (fuel + 1) trailing start =
                  heap.findTrailing next property fuel (some start) (next block) := by
                simp [findTrailing, nonnull, found, holds]
              rw [unfolded]
              rcases ih (Nat.lt_of_succ_lt_succ enough) (some start) with
                ⟨last, result, none⟩ | ⟨ahead, target, behind, split, before, here, result⟩
              · exact Or.inl ⟨last, result, by simpa [fails] using none⟩
              · refine Or.inr ⟨start :: ahead, target, behind, by rw [split]; rfl, ?_, here, ?_⟩
                · simpa [fails] using before
                · rw [result]
                  cases ahead <;> simp [List.getLast?_cons]

/-- The search with a trailing pointer finds what the plain search finds. -/
theorem find_of_findTrailing {next : α → Ptr} {property : α → Bool} {heap : Heap α} {fuel : Nat}
    {trailing last : Option Ptr} {start address : Ptr}
    (found : heap.findTrailing next property fuel trailing start = .ok (last, address)) :
    heap.find next property fuel start = .ok address := by
  induction fuel generalizing trailing start with
  | zero => cases found
  | succ fuel ih =>
      unfold findTrailing at found
      unfold find
      by_cases null : start = 0
      · rw [if_pos null] at found ⊢
        rw [(Prod.mk.inj (Except.ok.inj found)).2]
      · rw [if_neg null] at found ⊢
        cases content : heap.get? start with
        | none => simp [content] at found
        | some block =>
            simp only [content] at found ⊢
            by_cases here : property block = true
            · rw [if_pos here] at found ⊢
              rw [(Prod.mk.inj (Except.ok.inj found)).2]
            · rw [if_neg here] at found ⊢
              exact ih found

end Heap

/-! ## Loops with a body -/

/-- `for (p = start; p != NULL; p = p->next) body(p);` with `next` read after the body. -/
def forEach (heap : σ → Heap α) (next : α → Ptr) (raise : HeapFault → ε)
    (body : Ptr → Program σ ε Unit) : Nat → Ptr → Program σ ε Unit
  | 0, _ => throw (raise .endless)
  | fuel + 1, start =>
      if start = 0 then pure ()
      else do
        body start
        let state ← get
        match (heap state).get? start with
        | none => throw (raise .wild)
        | some block => forEach heap next raise body fuel (next block)

variable {heap : σ → Heap α} {next : α → Ptr} {raise : HeapFault → ε}
  {body : Ptr → Program σ ε Unit}

theorem within_forEach {R : σ → σ → Prop} (steady : Steady R)
    (inside : ∀ address, Within R (body address)) (fuel : Nat) (start : Ptr) :
    Within R (forEach heap next raise body fuel start) := by
  induction fuel generalizing start with
  | zero => exact within_throw _
  | succ fuel ih =>
      unfold forEach
      refine within_ite (fun _ => within_pure steady ()) fun _ => ?_
      refine within_bind steady (inside start) fun _ => ?_
      refine within_bind steady (within_get steady) fun state => ?_
      split
      · exact within_throw _
      · exact ih _

/-- The loop over a plain list of addresses. -/
def forList (body : Ptr → Program σ ε Unit) : List Ptr → Program σ ε Unit
  | [] => pure ()
  | address :: rest => do
      body address
      forList body rest

/-- On a null-terminated list whose links the body keeps, the loop is the one
over the blocks of the list. -/
theorem forEach_runs {start : Ptr} {blocks : List Ptr} {fuel : Nat} {first last : σ}
    (kept : ∀ address, Within (fun before after =>
      (heap after).links next = (heap before).links next) (body address))
    (chain : Chain ((heap first).links next) start blocks) (enough : blocks.length < fuel) :
    Runs (forEach heap next raise body fuel start) first () last ↔
      Runs (forList body blocks) first () last := by
  induction blocks generalizing fuel first start with
  | nil =>
      cases chain
      cases fuel with
      | zero => cases enough
      | succ fuel => simp [forEach, forList]
  | cons address rest ih =>
      cases chain with
      | cons nonnull step tail =>
          cases fuel with
          | zero => cases enough
          | succ fuel =>
              simp only [forEach, if_neg nonnull, forList, runs_bind, runs_get]
              constructor
              · rintro ⟨value, middle, ran, _, _, ⟨rfl, rfl⟩, continued⟩
                have same := kept address _ _ _ ran
                obtain ⟨block, found, rfl⟩ := Option.map_eq_some_iff.mp
                  ((congrFun same address).trans step)
                rw [found] at continued
                refine ⟨value, _, ran, (ih ?_ (Nat.lt_of_succ_lt_succ enough)).mp continued⟩
                rw [same]
                exact tail
              · rintro ⟨value, middle, ran, continued⟩
                have same := kept address _ _ _ ran
                obtain ⟨block, found, rfl⟩ := Option.map_eq_some_iff.mp
                  ((congrFun same address).trans step)
                refine ⟨value, middle, ran, middle, middle, ⟨rfl, rfl⟩, ?_⟩
                rw [found]
                refine (ih ?_ (Nat.lt_of_succ_lt_succ enough)).mpr continued
                rw [same]
                exact tail

/-- A loop that does nothing ends exactly on a null-terminated list. -/
theorem forEach_nothing {fuel : Nat} {start : Ptr} {first last : σ}
    (run : Runs (forEach heap next raise (fun _ => pure ()) fuel start) first () last) :
    ∃ blocks, Chain ((heap first).links next) start blocks := by
  induction fuel generalizing start with
  | zero => exact (runs_throw.mp run).elim
  | succ fuel ih =>
      unfold forEach at run
      rcases runs_ite.mp run with ⟨rfl, _⟩ | ⟨nonnull, round⟩
      · exact ⟨[], .nil⟩
      obtain ⟨_, _, skipped, reading⟩ := runs_bind.mp round
      rw [(runs_pure.mp skipped).2, runs_get_bind] at reading
      cases content : (heap first).get? start with
      | none =>
          rw [content] at reading
          exact (runs_throw.mp reading).elim
      | some block =>
          rw [content] at reading
          obtain ⟨blocks, tail⟩ := ih reading
          refine ⟨start :: blocks, .cons nonnull ?_ tail⟩
          rw [Heap.links, content]
          rfl

end PimDm.Foundation
