import PimDm.Routing.Table
import PimDm.Effect.Events

/-!
# The daemon's memory as a routing table

`Models s t` reads the lists in the daemon's memory as the lists of `t`.  Quiet
updates keep it, so only the stores that change forwarding, the lists of an
interface or the table remain to be followed.
-/

namespace PimDm.Refinement

open PimDm.Foundation PimDm.Source PimDm.Effect PimDm.Routing

/-- The lists of different interfaces share no record. -/
def Apart (items : Vif → List (Ptr × Addr)) : Prop :=
  ∀ vif other, vif ≠ other → ∀ address ∈ (items vif).map Prod.fst,
    address ∉ (items other).map Prod.fst

structure Models (s : Daemon) (t : Table) : Prop where
  entries : s.mrts.Shows Mrt.next Mrt.toRoute s.themrt t.entries
  members : ∀ vif, s.groups.Shows IgmpGroup.next IgmpGroup.address (s.myvifs vif).groups (t.members vif)
  neighbors : ∀ vif,
    s.neighbors.Shows PimNeighbor.next PimNeighbor.address (s.myvifs vif).neighbor (t.neighbors vif)
  membersApart : Apart t.members
  neighborsApart : Apart t.neighbors
  mfc : s.mfc = t.mfc

/-- The routing state read from memory. -/
def table (s : Daemon) : Table where
  entries := s.mrts.view Mrt.next Mrt.toRoute s.themrt
  members vif := s.groups.view IgmpGroup.next IgmpGroup.address (s.myvifs vif).groups
  neighbors vif := s.neighbors.view PimNeighbor.next PimNeighbor.address (s.myvifs vif).neighbor
  mfc := s.mfc

variable {s s' : Daemon} {t : Table}

theorem Models.table_eq (models : Models s t) : table s = t := by
  unfold table
  congr 1
  · exact models.entries.view_eq
  · exact funext fun vif => (models.members vif).view_eq
  · exact funext fun vif => (models.neighbors vif).view_eq
  · exact models.mfc

/-- Models is about the lists and the forwarding cache only. -/
theorem Models.of_same (models : Models s t) (themrt : s'.themrt = s.themrt) (mrts : s'.mrts = s.mrts)
    (myvifs : ∀ vif, (s'.myvifs vif).groups = (s.myvifs vif).groups ∧
      (s'.myvifs vif).neighbor = (s.myvifs vif).neighbor)
    (groups : s'.groups = s.groups) (neighbors : s'.neighbors = s.neighbors)
    (mfc : s'.mfc = s.mfc) : Models s' t where
  entries := by
    rw [themrt, mrts]
    exact models.entries
  members vif := by
    rw [(myvifs vif).1, groups]
    exact models.members vif
  neighbors vif := by
    rw [(myvifs vif).2, neighbors]
    exact models.neighbors vif
  membersApart := models.membersApart
  neighborsApart := models.neighborsApart
  mfc := mfc.trans models.mfc

theorem Models.observe (models : Models s t) (observation : Observation) :
    Models (s.observe observation) t :=
  models.of_same rfl rfl (fun _ => ⟨rfl, rfl⟩) rfl rfl rfl

theorem Models.setMrt_hidden (models : Models s t) (mymrt : Ptr) (function : Mrt → Mrt)
    (links : ∀ e, (function e).next = e.next) (kept : ∀ e, (function e).toRoute = e.toRoute) :
    Models (s.setMrt mymrt function) t :=
  { models with entries := models.entries.modify_same mymrt links kept }

theorem Models.setGroup_hidden (models : Models s t) (record : Ptr) {function : IgmpGroup → IgmpGroup}
    (links : ∀ g, (function g).next = g.next) (kept : ∀ g, (function g).address = g.address) :
    Models (s.setGroup record function) t :=
  { models with members := fun vif => (models.members vif).modify_same record links kept }

theorem Models.setNeighbor_hidden (models : Models s t) (entry : Ptr)
    {function : PimNeighbor → PimNeighbor} (links : ∀ n, (function n).next = n.next)
    (kept : ∀ n, (function n).address = n.address) : Models (s.setNeighbor entry function) t :=
  { models with neighbors := fun vif => (models.neighbors vif).modify_same entry links kept }

theorem Field.quiet_write (field : Field) (quiet : field.level ≤ .quiet) (e : Mrt) :
    (field.write e).next = e.next ∧ (field.write e).toRoute = e.toRoute := by
  cases field with
  | outvif vif value change => exact absurd quiet (by simp [Field.level]; decide)
  | winner preference metric upstream => exact absurd quiet (by simp [Field.level]; decide)
  | _ => exact ⟨rfl, rfl⟩

theorem models_quiet (models : Models s t) (update : Update) (quiet : update.level ≤ .quiet) :
    Models (update.apply s) t := by
  cases update with
  | sendBuf write => exact models.of_same rfl rfl (fun _ => ⟨rfl, rfl⟩) rfl rfl rfl
  | send packet entry => exact models.observe _
  | query src dst type code group => exact models.observe _
  | callDelLeaf vif group => exact models.observe _
  | setTimer delay action => exact models.of_same rfl rfl (fun _ => ⟨rfl, rfl⟩) rfl rfl rfl
  | clearTimer timer =>
      simp only [Update.apply, Daemon.clearTimer]
      split
      · exact models
      · exact models.of_same rfl rfl (fun _ => ⟨rfl, rfl⟩) rfl rfl rfl
  | age elapsedTime => exact models.of_same rfl rfl (fun _ => ⟨rfl, rfl⟩) rfl rfl rfl
  | popExpired => exact models.of_same rfl rfl (fun _ => ⟨rfl, rfl⟩) rfl rfl rfl
  | packetNumber number => exact models.of_same rfl rfl (fun _ => ⟨rfl, rfl⟩) rfl rfl rfl
  | virtualTime seconds => exact models.of_same rfl rfl (fun _ => ⟨rfl, rfl⟩) rfl rfl rfl
  | querier vif write kept =>
      refine models.of_same rfl rfl (fun other => ?_) rfl rfl rfl
      by_cases here : other = vif
      · subst here
        simp [Update.apply, Daemon.setMyvif, kept]
      · simp [Update.apply, Daemon.setMyvif, here]
  | leavePhase record leaveQuery timeout =>
      exact models.setGroup_hidden record (fun _ => rfl) fun _ => rfl
  | holdtime entry seconds => exact models.setNeighbor_hidden entry (fun _ => rfl) fun _ => rfl
  | neighborTimer entry timer => exact models.setNeighbor_hidden entry (fun _ => rfl) fun _ => rfl
  | field mymrt store =>
      exact models.setMrt_hidden mymrt store.write (fun e => (Field.quiet_write store quiet e).1)
        fun e => (Field.quiet_write store quiet e).2
  | _ => exact absurd quiet (by simp only [Update.level]; decide)

/-- A program of quiet updates keeps the routing state. -/
theorem models_of_quiet {α : Type} {program : Act α} {value : α}
    (quiet : Within (Changes .quiet Anything) program) (models : Models s t)
    (run : Runs program s value s') : Models s' t := by
  have kept := within_of_does quiet (steady_keeps fun state => Models state t)
    fun update state inside models => models_quiet models update inside.1
  exact kept s value s' run models

/-! ## Reading the routing state -/

section Reads

variable {α : Type} {value : α}

@[simp] theorem runs_liftHeap {result : Except HeapFault α} :
    Runs (liftHeap result) s value s' ↔ result = .ok value ∧ s' = s := by
  cases result with
  | ok found =>
      simp only [liftHeap, runs_pure, Except.ok.injEq]
      exact and_congr_left fun _ => eq_comm
  | error fault => simp [liftHeap]

@[simp] theorem runs_loadMrt {mymrt : Ptr} {e : Mrt} :
    Runs (loadMrt mymrt) s e s' ↔ s.mrts.get? mymrt = some e ∧ s' = s := by
  simp [loadMrt, Heap.load_eq_ok, and_comm]

@[simp] theorem runs_loadGroup {record : Ptr} {g : IgmpGroup} :
    Runs (loadGroup record) s g s' ↔ s.groups.get? record = some g ∧ s' = s := by
  simp [loadGroup, Heap.load_eq_ok, and_comm]

@[simp] theorem runs_loadNeighbor {entry : Ptr} {n : PimNeighbor} :
    Runs (loadNeighbor entry) s n s' ↔ s.neighbors.get? entry = some n ∧ s' = s := by
  simp [loadNeighbor, Heap.load_eq_ok, and_comm]

@[simp] theorem runs_storeMrt {mymrt : Ptr} {function : Mrt → Mrt} {result : Unit} :
    Runs (storeMrt mymrt function) s result s' ↔
      (∃ e, s.mrts.get? mymrt = some e) ∧ s' = s.setMrt mymrt function := by
  simp [storeMrt]

@[simp] theorem runs_storeGroup {record : Ptr} {function : IgmpGroup → IgmpGroup} {result : Unit} :
    Runs (storeGroup record function) s result s' ↔
      (∃ g, s.groups.get? record = some g) ∧ s' = s.setGroup record function := by
  simp [storeGroup]

@[simp] theorem runs_storeNeighbor {entry : Ptr} {function : PimNeighbor → PimNeighbor}
    {result : Unit} :
    Runs (storeNeighbor entry function) s result s' ↔
      (∃ n, s.neighbors.get? entry = some n) ∧ s' = s.setNeighbor entry function := by
  simp [storeNeighbor]

@[simp] theorem runs_timerSetTimer {delay timer : Int} {action : Callback} :
    Runs (timerSetTimer delay action) s timer s' ↔
      timer = s.id + 1 ∧ s' = s.setTimer delay action := by
  simp [timerSetTimer, and_comm]

theorem spares_timerSetTimer {fault : Fault} (delay : Int) (action : Callback) :
    Spares fault (timerSetTimer delay action) :=
  spares_bind spares_get fun _ => spares_bind (spares_modify _) fun _ => spares_pure _

@[simp] theorem runs_timerClearTimer {timer : Int} {result : Unit} :
    Runs (timerClearTimer timer) s result s' ↔ s' = s.clearTimer timer := by
  simp [timerClearTimer]

theorem runs_findMrt {property : Mrt → Bool} {mymrt : Ptr} :
    Runs (findMrt property) s mymrt s' ↔
      s.mrts.find Mrt.next property (s.mrts.size + 1) s.themrt = .ok mymrt ∧ s' = s := by
  rw [findMrt, runs_get_bind, runs_liftHeap]

end Reads

/-- The address of a found entry, or `NULL`. -/
def addressOf {β : Type} (found : Option (Ptr × β)) : Ptr := (found.map Prod.fst).getD 0

namespace Models

variable (models : Models s t)
include models

theorem runs_findMrt (property : Mrt → Bool) (shown : Route → Bool)
    (reads : ∀ e, property e = shown e.toRoute) {mymrt : Ptr} :
    Runs (findMrt property) s mymrt s' ↔ mymrt = addressOf (t.find shown) ∧ s' = s := by
  have found := models.entries.find_eq property shown reads
  rw [Refinement.runs_findMrt, found, Except.ok.injEq]
  exact and_congr_left fun _ => eq_comm

theorem runs_findSg {source group : Addr} {mymrt : Ptr} :
    Runs (findSg source group) s mymrt s' ↔
      mymrt = addressOf (t.find (routeIsFor source group)) ∧ s' = s :=
  models.runs_findMrt (Mrt.isFor source group) (routeIsFor source group) fun _ => rfl

theorem runs_findGroup {vif : Vif} {group : Addr} {record : Ptr} :
    Runs (findGroup vif group) s record s' ↔
      record = addressOf ((t.members vif).find? fun item => item.2 == group) ∧ s' = s := by
  have found := (models.members vif).find_eq (fun g => g.address == group)
    (fun address => address == group) fun _ => rfl
  simp only [findGroup, runs_bind, runs_get, runs_liftHeap]
  constructor
  · rintro ⟨_, _, ⟨rfl, rfl⟩, result, rfl⟩
    rw [found] at result
    exact ⟨(Except.ok.inj result).symm, rfl⟩
  · rintro ⟨rfl, rfl⟩
    exact ⟨_, _, ⟨rfl, rfl⟩, found, rfl⟩

theorem runs_findneighbor {vif : Vif} {address : Addr} {entry : Ptr} :
    Runs (findneighbor address vif) s entry s' ↔
      entry = addressOf ((t.neighbors vif).find? fun item => item.2 == address) ∧ s' = s := by
  have found := (models.neighbors vif).find_eq (fun n => n.address == address)
    (fun other => other == address) fun _ => rfl
  simp only [findneighbor, runs_bind, runs_get, runs_liftHeap]
  constructor
  · rintro ⟨_, _, ⟨rfl, rfl⟩, result, rfl⟩
    rw [found] at result
    exact ⟨(Except.ok.inj result).symm, rfl⟩
  · rintro ⟨rfl, rfl⟩
    exact ⟨_, _, ⟨rfl, rfl⟩, found, rfl⟩

/-- An entry that was found is in the table and in memory. -/
theorem entry_of_find {property : Route → Bool} {item : Ptr × Route}
    (found : t.find property = some item) :
    item ∈ t.entries ∧ property item.2 = true ∧ item.1 ≠ 0 ∧
      ∃ e, s.mrts.get? item.1 = some e ∧ e.toRoute = item.2 := by
  have member := List.mem_of_find?_eq_some found
  have holds := List.find?_some (p := fun other : Ptr × Route => property other.2) found
  exact ⟨member, holds, models.entries.nonnull member, models.entries.found member⟩

/-- `mymrt = find(...); if (mymrt == NULL) absent; else body`. -/
theorem runs_lookup {α : Type} {value : α} {property : Mrt → Bool} (shown : Route → Bool)
    (reads : ∀ e, property e = shown e.toRoute) {absent : Act α} {body : Ptr → Act α}
    (run : Runs (do
      let mymrt ← findMrt property
      if mymrt = 0 then absent else body mymrt) s value s') :
    (t.find shown = none ∧ Runs absent s value s') ∨
      ∃ item, t.find shown = some item ∧ Runs (body item.1) s value s' := by
  obtain ⟨mymrt, middle, looked, continued⟩ := runs_bind.mp run
  obtain ⟨rfl, rfl⟩ := (models.runs_findMrt property shown reads).mp looked
  cases found : t.find shown with
  | none =>
      simp only [found, addressOf, Option.map_none, Option.getD_none, if_true] at continued
      exact Or.inl ⟨rfl, continued⟩
  | some item =>
      have nonnull := (models.entry_of_find found).2.2.1
      simp only [found, addressOf, Option.map_some, Option.getD_some, if_neg nonnull] at continued
      exact Or.inr ⟨item, rfl, continued⟩

theorem addressOf_find {property : Route → Bool} :
    addressOf (t.find property) = 0 ↔ t.find property = none := by
  cases found : t.find property with
  | none => simp [addressOf]
  | some item =>
      have nonnull := (models.entry_of_find found).2.2.1
      simp [addressOf, nonnull]

end Models

/-! ## Loops over the table -/

/-- A program below the level of the table leaves the links of the table. -/
theorem links_of_changes {A : Callback → Prop} {level : Level} (below : level ≤ .lists) {α : Type}
    {program : Act α} (changes : Within (Changes level A) program) :
    Within (fun before after => after.mrts.links Mrt.next = before.mrts.links Mrt.next) program := by
  refine within_of_does changes (steady_same fun state : Daemon => state.mrts.links Mrt.next) ?_
  intro update state inside
  have lower := Level.le_trans inside.1 below
  cases update with
  | field mymrt store =>
      refine Heap.links_modify_same (fun e => ?_) state.mrts mymrt
      cases store <;> rfl
  | clearTimer timer =>
      simp only [Update.apply, Daemon.clearTimer]
      split <;> rfl
  | linkMrt newmrt => exact absurd lower (by simp only [Update.level]; decide)
  | mrtNext mymrt next => exact absurd lower (by simp only [Update.level]; decide)
  | _ => rfl

theorem runs_printSg (run : Runs printSg s () s') : s' = s := by
  have same : Steady fun before after : Daemon => after = before :=
    ⟨fun _ => rfl, fun left right => right.trans left⟩
  refine within_bind same (within_get same) (fun state => ?_) s () s' run
  exact within_forEach same (fun _ => within_pure same ()) _ _

/-- A loop over the whole table is a loop over its entries. -/
theorem Models.runs_forMrt (models : Models s t) {body : Ptr → Act Unit}
    (kept : ∀ mymrt, Within (fun before after =>
      after.mrts.links Mrt.next = before.mrts.links Mrt.next) (body mymrt)) :
    Runs (forMrt body) s () s' ↔ Runs (forList body (t.entries.map Prod.fst)) s () s' := by
  have enough := Nat.lt_succ_of_le models.entries.chain.length_le
  have loop : Runs (forEach Daemon.mrts Mrt.next Fault.memory body (s.mrts.size + 1) s.themrt) s () s' ↔
      Runs (forList body (t.entries.map Prod.fst)) s () s' :=
    forEach_runs kept models.entries.chain enough
  simp only [forMrt, runs_bind, runs_get]
  constructor
  · rintro ⟨_, _, ⟨rfl, rfl⟩, run⟩
    exact loop.mp run
  · intro run
    exact ⟨_, _, ⟨rfl, rfl⟩, loop.mpr run⟩

end PimDm.Refinement
