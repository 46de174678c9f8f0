import PimDm.Foundation.ListView
import PimDm.Source.Mrt

/-!
# The routing state without pointers, timers and messages

`Table` is what the daemon knows and has told the kernel: its entries in table
order, the group members and the neighbours of each interface, and the kernel's
forwarding cache.  Records keep their addresses as names.  Every event of the
daemon is one `Change` of this state.
-/

namespace PimDm.Routing

open PimDm.Foundation PimDm.Source

structure Table where
  entries : List (Ptr × Route)
  members : Vif → List (Ptr × Addr)
  neighbors : Vif → List (Ptr × Addr)
  mfc : Addr → Addr → Option Mfc

/-- The route is for this source and group. -/
def routeIsFor (source group : Addr) (r : Route) : Bool := r.source == source && r.group == group

/-- Store an outgoing interface and move the counter. -/
def routeSetOutvif (vif : Vif) (value change : Int) (r : Route) : Route :=
  { r with outvif := Function.update r.outvif vif value, outnumber := r.outnumber + change }

namespace Table

def empty : Table := ⟨[], fun _ => [], fun _ => [], fun _ _ => none⟩

def find (property : Route → Bool) (t : Table) : Option (Ptr × Route) :=
  t.entries.find? fun item => property item.2

/-- The group has a member on the interface. -/
def HasMember (t : Table) (vif : Vif) (group : Addr) : Prop := ∃ item ∈ t.members vif, item.2 = group

instance (t : Table) (vif : Vif) (group : Addr) : Decidable (t.HasMember vif group) :=
  inferInstanceAs (Decidable (∃ item ∈ t.members vif, item.2 = group))

/-- There is a neighbour on the interface. -/
def HasNeighbor (t : Table) (vif : Vif) : Prop := t.neighbors vif ≠ []

instance (t : Table) (vif : Vif) : Decidable (t.HasNeighbor vif) :=
  inferInstanceAs (Decidable (_ ≠ _))

def amendEntry (mymrt : Ptr) (function : Route → Route) (t : Table) : Table :=
  { t with entries := amend mymrt function t.entries }

def setMembers (vif : Vif) (items : List (Ptr × Addr)) (t : Table) : Table :=
  { t with members := Function.update t.members vif items }

def setNeighbors (vif : Vif) (items : List (Ptr × Addr)) (t : Table) : Table :=
  { t with neighbors := Function.update t.neighbors vif items }

theorem setNeighbors_self (vif : Vif) (t : Table) : t.setNeighbors vif (t.neighbors vif) = t := by
  unfold setNeighbors
  rw [Function.update_eq_self]

theorem neighbors_set_self (vif : Vif) (items : List (Ptr × Addr)) (t : Table) :
    (t.setNeighbors vif items).neighbors vif = items := Function.update_self ..

theorem neighbors_set_other {vif other : Vif} (different : other ≠ vif) (items : List (Ptr × Addr))
    (t : Table) : (t.setNeighbors vif items).neighbors other = t.neighbors other :=
  Function.update_of_ne different ..

/-- Neighbours are not lost by storing a list that is not empty. -/
theorem hasNeighbor_setNeighbors {vif other : Vif} {items : List (Ptr × Addr)} {t : Table}
    (nonempty : items ≠ []) (has : t.HasNeighbor other) :
    (t.setNeighbors vif items).HasNeighbor other := by
  unfold HasNeighbor setNeighbors at *
  by_cases same : other = vif
  · subst same
    simpa using nonempty
  · simpa [same] using has

def setMfc (source group : Addr) (entry : Option Mfc) (t : Table) : Table :=
  { t with mfc := Function.update t.mfc source (Function.update (t.mfc source) group entry) }

theorem setMfc_apply (source group : Addr) (entry : Option Mfc) (t : Table)
    (otherSource otherGroup : Addr) :
    (t.setMfc source group entry).mfc otherSource otherGroup =
      if (otherSource, otherGroup) = (source, group) then entry else t.mfc otherSource otherGroup := by
  simp only [setMfc, Function.update_apply, Prod.mk.injEq]
  by_cases sameSource : otherSource = source <;> by_cases sameGroup : otherGroup = group <;>
    simp [sameSource, sameGroup]

/-- Tell the kernel about the first entry of a source and group. -/
def changeMfc (host : Host) (source group : Addr) (incoming : Vif) (t : Table) : Table :=
  match t.find (routeIsFor source group) with
  | none => t
  | some item => t.setMfc source group (some (mfcOf host item.2 incoming))

/-- Store an outgoing interface of an entry and tell the kernel. -/
def forward (host : Host) (vif : Vif) (value change : Int) (t : Table) (item : Ptr × Route) : Table :=
  (t.amendEntry item.1 (routeSetOutvif vif value change)).changeMfc host item.2.source item.2.group
    item.2.incoming

@[simp] theorem changeMfc_entries (host : Host) (source group : Addr) (incoming : Vif) (t : Table) :
    (t.changeMfc host source group incoming).entries = t.entries := by
  unfold changeMfc
  split <;> rfl

@[simp] theorem changeMfc_members (host : Host) (source group : Addr) (incoming : Vif) (t : Table) :
    (t.changeMfc host source group incoming).members = t.members := by
  unfold changeMfc
  split <;> rfl

@[simp] theorem changeMfc_neighbors (host : Host) (source group : Addr) (incoming : Vif) (t : Table) :
    (t.changeMfc host source group incoming).neighbors = t.neighbors := by
  unfold changeMfc
  split <;> rfl

@[simp] theorem forward_entries (host : Host) (vif : Vif) (value change : Int) (t : Table)
    (item : Ptr × Route) : (t.forward host vif value change item).entries =
      amend item.1 (routeSetOutvif vif value change) t.entries := by
  simp [forward, amendEntry]

@[simp] theorem forward_members (host : Host) (vif : Vif) (value change : Int) (t : Table)
    (item : Ptr × Route) : (t.forward host vif value change item).members = t.members := by
  simp [forward, amendEntry]

@[simp] theorem forward_neighbors (host : Host) (vif : Vif) (value change : Int) (t : Table)
    (item : Ptr × Route) : (t.forward host vif value change item).neighbors = t.neighbors := by
  simp [forward, amendEntry]

/-- `forward` on the first entry with a property, if there is one. -/
def forwardFirst (host : Host) (property : Route → Bool) (vif : Vif) (value : Int)
    (change : Route → Int) (t : Table) : Table :=
  match t.find property with
  | none => t
  | some item => t.forward host vif value (change item.2) item

theorem forwardFirst_none {host : Host} {property : Route → Bool} {t : Table}
    (absent : t.find property = none) (vif : Vif) (value : Int) (change : Route → Int) :
    t.forwardFirst host property vif value change = t := by
  rw [forwardFirst, absent]

theorem forwardFirst_some {host : Host} {property : Route → Bool} {t : Table} {item : Ptr × Route}
    (found : t.find property = some item) (vif : Vif) (value : Int) (change : Route → Int) :
    t.forwardFirst host property vif value change = t.forward host vif value (change item.2) item := by
  rw [forwardFirst, found]

@[simp] theorem forwardFirst_members (host : Host) (property : Route → Bool) (vif : Vif) (value : Int)
    (change : Route → Int) (t : Table) :
    (t.forwardFirst host property vif value change).members = t.members := by
  unfold forwardFirst
  split
  · rfl
  · exact forward_members ..

@[simp] theorem forwardFirst_neighbors (host : Host) (property : Route → Bool) (vif : Vif)
    (value : Int) (change : Route → Int) (t : Table) :
    (t.forwardFirst host property vif value change).neighbors = t.neighbors := by
  unfold forwardFirst
  split
  · rfl
  · exact forward_neighbors ..

def addLeaf (host : Host) (vif : Vif) (group : Addr) (t : Table) : Table :=
  t.forwardFirst host (fun r => r.group == group) vif 1 fun r => if r.outvif vif = 1 then 0 else 1

def delLeaf (host : Host) (vif : Vif) (group : Addr) (t : Table) : Table :=
  t.forwardFirst host (fun r => r.group == group) vif 0 fun _ => -1

/-- `forward` on an entry that has a property. -/
def forwardIf (host : Host) (property : Route → Bool) (vif : Vif) (value change : Int) (t : Table)
    (item : Ptr × Route) : Table :=
  if property item.2 then t.forward host vif value change item else t

@[simp] theorem forwardIf_members (host : Host) (property : Route → Bool) (vif : Vif)
    (value change : Int) (t : Table) (item : Ptr × Route) :
    (t.forwardIf host property vif value change item).members = t.members := by
  unfold forwardIf
  split
  · exact forward_members ..
  · rfl

@[simp] theorem forwardIf_neighbors (host : Host) (property : Route → Bool) (vif : Vif)
    (value change : Int) (t : Table) (item : Ptr × Route) :
    (t.forwardIf host property vif value change item).neighbors = t.neighbors := by
  unfold forwardIf
  split
  · exact forward_neighbors ..
  · rfl

/-- Amending one entry leaves the others in the table. -/
theorem mem_forwardIf_of_ne {host : Host} {t : Table} {item other : Ptr × Route}
    (member : other ∈ t.entries) (apart : other.1 ≠ item.1) (property : Route → Bool) (vif : Vif)
    (value change : Int) : other ∈ (t.forwardIf host property vif value change item).entries := by
  unfold forwardIf
  split
  · rw [forward_entries, mem_amend]
    exact ⟨other, member, by rw [if_neg apart]⟩
  · exact member

/-- `forward` on the listed entries that have a property. -/
def forwardAll (host : Host) (property : Route → Bool) (vif : Vif) (value change : Int)
    (items : List (Ptr × Route)) (t : Table) : Table :=
  items.foldl (forwardIf host property vif value change) t

theorem forwardAll_members (host : Host) (property : Route → Bool) (vif : Vif) (value change : Int)
    (items : List (Ptr × Route)) (t : Table) :
    (t.forwardAll host property vif value change items).members = t.members := by
  induction items generalizing t with
  | nil => rfl
  | cons item rest ih => exact (ih _).trans (forwardIf_members ..)

theorem forwardAll_neighbors (host : Host) (property : Route → Bool) (vif : Vif) (value change : Int)
    (items : List (Ptr × Route)) (t : Table) :
    (t.forwardAll host property vif value change items).neighbors = t.neighbors := by
  induction items generalizing t with
  | nil => rfl
  | cons item rest ih => exact (ih _).trans (forwardIf_neighbors ..)

/-- The interface the source searches when a neighbour is lost: the mode
`DEL_NEIGHBOR` used as an index. -/
def searchedVif : Vif := Judge.delNeighbor.code

/-- No member of the group and no neighbour on the interface searched. -/
def Deserted (t : Table) (r : Route) : Bool :=
  !decide (t.HasMember searchedVif r.group) && !decide (t.HasNeighbor searchedVif)

theorem deserted_iff {t : Table} {r : Route} :
    t.Deserted r = true ↔ ¬ t.HasMember searchedVif r.group ∧ ¬ t.HasNeighbor searchedVif := by
  unfold Deserted
  rw [Bool.and_eq_true, Bool.not_eq_true', Bool.not_eq_true', decide_eq_false_iff_not,
    decide_eq_false_iff_not]

theorem deserted_congr {t other : Table} (members : other.members = t.members)
    (neighbors : other.neighbors = t.neighbors) : other.Deserted = t.Deserted := by
  funext r
  rw [Bool.eq_iff_iff, deserted_iff, deserted_iff]
  simp only [HasMember, HasNeighbor, members, neighbors]

def refreshAdd (host : Host) (vif : Vif) (t : Table) : Table :=
  t.forwardAll host (fun r => r.outvif vif == 0) vif 1 1 t.entries

def refreshDel (host : Host) (vif : Vif) (t : Table) : Table :=
  t.forwardAll host t.Deserted vif 0 (-1) t.entries

theorem refreshAdd_neighbors (host : Host) (vif : Vif) (t : Table) :
    (t.refreshAdd host vif).neighbors = t.neighbors := forwardAll_neighbors ..

theorem refreshDel_neighbors (host : Host) (vif : Vif) (t : Table) :
    (t.refreshDel host vif).neighbors = t.neighbors := forwardAll_neighbors ..

/-- The interfaces a new entry forwards on. -/
def Wants (host : Host) (t : Table) (group : Addr) (incoming vif : Vif) : Prop :=
  vif ∈ host.vifs ∧ vif ≠ incoming ∧ (t.HasNeighbor vif ∨ t.HasMember vif group)

instance (host : Host) (t : Table) (group : Addr) (incoming vif : Vif) :
    Decidable (t.Wants host group incoming vif) :=
  inferInstanceAs (Decidable (_ ∧ _ ∧ _))

def newRoute (host : Host) (t : Table) (upstream source group : Addr) (incoming : Vif) : Route where
  source := source
  group := group
  upstream := upstream
  incoming := incoming
  preference := 0
  metric := 0
  outvif vif := if t.Wants host group incoming vif then 1 else 0
  outnumber := (host.vifs.filter fun vif => decide (t.Wants host group incoming vif)).length

end Table

/-- What an event does to the routing state. -/
inductive Change where
  | idle
  | create (mymrt : Ptr) (upstream source group : Addr) (incoming : Vif)
  | remove (source group : Addr)
  | join (vif : Vif) (record : Ptr) (group : Addr)
  | leave (vif : Vif) (group read : Addr)
  | addNeighbor (vif : Vif) (entry : Ptr) (address : Addr)
  | delNeighbor (vif : Vif) (address : Addr)
  | prune (source group : Addr) (vif : Vif)
  | restore (source group : Addr) (vif : Vif)
  | graft (vif : Vif) (mymrts : List Ptr)
  | winner (mymrt : Ptr) (preference metric : BitVec 32) (upstream : Addr)

namespace Table

def push (item : Ptr × Route) (t : Table) : Table := { t with entries := item :: t.entries }

/-- Link a new entry in front and tell the kernel. -/
def create (host : Host) (mymrt : Ptr) (upstream source group : Addr) (incoming : Vif) (t : Table) :
    Table :=
  (t.push (mymrt, t.newRoute host upstream source group incoming)).changeMfc host source group incoming

/-- Remove the first entry of a source and group, and its cache entry. -/
def remove (source group : Addr) (t : Table) : Table :=
  match t.find (routeIsFor source group) with
  | none => t
  | some _ =>
      { t with entries := t.entries.eraseP fun item => routeIsFor source group item.2 }.setMfc source
        group none

theorem remove_members (source group : Addr) (t : Table) :
    (t.remove source group).members = t.members := by
  unfold remove
  split <;> rfl

theorem remove_neighbors (source group : Addr) (t : Table) :
    (t.remove source group).neighbors = t.neighbors := by
  unfold remove
  split <;> rfl

def join (host : Host) (vif : Vif) (record : Ptr) (group : Addr) (t : Table) : Table :=
  (t.setMembers vif ((record, group) :: t.members vif)).addLeaf host vif group

/-- Remove the first record of a group, and a leaf of the group read from it after that. -/
def leave (host : Host) (vif : Vif) (group read : Addr) (t : Table) : Table :=
  (t.setMembers vif ((t.members vif).eraseP fun item => item.2 == group)).delLeaf host vif read

def addNeighbor (host : Host) (vif : Vif) (entry : Ptr) (address : Addr) (t : Table) : Table :=
  (t.setNeighbors vif ((entry, address) :: t.neighbors vif)).refreshAdd host vif

def delNeighbor (host : Host) (vif : Vif) (address : Addr) (t : Table) : Table :=
  (t.setNeighbors vif ((t.neighbors vif).eraseP fun item => item.2 == address)).refreshDel host vif

/-- What a Graft on an interface does with one entry it names. -/
def graftNamed (host : Host) (vif : Vif) (t : Table) (mymrt : Ptr) : Table :=
  match t.entries.find? fun item => item.1 == mymrt with
  | none => t
  | some item => t.forwardIf host (fun r => r.outvif vif == 0) vif 1 0 item

/-- A Graft on an interface, with the entries it names one after another. -/
def graft (host : Host) (vif : Vif) (mymrts : List Ptr) (t : Table) : Table :=
  mymrts.foldl (graftNamed host vif) t

theorem graftNamed_members (host : Host) (vif : Vif) (t : Table) (mymrt : Ptr) :
    (t.graftNamed host vif mymrt).members = t.members := by
  unfold graftNamed
  split
  · rfl
  · exact forwardIf_members ..

theorem graftNamed_neighbors (host : Host) (vif : Vif) (t : Table) (mymrt : Ptr) :
    (t.graftNamed host vif mymrt).neighbors = t.neighbors := by
  unfold graftNamed
  split
  · rfl
  · exact forwardIf_neighbors ..

theorem graft_members (host : Host) (vif : Vif) (mymrts : List Ptr) (t : Table) :
    (t.graft host vif mymrts).members = t.members := by
  induction mymrts generalizing t with
  | nil => rfl
  | cons mymrt rest ih => exact (ih _).trans (graftNamed_members ..)

theorem graft_neighbors (host : Host) (vif : Vif) (mymrts : List Ptr) (t : Table) :
    (t.graft host vif mymrts).neighbors = t.neighbors := by
  induction mymrts generalizing t with
  | nil => rfl
  | cons mymrt rest ih => exact (ih _).trans (graftNamed_neighbors ..)

end Table

def Change.apply (host : Host) : Change → Table → Table
  | .idle, t => t
  | .create mymrt upstream source group incoming, t =>
      t.create host mymrt upstream source group incoming
  | .remove source group, t => t.remove source group
  | .join vif record group, t => t.join host vif record group
  | .leave vif group read, t => t.leave host vif group read
  | .addNeighbor vif entry address, t => t.addNeighbor host vif entry address
  | .delNeighbor vif address, t => t.delNeighbor host vif address
  | .prune source group vif, t => t.forwardFirst host (routeIsFor source group) vif 0 fun _ => 0
  | .restore source group vif, t => t.forwardFirst host (routeIsFor source group) vif 1 fun _ => 0
  | .graft vif mymrts, t => t.graft host vif mymrts
  | .winner mymrt preference metric upstream, t =>
      t.amendEntry mymrt fun r =>
        { r with preference := preference, metric := metric, upstream := upstream }

/-- Only Hellos and lost neighbours change a neighbour list. -/
def Change.IsNeighbor : Change → Prop
  | .addNeighbor .. => True
  | .delNeighbor .. => True
  | _ => False

theorem Change.apply_neighbors {host : Host} {change : Change} (other : ¬ change.IsNeighbor) (t : Table) :
    (change.apply host t).neighbors = t.neighbors := by
  cases change with
  | addNeighbor vif entry address => exact absurd trivial other
  | delNeighbor vif address => exact absurd trivial other
  | create mymrt upstream source group incoming => exact Table.changeMfc_neighbors ..
  | remove source group => exact Table.remove_neighbors source group t
  | join vif record group => exact Table.forwardFirst_neighbors ..
  | leave vif group read => exact Table.forwardFirst_neighbors ..
  | prune source group vif => exact Table.forwardFirst_neighbors ..
  | restore source group vif => exact Table.forwardFirst_neighbors ..
  | graft vif mymrts => exact Table.graft_neighbors ..
  | idle => rfl
  | winner mymrt preference metric upstream => rfl

end PimDm.Routing
