import PimDm.Foundation.Effects
import PimDm.Source.Machine

/-!
# The single updates of the daemon's state

`Update` names every store, allocation, timer operation and output of the
source.  They are ordered by what they can change: messages and timers only,
the forwarding state of existing entries, the lists of an interface, the links
of the routing table, its set of records.  `Permits` is the set of updates up to
a level whose new timers call allowed functions.
-/

namespace PimDm.Effect

open PimDm.Foundation PimDm.Source

/-- A store into a record of the routing table that is not its `next` field. -/
inductive Field where
  | outvif (vif : Vif) (value change : Int)
  | winner (preference metric : BitVec 32) (upstream : Addr)
  | joinDelayTimer (timer : Int)
  | pruneTimer (vif : Vif) (timer : Int)
  | pruneDelayTimer (vif : Vif) (timer : Int)
  | graftTimer (timer : Int)
  | timeout (timer : Int)
  | checkTimer (timer : Int)

def Field.write : Field → Mrt → Mrt
  | .outvif vif value change, e => e.setOutvif vif value change
  | .winner preference metric upstream, e =>
      { e with preference := preference, metric := metric, upstream := upstream }
  | .joinDelayTimer timer, e => { e with joinDelayTimerId := timer }
  | .pruneTimer vif timer, e => e.setPruneTimer vif timer
  | .pruneDelayTimer vif timer, e => e.setPruneDelayTimer vif timer
  | .graftTimer timer, e => { e with graftTimerId := timer }
  | .timeout timer, e => { e with timeoutId := timer }
  | .checkTimer timer, e => { e with checkTimerid := timer }

inductive Update where
  | sendBuf (write : Memory → Memory)
  | send (packet : PimPacket) (entry : Ptr)
  | query (src dst : Addr) (type code : Nat) (group : Addr)
  | callDelLeaf (vif : Vif) (group : Addr)
  | setTimer (delay : Int) (action : Callback)
  | clearTimer (timer : Int)
  | age (elapsedTime : Int)
  | popExpired
  | packetNumber (number : Int)
  | virtualTime (seconds : Nat)
  | querier (vif : Vif) (write : Myvif → Myvif)
      (kept : ∀ myv, (write myv).groups = myv.groups ∧ (write myv).neighbor = myv.neighbor)
  | leavePhase (record : Ptr) (leaveQuery timeout : Int)
  | holdtime (entry : Ptr) (seconds : Int)
  | neighborTimer (entry : Ptr) (timer : Int)
  | field (mymrt : Ptr) (store : Field)
  | mfc (source group : Addr) (entry : Option Mfc)
  | linkGroup (vif : Vif) (record : IgmpGroup)
  | groupHead (vif : Vif) (record : Ptr)
  | groupNext (record next : Ptr)
  | freeGroup (record : Ptr) (content : IgmpGroup)
  | linkNeighbor (vif : Vif) (entry : PimNeighbor)
  | neighborHead (vif : Vif) (entry : Ptr)
  | neighborNext (entry next : Ptr)
  | linkMrt (newmrt : Mrt)
  | mrtHead (mymrt : Ptr)
  | mrtNext (mymrt next : Ptr)
  | addedSg (source group : Addr)
  | deletedSg (source group : Addr)

def Update.apply : Update → Daemon → Daemon
  | .sendBuf write, s => s.writeBuf write
  | .send packet entry, s => s.observe (.pim packet entry)
  | .query src dst type code group, s => s.observe (.igmp src dst type code group)
  | .callDelLeaf vif group, s => s.observe (.delLeaf vif group)
  | .setTimer delay action, s => s.setTimer delay action
  | .clearTimer timer, s => s.clearTimer timer
  | .age elapsedTime, s => s.age elapsedTime
  | .popExpired, s => s.popExpired
  | .packetNumber number, s => { s with packetNumber := number }
  | .virtualTime seconds, s => { s with virtualTime := s.virtualTime + seconds }
  | .querier vif write _, s => s.setMyvif vif write
  | .leavePhase record leaveQuery timeout, s =>
      s.setGroup record fun g => { g with leaveQuery := leaveQuery, timeout := timeout }
  | .holdtime entry seconds, s => s.setNeighbor entry fun n => { n with holdtime := seconds }
  | .neighborTimer entry timer, s => s.setNeighbor entry fun n => { n with timeoutid := timer }
  | .field mymrt store, s => s.setMrt mymrt store.write
  | .mfc source group entry, s => s.setMfc source group entry
  | .linkGroup vif record, s => s.linkGroup vif record
  | .groupHead vif record, s => s.setMyvif vif fun myv => { myv with groups := record }
  | .groupNext record next, s => s.setGroup record fun g => { g with next := next }
  | .freeGroup record content, s => s.setGroup record fun _ => content
  | .linkNeighbor vif entry, s => s.linkNeighbor vif entry
  | .neighborHead vif entry, s => s.setMyvif vif fun myv => { myv with neighbor := entry }
  | .neighborNext entry next, s => s.setNeighbor entry fun n => { n with next := next }
  | .linkMrt newmrt, s => s.linkMrt newmrt
  | .mrtHead mymrt, s => { s with themrt := mymrt }
  | .mrtNext mymrt next, s => s.setMrt mymrt fun e => { e with next := next }
  | .addedSg source group, s => s.observe (.addSg source group)
  | .deletedSg source group, s => s.observe (.deleteSg source group)

/-- How far the changes of an update go. -/
inductive Level where
  | quiet
  | forwarding
  | lists
  | removal
  | table
  deriving DecidableEq, Repr

def Level.rank : Level → Nat
  | .quiet => 0
  | .forwarding => 1
  | .lists => 2
  | .removal => 3
  | .table => 4

instance : LE Level := ⟨fun lower upper => lower.rank ≤ upper.rank⟩

instance (lower upper : Level) : Decidable (lower ≤ upper) :=
  inferInstanceAs (Decidable (lower.rank ≤ upper.rank))

theorem Level.quiet_le (level : Level) : Level.quiet ≤ level := Nat.zero_le _

theorem Level.le_trans {first second third : Level} (left : first ≤ second)
    (right : second ≤ third) : first ≤ third := Nat.le_trans left right

def Field.level : Field → Level
  | .outvif .. => .forwarding
  | .winner .. => .forwarding
  | _ => .quiet

def Update.level : Update → Level
  | .field _ store => store.level
  | .mfc .. => .forwarding
  | .linkGroup .. => .lists
  | .groupHead .. => .lists
  | .groupNext .. => .lists
  | .freeGroup .. => .lists
  | .linkNeighbor .. => .lists
  | .neighborHead .. => .lists
  | .neighborNext .. => .lists
  | .linkMrt .. => .table
  | .mrtHead .. => .removal
  | .mrtNext .. => .removal
  | .addedSg .. => .table
  | .deletedSg .. => .removal
  | _ => .quiet

/-- The function an update registers in a new timer is in `A`.  A Graft is sent
only together with the timer that sends it again, so it counts as that timer, and
so does the store of a check timer. -/
def Update.Registers (A : Callback → Prop) : Update → Prop
  | .setTimer _ action => A action
  | .send packet entry => packet.type = pimGraft → A (.planGraft entry)
  | .field _ (.checkTimer _) => ∃ source group, A (.checkSg source group)
  | _ => True

/-- An update up to `level` whose new timer, if any, calls a function in `A`. -/
def Permits (level : Level) (A : Callback → Prop) (update : Update) : Prop :=
  update.level ≤ level ∧ update.Registers A

/-- The states related by a program of updates up to `level`. -/
abbrev Changes (level : Level) (A : Callback → Prop) : Daemon → Daemon → Prop :=
  Does Update.apply (Permits level A)

/-- No bound on the functions that new timers call. -/
def Anything : Callback → Prop := fun _ => True

theorem permits_mono {lower upper : Level} {A B : Callback → Prop} (below : lower ≤ upper)
    (more : ∀ action, A action → B action) (update : Update) (inside : Permits lower A update) :
    Permits upper B update := by
  refine ⟨Level.le_trans inside.1 below, ?_⟩
  cases update with
  | setTimer delay action => exact more _ inside.2
  | send packet entry => exact fun graft => more _ (inside.2 graft)
  | field mymrt store =>
      cases store with
      | checkTimer timer =>
          obtain ⟨source, group, may⟩ := inside.2
          exact ⟨source, group, more _ may⟩
      | _ => trivial
  | _ => trivial

/-- Handlers make the update: no time passes in it, and no timer is taken from the batch. -/
def Update.InHandler : Update → Prop
  | .age _ => False
  | .popExpired => False
  | _ => True

/-- An update of a handler up to `level` whose new timer, if any, calls a function in `A`. -/
def Handles (level : Level) (A : Callback → Prop) (update : Update) : Prop :=
  Permits level A update ∧ update.InHandler

/-- The predicate holds of every update of a handler up to its level. -/
class Covers (P : Level → (Callback → Prop) → Update → Prop) : Prop where
  covers : ∀ {level : Level} {A : Callback → Prop} (update : Update), update.level ≤ level → update.Registers A →
    update.InHandler → P level A update

export Covers (covers)

instance : Covers Permits := ⟨fun _ below registers _ => ⟨below, registers⟩⟩

instance : Covers Handles := ⟨fun _ below registers inside => ⟨⟨below, registers⟩, inside⟩⟩

variable {P : Level → (Callback → Prop) → Update → Prop} {level : Level} {A : Callback → Prop} {α : Type}

/-- The update leaves the querier of every interface, and the timers of its role. -/
def Update.KeepsRoles : Update → Prop
  | .querier .. => False
  | _ => True

/-- An update of a handler as before that leaves the roles. -/
def HandlesBeside (level : Level) (A : Callback → Prop) (update : Update) : Prop :=
  Permits level A update ∧ update.InHandler ∧ update.KeepsRoles

/-- The predicate holds of every update of a handler up to its level, but perhaps not of those of a role. -/
class CoversBeside (P : Level → (Callback → Prop) → Update → Prop) : Prop where
  coversBeside : ∀ {level : Level} {A : Callback → Prop} (update : Update), update.level ≤ level →
    update.Registers A → update.InHandler → update.KeepsRoles → P level A update

export CoversBeside (coversBeside)

instance [Covers P] : CoversBeside P := ⟨fun update below registers inside _ => covers update below registers inside⟩

instance : CoversBeside HandlesBeside := ⟨fun _ below registers inside keeps => ⟨⟨below, registers⟩, inside, keeps⟩⟩

theorem coversBeside_of_handles [CoversBeside P] {lower upper : Level} {A B : Callback → Prop} (below : lower ≤ upper)
    (more : ∀ action, A action → B action) (update : Update) (inside : HandlesBeside lower A update) :
      P upper B update := by
  obtain ⟨permits, handler, keeps⟩ := inside
  have later := permits_mono below more update permits
  exact coversBeside update later.1 later.2 handler keeps

/-! ## The accesses of the source as updates -/

theorem liftHeap_changes (result : Except HeapFault α) : Within (Does Update.apply (P level A)) (liftHeap result) := by
  cases result with
  | ok value => exact does_pure value
  | error fault => exact within_throw _

theorem loadMrt_changes (address : Ptr) : Within (Does Update.apply (P level A)) (loadMrt address) :=
  does_bind does_get fun _ => liftHeap_changes _

theorem loadGroup_changes (address : Ptr) : Within (Does Update.apply (P level A)) (loadGroup address) :=
  does_bind does_get fun _ => liftHeap_changes _

theorem loadNeighbor_changes (address : Ptr) : Within (Does Update.apply (P level A)) (loadNeighbor address) :=
  does_bind does_get fun _ => liftHeap_changes _

theorem findMrt_changes (property : Mrt → Bool) : Within (Does Update.apply (P level A)) (findMrt property) :=
  does_bind does_get fun _ => liftHeap_changes _

theorem findSg_changes (source group : Addr) : Within (Does Update.apply (P level A)) (findSg source group) :=
  findMrt_changes _

theorem findSgGroup_changes (group : Addr) : Within (Does Update.apply (P level A)) (findSgGroup group) :=
  findMrt_changes _

theorem findMrtTrailing_changes (property : Mrt → Bool) :
    Within (Does Update.apply (P level A)) (findMrtTrailing property) :=
  does_bind does_get fun _ => liftHeap_changes _

theorem findGroup_changes (vif : Vif) (group : Addr) : Within (Does Update.apply (P level A)) (findGroup vif group) :=
  does_bind does_get fun _ => liftHeap_changes _

theorem findGroupTrailing_changes (vif : Vif) (group : Addr) :
    Within (Does Update.apply (P level A)) (findGroupTrailing vif group) :=
  does_bind does_get fun _ => liftHeap_changes _

theorem findNeighborTrailing_changes (vif : Vif) (address : Addr) :
    Within (Does Update.apply (P level A)) (findNeighborTrailing vif address) :=
  does_bind does_get fun _ => liftHeap_changes _

theorem findneighbor_changes (address : Addr) (vif : Vif) :
    Within (Does Update.apply (P level A)) (findneighbor address vif) :=
  does_bind does_get fun _ => liftHeap_changes _

theorem forMrt_changes {body : Ptr → Act Unit} (inside : ∀ mymrt, Within (Does Update.apply (P level A)) (body mymrt)) :
    Within (Does Update.apply (P level A)) (forMrt body) :=
  does_bind does_get fun _ => does_forEach inside _ _

theorem forGroups_changes (vif : Vif) {body : Ptr → Act Unit}
    (inside : ∀ g, Within (Does Update.apply (P level A)) (body g)) :
      Within (Does Update.apply (P level A)) (forGroups vif body) :=
  does_bind does_get fun _ => does_forEach inside _ _

variable [CoversBeside P]

theorem storeField_changes (address : Ptr) (field : Field) (below : field.level ≤ level)
    {function : Mrt → Mrt} (same : ∀ e, function e = field.write e)
    (may : Update.Registers A (.field address field)) :
    Within (Does Update.apply (P level A)) (storeMrt address function) := by
  obtain rfl : function = field.write := funext same
  refine does_bind (loadMrt_changes address) fun _ => ?_
  exact does_modify (.field address field) (coversBeside _ below may trivial trivial) fun _ => rfl

theorem storeNext_changes (below : Level.removal ≤ level) (address next : Ptr) :
    Within (Does Update.apply (P level A)) (storeMrt address fun e => { e with next := next }) :=
  does_bind (loadMrt_changes address) fun _ =>
    does_modify (.mrtNext address next) (coversBeside _ below trivial trivial trivial) fun _ => rfl

theorem storeLeavePhase_changes (record : Ptr) (leaveQuery timeout : Int) :
    Within (Does Update.apply (P level A))
      (storeGroup record fun g => { g with leaveQuery := leaveQuery, timeout := timeout }) :=
  does_bind (loadGroup_changes record) fun _ =>
    does_modify (.leavePhase record leaveQuery timeout) (coversBeside _ level.quiet_le trivial trivial trivial)
      fun _ => rfl

theorem timerSetTimer_changes (delay : Int) {action : Callback} (may : A action) :
    Within (Does Update.apply (P level A)) (timerSetTimer delay action) := by
  intro start value final run
  obtain ⟨state, _, ⟨rfl, rfl⟩, _, middle, stored, last⟩ := by
    simpa only [timerSetTimer, runs_bind, runs_get] using run
  obtain ⟨_, rfl⟩ := runs_pure.mp last
  rw [runs_set.mp stored]
  exact .single ⟨.setTimer delay action, coversBeside _ level.quiet_le may trivial trivial, rfl⟩

theorem timerClearTimer_changes (timer : Int) : Within (Does Update.apply (P level A)) (timerClearTimer timer) :=
  does_modify (.clearTimer timer) (coversBeside _ level.quiet_le trivial trivial trivial) fun _ => rfl

omit [CoversBeside P] in
theorem storeQuerier_changes [Covers P] (vif : Vif) {function : Myvif → Myvif}
    (kept : ∀ myv, (function myv).groups = myv.groups ∧ (function myv).neighbor = myv.neighbor) :
    Within (Does Update.apply (P level A)) (storeMyvif vif function) :=
  does_modify (.querier vif function kept) (covers _ level.quiet_le trivial trivial) fun _ => rfl

end PimDm.Effect
