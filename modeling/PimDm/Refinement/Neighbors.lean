import PimDm.Refinement.Lists
import PimDm.Refinement.Roles

/-!
# What Hellos and expiries do to the record of a neighbour

A Hello finds the record of its sender and sets a new timer for it, or takes it out of
the list, or there is none and a record is put in front.  The timer of a record takes
out whichever record has its address.  The routing table is empty, so `refresh_mrt`
finds no entry.
-/

namespace PimDm.Refinement

open PimDm.Foundation PimDm.Source PimDm.Effect PimDm.Routing

variable {s s' : Daemon} {t : Table} {host : Host}

/-! ## An empty routing table -/

theorem runs_forMrt_empty (empty : s.themrt = 0) {body : Ptr → Act Unit} :
    Runs (forMrt body) s () s' ↔ s' = s := by
  unfold forMrt
  rw [runs_get_bind, empty, forEach, if_pos rfl, runs_pure, eq_self, true_and]

theorem runs_refreshMrt_empty (empty : s.themrt = 0) {vif : Vif} {i : Judge} :
    Runs (refreshMrt host vif i) s () s' ↔ s' = s := by
  constructor
  · intro run
    obtain ⟨_, _, loop, print⟩ := runs_bind.mp run
    obtain rfl := (runs_forMrt_empty empty).mp loop
    exact (runs_forMrt_empty empty).mp print
  · rintro rfl
    exact runs_bind.mpr ⟨(), _, (runs_forMrt_empty empty).mpr rfl, (runs_forMrt_empty empty).mpr rfl⟩

/-! ## Leaving a list -/

/-- What a record says about its lease: whose it is, and the timer that ends it. -/
def leaseOf (n : PimNeighbor) : Addr × Int := (n.address, n.timeoutid)

/-- Links of neighbour records changed, and nothing else that a lease depends on. -/
structure Relinked (s s' : Daemon) : Prop where
  themrt : s'.themrt = s.themrt
  id : s'.id = s.id
  queue : s'.queue = s.queue
  expired : s'.expired = s.expired
  leases : ∀ entry, (s'.neighbors.get? entry).map leaseOf = (s.neighbors.get? entry).map leaseOf

theorem steady_relinked : Steady Relinked where
  refl _ := ⟨rfl, rfl, rfl, rfl, fun _ => rfl⟩
  trans left right :=
    ⟨right.themrt.trans left.themrt, right.id.trans left.id, right.queue.trans left.queue,
      right.expired.trans left.expired, fun entry => (right.leases entry).trans (left.leases entry)⟩

/-- A store into a record that keeps what it says about its lease. -/
theorem leases_modify {heap : Heap PimNeighbor} {address : Ptr} {function : PimNeighbor → PimNeighbor}
    (kept : ∀ n, leaseOf (function n) = leaseOf n) (entry : Ptr) :
    ((heap.modify address function).get? entry).map leaseOf = (heap.get? entry).map leaseOf := by
  rw [Heap.get?_modify]
  split
  · rw [Option.map_map]
    exact congrArg (fun image => (heap.get? entry).map image) (funext kept)
  · rfl

theorem loadNeighbor_relinked (address : Ptr) : Within Relinked (loadNeighbor address) := by
  intro start _ final run
  obtain ⟨_, rfl⟩ := runs_loadNeighbor.mp run
  exact steady_relinked.refl _

theorem unlinkNeighbor_relinked (vif : Vif) (address : Addr) (temp : Option Ptr) (pimneighbor : Ptr) :
    Within Relinked (unlinkNeighbor vif address temp pimneighbor) := by
  refine within_bind steady_relinked (loadNeighbor_relinked _) fun entry => ?_
  refine within_bind steady_relinked (within_get steady_relinked) fun state => ?_
  refine within_bind steady_relinked (loadNeighbor_relinked _) fun head => ?_
  refine within_bind steady_relinked (within_onlyIf steady_relinked fun _ => ?_) fun _ => ?_
  · exact within_modify fun _ => ⟨rfl, rfl, rfl, rfl, fun _ => rfl⟩
  · cases temp with
    | none => exact within_throw _
    | some temp =>
        intro start _ final run
        obtain ⟨_, rfl⟩ := runs_storeNeighbor.mp run
        exact ⟨rfl, rfl, rfl, rfl, leases_modify fun _ => rfl⟩

/-- What `delete_pim_neighbor` does with an empty routing table: the first record with the
address of `entry` leaves its list. -/
inductive Expels (host : Host) (entry : Ptr) (s : Daemon) (t : Table) : Daemon → Prop
  | absent {n : PimNeighbor} (record : s.neighbors.get? entry = some n)
      (none : findVifDirect host n.address = 0 ∨
        ∀ item ∈ t.neighbors (findVifDirect host n.address), item.2 ≠ n.address) :
      Expels host entry s t s
  | unlinks {n : PimNeighbor} {ahead behind : List (Ptr × Addr)} {gone : Ptr} {after : Daemon}
      (record : s.neighbors.get? entry = some n) (direct : findVifDirect host n.address ≠ 0)
      (split : t.neighbors (findVifDirect host n.address) = ahead ++ (gone, n.address) :: behind)
      (before : ∀ item ∈ ahead, item.2 ≠ n.address) (relinked : Relinked s after)
      (models : Models after (t.setNeighbors (findVifDirect host n.address) (ahead ++ behind))) :
      Expels host entry s t after

theorem deletePimNeighbor_expels (models : Models s t) (empty : s.themrt = 0) {entry : Ptr}
    (run : Runs (deletePimNeighbor host entry) s () s') : Expels host entry s t s' := by
  obtain ⟨n, _, load, rest⟩ := runs_bind.mp run
  obtain ⟨record, rfl⟩ := runs_loadNeighbor.mp load
  rcases runs_ite.mp rest with ⟨none, stop⟩ | ⟨direct, rest⟩
  · rw [(runs_pure.mp stop).2]
    exact .absent record (Or.inl none)
  obtain ⟨found, _, search, continued⟩ := runs_bind.mp rest
  obtain ⟨_, unlinked, unlink, refresh⟩ := runs_bind.mp continued
  obtain ⟨rfl, ⟨null, absent⟩ | ⟨ahead, ⟨gone, address⟩, behind, split, before, here, rfl⟩⟩ :=
    models.runs_findNeighborTrailing search
  · rcases runs_onlyIf.mp unlink with ⟨nonnull, _⟩ | ⟨_, rfl⟩
    · exact absurd null nonnull
    · rw [(runs_refreshMrt_empty empty).mp refresh]
      exact .absent record (Or.inr fun item member => ne_of_beq_false (absent item member))
  · obtain rfl : address = n.address := eq_of_beq here
    have member : (gone, n.address) ∈ t.neighbors (findVifDirect host n.address) := by simp [split]
    rcases runs_onlyIf.mp unlink with ⟨_, unlink⟩ | ⟨null, _⟩
    · have relinked := unlinkNeighbor_relinked _ _ _ _ _ _ _ unlink
      have left := (unlinkNeighbor_models models split before unlink).2
      rw [(runs_refreshMrt_empty (relinked.themrt.trans empty)).mp refresh]
      exact .unlinks record direct split (fun item inside => ne_of_beq_false (before item inside)) relinked left
    · exact absurd ((models.neighbors _).nonnull member) null

/-! ## Hellos -/

/-- The lease of a record is renewed: its timer is replaced by a new one. -/
def renew (s : Daemon) (entry : Ptr) (old holdtime : Int) : Daemon :=
  (((s.setNeighbor entry fun n => { n with holdtime := holdtime }).clearTimer old).setTimer holdtime
    (.deletePimNeighbor entry)).setNeighbor entry fun n => { n with timeoutid := s.id + 1 }

/-- A new record with a timer in front of the list of an interface. -/
def enrol (s : Daemon) (vif : Vif) (src : Addr) (holdtime : Int) : Daemon :=
  (s.setTimer holdtime (.deletePimNeighbor s.neighbors.fresh)).linkNeighbor vif
    ⟨(s.myvifs vif).neighbor, src, holdtime, s.id + 1⟩

/-- What a Hello with a hold time does with an empty routing table. -/
inductive Greets (host : Host) (src : Addr) (holdtime : Int) (s : Daemon) (t : Table) : Daemon → Prop
  | leaves {entry : Ptr} {after : Daemon}
      (known : (t.neighbors (findVifDirect host src)).find? (fun item => item.2 == src) = some (entry, src))
      (goodbye : holdtime = 0) (expels : Expels host entry s t after) : Greets host src holdtime s t after
  | stays {entry : Ptr} {n : PimNeighbor}
      (known : (t.neighbors (findVifDirect host src)).find? (fun item => item.2 == src) = some (entry, src))
      (record : s.neighbors.get? entry = some n) (later : holdtime ≠ 0) :
      Greets host src holdtime s t (renew s entry n.timeoutid holdtime)
  | joins (unknown : ∀ item ∈ t.neighbors (findVifDirect host src), item.2 ≠ src) :
      Greets host src holdtime s t (enrol s (findVifDirect host src) src holdtime)

theorem refreshNeighbor_renews {entry : Ptr} {holdtime : Int}
    (run : Runs (refreshNeighbor entry holdtime) s () s') :
    ∃ n, s.neighbors.get? entry = some n ∧ s' = renew s entry n.timeoutid holdtime := by
  obtain ⟨_, _, store, rest⟩ := runs_bind.mp run
  obtain ⟨⟨n, record⟩, rfl⟩ := runs_storeNeighbor.mp store
  obtain ⟨again, _, load, rest⟩ := runs_bind.mp rest
  obtain ⟨read, rfl⟩ := runs_loadNeighbor.mp load
  have stored : (s.setNeighbor entry fun n => { n with holdtime := holdtime }).neighbors.get? entry =
      some { n with holdtime := holdtime } := by
    rw [Daemon.setNeighbor, Heap.get?_modify_same, record, Option.map_some]
  obtain rfl := Option.some.inj (stored.symm.trans read)
  obtain ⟨_, cleared, clear, rest⟩ := runs_bind.mp rest
  obtain ⟨_, _, set, final⟩ := runs_bind.mp rest
  obtain ⟨rfl, rfl⟩ := runs_timerSetTimer.mp set
  obtain ⟨_, rfl⟩ := runs_storeNeighbor.mp final
  refine ⟨n, record, ?_⟩
  rcases runs_onlyIf.mp clear with ⟨_, clear⟩ | ⟨unset, rfl⟩
  · obtain rfl := runs_timerClearTimer.mp clear
    have same : ((s.setNeighbor entry fun n => { n with holdtime := holdtime }).clearTimer n.timeoutid).id =
        s.id := clearTimer_id _ _
    rw [renew, same]
  · have none : (s.setNeighbor entry fun n => { n with holdtime := holdtime }).clearTimer n.timeoutid =
        s.setNeighbor entry fun n => { n with holdtime := holdtime } :=
      if_pos (Or.inr (not_not.mp unset))
    rw [renew, none]
    rfl

theorem addPimNeighbor_admits (empty : s.themrt = 0) {src : Addr} {holdtime : Int} {vif : Vif}
    (run : Runs (addPimNeighbor host src holdtime vif) s () s') : s' = enrol s vif src holdtime := by
  unfold addPimNeighbor at run
  rw [runs_get_bind] at run
  obtain ⟨_, _, set, rest⟩ := runs_bind.mp run
  obtain ⟨_, _, link, refresh⟩ := runs_bind.mp rest
  obtain ⟨rfl, rfl⟩ := runs_timerSetTimer.mp set
  obtain rfl := runs_modify.mp link
  have still : (enrol s vif src holdtime).themrt = 0 := empty
  exact (runs_refreshMrt_empty still).mp refresh

/-- A Hello that is accepted has a correct checksum and comes from a direct network. -/
theorem receiveHello_greets (models : Models s t) (empty : s.themrt = 0) {src : Addr} {data : Memory}
    {length : Int} (run : Runs (receiveHello host src data length) s () s') :
    inetCksum data length = 0 ∧
      ((findVifDirect host src = 0 ∧ s' = s) ∨
        findVifDirect host src ≠ 0 ∧ ∃ holdtime,
          getHoldTimeLoop data (64 * 1024 / 4) sizeofPim (length - sizeofPim) = .ok holdtime ∧
          Greets host src holdtime s t s') := by
  obtain ⟨valid, _, check, rest⟩ := runs_bind.mp run
  obtain ⟨rfl, correct, accepted⟩ := runs_validPacket check
  refine ⟨correct, ?_⟩
  rcases runs_ite.mp rest with ⟨refused, stop⟩ | ⟨passed, rest⟩
  · refine Or.inl ⟨?_, (runs_pure.mp stop).2⟩
    by_contra direct
    rw [accepted.mpr direct] at refused
    cases refused
  refine Or.inr ⟨accepted.mp (Bool.eq_true_of_not_eq_false passed), ?_⟩
  obtain ⟨holdtime, _, parse, searching⟩ := runs_bind.mp rest
  obtain ⟨parsed, rfl⟩ := runs_liftHeap.mp parse
  obtain ⟨entry, _, search, deciding⟩ := runs_bind.mp searching
  obtain ⟨rfl, rfl⟩ := models.runs_findneighbor.mp search
  refine ⟨holdtime, parsed, ?_⟩
  cases found : (t.neighbors (findVifDirect host src)).find? fun item => item.2 == src with
  | none =>
      rw [found, if_neg (by simp [addressOf])] at deciding
      rw [addPimNeighbor_admits empty deciding]
      exact .joins fun item member same => List.find?_eq_none.mp found item member (beq_iff_eq.mpr same)
  | some item =>
      obtain ⟨entry, address⟩ := item
      have member := List.mem_of_find?_eq_some found
      obtain rfl : address = src := eq_of_beq (List.find?_some (p := fun other : Ptr × Addr => other.2 == src) found)
      have nonnull := (models.neighbors _).nonnull member
      rw [found, addressOf, Option.map_some, Option.getD_some, if_pos nonnull] at deciding
      rcases runs_ite.mp deciding with ⟨goodbye, delete⟩ | ⟨later, refresh⟩
      · exact .leaves found goodbye (deletePimNeighbor_expels models empty delete)
      · obtain ⟨n, record, rfl⟩ := refreshNeighbor_renews refresh
        exact .stays found record later

/-! ## Faults -/

theorem spares_liftHeap {α : Type} {fault : Fault} (other : ∀ inner, fault ≠ .memory inner)
    (result : Except HeapFault α) : Spares fault (liftHeap result) := by
  cases result with
  | ok value => exact spares_pure value
  | error inner => exact spares_throw (other inner)

theorem spares_loadNeighbor {fault : Fault} (other : ∀ inner, fault ≠ .memory inner) (address : Ptr) :
    Spares fault (loadNeighbor address) :=
  spares_bind spares_get fun _ => spares_liftHeap other _

theorem spares_storeNeighbor {fault : Fault} (other : ∀ inner, fault ≠ .memory inner) (address : Ptr)
    (function : PimNeighbor → PimNeighbor) : Spares fault (storeNeighbor address function) :=
  spares_bind (spares_loadNeighbor other address) fun _ => spares_modify _

theorem memory_other (inner : HeapFault) : Fault.uninitialised ≠ .memory inner := Fault.noConfusion

/-- `delete_pim_neighbor` uses a pointer that is not set only when the record to unlink is the
first of its list. -/
theorem deletePimNeighbor_fails (models : Models s t) (empty : s.themrt = 0) {entry : Ptr} {n : PimNeighbor}
    (record : s.neighbors.get? entry = some n)
    (fails : Fails (deletePimNeighbor host entry) s .uninitialised) :
    findVifDirect host n.address ≠ 0 ∧
      (t.neighbors (findVifDirect host n.address)).head?.map Prod.snd = some n.address := by
  rcases fails_bind.mp fails with early | ⟨_, _, load, rest⟩
  · exact (spares_loadNeighbor memory_other entry s early).elim
  obtain ⟨found, rfl⟩ := runs_loadNeighbor.mp load
  obtain rfl := Option.some.inj (record.symm.trans found)
  rcases fails_ite.mp rest with ⟨_, stop⟩ | ⟨direct, rest⟩
  · exact (fails_pure stop).elim
  refine ⟨direct, ?_⟩
  rcases fails_bind.mp rest with early | ⟨result, _, search, continued⟩
  · exact (spares_bind spares_get (fun _ => spares_liftHeap memory_other _) _ early).elim
  obtain ⟨rfl, cases⟩ := models.runs_findNeighborTrailing search
  rcases fails_bind.mp continued with unlink | ⟨_, unlinked, unlink, refresh⟩
  · obtain ⟨nonnull, unlink⟩ := fails_onlyIf.mp unlink
    rcases cases with ⟨null, _⟩ | ⟨ahead, ⟨gone, address⟩, behind, split, _, here, rfl⟩
    · exact absurd null nonnull
    obtain rfl : address = n.address := eq_of_beq here
    rcases List.eq_nil_or_concat' ahead with rfl | ⟨front, last, rfl⟩
    · rw [split]
      rfl
    · -- Behind the first record the pointer is set.
      rw [List.getLast?_concat, Option.map_some] at unlink
      refine (spares_bind (spares_loadNeighbor memory_other _) (fun _ => ?_) _ unlink).elim
      refine spares_bind spares_get fun _ => spares_bind (spares_loadNeighbor memory_other _) fun _ => ?_
      exact spares_bind (spares_onlyIf fun _ => spares_modify _) fun _ => spares_storeNeighbor memory_other _ _
  · have still : unlinked.themrt = 0 := by
      rcases runs_onlyIf.mp unlink with ⟨_, unlink⟩ | ⟨_, rfl⟩
      · exact (unlinkNeighbor_relinked _ _ _ _ _ _ _ unlink).themrt.trans empty
      · exact empty
    exact (not_fails_of_runs ((runs_refreshMrt_empty still).mpr rfl) refresh).elim

theorem receiveHello_fails (models : Models s t) (empty : s.themrt = 0) {src : Addr} {data : Memory}
    {length : Int} (fails : Fails (receiveHello host src data length) s .uninitialised) :
    findVifDirect host src ≠ 0 ∧
      getHoldTimeLoop data (64 * 1024 / 4) sizeofPim (length - sizeofPim) = .ok 0 ∧
      (t.neighbors (findVifDirect host src)).head?.map Prod.snd = some src := by
  rcases fails_bind.mp fails with early | ⟨valid, _, check, rest⟩
  · have spared : Spares .uninitialised (validPacket host src data length) :=
      spares_ite (fun _ => spares_throw (by decide)) fun _ =>
        spares_ite (fun _ => spares_pure _) fun _ => spares_pure _
    exact (spared s early).elim
  obtain ⟨rfl, _, accepted⟩ := runs_validPacket check
  rcases fails_ite.mp rest with ⟨_, stop⟩ | ⟨passed, rest⟩
  · exact (fails_pure stop).elim
  have direct := accepted.mp (Bool.eq_true_of_not_eq_false passed)
  rcases fails_bind.mp rest with early | ⟨holdtime, _, parse, searching⟩
  · exact (spares_liftHeap memory_other _ _ early).elim
  obtain ⟨parsed, rfl⟩ := runs_liftHeap.mp parse
  rcases fails_bind.mp searching with early | ⟨entry, _, search, deciding⟩
  · exact (spares_bind spares_get (fun _ => spares_liftHeap memory_other _) _ early).elim
  obtain ⟨rfl, rfl⟩ := models.runs_findneighbor.mp search
  rcases fails_ite.mp deciding with ⟨nonnull, deciding⟩ | ⟨_, add⟩
  · rcases fails_ite.mp deciding with ⟨rfl, delete⟩ | ⟨_, refresh⟩
    · cases found : (t.neighbors (findVifDirect host src)).find? fun item => item.2 == src with
      | none =>
          rw [found] at nonnull
          exact absurd rfl nonnull
      | some item =>
          obtain ⟨entry, address⟩ := item
          have member := List.mem_of_find?_eq_some found
          obtain rfl : address = src :=
            eq_of_beq (List.find?_some (p := fun other : Ptr × Addr => other.2 == src) found)
          obtain ⟨n, record, same⟩ := (models.neighbors _).found member
          rw [found, addressOf, Option.map_some, Option.getD_some] at delete
          have head := (deletePimNeighbor_fails models empty record delete).2
          rw [same] at head
          exact ⟨direct, parsed, head⟩
    · refine (spares_bind (spares_storeNeighbor memory_other _ _) (fun _ => ?_) _ refresh).elim
      refine spares_bind (spares_loadNeighbor memory_other _) fun _ => ?_
      refine spares_bind (spares_onlyIf fun _ => spares_modify _) fun _ => ?_
      refine spares_bind ?_ fun _ => spares_storeNeighbor memory_other _ _
      exact spares_bind spares_get fun _ => spares_bind (spares_modify _) fun _ => spares_pure _
  · unfold addPimNeighbor at add
    rw [fails_get_bind] at add
    rcases fails_bind.mp add with early | ⟨_, _, set, add⟩
    · exact (spares_bind spares_get (fun _ => spares_bind (spares_modify _) fun _ => spares_pure _) _ early).elim
    obtain ⟨rfl, rfl⟩ := runs_timerSetTimer.mp set
    rcases fails_bind.mp add with early | ⟨_, _, link, refresh⟩
    · exact (fails_modify early).elim
    obtain rfl := runs_modify.mp link
    have still : (enrol _ (findVifDirect host src) src holdtime).themrt = 0 := empty
    exact (not_fails_of_runs ((runs_refreshMrt_empty still).mpr rfl) refresh).elim

end PimDm.Refinement
