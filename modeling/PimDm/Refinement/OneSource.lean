import PimDm.Refinement.Lists
import PimDm.Effect.Alarms

/-!
# Messages with one group and one source

What the receivers do with a message that has one group with one joined source:
one search, and one action on the entry that is found.  Nothing is assumed of
the table.
-/

namespace PimDm.Refinement

open PimDm.Foundation PimDm.Source PimDm.Effect

variable {s s' : Daemon} {host : Host} {source group : Addr} {vif : Vif} {data : Memory}

/-- The result of `find_sg` in a state. -/
def Finds (s : Daemon) (source group : Addr) (mymrt : Ptr) : Prop :=
  s.mrts.find Mrt.next (Mrt.isFor source group) (s.mrts.size + 1) s.themrt = .ok mymrt

/-- A timer field of the entry that `find_sg` finds. -/
def slot (timer : Mrt → Int) (s : Daemon) (source group : Addr) : Option Int :=
  match s.mrts.find Mrt.next (Mrt.isFor source group) (s.mrts.size + 1) s.themrt with
  | .ok mymrt => (s.mrts.get? mymrt).map timer
  | .error _ => none

theorem slot_found {timer : Mrt → Int} {mymrt : Ptr} (found : Finds s source group mymrt) :
    slot timer s source group = (s.mrts.get? mymrt).map timer := by
  unfold slot
  rw [found]

/-- `find_sg` finds an entry. -/
def InTable (s : Daemon) (source group : Addr) : Prop :=
  (slot (fun _ => 0) s source group).isSome = true

instance (s : Daemon) (source group : Addr) : Decidable (InTable s source group) :=
  inferInstanceAs (Decidable (_ = true))

theorem InTable.found (inside : InTable s source group) :
    ∃ mymrt e, Finds s source group mymrt ∧ mymrt ≠ 0 ∧ s.mrts.get? mymrt = some e := by
  unfold InTable slot at inside
  split at inside
  · rename_i mymrt found
    rw [Option.isSome_map, Option.isSome_iff_exists] at inside
    obtain ⟨e, here⟩ := inside
    refine ⟨mymrt, e, found, ?_, here⟩
    rintro rfl
    cases here
  · cases inside

theorem inTable_of_finds {mymrt : Ptr} (found : Finds s source group mymrt) (nonnull : mymrt ≠ 0) :
    InTable s source group := by
  obtain ⟨e, here, _⟩ := Heap.find_holds found nonnull
  unfold InTable
  rw [slot_found found, here]
  rfl

/-- The body has one group with one joined source, which can be looked up. -/
structure JoinsOne (data : Memory) (source group : Addr) : Prop where
  groups : (readJoinPruneHeader data).numGroups = 1
  group_eq : (readGroupHeader data groupsStart).group = group
  joins : (readGroupHeader data groupsStart).joinField = htons 1
  prunes : (readGroupHeader data groupsStart).pruneField = 0
  source_eq : load32 data (groupsStart + 12 + 4) = source
  multicast : inMulticast (ntohl group) = true
  valid : inetValidHost source = true

/-! ## Receivers -/

/-- One round over the sources of a body. -/
theorem runs_eachSource {action : Addr → Ptr → Act Int} {mydata next : Int} :
    Runs (eachSource data group action mydata) s next s' ↔
      (inetValidHost (load32 data (mydata + 4)) = false ∧ next = mydata + sizeofSource ∧ s' = s) ∨
        inetValidHost (load32 data (mydata + 4)) = true ∧ ∃ mymrt, Finds s (load32 data (mydata + 4)) group mymrt ∧
          ((mymrt = 0 ∧ next = mydata + sizeofSource ∧ s' = s) ∨
            mymrt ≠ 0 ∧ ∃ moved, Runs (action (load32 data (mydata + 4)) mymrt) s moved s' ∧
              next = mydata + moved) := by
  rw [← Bool.not_eq_false (inetValidHost (load32 data (mydata + 4)))]
  refine runs_ite.trans (or_congr (and_congr_right fun _ => runs_pure) (and_congr_right fun _ => ?_))
  rw [runs_bind]
  constructor
  · rintro ⟨mymrt, _, search, rest⟩
    obtain ⟨found, rfl⟩ := runs_findMrt.mp search
    refine ⟨mymrt, found, ?_⟩
    rcases runs_ite.mp rest with ⟨null, stop⟩ | ⟨nonnull, act⟩
    · exact Or.inl ⟨null, runs_pure.mp stop⟩
    · obtain ⟨moved, _, acted, stop⟩ := runs_bind.mp act
      obtain ⟨rfl, rfl⟩ := runs_pure.mp stop
      exact Or.inr ⟨nonnull, moved, acted, rfl⟩
  · rintro ⟨mymrt, found, rest⟩
    refine ⟨mymrt, s, runs_findMrt.mpr ⟨found, rfl⟩, ?_⟩
    rcases rest with ⟨null, stop⟩ | ⟨nonnull, moved, acted, stop⟩
    · exact runs_ite.mpr (Or.inl ⟨null, runs_pure.mpr stop⟩)
    · refine runs_ite.mpr (Or.inr ⟨nonnull, runs_bind.mpr ⟨moved, s', acted, ?_⟩⟩)
      exact runs_pure.mpr ⟨stop, rfl⟩

theorem eachSource_one {action : Addr → Ptr → Act Int} {mydata next : Int}
    (named : load32 data (mydata + 4) = source) (valid : inetValidHost source = true)
    (run : Runs (eachSource data group action mydata) s next s') :
    ∃ mymrt, Finds s source group mymrt ∧
      ((mymrt = 0 ∧ s' = s) ∨
        (mymrt ≠ 0 ∧ ∃ moved, next = mydata + moved ∧ Runs (action source mymrt) s moved s')) := by
  subst named
  rcases runs_eachSource.mp run with ⟨invalid, _⟩ | ⟨_, mymrt, found, ⟨null, _, same⟩ | ⟨nonnull, moved, acted, cursor⟩⟩
  · exact absurd (valid.symm.trans invalid) (by decide)
  · exact ⟨mymrt, found, Or.inl ⟨null, same⟩⟩
  · exact ⟨mymrt, found, Or.inr ⟨nonnull, moved, cursor, acted⟩⟩

theorem eachSource_acts {action : Addr → Ptr → Act Int} {mydata moved : Int} {mymrt : Ptr}
    (named : load32 data (mydata + 4) = source) (valid : inetValidHost source = true)
    (found : Finds s source group mymrt) (nonnull : mymrt ≠ 0) (act : Runs (action source mymrt) s moved s') :
    Runs (eachSource data group action mydata) s (mydata + moved) s' := by
  subst named
  exact runs_eachSource.mpr (Or.inr ⟨valid, mymrt, found, Or.inr ⟨nonnull, moved, act, rfl⟩⟩)

/-- A message from a router is accepted. -/
theorem runs_accepted {src : Addr} {length : Int} {reader : Act Unit}
    (served : findVifDirect host src ≠ 0) (one : JoinsOne data source group)
    (run : Runs (if findVifDirect host src = 0 then pure () else do
      let valid ← validPacket host src data length
      if valid = false ∨ (readJoinPruneHeader data).numGroups = 0 then pure () else reader) s () s') :
    Runs reader s () s' := by
  rcases runs_ite.mp run with ⟨none, _⟩ | ⟨_, checking⟩
  · exact absurd none served
  obtain ⟨valid, _, check, reading⟩ := runs_bind.mp checking
  obtain ⟨rfl, _, accepted⟩ := runs_validPacket check
  rw [accepted.mpr served] at reading
  rcases runs_ite.mp reading with ⟨empty, _⟩ | ⟨_, read⟩
  · have zero := empty.resolve_left (by decide)
    rw [one.groups] at zero
    exact absurd zero (by decide)
  · exact read

/-- The loop over the groups has one round. -/
theorem runs_oneGroup {round : Int → Act Int} (one : JoinsOne data source group)
    (run : Runs (do
      let _ ← times round (readJoinPruneHeader data).numGroups.toNat groupsStart
      pure ()) s () s') : ∃ next, Runs (round groupsStart) s next s' := by
  obtain ⟨_, _, groups, stop⟩ := runs_bind.mp run
  obtain ⟨_, rfl⟩ := runs_pure.mp stop
  rw [one.groups] at groups
  obtain ⟨next, _, first, noMore⟩ := runs_bind.mp groups
  obtain ⟨_, rfl⟩ := runs_pure.mp noMore
  exact ⟨next, first⟩

/-- The group of the message is a multicast address. -/
theorem runs_multicast {α : Type} {skip sources : Act α} {value : α} (one : JoinsOne data source group)
    (run : Runs (if inMulticast (ntohl (readGroupHeader data groupsStart).group) = false then skip
      else sources) s value s') : Runs sources s value s' := by
  rcases runs_ite.mp run with ⟨unicast, _⟩ | ⟨_, loop⟩
  · rw [one.group_eq, one.multicast] at unicast
    exact absurd unicast (by decide)
  · exact loop

/-- A Join that names one source stops the delayed prune in the slot of its entry. -/
theorem receiveJoinPrune_one {src : Addr} {length : Int} (direct : findVifDirect host src = vif)
    (served : vif ≠ 0) (addressed : (readJoinPruneHeader data).upstream = (host.iface vif).address)
    (one : JoinsOne data source group) (run : Runs (receiveJoinPrune host src data length) s () s') :
    ∃ mymrt, Finds s source group mymrt ∧
      ((mymrt = 0 ∧ s' = s) ∨ (mymrt ≠ 0 ∧ Runs (cancelPruneDelay mymrt vif) s () s')) := by
  subst direct
  rcases runs_ite.mp (runs_accepted served one run) with ⟨other, _⟩ | ⟨_, receiving⟩
  · exact absurd addressed other.1
  obtain ⟨_, first⟩ := runs_oneGroup one receiving
  have sources := runs_multicast one first
  obtain ⟨_, _, joins, prunes⟩ := runs_bind.mp sources
  rw [one.prunes] at prunes
  obtain ⟨_, rfl⟩ := runs_pure.mp prunes
  rw [one.joins] at joins
  obtain ⟨_, _, join, joined⟩ := runs_bind.mp joins
  obtain ⟨_, rfl⟩ := runs_pure.mp joined
  rw [one.group_eq] at join
  obtain ⟨mymrt, found, null | ⟨nonnull, moved, _, act⟩⟩ := eachSource_one one.source_eq one.valid join
  · exact ⟨mymrt, found, Or.inl null⟩
  · obtain ⟨_, _, cancel, cancelled⟩ := runs_bind.mp act
    obtain ⟨_, rfl⟩ := runs_pure.mp cancelled
    exact ⟨mymrt, found, Or.inr ⟨nonnull, cancel⟩⟩

/-- A Graft that names one source is acknowledged, and then opens the interface on
its entry. -/
theorem receivePimGraft_one {src : Addr} {length : Int} (direct : findVifDirect host src = vif)
    (served : vif ≠ 0) (one : JoinsOne data source group)
    (run : Runs (receivePimGraft host src data length) s () s') :
    ∃ write sent mymrt, Finds s source group mymrt ∧
      ((mymrt = 0 ∧ s' = (s.writeBuf write).observe sent) ∨
        (mymrt ≠ 0 ∧ Runs (graftEntry host vif mymrt) ((s.writeBuf write).observe sent) () s')) := by
  subst direct
  obtain ⟨_, first⟩ := runs_oneGroup one (runs_accepted served one run)
  have sources := runs_multicast one first
  obtain ⟨_, _, joins, moved⟩ := runs_bind.mp sources
  obtain ⟨_, rfl⟩ := runs_pure.mp moved
  rw [one.joins] at joins
  obtain ⟨_, _, graft, joined⟩ := runs_bind.mp joins
  obtain ⟨_, rfl⟩ := runs_pure.mp joined
  unfold graftSource at graft
  rw [one.group_eq, one.source_eq] at graft
  rcases runs_ite.mp graft with ⟨invalid, _⟩ | ⟨_, acknowledge⟩
  · exact absurd (one.valid.symm.trans invalid) (by decide)
  obtain ⟨_, _, copy, echoing⟩ := runs_bind.mp acknowledge
  obtain rfl := runs_modify.mp copy
  obtain ⟨_, echoed, echo, search⟩ := runs_bind.mp echoing
  have told : ∃ write sent, echoed = (s.writeBuf write).observe sent := by
    rw [runs_pimdmOutput.mp echo, writeBuf_writeBuf]
    exact ⟨_, _, rfl⟩
  obtain ⟨write, sent, rfl⟩ := told
  obtain ⟨mymrt, _, looked, continued⟩ := runs_bind.mp search
  obtain ⟨found, rfl⟩ := runs_findMrt.mp looked
  refine ⟨write, sent, mymrt, found, ?_⟩
  rcases runs_ite.mp continued with ⟨null, absent⟩ | ⟨nonnull, act⟩
  · exact Or.inl ⟨null, (runs_pure.mp absent).2⟩
  · obtain ⟨_, _, acted, stayed⟩ := runs_bind.mp act
    obtain ⟨_, rfl⟩ := runs_pure.mp stayed
    exact Or.inr ⟨nonnull, acted⟩

/-! ## Graft-Acks -/

/-- Stores into an entry that are no `next` field, source or group keep what `find_sg` finds. -/
theorem Finds.setMrt {mymrt : Ptr} (found : Finds s source group mymrt) (other : Ptr)
    {function : Mrt → Mrt} (links : ∀ e, (function e).next = e.next)
    (kept : ∀ e, (function e).isFor source group = e.isFor source group) :
    Finds (s.setMrt other function) source group mymrt := by
  unfold Finds
  simp only [Daemon.setMrt, Heap.size_modify, Heap.find_modify_same links kept]
  exact found

theorem Finds.unique {mymrt other : Ptr} (found : Finds s source group mymrt)
    (again : Finds s source group other) : mymrt = other :=
  Except.ok.inj (found.symm.trans again)

/-- `ackEntry` leaves the slot empty. -/
theorem runs_ackEntry {mymrt : Ptr} (found : Finds s source group mymrt)
    (run : Runs (ackEntry mymrt) s () s') :
    Finds s' source group mymrt ∧ ∃ e, s'.mrts.get? mymrt = some e ∧ e.graftTimerId = 0 := by
  obtain ⟨e, loaded, load, clearing⟩ := runs_bind.mp run
  obtain ⟨here, rfl⟩ := runs_loadMrt.mp load
  rcases runs_onlyIf.mp clearing with ⟨_, clear⟩ | ⟨unset, rfl⟩
  · obtain ⟨_, cleared, stop, store⟩ := runs_bind.mp clear
    obtain rfl := runs_timerClearTimer.mp stop
    obtain ⟨_, rfl⟩ := runs_storeMrt.mp store
    have kept : Finds (loaded.clearTimer e.graftTimerId) source group mymrt := by
      unfold Finds
      rw [clearTimer_themrt, clearTimer_mrts]
      exact found
    refine ⟨kept.setMrt mymrt (fun _ => rfl) fun _ => rfl, { e with graftTimerId := 0 }, ?_, rfl⟩
    simp only [Daemon.setMrt]
    rw [clearTimer_mrts, Heap.get?_modify_same, here, Option.map_some]
  · exact ⟨found, e, here, not_not.mp unset⟩

/-- The cursor stays on the source, so further rounds find the slot empty. -/
theorem ackRounds_same {mydata next : Int} (named : load32 data (mydata + 4) = source)
    (valid : inetValidHost source = true) {mymrt : Ptr} (found : Finds s source group mymrt)
    (nonnull : mymrt ≠ 0) {e : Mrt} (here : s.mrts.get? mymrt = some e) (empty : e.graftTimerId = 0)
    {count : Nat} (run : Runs (times (graftAckSource data group) count mydata) s next s') : s' = s := by
  induction count with
  | zero => exact (runs_pure.mp run).2
  | succ count ih =>
      obtain ⟨cursor, round, first, more⟩ := runs_bind.mp run
      obtain ⟨other, again, ⟨null, _⟩ | ⟨_, moved, rfl, act⟩⟩ := eachSource_one named valid first
      · exact absurd ((found.unique again).trans null) nonnull
      obtain rfl := found.unique again
      obtain ⟨_, acked, ack, stay⟩ := runs_bind.mp act
      obtain ⟨rfl, rfl⟩ := runs_pure.mp stay
      obtain ⟨e', _, load, clearing⟩ := runs_bind.mp ack
      obtain ⟨same, rfl⟩ := runs_loadMrt.mp load
      obtain rfl := Option.some.inj (here.symm.trans same)
      rcases runs_onlyIf.mp clearing with ⟨set_, _⟩ | ⟨_, rfl⟩
      · exact absurd empty set_
      · rw [Int.add_zero] at more
        exact ih more

/-- A Graft-Ack that names one source stops the timer in the slot of its entry: its
count is read without a byte swap, and the cursor stays. -/
theorem receivePimGraftAck_one {src : Addr} {length : Int} (served : findVifDirect host src ≠ 0)
    (one : JoinsOne data source group) {mymrt : Ptr} (found : Finds s source group mymrt)
    (nonnull : mymrt ≠ 0) (run : Runs (receivePimGraftAck host src data length) s () s') :
    Runs (ackEntry mymrt) s () s' := by
  obtain ⟨_, first⟩ := runs_oneGroup one (runs_accepted served one run)
  have sources := runs_multicast one first
  have rounds : (htons 1).toInt.toNat = 255 + 1 := by decide
  rw [one.group_eq, one.joins, rounds] at sources
  obtain ⟨cursor, round, source_, more⟩ := runs_bind.mp sources
  obtain ⟨other, again, ⟨null, _⟩ | ⟨_, moved, rfl, act⟩⟩ :=
    eachSource_one one.source_eq one.valid source_
  · exact absurd ((found.unique again).trans null) nonnull
  obtain rfl := found.unique again
  obtain ⟨_, acked, ack, stay⟩ := runs_bind.mp act
  obtain ⟨rfl, rfl⟩ := runs_pure.mp stay
  obtain ⟨kept, e, here, empty⟩ := runs_ackEntry found ack
  rw [Int.add_zero] at more
  rw [ackRounds_same one.source_eq one.valid kept nonnull here empty more]
  exact ack

end PimDm.Refinement
