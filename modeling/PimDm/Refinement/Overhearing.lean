import PimDm.Refinement.Echoes

/-!
# Overheard Joins and Prunes

`receive_join_prune` sets a timer of `send_join` for an overheard Prune, and clears the
one in the slot of the entry for an overheard Join.  No other event sets such a timer.
-/

namespace PimDm.Refinement

open PimDm.Foundation PimDm.Source PimDm.Effect

variable {s s' : Daemon} {host : Host} {source group src : Addr} {data : Memory} {length : Int} {event : Event}

/-! ## Delayed Joins -/

/-- The callback sends a Join for the source and group. -/
def isJoin (source group : Addr) : Callback → Bool
  | .sendJoin data => data.source == source && data.group == group
  | _ => false

/-- The callback sends no Join for the source and group. -/
def NotJoin (source group : Addr) (func : Callback) : Prop := isJoin source group func = false

theorem isJoin_iff {joindata : PimJoinData} :
    isJoin source group (.sendJoin joindata) = true ↔ joindata.source = source ∧ joindata.group = group := by
  rw [isJoin, Bool.and_eq_true, beq_iff_eq, beq_iff_eq]

/-! ## Events that set no Join -/

section Others

variable {A : Callback → Prop}

theorem callFunc_setsNoJoin (other : ∀ func, (∀ data, func ≠ .sendJoin data) → A func) {pktcnt : Int}
    (func : Callback) :
    Within (Changes .table A) (callFunc host pktcnt func) := by
  have graft : ∀ mymrt, A (.planGraft mymrt) := fun _ => other _ fun _ => Callback.noConfusion
  cases func with
  | timer => exact timer_changes (other _ fun _ => Callback.noConfusion)
  | pimHelloOutput data => exact pimHelloOutput_changes host data (other _ fun _ => Callback.noConfusion)
  | deletePimNeighbor entry => exact deletePimNeighbor_changes (by decide) graft host entry
  | sendJoin data => exact sendJoin_changes host data
  | pruneTimeOut data => exact pruneTimeOut_changes (by decide) graft host data
  | setPrune data => exact setPrune_changes (by decide) graft host data (other _ fun _ => Callback.noConfusion)
  | activeForward vif => exact activeForward_changes graft host
  | planGraft entry => exact planGraft_changes host (graft entry)
  | handleSgTimeout source group => exact handleSgTimeout_changes (by decide) source group
  | checkSg source group =>
      exact checkSg_changes (other _ fun _ => Callback.noConfusion) (other _ fun _ => Callback.noConfusion) pktcnt
  | sendQuery vif => exact startQuerying_changes (fun _ => other _ fun _ => Callback.noConfusion) host vif
  | retryQuery vif => exact startQuerying_changes (fun _ => other _ fun _ => Callback.noConfusion) host vif
  | leaveQuery vif group =>
      exact leaveQuery_changes (by decide) graft host (other _ fun _ => Callback.noConfusion)

/-- An event other than a Join/Prune sets timers of any function but `send_join`. -/
theorem handle_setsNoJoin (other : ∀ func, (∀ data, func ≠ .sendJoin data) → A func)
    (different : ∀ src data length, event ≠ .pimInput .joinPrune src data length)
    (run : Runs (handle host event) s () s') : Changes .table A s s' := by
  have graft : ∀ mymrt, A (.planGraft mymrt) := fun _ => other _ fun _ => Callback.noConfusion
  have leave : ∀ vif group, A (.leaveQuery vif group) := fun _ _ => other _ fun _ => Callback.noConfusion
  cases event with
  | multicastPacketError mydata checked routed =>
      exact multicastPacketError_changes (fun _ => Nat.le_refl _) (fun _ => graft)
        (fun _ => other _ fun _ => Callback.noConfusion) (fun _ _ _ => other _ fun _ => Callback.noConfusion) host
        checked routed s () s' run
  | acceptMembershipQuery src group =>
      exact acceptMembershipQuery_changes (fun _ => other _ fun _ => Callback.noConfusion) host
        (fun vif group _ => leave vif group) src group s () s' run
  | acceptGroupReport src group => exact acceptGroupReport_changes (by decide) graft host src group s () s' run
  | acceptLeaveMessage src group =>
      exact acceptLeaveMessage_changes host (fun vif group _ => leave vif group) src group s () s' run
  | pimInput type src data length =>
      cases type with
      | hello =>
          exact receiveHello_changes (by decide) graft (fun _ => other _ fun _ => Callback.noConfusion) host src data
            length s () s' run
      | joinPrune => exact absurd rfl (different src data length)
      | assert =>
          exact receiveAssert_changes (by decide) (fun _ => other _ fun _ => Callback.noConfusion) host src data length
            s () s' run
      | graft => exact receivePimGraft_changes (by decide) host src data length s () s' run
      | graftAck => exact receivePimGraftAck_changes host src data length s () s' run
  | age elapsedTime =>
      rw [runs_modify.mp run]
      exact .single ⟨.age elapsedTime, ⟨Level.quiet_le _, trivial⟩, rfl⟩
  | expire pktcnt =>
      rcases runs_expire run with ⟨_, rfl⟩ | ⟨func, _, call⟩
      · exact .refl
      · have first : Changes .table A s s.popExpired := .single ⟨.popExpired, ⟨Level.quiet_le _, trivial⟩, rfl⟩
        exact first.trans (callFunc_setsNoJoin other func s.popExpired () s' call)

theorem notJoin_other : ∀ func, (∀ data, func ≠ .sendJoin data) → NotJoin source group func := by
  intro func other
  cases func with
  | sendJoin data => exact absurd rfl (other data)
  | _ => rfl

end Others

/-! ## Join/Prune messages -/

/-- The message came from a router on an interface, and is for another router. -/
structure Overheard (host : Host) (src : Addr) (data : Memory) : Prop where
  direct : findVifDirect host src ≠ 0
  another : (readJoinPruneHeader data).upstream ≠ (host.iface (findVifDirect host src)).address
  given : (readJoinPruneHeader data).upstream ≠ 0

instance (host : Host) (src : Addr) (data : Memory) : Decidable (Overheard host src data) :=
  decidable_of_iff (findVifDirect host src ≠ 0 ∧
      (readJoinPruneHeader data).upstream ≠ (host.iface (findVifDirect host src)).address ∧
      (readJoinPruneHeader data).upstream ≠ 0)
    ⟨fun ⟨direct, another, given⟩ => ⟨direct, another, given⟩, fun ⟨direct, another, given⟩ => ⟨direct, another, given⟩⟩

/-- The body has one group with one source. -/
structure OneEach (data : Memory) : Prop where
  groups : (readJoinPruneHeader data).numGroups = 1
  sources : joinCount data + pruneCount data = 1

instance (data : Memory) : Decidable (OneEach data) :=
  decidable_of_iff ((readJoinPruneHeader data).numGroups = 1 ∧ joinCount data + pruneCount data = 1)
    ⟨fun ⟨groups, sources⟩ => ⟨groups, sources⟩, fun ⟨groups, sources⟩ => ⟨groups, sources⟩⟩

/-- `findneighbor` finds the router. -/
def Knows (s : Daemon) (vif : Vif) (address : Addr) : Prop :=
  (s.neighbors.find PimNeighbor.next (fun entry => entry.address == address) (s.neighbors.size + 1)
    (s.myvifs vif).neighbor).toOption.getD 0 ≠ 0

instance (s : Daemon) (vif : Vif) (address : Addr) : Decidable (Knows s vif address) :=
  inferInstanceAs (Decidable (_ ≠ _))

/-- The group and the source that the body names can be looked up. -/
def Usable (data : Memory) : Prop :=
  inMulticast (ntohl (namedGroup data)) = true ∧ inetValidHost (namedSource data) = true

/-- The entry that `find_sg` finds. -/
def foundSg (s : Daemon) (source group : Addr) : Option Mrt :=
  match s.mrts.find Mrt.next (Mrt.isFor source group) (s.mrts.size + 1) s.themrt with
  | .ok mymrt => s.mrts.get? mymrt
  | .error _ => none

theorem foundSg_eq {mymrt : Ptr} (found : Finds s source group mymrt) : foundSg s source group = s.mrts.get? mymrt := by
  unfold foundSg
  rw [found]

theorem slot_eq_map (timer : Mrt → Int) : slot timer s source group = (foundSg s source group).map timer := by
  unfold slot foundSg
  cases s.mrts.find Mrt.next (Mrt.isFor source group) (s.mrts.size + 1) s.themrt with
  | error fault => rfl
  | ok mymrt => rfl

theorem inTable_iff_foundSg : InTable s source group ↔ (foundSg s source group).isSome = true := by
  rw [InTable, slot_eq_map, Option.isSome_map]

theorem knows_iff {vif : Vif} {address : Addr} {neighbor : Ptr} (run : Runs (findneighbor address vif) s neighbor s') :
    s' = s ∧ (Knows s vif address ↔ neighbor ≠ 0) := by
  rw [findneighbor, runs_get_bind, runs_liftHeap] at run
  obtain ⟨found, rfl⟩ := run
  refine ⟨rfl, ?_⟩
  unfold Knows
  rw [found]
  exact Iff.rfl

/-- An overheard message of one group and one source is read if the router it is for is known. -/
theorem receiveJoinPrune_overheard (overheard : Overheard host src data) (one : OneEach data)
    (run : Runs (receiveJoinPrune host src data length) s () s') :
    (¬ Knows s (findVifDirect host src) (readJoinPruneHeader data).upstream ∧ s' = s) ∨
      (Knows s (findVifDirect host src) (readJoinPruneHeader data).upstream ∧ ∃ next,
        Runs (eachGroup data overheardJoin (overheardPrune
          (readJoinPruneHeader data).upstream) groupsStart) s next s') := by
  rcases runs_ite.mp run with ⟨none, _⟩ | ⟨_, checking⟩
  · exact absurd none overheard.direct
  obtain ⟨valid, _, check, reading⟩ := runs_bind.mp checking
  obtain ⟨rfl, _, accepted⟩ := runs_validPacket check
  rw [accepted.mpr overheard.direct] at reading
  rcases runs_ite.mp reading with ⟨empty, _⟩ | ⟨_, branches⟩
  · have zero := empty.resolve_left (by decide)
    rw [one.groups] at zero
    exact absurd zero (by decide)
  rcases runs_ite.mp branches with ⟨_, listening⟩ | ⟨ours, _⟩
  · obtain ⟨neighbor, _, search, acting⟩ := runs_bind.mp listening
    obtain ⟨rfl, known⟩ := knows_iff search
    rcases runs_onlyIf.mp acting with ⟨nonnull, groups⟩ | ⟨null, rfl⟩
    · obtain ⟨next, _, rounds, stop⟩ := runs_bind.mp groups
      obtain ⟨_, rfl⟩ := runs_pure.mp stop
      rw [one.groups] at rounds
      exact Or.inr ⟨known.mpr nonnull, next, runs_times_one.mp rounds⟩
    · exact Or.inl ⟨fun knows => null (known.mp knows), rfl⟩
  · exact absurd ⟨overheard.another, overheard.given⟩ ours

/-- A message that is not overheard sets no delayed Join. -/
theorem receiveJoinPrune_addressed {A : Callback → Prop} (other : ∀ func, (∀ data, func ≠ .sendJoin data) → A func)
    (addressed : ¬ Overheard host src data) (run : Runs (receiveJoinPrune host src data length) s () s') :
    Changes .quiet A s s' := by
  rcases runs_ite.mp run with ⟨_, stop⟩ | ⟨direct, checking⟩
  · rw [(runs_pure.mp stop).2]
    exact .refl
  obtain ⟨valid, _, check, reading⟩ := runs_bind.mp checking
  obtain ⟨rfl, _, _⟩ := runs_validPacket check
  rcases runs_ite.mp reading with ⟨_, stop⟩ | ⟨_, branches⟩
  · rw [(runs_pure.mp stop).2]
    exact .refl
  rcases runs_ite.mp branches with ⟨⟨another, given⟩, _⟩ | ⟨_, groups⟩
  · exact absurd ⟨direct, another, given⟩ addressed
  · obtain ⟨next, _, rounds, stop⟩ := runs_bind.mp groups
    obtain ⟨_, rfl⟩ := runs_pure.mp stop
    exact addressedGroups_changes (fun _ _ _ => other _ fun _ => Callback.noConfusion) length _ _ _ _ rounds

/-- The one source of a body is acted on if it is valid and has an entry. -/
theorem eachSource_named {action : Addr → Ptr → Act Int} {next : Int}
    (multicast : inMulticast (ntohl (namedGroup data)) = true)
    (round : Runs (eachSource data (namedGroup data) action (groupsStart + 12)) s next s') :
    (¬ (Usable data ∧ InTable s (namedSource data) (namedGroup data)) ∧ s' = s) ∨
      Usable data ∧ ∃ mymrt moved, Finds s (namedSource data) (namedGroup data) mymrt ∧ mymrt ≠ 0 ∧
        Runs (action (namedSource data) mymrt) s moved s' := by
  rcases runs_eachSource.mp round with
    ⟨invalid, _, same⟩ | ⟨valid, mymrt, found, ⟨null, _, same⟩ | ⟨nonnull, moved, acted, _⟩⟩
  · exact Or.inl ⟨fun both => absurd (both.1.2.symm.trans invalid) (by decide), same⟩
  · refine Or.inl ⟨fun both => ?_, same⟩
    obtain ⟨other, _, again, other_nonnull, _⟩ := both.2.found
    exact other_nonnull ((again.unique found).trans null)
  · exact Or.inr ⟨⟨multicast, valid⟩, mymrt, moved, found, nonnull, acted⟩

/-- What is done with a body of one group and one source. -/
theorem eachGroup_one {joinAction pruneAction : Int → Addr → Ptr → Act Int} {next : Int} (one : OneEach data)
    (run : Runs (eachGroup data joinAction pruneAction groupsStart) s next s') :
    (¬ (Usable data ∧ InTable s (namedSource data) (namedGroup data)) ∧ s' = s) ∨
      Usable data ∧ ∃ mymrt moved, Finds s (namedSource data) (namedGroup data) mymrt ∧ mymrt ≠ 0 ∧
        ((joinCount data = 1 ∧ Runs (joinAction 1 (namedSource data) mymrt) s moved s') ∨
          (pruneCount data = 1 ∧ Runs (pruneAction 1 (namedSource data) mymrt) s moved s')) := by
  unfold eachGroup at run
  rcases runs_ite.mp run with ⟨unicast, stop⟩ | ⟨multicast, sources⟩
  · refine Or.inl ⟨fun both => ?_, (runs_pure.mp stop).2⟩
    exact absurd (both.1.1.symm.trans unicast) (by decide)
  have multicast : inMulticast (ntohl (namedGroup data)) = true := Bool.eq_true_of_not_eq_false multicast
  obtain ⟨cursor, middle, joins, prunes⟩ := runs_bind.mp sources
  have joinNumber : (ntohs (readGroupHeader data groupsStart).joinField).toNat = joinCount data := rfl
  have pruneNumber : (ntohs (readGroupHeader data groupsStart).pruneField).toNat = pruneCount data := rfl
  have total := one.sources
  have all : (joinCount data : Int) + pruneCount data = 1 := by omega
  rw [joinNumber, pruneNumber, all] at joins prunes
  rcases Nat.eq_zero_or_pos (joinCount data) with none | some
  · have pruned : pruneCount data = 1 := by omega
    rw [none] at joins
    obtain ⟨rfl, rfl⟩ := runs_pure.mp joins
    rw [pruned] at prunes
    rcases eachSource_named multicast (runs_times_one.mp prunes) with idle |
      ⟨usable, mymrt, moved, found, nonnull, acted⟩
    · exact Or.inl idle
    · exact Or.inr ⟨usable, mymrt, moved, found, nonnull, Or.inr ⟨pruned, acted⟩⟩
  · have joined : joinCount data = 1 := by omega
    have pruned : pruneCount data = 0 := by omega
    rw [pruned] at prunes
    obtain ⟨rfl, rfl⟩ := runs_pure.mp prunes
    rw [joined] at joins
    rcases eachSource_named multicast (runs_times_one.mp joins) with idle |
      ⟨usable, mymrt, moved, found, nonnull, acted⟩
    · exact Or.inl idle
    · exact Or.inr ⟨usable, mymrt, moved, found, nonnull, Or.inl ⟨joined, acted⟩⟩

/-! ## The two actions -/

theorem overheardJoin_alarms (orderly : Orderly s) (idle : s.expired = []) {mymrt : Ptr} {e : Mrt} {all moved : Int}
    (here : s.mrts.get? mymrt = some e) (run : Runs (overheardJoin all source mymrt) s moved s') :
    s'.id = s.id ∧ ∀ entry, entry ∈ alarms s' ↔ entry ∈ alarms s ∧ entry.1 ≠ e.joinDelayTimerId := by
  obtain ⟨e', _, load, clearing⟩ := runs_bind.mp run
  obtain ⟨again, rfl⟩ := runs_loadMrt.mp load
  obtain rfl := Option.some.inj (here.symm.trans again)
  obtain ⟨_, _, act, stop⟩ := runs_bind.mp clearing
  obtain ⟨_, rfl⟩ := runs_pure.mp stop
  rcases runs_onlyIf.mp act with ⟨_, clear⟩ | ⟨unset, rfl⟩
  · obtain ⟨_, _, stopTimer, store⟩ := runs_bind.mp clear
    obtain rfl := runs_timerClearTimer.mp stopTimer
    obtain ⟨_, rfl⟩ := runs_storeMrt.mp store
    exact ⟨clearTimer_id _ _, mem_alarms_clearTimer orderly idle _⟩
  · refine ⟨rfl, fun entry => iff_self_and.mpr fun member same => unset ?_⟩
    intro zero
    have bounds := orderly.bounds entry member
    omega

theorem overheardPrune_alarms {mymrt : Ptr} {e : Mrt} {upstream : Addr} {all moved : Int}
    (here : s.mrts.get? mymrt = some e) (run : Runs (overheardPrune upstream all source mymrt) s moved s') :
    (s'.id = s.id ∧ alarms s' = alarms s) ∨
      e.outnumber ≠ 0 ∧ e.upstream ≠ e.source ∧ s'.id = s.id + 1 ∧
        ∀ entry, entry ∈ alarms s' ↔
          entry = (s.id + 1, .sendJoin ⟨e.source, e.group, upstream⟩) ∨ entry ∈ alarms s := by
  obtain ⟨e', loaded, load, deciding⟩ := runs_bind.mp run
  obtain ⟨again, rfl⟩ := runs_loadMrt.mp load
  obtain rfl := Option.some.inj (here.symm.trans again)
  rcases runs_ite.mp deciding with ⟨wanted, scheduling⟩ | ⟨_, stop⟩
  · obtain ⟨_, _, schedule, stop⟩ := runs_bind.mp scheduling
    obtain ⟨_, rfl⟩ := runs_pure.mp stop
    rcases runs_onlyIf.mp schedule with ⟨remote, plan⟩ | ⟨_, rfl⟩
    · obtain ⟨e', planned, reload, setting⟩ := runs_bind.mp plan
      obtain ⟨same, rfl⟩ := runs_loadMrt.mp reload
      obtain rfl := Option.some.inj (again.symm.trans same)
      obtain ⟨_, _, set, store⟩ := runs_bind.mp setting
      obtain ⟨rfl, rfl⟩ := runs_timerSetTimer.mp set
      obtain ⟨_, rfl⟩ := runs_storeMrt.mp store
      refine Or.inr ⟨wanted, remote, rfl, fun entry => ?_⟩
      have alike := alarms_setTimer planned 1 (.sendJoin ⟨e.source, e.group, upstream⟩)
      exact alike.mem_iff.trans List.mem_cons
    · exact Or.inl ⟨rfl, rfl⟩
  · rw [(runs_pure.mp stop).2]
    exact Or.inl ⟨rfl, rfl⟩

/-- What an overheard message of one group and one source does to the timers. -/
inductive Overhears (s : Daemon) (vif : Vif) (data : Memory) (s' : Daemon) : Prop where
  | ignored (unread : ¬ (Knows s vif (readJoinPruneHeader data).upstream ∧ Usable data ∧
        InTable s (namedSource data) (namedGroup data))) (same : s' = s)
  | joined {e : Mrt} (joins : joinCount data = 1) (found : foundSg s (namedSource data) (namedGroup data) = some e)
      (given : s'.id = s.id)
      (cleared : ∀ entry, entry ∈ alarms s' ↔ entry ∈ alarms s ∧ entry.1 ≠ e.joinDelayTimerId)
  | unwanted (prunes : pruneCount data = 1) (given : s'.id = s.id) (same : alarms s' = alarms s)
  | pruned {e : Mrt} (prunes : pruneCount data = 1)
      (known : Knows s vif (readJoinPruneHeader data).upstream) (usable : Usable data)
      (found : foundSg s (namedSource data) (namedGroup data) = some e) (wanted : e.outnumber ≠ 0)
      (remote : e.upstream ≠ e.source) (given : s'.id = s.id + 1)
      (set : ∀ entry, entry ∈ alarms s' ↔
        entry = (s.id + 1, .sendJoin ⟨namedSource data, namedGroup data, (readJoinPruneHeader data).upstream⟩) ∨
          entry ∈ alarms s)

theorem receiveJoinPrune_overhears (orderly : Orderly s) (idle : s.expired = []) (overheard : Overheard host src data)
    (one : OneEach data) (run : Runs (receiveJoinPrune host src data length) s () s') :
    Overhears s (findVifDirect host src) data s' := by
  rcases receiveJoinPrune_overheard overheard one run with ⟨unknown, same⟩ | ⟨known, next, reading⟩
  · exact .ignored (fun read => unknown read.1) same
  rcases eachGroup_one one reading with ⟨unread, same⟩ | ⟨usable, mymrt, moved, found, nonnull, acted⟩
  · exact .ignored (fun read => unread read.2) same
  obtain ⟨e, here, isFor⟩ := Heap.find_holds found nonnull
  have named : e.source = namedSource data ∧ e.group = namedGroup data := by
    simpa [Mrt.isFor] using isFor
  have entry : foundSg s (namedSource data) (namedGroup data) = some e := (foundSg_eq found).trans here
  rcases acted with ⟨joins, acted⟩ | ⟨prunes, acted⟩
  · obtain ⟨given, cleared⟩ := overheardJoin_alarms orderly idle here acted
    exact .joined joins entry given cleared
  · rcases overheardPrune_alarms here acted with ⟨given, same⟩ | ⟨wanted, remote, given, set⟩
    · exact .unwanted prunes given same
    · rw [named.1, named.2] at set
      exact .pruned prunes known usable entry wanted remote given set

/-- The only timer that is set calls `send_join` for what the message names. -/
theorem Overhears.sets {A : Callback → Prop} {vif : Vif} (hears : Overhears s vif data s')
    (join : A (.sendJoin ⟨namedSource data, namedGroup data, (readJoinPruneHeader data).upstream⟩)) : Sets A s s' := by
  cases hears with
  | ignored unread same =>
      rw [same]
      exact (steady_sets A).refl s
  | joined joins found given cleared =>
      exact ⟨Int.le_of_eq given.symm, fun entry member => Or.inl ((cleared entry).mp member).1⟩
  | unwanted prunes given same =>
      refine ⟨Int.le_of_eq given.symm, fun entry member => Or.inl ?_⟩
      rw [← same]
      exact member
  | pruned prunes known usable found wanted remote given set =>
      refine ⟨by omega, fun entry member => ?_⟩
      rcases (set entry).mp member with rfl | old
      · refine Or.inr ⟨?_, ?_, join⟩
        · exact Int.lt_succ s.id
        · exact Int.le_of_eq given.symm
      · exact Or.inl old

end PimDm.Refinement
