import PimDm.Refinement.Decoding
import PimDm.Refinement.Keys

/-!
# The bodies of Graft and Graft-Ack

The receivers of both messages stay at the first joined source of a group that has an
entry, and go on from there: a Graft behind that source, a Graft-Ack in front of it.  The
groups they find so, and what they do to the entries.
-/

namespace PimDm.Refinement

open PimDm.Foundation PimDm.Source PimDm.Effect PimDm.Routing

variable {s s' now : Daemon} {host : Host} {data : Memory} {group source : Addr} {vif : Vif} {mymrt : Ptr} {e : Mrt}

/-! ## What the receivers look for -/

/-- The source can be looked up and has an entry for the group. -/
def known (s : Daemon) (group source : Addr) : Bool :=
  inetValidHost source && (foundSg s source group).isSome

/-- The entry of a known source. -/
def knownEntries (s : Daemon) (group source : Addr) : Set Ptr :=
  {mymrt | known s group source = true ∧ sgOf s source group = .ok mymrt}

/-- The first joined source of the group that is known. -/
def firstKnown (s : Daemon) (listed : ListedGroup) : Option Addr :=
  listed.joined.find? (known s listed.group)

/-- A round for a source ends at the next one, or where it has started if the source is known. -/
def stayAtKnown (s : Daemon) (data : Memory) (group : Addr) : Int → Int :=
  staying (fun mydata => load32 data (mydata + 4)) (fun mydata => mydata + sizeofSource) (known s group)

theorem models_finds (models : Models s (table s)) (source group : Addr) : ∃ mymrt, sgOf s source group = .ok mymrt :=
  ⟨_, (runs_findMrt.mp (models.runs_findSg.mpr ⟨rfl, rfl⟩)).1⟩

/-- The entry that a round for a source finds. -/
theorem known_cases (models : Models s (table s)) (group : Addr) (same : shape now = shape s)
    (valid : inetValidHost source = true) :
    (sgOf now source group = .ok 0 ∧ known s group source = false) ∨
      ∃ mymrt, mymrt ≠ 0 ∧ sgOf now source group = .ok mymrt ∧ known s group source = true ∧
        knownEntries s group source = {mymrt} := by
  obtain ⟨mymrt, found⟩ := models_finds models source group
  have here : sgOf now source group = .ok mymrt := (sgOf_congr same source group).trans found
  by_cases null : mymrt = 0
  · subst null
    refine Or.inl ⟨here, ?_⟩
    rw [known, foundSg_eq found]
    exact Bool.and_false _
  · obtain ⟨e, content, _⟩ := sgOf_entry found null
    have yes : known s group source = true := by
      rw [known, foundSg_eq found, content, valid]
      rfl
    refine Or.inr ⟨mymrt, null, here, yes, ?_⟩
    ext other
    constructor
    · rintro ⟨_, also⟩
      exact Except.ok.inj (also.symm.trans found)
    · rintro rfl
      exact ⟨yes, found⟩

/-! ## What they store -/

/-- A store to one record. -/
def Stores (function : Mrt → Mrt) (mymrt : Ptr) (s s' : Daemon) : Prop :=
  ∀ other, s'.mrts.get? other = if other = mymrt then (s.mrts.get? other).map function else s.mrts.get? other

theorem Stores.of_setMrt (timer : Int) (function : Mrt → Mrt) (mymrt : Ptr) :
    Stores function mymrt s ((s.clearTimer timer).setMrt mymrt function) := by
  intro other
  simp only [Daemon.setMrt, clearTimer_mrts]
  exact Heap.get?_modify _ _ _ _

/-- A store that leaves the record as it is. -/
theorem Stores.of_same {function : Mrt → Mrt} (content : s.mrts.get? mymrt = some e) (same : function e = e)
    (kept : s'.mrts = s.mrts) : Stores function mymrt s s' := by
  intro other
  rw [kept]
  by_cases here : other = mymrt
  · rw [if_pos here, here, content, Option.map_some, same]
  · rw [if_neg here]

/-- What a Graft makes of an entry on its interface. -/
def grafted (vif : Vif) (e : Mrt) : Mrt :=
  let e := e.setPruneDelayTimer vif 0
  if e.outvif vif = 0 then e.putOutvif vif 1 else e

/-- What a Graft-Ack makes of an entry. -/
def acknowledged (e : Mrt) : Mrt := { e with graftTimerId := 0 }

theorem setPruneDelayTimer_same (zero : e.pruneDelayTimerId vif = 0) : e.setPruneDelayTimer vif 0 = e := by
  unfold Mrt.setPruneDelayTimer
  rw [Function.update_eq_self_iff.mpr zero.symm]

theorem cancelPruneDelay_stores (content : s.mrts.get? mymrt = some e)
    (run : Runs (cancelPruneDelay mymrt vif) s () s') :
    Stores (Mrt.setPruneDelayTimer vif 0) mymrt s s' := by
  obtain ⟨_, _, load, cancel⟩ := runs_bind.mp run
  obtain ⟨read, rfl⟩ := runs_loadMrt.mp load
  obtain rfl := Option.some.inj (content.symm.trans read)
  rcases runs_onlyIf.mp cancel with ⟨_, stop⟩ | ⟨idle, rfl⟩
  · obtain ⟨_, _, clear, store⟩ := runs_bind.mp stop
    obtain rfl := runs_timerClearTimer.mp clear
    obtain ⟨_, rfl⟩ := runs_storeMrt.mp store
    exact .of_setMrt _ _ _
  · exact .of_same content (setPruneDelayTimer_same (not_not.mp idle)) rfl

theorem changeMfc_mrts {incoming : Vif} (run : Runs (changeMfc host source group incoming) s () s') :
    s'.mrts = s.mrts := by
  obtain ⟨mymrt, _, search, rest⟩ := runs_bind.mp run
  obtain ⟨_, rfl⟩ := runs_findMrt.mp search
  rcases runs_ite.mp rest with ⟨_, stop⟩ | ⟨_, load⟩
  · rw [(runs_pure.mp stop).2]
  · obtain ⟨e, _, read, store⟩ := runs_bind.mp load
    obtain ⟨_, rfl⟩ := runs_loadMrt.mp read
    rw [runs_modify.mp store]
    rfl

theorem graftEntry_stores (content : s.mrts.get? mymrt = some e) (run : Runs (graftEntry host vif mymrt) s () s') :
    Stores (grafted vif) mymrt s s' := by
  obtain ⟨_, middle, cancel, rest⟩ := runs_bind.mp run
  have unpruned := cancelPruneDelay_stores content cancel
  have here : middle.mrts.get? mymrt = some (e.setPruneDelayTimer vif 0) := by
    rw [unpruned, if_pos rfl, content]
    rfl
  obtain ⟨_, _, load, opening⟩ := runs_bind.mp rest
  obtain ⟨read, rfl⟩ := runs_loadMrt.mp load
  obtain rfl := Option.some.inj (here.symm.trans read)
  intro other
  rcases runs_onlyIf.mp opening with ⟨closed, opens⟩ | ⟨opened, rfl⟩
  · obtain ⟨_, _, store, change⟩ := runs_bind.mp opens
    obtain ⟨_, rfl⟩ := runs_storeMrt.mp store
    rw [changeMfc_mrts change]
    simp only [Daemon.setMrt]
    rw [Heap.get?_modify, unpruned]
    by_cases one : other = mymrt
    · subst one
      rw [if_pos rfl, if_pos rfl, if_pos rfl, content]
      simp only [Option.map_some, grafted, if_pos closed]
    · rw [if_neg one, if_neg one, if_neg one]
  · rw [unpruned]
    by_cases one : other = mymrt
    · subst one
      rw [if_pos rfl, if_pos rfl, content]
      simp only [Option.map_some, grafted, if_neg opened]
    · rw [if_neg one, if_neg one]

theorem ackEntry_stores (content : s.mrts.get? mymrt = some e) (run : Runs (ackEntry mymrt) s () s') :
    Stores acknowledged mymrt s s' ∧
      ((e.graftTimerId = 0 ∧ s' = s) ∨
        (e.graftTimerId ≠ 0 ∧ s' = (s.clearTimer e.graftTimerId).setMrt mymrt acknowledged)) := by
  obtain ⟨_, _, load, cancel⟩ := runs_bind.mp run
  obtain ⟨read, rfl⟩ := runs_loadMrt.mp load
  obtain rfl := Option.some.inj (content.symm.trans read)
  rcases runs_onlyIf.mp cancel with ⟨waiting, stop⟩ | ⟨idle, rfl⟩
  · obtain ⟨_, _, clear, store⟩ := runs_bind.mp stop
    obtain rfl := runs_timerClearTimer.mp clear
    obtain ⟨_, rfl⟩ := runs_storeMrt.mp store
    exact ⟨.of_setMrt _ _ _, Or.inr ⟨waiting, rfl⟩⟩
  · have zero := not_not.mp idle
    have same : acknowledged e = e := by
      unfold acknowledged
      rw [← zero]
    exact ⟨.of_same content same rfl, Or.inl ⟨zero, rfl⟩⟩

/-! ## What rounds do -/

/-- The records in `done` have been changed by `function`, and no others. -/
structure Marked (function : Mrt → Mrt) (s : Daemon) (done : Set Ptr) (now : Daemon) : Prop where
  same : shape now = shape s
  inside : ∀ other ∈ done, now.mrts.get? other = (s.mrts.get? other).map function
  outside : ∀ other ∉ done, now.mrts.get? other = s.mrts.get? other

theorem Marked.start (function : Mrt → Mrt) (s : Daemon) : Marked function s ∅ s :=
  ⟨rfl, fun _ member => member.elim, fun _ _ => rfl⟩

theorem Marked.stores {function : Mrt → Mrt} {done : Set Ptr} (marked : Marked function s done now)
    (twice : ∀ e, function (function e) = function e) (stores : Stores function mymrt now s')
    (kept : shape s' = shape now) : Marked function s (done ∪ {mymrt}) s' := by
  refine ⟨kept.trans marked.same, fun other member => ?_, fun other absent => ?_⟩
  · rw [stores]
    by_cases here : other = mymrt
    · rw [if_pos here]
      by_cases already : other ∈ done
      · rw [marked.inside other already, Option.map_map]
        exact congrArg (fun f => (s.mrts.get? other).map f) (funext twice)
      · rw [marked.outside other already]
    · rw [if_neg here]
      exact marked.inside other (member.resolve_right here)
  · obtain ⟨before, apart⟩ := not_or.mp absent
    have different : other ≠ mymrt := apart
    rw [stores, if_neg different]
    exact marked.outside other before

theorem grafted_unpruned (vif : Vif) (e : Mrt) : (grafted vif e).pruneDelayTimerId vif = 0 := by
  unfold grafted
  dsimp only
  split <;> simp [Mrt.setPruneDelayTimer, Mrt.putOutvif]

theorem grafted_opened_iff (vif : Vif) (e : Mrt) :
    (grafted vif e).outvif vif = 1 ↔ e.outvif vif = 0 ∨ e.outvif vif = 1 := by
  have same : (e.setPruneDelayTimer vif 0).outvif = e.outvif := rfl
  unfold grafted
  dsimp only
  rw [same]
  by_cases closed : e.outvif vif = 0
  · rw [if_pos closed]
    exact iff_of_true (Function.update_self ..) (Or.inl closed)
  · rw [if_neg closed, same]
    exact (or_iff_right closed).symm

theorem grafted_same_iff (vif : Vif) (e : Mrt) :
    grafted vif e = e ↔ e.outvif vif ≠ 0 ∧ e.pruneDelayTimerId vif = 0 := by
  constructor
  · intro same
    refine ⟨fun closed => ?_, ?_⟩
    · have opened := (grafted_opened_iff vif e).mpr (Or.inl closed)
      rw [same, closed] at opened
      exact absurd opened (by decide)
    · rw [← same]
      exact grafted_unpruned vif e
  · rintro ⟨opened, unpruned⟩
    unfold grafted
    rw [setPruneDelayTimer_same unpruned]
    exact if_neg opened

theorem grafted_twice (vif : Vif) (e : Mrt) : grafted vif (grafted vif e) = grafted vif e := by
  have opened : (grafted vif e).outvif vif ≠ 0 := by
    unfold grafted
    dsimp only
    split
    · simp [Mrt.putOutvif]
    · assumption
  exact (grafted_same_iff vif (grafted vif e)).mpr ⟨opened, grafted_unpruned vif e⟩

/-- A Graft-Ack has acted on the entries in `done`: their timers are stopped. -/
structure Acked (s : Daemon) (done : Set Ptr) (now : Daemon) : Prop extends Marked acknowledged s done now where
  orderly : Orderly now
  idle : now.expired = []
  stopped : ∀ other ∈ done, ∀ e, s.mrts.get? other = some e → e.graftTimerId ≠ 0 →
    ∀ entry ∈ alarms now, entry.1 ≠ e.graftTimerId

theorem Acked.entry {done : Set Ptr} (acked : Acked s done now) (content : now.mrts.get? mymrt = some e)
    (run : Runs (ackEntry mymrt) now () s') (kept : shape s' = shape now) : Acked s (done ∪ {mymrt}) s' := by
  obtain ⟨stores, moved⟩ := ackEntry_stores content run
  have changes : Changes .quiet Anything now s' := ackEntry_changes mymrt _ _ _ run
  have orderly := orderly_of_changes changes acked.orderly
  have marked := acked.toMarked.stores (fun _ => rfl) stores kept
  -- An entry that has been acted on has no timer any more.
  have unmarked : ∀ original, s.mrts.get? mymrt = some original → original.graftTimerId ≠ 0 →
      mymrt ∈ done ∨ original = e := by
    intro original before _
    by_cases already : mymrt ∈ done
    · exact Or.inl already
    · rw [acked.outside mymrt already, before] at content
      exact Or.inr (Option.some.inj content)
  rcases moved with ⟨zero, rfl⟩ | ⟨waiting, rfl⟩
  · refine ⟨marked, orderly, acked.idle, fun other member original before set => ?_⟩
    rcases member with already | rfl
    · exact acked.stopped other already original before set
    · rcases unmarked original before set with already | rfl
      · exact acked.stopped _ already original before set
      · exact absurd zero set
  · have cleared : ∀ entry, entry ∈ alarms ((now.clearTimer e.graftTimerId).setMrt mymrt acknowledged) ↔
        entry ∈ alarms now ∧ entry.1 ≠ e.graftTimerId :=
      mem_alarms_clearTimer acked.orderly acked.idle e.graftTimerId
    refine ⟨marked, orderly, ?_, fun other member original before set entry pending => ?_⟩
    · show (now.clearTimer e.graftTimerId).expired = []
      rw [clearTimer_expired, acked.idle]
    · obtain ⟨still, apart⟩ := (cleared entry).mp pending
      rcases member with already | rfl
      · exact acked.stopped other already original before set entry still
      · rcases unmarked original before set with already | rfl
        · exact acked.stopped _ already original before set entry still
        · exact apart

/-- The search of a round, and what it does with an entry. -/
theorem round_achieves {done : Set Ptr → Daemon → Prop} (models : Models s (table s))
    (shaped : ∀ before now, done before now → shape now = shape s) {act : Ptr → Act Unit} (mydata : Int)
    (valid : inetValidHost (load32 data (mydata + 4)) = true)
    (acts : ∀ before now mymrt, done before now → mymrt ≠ 0 → sgOf now (load32 data (mydata + 4)) group = .ok mymrt →
      ∃ s', Runs (act mymrt) now () s' ∧ done (before ∪ {mymrt}) s') (before : Set Ptr) :
    Achieves (done before) (do
        let mymrt ← findSg (load32 data (mydata + 4)) group
        if mymrt = 0 then pure (mydata + sizeofSource)
        else do
          act mymrt
          pure mydata) fun value now =>
      value = stayAtKnown s data group mydata ∧
        done (before ∪ knownEntries s group (load32 data (mydata + 4))) now := by
  intro now holds
  rcases known_cases models group (shaped before now holds) valid with ⟨none, unknown⟩ |
    ⟨mymrt, nonnull, found, yes, entries⟩
  · have nothing : knownEntries s group (load32 data (mydata + 4)) = ∅ := by
      ext mymrt
      simp [knownEntries, unknown]
    refine ⟨mydata + sizeofSource, now, runs_bind.mpr ⟨0, now, runs_findMrt.mpr ⟨none, rfl⟩, ?_⟩, ?_, ?_⟩
    · rw [if_pos rfl]
      exact runs_pure.mpr ⟨rfl, rfl⟩
    · exact (if_neg (by simp [unknown])).symm
    · rw [nothing, Set.union_empty]
      exact holds
  · obtain ⟨s', acted, left⟩ := acts before now mymrt holds nonnull found
    refine ⟨mydata, s', runs_bind.mpr ⟨mymrt, now, runs_findMrt.mpr ⟨found, rfl⟩, ?_⟩, ?_, ?_⟩
    · rw [if_neg nonnull]
      exact runs_bind.mpr ⟨(), s', acted, runs_pure.mpr ⟨rfl, rfl⟩⟩
    · exact (if_pos yes).symm
    · rw [entries]
      exact left

/-- A round for a source that is no host address. -/
theorem skipped_achieves {done : Set Ptr → Daemon → Prop} (mydata : Int)
    (invalid : inetValidHost (load32 data (mydata + 4)) = false) (before : Set Ptr) :
    Achieves (done before) (pure (mydata + sizeofSource) : Act Int) fun value now =>
      value = stayAtKnown s data group mydata ∧
        done (before ∪ knownEntries s group (load32 data (mydata + 4))) now := by
  have unknown : known s group (load32 data (mydata + 4)) = false := by
    rw [known, invalid, Bool.false_and]
  have nothing : knownEntries s group (load32 data (mydata + 4)) = ∅ := by
    ext mymrt
    simp [knownEntries, unknown]
  refine achieves_pure fun now holds => ⟨(if_neg (by simp [unknown])).symm, ?_⟩
  rw [nothing, Set.union_empty]
  exact holds

theorem graftSource_achieves (models : Models s (table s)) (host : Host) (vif : Vif) (src : Addr) (data : Memory)
    (copied : Int) (group : Addr) (mydata : Int) (before : Set Ptr) :
    Achieves (Marked (grafted vif) s before) (graftSource host vif src data copied group mydata) fun value now =>
      value = stayAtKnown s data group mydata ∧
        Marked (grafted vif) s (before ∪ knownEntries s group (load32 data (mydata + 4))) now := by
  unfold graftSource
  dsimp only
  cases valid : inetValidHost (load32 data (mydata + 4)) with
  | false =>
      rw [if_pos rfl]
      exact skipped_achieves mydata valid before
  | true =>
      rw [if_neg (by decide)]
      -- The Graft-Ack that is sent first changes no entry.
      have written : Achieves (Marked (grafted vif) s before)
          (writeSendBuf fun buf => bcopy data buf 0 copied.toNat) fun _ => Marked (grafted vif) s before :=
        achieves_modify fun _ marked => ⟨marked.same, marked.inside, marked.outside⟩
      have sent : Achieves (Marked (grafted vif) s before)
          (pimdmOutput (host.iface vif).address src pimGraftAck (copied - sizeofPim) 0)
          fun _ => Marked (grafted vif) s before :=
        fun _ marked => ⟨(), _, runs_pimdmOutput.mpr rfl, marked.same, marked.inside, marked.outside⟩
      refine achieves_bind written fun _ => achieves_bind sent fun _ => ?_
      refine round_achieves models (fun _ _ marked => marked.same) mydata valid ?_ before
      intro earlier now mymrt marked nonnull found
      obtain ⟨e, content, _⟩ := sgOf_entry found nonnull
      obtain ⟨s', run, kept⟩ := graftEntry_ends found nonnull host vif
      exact ⟨s', run, marked.stores (grafted_twice vif) (graftEntry_stores content run) kept⟩

theorem graftAckSource_achieves (models : Models s (table s)) (data : Memory) (group : Addr) (mydata : Int)
    (before : Set Ptr) :
    Achieves (Acked s before) (graftAckSource data group mydata) fun value now =>
      value = stayAtKnown s data group mydata ∧
        Acked s (before ∪ knownEntries s group (load32 data (mydata + 4))) now := by
  unfold graftAckSource eachSource
  simp only [bind_assoc, pure_bind, Int.add_zero]
  cases valid : inetValidHost (load32 data (mydata + 4)) with
  | false =>
      rw [if_pos rfl]
      exact skipped_achieves mydata valid before
  | true =>
      rw [if_neg (by decide)]
      refine round_achieves models (fun _ _ acked => acked.same) mydata valid ?_ before
      intro earlier now mymrt acked nonnull found
      obtain ⟨e, content, _⟩ := sgOf_entry found nonnull
      obtain ⟨s', run, kept⟩ := ackEntry_ends content
      exact ⟨s', run, acked.entry content run kept⟩

/-! ## What groups do -/

/-- The entry of the first known source, where the group is not skipped. -/
def actedOn (s : Daemon) (listed : ListedGroup) : Set Ptr :=
  {mymrt | inMulticast (ntohl listed.group) = true ∧
    ∃ source, firstKnown s listed = some source ∧ sgOf s source listed.group = .ok mymrt}

/-- The entry of the first known source among some that lie one after another. -/
def firstEntry (s : Daemon) (group : Addr) (sources : List Addr) : Set Ptr :=
  {mymrt | ∃ source, sources.find? (known s group) = some source ∧ sgOf s source group = .ok mymrt}

theorem rounds_entries (s : Daemon) (data : Memory) (group : Addr) (count : Nat) (mydata : Int) :
    {mymrt | ∃ source ∈ laidOut (fun mydata => load32 data (mydata + 4)) (stayAtKnown s data group) count mydata,
      mymrt ∈ knownEntries s group source} = firstEntry s group (sourcesAt data count mydata) := by
  have visited := laidOut_staying (fun mydata => load32 data (mydata + 4)) (fun mydata => mydata + sizeofSource)
    (known s group) count mydata
  ext mymrt
  constructor
  · rintro ⟨source, member, yes, found⟩
    rw [stayAtKnown, visited] at member
    exact ⟨source, mem_repeatFirst_iff.mp ⟨member, yes⟩, found⟩
  · rintro ⟨source, first, found⟩
    obtain ⟨member, yes⟩ := mem_repeatFirst_iff.mpr first
    refine ⟨source, ?_, yes, found⟩
    rw [stayAtKnown, visited]
    exact member

theorem rounds_end (s : Daemon) (data : Memory) (group : Addr) (count : Nat) (mydata : Int) :
    (stayAtKnown s data group)^[count] mydata =
      mydata + (sourcesAt data count mydata).findIdx (known s group) * sizeofSource := by
  rw [stayAtKnown, iterate_staying, afterSources]
  rfl

/-- The rounds for the sources of a group act on the first known one and end there. -/
theorem rounds_achieve {done : Set Ptr → Daemon → Prop} {round : Int → Act Int}
    (each : ∀ mydata before, Achieves (done before) (round mydata) fun value now =>
      value = stayAtKnown s data group mydata ∧ done (before ∪ knownEntries s group (load32 data (mydata + 4))) now)
    (count : Nat) (mydata : Int) (before : Set Ptr) :
    Achieves (done before) (times round count mydata) fun value now =>
      value = mydata + (sourcesAt data count mydata).findIdx (known s group) * sizeofSource ∧
        done (before ∪ firstEntry s group (sourcesAt data count mydata)) now := by
  refine (achieves_times each count mydata before).mono fun value now ended => ?_
  rw [rounds_end, rounds_entries] at ended
  exact ended

/-- A group that is skipped has no entry to act on. -/
theorem actedOn_unicast {listed : ListedGroup} (unicast : inMulticast (ntohl listed.group) = false) :
    actedOn s listed = ∅ := by
  ext mymrt
  simp [actedOn, unicast]

theorem actedOn_multicast {listed : ListedGroup} (multicast : inMulticast (ntohl listed.group) = true) :
    actedOn s listed = firstEntry s listed.group listed.joined := by
  ext mymrt
  simp [actedOn, firstEntry, firstKnown, multicast]

/-- Where `receive_pim_graft` looks for the next group. -/
def graftEnd (s : Daemon) (data : Memory) (mydata : Int) : Int :=
  let listed := groupAt data mydata
  if inMulticast (ntohl listed.group) = false then mydata + 12 + listed.joined.length * sizeofSource
  else mydata + 12 + (listed.joined.findIdx (known s listed.group) + 1) * sizeofSource

/-- The groups that `receive_pim_graft` finds. -/
def graftGroups (s : Daemon) (data : Memory) : List ListedGroup :=
  laidOut (groupAt data) (graftEnd s data) (readJoinPruneHeader data).numGroups.toNat groupsStart

theorem graftGroup_achieves (models : Models s (table s)) (host : Host) (vif : Vif) (src : Addr) (copied : Int)
    (mydata : Int) (before : Set Ptr) :
    Achieves (Marked (grafted vif) s before) (graftGroup host vif src data copied mydata) fun value now =>
      value = graftEnd s data mydata ∧ Marked (grafted vif) s (before ∪ actedOn s (groupAt data mydata)) now := by
  unfold graftGroup graftEnd
  dsimp only
  rw [← groupAt_joined]
  cases multicast : inMulticast (ntohl (readGroupHeader data mydata).group) with
  | false =>
      have unicast : inMulticast (ntohl (groupAt data mydata).group) = false := multicast
      rw [if_pos rfl, if_pos unicast, actedOn_unicast unicast]
      exact achieves_pure fun now marked => ⟨rfl, by rwa [Set.union_empty]⟩
  | true =>
      have group : inMulticast (ntohl (groupAt data mydata).group) = true := multicast
      have sources := rounds_achieve (graftSource_achieves models host vif src data copied (groupAt data mydata).group)
        (groupAt data mydata).joined.length (mydata + 12) before
      rw [if_neg (by decide), if_neg (by simp [group]), actedOn_multicast group]
      refine achieves_bind sources fun place => achieves_pure fun now reached => ?_
      rw [groupAt_joined] at reached
      refine ⟨?_, reached.2⟩
      rw [reached.1, Int.add_mul, Int.one_mul, Int.add_assoc]
      rfl

/-- What an accepted message with groups lets the receivers do. -/
theorem runs_acceptedGroups {α : Type} {src : Addr} {length : Int} {stop groups : Act α} {value : α}
    (direct : findVifDirect host src ≠ 0) (correct : inetCksum data length = 0)
    (empty : (readJoinPruneHeader data).numGroups = 0 → Runs stop s value s')
    (some : (readJoinPruneHeader data).numGroups ≠ 0 → Runs groups s value s') :
    Runs (if findVifDirect host src = 0 then stop else do
      let valid ← validPacket host src data length
      if valid = false ∨ (readJoinPruneHeader data).numGroups = 0 then stop else groups) s value s' := by
  refine runs_ite.mpr (Or.inr ⟨direct, runs_bind.mpr ⟨true, s, validPacket_accepts correct direct, runs_ite.mpr ?_⟩⟩)
  by_cases none : (readJoinPruneHeader data).numGroups = 0
  · exact Or.inl ⟨Or.inr none, empty none⟩
  · exact Or.inr ⟨by simp [none], some none⟩

/-- The entries that the first known sources of some groups have. -/
def actedEntries (s : Daemon) (groups : List ListedGroup) : Set Ptr :=
    {mymrt | ∃ listed ∈ groups, mymrt ∈ actedOn s listed}

/-- `receive_pim_graft` acts on the first known source of each group that it finds. -/
theorem receivePimGraft_marks (models : Models s (table s)) {src : Addr} {length : Int}
    (direct : findVifDirect host src ≠ 0) (correct : inetCksum data length = 0) :
    ∃ s', Runs (receivePimGraft host src data length) s () s' ∧
      Marked (grafted (findVifDirect host src)) s (actedEntries s (graftGroups s data)) s' := by
  obtain ⟨next, s', rounds, _, marked⟩ := achieves_times
    (graftGroup_achieves models host (findVifDirect host src) src length) (readJoinPruneHeader data).numGroups.toNat
    groupsStart ∅ s (.start _ s)
  rw [Set.empty_union] at marked
  refine ⟨s', runs_acceptedGroups direct correct (fun empty => ?_) fun _ => runs_forget.mpr ⟨next, rounds⟩, marked⟩
  rw [empty] at rounds
  exact runs_pure.mpr ⟨rfl, (runs_pure.mp rounds).2⟩

/-! ## Graft-Acks -/

/-- A group with the sources that `receive_pim_graft_ack` counts. -/
def ackAt (data : Memory) (mydata : Int) : ListedGroup :=
  { groupAt data mydata with
    joined := sourcesAt data (readGroupHeader data mydata).joinField.toInt.toNat (mydata + 12) }

/-- Where `receive_pim_graft_ack` looks for the next group. -/
def ackEnd (s : Daemon) (data : Memory) (mydata : Int) : Int :=
  let listed := ackAt data mydata
  if inMulticast (ntohl listed.group) = false then
    mydata + 12 + (readGroupHeader data mydata).joinField.toInt * sizeofSource
  else mydata + 12 + listed.joined.findIdx (known s listed.group) * sizeofSource

/-- The groups that `receive_pim_graft_ack` finds. -/
def ackGroups (s : Daemon) (data : Memory) : List ListedGroup :=
  laidOut (ackAt data) (ackEnd s data) (readJoinPruneHeader data).numGroups.toNat groupsStart

/-- The rounds that look at the sources of a group, one each. -/
def namedRounds (listed : ListedGroup) (sources : List Addr) : Rounds :=
  if inMulticast (ntohl listed.group) = false then [] else sources.map fun source => (listed.group, source)

/-- The rounds for a group stay at its first known source. -/
def ackRounds (s : Daemon) (listed : ListedGroup) : Rounds :=
  namedRounds listed (repeatFirst (known s listed.group) listed.joined)

theorem loggingAckSource_achieves (models : Models s (table s)) (data : Memory) (group : Addr) (cursor : Int × Rounds)
    (before : Set Ptr) :
    Achieves (Acked s before) (loggingAckSource data group cursor) fun value now =>
      value = noting (fun mydata => load32 data (mydata + 4)) (stayAtKnown s data group)
        (fun source => [(group, source)]) cursor ∧
        Acked s (before ∪ knownEntries s group (load32 data (cursor.1 + 4))) now := by
  refine achieves_bind (graftAckSource_achieves models data group cursor.1 before) fun mydata => ?_
  refine achieves_pure fun now reached => ⟨?_, reached.2⟩
  rw [reached.1]
  rfl

theorem loggingAckGroup_achieves (models : Models s (table s)) (data : Memory) (cursor : Int × Rounds)
    (before : Set Ptr) :
    Achieves (Acked s before) (loggingAckGroup data cursor) fun value now =>
      value = noting (ackAt data) (ackEnd s data) (ackRounds s) cursor ∧
        Acked s (before ∪ actedOn s (ackAt data cursor.1)) now := by
  obtain ⟨mydata, rounds⟩ := cursor
  unfold loggingAckGroup noting ackEnd ackRounds namedRounds
  dsimp only
  cases multicast : inMulticast (ntohl (readGroupHeader data mydata).group) with
  | false =>
      have unicast : inMulticast (ntohl (ackAt data mydata).group) = false := multicast
      rw [if_pos rfl, if_pos unicast, if_pos unicast, actedOn_unicast unicast]
      exact achieves_pure fun now acked => ⟨by rw [List.append_nil], by rwa [Set.union_empty]⟩
  | true =>
      have group : inMulticast (ntohl (ackAt data mydata).group) = true := multicast
      have counted := achieves_times_noting (loggingAckSource_achieves models data (ackAt data mydata).group)
        (readGroupHeader data mydata).joinField.toInt.toNat (mydata + 12) rounds before
      rw [if_neg (by decide), if_neg (by simp [group]), if_neg (by simp [group]), actedOn_multicast group]
      refine counted.mono fun value now reached => ?_
      rw [rounds_end, rounds_entries] at reached
      refine ⟨?_, reached.2⟩
      have visited : laidOut (fun mydata => load32 data (mydata + 4)) (stayAtKnown s data (ackAt data mydata).group)
          (readGroupHeader data mydata).joinField.toInt.toNat (mydata + 12) =
          repeatFirst (known s (ackAt data mydata).group) (ackAt data mydata).joined := laidOut_staying _ _ _ _ _
      rw [reached.1, visited, List.map_eq_flatMap]
      rfl

/-- `receive_pim_graft_ack` acts on the first known source of each group that it finds. -/
theorem loggingGraftAck_acked (models : Models s (table s)) (orderly : Orderly s) (idle : s.expired = []) {src : Addr}
    {length : Int} (direct : findVifDirect host src ≠ 0) (correct : inetCksum data length = 0) :
    ∃ s', Runs (loggingGraftAck host src data length) s ((ackGroups s data).flatMap (ackRounds s)) s' ∧
      Acked s (actedEntries s (ackGroups s data)) s' := by
  have untouched : Acked s ∅ s := ⟨.start _ s, orderly, idle, fun _ member => member.elim⟩
  obtain ⟨cursor, s', rounds, rfl, acked⟩ := achieves_times_noting (loggingAckGroup_achieves models data)
    (readJoinPruneHeader data).numGroups.toNat groupsStart [] ∅ s untouched
  rw [Set.empty_union] at acked
  refine ⟨s', runs_acceptedGroups direct correct (fun empty => ?_) fun _ => ?_, acked⟩
  · unfold ackGroups
    rw [empty] at rounds ⊢
    exact runs_pure.mpr ⟨rfl, (runs_pure.mp rounds).2⟩
  · refine runs_bind.mpr ⟨_, s', rounds, runs_pure.mpr ⟨?_, rfl⟩⟩
    exact (List.nil_append _).symm

/-- The same without the rounds. -/
theorem receivePimGraftAck_of_logging {src : Addr} {length : Int} {rounds : Rounds}
    (run : Runs (loggingGraftAck host src data length) s rounds s') :
      Runs (receivePimGraftAck host src data length) s () s' := by
  rw [← loggingGraftAck_erased]
  exact runs_forget.mpr ⟨rounds, run⟩

/-! ## The groups as they are listed -/

/-- The next group is looked for where it is laid out: nothing is pruned in a group that is
skipped, and else all of the sources are ahead of the first known one, but for itself. -/
def GraftInStep (s : Daemon) (listed : ListedGroup) : Prop :=
  if inMulticast (ntohl listed.group) = false then listed.pruned = []
  else listed.joined.findIdx (known s listed.group) + 1 = listed.size

instance (s : Daemon) (listed : ListedGroup) : Decidable (GraftInStep s listed) := by
  unfold GraftInStep
  infer_instance

theorem graftEnd_inStep {mydata : Int} (inStep : GraftInStep s (groupAt data mydata)) :
    graftEnd s data mydata = groupEnd data mydata := by
  unfold GraftInStep at inStep
  unfold graftEnd groupEnd
  dsimp only
  split at inStep
  · rename_i unicast
    rw [if_pos unicast, ListedGroup.size, inStep, List.length_nil, Nat.add_zero]
  · rename_i multicast
    rw [if_neg multicast, ← inStep]
    rfl

/-- A Graft whose groups but the last are in step is read as it is listed. -/
theorem graftGroups_inStep (few : groupCount data ≤ 127)
    (inStep : ∀ listed ∈ (decodeJoinPrune data).dropLast, GraftInStep s listed) :
    graftGroups s data = decodeJoinPrune data := by
  unfold graftGroups
  rw [numGroups_eq, if_pos few, Int.toNat_natCast]
  have all : ∀ listed ∈ decodeJoinPrune data, Function.const ListedGroup True listed := fun _ _ => trivial
  exact laidOut_congr (fun _ _ => rfl) (fun _ _ => graftEnd_inStep) _ _ all inStep

/-- The count of the joined sources is the same number in both byte orders, and not negative. -/
def CountedAlike (listed : ListedGroup) : Prop := 257 ∣ listed.joined.length ∧ listed.joined.length < 32768

instance (listed : ListedGroup) : Decidable (CountedAlike listed) := inferInstanceAs (Decidable (_ ∧ _))

theorem toNat_ntohs (word : BitVec 16) : (ntohs word).toNat = word.toNat % 256 * 256 + word.toNat / 256 := by
  have low : (word.extractLsb' 0 8).toNat = word.toNat % 256 := by simp [BitVec.extractLsb'_toNat]
  have high : (word.extractLsb' 8 8).toNat = word.toNat / 256 := by
    rw [BitVec.extractLsb'_toNat, Nat.shiftRight_eq_div_pow]
    omega
  have bound := word.isLt
  rw [ntohs, BitVec.toNat_append, low, high, ← Nat.shiftLeft_add_eq_or_of_lt (by omega), Nat.shiftLeft_eq]

theorem joinField_alike {mydata : Int} (alike : CountedAlike (groupAt data mydata)) :
    (readGroupHeader data mydata).joinField.toInt = (groupAt data mydata).joined.length := by
  obtain ⟨⟨factor, count⟩, small⟩ := alike
  rw [groupAt_joined, toNat_ntohs] at count small ⊢
  have bound := (readGroupHeader data mydata).joinField.isLt
  have few : factor < 128 := by omega
  have low : (readGroupHeader data mydata).joinField.toNat % 256 = factor := by omega
  have high : (readGroupHeader data mydata).joinField.toNat / 256 = factor := by omega
  rw [BitVec.toInt_eq_toNat_of_lt (by omega)]
  omega

theorem ackAt_alike {mydata : Int} (alike : CountedAlike (groupAt data mydata)) :
    ackAt data mydata = groupAt data mydata := by
  have count := joinField_alike alike
  unfold ackAt
  rw [count, Int.toNat_natCast, groupAt_joined]
  rfl

/-- The next group of a Graft-Ack is looked for where it is laid out: no source is pruned or known. -/
def AckInStep (s : Daemon) (listed : ListedGroup) : Prop :=
  listed.pruned = [] ∧ (inMulticast (ntohl listed.group) = true →
    ∀ source ∈ listed.joined, known s listed.group source = false)

instance (s : Daemon) (listed : ListedGroup) : Decidable (AckInStep s listed) :=
  inferInstanceAs (Decidable (_ ∧ _))

theorem ackEnd_inStep {mydata : Int} (alike : CountedAlike (groupAt data mydata))
    (inStep : AckInStep s (groupAt data mydata)) : ackEnd s data mydata = groupEnd data mydata := by
  obtain ⟨unpruned, unknown⟩ := inStep
  unfold ackEnd groupEnd
  dsimp only
  rw [ackAt_alike alike, joinField_alike alike, ListedGroup.size, unpruned, List.length_nil, Nat.add_zero]
  split
  · rfl
  · rename_i multicast
    have all : (groupAt data mydata).joined.findIdx (known s (groupAt data mydata).group) =
        (groupAt data mydata).joined.length := by
      refine List.findIdx_eq_length.mpr fun source member => ?_
      exact unknown (by simpa using multicast) source member
    rw [all]

/-- A Graft-Ack with counts that are the same in both byte orders, whose groups but the last
are in step, is read as it is listed. -/
theorem ackGroups_inStep (few : groupCount data ≤ 127) (alike : ∀ listed ∈ decodeJoinPrune data, CountedAlike listed)
    (inStep : ∀ listed ∈ (decodeJoinPrune data).dropLast, AckInStep s listed) :
    ackGroups s data = decodeJoinPrune data := by
  unfold ackGroups
  rw [numGroups_eq, if_pos few, Int.toNat_natCast]
  exact laidOut_congr (fun _ => ackAt_alike) (fun _ => ackEnd_inStep) _ _ alike inStep

end PimDm.Refinement
