import PimDm.Foundation.Course
import PimDm.Refinement.Signals
import PimDm.Refinement.Stirring
import PimDm.Source.Reading

/-!
# Where the cursor of a receiver goes

A round of a loop moves the cursor by what it finds in the routing table, and what it
does to an entry it finds changes nothing the rounds after it look at.  So the reads
of a receiver are known from the packet and from the state it starts in.
-/

namespace PimDm.Refinement

open PimDm.Foundation PimDm.Source

variable {s s' : Daemon} {host : Host} {data : Memory} {first last : Int} {group : Addr} {mymrt : Ptr} {e : Mrt}

/-! ## What the rounds look at -/

/-- The link, the key and the counter of an entry. -/
def outline (e : Mrt) : Ptr × Addr × Addr × Int := (e.next, e.source, e.group, e.outnumber)

/-- The links, keys and counters of the routing table. -/
def shape (s : Daemon) : Ptr × Heap (Ptr × Addr × Addr × Int) := (s.themrt, s.mrts.map outline)

@[simp] theorem shape_clearTimer (s : Daemon) (timer : Int) : shape (s.clearTimer timer) = shape s := by
  unfold shape
  rw [clearTimer_themrt, clearTimer_mrts]

@[simp] theorem shape_setTimer (s : Daemon) (delay : Int) (action : Callback) :
    shape (s.setTimer delay action) = shape s := rfl

theorem shape_setMrt (s : Daemon) (mymrt : Ptr) {function : Mrt → Mrt}
    (kept : ∀ e, outline (function e) = outline e) : shape (s.setMrt mymrt function) = shape s := by
  unfold shape Daemon.setMrt
  rw [Heap.map_modify_same s.mrts mymrt kept]

/-- `find_sg` sees the shape of the table. -/
theorem sgOf_shape (s : Daemon) (source group : Addr) :
    sgOf s source group = (shape s).2.find Prod.fst (fun key => key.2.1 == source && key.2.2.1 == group)
      ((shape s).2.size + 1) (shape s).1 := by
  have found : (s.mrts.map outline).find Prod.fst (fun key => key.2.1 == source && key.2.2.1 == group)
      (s.mrts.size + 1) s.themrt = s.mrts.find Mrt.next (Mrt.isFor source group) (s.mrts.size + 1) s.themrt :=
    Heap.find_map (fun _ => rfl) (fun _ => rfl) _ _ _
  unfold sgOf shape
  rw [Heap.size_map, found]

theorem sgOf_congr (same : shape s' = shape s) (source group : Addr) : sgOf s' source group = sgOf s source group := by
  rw [sgOf_shape, sgOf_shape, same]

/-- What the table counts at an address. -/
def counterAt (s : Daemon) (mymrt : Ptr) : Int := ((s.mrts.get? mymrt).map fun e => e.outnumber).getD 0

theorem counterAt_congr (same : shape s' = shape s) (mymrt : Ptr) : counterAt s' mymrt = counterAt s mymrt := by
  have counted (state : Daemon) :
      counterAt state mymrt = (((shape state).2.get? mymrt).map fun key => key.2.2.2).getD 0 := by
    unfold counterAt shape
    rw [Heap.get?_map, Option.map_map]
    rfl
  rw [counted s', counted s, same]

/-! ## What a round does to an entry -/

theorem overheardJoin_ends (content : s.mrts.get? mymrt = some e) (all : Int) (source : Addr) :
    ∃ s', Runs (overheardJoin all source mymrt) s (all * sizeofSource) s' ∧ shape s' = shape s := by
  by_cases planned : e.joinDelayTimerId ≠ 0
  · refine ⟨(s.clearTimer e.joinDelayTimerId).setMrt mymrt fun e => { e with joinDelayTimerId := 0 }, ?_, ?_⟩
    · simp [overheardJoin, runs_onlyIf, content, planned]
    · rw [shape_setMrt, shape_clearTimer]
      intro e
      rfl
  · refine ⟨s, ?_, rfl⟩
    simp [overheardJoin, runs_onlyIf, content, not_not.mp planned]

theorem overheardPrune_ends (content : s.mrts.get? mymrt = some e) (upstream : Addr) (all : Int) (source : Addr) :
    ∃ s', Runs (overheardPrune upstream all source mymrt) s
      (if counterAt s mymrt ≠ 0 then sizeofSource else all * sizeofSource) s' ∧ shape s' = shape s := by
  have counter : counterAt s mymrt = e.outnumber := by
    rw [counterAt, content]
    rfl
  rw [counter]
  by_cases wanted : e.outnumber ≠ 0
  · by_cases remote : e.upstream ≠ e.source
    · refine ⟨(s.setTimer 1 (.sendJoin ⟨e.source, e.group, upstream⟩)).setMrt mymrt fun e =>
        { e with joinDelayTimerId := s.id + 1 }, ?_, ?_⟩
      · simp [overheardPrune, scheduleJoin, runs_ite, runs_onlyIf, content, wanted, remote, Daemon.setTimer]
      · rw [shape_setMrt, shape_setTimer]
        intro e
        rfl
    · refine ⟨s, ?_, rfl⟩
      simp [overheardPrune, runs_ite, runs_onlyIf, content, wanted, not_not.mp remote]
  · refine ⟨s, ?_, rfl⟩
    simp [overheardPrune, runs_ite, content, not_not.mp wanted]

theorem cancelPruneDelay_ends (content : s.mrts.get? mymrt = some e) (vif : Vif) :
    ∃ s', Runs (cancelPruneDelay mymrt vif) s () s' ∧ shape s' = shape s := by
  by_cases planned : e.pruneDelayTimerId vif ≠ 0
  · refine ⟨(s.clearTimer (e.pruneDelayTimerId vif)).setMrt mymrt (Mrt.setPruneDelayTimer vif 0), ?_, ?_⟩
    · simp [cancelPruneDelay, runs_onlyIf, content, planned]
    · rw [shape_setMrt, shape_clearTimer]
      intro e
      rfl
  · refine ⟨s, ?_, rfl⟩
    simp [cancelPruneDelay, runs_onlyIf, content, not_not.mp planned]

theorem addressedJoin_ends (content : s.mrts.get? mymrt = some e) (vif : Vif) (all : Int) (source : Addr) :
    ∃ s', Runs (addressedJoin vif all source mymrt) s (all * sizeofSource) s' ∧ shape s' = shape s := by
  obtain ⟨s', cancel, kept⟩ := cancelPruneDelay_ends content vif
  exact ⟨s', runs_bind.mpr ⟨(), s', cancel, runs_pure.mpr ⟨rfl, rfl⟩⟩, kept⟩

theorem schedulePrune_ends (content : s.mrts.get? mymrt = some e) (vif : Vif) (holdtime : Int) :
    ∃ s', Runs (schedulePrune mymrt vif holdtime) s () s' ∧ shape s' = shape s := by
  refine ⟨(s.setTimer pimPruneDelay (.setPrune ⟨e.source, e.group, e.upstream, vif, holdtime⟩)).setMrt mymrt
    (Mrt.setPruneDelayTimer vif (s.id + 1)), ?_, ?_⟩
  · simp [schedulePrune, content, Daemon.setTimer]
  · rw [shape_setMrt, shape_setTimer]
    intro e
    rfl

/-- Sending writes the header into the buffer and is seen. -/
theorem pimdmOutput_ends (s : Daemon) (src dst : Addr) (type : Nat) (length : Int) (entry : Ptr) :
    ∃ write sent, Runs (pimdmOutput src dst type length entry) s () ((s.writeBuf write).observe sent) :=
  ⟨_, _, runs_pimdmOutput.mpr rfl⟩

theorem addressedPrune_ends (content : s.mrts.get? mymrt = some e) (host : Host) (vif : Vif) (data : Memory)
    (length holdtime all : Int) (source : Addr) :
    ∃ s', Runs (addressedPrune host vif data length holdtime all source mymrt) s (all * sizeofSource) s' ∧
      shape s' = shape s := by
  by_cases remote : e.upstream ≠ e.source
  · obtain ⟨write, sent, send⟩ := pimdmOutput_ends (s.writeBuf fun buf => bcopy data buf 0 length.toNat)
      (host.iface vif).address allpimrouters pimJoinPrune (length - sizeofPim) 0
    have kept : (((s.writeBuf fun buf => bcopy data buf 0 length.toNat).writeBuf write).observe sent).mrts.get?
      mymrt = some e := content
    obtain ⟨s', schedule, same⟩ := schedulePrune_ends kept vif holdtime
    refine ⟨s', runs_bind.mpr ⟨e, s, runs_loadMrt.mpr ⟨content, rfl⟩, ?_⟩, same⟩
    refine runs_bind.mpr ⟨(), s', runs_onlyIf.mpr (Or.inl ⟨remote, ?_⟩), runs_pure.mpr ⟨rfl, rfl⟩⟩
    exact runs_bind.mpr ⟨(), _, runs_modify.mpr rfl, runs_bind.mpr ⟨(), _, send, schedule⟩⟩
  · refine ⟨s, runs_bind.mpr ⟨e, s, runs_loadMrt.mpr ⟨content, rfl⟩, ?_⟩, rfl⟩
    exact runs_bind.mpr ⟨(), s, runs_onlyIf.mpr (Or.inr ⟨remote, rfl⟩), runs_pure.mpr ⟨rfl, rfl⟩⟩

/-- What a search has found is an entry for the source and group. -/
theorem sgOf_entry {source : Addr} (found : sgOf s source group = .ok mymrt) (nonnull : mymrt ≠ 0) :
    ∃ e, s.mrts.get? mymrt = some e ∧ e.source = source ∧ e.group = group := by
  obtain ⟨e, content, named⟩ := Heap.find_holds found nonnull
  refine ⟨e, content, ?_⟩
  simpa [Mrt.isFor] using named

theorem changeMfc_ends {source : Addr} (found : sgOf s source group = .ok mymrt) (host : Host) (incoming : Vif) :
    ∃ s', Runs (changeMfc host source group incoming) s () s' ∧ shape s' = shape s := by
  by_cases null : mymrt = 0
  · refine ⟨s, runs_bind.mpr ⟨mymrt, s, runs_findMrt.mpr ⟨found, rfl⟩, ?_⟩, rfl⟩
    rw [if_pos null]
    exact runs_pure.mpr ⟨rfl, rfl⟩
  · obtain ⟨e, content, _⟩ := sgOf_entry found null
    refine ⟨s.setMfc source group (some (mfcOf host e.toRoute incoming)),
      runs_bind.mpr ⟨mymrt, s, runs_findMrt.mpr ⟨found, rfl⟩, ?_⟩, rfl⟩
    rw [if_neg null]
    exact runs_bind.mpr ⟨e, s, runs_loadMrt.mpr ⟨content, rfl⟩, runs_modify.mpr rfl⟩

theorem graftEntry_ends {source : Addr} (found : sgOf s source group = .ok mymrt) (nonnull : mymrt ≠ 0)
    (host : Host) (vif : Vif) : ∃ s', Runs (graftEntry host vif mymrt) s () s' ∧ shape s' = shape s := by
  obtain ⟨e, content, _⟩ := sgOf_entry found nonnull
  obtain ⟨middle, cancel, kept⟩ := cancelPruneDelay_ends content vif
  have again : sgOf middle source group = .ok mymrt := (sgOf_congr kept source group).trans found
  obtain ⟨e', content', rfl, rfl⟩ := sgOf_entry again nonnull
  by_cases pruned : e'.outvif vif = 0
  · have opened : shape (middle.setMrt mymrt (Mrt.putOutvif vif 1)) = shape middle := by
      rw [shape_setMrt]
      intro e
      rfl
    obtain ⟨s', change, same⟩ := changeMfc_ends ((sgOf_congr opened _ _).trans again) host e'.incoming
    refine ⟨s', ?_, same.trans (opened.trans kept)⟩
    refine runs_bind.mpr ⟨(), middle, cancel, runs_bind.mpr ⟨e', middle, runs_loadMrt.mpr ⟨content', rfl⟩, ?_⟩⟩
    refine runs_onlyIf.mpr (Or.inl ⟨pruned, runs_bind.mpr ⟨(), _, ?_, change⟩⟩)
    exact runs_storeMrt.mpr ⟨⟨e', content'⟩, rfl⟩
  · refine ⟨middle, ?_, kept⟩
    refine runs_bind.mpr ⟨(), middle, cancel, runs_bind.mpr ⟨e', middle, runs_loadMrt.mpr ⟨content', rfl⟩, ?_⟩⟩
    exact runs_onlyIf.mpr (Or.inr ⟨pruned, rfl⟩)

theorem ackEntry_ends (content : s.mrts.get? mymrt = some e) :
    ∃ s', Runs (ackEntry mymrt) s () s' ∧ shape s' = shape s := by
  by_cases waiting : e.graftTimerId ≠ 0
  · refine ⟨(s.clearTimer e.graftTimerId).setMrt mymrt fun e => { e with graftTimerId := 0 }, ?_, ?_⟩
    · simp [ackEntry, runs_onlyIf, content, waiting]
    · rw [shape_setMrt, shape_clearTimer]
      intro e
      rfl
  · refine ⟨s, ?_, rfl⟩
    simp [ackEntry, runs_onlyIf, content, not_not.mp waiting]

/-! ## The cursor -/

/-- The bytes at an offset, as many as `size` says, lie between two places. -/
def Between (first last offset size : Int) : Prop := first ≤ offset ∧ offset + size ≤ last

instance (first last offset size : Int) : Decidable (Between first last offset size) :=
  inferInstanceAs (Decidable (_ ∧ _))

/-- Where a round of a loop over sources leaves the cursor: 8 bytes further without an
entry, else where `moved` says; none where the search through the table ends badly. -/
def afterSource (s : Daemon) (data : Memory) (group : Addr) (moved : Ptr → Int) (mydata : Int) : Option Int :=
  if inetValidHost (load32 data (mydata + 4)) = false then some (mydata + sizeofSource)
  else
    match sgOf s (load32 data (mydata + 4)) group with
    | .error _ => none
    | .ok mymrt => some (mydata + if mymrt = 0 then sizeofSource else moved mymrt)

/-- A round of a loop over sources reads the 4 bytes of its address. -/
def sourceCourse (first last : Int) (s : Daemon) (data : Memory) (group : Addr) (moved : Ptr → Int) (mydata : Int) :
    Course Int :=
  (Course.access (Between first last (mydata + 4) 4)).andThen fun _ => ⟨True, afterSource s data group moved mydata⟩

instance (s : Daemon) (data : Memory) (group : Addr) (moved : Ptr → Int) (mydata : Int) :
    Decidable (sourceCourse first last s data group moved mydata).fits :=
  inferInstanceAs (Decidable (Course.andThen _ _).fits)

/-- In states of the shape of `s`, the action on an entry moves the cursor as said and
keeps the shape. -/
def Moves (s : Daemon) (group : Addr) (action : Addr → Ptr → Act Int) (moved : Ptr → Int) : Prop :=
  ∀ now source mymrt, shape now = shape s → sgOf now source group = .ok mymrt → mymrt ≠ 0 →
    ∃ s', Runs (action source mymrt) now (moved mymrt) s' ∧ shape s' = shape now

theorem findSg_fails {source : Addr} {fault : HeapFault} (found : sgOf s source group = .error fault) :
    Fails (findSg source group) s (.memory fault) := by
  have searched : Fails (liftHeap (sgOf s source group)) s (.memory fault) := by
    rw [found]
    rfl
  exact searched

theorem eachSource_takes {action : Addr → Ptr → Act Int} {moved : Ptr → Int} (moves : Moves s group action moved)
    (mydata : Int) :
    Takes Fault.outOfBounds (fun now => shape now = shape s) (fun now => shape now = shape s)
      (readingSource (between first last) (eachSource data group action) mydata)
      (readingSource freely (eachSource data group action) mydata)
      (sourceCourse first last s data group moved mydata) := by
  refine (Takes.guard (Between first last (mydata + 4) 4)).bind fun _ _ => .unguarded fun now same => ?_
  unfold eachSource afterSource
  by_cases invalid : inetValidHost (load32 data (mydata + 4)) = false
  · rw [if_pos invalid, if_pos invalid]
    exact Or.inr ⟨_, now, runs_pure.mpr ⟨rfl, rfl⟩, rfl, same⟩
  rw [if_neg invalid, if_neg invalid, ← sgOf_congr same]
  cases found : sgOf now (load32 data (mydata + 4)) group with
  | error fault =>
      exact Or.inl ⟨.memory fault, nofun, fails_bind.mpr (Or.inl (findSg_fails found)), rfl⟩
  | ok mymrt =>
      by_cases null : mymrt = 0
      · refine Or.inr ⟨mydata + sizeofSource, now, runs_bind.mpr ⟨mymrt, now, ?_, ?_⟩, ?_, same⟩
        · exact runs_findMrt.mpr ⟨found, rfl⟩
        · rw [if_pos null]
          exact runs_pure.mpr ⟨rfl, rfl⟩
        · simp only [if_pos null]
      · obtain ⟨s', acted, kept⟩ := moves now _ mymrt same found null
        refine Or.inr ⟨mydata + moved mymrt, s', runs_bind.mpr ⟨mymrt, now, ?_, ?_⟩, ?_, kept.trans same⟩
        · exact runs_findMrt.mpr ⟨found, rfl⟩
        · rw [if_neg null]
          exact runs_bind.mpr ⟨_, s', acted, runs_pure.mpr ⟨rfl, rfl⟩⟩
        · simp only [if_neg null]

/-- A Graft is acknowledged before its source is looked for, and keeps the cursor. -/
theorem graftSource_takes (host : Host) (vif : Vif) (src : Addr) (copied : Int) (mydata : Int) :
    Takes Fault.outOfBounds (fun now => shape now = shape s) (fun now => shape now = shape s)
      (readingSource (between first last) (graftSource host vif src data copied group) mydata)
      (readingSource freely (graftSource host vif src data copied group) mydata)
      (sourceCourse first last s data group (fun _ => 0) mydata) := by
  refine (Takes.guard (Between first last (mydata + 4) 4)).bind fun _ _ => .unguarded fun now same => ?_
  unfold graftSource afterSource
  by_cases invalid : inetValidHost (load32 data (mydata + 4)) = false
  · rw [if_pos invalid, if_pos invalid]
    exact Or.inr ⟨_, now, runs_pure.mpr ⟨rfl, rfl⟩, rfl, same⟩
  rw [if_neg invalid, if_neg invalid]
  obtain ⟨write, sent, send⟩ := pimdmOutput_ends (now.writeBuf fun buf => bcopy data buf 0 copied.toNat)
    (host.iface vif).address src pimGraftAck (copied - sizeofPim) 0
  have copy : Runs (writeSendBuf fun buf => bcopy data buf 0 copied.toNat) now ()
    (now.writeBuf fun buf => bcopy data buf 0 copied.toNat) := runs_modify.mpr rfl
  generalize acknowledged : ((now.writeBuf fun buf => bcopy data buf 0 copied.toNat).writeBuf write).observe sent =
    later at send
  have still : shape later = shape s := by
    rw [← acknowledged]
    exact same
  rw [← sgOf_congr still]
  cases found : sgOf later (load32 data (mydata + 4)) group with
  | error fault =>
      refine Or.inl ⟨.memory fault, nofun, fails_bind.mpr (Or.inr ⟨(), _, copy, ?_⟩), rfl⟩
      exact fails_bind.mpr (Or.inr ⟨(), later, send, fails_bind.mpr (Or.inl (findSg_fails found))⟩)
  | ok mymrt =>
      by_cases null : mymrt = 0
      · refine Or.inr ⟨mydata + sizeofSource, later, runs_bind.mpr ⟨(), _, copy, ?_⟩, ?_, still⟩
        · refine runs_bind.mpr ⟨(), later, send, runs_bind.mpr ⟨mymrt, later, ?_, ?_⟩⟩
          · exact runs_findMrt.mpr ⟨found, rfl⟩
          · rw [if_pos null]
            exact runs_pure.mpr ⟨rfl, rfl⟩
        · simp only [if_pos null]
      · obtain ⟨s', grafted, kept⟩ := graftEntry_ends found null host vif
        refine Or.inr ⟨mydata, s', runs_bind.mpr ⟨(), _, copy, ?_⟩, ?_, kept.trans still⟩
        · refine runs_bind.mpr ⟨(), later, send, runs_bind.mpr ⟨mymrt, later, ?_, ?_⟩⟩
          · exact runs_findMrt.mpr ⟨found, rfl⟩
          · rw [if_neg null]
            exact runs_bind.mpr ⟨(), s', grafted, runs_pure.mpr ⟨rfl, rfl⟩⟩
        · simp only [if_neg null, Int.add_zero]

end PimDm.Refinement
