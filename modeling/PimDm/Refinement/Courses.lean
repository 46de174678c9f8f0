import PimDm.Refinement.Cursor

/-!
# The courses of the receivers

What a receiver reads of a packet, group by group, from the counts in the packet and
the state it starts in.
-/

namespace PimDm.Refinement

open PimDm.Foundation PimDm.Source

variable {s s' : Daemon} {host : Host} {data : Memory} {first last length : Int} {src : Addr} {mymrt : Ptr} {e : Mrt}

/-! ## Groups -/

/-- A round of the loop over the groups of a Join/Prune: 12 bytes, then the joined and
the pruned sources. -/
def groupCourse (first last : Int) (s : Daemon) (data : Memory) (joinMoved pruneMoved : Int → Ptr → Int)
    (mydata : Int) : Course Int :=
  let header := readGroupHeader data mydata
  let joinNumber := (ntohs header.joinField).toNat
  let pruneNumber := (ntohs header.pruneField).toNat
  (Course.access (Between first last mydata 12)).andThen fun _ =>
    if inMulticast (ntohl header.group) = false then
      .value (mydata + 12 + (joinNumber + pruneNumber) * sizeofSource)
    else
      (Course.times (sourceCourse first last s data header.group (joinMoved (joinNumber + pruneNumber)))
        joinNumber (mydata + 12)).andThen
      (Course.times (sourceCourse first last s data header.group (pruneMoved (joinNumber + pruneNumber))) pruneNumber)

/-- A round of the loop over the groups of a Graft: 10 bytes, then the sources; the cursor
skips the place of one more source. -/
def graftGroupCourse (first last : Int) (s : Daemon) (data : Memory) (mydata : Int) : Course Int :=
  let header := readGroupHeader data mydata
  let joinNumber := (ntohs header.joinField).toNat
  (Course.access (Between first last mydata 10)).andThen fun _ =>
    if inMulticast (ntohl header.group) = false then .value (mydata + 12 + joinNumber * sizeofSource)
    else (Course.times (sourceCourse first last s data header.group fun _ => 0) joinNumber (mydata + 12)).andThen
      fun mydata => .value (mydata + sizeofSource)

/-- A round of the loop over the groups of a Graft-Ack, whose count is signed. -/
def graftAckGroupCourse (first last : Int) (s : Daemon) (data : Memory) (mydata : Int) : Course Int :=
  let header := readGroupHeader data mydata
  let joinNumber := header.joinField.toInt
  (Course.access (Between first last mydata 10)).andThen fun _ =>
    if inMulticast (ntohl header.group) = false then .value (mydata + 12 + joinNumber * sizeofSource)
    else Course.times (sourceCourse first last s data header.group fun _ => 0) joinNumber.toNat (mydata + 12)

instance (s : Daemon) (data : Memory) (joinMoved pruneMoved : Int → Ptr → Int) (mydata : Int) :
    Decidable (groupCourse first last s data joinMoved pruneMoved mydata).fits :=
  inferInstanceAs (Decidable (Course.andThen _ _).fits)

instance (s : Daemon) (data : Memory) (mydata : Int) : Decidable (graftGroupCourse first last s data mydata).fits :=
  inferInstanceAs (Decidable (Course.andThen _ _).fits)

instance (s : Daemon) (data : Memory) (mydata : Int) : Decidable (graftAckGroupCourse first last s data mydata).fits :=
  inferInstanceAs (Decidable (Course.andThen _ _).fits)

theorem readingGroup_takes {joinAction pruneAction : Int → Addr → Ptr → Act Int}
    {joinMoved pruneMoved : Int → Ptr → Int} (joins : ∀ group all, Moves s group (joinAction all) (joinMoved all))
    (prunes : ∀ group all, Moves s group (pruneAction all) (pruneMoved all)) (mydata : Int) :
    Takes Fault.outOfBounds (fun now => shape now = shape s) (fun now => shape now = shape s)
      (readingGroup (between first last) data joinAction pruneAction mydata)
      (readingGroup freely data joinAction pruneAction mydata)
      (groupCourse first last s data joinMoved pruneMoved mydata) := by
  refine (Takes.guard (Between first last mydata 12)).bind fun _ _ => .ite (fun _ => .pure _) fun _ => ?_
  refine (Takes.times (eachSource_takes (joins _ _)) _ _).bind fun _ _ => ?_
  exact Takes.times (eachSource_takes (prunes _ _)) _ _

theorem readingGraftGroup_takes (host : Host) (vif : Vif) (src : Addr) (copied : Int) (mydata : Int) :
    Takes Fault.outOfBounds (fun now => shape now = shape s) (fun now => shape now = shape s)
      (readingGraftGroup (between first last) host vif src data copied mydata)
      (readingGraftGroup freely host vif src data copied mydata)
      (graftGroupCourse first last s data mydata) := by
  refine (Takes.guard (Between first last mydata 10)).bind fun _ _ => .ite (fun _ => .pure _) fun _ => ?_
  exact (Takes.times (graftSource_takes host vif src copied) _ _).bind fun _ _ => .pure _

theorem readingGraftAckGroup_takes (mydata : Int) :
    Takes Fault.outOfBounds (fun now => shape now = shape s) (fun now => shape now = shape s)
      (readingGraftAckGroup (between first last) data mydata) (readingGraftAckGroup freely data mydata)
      (graftAckGroupCourse first last s data mydata) := by
  refine (Takes.guard (Between first last mydata 10)).bind fun _ _ => .ite (fun _ => .pure _) fun _ => ?_
  refine Takes.times (eachSource_takes fun now source mymrt same found nonnull => ?_) _ _
  obtain ⟨e, content, _⟩ := sgOf_entry found nonnull
  obtain ⟨s', acted, kept⟩ := ackEntry_ends content
  exact ⟨s', runs_bind.mpr ⟨(), s', acted, runs_pure.mpr ⟨rfl, rfl⟩⟩, kept⟩

/-! ## Receivers -/

/-- The search for a neighbour of an interface. -/
def neighborOf (s : Daemon) (vif : Vif) (address : Addr) : Except HeapFault Ptr :=
  s.neighbors.find PimNeighbor.next (fun entry => entry.address == address) (s.neighbors.size + 1)
    (s.myvifs vif).neighbor

/-- The course of a search, which makes no reads of the packet. -/
def searchCourse (found : Except HeapFault Ptr) : Course Ptr := ⟨True, found.toOption⟩

/-- How far a source with an entry moves the cursor where counts are added up. -/
def byAll (all : Int) (_ : Ptr) : Int := all * sizeofSource

/-- How far an overheard Prune of an entry moves the cursor. -/
def byCounter (s : Daemon) (all : Int) (mymrt : Ptr) : Int :=
  if counterAt s mymrt ≠ 0 then sizeofSource else all * sizeofSource

/-- The reads of `receive_join_prune`: the header, and the groups of a message that is
addressed to this router or to a neighbour. -/
def joinPruneCourse (first last : Int) (host : Host) (s : Daemon) (src : Addr) (data : Memory) : Course Unit :=
  let vif := findVifDirect host src
  let header := readJoinPruneHeader data
  (Course.access (Between first last (sizeofPim + 2) 8)).andThen fun _ =>
    if header.numGroups = 0 then .value ()
    else if header.upstream ≠ (host.iface vif).address ∧ header.upstream ≠ 0 then
      (searchCourse (neighborOf s vif header.upstream)).andThen fun neighbor =>
        if neighbor ≠ 0 then
          (Course.times (groupCourse first last s data byAll (byCounter s)) header.numGroups.toNat groupsStart).andThen
            fun _ => .value ()
        else .value ()
    else
      (Course.times (groupCourse first last s data byAll byAll) header.numGroups.toNat groupsStart).andThen
        fun _ => .value ()

/-- Preference and metric, if they are compared. -/
def metricsCourse (first last : Int) (compared : Prop) [Decidable compared] : Course Unit :=
  if compared then Course.access (Between first last (sizeofPim + 14) 8) else Course.value ()

/-- The reads of `receive_assert`: group and source, and the metrics where an entry is
compared with them. -/
def assertCourse (first last : Int) (host : Host) (s : Daemon) (src : Addr) (data : Memory) : Course Unit :=
  let vif := findVifDirect host src
  let body := readAssert data
  (Course.access (Between first last (sizeofPim + 4) 4)).andThen fun _ =>
    (Course.access (Between first last (sizeofPim + 10) 4)).andThen fun _ =>
      (searchCourse (sgOf s body.source body.group)).andThen fun mymrt =>
        if mymrt = 0 then .value ()
        else
          (⟨True, s.mrts.get? mymrt⟩ : Course Mrt).andThen fun e =>
            if vif = e.incoming then (metricsCourse first last (body.source ≠ e.upstream)).andThen fun _ => .value ()
            else (metricsCourse first last (e.outvif vif ≠ 0)).andThen fun _ => .value ()

/-- The reads of `receive_pim_graft` and `receive_pim_graft_ack`: the upstream address,
the number of groups, and the groups. -/
def graftsCourse (first last : Int) (data : Memory) (group : Int → Course Int) : Course Unit :=
  let header := readJoinPruneHeader data
  (Course.access (Between first last (sizeofPim + 2) 4)).andThen fun _ =>
    (Course.access (Between first last (sizeofPim + 7) 1)).andThen fun _ =>
      if header.numGroups = 0 then .value ()
      else (Course.times group header.numGroups.toNat groupsStart).andThen fun _ => .value ()

/-- The reads of the four receivers, of the bytes between two places. -/
def walkCourse (first last : Int) (host : Host) (s : Daemon) (src : Addr) (data : Memory) : PimMessage → Course Unit
  | .hello => .value ()
  | .joinPrune => joinPruneCourse first last host s src data
  | .assert => assertCourse first last host s src data
  | .graft => graftsCourse first last data (graftGroupCourse first last s data)
  | .graftAck => graftsCourse first last data (graftAckGroupCourse first last s data)

instance (found : Except HeapFault Ptr) : Decidable (searchCourse found).fits := isTrue trivial

instance (compared : Prop) [Decidable compared] : Decidable (metricsCourse first last compared).fits :=
  Course.decidableIte compared _ _

instance (host : Host) (s : Daemon) (src : Addr) (data : Memory) :
    Decidable (joinPruneCourse first last host s src data).fits :=
  inferInstanceAs (Decidable (Course.andThen _ _).fits)

instance (host : Host) (s : Daemon) (src : Addr) (data : Memory) :
    Decidable (assertCourse first last host s src data).fits :=
  inferInstanceAs (Decidable (Course.andThen _ _).fits)

instance (data : Memory) (group : Int → Course Int) [∀ mydata, Decidable (group mydata).fits] :
    Decidable (graftsCourse first last data group).fits :=
  inferInstanceAs (Decidable (Course.andThen _ _).fits)

instance (host : Host) (s : Daemon) (src : Addr) (data : Memory) :
    (type : PimMessage) → Decidable (walkCourse first last host s src data type).fits
  | .hello => isTrue trivial
  | .joinPrune => inferInstanceAs (Decidable (joinPruneCourse first last host s src data).fits)
  | .assert => inferInstanceAs (Decidable (assertCourse first last host s src data).fits)
  | .graft => inferInstanceAs (Decidable (graftsCourse first last data (graftGroupCourse first last s data)).fits)
  | .graftAck => inferInstanceAs (Decidable (graftsCourse first last data (graftAckGroupCourse first last s data)).fits)

/-- The reads of the four receivers, of the bytes of the packet. -/
def pimCourse (host : Host) (s : Daemon) (src : Addr) (data : Memory) (length : Int) : PimMessage → Course Unit :=
  walkCourse 0 length host s src data

instance (host : Host) (s : Daemon) (src : Addr) (data : Memory) (length : Int) (type : PimMessage) :
    Decidable (pimCourse host s src data length type).fits :=
  inferInstanceAs (Decidable (walkCourse 0 length host s src data type).fits)

theorem moves_overheardJoin (group : Addr) (all : Int) : Moves s group (overheardJoin all) (byAll all) := by
  intro now source mymrt _ found nonnull
  obtain ⟨e, content, _⟩ := sgOf_entry found nonnull
  exact overheardJoin_ends content all source

theorem moves_overheardPrune (upstream group : Addr) (all : Int) :
    Moves s group (overheardPrune upstream all) (byCounter s all) := by
  intro now source mymrt same found nonnull
  obtain ⟨e, content, _⟩ := sgOf_entry found nonnull
  unfold byCounter
  rw [← counterAt_congr same]
  exact overheardPrune_ends content upstream all source

theorem moves_addressedJoin (vif : Vif) (group : Addr) (all : Int) :
    Moves s group (addressedJoin vif all) (byAll all) := by
  intro now source mymrt _ found nonnull
  obtain ⟨e, content, _⟩ := sgOf_entry found nonnull
  exact addressedJoin_ends content vif all source

theorem moves_addressedPrune (vif : Vif) (copied holdtime : Int) (group : Addr) (all : Int) :
    Moves s group (addressedPrune host vif data copied holdtime all) (byAll all) := by
  intro now source mymrt _ found nonnull
  obtain ⟨e, content, _⟩ := sgOf_entry found nonnull
  exact addressedPrune_ends content host vif data copied holdtime all source

/-- A search takes the course of its result. -/
theorem search_takes {before : Daemon → Prop} {found : Except HeapFault Ptr} {program : Act Ptr}
    (searches : ∀ now, before now → program now = (liftHeap found : Act Ptr) now) :
    Takes Fault.outOfBounds before before program program (searchCourse found) := by
  refine .unguarded fun now holds => ?_
  cases found with
  | error fault => exact Or.inl ⟨.memory fault, nofun, searches now holds, rfl⟩
  | ok address => exact Or.inr ⟨address, now, searches now holds, rfl, holds⟩

theorem finish_takes {before : Daemon → Prop} {guarded plain : Act Int} {course : Course Int}
    (takes : Takes Fault.outOfBounds before before guarded plain course) :
    Takes Fault.outOfBounds before (fun _ => True) (guarded >>= fun _ => pure ()) (plain >>= fun _ => pure ())
      (course.andThen fun _ => .value ()) :=
  (takes.bind fun _ _ => .pure ()).mono (fun _ => id) fun _ _ => trivial

theorem findneighbor_takes {before : Daemon → Prop} (vif : Vif) (address : Addr)
    (known : ∀ now, before now → neighborOf now vif address = neighborOf s vif address) :
    Takes Fault.outOfBounds before before (findneighbor address vif) (findneighbor address vif)
      (searchCourse (neighborOf s vif address)) := by
  refine search_takes fun now holds => ?_
  rw [← known now holds]
  rfl

theorem readingJoinPrune_takes (host : Host) (s : Daemon) (src : Addr) (data : Memory) (length : Int) :
    Takes Fault.outOfBounds (fun now => now = s) (fun _ => True)
      (readingJoinPrune (between first last) host data length (findVifDirect host src))
      (readingJoinPrune freely host data length (findVifDirect host src))
      (joinPruneCourse first last host s src data) := by
  refine (Takes.guard (Between first last (sizeofPim + 2) 8)).bind fun _ _ => .ite (fun _ => ?_) fun _ => .ite ?_ ?_
  · exact (Takes.pure ()).mono (fun _ => id) fun _ _ => trivial
  · intro overheard
    refine (findneighbor_takes _ _ ?_).bind fun neighbor _ => .ite (fun _ => ?_) fun _ => ?_
    · rintro now rfl
      rfl
    · refine (finish_takes (Takes.times (readingGroup_takes ?_ ?_) _ _)).mono ?_ fun _ => id
      · exact moves_overheardJoin
      · exact moves_overheardPrune _
      · rintro now rfl
        rfl
    · exact (Takes.pure ()).mono (fun _ => id) fun _ _ => trivial
  · intro addressed
    refine (finish_takes (Takes.times (readingGroup_takes ?_ ?_) _ _)).mono ?_ fun _ => id
    · exact moves_addressedJoin _
    · exact moves_addressedPrune _ _ _
    · rintro now rfl
      rfl

/-- The program completes from this state. -/
def Completes (program : Act Unit) (s : Daemon) : Prop := ∃ s', Runs program s () s'

theorem completes_bind {α : Type} {first : Act α} {rest : α → Act Unit} (value : α)
    (ran : Runs first s value s') (last : Completes (rest value) s') : Completes (first >>= rest) s := by
  obtain ⟨final, run⟩ := last
  exact ⟨final, runs_bind.mpr ⟨value, s', ran, run⟩⟩

/-- A last program that completes. -/
theorem last_takes {before : Daemon → Prop} {program : Act Unit}
    (completes : ∀ now, before now → Completes program now) :
    Takes Fault.outOfBounds before (fun _ => True) program program (.value ()) := by
  refine .unguarded fun now holds => ?_
  obtain ⟨s', run⟩ := completes now holds
  exact Or.inr ⟨(), s', run, rfl, trivial⟩

theorem assertUpstream_completes (content : s.mrts.get? mymrt = some e) (body : AssertBody) :
    Completes (assertUpstream mymrt body) s := by
  refine completes_bind e (runs_loadMrt.mpr ⟨content, rfl⟩) ?_
  by_cases own : body.source = e.upstream
  · rw [if_pos own]
    exact ⟨s, runs_pure.mpr ⟨rfl, rfl⟩⟩
  rw [if_neg own]
  by_cases wins : assertCompare e.preference e.metric e.upstream body.preference body.metric body.source ≠ 1
  · exact ⟨_, runs_onlyIf.mpr (Or.inl ⟨wins, runs_storeMrt.mpr ⟨⟨e, content⟩, rfl⟩⟩)⟩
  · exact ⟨s, runs_onlyIf.mpr (Or.inr ⟨wins, rfl⟩)⟩

theorem assertDownstream_completes (content : s.mrts.get? mymrt = some e) (host : Host) (vif : Vif)
    (body : AssertBody) : Completes (assertDownstream host vif mymrt body) s := by
  refine completes_bind e (runs_loadMrt.mpr ⟨content, rfl⟩) ?_
  by_cases closed : e.outvif vif = 0
  · rw [if_pos closed]
    exact ⟨s, runs_pure.mpr ⟨rfl, rfl⟩⟩
  rw [if_neg closed]
  by_cases wins : assertCompare e.preference e.metric e.upstream body.preference body.metric body.source = 1
  · rw [if_pos wins]
    exact completes_bind () (runs_modify.mpr rfl) ⟨_, runs_pimdmOutput.mpr rfl⟩
  · rw [if_neg wins]
    exact completes_bind _ (runs_timerSetTimer.mpr ⟨rfl, rfl⟩) ⟨_, runs_storeMrt.mpr ⟨⟨e, content⟩, rfl⟩⟩

theorem metrics_takes {before : Daemon → Prop} (compared : Prop) [Decidable compared] :
    Takes Fault.outOfBounds before before (onlyIf compared (between first last (sizeofPim + 14) 8))
      (onlyIf compared (freely (sizeofPim + 14) 8)) (metricsCourse first last compared) :=
  .ite (fun _ => .guard _) fun _ => .pure ()

theorem readingAssert_takes (host : Host) (s : Daemon) (src : Addr) (data : Memory) :
    Takes Fault.outOfBounds (fun now => now = s) (fun _ => True)
      (readingAssert (between first last) host data (findVifDirect host src))
      (readingAssert freely host data (findVifDirect host src)) (assertCourse first last host s src data) := by
  refine (Takes.guard (Between first last (sizeofPim + 4) 4)).bind fun _ _ => ?_
  refine (Takes.guard (Between first last (sizeofPim + 10) 4)).bind fun _ _ => ?_
  have searched : Takes Fault.outOfBounds (fun now => now = s) (fun now => now = s)
      (findSg (readAssert data).source (readAssert data).group)
      (findSg (readAssert data).source (readAssert data).group)
      (searchCourse (sgOf s (readAssert data).source (readAssert data).group)) := by
    refine search_takes fun now here => ?_
    rw [here]
    rfl
  refine searched.bind fun mymrt _ => .ite (fun _ => ?_) fun _ => ?_
  · exact (Takes.pure ()).mono (fun _ => id) fun _ _ => trivial
  have loaded : Takes Fault.outOfBounds (fun now => now = s) (fun now => now = s) (loadMrt mymrt) (loadMrt mymrt)
      ⟨True, s.mrts.get? mymrt⟩ := by
    refine .unguarded fun now here => ?_
    rw [here]
    cases content : s.mrts.get? mymrt with
    | none =>
        have failed : Fails (loadMrt mymrt) s (.memory (if mymrt = 0 then .null else .wild)) := by
          have lifted : Fails (liftHeap (s.mrts.load mymrt)) s (.memory (if mymrt = 0 then .null else .wild)) := by
            rw [Heap.load, content]
            rfl
          exact lifted
        exact Or.inl ⟨.memory _, nofun, failed, rfl⟩
    | some e => exact Or.inr ⟨e, s, runs_loadMrt.mpr ⟨content, rfl⟩, rfl, rfl⟩
  refine loaded.bind fun e content => .ite (fun _ => ?_) fun _ => ?_
  · refine (metrics_takes _).bind fun _ _ => last_takes fun now here => ?_
    rw [here]
    exact assertUpstream_completes content _
  · refine (metrics_takes _).bind fun _ _ => last_takes fun now here => ?_
    rw [here]
    exact assertDownstream_completes content host _ _

theorem readingGrafts_takes {guarded plain : Int → Act Int} {group : Int → Course Int}
    (groups : ∀ mydata, Takes Fault.outOfBounds (fun now => shape now = shape s) (fun now => shape now = shape s)
      (guarded mydata) (plain mydata) (group mydata)) :
    Takes Fault.outOfBounds (fun now => now = s) (fun _ => True) (readingGrafts (between first last) data guarded)
      (readingGrafts freely data plain) (graftsCourse first last data group) := by
  refine (Takes.guard (Between first last (sizeofPim + 2) 4)).bind fun _ _ => ?_
  refine (Takes.guard (Between first last (sizeofPim + 7) 1)).bind fun _ _ => .ite (fun _ => ?_) fun _ => ?_
  · exact (Takes.pure ()).mono (fun _ => id) fun _ _ => trivial
  · refine (finish_takes (Takes.times groups _ _)).mono ?_ fun _ => id
    rintro now rfl
    rfl

/-! ## Whole receivers -/

/-- A correct packet of a station on one of our networks is read. -/
theorem ifAccepted_eq (direct : findVifDirect host src ≠ 0) (correct : inetCksum data length = 0)
    (body : Vif → Act Unit) : ifAccepted host src data length body s = body (findVifDirect host src) s := by
  have wrong : ¬ inetCksum data length ≠ 0 := not_not.mpr correct
  unfold ifAccepted validPacket
  simp only [if_neg direct, if_neg wrong, (findVifDirect_serves direct).active]
  rfl

theorem ifAccepted_takes (direct : findVifDirect host src ≠ 0) (correct : inetCksum data length = 0)
    {guarded plain : Vif → Act Unit} {course : Course Unit}
    (takes : Takes Fault.outOfBounds (fun now => now = s) (fun _ => True) (guarded (findVifDirect host src))
      (plain (findVifDirect host src)) course) :
    Takes Fault.outOfBounds (fun now => now = s) (fun _ => True) (ifAccepted host src data length guarded)
      (ifAccepted host src data length plain) course :=
  takes.congr (fun _ _ => ifAccepted_eq direct correct guarded) fun _ _ => ifAccepted_eq direct correct plain

/-- A receiver that walks a correct packet takes its course. -/
theorem readingPim_takes {type : PimMessage} (walks : type ≠ .hello) (direct : findVifDirect host src ≠ 0)
    (correct : inetCksum data length = 0) :
    Takes Fault.outOfBounds (fun now => now = s) (fun _ => True)
      (readingPim (between first last) host type src data length)
      (receivePim host type src data length) (walkCourse first last host s src data type) := by
  rw [← readingPim_freely]
  cases type with
  | hello => exact (walks rfl).elim
  | joinPrune => exact ifAccepted_takes direct correct (readingJoinPrune_takes host s src data length)
  | assert => exact ifAccepted_takes direct correct (readingAssert_takes host s src data)
  | graft =>
      rw [readingPim, readingPim]
      apply ifAccepted_takes direct correct
      exact readingGrafts_takes (readingGraftGroup_takes host _ src length)
  | graftAck =>
      rw [readingPim, readingPim]
      apply ifAccepted_takes direct correct
      exact readingGrafts_takes readingGraftAckGroup_takes

/-- The same for reads of the packet. -/
theorem readingPim_inside {type : PimMessage} (walks : type ≠ .hello) (direct : findVifDirect host src ≠ 0)
    (correct : inetCksum data length = 0) :
    Takes Fault.outOfBounds (fun now => now = s) (fun _ => True) (readingPim (inside length) host type src data length)
      (receivePim host type src data length) (pimCourse host s src data length type) :=
  readingPim_takes walks direct correct

/-! ## The options of a Hello -/

/-- The reads of `get_hold_time`: type and length of each option, and the value of the hold time. -/
def holdTimeCourse (first last : Int) (data : Memory) : Nat → Int → Int → Course Int
  | 0, _, _ => ⟨True, none⟩
  | fuel + 1, mydata, left =>
      if 0 ≤ left ∧ left < 4 then .value (-1)
      else (Course.access (Between first last mydata 4)).andThen fun _ =>
        if ntohs (load16 data mydata) = 1 then
          if (ntohs (load16 data (mydata + 2))).toNat ≠ 2 then .value (-1)
          else (Course.access (Between first last (mydata + 4) 2)).andThen fun _ =>
            .value (ntohs (load16 data (mydata + 4))).toNat
        else holdTimeCourse first last data fuel (mydata + 4 + (ntohs (load16 data (mydata + 2))).toNat)
          (left - 4 - (ntohs (load16 data (mydata + 2))).toNat)

instance decidableHoldTimeCourse (data : Memory) :
    (fuel : Nat) → (mydata left : Int) → Decidable (holdTimeCourse first last data fuel mydata left).fits
  | 0, _, _ => isTrue trivial
  | fuel + 1, _, left =>
      have := decidableHoldTimeCourse data fuel
      inferInstanceAs (Decidable (if 0 ≤ left ∧ left < 4 then Course.value (-1) else Course.andThen _ _).fits)

theorem readingHoldTimeLoop_takes (data : Memory) (fuel : Nat) (mydata left : Int) {before : Daemon → Prop} :
    Takes Fault.outOfBounds before before (readingHoldTimeLoop (between first last) data fuel mydata left)
      (readingHoldTimeLoop freely data fuel mydata left) (holdTimeCourse first last data fuel mydata left) := by
  induction fuel generalizing mydata left with
  | zero => exact .unguarded fun s _ => Or.inl ⟨.memory .wild, nofun, fails_throw.mpr rfl, rfl⟩
  | succ fuel ih =>
      refine .ite (fun _ => .pure _) fun _ => (Takes.guard (Between first last mydata 4)).bind fun _ _ => ?_
      refine .ite (fun _ => .ite (fun _ => .pure _) fun _ => ?_) fun _ => ih _ _
      exact (Takes.guard (Between first last (mydata + 4) 2)).bind fun _ _ => .pure _

/-- Each option is at least four bytes of what the reads have to stay in, so the fuel lasts. -/
theorem holdTimeCourse_found {fuel : Nat} (positive : 0 < fuel) {mydata left : Int} (ends : last < mydata + 4 * fuel)
    (fits : (holdTimeCourse first last data fuel mydata left).fits) :
    ∃ value, (holdTimeCourse first last data fuel mydata left).next = some value := by
  induction fuel generalizing mydata left with
  | zero => omega
  | succ fuel ih =>
      unfold holdTimeCourse at fits ⊢
      by_cases short : 0 ≤ left ∧ left < 4
      · rw [if_pos short]
        exact ⟨_, rfl⟩
      rw [if_neg short] at fits ⊢
      obtain ⟨⟨_, within⟩, later⟩ := fits
      have rest := later () rfl
      change ∃ value, (if ntohs (load16 data mydata) = 1 then _ else _ : Course Int).next = some value
      by_cases time : ntohs (load16 data mydata) = 1
      · rw [if_pos time]
        by_cases two : (ntohs (load16 data (mydata + 2))).toNat ≠ 2
        · rw [if_pos two]
          exact ⟨_, rfl⟩
        · rw [if_neg two]
          exact ⟨_, rfl⟩
      · rw [if_neg time] at rest ⊢
        exact ih (by omega) (by omega) rest

/-- A value that the options lead to is the one the parser returns. -/
theorem getHoldTimeLoop_of_course {fuel : Nat} {mydata left value : Int}
    (next : (holdTimeCourse first last data fuel mydata left).next = some value) :
    getHoldTimeLoop data fuel mydata left = .ok value := by
  have takes : Takes Fault.outOfBounds (fun now => now = Daemon.blank data) (fun now => now = Daemon.blank data)
      (readingHoldTimeLoop (between first last) data fuel mydata left) _
        (holdTimeCourse first last data fuel mydata left) :=
    readingHoldTimeLoop_takes data fuel mydata left
  rcases takes.ends _ rfl with ⟨_, _, _, none⟩ | ⟨result, _, run, found, _⟩
  · rw [next] at none
    cases none
  · rw [next] at found
    obtain rfl := Option.some.inj found
    rw [readingHoldTimeLoop_freely] at run
    exact (runs_liftHeap.mp run).1

end PimDm.Refinement
