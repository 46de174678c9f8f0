import PimDm.Refinement.Grafts
import PimDm.Refinement.Steps
import PimDm.Property.Decoding

/-!
# Grafts and Graft-Acks with several sources

`receive_pim_graft` stays at the first source of a group that has an entry, and goes on
behind it.  `receive_pim_graft_ack` stays there too, goes on in front of it, and reads the
number of the sources in the byte order of the machine.
-/

namespace PimDm.Property

open PimDm.Foundation PimDm.Source PimDm.Effect PimDm.Routing PimDm.Refinement

variable {host : Host} {s s' : Daemon} {src source group : Addr} {data : Memory} {length : Int} {vif : Vif}
variable {e : Mrt} {groups : List ListedGroup}

/-- The message is correct and comes from an interface. -/
structure Received (host : Host) (src : Addr) (data : Memory) (length : Int) : Prop where
  direct : findVifDirect host src ≠ 0
  correct : inetCksum data length = 0

/-- A valid source that is joined in a multicast group. -/
def Names (groups : List ListedGroup) (source group : Addr) : Prop :=
  inMulticast (ntohl group) = true ∧ inetValidHost source = true ∧
    ∃ listed ∈ groups, listed.group = group ∧ source ∈ listed.joined

/-- The first source with an entry that is joined in a multicast group. -/
def StopsAt (s : Daemon) (groups : List ListedGroup) (source group : Addr) : Prop :=
  inMulticast (ntohl group) = true ∧ ∃ listed ∈ groups, listed.group = group ∧ firstKnown s listed = some source

instance (groups : List ListedGroup) (source group : Addr) : Decidable (Names groups source group) :=
  inferInstanceAs (Decidable (_ ∧ _ ∧ ∃ listed ∈ groups, _))

instance (s : Daemon) (groups : List ListedGroup) (source group : Addr) : Decidable (StopsAt s groups source group) :=
  inferInstanceAs (Decidable (_ ∧ ∃ listed ∈ groups, _))

/-- The entries that `find_sg` finds. -/
def sgEntries (s : Daemon) : List Mrt := (table s).entries.filterMap fun item => foundSg s item.2.source item.2.group

/-! ## What should happen -/

/-- The sources that a Graft lists are forwarded, and no other entry has changed. -/
structure GraftsListed (vif : Vif) (groups : List ListedGroup) (s s' : Daemon) : Prop where
  opened : ∀ source group e, Names groups source group → foundSg s' source group = some e →
    e.outvif vif = 1 ∧ e.pruneDelayTimerId vif = 0
  spared : ∀ mymrt e, s.mrts.get? mymrt = some e → ¬ Names groups e.source e.group → s'.mrts.get? mymrt = some e

/-- The Grafts for the sources that a Graft-Ack lists are over, and no other entry has changed. -/
structure AcksListed (groups : List ListedGroup) (s s' : Daemon) : Prop where
  settled : ∀ source group e, Names groups source group → foundSg s source group = some e →
    (∀ e', foundSg s' source group = some e' → e'.graftTimerId = 0) ∧
      (e.graftTimerId ≠ 0 → ∀ entry ∈ alarms s', entry.1 ≠ e.graftTimerId)
  spared : ∀ mymrt e, s.mrts.get? mymrt = some e → ¬ Names groups e.source e.group → s'.mrts.get? mymrt = some e

/-- One inner round for each source that is listed. -/
def listedRounds (groups : List ListedGroup) : Rounds := groups.flatMap fun listed => namedRounds listed listed.joined

def GraftDecoded (host : Host) (s : Daemon) (src : Addr) (data : Memory) (length : Int) : Prop :=
  ∃ s', Runs (receivePimGraft host src data length) s () s' ∧
    GraftsListed (findVifDirect host src) (decodeJoinPrune data) s s'

def AckDecoded (host : Host) (s : Daemon) (src : Addr) (data : Memory) (length : Int) : Prop :=
  ∃ s', Runs (receivePimGraftAck host src data length) s () s' ∧ AcksListed (decodeJoinPrune data) s s' ∧
    Runs (loggingGraftAck host src data length) s (listedRounds (decodeJoinPrune data)) s'

/-! ## When it does -/

/-- Each listed entry is the first one of a group that is read, or as it should be; and each
first one that is not listed stays as it is. -/
def GraftFits (s : Daemon) (vif : Vif) (groups read : List ListedGroup) : Prop :=
  ∀ e ∈ sgEntries s,
    if Names groups e.source e.group then
      if StopsAt s read e.source e.group then e.outvif vif = 0 ∨ e.outvif vif = 1
      else e.outvif vif = 1 ∧ e.pruneDelayTimerId vif = 0
    else StopsAt s read e.source e.group → e.outvif vif ≠ 0 ∧ e.pruneDelayTimerId vif = 0

/-- The rounds look at the listed sources, and the first entries of the groups that are read
are the listed ones, as far as a Graft is on its way for them. -/
def AckFits (s : Daemon) (groups read : List ListedGroup) : Prop :=
  read.flatMap (ackRounds s) = listedRounds groups ∧
    ∀ e ∈ sgEntries s, e.graftTimerId ≠ 0 → (Names groups e.source e.group ↔ StopsAt s read e.source e.group)

instance (s : Daemon) (vif : Vif) (groups read : List ListedGroup) : Decidable (GraftFits s vif groups read) :=
  inferInstanceAs (Decidable (∀ e ∈ sgEntries s, _))

instance (s : Daemon) (groups read : List ListedGroup) : Decidable (AckFits s groups read) :=
  inferInstanceAs (Decidable (_ ∧ ∀ e ∈ sgEntries s, _))

/-- At most 127 groups, all in step but for the last. -/
def GraftKeepsStep (s : Daemon) (data : Memory) : Prop :=
  groupCount data ≤ 127 ∧ ∀ listed ∈ (decodeJoinPrune data).dropLast, GraftInStep s listed

/-- The same, with counts that do not depend on the byte order. -/
def AckKeepsStep (s : Daemon) (data : Memory) : Prop :=
  groupCount data ≤ 127 ∧ (∀ listed ∈ decodeJoinPrune data, CountedAlike listed) ∧
    ∀ listed ∈ (decodeJoinPrune data).dropLast, AckInStep s listed

/-! ## Entries -/

theorem foundSg_entry (found : foundSg s source group = some e) :
    ∃ mymrt, sgOf s source group = .ok mymrt ∧ s.mrts.get? mymrt = some e ∧ e.source = source ∧ e.group = group := by
  cases search : sgOf s source group with
  | error fault =>
      unfold sgOf at search
      rw [foundSg, search] at found
      cases found
  | ok mymrt =>
      rw [foundSg_eq search] at found
      have nonnull : mymrt ≠ 0 := by
        rintro rfl
        cases found
      obtain ⟨e', content, named⟩ := sgOf_entry search nonnull
      obtain rfl := Option.some.inj (found.symm.trans content)
      exact ⟨mymrt, rfl, found, named⟩

theorem mem_sgEntries (member : e ∈ sgEntries s) : foundSg s e.source e.group = some e := by
  obtain ⟨item, _, found⟩ := List.mem_filterMap.mp member
  obtain ⟨_, _, _, source, group⟩ := foundSg_entry found
  rw [source, group]
  exact found

theorem sgEntries_of_found (models : Models s (table s)) (found : foundSg s source group = some e) :
    e ∈ sgEntries s := by
  obtain ⟨mymrt, search, content, rfl, rfl⟩ := foundSg_entry found
  have named := (models.runs_findSg.mp (runs_findMrt.mpr ⟨search, rfl⟩)).1
  cases first : (table s).find (routeIsFor e.source e.group) with
  | none =>
      rw [first] at named
      subst named
      cases content
  | some item =>
      obtain ⟨member, _, _, e', here, route⟩ := models.entry_of_find first
      rw [first] at named
      obtain rfl : mymrt = item.1 := named
      obtain rfl := Option.some.inj (content.symm.trans here)
      refine List.mem_filterMap.mpr ⟨item, member, ?_⟩
      rw [← route]
      exact found

theorem foundSg_congr (same : shape s' = shape s) {mymrt : Ptr} (found : sgOf s source group = .ok mymrt) :
    foundSg s' source group = s'.mrts.get? mymrt :=
  foundSg_eq ((sgOf_congr same source group).trans found)

theorem mem_actedEntries_iff {mymrt : Ptr} (found : sgOf s source group = .ok mymrt)
    (content : s.mrts.get? mymrt = some e) : mymrt ∈ actedEntries s groups ↔ StopsAt s groups source group := by
  have nonnull : mymrt ≠ 0 := by
    rintro rfl
    cases content
  obtain ⟨_, here, rfl, rfl⟩ := sgOf_entry found nonnull
  constructor
  · rintro ⟨listed, member, multicast, first, named, search⟩
    obtain ⟨_, also, rfl, same⟩ := sgOf_entry search nonnull
    obtain rfl := Option.some.inj (here.symm.trans also)
    rw [← same] at multicast
    exact ⟨multicast, listed, member, same.symm, named⟩
  · rintro ⟨multicast, listed, member, same, named⟩
    refine ⟨listed, member, ?_, _, named, ?_⟩
    · rw [same]
      exact multicast
    · rw [same]
      exact found

/-! ## Grafts -/

/-- What the receiver has made of an entry that `find_sg` finds. -/
theorem marked_found {function : Mrt → Mrt} (marked : Marked function s (actedEntries s groups) s')
    (member : e ∈ sgEntries s) : foundSg s' e.source e.group =
      some (if StopsAt s groups e.source e.group then function e else e) := by
  obtain ⟨mymrt, found, content, _⟩ := foundSg_entry (mem_sgEntries member)
  rw [foundSg_congr marked.same found]
  split
  · rename_i stops
    rw [marked.inside mymrt ((mem_actedEntries_iff found content).mpr stops), content]
    rfl
  · rename_i passes
    rw [marked.outside mymrt (fun inside => passes ((mem_actedEntries_iff found content).mp inside)), content]

/-- An entry that is there afterwards was there before. -/
theorem entry_of_after (models : Models s (table s)) (same : shape s' = shape s)
    (found : foundSg s' source group = some e) : ∃ e₀ ∈ sgEntries s, e₀.source = source ∧ e₀.group = group := by
  obtain ⟨mymrt, search, content, _⟩ := foundSg_entry found
  have before : sgOf s source group = .ok mymrt := (sgOf_congr same source group).symm.trans search
  have nonnull : mymrt ≠ 0 := by
    rintro rfl
    cases content
  obtain ⟨e₀, here, named⟩ := sgOf_entry before nonnull
  exact ⟨e₀, sgEntries_of_found models ((foundSg_eq before).trans here), named⟩

/-- A record that has been acted on is one that `find_sg` finds. -/
theorem entry_of_acted {mymrt : Ptr} (content : s.mrts.get? mymrt = some e) (acted : mymrt ∈ actedEntries s groups)
    (models : Models s (table s)) : e ∈ sgEntries s ∧ StopsAt s groups e.source e.group := by
  have nonnull : mymrt ≠ 0 := by
    rintro rfl
    cases content
  obtain ⟨source, group, found⟩ : ∃ source group, sgOf s source group = .ok mymrt := by
    obtain ⟨listed, _, _, source, _, found⟩ := acted
    exact ⟨source, listed.group, found⟩
  obtain ⟨e', here, rfl, rfl⟩ := sgOf_entry found nonnull
  obtain rfl := Option.some.inj (content.symm.trans here)
  exact ⟨sgEntries_of_found models ((foundSg_eq found).trans content), (mem_actedEntries_iff found content).mp acted⟩

theorem graft_decoded_iff (models : Models s (table s)) (received : Received host src data length) :
    GraftDecoded host s src data length ↔
      GraftFits s (findVifDirect host src) (decodeJoinPrune data) (graftGroups s data) := by
  obtain ⟨s', run, marked⟩ := receivePimGraft_marks models received.direct received.correct
  constructor
  · rintro ⟨_, also, listed⟩ e member
    obtain ⟨_, rfl⟩ := runs_deterministic run also
    have after := marked_found marked member
    obtain ⟨mymrt, found, content, _⟩ := foundSg_entry (mem_sgEntries member)
    split
    · rename_i names
      obtain ⟨opened, unpruned⟩ := listed.opened e.source e.group _ names after
      split
      · rename_i stops
        rw [if_pos stops] at opened
        exact (grafted_opened_iff _ e).mp opened
      · rename_i passes
        rw [if_neg passes] at opened unpruned
        exact ⟨opened, unpruned⟩
    · rename_i unnamed
      intro stops
      have still := listed.spared mymrt e content unnamed
      rw [foundSg_congr marked.same found, still, if_pos stops] at after
      exact (grafted_same_iff _ e).mp (Option.some.inj after).symm
  · intro fits
    refine ⟨s', run, fun source group e' names found' => ?_, fun mymrt e content unnamed => ?_⟩
    · obtain ⟨e, member, rfl, rfl⟩ := entry_of_after models marked.same found'
      have after := found'.symm.trans (marked_found marked member)
      obtain rfl := Option.some.inj after
      have fit := fits e member
      rw [if_pos names] at fit
      split
      · rename_i stops
        rw [if_pos stops] at fit
        exact ⟨(grafted_opened_iff _ e).mpr fit, grafted_unpruned _ e⟩
      · rename_i passes
        rw [if_neg passes] at fit
        exact fit
    · by_cases acted : mymrt ∈ actedEntries s (graftGroups s data)
      · obtain ⟨member, stops⟩ := entry_of_acted content acted models
        have fit := fits e member
        rw [if_neg unnamed] at fit
        rw [marked.inside mymrt acted, content, Option.map_some, (grafted_same_iff _ e).mpr (fit stops)]
      · rw [marked.outside mymrt acted, content]

/-! ## Graft-Acks -/

theorem acknowledged_same (unset : e.graftTimerId = 0) : acknowledged e = e := by
  unfold acknowledged
  rw [← unset]

theorem ack_decoded_iff (models : Models s (table s)) (orderly : Orderly s) (idle : s.expired = [])
    (received : Received host src data length) :
    AckDecoded host s src data length ↔ AckFits s (decodeJoinPrune data) (ackGroups s data) := by
  obtain ⟨s', logging, acked⟩ := loggingGraftAck_acked models orderly idle received.direct received.correct
  have marked := acked.toMarked
  constructor
  · rintro ⟨_, _, listed, also⟩
    obtain ⟨rounds, rfl⟩ := runs_deterministic logging also
    refine ⟨rounds, fun e member set => ?_⟩
    have after := marked_found marked member
    obtain ⟨mymrt, found, content, _⟩ := foundSg_entry (mem_sgEntries member)
    by_cases stops : StopsAt s (ackGroups s data) e.source e.group
    · refine iff_of_true ?_ stops
      by_contra unnamed
      rw [if_pos stops, foundSg_congr marked.same found, listed.spared mymrt e content unnamed] at after
      have same : e = acknowledged e := Option.some.inj after
      exact set (congrArg Mrt.graftTimerId same)
    · refine iff_of_false (fun names => ?_) stops
      rw [if_neg stops] at after
      exact set ((listed.settled e.source e.group e names (mem_sgEntries member)).1 e after)
  · rintro ⟨rounds, fits⟩
    have stops_of_set : ∀ e ∈ sgEntries s, Names (decodeJoinPrune data) e.source e.group → e.graftTimerId ≠ 0 →
        StopsAt s (ackGroups s data) e.source e.group := fun e member names set => (fits e member set).mp names
    rw [rounds] at logging
    refine ⟨s', receivePimGraftAck_of_logging logging, ⟨?_, fun mymrt e content unnamed => ?_⟩, logging⟩
    · intro source group e names found
      have member := sgEntries_of_found models found
      obtain ⟨mymrt, search, content, rfl, rfl⟩ := foundSg_entry found
      refine ⟨fun e' found' => ?_, fun set => ?_⟩
      · have after := found'.symm.trans (marked_found marked member)
        obtain rfl := Option.some.inj after
        split
        · rfl
        · rename_i passes
          by_contra set
          exact passes (stops_of_set e member names set)
      · have acted := (mem_actedEntries_iff search content).mpr (stops_of_set e member names set)
        exact acked.stopped mymrt acted e content set
    · by_cases acted : mymrt ∈ actedEntries s (ackGroups s data)
      · obtain ⟨member, stops⟩ := entry_of_acted content acted models
        have unset : e.graftTimerId = 0 := by
          by_contra set
          exact unnamed ((fits e member set).mpr stops)
        rw [marked.inside mymrt acted, content, Option.map_some, acknowledged_same unset]
      · rw [marked.outside mymrt acted, content]

/-- A Graft is decoded exactly if what it lists fits the groups that are read, and so is a
Graft-Ack; these are the groups that are listed, as long as the cursor keeps step. -/
theorem graft_sources_decoded (models : Models s (table s)) (orderly : Orderly s) (idle : s.expired = [])
    (graft : Received host src data length) {sender : Addr} {echo : Memory} {size : Int}
    (ack : Received host sender echo size) :
    (GraftDecoded host s src data length ↔
        GraftFits s (findVifDirect host src) (decodeJoinPrune data) (graftGroups s data)) ∧
      (AckDecoded host s sender echo size ↔ AckFits s (decodeJoinPrune echo) (ackGroups s echo)) ∧
      (GraftKeepsStep s data → graftGroups s data = decodeJoinPrune data) ∧
      (AckKeepsStep s echo → ackGroups s echo = decodeJoinPrune echo) :=
  ⟨graft_decoded_iff models graft, ack_decoded_iff models orderly idle ack,
    fun ⟨few, inStep⟩ => graftGroups_inStep few inStep,
    fun ⟨few, alike, inStep⟩ => ackGroups_inStep few alike inStep⟩

instance (host : Host) (src : Addr) (data : Memory) (length : Int) : Decidable (Received host src data length) :=
  decidable_of_iff (findVifDirect host src ≠ 0 ∧ inetCksum data length = 0)
    ⟨fun ⟨direct, correct⟩ => ⟨direct, correct⟩, fun ⟨direct, correct⟩ => ⟨direct, correct⟩⟩

/-- A body that joins some sources of the channel: one first, another one last. -/
def joining (first last : Addr) (joins : BitVec 16) : Memory :=
  store32 (writeOneSource (fun _ => 0) (named 0 first channel) 0 (htons joins) 0)
    (groupsStart + 12 + (joins.toNat - 1) * sizeofSource + 4) last

def joiningLength (joins : BitVec 16) : Int := groupsStart + 12 + joins.toNat * sizeofSource

/-- A Graft and a Graft-Ack of such a body. -/
def graftOf (first last : Addr) (joins : BitVec 16) : Memory :=
  writePimHeader (joining first last joins) pimGraft (joiningLength joins - sizeofPim)

def ackOf (first last : Addr) (joins : BitVec 16) : Memory :=
  writePimHeader (joining first last joins) pimGraftAck (joiningLength joins - sizeofPim)

/-- A Graft of two studios, the second of which is on air, and a Graft-Ack with 257 sources,
whose last one is waiting for it. -/
theorem graft_sources_decoded_session :
    ∃ s, Reachable router NoAssert s ∧ (∃ e ∈ sgEntries s, e.graftTimerId ≠ 0) ∧
      GraftDecoded router s (stationOn 3 9) (graftOf otherStudio studio 2) (joiningLength 2) ∧
      AckDecoded router s (stationOn 1 7) (ackOf otherStudio studio 257) (joiningLength 257) := by
  have passed : endsWith router NoAssert [upcall 1 1 (stationOn 1 7) studio channel, helloFrom (stationOn 2 9) 105]
      (fun s => decide (∃ e ∈ sgEntries s, e.graftTimerId ≠ 0) && decide (s.expired.length = 0) &&
        decide (GraftFits s 3 (decodeJoinPrune (graftOf otherStudio studio 2))
          (graftGroups s (graftOf otherStudio studio 2))) &&
        decide (AckFits s (decodeJoinPrune (ackOf otherStudio studio 257))
          (ackGroups s (ackOf otherStudio studio 257)))) =
      true := by decide +kernel
  obtain ⟨s, reached, all⟩ := reachable_of_endsWith passed
  simp only [Bool.and_eq_true, decide_eq_true_eq] at all
  obtain ⟨⟨⟨waiting, none⟩, graftFits⟩, ackFits⟩ := all
  have graft : Received router (stationOn 3 9) (graftOf otherStudio studio 2) (joiningLength 2) := by decide +kernel
  have ack : Received router (stationOn 1 7) (ackOf otherStudio studio 257) (joiningLength 257) := by decide +kernel
  have iffs := graft_sources_decoded (reachable_models router_zeroFilled reached) (reachable_orderly reached)
    (List.length_eq_zero_iff.mp none) graft ack
  exact ⟨s, reached, waiting, iffs.1.mpr graftFits, iffs.2.1.mpr ackFits⟩

/-- The second of two studios that are on air is not grafted, and a Graft-Ack with one source
has 256 rounds. -/
theorem graft_sources_misread :
    (¬ ∀ (host : Host) (s : Daemon) (src : Addr) (data : Memory) (length : Int), Reachable host NoAssert s →
        s.expired = [] → Received host src data length → WellFormed data length → GraftDecoded host s src data length) ∧
      ¬ ∀ (host : Host) (s : Daemon) (src : Addr) (data : Memory) (length : Int), Reachable host NoAssert s →
        s.expired = [] → Received host src data length → WellFormed data length →
          AckDecoded host s src data length := by
  have passed : endsWith router NoAssert
      [upcall 1 1 (stationOn 1 7) studio channel, upcall 1 1 (stationOn 1 7) otherStudio channel]
      (fun s => decide (s.expired.length = 0) &&
        decide (¬ GraftFits s 3 (decodeJoinPrune (graftOf otherStudio studio 2))
          (graftGroups s (graftOf otherStudio studio 2))) &&
        decide (¬ AckFits s (decodeJoinPrune (ackOf studio studio 1))
          (ackGroups s (ackOf studio studio 1)))) = true := by
    decide +kernel
  obtain ⟨s, reached, all⟩ := reachable_of_endsWith passed
  simp only [Bool.and_eq_true, decide_eq_true_eq] at all
  obtain ⟨⟨none, graftUnfit⟩, ackUnfit⟩ := all
  have models := reachable_models router_zeroFilled reached
  have idle := List.length_eq_zero_iff.mp none
  constructor
  · intro decoded
    have graft : Received router (stationOn 3 9) (graftOf otherStudio studio 2) (joiningLength 2) := by decide +kernel
    have done := decoded router s (stationOn 3 9) _ _ reached idle graft (by decide +kernel)
    exact graftUnfit ((graft_decoded_iff models graft).mp done)
  · intro decoded
    have ack : Received router (stationOn 1 7) (ackOf studio studio 1) (joiningLength 1) := by decide +kernel
    have done := decoded router s (stationOn 1 7) _ _ reached idle ack (by decide +kernel)
    exact ackUnfit ((ack_decoded_iff models (reachable_orderly reached) idle ack).mp done)

end PimDm.Property
