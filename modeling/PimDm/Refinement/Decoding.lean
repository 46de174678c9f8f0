import PimDm.Foundation.Layout
import PimDm.Refinement.Courses
import PimDm.Refinement.Overhearing

/-!
# The body of a Join/Prune

The groups and sources of a Join/Prune lie one after another.  `receive_join_prune`
acts on them as they are listed where its cursor keeps to this layout.
-/

namespace PimDm.Refinement

open PimDm.Foundation PimDm.Source

variable {s s' : Daemon} {host : Host} {src group : Addr} {data : Memory} {length : Int}

/-! ## The listing -/

/-- A group of a Join/Prune with its joined and its pruned sources. -/
structure ListedGroup where
  group : Addr
  joined : List Addr
  pruned : List Addr

/-- The sources of the group, joined and pruned. -/
def ListedGroup.size (listed : ListedGroup) : Nat := listed.joined.length + listed.pruned.length

def sourcesAt (data : Memory) : Nat → Int → List Addr :=
  laidOut (fun mydata => load32 data (mydata + 4)) fun mydata => mydata + sizeofSource

/-- The group that is laid out at a place: 12 bytes, the joined and then the pruned sources. -/
def groupAt (data : Memory) (mydata : Int) : ListedGroup :=
  let header := readGroupHeader data mydata
  let joinNumber := (ntohs header.joinField).toNat
  let pruneNumber := (ntohs header.pruneField).toNat
  ⟨header.group, sourcesAt data joinNumber (mydata + 12),
    sourcesAt data pruneNumber (mydata + 12 + joinNumber * sizeofSource)⟩

/-- Where the next group is laid out. -/
def groupEnd (data : Memory) (mydata : Int) : Int := mydata + 12 + (groupAt data mydata).size * sizeofSource

/-- `num_groups` as it is sent, from 0 to 255. -/
def groupCount (data : Memory) : Nat := (data (sizeofPim + 7)).toNat

/-- The reference decoding of a Join/Prune. -/
def decodeJoinPrune (data : Memory) : List ListedGroup :=
  laidOut (groupAt data) (groupEnd data) (groupCount data) groupsStart

/-! ## Acting on the listing -/

/-- What an action does, apart from the way the cursor goes. -/
def acting (action : Int → Addr → Ptr → Act Int) (source : Addr) (mymrt : Ptr) : Act Unit := do
  let _ ← action 1 source mymrt

/-- Act once on a source that has an entry. -/
def visitSource (action : Int → Addr → Ptr → Act Int) (group source : Addr) : Act Unit :=
  onlyIf (inetValidHost source = true) do
    let mymrt ← findSg source group
    onlyIf (mymrt ≠ 0) (acting action source mymrt)

def visitGroup (joinAction pruneAction : Int → Addr → Ptr → Act Int) (listed : ListedGroup) : Act Unit :=
  onlyIf (inMulticast (ntohl listed.group) = true) do
    forM listed.joined (visitSource joinAction listed.group)
    forM listed.pruned (visitSource pruneAction listed.group)

/-- Act once, in the order of the message, on each source that the reference decoding lists. -/
def actAsListed (host : Host) (src : Addr) (data : Memory) (length : Int) : Act Unit :=
  let vif := findVifDirect host src
  let header := readJoinPruneHeader data
  if Overheard host src data then
    forM (decodeJoinPrune data) (visitGroup overheardJoin (overheardPrune header.upstream))
  else
    forM (decodeJoinPrune data)
      (visitGroup (addressedJoin vif) (addressedPrune host vif data length header.holdtime))

/-! ## Rounds -/

theorem runs_forget {α : Type} {program : Act α} :
    Runs (program >>= fun _ => pure ()) s () s' ↔ ∃ value, Runs program s value s' := by
  rw [runs_bind]
  constructor
  · rintro ⟨value, _, ran, stop⟩
    obtain ⟨_, rfl⟩ := runs_pure.mp stop
    exact ⟨value, ran⟩
  · rintro ⟨value, ran⟩
    exact ⟨value, s', ran, runs_pure.mpr ⟨rfl, rfl⟩⟩

theorem runs_acting {action : Int → Addr → Ptr → Act Int} {source : Addr} {mymrt : Ptr} :
    Runs (acting action source mymrt) s () s' ↔ ∃ moved, Runs (action 1 source mymrt) s moved s' := runs_forget

theorem runs_visitSource {action : Int → Addr → Ptr → Act Int} {source : Addr} :
    Runs (visitSource action group source) s () s' ↔
      (inetValidHost source = false ∧ s' = s) ∨
        inetValidHost source = true ∧ ∃ mymrt, sgOf s source group = .ok mymrt ∧
          ((mymrt = 0 ∧ s' = s) ∨ mymrt ≠ 0 ∧ ∃ moved, Runs (action 1 source mymrt) s moved s') := by
  unfold visitSource
  rw [runs_onlyIf, or_comm, Bool.not_eq_true]
  refine or_congr Iff.rfl (and_congr_right fun _ => ?_)
  rw [runs_bind]
  constructor
  · rintro ⟨mymrt, _, search, rest⟩
    obtain ⟨found, rfl⟩ := runs_findMrt.mp search
    refine ⟨mymrt, found, ?_⟩
    rcases runs_onlyIf.mp rest with ⟨nonnull, act⟩ | ⟨null, rfl⟩
    · exact Or.inr ⟨nonnull, runs_acting.mp act⟩
    · exact Or.inl ⟨not_not.mp null, rfl⟩
  · rintro ⟨mymrt, found, rest⟩
    refine ⟨mymrt, s, runs_findMrt.mpr ⟨found, rfl⟩, runs_onlyIf.mpr ?_⟩
    rcases rest with ⟨null, rfl⟩ | ⟨nonnull, acted⟩
    · exact Or.inr ⟨not_not.mpr null, rfl⟩
    · exact Or.inl ⟨nonnull, runs_acting.mpr acted⟩

/-! ## The cursor and the listing -/

/-- After this source the cursor goes on to the next one: the source is skipped, or it is
the only one of its group, or its entry is one of those that move the cursor by one source. -/
def InStep (s : Daemon) (single : Mrt → Prop) (listed : ListedGroup) (source : Addr) : Prop :=
  inetValidHost source = true → ∀ e ∈ foundSg s source listed.group, listed.size = 1 ∨ single e

/-- Each of these sources is in step. -/
def AllInStep (s : Daemon) (single : Mrt → Prop) (listed : ListedGroup) (sources : List Addr) : Prop :=
  ∀ source ∈ sources, InStep s single listed source

/-- Every source of the group is in step, where the group is not skipped. -/
def GroupInStep (s : Daemon) (single : Mrt → Prop) (listed : ListedGroup) : Prop :=
  inMulticast (ntohl listed.group) = true →
    AllInStep s (fun _ => False) listed listed.joined ∧ AllInStep s single listed listed.pruned

/-- Every source of the group but the last one is in step. -/
def LastInStep (s : Daemon) (single : Mrt → Prop) (listed : ListedGroup) : Prop :=
  inMulticast (ntohl listed.group) = true →
    AllInStep s (fun _ => False) listed (if listed.pruned = [] then listed.joined.dropLast else listed.joined) ∧
      AllInStep s single listed listed.pruned.dropLast

/-- Every source but the last one of the last group is in step. -/
structure KeepsStep (s : Daemon) (single : Mrt → Prop) (groups : List ListedGroup) : Prop where
  each : ∀ listed ∈ groups.dropLast, GroupInStep s single listed
  last : ∀ listed ∈ groups.getLast?, LastInStep s single listed

section

variable (s : Daemon) (single : Mrt → Prop) [DecidablePred single]

instance (listed : ListedGroup) (source : Addr) : Decidable (InStep s single listed source) :=
  inferInstanceAs (Decidable (_ → _))

instance (listed : ListedGroup) (sources : List Addr) : Decidable (AllInStep s single listed sources) :=
  List.decidableBAll _ sources

instance (listed : ListedGroup) : Decidable (GroupInStep s single listed) :=
  inferInstanceAs (Decidable (_ → _))

instance (listed : ListedGroup) : Decidable (LastInStep s single listed) :=
  inferInstanceAs (Decidable (_ → _))

instance (groups : List ListedGroup) : Decidable (KeepsStep s single groups) :=
  decidable_of_iff ((∀ listed ∈ groups.dropLast, GroupInStep s single listed) ∧
      ∀ listed ∈ groups.getLast?, LastInStep s single listed)
    ⟨fun ⟨each, last⟩ => ⟨each, last⟩, fun ⟨each, last⟩ => ⟨each, last⟩⟩

end

/-- The action moves the cursor as said, by one source just where the group has no other or
the entry is among the given ones, and what it does to the entry is always the same. -/
structure Advances (s : Daemon) (action : Int → Addr → Ptr → Act Int) (moved : Int → Ptr → Int)
    (single : Mrt → Prop) : Prop where
  moves : ∀ group all, Moves s group (action all) (moved all)
  same : ∀ all source mymrt, (action all source mymrt >>= fun _ => pure ()) = acting action source mymrt
  steps : ∀ all mymrt e, s.mrts.get? mymrt = some e → (moved all mymrt = sizeofSource ↔ all = 1 ∨ single e)

theorem Advances.congr {action : Int → Addr → Ptr → Act Int} {moved : Int → Ptr → Int} {single also : Mrt → Prop}
    (advances : Advances s action moved single) (same : ∀ e, single e ↔ also e) : Advances s action moved also where
  moves := advances.moves
  same := advances.same
  steps all mymrt e content := (advances.steps all mymrt e content).trans (or_congr_right (same e))

theorem byAll_steps (all : Int) (mymrt : Ptr) : byAll all mymrt = sizeofSource ↔ all = 1 := by
  rw [byAll, sizeofSource]
  omega

theorem overheardJoin_advances : Advances s overheardJoin byAll fun _ => False where
  moves := moves_overheardJoin
  same all source mymrt := by simp [acting, overheardJoin]
  steps all mymrt _ _ := (byAll_steps all mymrt).trans (or_iff_left id).symm

theorem overheardPrune_advances (upstream : Addr) :
    Advances s (overheardPrune upstream) (byCounter s) fun e => e.outnumber ≠ 0 where
  moves := moves_overheardPrune upstream
  same all source mymrt := by
    unfold acting overheardPrune
    rw [bind_assoc, bind_assoc]
    refine bind_congr fun e => ?_
    split
    · rfl
    · rw [pure_bind, pure_bind]
  steps all mymrt e content := by
    have counter : counterAt s mymrt = e.outnumber := by
      rw [counterAt, content]
      rfl
    rw [byCounter, counter]
    by_cases counted : e.outnumber ≠ 0
    · rw [if_pos counted]
      exact iff_of_true rfl (Or.inr counted)
    · rw [if_neg counted, or_iff_left counted]
      exact byAll_steps all mymrt

theorem addressedJoin_advances (vif : Vif) : Advances s (addressedJoin vif) byAll fun _ => False where
  moves := moves_addressedJoin vif
  same all source mymrt := by simp [acting, addressedJoin]
  steps all mymrt _ _ := (byAll_steps all mymrt).trans (or_iff_left id).symm

theorem addressedPrune_advances (vif : Vif) (copied holdtime : Int) :
    Advances s (addressedPrune host vif data copied holdtime) byAll fun _ => False where
  moves := moves_addressedPrune vif copied holdtime
  same all source mymrt := by simp [acting, addressedPrune]
  steps all mymrt _ _ := (byAll_steps all mymrt).trans (or_iff_left id).symm

section Loops

variable {action joinAction pruneAction : Int → Addr → Ptr → Act Int} {moved joinMoved pruneMoved : Int → Ptr → Int}
variable {single : Mrt → Prop} {listed : ListedGroup} {mydata : Int}

theorem eachSource_tracks (advances : Advances s action moved single) (all : Int) :
    Tracks (fun now => shape now = shape s) (eachSource data group (action all) mydata)
      (visitSource action group (load32 data (mydata + 4))) fun _ => True where
  same now s' _ := by
    have effect : ∀ mymrt, (∃ value, Runs (action all (load32 data (mydata + 4)) mymrt) now value s') ↔
        ∃ value, Runs (action 1 (load32 data (mydata + 4)) mymrt) now value s' := by
      intro mymrt
      rw [← runs_forget, advances.same, runs_acting]
    rw [runs_visitSource]
    constructor
    · rintro ⟨next, run⟩
      rcases runs_eachSource.mp run with ⟨invalid, _, stop⟩ |
        ⟨valid, mymrt, found, ⟨null, _, stop⟩ | ⟨nonnull, value, acted, _⟩⟩
      · exact Or.inl ⟨invalid, stop⟩
      · exact Or.inr ⟨valid, mymrt, found, Or.inl ⟨null, stop⟩⟩
      · exact Or.inr ⟨valid, mymrt, found, Or.inr ⟨nonnull, (effect mymrt).mp ⟨value, acted⟩⟩⟩
    · rintro (⟨invalid, stop⟩ | ⟨valid, mymrt, found, ⟨null, stop⟩ | ⟨nonnull, acted⟩⟩)
      · exact ⟨_, runs_eachSource.mpr (Or.inl ⟨invalid, rfl, stop⟩)⟩
      · exact ⟨_, runs_eachSource.mpr (Or.inr ⟨valid, mymrt, found, Or.inl ⟨null, rfl, stop⟩⟩)⟩
      · obtain ⟨value, ran⟩ := (effect mymrt).mpr acted
        exact ⟨_, runs_eachSource.mpr (Or.inr ⟨valid, mymrt, found, Or.inr ⟨nonnull, value, ran, rfl⟩⟩)⟩
  ends now next s' kept run := by
    refine ⟨trivial, ?_⟩
    rcases runs_eachSource.mp run with ⟨_, _, rfl⟩ | ⟨_, mymrt, found, ⟨_, _, rfl⟩ | ⟨nonnull, value, acted, _⟩⟩
    · exact kept
    · exact kept
    · obtain ⟨after, ran, still⟩ := advances.moves group all now _ mymrt kept found nonnull
      obtain ⟨_, rfl⟩ := runs_deterministic acted ran
      exact still.trans kept

/-- A round ends at the next source just where its source is in step. -/
theorem eachSource_next_iff (advances : Advances s action moved single) {now : Daemon} {next : Int}
    (kept : shape now = shape s)
    (run : Runs (eachSource data listed.group (action listed.size) mydata) now next s') :
    next = mydata + sizeofSource ↔ InStep s single listed (load32 data (mydata + 4)) := by
  unfold InStep
  rcases runs_eachSource.mp run with ⟨invalid, rfl, _⟩ | ⟨valid, mymrt, found, rest⟩
  · rw [invalid]
    exact iff_of_true rfl fun valid => Bool.noConfusion valid
  have here : sgOf s (load32 data (mydata + 4)) listed.group = .ok mymrt := (sgOf_congr kept _ _).symm.trans found
  rw [valid, foundSg_eq here]
  rcases rest with ⟨rfl, rfl, _⟩ | ⟨nonnull, value, acted, rfl⟩
  · exact iff_of_true rfl fun _ e content => nomatch content
  · obtain ⟨after, ran, _⟩ := advances.moves listed.group listed.size now _ mymrt kept found nonnull
    obtain ⟨rfl, _⟩ := runs_deterministic acted ran
    obtain ⟨e, content, _⟩ := sgOf_entry here nonnull
    have steps := advances.steps listed.size mymrt e content
    have alone : (listed.size : Int) = 1 ↔ listed.size = 1 := by omega
    rw [content, Int.add_right_inj, steps, alone]
    constructor
    · rintro one _ e' same
      exact Option.some.inj same ▸ one
    · intro all
      exact all rfl e rfl

theorem eachSource_inStep (advances : Advances s action moved single)
    (inStep : InStep s single listed (load32 data (mydata + 4))) :
    Tracks (fun now => shape now = shape s) (eachSource data listed.group (action listed.size) mydata)
      (visitSource action listed.group (load32 data (mydata + 4))) fun value => value = mydata + sizeofSource where
  same := (eachSource_tracks advances listed.size).same
  ends now next s' kept run :=
    ⟨(eachSource_next_iff advances kept run).mpr inStep, ((eachSource_tracks advances _).ends now next s' kept run).2⟩

/-- Where the rounds for some sources end. -/
theorem afterSources (count : Nat) (mydata : Int) :
    (fun mydata => mydata + sizeofSource)^[count] mydata = mydata + count * sizeofSource := by
  induction count generalizing mydata with
  | zero => simp
  | succ count ih =>
      rw [Function.iterate_succ_apply, ih, sizeofSource]
      omega

theorem sources_track (advances : Advances s action moved single) (count : Nat)
    (inStep : AllInStep s single listed (sourcesAt data count mydata)) :
    Tracks (fun now => shape now = shape s) (times (eachSource data listed.group (action listed.size)) count mydata)
      (forM (sourcesAt data count mydata) (visitSource action listed.group))
      fun value => value = mydata + count * sizeofSource := by
  rw [← afterSources]
  exact Tracks.times (fun _ inStep => eachSource_inStep advances inStep) count mydata inStep

theorem sources_track_last (advances : Advances s action moved single) (count : Nat)
    (inStep : AllInStep s single listed (sourcesAt data count mydata).dropLast) :
    Tracks (fun now => shape now = shape s) (times (eachSource data listed.group (action listed.size)) count mydata)
      (forM (sourcesAt data count mydata) (visitSource action listed.group)) fun _ => True := by
  exact Tracks.times_last (fun _ => True) (fun _ inStep => eachSource_inStep advances inStep)
    (fun _ _ => eachSource_tracks advances _) count mydata inStep fun _ _ => trivial

theorem groupAt_joined (data : Memory) (mydata : Int) :
    (groupAt data mydata).joined.length = (ntohs (readGroupHeader data mydata).joinField).toNat :=
  laidOut_length _ _ _ _

theorem groupAt_pruned (data : Memory) (mydata : Int) :
    (groupAt data mydata).pruned.length = (ntohs (readGroupHeader data mydata).pruneField).toNat :=
  laidOut_length _ _ _ _

theorem groupAt_size (data : Memory) (mydata : Int) : ((groupAt data mydata).size : Int) =
    (ntohs (readGroupHeader data mydata).joinField).toNat + (ntohs (readGroupHeader data mydata).pruneField).toNat := by
  rw [ListedGroup.size, groupAt_joined, groupAt_pruned, Int.natCast_add]

/-- A group that is skipped. -/
theorem skippedGroup_tracks (unicast : inMulticast (ntohl (groupAt data mydata).group) = false) :
    Tracks (fun now => shape now = shape s) (eachGroup data joinAction pruneAction mydata)
      (visitGroup joinAction pruneAction (groupAt data mydata)) fun value => value = groupEnd data mydata := by
  have skipped : eachGroup data joinAction pruneAction mydata = pure (groupEnd data mydata) := by
    unfold eachGroup groupEnd
    rw [groupAt_size]
    exact if_pos unicast
  have idle : visitGroup joinAction pruneAction (groupAt data mydata) = pure () := by
    refine if_neg fun multicast => ?_
    rw [unicast] at multicast
    cases multicast
  rw [skipped, idle]
  exact .pure _

/-- The two loops of a group that is not skipped. -/
theorem eachGroup_eq (multicast : inMulticast (ntohl (groupAt data mydata).group) = true) :
    eachGroup data joinAction pruneAction mydata =
      (times (eachSource data (groupAt data mydata).group (joinAction (groupAt data mydata).size))
        (ntohs (readGroupHeader data mydata).joinField).toNat (mydata + 12) >>=
      times (eachSource data (groupAt data mydata).group (pruneAction (groupAt data mydata).size))
        (ntohs (readGroupHeader data mydata).pruneField).toNat) := by
  rw [groupAt_size]
  refine if_neg fun unicast => ?_
  rw [show inMulticast (ntohl (readGroupHeader data mydata).group) = true from multicast] at unicast
  cases unicast

theorem visitGroup_eq (multicast : inMulticast (ntohl listed.group) = true) :
    visitGroup joinAction pruneAction listed = (do
      forM listed.joined (visitSource joinAction listed.group)
      forM listed.pruned (visitSource pruneAction listed.group)) := if_pos multicast

theorem eachGroup_tracks (joins : Advances s joinAction joinMoved fun _ => False)
    (prunes : Advances s pruneAction pruneMoved single) (inStep : GroupInStep s single (groupAt data mydata)) :
    Tracks (fun now => shape now = shape s) (eachGroup data joinAction pruneAction mydata)
      (visitGroup joinAction pruneAction (groupAt data mydata)) fun value => value = groupEnd data mydata := by
  cases multicast : inMulticast (ntohl (groupAt data mydata).group) with
  | false => exact skippedGroup_tracks multicast
  | true =>
      obtain ⟨joined, pruned⟩ := inStep multicast
      rw [eachGroup_eq multicast, visitGroup_eq multicast]
      have first := sources_track joins _ joined
      have second := sources_track prunes _ pruned
      refine (first.bind second).mono fun value reached => ?_
      rw [reached, groupEnd, groupAt_size, Int.add_mul]
      omega

theorem eachGroup_tracks_last (joins : Advances s joinAction joinMoved fun _ => False)
    (prunes : Advances s pruneAction pruneMoved single) (inStep : LastInStep s single (groupAt data mydata)) :
    Tracks (fun now => shape now = shape s) (eachGroup data joinAction pruneAction mydata)
      (visitGroup joinAction pruneAction (groupAt data mydata)) fun _ => True := by
  cases multicast : inMulticast (ntohl (groupAt data mydata).group) with
  | false => exact (skippedGroup_tracks multicast).mono fun _ _ => trivial
  | true =>
      obtain ⟨joined, pruned⟩ := inStep multicast
      rw [eachGroup_eq multicast, visitGroup_eq multicast]
      by_cases unpruned : (groupAt data mydata).pruned = []
      · have none : (ntohs (readGroupHeader data mydata).pruneField).toNat = 0 := by
          rw [← groupAt_pruned, unpruned, List.length_nil]
        have stops (program : Act Int) (round : Int → Act Int) : (program >>= times round 0) = program :=
          bind_pure program
        rw [if_pos unpruned] at joined
        rw [none, unpruned, List.forM_nil, bind_pure_unit, stops]
        exact sources_track_last joins _ joined
      · rw [if_neg unpruned] at joined
        have first := sources_track joins _ joined
        have second := sources_track_last prunes _ pruned
        exact first.bind second

/-- The loop over the groups acts as the message lists. -/
theorem groups_track (joins : Advances s joinAction joinMoved fun _ => False)
    (prunes : Advances s pruneAction pruneMoved single) (keeps : KeepsStep s single (decodeJoinPrune data)) :
    Tracks (fun now => shape now = shape s) (times (eachGroup data joinAction pruneAction)
      (groupCount data) groupsStart)
      (forM (decodeJoinPrune data) (visitGroup joinAction pruneAction)) fun _ => True :=
  Tracks.times_last (LastInStep s single) (fun _ inStep => eachGroup_tracks joins prunes inStep)
    (fun _ inStep => eachGroup_tracks_last joins prunes inStep) _ _ keeps.each keeps.last

end Loops

/-! ## The receiver -/

/-- The counts from 128 on are negative where they are read. -/
theorem numGroups_eq (data : Memory) :
    (readJoinPruneHeader data).numGroups =
      if groupCount data ≤ 127 then (groupCount data : Int) else groupCount data - 256 := by
  have bound : groupCount data < 256 := (data (sizeofPim + 7)).isLt
  have signed : (readJoinPruneHeader data).numGroups = (groupCount data : Int).bmod 256 := BitVec.toInt_eq_toNat_bmod _
  rw [signed, Int.bmod_def]
  split
  · rw [if_pos (by omega)]
    omega
  · rw [if_neg (by omega)]
    omega

theorem receiveJoinPrune_accepted (direct : findVifDirect host src ≠ 0) (correct : inetCksum data length = 0) :
    receiveJoinPrune host src data length s = readingJoinPrune freely host data length (findVifDirect host src) s := by
  have read := congrFun (readingPim_freely host .joinPrune src data length) s
  exact read.symm.trans (ifAccepted_eq direct correct _)

theorem readingJoinPrune_empty (empty : (readJoinPruneHeader data).numGroups = 0) (vif : Vif) :
    readingJoinPrune freely host data length vif = pure () :=
  (pure_bind _ _).trans (if_pos empty)

theorem readingJoinPrune_overheard (some : (readJoinPruneHeader data).numGroups ≠ 0)
    (overheard : Overheard host src data) :
    readingJoinPrune freely host data length (findVifDirect host src) = (do
      let neighbor ← findneighbor (readJoinPruneHeader data).upstream (findVifDirect host src)
      onlyIf (neighbor ≠ 0) do
        let _ ← times (eachGroup data overheardJoin (overheardPrune (readJoinPruneHeader data).upstream))
          (readJoinPruneHeader data).numGroups.toNat groupsStart) := by
  rw [← readingGroup_freely]
  exact (pure_bind _ _).trans ((if_neg some).trans (if_pos ⟨overheard.another, overheard.given⟩))

theorem readingJoinPrune_addressed (some : (readJoinPruneHeader data).numGroups ≠ 0)
    (direct : findVifDirect host src ≠ 0) (addressed : ¬ Overheard host src data) :
    readingJoinPrune freely host data length (findVifDirect host src) = (do
      let _ ← times (eachGroup data (addressedJoin (findVifDirect host src)) (addressedPrune host
        (findVifDirect host src) data length (readJoinPruneHeader data).holdtime))
        (readJoinPruneHeader data).numGroups.toNat groupsStart) := by
  rw [← readingGroup_freely]
  exact (pure_bind _ _).trans ((if_neg some).trans (if_neg fun ⟨another, given⟩ => addressed ⟨direct, another, given⟩))

theorem runs_findneighbor_of {vif : Vif} {address : Addr} {neighbor : Ptr}
    (found : neighborOf s vif address = .ok neighbor) :
    Runs (findneighbor address vif) s neighbor s := by
  rw [findneighbor, runs_get_bind, runs_liftHeap]
  exact ⟨found, rfl⟩

theorem Knows.runs {vif : Vif} {address : Addr} (knows : Knows s vif address) :
    ∃ neighbor, neighbor ≠ 0 ∧ Runs (findneighbor address vif) s neighbor s := by
  have nonnull : (neighborOf s vif address).toOption.getD 0 ≠ 0 := knows
  cases found : neighborOf s vif address with
  | error fault =>
      rw [found] at nonnull
      exact absurd rfl nonnull
  | ok neighbor =>
      rw [found] at nonnull
      exact ⟨neighbor, nonnull, runs_findneighbor_of found⟩

/-- Where the cursor keeps to the listing and the count of the groups is positive where it is
read, an accepted message is acted on as listed. -/
theorem receiveJoinPrune_asListed (direct : findVifDirect host src ≠ 0) (correct : inetCksum data length = 0)
    (known : Overheard host src data → Knows s (findVifDirect host src) (readJoinPruneHeader data).upstream)
    (few : groupCount data ≤ 127)
    (keeps : KeepsStep s (fun e => Overheard host src data ∧ e.outnumber ≠ 0) (decodeJoinPrune data)) :
    Runs (receiveJoinPrune host src data length) s () s' ↔ Runs (actAsListed host src data length) s () s' := by
  have count : (readJoinPruneHeader data).numGroups = groupCount data := (numGroups_eq data).trans (if_pos few)
  unfold Runs
  rw [receiveJoinPrune_accepted direct correct]
  change Runs _ s () s' ↔ Runs _ s () s'
  by_cases empty : (readJoinPruneHeader data).numGroups = 0
  · have none : groupCount data = 0 := by omega
    rw [readingJoinPrune_empty empty]
    unfold actAsListed decodeJoinPrune
    rw [none]
    exact ite_self _ ▸ Iff.rfl
  by_cases overheard : Overheard host src data
  · have prunes : Advances s (overheardPrune (readJoinPruneHeader data).upstream) (byCounter s)
        fun e => Overheard host src data ∧ e.outnumber ≠ 0 :=
      (overheardPrune_advances _).congr fun e => (and_iff_right overheard).symm
    have tracked := groups_track overheardJoin_advances prunes keeps
    unfold actAsListed
    rw [readingJoinPrune_overheard empty overheard, if_pos overheard, ← tracked.same s s' rfl, count, Int.toNat_natCast,
      runs_bind]
    constructor
    · rintro ⟨neighbor, _, search, acts⟩
      obtain ⟨rfl, found⟩ := knows_iff search
      rcases runs_onlyIf.mp acts with ⟨_, rounds⟩ | ⟨null, _⟩
      · exact runs_forget.mp rounds
      · exact absurd (found.mp (known overheard)) null
    · intro rounds
      obtain ⟨neighbor, nonnull, search⟩ := (known overheard).runs
      exact ⟨neighbor, s, search, runs_onlyIf.mpr (Or.inl ⟨nonnull, runs_forget.mpr rounds⟩)⟩
  · have prunes : Advances s (addressedPrune host (findVifDirect host src) data length
        (readJoinPruneHeader data).holdtime) byAll fun e => Overheard host src data ∧ e.outnumber ≠ 0 :=
      (addressedPrune_advances _ _ _).congr fun e => (iff_false_intro fun both => overheard both.1).symm
    have tracked := groups_track (addressedJoin_advances (findVifDirect host src)) prunes keeps
    unfold actAsListed
    rw [readingJoinPrune_addressed empty direct overheard, if_neg overheard, ← tracked.same s s' rfl, count,
      Int.toNat_natCast]
    exact runs_forget

/-- No source of the group has an entry. -/
def NothingIn (s : Daemon) (listed : ListedGroup) : Prop :=
  inMulticast (ntohl listed.group) = true →
    ∀ source ∈ listed.joined ++ listed.pruned, inetValidHost source = true → sgOf s source listed.group = .ok 0

theorem visitGroup_nothing {joinAction pruneAction : Int → Addr → Ptr → Act Int} {listed : ListedGroup}
    (nothing : NothingIn s listed) : Runs (visitGroup joinAction pruneAction listed) s () s' ↔ s' = s := by
  have visits : ∀ {action : Int → Addr → Ptr → Act Int} {source : Addr}, inMulticast (ntohl listed.group) = true →
      source ∈ listed.joined ++ listed.pruned → ∀ s', Runs (visitSource action listed.group source) s () s' ↔
        s' = s := by
    intro action source multicast member s'
    rw [runs_visitSource]
    constructor
    · rintro (⟨_, stop⟩ | ⟨valid, mymrt, found, ⟨_, stop⟩ | ⟨nonnull, _⟩⟩)
      · exact stop
      · exact stop
      · have null := nothing multicast source member valid
        exact absurd (Except.ok.inj (found.symm.trans null)) nonnull
    · intro same
      cases valid : inetValidHost source with
      | false => exact Or.inl ⟨rfl, same⟩
      | true => exact Or.inr ⟨rfl, 0, nothing multicast source member valid, Or.inl ⟨rfl, same⟩⟩
  unfold visitGroup
  rw [runs_onlyIf, runs_bind]
  constructor
  · rintro (⟨multicast, _, middle, joins, prunes⟩ | ⟨_, stop⟩)
    · obtain rfl := (runs_forM_idle fun source member => visits multicast (List.mem_append_left _ member)).mp joins
      exact (runs_forM_idle fun source member => visits multicast (List.mem_append_right _ member)).mp prunes
    · exact stop
  · intro same
    by_cases multicast : inMulticast (ntohl listed.group) = true
    · refine Or.inl ⟨multicast, (), s, ?_, ?_⟩
      · exact (runs_forM_idle fun source member => visits multicast (List.mem_append_left _ member)).mpr rfl
      · exact (runs_forM_idle fun source member => visits multicast (List.mem_append_right _ member)).mpr same
    · exact Or.inr ⟨multicast, same⟩

/-- There is nothing to do for a message that lists no source with an entry. -/
theorem actAsListed_nothing (nothing : ∀ listed ∈ decodeJoinPrune data, NothingIn s listed) :
    Runs (actAsListed host src data length) s () s' ↔ s' = s := by
  unfold actAsListed
  split
  · exact runs_forM_idle fun listed member s' => visitGroup_nothing (nothing listed member)
  · exact runs_forM_idle fun listed member s' => visitGroup_nothing (nothing listed member)

theorem NothingIn.inStep {single : Mrt → Prop} {listed : ListedGroup} (nothing : NothingIn s listed) :
    GroupInStep s single listed := by
  have skipped : ∀ {among : Mrt → Prop} {source : Addr}, inMulticast (ntohl listed.group) = true →
      source ∈ listed.joined ++ listed.pruned → InStep s among listed source := by
    intro among source multicast member valid e found
    rw [foundSg_eq (nothing multicast source member valid)] at found
    cases found
  intro multicast
  exact ⟨fun source member => skipped multicast (List.mem_append_left _ member),
    fun source member => skipped multicast (List.mem_append_right _ member)⟩

theorem GroupInStep.last {single : Mrt → Prop} {listed : ListedGroup} (inStep : GroupInStep s single listed) :
    LastInStep s single listed := by
  intro multicast
  obtain ⟨joined, pruned⟩ := inStep multicast
  refine ⟨fun source member => joined source ?_, fun source member => pruned source (List.dropLast_subset _ member)⟩
  split at member
  · exact List.dropLast_subset _ member
  · exact member

/-- A message that lists no source with an entry changes nothing, however many groups it has. -/
theorem receiveJoinPrune_nothing (direct : findVifDirect host src ≠ 0) (correct : inetCksum data length = 0)
    (known : Overheard host src data → Knows s (findVifDirect host src) (readJoinPruneHeader data).upstream)
    (nothing : ∀ listed ∈ decodeJoinPrune data, NothingIn s listed) :
    Runs (receiveJoinPrune host src data length) s () s' ↔ s' = s := by
  by_cases few : groupCount data ≤ 127
  · have keeps : KeepsStep s (fun e => Overheard host src data ∧ e.outnumber ≠ 0) (decodeJoinPrune data) :=
      ⟨fun listed member => (nothing listed (List.dropLast_subset _ member)).inStep,
        fun listed member => (nothing listed (List.mem_of_getLast? member)).inStep.last⟩
    exact (receiveJoinPrune_asListed direct correct known few keeps).trans (actAsListed_nothing nothing)
  have bound : groupCount data < 256 := (data (sizeofPim + 7)).isLt
  have count : (readJoinPruneHeader data).numGroups = groupCount data - 256 := (numGroups_eq data).trans (if_neg few)
  have some : (readJoinPruneHeader data).numGroups ≠ 0 := by omega
  have none : (readJoinPruneHeader data).numGroups.toNat = 0 := by omega
  have rests (round : Int → Act Int) : Runs (times round 0 groupsStart >>= fun _ => pure ()) s () s' ↔ s' = s := by
    rw [runs_forget]
    constructor
    · rintro ⟨_, run⟩
      exact (runs_pure.mp run).2
    · intro same
      exact ⟨_, runs_pure.mpr ⟨rfl, same⟩⟩
  unfold Runs
  rw [receiveJoinPrune_accepted direct correct]
  change Runs _ s () s' ↔ _
  by_cases overheard : Overheard host src data
  · rw [readingJoinPrune_overheard some overheard, none, runs_bind]
    constructor
    · rintro ⟨neighbor, _, search, acts⟩
      obtain ⟨rfl, _⟩ := knows_iff search
      rcases runs_onlyIf.mp acts with ⟨_, rounds⟩ | ⟨_, stop⟩
      · exact (rests _).mp rounds
      · exact stop
    · intro same
      obtain ⟨neighbor, nonnull, search⟩ := (known overheard).runs
      exact ⟨neighbor, s, search, runs_onlyIf.mpr (Or.inl ⟨nonnull, (rests _).mpr same⟩)⟩
  · rw [readingJoinPrune_addressed some direct overheard, none]
    exact rests _

end PimDm.Refinement
