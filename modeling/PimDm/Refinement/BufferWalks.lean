import PimDm.Refinement.Courses
import PimDm.Refinement.Wire

/-!
# Walks through the receive buffer

The counts in a message may lead a receiver out of `pim_receive_buf`.  It stays there exactly
when its course does, and then it does what it would do without a bound.  Messages with one
group and one source, as the daemon builds them, never lead it out.
-/

namespace PimDm.Refinement

open PimDm.Foundation PimDm.Source

variable {s s' : Daemon} {host : Host} {data : Memory} {first last length iphdrlen : Int} {src : Addr} {group : Addr}
  {type : PimMessage}

/-- The reads of the options of a Hello in the receive buffer. -/
def helloCourse (iphdrlen : Int) (data : Memory) (length : Int) : Course Int :=
  holdTimeCourse (-iphdrlen) (pimReceiveBufSize - iphdrlen) data (64 * 1024 / 4) sizeofPim (length - sizeofPim)

instance (data : Memory) : Decidable (helloCourse iphdrlen data length).fits :=
  decidableHoldTimeCourse data _ _ _

/-- The reads of a PIM message in the receive buffer. -/
def bufferCourse (iphdrlen : Int) (host : Host) (s : Daemon) (src : Addr) (data : Memory) (length : Int) :
    PimMessage → Course Unit
  | .hello => (helloCourse iphdrlen data length).andThen fun _ => .value ()
  | type => walkCourse (-iphdrlen) (pimReceiveBufSize - iphdrlen) host s src data type

instance (host : Host) (s : Daemon) (src : Addr) (data : Memory) :
    (type : PimMessage) → Decidable (bufferCourse iphdrlen host s src data length type).fits
  | .hello => inferInstanceAs (Decidable (Course.andThen (helloCourse iphdrlen data length) _).fits)
  | .joinPrune => inferInstanceAs (Decidable (walkCourse _ _ host s src data .joinPrune).fits)
  | .assert => inferInstanceAs (Decidable (walkCourse _ _ host s src data .assert).fits)
  | .graft => inferInstanceAs (Decidable (walkCourse _ _ host s src data .graft).fits)
  | .graftAck => inferInstanceAs (Decidable (walkCourse _ _ host s src data .graftAck).fits)

theorem hello_fits_iff : (bufferCourse iphdrlen host s src data length .hello).fits ↔
    (helloCourse iphdrlen data length).fits :=
  ⟨And.left, fun fits => ⟨fits, fun _ _ => trivial⟩⟩

theorem bufferCourse_walks (walks : type ≠ .hello) : bufferCourse iphdrlen host s src data length type =
    walkCourse (-iphdrlen) (pimReceiveBufSize - iphdrlen) host s src data type := by
  cases type with
  | hello => exact (walks rfl).elim
  | _ => rfl

/-! ## Receivers -/

/-- The options of a Hello that keep to the buffer come to an end. -/
theorem helloCourse_found (header : 0 ≤ iphdrlen) (fits : (helloCourse iphdrlen data length).fits) :
    ∃ holdtime, (helloCourse iphdrlen data length).next = some holdtime := by
  refine holdTimeCourse_found (by decide) ?_ fits
  simp only [pimReceiveBufSize, sizeofPim]
  omega

theorem readingHoldTime_takes (s : Daemon) (data : Memory) (iphdrlen length : Int) :
    Takes Fault.outOfBounds (fun now => now = s) (fun now => now = s)
      (readingHoldTimeLoop (inReceiveBuf iphdrlen) data (64 * 1024 / 4) sizeofPim (length - sizeofPim))
      (readingHoldTimeLoop freely data (64 * 1024 / 4) sizeofPim (length - sizeofPim))
      (helloCourse iphdrlen data length) :=
  readingHoldTimeLoop_takes data _ _ _

theorem readingHello_same (fits : (helloCourse iphdrlen data length).fits) :
    readingHello (inReceiveBuf iphdrlen) host src data length s = receiveHello host src data length s := by
  rw [← readingHello_freely]
  refine bind_congr_of_runs fun valid middle _ => ?_
  by_cases refused : valid = false
  · rw [if_pos refused, if_pos refused]
  rw [if_neg refused, if_neg refused]
  exact bind_congr_at ((readingHoldTime_takes middle data iphdrlen length).same fits middle rfl) fun _ _ _ => rfl

theorem readingHello_strays (direct : findVifDirect host src ≠ 0) (correct : inetCksum data length = 0)
    (outside : ¬ (helloCourse iphdrlen data length).fits) :
    Fails (readingHello (inReceiveBuf iphdrlen) host src data length) s .outOfBounds := by
  refine fails_bind.mpr (Or.inr ⟨true, s, validPacket_accepts correct direct, ?_⟩)
  rw [if_neg Bool.noConfusion]
  exact fails_bind.mpr (Or.inl ((readingHoldTime_takes s data iphdrlen length).strays outside s rfl))

/-- The other receivers take the course of the buffer. -/
theorem readingBuffer_takes (walks : type ≠ .hello) (direct : findVifDirect host src ≠ 0)
    (correct : inetCksum data length = 0) :
    Takes Fault.outOfBounds (fun now => now = s) (fun _ => True)
      (readingPim (inReceiveBuf iphdrlen) host type src data length) (receivePim host type src data length)
      (bufferCourse iphdrlen host s src data length type) := by
  rw [bufferCourse_walks walks]
  exact readingPim_takes walks direct correct

/-- A packet that is not accepted is not read. -/
theorem ifAccepted_refused (refused : findVifDirect host src = 0 ∨ inetCksum data length ≠ 0)
    (body other : Vif → Act Unit) :
    ifAccepted host src data length body s = ifAccepted host src data length other s := by
  by_cases stranger : findVifDirect host src = 0
  · simp only [ifAccepted, if_pos stranger]
  · simp only [ifAccepted, if_neg stranger]
    refine bind_congr_of_runs fun valid middle run => ?_
    exact absurd (runs_validPacket run).2.1 (refused.resolve_left stranger)

theorem runs_readingPim (type : PimMessage) (walks : type ≠ .hello)
    (run : Runs (readingPim (inReceiveBuf iphdrlen) host type src data length) s () s') :
    Runs (receivePim host type src data length) s () s' := by
  by_cases refused : findVifDirect host src = 0 ∨ inetCksum data length ≠ 0
  · rw [← readingPim_freely]
    cases type with
    | hello => exact (walks rfl).elim
    | joinPrune | assert | graft | graftAck =>
        rw [readingPim] at run ⊢
        exact (ifAccepted_refused refused _ _).symm.trans run
  · obtain ⟨direct, correct⟩ := not_or.mp refused
    exact (readingBuffer_takes walks direct (not_not.mp correct)).runs rfl run

theorem runs_readingHello (run : Runs (readingHello (inReceiveBuf iphdrlen) host src data length) s () s') :
    Runs (receiveHello host src data length) s () s' := by
  rw [← readingHello_freely]
  obtain ⟨valid, middle, checked, rest⟩ := runs_bind.mp run
  refine runs_bind.mpr ⟨valid, middle, checked, ?_⟩
  by_cases refused : valid = false
  · rwa [if_pos refused] at rest ⊢
  rw [if_neg refused] at rest ⊢
  obtain ⟨holdtime, later, read, rest⟩ := runs_bind.mp rest
  exact runs_bind.mpr ⟨holdtime, later, (readingHoldTime_takes middle data iphdrlen length).runs rfl read, rest⟩

/-- What completes in the buffer is what the daemon does. -/
theorem handle_of_buffer {event : Event} (run : Runs (handleInBuffer iphdrlen host event) s () s') :
    Runs (handle host event) s () s' := by
  cases event with
  | pimInput type src data length =>
      cases type with
      | hello => exact runs_readingHello run
      | joinPrune => exact runs_readingPim .joinPrune (by decide) run
      | assert => exact runs_readingPim .assert (by decide) run
      | graft => exact runs_readingPim .graft (by decide) run
      | graftAck => exact runs_readingPim .graftAck (by decide) run
  | _ => exact run

/-- A Hello that starts with its hold time is read no further. -/
theorem helloCourse_of_holdTime (header : 0 ≤ iphdrlen) (room : length ≤ pimReceiveBufSize - iphdrlen)
    (least : 10 ≤ length)
    (one : load16 data 4 = htons 1) (two : load16 data 6 = htons 2) : (helloCourse iphdrlen data length).fits ∧
      (helloCourse iphdrlen data length).next = some ((ntohs (load16 data 8)).toNat : Int) := by
  have body : sizeofPim = 4 := rfl
  have fuel : 64 * 1024 / 4 = 16383 + 1 := rfl
  have long : ¬ (0 ≤ length - 4 ∧ length - 4 < 4) := by omega
  have time : ntohs (htons 1) = 1 := by decide
  have wide : ¬ (ntohs (htons 2)).toNat ≠ 2 := by decide
  rw [helloCourse, fuel, holdTimeCourse, body, if_neg long]
  rw [show (4 : Int) + 2 = 6 from rfl, show (4 : Int) + 4 = 8 from rfl, one, two, if_pos time, if_neg wide]
  refine ⟨⟨⟨?_, ?_⟩, fun _ _ => ⟨⟨?_, ?_⟩, fun _ _ => trivial⟩⟩, rfl⟩
  all_goals omega

/-! ## Short walks -/

/-- A round of a loop over sources does not move the cursor by more than one source. -/
def ShortMoves (moved : Ptr → Int) : Prop := ∀ mymrt, 0 ≤ moved mymrt ∧ moved mymrt ≤ 8

theorem sourceCourse_moves {moved : Ptr → Int} (short : ShortMoves moved) {mydata next : Int}
    (found : (sourceCourse first last s data group moved mydata).next = some next) :
    mydata ≤ next ∧ next ≤ mydata + 8 := by
  have size : sizeofSource = 8 := rfl
  change afterSource s data group moved mydata = some next at found
  unfold afterSource at found
  split at found
  · cases found
    omega
  · split at found
    · cases found
    · rename_i mymrt _
      have bounds := short mymrt
      split at found
      · cases found
        omega
      · cases found
        omega

/-- A loop over sources leads at most to the end of as many sources as it has rounds. -/
theorem times_sourceCourse {moved : Ptr → Int} (short : ShortMoves moved) (count : Nat) {mydata : Int}
    (low : first ≤ mydata + 4) (high : mydata + 8 * count ≤ last) :
    (Course.times (sourceCourse first last s data group moved) count mydata).fits ∧
      ∀ next, (Course.times (sourceCourse first last s data group moved) count mydata).next = some next →
        mydata ≤ next ∧ next ≤ mydata + 8 * count := by
  induction count generalizing mydata with
  | zero =>
      refine ⟨trivial, fun next found => ?_⟩
      cases found
      omega
  | succ count ih =>
      have each : (sourceCourse first last s data group moved mydata).fits :=
        ⟨⟨low, by omega⟩, fun _ _ => trivial⟩
      refine ⟨⟨each, fun middle found => ?_⟩, fun next found => ?_⟩
      · have moves := sourceCourse_moves short found
        exact (ih (by omega) (by omega)).1
      · obtain ⟨middle, head, tail⟩ := Option.bind_eq_some_iff.mp found
        have moves := sourceCourse_moves short head
        have rest := (ih (by omega) (by omega)).2 next tail
        omega

theorem shortMoves_byAll {all : Int} (positive : 0 ≤ all) (single : all ≤ 1) : ShortMoves (byAll all) := by
  intro mymrt
  simp only [byAll, sizeofSource]
  omega

theorem shortMoves_byCounter {all : Int} (positive : 0 ≤ all) (single : all ≤ 1) : ShortMoves (byCounter s all) := by
  intro mymrt
  simp only [byCounter, sizeofSource]
  split <;> omega

theorem shortMoves_zero : ShortMoves fun _ => 0 := by
  intro mymrt
  change (0 : Int) ≤ 0 ∧ (0 : Int) ≤ 8
  omega

theorem groupCourse_fits {joinMoved pruneMoved : Int → Ptr → Int} {mydata : Int}
    (joins : ∀ all, 0 ≤ all → all ≤ 1 → ShortMoves (joinMoved all))
    (prunes : ∀ all, 0 ≤ all → all ≤ 1 → ShortMoves (pruneMoved all))
    (one : (ntohs (readGroupHeader data mydata).joinField).toNat +
      (ntohs (readGroupHeader data mydata).pruneField).toNat ≤ 1)
    (low : first ≤ mydata) (high : mydata + 20 ≤ last) :
    (groupCourse first last s data joinMoved pruneMoved mydata).fits := by
  refine ⟨⟨low, by omega⟩, fun _ _ => Course.ite_fits (fun _ => trivial) fun _ => ?_⟩
  have after : first ≤ mydata + 12 + 4 := by omega
  have room : mydata + 12 + 8 * (ntohs (readGroupHeader data mydata).joinField).toNat ≤ last := by omega
  refine ⟨(times_sourceCourse (joins _ (by omega) (by omega)) _ after room).1, fun next found => ?_⟩
  have moves := (times_sourceCourse (joins _ (by omega) (by omega)) _ after room).2 next found
  exact (times_sourceCourse (prunes _ (by omega) (by omega)) _ (by omega) (by omega)).1

theorem graftGroupCourse_fits {mydata : Int} (one : (ntohs (readGroupHeader data mydata).joinField).toNat ≤ 1)
    (low : first ≤ mydata) (high : mydata + 20 ≤ last) : (graftGroupCourse first last s data mydata).fits := by
  refine ⟨⟨low, by omega⟩, fun _ _ => Course.ite_fits (fun _ => trivial) fun _ => ?_⟩
  exact ⟨(times_sourceCourse shortMoves_zero _ (by omega) (by omega)).1, fun _ _ => trivial⟩

theorem graftAckGroupCourse_fits {mydata : Int} (few : (readGroupHeader data mydata).joinField.toInt ≤ 256)
    (low : first ≤ mydata) (high : mydata + 12 + 8 * 256 ≤ last) :
    (graftAckGroupCourse first last s data mydata).fits := by
  refine ⟨⟨low, by omega⟩, fun _ _ => Course.ite_fits (fun _ => trivial) fun _ => ?_⟩
  exact (times_sourceCourse shortMoves_zero _ (by omega) (by omega)).1

/-! ## One group and one source -/

/-- What follows the header has one group, with one source, joined or pruned. -/
structure OneSourceBody (data : Memory) : Prop where
  groups : (readJoinPruneHeader data).numGroups = 1
  sources : joinCount data + pruneCount data = 1

theorem Decodes.oneSourceBody {upstream group source : Addr} {holdtime : Int} {joins prunes : Nat}
    (decodes : Decodes data upstream holdtime group joins prunes source) (one : joins + prunes = 1) :
      OneSourceBody data where
  groups := by rw [decodes.header]
  sources := by rw [decodes.joins, decodes.prunes, one]

/-- The counts lie in the first 34 bytes. -/
theorem OneSourceBody.congr {other : Memory} (same : ∀ place, 4 ≤ place → place < 34 → data place = other place)
    (single : OneSourceBody other) : OneSourceBody data := by
  have header : readJoinPruneHeader other =
      ⟨(readJoinPruneHeader other).upstream, 1, (readJoinPruneHeader other).holdtime⟩ := by rw [← single.groups]
  have decodes : Decodes other _ _ (namedGroup other) (joinCount other) (pruneCount other) (namedSource other) :=
    ⟨header, rfl, rfl, rfl, rfl⟩
  exact (decodes.congr same).oneSourceBody single.sources

/-- A router of this byte order takes the count of one source for 256. -/
theorem OneSourceBody.signedCount (single : OneSourceBody data) :
    (readGroupHeader data groupsStart).joinField.toInt ≤ 256 := by
  have sources := single.sources
  generalize read : ntohs (readGroupHeader data groupsStart).joinField = count
  have written : (readGroupHeader data groupsStart).joinField = htons count := by
    rw [← read]
    exact (ntohs_htons _).symm
  rw [joinCount, read] at sources
  have few : count = 0 ∨ count = 1 := by
    have cases : count.toNat = 0 ∨ count.toNat = 1 := by omega
    exact cases.imp BitVec.eq_of_toNat_eq BitVec.eq_of_toNat_eq
  rw [written]
  rcases few with rfl | rfl
  · decide
  · decide

theorem OneSourceBody.times_fits (single : OneSourceBody data) {round : Int → Course Int}
    (fits : (round groupsStart).fits) :
    ((Course.times round (readJoinPruneHeader data).numGroups.toNat groupsStart).andThen fun _ => .value ()).fits := by
  rw [single.groups]
  exact ⟨⟨fits, fun _ _ => trivial⟩, fun _ _ => trivial⟩

theorem joinPruneCourse_fits (single : OneSourceBody data) (low : first ≤ 6) (high : 34 ≤ last) :
    (joinPruneCourse first last host s src data).fits := by
  have start : groupsStart = 14 := rfl
  have body : sizeofPim = 4 := rfl
  have count : (ntohs _).toNat + (ntohs _).toNat = 1 := single.sources
  have group : ∀ {prunes : Int → Ptr → Int}, (∀ all, 0 ≤ all → all ≤ 1 → ShortMoves (prunes all)) →
      (groupCourse first last s data byAll prunes groupsStart).fits := fun short =>
    groupCourse_fits (fun _ => shortMoves_byAll) short (by omega) (by omega) (by omega)
  refine ⟨⟨by omega, by omega⟩, fun _ _ => Course.ite_fits (fun _ => trivial) fun _ => Course.ite_fits ?_ ?_⟩
  · refine fun _ => ⟨trivial, fun neighbor _ => Course.ite_fits (fun _ => ?_) fun _ => trivial⟩
    exact single.times_fits (group fun _ => shortMoves_byCounter)
  · exact fun _ => single.times_fits (group fun _ => shortMoves_byAll)

theorem graftsCourse_fits (single : OneSourceBody data) {group : Int → Course Int} (low : first ≤ 6) (high : 34 ≤ last)
    (fits : (group groupsStart).fits) : (graftsCourse first last data group).fits := by
  have body : sizeofPim = 4 := rfl
  refine ⟨⟨by omega, by omega⟩, fun _ _ => ⟨⟨by omega, by omega⟩, fun _ _ => ?_⟩⟩
  exact Course.ite_fits (fun _ => trivial) fun _ => single.times_fits fits

theorem metricsCourse_fits (low : first ≤ 18) (high : 26 ≤ last) (compared : Prop) [Decidable compared] :
    (metricsCourse first last compared).fits := by
  have body : sizeofPim = 4 := rfl
  exact Course.ite_fits (fun _ => ⟨by omega, by omega⟩) fun _ => trivial

theorem assertCourse_fits (low : first ≤ 8) (high : 26 ≤ last) : (assertCourse first last host s src data).fits := by
  have body : sizeofPim = 4 := rfl
  refine ⟨⟨by omega, by omega⟩, fun _ _ => ⟨⟨by omega, by omega⟩, fun _ _ => ⟨trivial, fun mymrt _ => ?_⟩⟩⟩
  refine Course.ite_fits (fun _ => trivial) fun _ => ⟨trivial, fun e _ => Course.ite_fits ?_ ?_⟩
  · exact fun _ => ⟨metricsCourse_fits (by omega) high _, fun _ _ => trivial⟩
  · exact fun _ => ⟨metricsCourse_fits (by omega) high _, fun _ _ => trivial⟩

/-- A message with one group and one source does not lead far behind its end. -/
theorem walkCourse_fits (single : type ≠ .assert → OneSourceBody data) (low : first ≤ 6) (high : 2074 ≤ last) :
    (walkCourse first last host s src data type).fits := by
  have start : groupsStart = 14 := rfl
  cases type with
  | hello => trivial
  | joinPrune => exact joinPruneCourse_fits (single (by decide)) low (by omega)
  | assert => exact assertCourse_fits (by omega) (by omega)
  | graft =>
      have one := single (by decide)
      have count : (ntohs _).toNat + (ntohs _).toNat = 1 := one.sources
      exact graftsCourse_fits one low (by omega) (graftGroupCourse_fits (by omega) (by omega) (by omega))
  | graftAck =>
      have one := single (by decide)
      exact graftsCourse_fits one low (by omega) (graftAckGroupCourse_fits one.signedCount (by omega) (by omega))

end PimDm.Refinement
