import PimDm.Refinement.Courses
import PimDm.Refinement.Packets

/-!
# What lies behind a packet

A receiver whose reads are guarded with the length of the packet does the same on two
buffers that hold the same packet.  So a receiver all of whose reads lie in the packet
does not depend on what an earlier packet has left behind it.
-/

namespace PimDm.Refinement

open PimDm.Foundation PimDm.Source

variable {host : Host} {data other : Memory} {length offset size : Int} {group : Addr} {α : Type}

/-- The bytes at an offset, as many as `size` says, lie in the packet. -/
def Inside (length offset size : Int) : Prop := Between 0 length offset size

/-- Two buffers hold the same packet. -/
def Agree (length : Int) (data other : Memory) : Prop :=
  ∀ place, 0 ≤ place → place < length → data place = other place

namespace Agree

variable (agree : Agree length data other)
include agree

theorem byte (within : Inside length offset 1) : data offset = other offset :=
  agree offset within.1 (by have := within.2; omega)

theorem load16 (within : Inside length offset 2) : load16 data offset = load16 other offset := by
  obtain ⟨low, high⟩ := within
  unfold Source.load16
  rw [agree offset low (by omega), agree (offset + 1) (by omega) (by omega)]

theorem load32 (within : Inside length offset 4) : load32 data offset = load32 other offset := by
  obtain ⟨low, high⟩ := within
  exact load32_congr fun place _ _ => agree place (by omega) (by omega)

theorem bcopy : (fun buf => bcopy data buf 0 length.toNat) = fun buf => bcopy other buf 0 length.toNat := by
  funext buf place
  unfold Source.bcopy
  by_cases copied : 0 ≤ place ∧ place < 0 + (length.toNat : Int)
  · rw [if_pos copied, if_pos copied, Int.sub_zero]
    exact agree place copied.1 (by omega)
  · rw [if_neg copied, if_neg copied]

end Agree

/-- What is read after a guard only has to agree where the guard lets it pass. -/
theorem inside_congr {first second : Unit → Act α} (same : Inside length offset size → first () = second ()) :
    (inside length offset size >>= first) = (inside length offset size >>= second) := by
  unfold inside
  by_cases within : 0 ≤ offset ∧ offset + size ≤ length
  · rw [if_pos within]
    exact same within
  · rw [if_neg within]
    rfl

theorem readingSource_congr {round also : Int → Act Int} (agree : Agree length data other)
    (same : ∀ mydata, load32 data (mydata + 4) = load32 other (mydata + 4) → round mydata = also mydata) :
    readingSource (inside length) round = readingSource (inside length) also := by
  funext mydata
  exact inside_congr fun within => same mydata (agree.load32 within)

theorem eachSource_congr {action : Addr → Ptr → Act Int} (agree : Agree length data other) :
    readingSource (inside length) (eachSource data group action) =
      readingSource (inside length) (eachSource other group action) := by
  refine readingSource_congr agree fun mydata same => ?_
  unfold eachSource
  rw [same]

theorem graftSource_congr (agree : Agree length data other) (vif : Vif) (src : Addr) :
    readingSource (inside length) (graftSource host vif src data length group) =
      readingSource (inside length) (graftSource host vif src other length group) := by
  refine readingSource_congr agree fun mydata same => ?_
  unfold graftSource
  rw [same, agree.bcopy]

theorem addressedPrune_congr (agree : Agree length data other) (vif : Vif) (holdtime : Int) :
    addressedPrune host vif data length holdtime = addressedPrune host vif other length holdtime := by
  funext all source mymrt
  unfold addressedPrune
  rw [agree.bcopy]

/-- The fields of a group header that are read lie in the packet. -/
theorem header_congr (agree : Agree length data other) {mydata : Int} (within : Inside length mydata 10) :
    (readGroupHeader data mydata).group = (readGroupHeader other mydata).group ∧
      (readGroupHeader data mydata).joinField = (readGroupHeader other mydata).joinField := by
  obtain ⟨low, high⟩ := within
  exact ⟨agree.load32 ⟨by omega, by omega⟩, agree.load16 ⟨by omega, by omega⟩⟩

theorem readingGroup_congr (agree : Agree length data other) (joinAction pruneAction : Int → Addr → Ptr → Act Int) :
    readingGroup (inside length) data joinAction pruneAction =
      readingGroup (inside length) other joinAction pruneAction := by
  funext mydata
  refine inside_congr fun within => ?_
  obtain ⟨low, high⟩ := within
  have first : Inside length mydata 10 := ⟨low, by omega⟩
  obtain ⟨group, joins⟩ := header_congr agree first
  have prunes : (readGroupHeader data mydata).pruneField = (readGroupHeader other mydata).pruneField :=
    agree.load16 ⟨by omega, by omega⟩
  simp only [group, joins, prunes, eachSource_congr agree]

theorem readingGraftGroup_congr (agree : Agree length data other) (vif : Vif) (src : Addr) :
    readingGraftGroup (inside length) host vif src data length =
      readingGraftGroup (inside length) host vif src other length := by
  funext mydata
  refine inside_congr fun within => ?_
  obtain ⟨group, joins⟩ := header_congr agree within
  simp only [group, joins, graftSource_congr agree]

theorem readingGraftAckGroup_congr (agree : Agree length data other) :
    readingGraftAckGroup (inside length) data = readingGraftAckGroup (inside length) other := by
  funext mydata
  refine inside_congr fun within => ?_
  obtain ⟨group, joins⟩ := header_congr agree within
  have sources : readingSource (inside length) (graftAckSource data (readGroupHeader other mydata).group) =
      readingSource (inside length) (graftAckSource other (readGroupHeader other mydata).group) :=
    eachSource_congr agree
  simp only [group, joins, sources]

theorem validPacket_congr (agree : Agree length data other) (src : Addr) :
    validPacket host src data length = validPacket host src other length := by
  unfold validPacket
  rw [inetCksum_congr agree]

/-- The header of a Join/Prune or Graft lies in the packet. -/
theorem joinPruneHeader_congr (agree : Agree length data other) (within : Inside length (sizeofPim + 2) 8) :
    readJoinPruneHeader data = readJoinPruneHeader other := by
  obtain ⟨low, high⟩ := within
  unfold readJoinPruneHeader
  rw [agree.load32 ⟨low, by omega⟩, agree.byte ⟨by decide, by omega⟩, agree.load16 ⟨by decide, by omega⟩]

theorem readingJoinPrune_congr (agree : Agree length data other) (vif : Vif) :
    readingJoinPrune (inside length) host data length vif = readingJoinPrune (inside length) host other length vif := by
  refine inside_congr fun within => ?_
  simp only [joinPruneHeader_congr agree within, readingGroup_congr agree, addressedPrune_congr agree]

theorem readingGrafts_congr (agree : Agree length data other) (group : Int → Act Int) :
    readingGrafts (inside length) data group = readingGrafts (inside length) other group := by
  refine inside_congr fun _ => inside_congr fun within => ?_
  have number : (readJoinPruneHeader data).numGroups = (readJoinPruneHeader other).numGroups :=
    congrArg BitVec.toInt (agree.byte within)
  simp only [number]

/-- Preference and metric are read where they are compared. -/
theorem metrics_congr (agree : Agree length data other) {compared : Prop} [Decidable compared]
    (group : (readAssert data).group = (readAssert other).group)
    (source : (readAssert data).source = (readAssert other).source) {act : AssertBody → Act Unit} {s : Daemon}
    (ignored : ¬ compared → act (readAssert data) s = act (readAssert other) s) :
    (onlyIf compared (inside length (sizeofPim + 14) 8) >>= fun _ => act (readAssert data)) s =
      (onlyIf compared (inside length (sizeofPim + 14) 8) >>= fun _ => act (readAssert other)) s := by
  by_cases holds : compared
  · have bodies : Inside length (sizeofPim + 14) 8 → act (readAssert data) = act (readAssert other) := by
      rintro ⟨low, high⟩
      have preference : (readAssert data).preference = (readAssert other).preference :=
        agree.load32 ⟨low, by omega⟩
      have metric : (readAssert data).metric = (readAssert other).metric := agree.load32 ⟨by decide, by omega⟩
      have same : readAssert data = readAssert other := by
        cases first : readAssert data
        cases second : readAssert other
        simp_all
      rw [same]
    unfold onlyIf
    rw [if_pos holds]
    exact congrFun (inside_congr bodies) s
  · unfold onlyIf
    rw [if_neg holds]
    exact ignored holds

theorem readingAssert_congr (agree : Agree length data other) (vif : Vif) :
    readingAssert (inside length) host data vif = readingAssert (inside length) host other vif := by
  refine inside_congr fun first => inside_congr fun second => ?_
  have group : (readAssert data).group = (readAssert other).group := agree.load32 first
  have source : (readAssert data).source = (readAssert other).source := agree.load32 second
  funext s
  rw [← group, ← source]
  refine bind_congr_of_runs fun mymrt s' _ => ?_
  by_cases null : mymrt = 0
  · rw [if_pos null, if_pos null]
  rw [if_neg null, if_neg null]
  refine bind_congr_of_runs fun e now load => ?_
  obtain ⟨content, rfl⟩ := runs_loadMrt.mp load
  have loaded {act also : Mrt → Act Unit} (same : act e now = also e now) :
      (loadMrt mymrt >>= act) now = (loadMrt mymrt >>= also) now := by
    refine bind_congr_of_runs fun e' again load => ?_
    obtain ⟨content', rfl⟩ := runs_loadMrt.mp load
    obtain rfl := Option.some.inj (content.symm.trans content')
    exact same
  by_cases incoming : vif = e.incoming
  · rw [if_pos incoming, if_pos incoming]
    refine metrics_congr agree group source fun same => loaded ?_
    have own := not_not.mp same
    rw [if_pos own, if_pos (source.symm.trans own)]
  · rw [if_neg incoming, if_neg incoming]
    refine metrics_congr agree group source fun same => loaded ?_
    rw [if_pos (not_not.mp same), if_pos (not_not.mp same)]

/-- A guarded receiver does the same on two buffers that hold the same packet. -/
theorem readingPim_congr {type : PimMessage} (other_type : type ≠ .hello) (agree : Agree length data other)
    (src : Addr) :
    readingPim (inside length) host type src data length = readingPim (inside length) host type src other length := by
  cases type with
  | hello => exact (other_type rfl).elim
  | joinPrune | assert | graft | graftAck =>
      simp only [readingPim, ifAccepted, validPacket_congr agree, readingJoinPrune_congr agree,
        readingAssert_congr agree, readingGrafts_congr agree, readingGraftGroup_congr agree,
        readingGraftAckGroup_congr agree]

end PimDm.Refinement
