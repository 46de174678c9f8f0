import PimDm.Refinement.Packets
import PimDm.Refinement.OneSource

/-!
# Asserts from router to router

What `pim_assert_output` sends is read by `receive_assert` as it was meant, and
what `receive_assert` does with it on an interface the entry forwards on: it
answers, or it sets a timer.
-/

namespace PimDm.Refinement

open PimDm.Foundation PimDm.Source

variable {s s' : Daemon} {host : Host} {source group : Addr} {vif : Vif} {preference metric : BitVec 32}

/-! ## The packet -/

/-- The Assert that `pim_assert_output` sends when the send buffer holds `buf`. -/
def assertPacket (host : Host) (vif : Vif) (buf : Memory) (source group : Addr)
    (preference metric : BitVec 32) : PimPacket :=
  ⟨pimAssert, (host.iface vif).address, allpimrouters,
    (List.range (sizeofPim + assertLength).toNat).map fun place : Nat =>
      writePimHeader (writeAssert buf source group preference metric) pimAssert assertLength place⟩

/-- The send buffer after an Assert. -/
def assertWritten (source group : Addr) (preference metric : BitVec 32) (buf : Memory) : Memory :=
  writePimHeader (writeAssert buf source group preference metric) pimAssert assertLength

theorem runs_pimAssertOutput :
    Runs (pimAssertOutput host source group vif preference metric) s () s' ↔
      s' = (s.writeBuf (assertWritten source group preference metric)).observe
        (.pim (assertPacket host vif s.pimSendBuf source group preference metric) 0) := by
  have sent : ∀ final, Runs (pimdmOutput (host.iface vif).address allpimrouters pimAssert assertLength 0)
      (s.writeBuf fun buf => writeAssert buf source group preference metric) () final ↔
        final = (s.writeBuf (assertWritten source group preference metric)).observe
          (.pim (assertPacket host vif s.pimSendBuf source group preference metric) 0) := by
    intro final
    rw [runs_pimdmOutput, writeBuf_writeBuf, writeBuf_pimSendBuf]
    exact Iff.rfl
  constructor
  · intro run
    obtain ⟨_, _, write, send⟩ := runs_bind.mp run
    obtain rfl := runs_modify.mp write
    exact (sent s').mp send
  · intro answered
    exact runs_bind.mpr ⟨(), _, runs_modify.mpr rfl, (sent s').mpr answered⟩

/-- The bytes of a packet in the receive buffer. -/
def received (packet : PimPacket) : Memory := fun place => packet.bytes.getD place.toNat 0

theorem assertPacket_length (host : Host) (vif : Vif) (buf : Memory) (source group : Addr)
    (preference metric : BitVec 32) :
    (assertPacket host vif buf source group preference metric).bytes.length = 28 := by
  simp [assertPacket, sizeofPim, assertLength]

theorem received_assert (host : Host) (vif : Vif) (buf : Memory) (source group : Addr)
    (preference metric : BitVec 32) {place : Int} (low : 0 ≤ place) (high : place < 28) :
    received (assertPacket host vif buf source group preference metric) place =
      writePimHeader (writeAssert buf source group preference metric) pimAssert assertLength place := by
  obtain ⟨index, rfl⟩ := Int.eq_ofNat_of_zero_le low
  have inside : index < (sizeofPim + assertLength).toNat := by
    simp only [sizeofPim, assertLength]
    omega
  simp [received, assertPacket, List.getD, inside]

/-- The receiver reads the source, the group and the preference of the sender. -/
theorem readAssert_received (host : Host) (vif : Vif) (buf : Memory) (source group : Addr)
    (preference metric : BitVec 32) :
    readAssert (received (assertPacket host vif buf source group preference metric)) =
      ⟨group, source, preference, metric⟩ := by
  have reads : ∀ offset : Int, 4 ≤ offset → offset + 4 ≤ 28 →
      load32 (received (assertPacket host vif buf source group preference metric)) offset =
        load32 (writeAssert buf source group preference metric) offset := by
    intro offset low high
    refine load32_congr fun place above below => ?_
    rw [received_assert host vif buf source group preference metric (by omega) (by omega)]
    unfold writePimHeader
    rw [store16_apart _ _ (by omega), store16_apart _ _ (by omega), store8_apart _ _ (by omega)]
  have word : ∀ (buf : Memory) (offset other : Int) (value : BitVec 32),
      other + 4 ≤ offset ∨ offset + 4 ≤ other → load32 (store32 buf offset value) other = load32 buf other := by
    intro buf offset other value apart
    exact load32_congr fun place above below => store32_apart buf value (by omega)
  have option : ∀ (buf : Memory) (offset other : Int), other + 4 ≤ offset ∨ offset + 2 ≤ other →
      load32 (writeUnicastOption buf offset) other = load32 buf other := by
    intro buf offset other apart
    refine load32_congr fun place above below => ?_
    unfold writeUnicastOption
    rw [store8_apart _ _ (by omega), store8_apart _ _ (by omega)]
  have address : ∀ (buf : Memory) (offset : Int) (value : Addr),
      load32 (writeEncodedAddress buf offset value) (offset + 4) = value :=
    fun buf offset value => load32_store32 _ _ _
  unfold readAssert
  rw [reads _ (by decide) (by decide), reads _ (by decide) (by decide), reads _ (by decide) (by decide),
    reads _ (by decide) (by decide)]
  simp only [writeAssert, sizeofPim, AssertBody.mk.injEq]
  refine ⟨?_, ?_, ?_, ?_⟩
  · rw [word _ _ _ _ (by decide), word _ _ _ _ (by decide), word _ _ _ _ (by decide),
      option _ _ _ (by decide)]
    exact address buf 4 group
  · rw [word _ _ _ _ (by decide), word _ _ _ _ (by decide)]
    exact load32_store32 _ 14 source
  · rw [word _ _ _ _ (by decide)]
    exact load32_store32 _ 18 preference
  · exact load32_store32 _ 22 metric

theorem validPacket_assert {src : Addr} (direct : findVifDirect host src ≠ 0) (sender : Host)
    (place : Vif) (buf : Memory) :
    Runs (validPacket host src (received (assertPacket sender place buf source group preference metric))
      (assertPacket sender place buf source group preference metric).bytes.length) s true s := by
  have correct : inetCksum (received (assertPacket sender place buf source group preference metric))
      (assertPacket sender place buf source group preference metric).bytes.length = 0 := by
    rw [assertPacket_length]
    have positive : 0 ≤ assertLength := by decide
    have written := inetCksum_written (writeAssert buf source group preference metric) pimAssert positive
      (by decide)
    refine Eq.trans ?_ written
    refine inetCksum_congr fun place low high => ?_
    exact received_assert sender _ buf source group preference metric low high
  exact validPacket_accepts correct direct

/-! ## The receiver -/

/-- The entry that `find_sg` finds. -/
def HasEntry (s : Daemon) (source group : Addr) (r : Route) : Prop :=
  ∃ mymrt e, Finds s source group mymrt ∧ mymrt ≠ 0 ∧ s.mrts.get? mymrt = some e ∧ e.toRoute = r

/-- An entry wins `assert_compare` against an Assert with these values. -/
def Wins (r : Route) (source : Addr) (preference metric : BitVec 32) : Prop :=
  assertCompare r.preference r.metric r.upstream preference metric source = 1

instance (r : Route) (source : Addr) (preference metric : BitVec 32) :
    Decidable (Wins r source preference metric) :=
  inferInstanceAs (Decidable (_ = _))

/-- What an entry says to an Assert on an interface it forwards on. -/
def reply (host : Host) (vif : Vif) (buf : Memory) (source group : Addr) (r : Route)
    (preference metric : BitVec 32) : List Observation :=
  if Wins r source preference metric then
    [.pim (assertPacket host vif buf source group r.preference r.metric) 0]
  else []

theorem assertDownstream_replies {mymrt : Ptr} {e : Mrt} (found : Finds s source group mymrt)
    (nonnull : mymrt ≠ 0) (here : s.mrts.get? mymrt = some e) (forwards : e.outvif vif = 1) :
    ∃ s', Runs (assertDownstream host vif mymrt ⟨group, source, preference, metric⟩) s () s' ∧
      HasEntry s' source group e.toRoute ∧
      s'.trace = reply host vif s.pimSendBuf source group e.toRoute preference metric ++ s.trace := by
  have load : Runs (loadMrt mymrt) s e s := runs_loadMrt.mpr ⟨here, rfl⟩
  have open_ : ¬ e.outvif vif = 0 := by
    rw [forwards]
    decide
  unfold reply
  by_cases wins : Wins e.toRoute source preference metric
  · refine ⟨(s.writeBuf (assertWritten source group e.preference e.metric)).observe
        (.pim (assertPacket host vif s.pimSendBuf source group e.preference e.metric) 0),
      runs_bind.mpr ⟨e, s, load, ?_⟩, ⟨mymrt, e, found, nonnull, here, rfl⟩, ?_⟩
    · rw [if_neg open_]
      exact runs_ite.mpr (Or.inl ⟨wins, runs_pimAssertOutput.mpr rfl⟩)
    · rw [if_pos wins]
      rfl
  · refine ⟨(s.setTimer pimAssertTimer (.activeForward vif)).setMrt mymrt
        (Mrt.setPruneDelayTimer vif (s.id + 1)),
      runs_bind.mpr ⟨e, s, load, ?_⟩, ?_, ?_⟩
    · rw [if_neg open_]
      refine runs_ite.mpr (Or.inr ⟨wins, ?_⟩)
      refine runs_bind.mpr ⟨s.id + 1, _, runs_timerSetTimer.mpr ⟨rfl, rfl⟩, ?_⟩
      exact runs_storeMrt.mpr ⟨⟨e, here⟩, rfl⟩
    · have armed : Finds (s.setTimer pimAssertTimer (.activeForward vif)) source group mymrt := found
      refine ⟨mymrt, Mrt.setPruneDelayTimer vif (s.id + 1) e, armed.setMrt mymrt (fun _ => rfl) fun _ => rfl,
        nonnull, ?_, rfl⟩
      exact setMrt_get? here _
    · rw [if_neg wins]
      rfl

/-- An Assert on an interface the entry forwards on is answered or sets a timer.  The
entry forwards as before. -/
theorem receiveAssert_replies {r : Route} (entry : HasEntry s source group r)
    (downstream : vif ≠ r.incoming) (forwards : r.outvif vif = 1) {sender : Host} {place : Vif}
    (direct : findVifDirect host (sender.iface place).address = vif) (served : vif ≠ 0) (buf : Memory) :
    ∃ s', Runs (receiveAssert host (sender.iface place).address
        (received (assertPacket sender place buf source group preference metric))
        (assertPacket sender place buf source group preference metric).bytes.length) s () s' ∧
      HasEntry s' source group r ∧
      s'.trace = reply host vif s.pimSendBuf source group r preference metric ++ s.trace := by
  obtain ⟨mymrt, e, found, nonnull, here, rfl⟩ := entry
  subst direct
  obtain ⟨s', run, kept, sent⟩ : ∃ s', Runs (assertDownstream host (findVifDirect host
      (sender.iface place).address) mymrt ⟨group, source, preference, metric⟩) s () s' ∧
        HasEntry s' source group e.toRoute ∧ s'.trace = reply host _ s.pimSendBuf source group e.toRoute
          preference metric ++ s.trace := assertDownstream_replies found nonnull here forwards
  refine ⟨s', ?_, kept, sent⟩
  unfold receiveAssert
  dsimp only
  rw [if_neg served, readAssert_received]
  refine runs_bind.mpr ⟨true, s, validPacket_assert served sender place buf, ?_⟩
  rw [if_neg (by decide)]
  refine runs_bind.mpr ⟨mymrt, s, runs_findMrt.mpr ⟨found, rfl⟩, ?_⟩
  rw [if_neg nonnull]
  refine runs_bind.mpr ⟨e, s, runs_loadMrt.mpr ⟨here, rfl⟩, ?_⟩
  rw [if_neg downstream]
  exact run

end PimDm.Refinement
