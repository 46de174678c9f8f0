import PimDm.Refinement.Models
import PimDm.Routing.Passes

/-!
# What `check_pim_state` sends

The Grafts and Prunes of each entry are counted in the trace.  One check sends a
message for every entry whose counter stands at the level of the check, and does
not ask whether the entry has changed.
-/

namespace PimDm.Refinement

open PimDm.Foundation PimDm.Source PimDm.Effect PimDm.Routing

variable {s s' : Daemon} {t : Table} {host : Host}

/-! ## Counting messages -/

/-- The messages that announce a change of an entry to its upstream neighbour. -/
inductive Announcement where
  | graft
  | prune
  deriving DecidableEq, Repr

/-- A Graft, or a Join/Prune with one pruned source: its count is in the bytes 24
and 25, in network order. -/
def Announcement.fits : Announcement → PimPacket → Bool
  | .graft, packet => packet.type == pimGraft
  | .prune, packet =>
      packet.type == pimJoinPrune && packet.bytes[24]? == some 0 && packet.bytes[25]? == some 1

/-- The observation is such a message, built from this entry. -/
def Announcement.tells (kind : Announcement) (mymrt : Ptr) : Observation → Bool
  | .pim packet entry => kind.fits packet && entry == mymrt
  | _ => false

/-- How many such messages were sent so far. -/
def messages (kind : Announcement) (mymrt : Ptr) (s : Daemon) : Nat := s.trace.countP (kind.tells mymrt)

theorem messages_send (kind : Announcement) (mymrt entry : Ptr) (packet : PimPacket) :
    messages kind mymrt (s.observe (.pim packet entry)) =
      messages kind mymrt s + if kind.fits packet = true ∧ entry = mymrt then 1 else 0 := by
  simp only [messages, Daemon.observe, List.countP_cons, Announcement.tells, Bool.and_eq_true,
    beq_iff_eq]

/-! ## Senders -/

theorem writeBuf_writeBuf (s : Daemon) (first second : Memory → Memory) :
    (s.writeBuf first).writeBuf second = s.writeBuf (second ∘ first) := rfl

theorem writeBuf_pimSendBuf (s : Daemon) (write : Memory → Memory) :
    (s.writeBuf write).pimSendBuf = write s.pimSendBuf := rfl

theorem runs_pimdmOutput {src dst : Addr} {type : Nat} {length : Int} {entry : Ptr} :
    Runs (pimdmOutput src dst type length entry) s () s' ↔
      s' = (s.writeBuf fun buf => writePimHeader buf type length).observe
        (.pim ⟨type, src, dst, (List.range (sizeofPim + length).toNat).map fun place : Nat =>
          writePimHeader s.pimSendBuf type length place⟩ entry) := by
  constructor
  · intro run
    obtain ⟨_, written, store, rest⟩ := runs_bind.mp run
    obtain rfl := runs_modify.mp store
    rw [runs_get_bind] at rest
    exact runs_modify.mp rest
  · rintro rfl
    refine runs_bind.mpr ⟨(), _, runs_modify.mpr rfl, ?_⟩
    rw [runs_get_bind]
    exact runs_modify.mpr rfl

/-- The count of pruned sources lies behind everything the header writes. -/
theorem pruneCount_written (buf : Memory) (r : Route) (holdtime : Int) (joins prunes : BitVec 16) :
    writePimHeader (writeOneSource buf r holdtime joins prunes) pimJoinPrune oneSourceLength 24 =
        prunes.extractLsb' 0 8 ∧
      writePimHeader (writeOneSource buf r holdtime joins prunes) pimJoinPrune oneSourceLength 25 =
        prunes.extractLsb' 8 8 := by
  simp [writePimHeader, writeOneSource, writeEncodedAddress, store32, store16, store8]

/-- A Join/Prune with the counts 0 and 1 is a Prune. -/
theorem prune_fits (buf : Memory) (r : Route) (holdtime : Int) (src dst : Addr) :
    Announcement.prune.fits ⟨pimJoinPrune, src, dst,
      (List.range (sizeofPim + oneSourceLength).toNat).map fun place : Nat =>
        writePimHeader (writeOneSource buf r holdtime (htons 0) (htons 1)) pimJoinPrune oneSourceLength
          place⟩ = true := by
  obtain ⟨low, high⟩ := pruneCount_written buf r holdtime (htons 0) (htons 1)
  have long : (sizeofPim + oneSourceLength).toNat = 34 := by decide
  have one : (htons 1).extractLsb' 0 8 = 0 ∧ (htons 1).extractLsb' 8 8 = 1 := by decide
  have counts := And.intro (low.trans one.1) (high.trans one.2)
  simpa [Announcement.fits, long] using counts

theorem sendPrune_sends {mymrt : Ptr} (run : Runs (sendPrune host mymrt) s () s') (kind : Announcement)
    (other : Ptr) : messages kind other s' =
      messages kind other s + if kind = .prune ∧ mymrt = other then 1 else 0 := by
  obtain ⟨e, _, load, output⟩ := runs_bind.mp run
  obtain ⟨_, rfl⟩ := runs_loadMrt.mp load
  obtain ⟨e', loaded, reload, writing⟩ := runs_bind.mp output
  obtain ⟨_, rfl⟩ := runs_loadMrt.mp reload
  obtain ⟨_, _, write, send⟩ := runs_bind.mp writing
  obtain rfl := runs_modify.mp write
  obtain rfl := runs_pimdmOutput.mp send
  rw [messages_send]
  cases kind with
  | graft => simp [Announcement.fits, pimJoinPrune, pimGraft, messages, Daemon.writeBuf]
  | prune =>
      have fits := prune_fits loaded.pimSendBuf e'.toRoute e.incoming (host.iface e'.incoming).address
        allpimrouters
      refine congrArg (messages .prune other loaded + ·) (if_congr ?_ rfl rfl)
      exact and_congr_left fun _ => ⟨fun _ => rfl, fun _ => fits⟩

theorem pimGraftOutput_sends {mymrt : Ptr} (run : Runs (pimGraftOutput host mymrt) s () s')
    (kind : Announcement) (other : Ptr) : messages kind other s' =
      messages kind other s + if kind = .graft ∧ mymrt = other then 1 else 0 := by
  obtain ⟨e, _, load, writing⟩ := runs_bind.mp run
  obtain ⟨_, rfl⟩ := runs_loadMrt.mp load
  obtain ⟨_, _, write, send⟩ := runs_bind.mp writing
  obtain rfl := runs_modify.mp write
  obtain rfl := runs_pimdmOutput.mp send
  rw [messages_send]
  cases kind with
  | graft => simp [Announcement.fits, messages, Daemon.writeBuf]
  | prune => simp [Announcement.fits, pimJoinPrune, pimGraft, messages, Daemon.writeBuf]

/-- `plan_graft` for an entry of the table sends one Graft, unless the upstream
neighbour is the source itself. -/
theorem planGraft_sends (models : Models s t) {item : Ptr × Route} (member : item ∈ t.entries)
    (far : item.2.upstream ≠ item.2.source) (run : Runs (planGraft host item.1) s () s')
    (kind : Announcement) (other : Ptr) : messages kind other s' =
      messages kind other s + if kind = .graft ∧ item.1 = other then 1 else 0 := by
  obtain ⟨e, here, same⟩ := models.entries.found member
  obtain ⟨_, _, load, search⟩ := runs_bind.mp run
  obtain ⟨again, rfl⟩ := runs_loadMrt.mp load
  obtain rfl := Option.some.inj (here.symm.trans again)
  obtain ⟨thismrt, _, looked, deciding⟩ := runs_bind.mp search
  obtain ⟨rfl, rfl⟩ := models.runs_findSg.mp looked
  have present : addressOf (t.find (routeIsFor e.source e.group)) ≠ 0 := by
    rw [Ne, models.addressOf_find]
    intro none
    have absent := List.find?_eq_none.mp none item member
    simp [routeIsFor, ← same] at absent
  rcases runs_ite.mp deciding with ⟨near, _⟩ | ⟨_, planning⟩
  · rw [← same] at far
    exact absurd near far
  rcases runs_ite.mp planning with ⟨_, sending⟩ | ⟨missing, _⟩
  · obtain ⟨_, sent, send, arming⟩ := runs_bind.mp sending
    obtain ⟨_, _, arm, store⟩ := runs_bind.mp arming
    obtain ⟨rfl, rfl⟩ := runs_timerSetTimer.mp arm
    obtain ⟨_, rfl⟩ := runs_storeMrt.mp store
    exact pimGraftOutput_sends send kind other
  · exact absurd present missing

/-! ## The check -/

/-- What a check announces. -/
def kindOf : Judge → Announcement
  | .addLeaf => .graft
  | .addNeighbor => .graft
  | .delLeaf => .prune
  | .delNeighbor => .prune

theorem checkEntry_sends (models : Models s t) {item : Ptr × Route} (member : item ∈ t.entries)
    {judge : Judge} (run : Runs (checkEntry host judge item.1) s () s') (kind : Announcement)
    (other : Ptr) : messages kind other s' = messages kind other s +
      if (kind = kindOf judge ∧ Announces judge item.2) ∧ item.1 = other then 1 else 0 := by
  obtain ⟨e, here, same⟩ := models.entries.found member
  obtain ⟨_, loaded, load, checking⟩ := runs_bind.mp run
  obtain ⟨again, rfl⟩ := runs_loadMrt.mp load
  obtain rfl := Option.some.inj (here.symm.trans again)
  obtain ⟨_, pruned, pruning, grafting⟩ := runs_bind.mp checking
  have far : Far item.2 ↔ e.upstream ≠ e.source := by
    rw [← same]
    exact Iff.rfl
  have announces : Announces judge item.2 ↔ e.upstream ≠ e.source ∧ e.outnumber = levelOf judge := by
    rw [← same]
    exact Iff.rfl
  have quiet : Within (Changes .quiet Anything)
      (onlyIf (e.outnumber = 0 ∧ (judge = .delLeaf ∨ judge = .delNeighbor))
        (onlyIf (e.upstream ≠ e.source) (sendPrune host item.1))) :=
    does_onlyIf fun _ => does_onlyIf fun _ => sendPrune_changes host item.1
  have first : messages kind other pruned = messages kind other loaded +
      if kind = .prune ∧ (e.outnumber = 0 ∧ (judge = .delLeaf ∨ judge = .delNeighbor)) ∧
        e.upstream ≠ e.source ∧ item.1 = other then 1 else 0 := by
    rcases runs_onlyIf.mp pruning with ⟨low, pruning⟩ | ⟨high, rfl⟩
    · rcases runs_onlyIf.mp pruning with ⟨away, send⟩ | ⟨near, rfl⟩
      · rw [sendPrune_sends send]
        simp [low, away]
      · simp [not_not.mp near]
    · simp [high]
  have second : messages kind other s' = messages kind other pruned +
      if kind = .graft ∧ (e.outnumber = 1 ∧ (judge = .addLeaf ∨ judge = .addNeighbor)) ∧
        e.upstream ≠ e.source ∧ item.1 = other then 1 else 0 := by
    rcases runs_onlyIf.mp grafting with ⟨one, grafting⟩ | ⟨high, rfl⟩
    · rcases runs_onlyIf.mp grafting with ⟨away, send⟩ | ⟨near, rfl⟩
      · rw [planGraft_sends (models_of_quiet quiet models pruning) member (far.mpr away) send]
        simp [one, away]
      · simp [not_not.mp near]
    · simp [high]
  rw [second, first]
  simp only [announces]
  cases judge <;> cases kind <;> simp [kindOf, levelOf, and_assoc, and_left_comm]

/-- The check, on a part of the table. -/
theorem checkList_sends {judge : Judge} {items : List (Ptr × Route)} (models : Models s t)
    (inside : ∀ item ∈ items, item ∈ t.entries) (distinct : (items.map Prod.fst).Nodup)
    (run : Runs (forList (checkEntry host judge) (items.map Prod.fst)) s () s') (kind : Announcement)
    (other : Ptr) : messages kind other s' = messages kind other s +
      if kind = kindOf judge ∧ ∃ item ∈ items, item.1 = other ∧ Announces judge item.2 then 1 else 0 := by
  induction items generalizing s with
  | nil =>
      rw [(runs_pure.mp run).2]
      simp
  | cons item rest ih =>
      obtain ⟨_, checked, check, continued⟩ := runs_bind.mp run
      obtain ⟨apart, distinct⟩ := List.nodup_cons.mp distinct
      have here := inside item (List.mem_cons_self ..)
      have still := models_of_quiet (checkEntry_changes (fun _ => trivial) host judge item.1) models check
      rw [ih still (fun _ member => inside _ (List.mem_cons_of_mem _ member)) distinct continued,
        checkEntry_sends models here check]
      by_cases same : item.1 = other
      · have alone : ¬ ∃ later ∈ rest, later.1 = other ∧ Announces judge later.2 := by
          rintro ⟨later, member, again, _⟩
          exact apart (List.mem_map.mpr ⟨later, member, again.trans same.symm⟩)
        simp [same, alone]
      · rw [if_neg fun both => same both.2, Nat.add_zero]
        refine congrArg (messages kind other s + ·) (if_congr (and_congr_right fun _ => ?_) rfl rfl)
        simp [same]

/-- What the checks of these tables send. -/
def Sent (judge : Judge) (tables : List Table) (s s' : Daemon) : Prop :=
  ∀ kind mymrt, messages kind mymrt s' = messages kind mymrt s +
    if kind = kindOf judge then tables.countP fun t => Table.Tells judge mymrt t else 0

theorem sent_of_trace (judge : Judge) (same : s'.trace = s.trace) : Sent judge [] s s' := by
  intro kind mymrt
  simp [messages, same]

theorem Sent.trans {judge : Judge} {early late : List Table} {middle : Daemon}
    (left : Sent judge early s middle) (right : Sent judge late middle s') :
    Sent judge (early ++ late) s s' := by
  intro kind mymrt
  rw [right, left, List.countP_append]
  split <;> omega

theorem sent_observe (judge : Judge) {observation : Observation}
    (other : ∀ packet entry, observation ≠ .pim packet entry) :
    Sent judge [] s (s.observe observation) := by
  intro kind mymrt
  have apart : ¬ kind.tells mymrt observation = true := by
    cases observation with
    | pim packet entry => exact absurd rfl (other packet entry)
    | _ => simp [Announcement.tells]
  simpa [messages, Daemon.observe] using List.countP_cons_of_neg apart

theorem checkEntry_links (host : Host) (judge : Judge) (mymrt : Ptr) :
    Within (fun before after => after.mrts.links Mrt.next = before.mrts.links Mrt.next)
      (checkEntry host judge mymrt) := by
  have changes : Within (Changes .quiet Anything) (checkEntry host judge mymrt) :=
    checkEntry_changes (fun _ => trivial) host judge mymrt
  exact links_of_changes (by decide) changes

/-- A run leaves this table, and has checked these tables on the way. -/
structure Follows (judge : Judge) (s s' : Daemon) (after : Table) (checked : List Table) : Prop where
  models : Models s' after
  sent : Sent judge checked s s'

/-- `check_pim_state` keeps the table and sends a message for each entry at the level. -/
theorem checkPimState_follows (models : Models s t) {judge : Judge}
    (run : Runs (checkPimState host judge) s () s') : Follows judge s s' t [t] := by
  have quiet : Within (Changes .quiet Anything) (checkPimState host judge) :=
    checkPimState_changes (fun _ => trivial) host judge
  refine ⟨models_of_quiet quiet models run, fun kind mymrt => ?_⟩
  have loop := (models.runs_forMrt (checkEntry_links host judge)).mp run
  rw [checkList_sends models (fun _ member => member) models.entries.nodup loop]
  by_cases told : Table.Tells judge mymrt t
  · simp [told, show ∃ item ∈ t.entries, item.1 = mymrt ∧ Announces judge item.2 from told]
  · simp [told, show ¬ ∃ item ∈ t.entries, item.1 = mymrt ∧ Announces judge item.2 from told]

end PimDm.Refinement
