import PimDm.Refinement.GroupRecords

/-!
# Messages that change nothing

Timers are numbered, messages are recorded and group records are never returned to
the heap, so a handler that sets a timer, sends a message or makes a record never
comes back to the state it started in.  For each handler of
`igmp.c` and `multicastpacket.c` this leaves the branches on which the daemon is as
it was.
-/

namespace PimDm.Refinement

open PimDm.Foundation PimDm.Source PimDm.Effect

variable {s s' : Daemon} {host : Host} {α β : Type}

/-! ## Timers set, messages sent and records made -/

/-- How many timers were set, messages sent and group records made so far. -/
def activity (s : Daemon) : Int := s.id + s.trace.length + s.groups.size

theorem steady_activity : Steady fun s s' => activity s ≤ activity s' :=
  ⟨fun _ => Int.le_refl _, Int.le_trans⟩

/-- A program that takes none of these back. -/
abbrev Calm (program : Act α) : Prop := Within (fun s s' => activity s ≤ activity s') program

/-- A program that does one of these whenever it completes. -/
abbrev Stirs (program : Act α) : Prop := Within (fun s s' => activity s < activity s') program

theorem activity_update (update : Update) (s : Daemon) : activity s ≤ activity (update.apply s) := by
  cases update with
  | clearTimer timer =>
      rw [Update.apply, Daemon.clearTimer]
      split
      · exact Int.le_refl _
      · exact Int.le_refl _
  | setTimer delay action =>
      simp only [activity, Update.apply, Daemon.setTimer]
      omega
  | send packet entry =>
      simp only [activity, Update.apply, Daemon.observe, List.length_cons]
      omega
  | query src dst type code group =>
      simp only [activity, Update.apply, Daemon.observe, List.length_cons]
      omega
  | callDelLeaf vif group =>
      simp only [activity, Update.apply, Daemon.observe, List.length_cons]
      omega
  | addedSg source group =>
      simp only [activity, Update.apply, Daemon.observe, List.length_cons]
      omega
  | deletedSg source group =>
      simp only [activity, Update.apply, Daemon.observe, List.length_cons]
      omega
  | linkGroup vif record =>
      simp only [activity, Update.apply, Daemon.linkGroup, Heap.size_alloc]
      omega
  | leavePhase record leaveQuery timeout =>
      simp only [activity, Update.apply, Daemon.setGroup, Heap.size_modify]
      omega
  | groupNext record next =>
      simp only [activity, Update.apply, Daemon.setGroup, Heap.size_modify]
      omega
  | freeGroup record content =>
      simp only [activity, Update.apply, Daemon.setGroup, Heap.size_modify]
      omega
  | _ => exact Int.le_refl _

/-- Every program of the source is calm. -/
theorem calm_of_changes (level : Level) {program : Act α}
    (changes : Within (Changes level Anything) program) : Calm program :=
  within_of_does changes steady_activity fun update state _ =>
    activity_update update state

theorem stirs_first {first : Act α} {rest : α → Act β} (head : Stirs first)
    (tail : ∀ value, Calm (rest value)) : Stirs (first >>= rest) := by
  intro start result final run
  obtain ⟨value, middle, ran, continued⟩ := runs_bind.mp run
  exact Int.lt_of_lt_of_le (head _ _ _ ran) (tail value _ _ _ continued)

theorem stirs_rest {first : Act α} {rest : α → Act β} (head : Calm first)
    (tail : ∀ value, Stirs (rest value)) : Stirs (first >>= rest) := by
  intro start result final run
  obtain ⟨value, middle, ran, continued⟩ := runs_bind.mp run
  exact Int.lt_of_le_of_lt (head _ _ _ ran) (tail value _ _ _ continued)

theorem Stirs.calm {program : Act α} (stirs : Stirs program) : Calm program :=
  within_mono (fun _ _ => Int.le_of_lt) stirs

/-- A program that stirs does not end where it started. -/
theorem Stirs.moves {program : Act α} (stirs : Stirs program) {value : α} : ¬ Runs program s value s :=
  fun run => Int.lt_irrefl _ (stirs s value s run)

theorem stirs_timerSetTimer (delay : Int) (action : Callback) : Stirs (timerSetTimer delay action) := by
  intro start timer final run
  rw [(runs_timerSetTimer.mp run).2]
  simp only [activity, Daemon.setTimer]
  omega

theorem stirs_observe (observation : Observation) : Stirs (observe observation) := by
  intro start result final run
  rw [runs_modify.mp run]
  simp only [activity, Daemon.observe, List.length_cons]
  omega

theorem stirs_pimdmOutput (src dst : Addr) (type : Nat) (length : Int) (entry : Ptr) :
    Stirs (pimdmOutput src dst type length entry) := by
  refine stirs_rest (calm_of_changes .quiet (writeSendBuf_changes _)) fun _ => ?_
  refine stirs_rest (within_get steady_activity) fun state => ?_
  exact stirs_observe _

/-! ## Kernel messages -/

/-- `print_sg` ends exactly on a null-terminated table. -/
theorem runs_printSg_iff : Runs printSg s () s ↔ s.mrts.Linked Mrt.next s.themrt := by
  unfold printSg forMrt
  rw [runs_get_bind]
  constructor
  · intro run
    obtain ⟨blocks, chain⟩ := forEach_nothing run
    exact Heap.linked_of_chain chain
  · intro linked
    have same : ∀ address : Ptr, Within (fun before after : Daemon =>
        after.mrts.links Mrt.next = before.mrts.links Mrt.next) (pure () : Act Unit) :=
      fun _ => within_pure (steady_same _) ()
    refine (forEach_runs (fun address => same address) linked (Nat.lt_succ_of_le linked.length_le)).mpr ?_
    induction s.mrts.list Mrt.next s.themrt with
    | nil => exact runs_pure.mpr ⟨rfl, rfl⟩
    | cons address rest ih => exact runs_bind.mpr ⟨(), s, runs_pure.mpr ⟨rfl, rfl⟩, ih⟩

/-- `find_sg` of the state. -/
def sgOf (s : Daemon) (source group : Addr) : Except HeapFault Ptr :=
  s.mrts.find Mrt.next (Mrt.isFor source group) (s.mrts.size + 1) s.themrt

/-- The source and group have no entry, or one without outgoing interfaces in a table
that can be printed. -/
def NothingToAssert (s : Daemon) (source group : Addr) : Prop :=
  sgOf s source group = .ok 0 ∨ ∃ mymrt e, sgOf s source group = .ok mymrt ∧
    s.mrts.get? mymrt = some e ∧ e.outnumber = 0 ∧ s.mrts.Linked Mrt.next s.themrt

theorem stirs_addSg (gateway source group : Addr) (incoming : Vif) :
    Stirs (addSg host gateway source group incoming) := by
  refine stirs_rest (within_get steady_activity) fun state => ?_
  refine stirs_rest (calm_of_changes .table (does_foldProgram _ _ fun i _ so =>
    addSgVif_changes group incoming so i)) fun built => ?_
  refine stirs_rest (stirs_timerSetTimer _ _).calm fun timeout => ?_
  refine stirs_rest (stirs_timerSetTimer _ _).calm fun check => ?_
  refine stirs_rest (calm_of_changes .table (does_modify (.linkMrt _) ⟨Nat.le_refl _, trivial⟩ fun _ => rfl))
    fun _ => stirs_first (stirs_observe _) fun _ => ?_
  exact calm_of_changes .table (does_bind (announceSg_changes (fun _ => trivial) host source _)
    fun _ => printSg_changes)

theorem runs_checkIncoming {gateway address : Addr} {vif : Vif} {right : Bool} :
    Runs (checkIncoming host gateway vif address) s right s' ↔
      getUpstream host gateway address ≠ 0 ∧
        right = (findVifDirect host (getUpstream host gateway address) == vif) ∧ s' = s := by
  constructor
  · intro run
    obtain ⟨found, _, asked, compared⟩ := runs_bind.mp run
    obtain ⟨rfl, rfl⟩ := runs_pure.mp compared
    rcases runs_ite.mp asked with ⟨_, fault⟩ | ⟨routed, answer⟩
    · exact (runs_throw.mp fault).elim
    · obtain ⟨rfl, rfl⟩ := runs_pure.mp answer
      exact ⟨routed, rfl, rfl⟩
  · rintro ⟨routed, rfl, rfl⟩
    exact runs_bind.mpr ⟨_, s', runs_ite.mpr (Or.inr ⟨routed, runs_pure.mpr ⟨rfl, rfl⟩⟩),
      runs_pure.mpr ⟨rfl, rfl⟩⟩

/-- The first packet of a source is ignored, and not fatal, when it came in on another
interface than the one towards the source. -/
theorem newMulticastPacket_rests {mydata : MulticastErrorData} {checked routed : Addr} :
    Runs (newMulticastPacket host mydata checked routed) s () s ↔
      getUpstream host checked mydata.source ≠ 0 ∧
        findVifDirect host (getUpstream host checked mydata.source) ≠ mydata.vif := by
  have stirs : Stirs (do
      addSg host routed mydata.source mydata.destination mydata.vif
      changeMfc host mydata.source mydata.destination mydata.vif : Act Unit) :=
    stirs_first (stirs_addSg _ _ _ _) fun _ =>
      calm_of_changes .forwarding (changeMfc_changes (Nat.le_refl _) host _ _ _)
  constructor
  · intro run
    obtain ⟨right, _, checking, acting⟩ := runs_bind.mp run
    obtain ⟨known, rfl, rfl⟩ := runs_checkIncoming.mp checking
    refine ⟨known, fun same => ?_⟩
    rcases runs_onlyIf.mp acting with ⟨_, ran⟩ | ⟨other, _⟩
    · exact stirs.moves ran
    · exact other (beq_iff_eq.mpr same)
  · rintro ⟨known, other⟩
    refine runs_bind.mpr ⟨_, s, runs_checkIncoming.mpr ⟨known, rfl, rfl⟩, ?_⟩
    exact runs_onlyIf.mpr (Or.inr ⟨fun same => other (beq_iff_eq.mp same), rfl⟩)

theorem stirs_pimAssertOutput (source group : Addr) (vif : Vif) (preference metric : BitVec 32) :
    Stirs (pimAssertOutput host source group vif preference metric) :=
  stirs_rest (calm_of_changes .quiet (writeSendBuf_changes _)) fun _ => stirs_pimdmOutput _ _ _ _ _

theorem wrongMulticastPacket_rests {mydata : MulticastErrorData} :
    Runs (wrongMulticastPacket host mydata) s () s ↔
      NothingToAssert s mydata.source mydata.destination := by
  constructor
  · intro run
    obtain ⟨mymrt, _, search, decided⟩ := runs_bind.mp run
    obtain ⟨found, rfl⟩ := runs_findMrt.mp search
    rcases runs_ite.mp decided with ⟨rfl, _⟩ | ⟨_, printing⟩
    · exact Or.inl found
    obtain ⟨_, _, print, reading⟩ := runs_bind.mp printing
    obtain rfl := runs_printSg print
    obtain ⟨e, _, load, asserting⟩ := runs_bind.mp reading
    obtain ⟨content, rfl⟩ := runs_loadMrt.mp load
    rcases runs_onlyIf.mp asserting with ⟨_, sent⟩ | ⟨idle, _⟩
    · exact ((stirs_pimAssertOutput _ _ _ _ _).moves sent).elim
    · exact Or.inr ⟨mymrt, e, found, content, not_not.mp idle, runs_printSg_iff.mp print⟩
  · rintro (absent | ⟨mymrt, e, found, content, idle, linked⟩)
    · exact runs_bind.mpr ⟨0, s, runs_findMrt.mpr ⟨absent, rfl⟩, runs_pure.mpr ⟨rfl, rfl⟩⟩
    · have nonnull : mymrt ≠ 0 := by
        rintro rfl
        cases content
      refine runs_bind.mpr ⟨mymrt, s, runs_findMrt.mpr ⟨found, rfl⟩, ?_⟩
      rw [if_neg nonnull]
      refine runs_bind.mpr ⟨(), s, runs_printSg_iff.mpr linked, ?_⟩
      refine runs_bind.mpr ⟨e, s, runs_loadMrt.mpr ⟨content, rfl⟩, ?_⟩
      exact runs_onlyIf.mpr (Or.inr ⟨not_not.mpr idle, rfl⟩)

/-- The kernel's message asks for nothing: a first packet on a wrong interface, or a
packet on a wrong interface where there is nothing to assert. -/
structure QuietUpcall (host : Host) (s : Daemon) (mydata : MulticastErrorData) (checked : Addr) : Prop where
  new : mydata.message = 1 → getUpstream host checked mydata.source ≠ 0 ∧
    findVifDirect host (getUpstream host checked mydata.source) ≠ mydata.vif
  wrong : mydata.message = 2 → NothingToAssert s mydata.source mydata.destination

theorem multicastPacketError_rests {mydata : MulticastErrorData} {checked routed : Addr} :
    Runs (multicastPacketError host mydata checked routed) s () s ↔ QuietUpcall host s mydata checked := by
  constructor
  · intro run
    obtain ⟨_, _, first, second⟩ := runs_bind.mp run
    rcases runs_onlyIf.mp first with ⟨new, ran⟩ | ⟨other, rfl⟩
    · rcases runs_onlyIf.mp second with ⟨wrong, _⟩ | ⟨_, rfl⟩
      · rw [new] at wrong
        cases wrong
      refine ⟨fun _ => newMulticastPacket_rests.mp ran, fun wrong => ?_⟩
      rw [new] at wrong
      cases wrong
    · refine ⟨fun new => (other new).elim, fun wrong => ?_⟩
      rcases runs_onlyIf.mp second with ⟨_, ran⟩ | ⟨neither, _⟩
      · exact wrongMulticastPacket_rests.mp ran
      · exact (neither wrong).elim
  · rintro ⟨new, wrong⟩
    refine runs_bind.mpr ⟨(), s, ?_, ?_⟩
    · by_cases first : mydata.message = 1
      · exact runs_onlyIf.mpr (Or.inl ⟨first, newMulticastPacket_rests.mpr (new first)⟩)
      · exact runs_onlyIf.mpr (Or.inr ⟨first, rfl⟩)
    · by_cases second : mydata.message = 2
      · exact runs_onlyIf.mpr (Or.inl ⟨second, wrongMulticastPacket_rests.mpr (wrong second)⟩)
      · exact runs_onlyIf.mpr (Or.inr ⟨second, rfl⟩)

/-! ## IGMP messages -/

/-- A query of our own, or of a stranger, or of a station that is no better querier
than this router, which is the querier. -/
def QuietQuery (host : Host) (s : Daemon) (src : Addr) : Prop :=
  isLocalAddress host src ≠ 0 ∨ findVifDirect host src = 0 ∨
    ((s.myvifs (findVifDirect host src)).querier = 0 ∧
      (ntohl (host.iface (findVifDirect host src)).address).toNat ≤ (ntohl src).toNat)

theorem calm_expectReports (vif : Vif) (group : Addr) : Calm (forGroups vif (expectReport vif group)) :=
  calm_of_changes .quiet (forGroups_changes vif fun g => expectReport_changes trivial g)

theorem activity_awaiting (s : Daemon) (vif : Vif) (old : Int) (querier : Addr) (query : Int) :
    activity s < activity (awaiting s vif old querier query) := by
  have kept : activity s ≤ activity (s.clearTimer old) := activity_update (.clearTimer old) s
  refine Int.lt_of_le_of_lt kept ?_
  simp only [activity, awaiting, Daemon.setMyvif, Daemon.setTimer]
  omega

theorem acceptMembershipQuery_rests {src group : Addr} :
    Runs (acceptMembershipQuery host src group) s () s ↔ QuietQuery host s src := by
  constructor
  · intro run
    rcases acceptMembershipQuery_hears run with ⟨unheard, _⟩ | ⟨_, middle, hears, rest⟩
    · rcases unheard with ours | stranger
      · exact Or.inl ours
      · exact Or.inr (Or.inl stranger)
    · have back : activity middle ≤ activity s :=
        within_onlyIf steady_activity (fun _ => calm_expectReports _ group) _ _ _ rest
      cases hears with
      | ignored own larger => exact Or.inr (Or.inr ⟨own, Nat.le_of_not_lt larger⟩)
      | deferred own smaller => exact absurd (activity_awaiting s _ _ _ _) (Int.not_lt.mpr back)
      | renewed other later => exact absurd (activity_awaiting s _ _ _ _) (Int.not_lt.mpr back)
      | yielded other smaller =>
          have first := activity_awaiting s (findVifDirect host src)
            (s.myvifs (findVifDirect host src)).querierRetryId (s.myvifs (findVifDirect host src)).querier
            (s.myvifs (findVifDirect host src)).igmpQuerytimerId
          exact absurd (Int.lt_trans first (activity_awaiting _ _ _ _ _)) (Int.not_lt.mpr back)
  · unfold acceptMembershipQuery electQuerier
    rintro (ours | stranger | ⟨own, larger⟩)
    · rw [if_pos ours]
      exact runs_pure.mpr ⟨rfl, rfl⟩
    · rw [if_pos stranger, ite_self]
      exact runs_pure.mpr ⟨rfl, rfl⟩
    · refine runs_ite.mpr ?_
      by_cases ours : isLocalAddress host src ≠ 0
      · exact Or.inl ⟨ours, runs_pure.mpr ⟨rfl, rfl⟩⟩
      refine Or.inr ⟨ours, runs_ite.mpr ?_⟩
      by_cases stranger : findVifDirect host src = 0
      · exact Or.inl ⟨stranger, runs_pure.mpr ⟨rfl, rfl⟩⟩
      refine Or.inr ⟨stranger, runs_get_bind.mpr (runs_bind.mpr ⟨(), s, ?_, ?_⟩)⟩
      · exact runs_onlyIf.mpr (Or.inr ⟨not_not.mpr own, rfl⟩)
      refine runs_bind.mpr ⟨(), s, runs_get_bind.mpr ?_, ?_⟩
      · rw [if_pos (Or.inl own), if_pos own]
        exact runs_onlyIf.mpr (Or.inr ⟨Nat.not_lt.mpr larger, rfl⟩)
      · exact runs_get_bind.mpr (runs_onlyIf.mpr (Or.inr ⟨fun both => both.1 own, rfl⟩))

/-- The search for the record of a group in the list of an interface. -/
def groupOf (s : Daemon) (vif : Vif) (group : Addr) : Except HeapFault Ptr :=
  s.groups.find IgmpGroup.next (fun g => g.address == group) (s.groups.size + 1) (s.myvifs vif).groups

theorem runs_findGroup_iff {vif : Vif} {group : Addr} {record : Ptr} :
    Runs (findGroup vif group) s record s' ↔ groupOf s vif group = .ok record ∧ s' = s := by
  rw [findGroup, runs_get_bind, runs_liftHeap]
  rfl

/-- A report of a stranger, or of a group that is known and not being left. -/
def QuietReport (host : Host) (s : Daemon) (src group : Addr) : Prop :=
  findVifDirect host src = 0 ∨ ∃ record g, groupOf s (findVifDirect host src) group = .ok record ∧
    s.groups.get? record = some g ∧ g.leaveQuery = 0

/-- The leave of a stranger, or on an interface this router does not query, or of a
group nobody has joined. -/
def QuietLeave (host : Host) (s : Daemon) (src group : Addr) : Prop :=
  findVifDirectLocal host src = 0 ∨ (s.myvifs (findVifDirectLocal host src)).querier ≠ 0 ∨
    groupOf s (findVifDirectLocal host src) group = .ok 0

theorem acceptGroupReport_rests {src group : Addr} :
    Runs (acceptGroupReport host src group) s () s ↔ QuietReport host s src group := by
  constructor
  · intro run
    rcases runs_ite.mp run with ⟨stranger, _⟩ | ⟨_, search⟩
    · exact Or.inl stranger
    obtain ⟨record, _, looked, decided⟩ := runs_bind.mp search
    obtain ⟨found, same⟩ := runs_findGroup_iff.mp looked
    rw [same] at decided
    rcases runs_ite.mp decided with ⟨nonnull, cancel⟩ | ⟨_, create⟩
    · obtain ⟨g, content, _⟩ := Heap.find_holds found nonnull
      refine Or.inr ⟨record, g, found, content, ?_⟩
      rcases cancelLeave_disarms content cancel with ⟨idle, _⟩ | ⟨busy, disarmed⟩
      · exact idle
      · have cleared : s.groups.get? record = some { g with leaveQuery := 0, timeout := 2 } := by
          rw [disarmed, disarm, Daemon.setGroup, Heap.get?_modify_same, clearTimer_groups, content]
          rfl
        exact congrArg IgmpGroup.leaveQuery (Option.some.inj (content.symm.trans cleared))
    · have made : Stirs (modify fun state : Daemon => state.linkGroup (findVifDirect host src)
          { host.mallocGroup state.groups.fresh with address := group, leaveQuery := 0, timeout := 2 } :
            Act Unit) := by
        intro start result final link
        rw [runs_modify.mp link]
        simp only [activity, Daemon.linkGroup, Heap.size_alloc]
        omega
      exact ((stirs_first made fun _ => calm_of_changes .forwarding
        (addLeaf_changes (Nat.le_refl _) (fun _ => trivial) host _ group)).moves create).elim
  · rintro (stranger | ⟨record, g, found, content, idle⟩)
    · exact runs_ite.mpr (Or.inl ⟨stranger, runs_pure.mpr ⟨rfl, rfl⟩⟩)
    by_cases stranger : findVifDirect host src = 0
    · exact runs_ite.mpr (Or.inl ⟨stranger, runs_pure.mpr ⟨rfl, rfl⟩⟩)
    have nonnull : record ≠ 0 := by
      rintro rfl
      cases content
    refine runs_ite.mpr (Or.inr ⟨stranger, runs_bind.mpr ⟨record, s, runs_findGroup_iff.mpr ⟨found, rfl⟩, ?_⟩⟩)
    refine runs_ite.mpr (Or.inl ⟨nonnull, runs_bind.mpr ⟨g, s, runs_loadGroup.mpr ⟨content, rfl⟩, ?_⟩⟩)
    exact runs_onlyIf.mpr (Or.inr ⟨not_not.mpr idle, rfl⟩)

theorem acceptLeaveMessage_rests {src group : Addr} :
    Runs (acceptLeaveMessage host src group) s () s ↔ QuietLeave host s src group := by
  unfold acceptLeaveMessage
  constructor
  · intro run
    rcases runs_ite.mp run with ⟨stranger, _⟩ | ⟨_, asking⟩
    · exact Or.inl stranger
    rw [runs_get_bind] at asking
    rcases runs_ite.mp asking with ⟨other, _⟩ | ⟨_, search⟩
    · exact Or.inr (Or.inl other)
    obtain ⟨record, _, looked, decided⟩ := runs_bind.mp search
    obtain ⟨found, rfl⟩ := runs_findGroup_iff.mp looked
    rcases runs_ite.mp decided with ⟨rfl, _⟩ | ⟨_, querying⟩
    · exact Or.inr (Or.inr found)
    refine (Stirs.moves ?_ querying).elim
    refine stirs_rest (calm_of_changes .quiet (loadGroup_changes record)) fun g => ?_
    refine stirs_rest (calm_of_changes .quiet (does_onlyIf fun _ => timerClearTimer_changes _)) fun _ => ?_
    refine stirs_first (stirs_observe _) fun _ => calm_of_changes .quiet ?_
    exact does_bind (timerSetTimer_changes _ trivial) fun timer => storeLeavePhase_changes record timer 1
  · rintro (stranger | other | absent)
    · exact runs_ite.mpr (Or.inl ⟨stranger, runs_pure.mpr ⟨rfl, rfl⟩⟩)
    · refine runs_ite.mpr ?_
      by_cases stranger : findVifDirectLocal host src = 0
      · exact Or.inl ⟨stranger, runs_pure.mpr ⟨rfl, rfl⟩⟩
      exact Or.inr ⟨stranger, runs_get_bind.mpr (runs_ite.mpr (Or.inl ⟨other, runs_pure.mpr ⟨rfl, rfl⟩⟩))⟩
    · refine runs_ite.mpr ?_
      by_cases stranger : findVifDirectLocal host src = 0
      · exact Or.inl ⟨stranger, runs_pure.mpr ⟨rfl, rfl⟩⟩
      refine Or.inr ⟨stranger, runs_get_bind.mpr (runs_ite.mpr ?_)⟩
      by_cases other : (s.myvifs (findVifDirectLocal host src)).querier ≠ 0
      · exact Or.inl ⟨other, runs_pure.mpr ⟨rfl, rfl⟩⟩
      exact Or.inr ⟨other, runs_bind.mpr ⟨0, s, runs_findGroup_iff.mpr ⟨absent, rfl⟩, runs_pure.mpr ⟨rfl, rfl⟩⟩⟩

end PimDm.Refinement
