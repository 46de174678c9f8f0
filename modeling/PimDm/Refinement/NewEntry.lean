import PimDm.Refinement.Checks
import PimDm.Refinement.Completion
import PimDm.Refinement.Echoes
import PimDm.Refinement.Entries

/-!
# The entry `add_sg` creates

`add_sg` links its record in before anything can go wrong.  What is in the record depends on
the block `malloc` returned; whether the call returns depends on the `next` field of the
block, and on that only if the table was empty.
-/

namespace PimDm.Refinement

open PimDm.Foundation PimDm.Source PimDm.Effect PimDm.Routing

variable {s s' : Daemon} {t : Table} {host : Host} {source group : Addr} {incoming : Vif}

/-- The route `add_sg` makes of a block. -/
def startRoute (host : Host) (t : Table) (upstream source group : Addr) (incoming : Vif) (block : Route) :
    Route where
  source := source
  group := group
  upstream := upstream
  incoming := incoming
  preference := 0
  metric := 0
  outvif vif := if vif ∈ host.vifs then startCell t group incoming vif (block.outvif vif) else block.outvif vif
  outnumber := (host.vifs.filter fun vif => decide (WantsVif t group incoming vif)).length

/-! ## The record -/

theorem addSgVif_ends (models : Models s t) (group : Addr) (incoming i : Vif) (so : Mrt × Int) :
    Achieves (fun now => now = s) (addSgVif group incoming so i) fun _ now => now = s := by
  refine achieves_ite (fun _ => ?_) fun _ => achieves_pure fun _ => id
  refine achieves_get_bind fun state _ => ?_
  refine achieves_ite (fun _ => achieves_pure fun now same => same.trans ‹_›) fun _ => ?_
  rintro now rfl
  obtain rfl : now = s := ‹_›
  exact ⟨_, now, runs_bind.mpr ⟨_, now, models.runs_findGroup.mpr ⟨rfl, rfl⟩, runs_pure.mpr ⟨rfl, rfl⟩⟩, rfl⟩

/-- Up to its record, `add_sg` completes; then it announces the record and follows the list. -/
theorem addSg_builds (host : Host) (models : Models s t) (gateway source group : Addr) (incoming : Vif) :
    ∃ newmrt, newmrt.next = (host.mallocMrt s.mrts.fresh).next ∧
      newmrt.toRoute = startRoute host t (getUpstream host gateway source) source group incoming
        (host.mallocMrt s.mrts.fresh).toRoute ∧
      ∀ s', Runs (addSg host gateway source group incoming) s () s' ↔
        ∃ announced, Runs (announceSg host source s.mrts.fresh) (linked (timed s source group) source group newmrt)
          () announced ∧ Runs printSg announced () s' := by
  let start : Mrt := { host.mallocMrt s.mrts.fresh with
    source := source
    group := group
    incoming := incoming
    upstream := getUpstream host gateway source
    preference := 0
    metric := 0
    joinDelayTimerId := 0 }
  have each : ∀ i ∈ host.vifs, ∀ so, Achieves (fun now => now = s) (addSgVif group incoming so i)
      fun _ now => now = s :=
    fun i _ so => addSgVif_ends models group incoming i so
  obtain ⟨built, looped, loop, same⟩ := achieves_foldProgram each (start, 0) s rfl
  rw [same] at loop
  obtain ⟨_, next, route, number⟩ := addSgLoop_models models host.nodup_vifs loop
  refine ⟨{ built.1 with
    outnumber := built.2
    graftTimerId := 0
    timeoutId := s.id + 1
    checkTimerid := s.id + 1 + 1 }, next, ?_, fun s' => ⟨fun run => ?_, ?_⟩⟩
  · simp [startRoute, route, number, start]
  · unfold addSg at run
    rw [runs_get_bind] at run
    obtain ⟨_, _, again, rest⟩ := runs_bind.mp run
    obtain ⟨rfl, rfl⟩ := runs_deterministic loop again
    obtain ⟨_, _, setTimeout, rest⟩ := runs_bind.mp rest
    obtain ⟨rfl, rfl⟩ := runs_timerSetTimer.mp setTimeout
    obtain ⟨_, _, setCheck, rest⟩ := runs_bind.mp rest
    obtain ⟨rfl, rfl⟩ := runs_timerSetTimer.mp setCheck
    obtain ⟨_, _, link, rest⟩ := runs_bind.mp rest
    obtain rfl := runs_modify.mp link
    obtain ⟨_, _, note, rest⟩ := runs_bind.mp rest
    obtain rfl := runs_modify.mp note
    obtain ⟨_, announced, announce, print⟩ := runs_bind.mp rest
    exact ⟨announced, announce, print⟩
  · rintro ⟨announced, announce, print⟩
    unfold addSg
    rw [runs_get_bind]
    refine runs_bind.mpr ⟨built, s, loop, runs_bind.mpr ⟨_, _, runs_timerSetTimer.mpr ⟨rfl, rfl⟩, ?_⟩⟩
    refine runs_bind.mpr ⟨_, _, runs_timerSetTimer.mpr ⟨rfl, rfl⟩, ?_⟩
    refine runs_bind.mpr ⟨(), _, runs_modify.mpr rfl, runs_bind.mpr ⟨(), _, runs_modify.mpr rfl, ?_⟩⟩
    exact runs_bind.mpr ⟨(), announced, announce, print⟩

/-! ## The announcement -/

/-- The table starts with this record. -/
def Starts (mymrt : Ptr) (e : Mrt) (s : Daemon) : Prop := s.themrt = mymrt ∧ s.mrts.get? mymrt = some e

section Starts

variable {mymrt : Ptr} {e : Mrt}

theorem loadMrt_starts : Achieves (Starts mymrt e) (loadMrt mymrt) fun read s => read = e ∧ Starts mymrt e s :=
  fun s starts => ⟨e, s, runs_loadMrt.mpr ⟨starts.2, rfl⟩, rfl, starts⟩

theorem storeMrt_starts (function : Mrt → Mrt) :
    Achieves (Starts mymrt e) (storeMrt mymrt function) fun _ _ => True :=
  fun _ starts => ⟨(), _, runs_storeMrt.mpr ⟨⟨e, starts.2⟩, rfl⟩, trivial⟩

theorem timerSetTimer_starts (delay : Int) (action : Callback) :
    Achieves (Starts mymrt e) (timerSetTimer delay action) fun _ => Starts mymrt e :=
  fun _ starts => ⟨_, _, runs_timerSetTimer.mpr ⟨rfl, rfl⟩, starts⟩

/-- A message written into the buffer and sent. -/
theorem send_starts (write : Memory → Memory) (src dst : Addr) (type : Nat) (length : Int) (entry : Ptr) :
    Achieves (Starts mymrt e) (do
      writeSendBuf write
      pimdmOutput src dst type length entry) fun _ => Starts mymrt e :=
  fun _ starts => ⟨(), _, runs_bind.mpr ⟨(), _, runs_modify.mpr rfl, runs_pimdmOutput.mpr rfl⟩, starts⟩

/-- A search for the record at the head ends at once. -/
theorem findSg_starts (nonnull : mymrt ≠ 0) :
    Achieves (Starts mymrt e) (findSg e.source e.group) fun _ => Starts mymrt e := by
  intro s starts
  refine ⟨mymrt, s, runs_findMrt.mpr ⟨?_, rfl⟩, starts⟩
  have here : Mrt.isFor e.source e.group e = true := by simp [Mrt.isFor]
  rw [Heap.find, starts.1, if_neg nonnull, starts.2]
  exact if_pos here

theorem planGraft_starts (nonnull : mymrt ≠ 0) (host : Host) :
    Achieves (Starts mymrt e) (planGraft host mymrt) fun _ _ => True := by
  refine achieves_bind loadMrt_starts fun read => achieves_of_fact fun same => ?_
  subst same
  refine achieves_bind (findSg_starts nonnull) fun thismrt => ?_
  refine achieves_ite (fun _ => achieves_pure fun _ _ => trivial) fun _ => ?_
  refine achieves_ite (fun _ => ?_) fun _ => achieves_pure fun _ _ => trivial
  have send : Achieves (Starts mymrt read) (pimGraftOutput host mymrt) fun _ => Starts mymrt read :=
    achieves_bind loadMrt_starts fun _ => achieves_of_fact fun _ => send_starts _ _ _ _ _ _
  refine achieves_bind send fun _ => ?_
  exact achieves_bind (timerSetTimer_starts _ _) fun timer => storeMrt_starts _

theorem sendPrune_starts (host : Host) :
    Achieves (Starts mymrt e) (sendPrune host mymrt) fun _ _ => True := by
  refine achieves_bind loadMrt_starts fun _ => achieves_of_fact fun _ => ?_
  refine achieves_bind loadMrt_starts fun _ => achieves_of_fact fun _ => ?_
  exact (send_starts _ _ _ _ _ _).mono fun _ _ _ => trivial

/-- A record at the head of the table is announced without following its list. -/
theorem announceSg_starts (nonnull : mymrt ≠ 0) (host : Host) (source : Addr) :
    Achieves (Starts mymrt e) (announceSg host source mymrt) fun _ _ => True := by
  have idle : Achieves (Starts mymrt e) (pure () : Act Unit) fun _ _ => True := achieves_pure fun _ _ => trivial
  refine achieves_bind loadMrt_starts fun _ => achieves_of_fact fun _ => ?_
  refine achieves_ite (fun _ => ?_) fun _ => ?_
  · exact achieves_ite (fun _ => planGraft_starts nonnull host) fun _ => idle
  · exact achieves_ite (fun _ => sendPrune_starts host) fun _ => idle

end Starts

/-! ## The list -/

/-- A record in front of the table ends the list if the table is not empty or its own link does. -/
theorem linked_ends_iff (models : Models s t) (source group : Addr) (newmrt : Mrt) :
    (linked (timed s source group) source group newmrt).mrts.Linked Mrt.next s.mrts.fresh ↔
      (s.themrt = 0 → s.mrts.Linked Mrt.next newmrt.next) := by
  have alloc := Heap.linked_alloc_iff Mrt.next s.mrts
    (if s.themrt = 0 then newmrt else { newmrt with next := s.themrt })
  rw [linked_next] at alloc
  refine alloc.trans ?_
  by_cases empty : s.themrt = 0
  · rw [if_pos empty, forall_prop_of_true empty]
  · rw [if_neg empty, forall_prop_of_false empty]
    exact iff_of_true (Heap.linked_of_chain models.entries.chain) trivial

theorem links_of_routes (same : routes s' = routes s) : s'.mrts.links Mrt.next = s.mrts.links Mrt.next := by
  have known : ∀ state : Daemon, state.mrts.links Mrt.next = (routes state).2.links Prod.fst := by
    intro state
    funext address
    rw [Heap.links, Heap.links, routes, Heap.get?_map, Option.map_map]
    rfl
  rw [known s', known s, same]

theorem route_of_routes (same : routes s' = routes s) (mymrt : Ptr) :
    (s'.mrts.get? mymrt).map Mrt.toRoute = (s.mrts.get? mymrt).map Mrt.toRoute := by
  have known : ∀ state : Daemon,
      (state.mrts.get? mymrt).map Mrt.toRoute = ((routes state).2.get? mymrt).map Prod.snd := by
    intro state
    rw [routes, Heap.get?_map, Option.map_map]
    rfl
  rw [known s', known s, same]

/-- Where `add_sg` returns, and the record it leaves. -/
theorem addSg_returns (host : Host) (models : Models s t) (gateway source group : Addr) (incoming : Vif) :
    ((∃ s', Runs (addSg host gateway source group incoming) s () s') ↔
        (s.themrt = 0 → s.mrts.Linked Mrt.next (host.mallocMrt s.mrts.fresh).next)) ∧
      ∀ s', Runs (addSg host gateway source group incoming) s () s' →
        s'.themrt = s.mrts.fresh ∧ (s'.mrts.get? s.mrts.fresh).map Mrt.toRoute =
          some (startRoute host t (getUpstream host gateway source) source group incoming
            (host.mallocMrt s.mrts.fresh).toRoute) := by
  obtain ⟨newmrt, next, route, ends⟩ := addSg_builds host models gateway source group incoming
  let record : Mrt := if s.themrt = 0 then newmrt else { newmrt with next := s.themrt }
  have head : (linked (timed s source group) source group newmrt).mrts.get? s.mrts.fresh = some record := by
    show (s.mrts.alloc record).get? s.mrts.fresh = some record
    rw [Heap.get?_alloc, if_pos rfl]
  have starts : Starts s.mrts.fresh record (linked (timed s source group) source group newmrt) := ⟨rfl, head⟩
  have told : Within (Changes .quiet Anything) (announceSg host source s.mrts.fresh) :=
    announceSg_changes (fun _ => trivial) host source _
  have kept : ∀ announced, Runs (announceSg host source s.mrts.fresh)
      (linked (timed s source group) source group newmrt) () announced →
      routes announced = routes (linked (timed s source group) source group newmrt) := by
    intro announced announce
    have same : Within (fun before after => routes after = routes before) (announceSg host source s.mrts.fresh) :=
      within_of_does told (steady_same routes) fun update state inside => routes_quiet update inside.1 state
    exact same _ _ _ announce
  have follows : ∀ announced, Runs (announceSg host source s.mrts.fresh)
      (linked (timed s source group) source group newmrt) () announced →
      (Runs printSg announced () announced ↔
        (linked (timed s source group) source group newmrt).mrts.Linked Mrt.next s.mrts.fresh) := by
    intro announced announce
    have same := kept announced announce
    have themrt : announced.themrt = s.mrts.fresh := congrArg Prod.fst same
    rw [runs_printSg_iff, themrt]
    exact Heap.linked_congr (links_of_routes same) _
  constructor
  · rw [← next, ← linked_ends_iff models source group newmrt]
    constructor
    · rintro ⟨s', run⟩
      obtain ⟨announced, announce, print⟩ := (ends s').mp run
      obtain rfl := runs_printSg print
      exact (follows _ announce).mp print
    · intro linked
      obtain ⟨_, announced, announce, _⟩ := announceSg_starts s.mrts.fresh_ne_zero host source _ starts
      exact ⟨announced, (ends announced).mpr ⟨announced, announce, (follows announced announce).mpr linked⟩⟩
  · intro s' run
    obtain ⟨announced, announce, print⟩ := (ends s').mp run
    obtain rfl := runs_printSg print
    have same := kept _ announce
    refine ⟨congrArg Prod.fst same, ?_⟩
    rw [route_of_routes same, head, Option.map_some, ← route]
    show some record.toRoute = some newmrt.toRoute
    unfold record
    split <;> rfl

end PimDm.Refinement
