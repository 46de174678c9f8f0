import PimDm.Refinement.Entries
import PimDm.Routing.Entries

/-!
# Asserts and Grafts

An Assert can replace the upstream neighbour of an entry.  A Graft opens its
interface on the entries it names; the entries are found while the loops over
the message change the table, but no store changes what a search finds.
-/

namespace PimDm.Refinement

open PimDm.Foundation PimDm.Source PimDm.Effect PimDm.Routing

variable {s s' : Daemon} {t : Table} {host : Host}

/-! ## Asserts -/

theorem assertUpstream_models (models : Models s t) {item : Ptr × Route} (member : item ∈ t.entries)
    {body : AssertBody} (run : Runs (assertUpstream item.1 body) s () s') :
    Models s' (if Outdone item.2 body then
      t.amendEntry item.1 fun r =>
        { r with preference := body.preference, metric := body.metric, upstream := body.source }
      else t) := by
  obtain ⟨e, _, load, deciding⟩ := runs_bind.mp run
  obtain ⟨found, rfl⟩ := runs_loadMrt.mp load
  have same := models.route_eq member found
  rw [same] at deciding
  rcases runs_ite.mp deciding with ⟨ours, stop⟩ | ⟨other, deciding⟩
  · rw [if_neg fun outdone => outdone.1 ours, (runs_pure.mp stop).2]
    exact models
  rcases runs_onlyIf.mp deciding with ⟨loses, store⟩ | ⟨wins, rfl⟩
  · rw [if_pos ⟨other, loses⟩]
    obtain ⟨_, rfl⟩ := runs_storeMrt.mp store
    exact models.setMrt item.1 (fun _ => rfl) fun _ => rfl
  · rw [if_neg fun outdone => wins outdone.2]
    exact models

/-- An Assert that is accepted and names an entry is handled by the interface it came in on. -/
theorem receiveAssert_accepted (models : Models s t) {src : Addr} {data : Memory} {length : Int}
    (correct : inetCksum data length = 0) (direct : findVifDirect host src ≠ 0) {item : Ptr × Route}
    (found : t.find (routeIsFor (readAssert data).source (readAssert data).group) = some item) :
    Runs (receiveAssert host src data length) s () s' ↔
      Runs (if findVifDirect host src = item.2.incoming then assertUpstream item.1 (readAssert data)
        else assertDownstream host (findVifDirect host src) item.1 (readAssert data)) s () s' := by
  obtain ⟨_, _, nonnull, e, here, same⟩ := models.entry_of_find found
  have search : Runs (findSg (readAssert data).source (readAssert data).group) s item.1 s :=
    models.runs_findSg.mpr ⟨by rw [found]; rfl, rfl⟩
  have valid : Runs (validPacket host src data length) s true s := validPacket_accepts correct direct
  rw [← same]
  constructor
  · intro run
    rcases runs_ite.mp run with ⟨none, _⟩ | ⟨_, rest⟩
    · exact absurd none direct
    obtain ⟨_, _, check, deciding⟩ := runs_bind.mp rest
    obtain ⟨rfl, rfl⟩ := runs_deterministic valid check
    rw [if_neg (by decide)] at deciding
    obtain ⟨_, _, looked, continued⟩ := runs_bind.mp deciding
    obtain ⟨rfl, rfl⟩ := runs_deterministic search looked
    rw [if_neg nonnull] at continued
    obtain ⟨_, _, load, branches⟩ := runs_bind.mp continued
    obtain ⟨read, rfl⟩ := runs_loadMrt.mp load
    obtain rfl := Option.some.inj (here.symm.trans read)
    exact branches
  · intro branches
    refine runs_ite.mpr (Or.inr ⟨direct, runs_bind.mpr ⟨true, s, valid, ?_⟩⟩)
    rw [if_neg (by decide)]
    refine runs_bind.mpr ⟨item.1, s, search, ?_⟩
    rw [if_neg nonnull]
    exact runs_bind.mpr ⟨e, s, runs_loadMrt.mpr ⟨here, rfl⟩, branches⟩

theorem receiveAssert_models (models : Models s t) {src : Addr} {data : Memory} {length : Int}
    (run : Runs (receiveAssert host src data length) s () s') :
    Models s' ((assertChange host s src data).apply host t) := by
  unfold assertChange
  rw [models.table_eq]
  rcases runs_ite.mp run with ⟨none, stop⟩ | ⟨direct, rest⟩
  · rw [if_pos none, (runs_pure.mp stop).2]
    exact models
  rw [if_neg direct]
  obtain ⟨valid, _, check, deciding⟩ := runs_bind.mp rest
  obtain ⟨rfl, correct, accepted⟩ := runs_validPacket check
  cases found : t.find (routeIsFor (readAssert data).source (readAssert data).group) with
  | none =>
      rw [accepted.mpr direct, if_neg (by decide)] at deciding
      rcases models.runs_lookup (routeIsFor (readAssert data).source (readAssert data).group)
        (fun _ => rfl) deciding with ⟨_, stop⟩ | ⟨item, other, _⟩
      · rw [(runs_pure.mp stop).2]
        exact models
      · rw [found] at other
        cases other
  | some item =>
      obtain ⟨member, _⟩ := models.entry_of_find found
      rcases runs_ite.mp ((receiveAssert_accepted models correct direct found).mp run) with
        ⟨upstream, store⟩ | ⟨downstream, reply⟩
      · have stored := assertUpstream_models models member store
        by_cases outdone : Outdone item.2 (readAssert data)
        · rw [if_pos outdone] at stored
          simp only [if_pos (And.intro upstream outdone)]
          exact stored
        · rw [if_neg outdone] at stored
          simp only [if_neg fun both : _ ∧ _ => outdone both.2]
          exact stored
      · simp only [if_neg fun both : _ ∧ _ => downstream both.1]
        exact models_of_quiet (assertDownstream_changes trivial host item.1 _) models reply

/-! ## Grafts -/

/-- What a search finds depends on what no store changes. -/
theorem lookup_congr {other : Table} (same : other.entries.map identity = t.entries.map identity) :
    lookup other = lookup t := by
  funext source group
  unfold lookup addressOf
  rw [Table.find_identity, Table.find_identity, same]

theorem lookup_graft (vif : Vif) (mymrts : List Ptr) :
    lookup (t.graft host vif mymrts) = lookup t :=
  lookup_congr (Table.graft_identities vif mymrts)

theorem graft_append (vif : Vif) (first second : List Ptr) :
    t.graft host vif (first ++ second) = (t.graft host vif first).graft host vif second :=
  List.foldl_append

/-- A round of a loop over a Graft: where the cursor moves, and which entries
the interface is opened on. -/
def Grafts (host : Host) (vif : Vif) (find : Addr → Addr → Ptr) (body : Int → Act Int)
    (round : Int → List Ptr × Int) : Prop :=
  ∀ s t mydata next s', Models s t → lookup t = find → Runs (body mydata) s next s' →
    next = (round mydata).2 ∧ Models s' (t.graft host vif (round mydata).1)

theorem graftSource_models (vif : Vif) (src : Addr) (data : Memory) (length : Int) (group : Addr)
    (find : Addr → Addr → Ptr) :
    Grafts host vif find (graftSource host vif src data length group)
      (graftSourceNames find data group) := by
  intro s t mydata next s' models finds run
  unfold graftSourceNames
  rcases runs_ite.mp run with ⟨invalid, stop⟩ | ⟨valid, rest⟩
  · obtain ⟨rfl, rfl⟩ := runs_pure.mp stop
    rw [if_pos invalid]
    exact ⟨rfl, models⟩
  rw [if_neg valid]
  obtain ⟨_, copied, copy, rest⟩ := runs_bind.mp rest
  obtain ⟨_, echoed, echo, search⟩ := runs_bind.mp rest
  have copying := models_of_quiet (writeSendBuf_changes _) models copy
  have echoing := models_of_quiet (pimdmOutput_plain (by decide) _ _ _ _) copying echo
  rcases echoing.runs_lookup (routeIsFor (load32 data (mydata + 4)) group) (fun _ => rfl) search with
    ⟨absent, stop⟩ | ⟨item, found, continued⟩
  · have null : find (load32 data (mydata + 4)) group = 0 := by
      rw [← finds, lookup, absent]
      rfl
    obtain ⟨rfl, rfl⟩ := runs_pure.mp stop
    rw [if_pos null]
    exact ⟨rfl, echoing⟩
  · have named : find (load32 data (mydata + 4)) group = item.1 := by
      rw [← finds, lookup, found]
      rfl
    obtain ⟨member, _, nonnull, _⟩ := echoing.entry_of_find found
    obtain ⟨_, grafted, graft, stop⟩ := runs_bind.mp continued
    obtain ⟨rfl, rfl⟩ := runs_pure.mp stop
    rw [named, if_neg nonnull]
    have opened := graftEntry_models echoing member graft
    have distinct : t.Distinct := echoing.entries.nodup
    refine ⟨rfl, ?_⟩
    rw [Table.graft, List.foldl_cons, List.foldl_nil, Table.graftNamed, distinct.find?_name member]
    exact opened

/-- The rounds of a counted loop over a Graft. -/
theorem Grafts.times {vif : Vif} {find : Addr → Addr → Ptr} {body : Int → Act Int}
    {round : Int → List Ptr × Int} (each : Grafts host vif find body round) (count : Nat) :
    Grafts host vif find (times body count) (collect round count) := by
  intro s t mydata next s' models finds run
  induction count generalizing s t mydata with
  | zero =>
      obtain ⟨rfl, rfl⟩ := runs_pure.mp run
      exact ⟨rfl, models⟩
  | succ count ih =>
      obtain ⟨cursor, middle, first, rest⟩ := runs_bind.mp run
      obtain ⟨rfl, opened⟩ := each s t mydata cursor middle models finds first
      obtain ⟨rfl, later⟩ := ih middle _ _ opened ((lookup_graft vif _).trans finds) rest
      refine ⟨rfl, ?_⟩
      rw [collect, graft_append]
      exact later

theorem graftGroup_models (vif : Vif) (src : Addr) (data : Memory) (length : Int)
    (find : Addr → Addr → Ptr) :
    Grafts host vif find (graftGroup host vif src data length) (graftGroupNames find data) := by
  intro s t mydata next s' models finds run
  unfold graftGroupNames
  rcases runs_ite.mp run with ⟨unicast, stop⟩ | ⟨multicast, loop⟩
  · obtain ⟨rfl, rfl⟩ := runs_pure.mp stop
    rw [if_pos unicast]
    exact ⟨rfl, models⟩
  · rw [if_neg multicast]
    obtain ⟨cursor, looped, sources, stop⟩ := runs_bind.mp loop
    obtain ⟨rfl, rfl⟩ := runs_pure.mp stop
    have each : Grafts host vif find
        (graftSource host vif src data length (readGroupHeader data mydata).group) _ :=
      graftSource_models vif src data length (readGroupHeader data mydata).group find
    have rounds := each.times (ntohs (readGroupHeader data mydata).joinField).toNat
    obtain ⟨rfl, opened⟩ := rounds s t (mydata + 12) cursor _ models finds sources
    exact ⟨rfl, opened⟩

theorem receivePimGraft_models (models : Models s t) {src : Addr} {data : Memory} {length : Int}
    (run : Runs (receivePimGraft host src data length) s () s') :
    Models s' ((graftChange host s src data).apply host t) := by
  unfold graftChange
  rw [models.table_eq]
  rcases runs_ite.mp run with ⟨none, stop⟩ | ⟨direct, rest⟩
  · rw [if_pos (Or.inl none), (runs_pure.mp stop).2]
    exact models
  obtain ⟨valid, _, check, deciding⟩ := runs_bind.mp rest
  obtain ⟨rfl, _, accepted⟩ := runs_validPacket check
  have accepted := accepted.mpr direct
  subst accepted
  rcases runs_ite.mp deciding with ⟨empty, stop⟩ | ⟨nonempty, loop⟩
  · have empty := empty.resolve_left (by decide)
    rw [if_pos (Or.inr empty), (runs_pure.mp stop).2]
    exact models
  · have full : ¬ (findVifDirect host src = 0 ∨ (readJoinPruneHeader data).numGroups = 0) := by
      rintro (none | empty)
      · exact direct none
      · exact nonempty (Or.inr empty)
    rw [if_neg full]
    obtain ⟨cursor, looped, groups, stop⟩ := runs_bind.mp loop
    obtain ⟨_, rfl⟩ := runs_pure.mp stop
    have each : Grafts host (findVifDirect host src) (lookup t)
        (graftGroup host (findVifDirect host src) src data length) _ :=
      graftGroup_models (findVifDirect host src) src data length (lookup t)
    have rounds := each.times (readJoinPruneHeader data).numGroups.toNat
    exact (rounds _ t groupsStart cursor _ models rfl groups).2

end PimDm.Refinement
