import Mathlib.Data.Prod.Lex
import Mathlib.Order.Bounds.Basic
import PimDm.Refinement.Asserts
import PimDm.Refinement.Courses
import PimDm.Refinement.Steps
import PimDm.Property.SmallestQuerier

/-!
# The upstream router that Asserts elect

`assert_compare` orders preference, metric and address, but what `receive_assert` compares and
stores as the address is the source that the Assert is about, not the router that sent it.
So the first Assert that is not worse than the entry makes the source its own upstream, and
after that no Assert is compared any more.
-/

namespace PimDm.Property

open PimDm.Foundation PimDm.Source PimDm.Routing PimDm.Refinement

/-! ## The order of Asserts -/

/-- What a router offers in an Assert. -/
@[ext] structure Offer where
  preference : BitVec 32
  metric : BitVec 32
  address : Addr
  deriving DecidableEq, Repr

def Offer.key (offer : Offer) : ℕ ×ₗ ℕ ×ₗ ℕᵒᵈ :=
  toLex (offer.preference.toNat, toLex (offer.metric.toNat, OrderDual.toDual (addressRank offer.address)))

theorem Offer.key_injective : Function.Injective Offer.key := by
  intro one two same
  have parts := Prod.mk.inj (toLex.injective same)
  have rest := Prod.mk.inj (toLex.injective parts.2)
  have preference := BitVec.eq_of_toNat_eq parts.1
  have metric := BitVec.eq_of_toNat_eq rest.1
  have address := addressRank_injective (OrderDual.toDual.injective rest.2)
  exact Offer.ext preference metric address

/-- The best offer is the least. -/
instance : LinearOrder Offer := LinearOrder.lift' Offer.key Offer.key_injective

theorem Offer.lt_iff (one two : Offer) :
    one < two ↔ one.preference.toNat < two.preference.toNat ∨
      one.preference.toNat = two.preference.toNat ∧ (one.metric.toNat < two.metric.toNat ∨
        one.metric.toNat = two.metric.toNat ∧ addressRank two.address < addressRank one.address) := by
  refine Prod.Lex.toLex_lt_toLex.trans (or_congr_right (and_congr_right fun _ => ?_))
  exact Prod.Lex.toLex_lt_toLex

/-- `assert_compare` finds the first offer strictly better. -/
theorem assertCompare_eq_one_iff (one two : Offer) :
    assertCompare one.preference one.metric one.address two.preference two.metric two.address = 1 ↔
      one < two := by
  rw [Offer.lt_iff]
  unfold assertCompare addressRank
  split_ifs <;> simp <;> omega

/-! ## Asserts on the incoming interface -/

variable {host : Host} {s s' : Daemon} {source group : Addr} {item : Ptr × Route}

/-- An Assert as `receive_assert` is given it. -/
structure Heard where
  src : Addr
  data : Memory
  length : Int

/-- A valid Assert about the source and group from a router on the interface. -/
structure Heard.IsFor (host : Host) (source group : Addr) (incoming : Vif) (heard : Heard) : Prop where
  correct : inetCksum heard.data heard.length = 0
  direct : findVifDirect host heard.src ≠ 0
  arrives : findVifDirect host heard.src = incoming
  source : (readAssert heard.data).source = source
  group : (readAssert heard.data).group = group

/-- What the sender of an Assert offers. -/
def Heard.offer (heard : Heard) : Offer :=
  ⟨(readAssert heard.data).preference, (readAssert heard.data).metric, heard.src⟩

/-- What `receive_assert` takes an Assert for. -/
def AssertBody.offer (body : AssertBody) : Offer := ⟨body.preference, body.metric, body.source⟩

/-- What an entry goes by. -/
def standing (r : Route) : Offer := ⟨r.preference, r.metric, r.upstream⟩

/-- The Asserts are received one after another. -/
def receiveAsserts (host : Host) : List Heard → Act Unit
  | [] => pure ()
  | heard :: rest => do
      receiveAssert host heard.src heard.data heard.length
      receiveAsserts host rest

/-- The offer an entry goes by and those of the senders of Asserts. -/
def offers (r : Route) (asserts : List Heard) : Set Offer :=
  {offer | offer = standing r ∨ ∃ heard ∈ asserts, heard.offer = offer}

/-- Afterwards the entry goes by the best of these. -/
def ElectsBest (host : Host) (s : Daemon) (source group : Addr) (item : Ptr × Route) (asserts : List Heard) : Prop :=
  ∃ s' r, Runs (receiveAsserts host asserts) s () s' ∧
    (table s').find (routeIsFor source group) = some (item.1, r) ∧ IsLeast (offers item.2 asserts) (standing r)

/-- The Assert, taken for one of the source, is at least as good as the entry, and the source
is not its upstream. -/
def outdoes (r : Route) (heard : Heard) : Bool := decide (Outdone r (readAssert heard.data))

/-- No Assert outdoes the entry, and none has a better offer. -/
structure NoneBetter (r : Route) (asserts : List Heard) : Prop where
  taken : ∀ heard ∈ asserts, outdoes r heard = false
  sent : ∀ heard ∈ asserts, standing r ≤ heard.offer

/-- The first Assert that outdoes the entry is as good as the best one, which the source
itself has sent. -/
structure SourceBest (r : Route) (asserts : List Heard) (ahead : List Heard) (first : Heard) (behind : List Heard) :
    Prop where
  split : asserts = ahead ++ first :: behind
  before : ∀ heard ∈ ahead, outdoes r heard = false
  here : outdoes r first = true
  sent : ∃ heard ∈ asserts, heard.offer = AssertBody.offer (readAssert first.data)
  best : ∀ heard ∈ asserts, AssertBody.offer (readAssert first.data) ≤ heard.offer

/-! ## One Assert -/

theorem outdone_iff (r : Route) (body : AssertBody) :
    Outdone r body ↔ body.source ≠ r.upstream ∧ AssertBody.offer body ≤ standing r := by
  have compared := assertCompare_eq_one_iff (standing r) (AssertBody.offer body)
  exact and_congr_right fun _ => (not_congr compared).trans not_lt

/-- What an Assert on its incoming interface makes of an entry. -/
def heed (r : Route) (body : AssertBody) : Route :=
  if Outdone r body then
    { r with preference := body.preference, metric := body.metric, upstream := body.source }
  else r

theorem find_amend {t : Table} {property : Route → Bool} {function : Route → Route}
    (found : t.find property = some item) (kept : ∀ r, property (function r) = property r) :
    (t.amendEntry item.1 function).find property = some (item.1, function item.2) := by
  have same : ∀ other : Ptr × Route, property (if other.1 = item.1 then (other.1, function other.2) else other).2 =
      property other.2 := by
    intro other
    split
    · exact kept other.2
    · rfl
  have renamed : (t.amendEntry item.1 function).find property = (t.find property).map
      fun other => if other.1 = item.1 then (other.1, function other.2) else other := by
    rw [Table.find, Table.amendEntry, amend, List.find?_map]
    exact congrArg _ (List.find?_congr fun other _ => same other)
  rw [renamed, found, Option.map_some, if_pos rfl]

/-- The entry heeds the Assert, and `find_sg` finds it as before. -/
theorem receiveAssert_heeds (models : Models s (table s)) (found : (table s).find (routeIsFor source group) = some item)
    {heard : Heard} (isFor : heard.IsFor host source group item.2.incoming) :
    ∃ s', Runs (receiveAssert host heard.src heard.data heard.length) s () s' ∧ Models s' (table s') ∧
      (table s').find (routeIsFor source group) = some (item.1, heed item.2 (readAssert heard.data)) := by
  have served : item.2.incoming ≠ 0 := isFor.arrives ▸ isFor.direct
  have named : (table s).find (routeIsFor (readAssert heard.data).source (readAssert heard.data).group) =
    some item := by
    rw [isFor.source, isFor.group]
    exact found
  obtain ⟨_, _, _, e, here, _⟩ := models.entry_of_find found
  obtain ⟨s', upstream⟩ := assertUpstream_completes here (readAssert heard.data)
  have run : Runs (receiveAssert host heard.src heard.data heard.length) s () s' := by
    refine (receiveAssert_accepted models isFor.correct isFor.direct named).mpr ?_
    rw [if_pos isFor.arrives]
    exact upstream
  have after := receiveAssert_models models run
  refine ⟨s', run, ?_⟩
  rw [after.table_eq]
  refine ⟨after, ?_⟩
  unfold assertChange heed
  simp only [named, isFor.arrives]
  rw [if_neg served]
  by_cases outdone : Outdone item.2 (readAssert heard.data)
  · rw [if_pos ⟨trivial, outdone⟩, if_pos outdone]
    exact find_amend found fun _ => rfl
  · rw [if_neg fun both => outdone both.2, if_neg outdone]
    exact found

/-! ## All of them -/

theorem heed_upstream {r : Route} {body : AssertBody} (own : body.source = r.upstream) : heed r body = r :=
  if_neg fun outdone => outdone.1 own

theorem heed_incoming (r : Route) (body : AssertBody) : (heed r body).incoming = r.incoming := by
  unfold heed
  split
  · rfl
  · rfl

theorem receiveAsserts_heed {asserts : List Heard} (models : Models s (table s))
    (found : (table s).find (routeIsFor source group) = some item)
    (each : ∀ heard ∈ asserts, heard.IsFor host source group item.2.incoming) :
    ∃ s', Runs (receiveAsserts host asserts) s () s' ∧ (table s').find (routeIsFor source group) =
      some (item.1, asserts.foldl (fun r heard => heed r (readAssert heard.data)) item.2) := by
  induction asserts generalizing s item with
  | nil => exact ⟨s, runs_pure.mpr ⟨rfl, rfl⟩, found⟩
  | cons heard rest ih =>
      obtain ⟨middle, run, modelled, finds⟩ := receiveAssert_heeds models found (each heard (List.mem_cons_self ..))
      have incoming := heed_incoming item.2 (readAssert heard.data)
      obtain ⟨s', continued, last⟩ := ih modelled finds fun other member => by
        rw [incoming]
        exact each other (List.mem_cons_of_mem _ member)
      exact ⟨s', runs_bind.mpr ⟨(), middle, run, continued⟩, last⟩

/-- Once the source is the upstream of its entry, nothing is heeded. -/
theorem heeded_settled {asserts : List Heard} {r : Route} (own : r.upstream = source)
    (each : ∀ heard ∈ asserts, (readAssert heard.data).source = source) :
    asserts.foldl (fun r heard => heed r (readAssert heard.data)) r = r := by
  induction asserts with
  | nil => rfl
  | cons heard rest ih =>
      rw [List.foldl_cons, heed_upstream ((each heard (List.mem_cons_self ..)).trans own.symm)]
      exact ih fun other member => each other (List.mem_cons_of_mem _ member)

/-- The first Assert that outdoes the entry is the only one that is heeded. -/
theorem heeded_eq {asserts : List Heard} {r : Route}
    (each : ∀ heard ∈ asserts, (readAssert heard.data).source = source) :
    standing (asserts.foldl (fun r heard => heed r (readAssert heard.data)) r) =
      match asserts.find? (outdoes r) with
      | none => standing r
      | some first => AssertBody.offer (readAssert first.data) := by
  induction asserts with
  | nil => rfl
  | cons heard rest ih =>
      have later : ∀ other ∈ rest, (readAssert other.data).source = source :=
        fun other member => each other (List.mem_cons_of_mem _ member)
      rw [List.foldl_cons, heed]
      by_cases outdone : Outdone r (readAssert heard.data)
      · have taken : outdoes r heard = true := decide_eq_true outdone
        rw [if_pos outdone, List.find?_cons_of_pos taken, heeded_settled (each heard (List.mem_cons_self ..)) later]
        rfl
      · have left : ¬ outdoes r heard = true := fun taken => outdone (of_decide_eq_true taken)
        rw [if_neg outdone, List.find?_cons_of_neg left]
        exact ih later

theorem electsBest_iff {asserts : List Heard} (models : Models s (table s))
    (found : (table s).find (routeIsFor source group) = some item)
    (each : ∀ heard ∈ asserts, heard.IsFor host source group item.2.incoming) :
    ElectsBest host s source group item asserts ↔ IsLeast (offers item.2 asserts)
      (standing (asserts.foldl (fun r heard => heed r (readAssert heard.data)) item.2)) := by
  obtain ⟨s', run, finds⟩ := receiveAsserts_heed models found each
  constructor
  · rintro ⟨_, r, again, ends, least⟩
    obtain ⟨_, rfl⟩ := runs_deterministic run again
    obtain ⟨_, rfl⟩ := Prod.mk.inj (Option.some.inj (finds.symm.trans ends))
    exact least
  · intro least
    exact ⟨s', _, run, finds, least⟩

/-- If no Assert is heeded, the entry keeps its triple. -/
theorem kept_best_iff {asserts : List Heard} {r : Route} (unheeded : asserts.find? (outdoes r) = none) :
    IsLeast (offers r asserts) (standing r) ↔
      NoneBetter r asserts ∨ ∃ ahead first behind, SourceBest r asserts ahead first behind := by
  have none : ∀ heard ∈ asserts, outdoes r heard = false := fun heard member =>
    Bool.eq_false_of_not_eq_true (List.find?_eq_none.mp unheeded heard member)
  constructor
  · rintro ⟨_, least⟩
    exact Or.inl ⟨none, fun heard member => least (Or.inr ⟨heard, member, rfl⟩)⟩
  · rintro (better | ⟨ahead, first, behind, best⟩)
    · refine ⟨Or.inl rfl, ?_⟩
      rintro _ (rfl | ⟨heard, member, rfl⟩)
      · exact le_refl _
      · exact better.sent heard member
    · have listed : first ∈ asserts := by simp [best.split]
      exact absurd best.here (by simp [none first listed])

/-- If an Assert is heeded, the entry has the triple of that Assert with the source in it. -/
theorem taken_best_iff {asserts : List Heard} {r : Route} {first : Heard}
    (taken : asserts.find? (outdoes r) = some first) :
    IsLeast (offers r asserts) (AssertBody.offer (readAssert first.data)) ↔
      NoneBetter r asserts ∨ ∃ ahead first behind, SourceBest r asserts ahead first behind := by
  obtain ⟨here, ahead, behind, split, before⟩ := List.find?_eq_some_iff_append.mp taken
  obtain ⟨moved, better⟩ := (outdone_iff _ _).mp (of_decide_eq_true here)
  constructor
  · rintro ⟨member, least⟩
    refine Or.inr ⟨ahead, first, behind, split, fun heard inside => by simpa using before heard inside, here, ?_,
      fun heard inside => least (Or.inr ⟨heard, inside, rfl⟩)⟩
    rcases member with same | sent
    · exact absurd (congrArg Offer.address same) moved
    · exact sent
  · rintro (none | ⟨front, other, rest, best⟩)
    · have listed : first ∈ asserts := by simp [split]
      exact absurd here (by simp [none.taken first listed])
    · have same : asserts.find? (outdoes r) = some other :=
        List.find?_eq_some_iff_append.mpr ⟨best.here, front, rest, best.split, fun heard inside => by
          simpa using best.before heard inside⟩
      obtain rfl := Option.some.inj (taken.symm.trans same)
      refine ⟨Or.inr best.sent, ?_⟩
      rintro _ (rfl | ⟨heard, member, rfl⟩)
      · exact better
      · exact best.best heard member

/-- The best offer is elected exactly if the entry has it already, or if the source itself has
made it. -/
theorem best_elected {asserts : List Heard} (models : Models s (table s))
    (found : (table s).find (routeIsFor source group) = some item)
    (each : ∀ heard ∈ asserts, heard.IsFor host source group item.2.incoming) :
    ElectsBest host s source group item asserts ↔
      NoneBetter item.2 asserts ∨ ∃ ahead first behind, SourceBest item.2 asserts ahead first behind := by
  have named : ∀ heard ∈ asserts, (readAssert heard.data).source = source := fun heard member =>
    (each heard member).source
  rw [electsBest_iff models found each, heeded_eq named]
  cases taken : asserts.find? (outdoes item.2) with
  | none => exact kept_best_iff taken
  | some first => exact taken_best_iff taken

/-! ## One Assert from another router -/

/-- An Assert about the source and group of the session, and who sends it. -/
def heardFrom (src : Addr) (preference metric : BitVec 32) : Heard :=
  ⟨src, writePimHeader (writeAssert (fun _ => 0) studio channel preference metric) pimAssert assertLength,
    sizeofPim + assertLength⟩

/-- The entry of the session goes by its next hop, on the first interface. -/
theorem session_standing :
    ∃ s item, Models s (table s) ∧ (table s).find (routeIsFor studio channel) = some item ∧
      item.2.incoming = 1 ∧ standing item.2 = ⟨0, 0, stationOn 1 7⟩ := by
  have passed : endsWith router NoAssert [upcall 1 1 (stationOn 1 7) studio channel]
      (fun s => ((table s).find (routeIsFor studio channel)).any fun item => decide (item.2.incoming = 1 ∧
        standing item.2 = ⟨0, 0, stationOn 1 7⟩)) = true := by decide +kernel
  obtain ⟨s, reached, some⟩ := reachable_of_endsWith passed
  obtain ⟨item, found, fit⟩ := (Option.any_eq_true _ _).mp some
  obtain ⟨incoming, stands⟩ := of_decide_eq_true fit
  exact ⟨s, item, reachable_models router_zeroFilled reached, found, incoming, stands⟩

/-- A router with a higher address and the same values is not elected. -/
theorem best_not_elected :
    ¬ ∀ (host : Host) (s : Daemon) (source group : Addr) (item : Ptr × Route) (heard : Heard), Models s (table s) →
      (table s).find (routeIsFor source group) = some item → heard.IsFor host source group item.2.incoming →
        heard.src ≠ item.2.upstream → ElectsBest host s source group item [heard] := by
  intro all
  obtain ⟨s, item, models, found, incoming, stands⟩ := session_standing
  have upstream : item.2.upstream = stationOn 1 7 := congrArg Offer.address stands
  have isFor : (heardFrom (stationOn 1 9) 0 0).IsFor router studio channel item.2.incoming := by
    rw [incoming]
    exact ⟨by decide +kernel, by decide, by decide, by decide +kernel, by decide +kernel⟩
  have each : ∀ heard ∈ [heardFrom (stationOn 1 9) 0 0], heard.IsFor router studio channel item.2.incoming := by
    simpa using isFor
  have outdoes : outdoes item.2 (heardFrom (stationOn 1 9) 0 0) = true := by
    refine decide_eq_true ((outdone_iff _ _).mpr ⟨?_, ?_⟩)
    · rw [upstream]
      decide +kernel
    · rw [stands]
      decide +kernel
  have elects := (electsBest_iff models found each).mp
    (all router s studio channel item _ models found isFor (by rw [upstream]; decide))
  rw [heeded_eq fun heard member => (each heard member).source, List.find?_cons_of_pos outdoes] at elects
  have taken : (AssertBody.offer (readAssert (heardFrom (stationOn 1 9) 0 0).data)).address = studio := by
    decide +kernel
  rcases elects.1 with same | ⟨heard, member, sent⟩
  · exact absurd (taken.symm.trans (congrArg Offer.address (Eq.trans same stands))) (by decide)
  · obtain rfl := List.mem_singleton.mp member
    exact absurd ((congrArg Offer.address sent).trans taken) (by decide)

/-- Worse Asserts of two routers. -/
theorem best_elected_session :
    ∃ s item, standing item.2 = ⟨0, 0, stationOn 1 7⟩ ∧
      ElectsBest router s studio channel item [heardFrom (stationOn 1 9) 1 0, heardFrom (stationOn 1 3) 0 5] := by
  obtain ⟨s, item, models, found, incoming, stands⟩ := session_standing
  have first : (heardFrom (stationOn 1 9) 1 0).IsFor router studio channel 1 :=
    ⟨by decide +kernel, by decide, by decide, by decide +kernel, by decide +kernel⟩
  have second : (heardFrom (stationOn 1 3) 0 5).IsFor router studio channel 1 :=
    ⟨by decide +kernel, by decide, by decide, by decide +kernel, by decide +kernel⟩
  have each : ∀ heard ∈ [heardFrom (stationOn 1 9) 1 0, heardFrom (stationOn 1 3) 0 5],
      heard.IsFor router studio channel item.2.incoming := by
    rw [incoming]
    simpa using ⟨first, second⟩
  have worse : ∀ heard ∈ [heardFrom (stationOn 1 9) 1 0, heardFrom (stationOn 1 3) 0 5],
      ¬ AssertBody.offer (readAssert heard.data) ≤ ⟨0, 0, stationOn 1 7⟩ := by decide +kernel
  have better : NoneBetter item.2 [heardFrom (stationOn 1 9) 1 0, heardFrom (stationOn 1 3) 0 5] := by
    constructor
    · intro heard member
      refine decide_eq_false fun outdone => worse heard member ?_
      rw [← stands]
      exact ((outdone_iff _ _).mp outdone).2
    · rw [stands]
      decide +kernel
  exact ⟨s, item, stands, (best_elected models found each).mpr (Or.inl better)⟩

end PimDm.Property
