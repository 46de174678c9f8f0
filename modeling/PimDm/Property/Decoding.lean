import PimDm.Refinement.Decoding
import PimDm.Property.Session

/-!
# Join/Prunes with several sources

`receive_join_prune` goes on by the size of the whole group after a source with an entry,
so a message is acted on as it lists its sources only where no such source has another
one behind it.
-/

namespace PimDm.Property

open PimDm.Foundation PimDm.Source PimDm.Refinement

variable {host : Host} {src : Addr} {data : Memory} {length : Int} {s : Daemon}

/-- The message is correct, comes from a router on an interface and is not for a router unknown there. -/
structure Accepted (host : Host) (s : Daemon) (src : Addr) (data : Memory) (length : Int) : Prop where
  direct : findVifDirect host src ≠ 0
  correct : inetCksum data length = 0
  known : Overheard host src data → Knows s (findVifDirect host src) (readJoinPruneHeader data).upstream

instance (host : Host) (s : Daemon) (src : Addr) (data : Memory) (length : Int) :
    Decidable (Accepted host s src data length) :=
  decidable_of_iff (findVifDirect host src ≠ 0 ∧ inetCksum data length = 0 ∧
      (Overheard host src data → Knows s (findVifDirect host src) (readJoinPruneHeader data).upstream))
    ⟨fun ⟨direct, correct, known⟩ => ⟨direct, correct, known⟩, fun ⟨direct, correct, known⟩ => ⟨direct, correct, known⟩⟩

/-- The groups and sources of the message take up its length. -/
def WellFormed (data : Memory) (length : Int) : Prop := (groupEnd data)^[groupCount data] groupsStart = length

instance (data : Memory) (length : Int) : Decidable (WellFormed data length) :=
  inferInstanceAs (Decidable (_ = _))

/-- The message is acted on as the reference decoding lists its groups and sources. -/
def ActsAsListed (host : Host) (s : Daemon) (src : Addr) (data : Memory) (length : Int) : Prop :=
  ∀ s', Runs (receiveJoinPrune host src data length) s () s' ↔ Runs (actAsListed host src data length) s () s'

/-- The message has at most 127 groups, and each of its sources but the last is one after
which the cursor goes on to the next. -/
def ReadInStep (host : Host) (s : Daemon) (src : Addr) (data : Memory) : Prop :=
  groupCount data ≤ 127 ∧
    KeepsStep s (fun e => Overheard host src data ∧ e.outnumber ≠ 0) (decodeJoinPrune data)

instance (host : Host) (s : Daemon) (src : Addr) (data : Memory) : Decidable (ReadInStep host s src data) :=
  inferInstanceAs (Decidable (_ ∧ _))

/-- An accepted message is acted on as it lists its sources where it is read in step, or
where it lists no source with an entry. -/
theorem sources_decoded (accepted : Accepted host s src data length)
    (readable : ReadInStep host s src data ∨ ∀ listed ∈ decodeJoinPrune data, NothingIn s listed) :
    ActsAsListed host s src data length := by
  intro s'
  rcases readable with ⟨few, keeps⟩ | nothing
  · exact receiveJoinPrune_asListed accepted.direct accepted.correct accepted.known few keeps
  · exact (receiveJoinPrune_nothing accepted.direct accepted.correct accepted.known nothing).trans
      (actAsListed_nothing nothing).symm

def otherStudio : Addr := dotted 172 16 0 10

/-- The length of a body with one group and two sources. -/
def twoSourcesLength : Int := oneSourceLength + sizeofSource

/-- A Join/Prune of both studios in the channel. -/
def bothStudios (upstream : Addr) (joins prunes : BitVec 16) : Memory :=
  writePimHeader (store32 (writeOneSource (fun _ => 0) (named upstream studio channel) 0 (htons joins) (htons prunes))
    (sizeofPim + oneSourceLength + 4) otherStudio) pimJoinPrune twoSourcesLength

/-- Two neighbours of the same network, and a station in each studio. -/
def bothOnAir : List Event :=
  [helloFrom (stationOn 2 8) 310, helloFrom (stationOn 2 9) 310, upcall 1 1 (stationOn 1 7) studio channel,
    upcall 1 1 (stationOn 1 7) otherStudio channel]

/-- An overheard Prune of both studios, which other routers still listen to. -/
theorem sources_decoded_session :
    ∃ s, Reachable router (fun _ _ => True) s ∧
      Accepted router s (stationOn 2 9) (bothStudios (stationOn 2 8) 0 2) (sizeofPim + twoSourcesLength) ∧
      ReadInStep router s (stationOn 2 9) (bothStudios (stationOn 2 8) 0 2) ∧
      ActsAsListed router s (stationOn 2 9) (bothStudios (stationOn 2 8) 0 2) (sizeofPim + twoSourcesLength) := by
  have passed : endsWith router (fun _ _ => True) bothOnAir (fun s =>
      decide (Accepted router s (stationOn 2 9) (bothStudios (stationOn 2 8) 0 2) (sizeofPim + twoSourcesLength)) &&
        decide (ReadInStep router s (stationOn 2 9) (bothStudios (stationOn 2 8) 0 2))) = true := by decide +kernel
  obtain ⟨s, reached, seen⟩ := reachable_of_endsWith passed
  obtain ⟨taken, steady⟩ := Bool.and_eq_true_iff.mp seen
  have accepted := of_decide_eq_true taken
  have inStep := of_decide_eq_true steady
  exact ⟨s, reached, accepted, inStep, sources_decoded accepted (Or.inl inStep)⟩

/-- The runs complete with different numbers of timers set. -/
def setsOther (run listed : Except Fault (Unit × Daemon)) : Bool :=
  match run, listed with
  | .ok (_, left), .ok (_, right) => left.id != right.id
  | _, _ => false

/-- A Prune of both studios for this router: only the first one is acted on. -/
theorem sources_misread :
    ¬ ∀ (host : Host) (s : Daemon) (src : Addr) (data : Memory) (length : Int),
      Reachable host (fun _ _ => True) s → Accepted host s src data length → WellFormed data length →
        ActsAsListed host s src data length := by
  intro decoded
  have passed : endsWith router (fun _ _ => True) bothOnAir (fun s =>
      decide (Accepted router s (stationOn 2 9) (bothStudios (stationOn 2 1) 0 2) (sizeofPim + twoSourcesLength)) &&
        setsOther (receiveJoinPrune router (stationOn 2 9) (bothStudios (stationOn 2 1) 0 2)
          (sizeofPim + twoSourcesLength) s)
          (actAsListed router (stationOn 2 9) (bothStudios (stationOn 2 1) 0 2) (sizeofPim + twoSourcesLength) s)) =
        true := by decide +kernel
  obtain ⟨s, reached, seen⟩ := reachable_of_endsWith passed
  obtain ⟨taken, differ⟩ := Bool.and_eq_true_iff.mp seen
  have same := decoded router s (stationOn 2 9) (bothStudios (stationOn 2 1) 0 2) (sizeofPim + twoSourcesLength) reached
    (of_decide_eq_true taken) (by decide +kernel)
  unfold setsOther at differ
  split at differ
  · rename_i _ left _ right ran listed
    have also := (same left).mp ran
    obtain ⟨_, rfl⟩ := runs_deterministic also listed
    rw [bne_self_eq_false] at differ
    cases differ
  · cases differ

end PimDm.Property
