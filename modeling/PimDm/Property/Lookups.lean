import PimDm.Property.Session

/-!
# The three look-ups of an address

`find_vif_direct`, `is_local_address` and `find_vif_direct_local` are scans for the first
interface with a property.  `find_vif_direct` looks for one that has the address on its link
and stops at one that owns it, so a link that comes before the owner hides it.
-/

namespace PimDm.Property

open PimDm.Foundation PimDm.Source

variable {host : Host} {address : Addr}

/-- The interface takes part and has the address itself. -/
def owns (host : Host) (address : Addr) (vif : Vif) : Bool :=
  (host.iface vif).isActive && (host.iface vif).address == address

/-- The interface takes part and has the address itself or on its link. -/
def nears (host : Host) (address : Addr) (vif : Vif) : Bool :=
  (host.iface vif).isActive && ((host.iface vif).address == address || (host.iface vif).onLink address)

/-- The look-ups take an address of our own for none of a neighbour and tell its interface, and
agree on all other addresses. -/
structure LookupsAgree (host : Host) (address : Addr) : Prop where
  own : isLocalAddress host address ≠ 0 →
    findVifDirect host address = 0 ∧ findVifDirectLocal host address = isLocalAddress host address
  other : isLocalAddress host address = 0 → findVifDirect host address = findVifDirectLocal host address

/-- An address of our own is on the link of an active interface that comes before the first one
that has it. -/
def Shadowed (host : Host) (address : Addr) : Prop :=
  ∃ link owner, host.Serves link ∧ host.Serves owner ∧ link < owner ∧ (host.iface link).onLink address = true ∧
    (host.iface owner).address = address ∧ ∀ vif ≤ link, host.Serves vif → (host.iface vif).address ≠ address

/-! ## First matches -/

theorem isLocalAddressFrom_eq (host : Host) (address : Addr) (vifs : List Vif) :
    isLocalAddressFrom host address vifs = (vifs.find? (owns host address)).getD 0 := by
  induction vifs with
  | nil => rfl
  | cons vif rest ih =>
      unfold isLocalAddressFrom
      by_cases active : (host.iface vif).isActive = true
      · by_cases own : (host.iface vif).address = address <;> simp [owns, active, own, ih]
      · simp [owns, active, ih]

theorem findVifDirectLocalFrom_eq (host : Host) (address : Addr) (vifs : List Vif) :
    findVifDirectLocalFrom host address vifs = (vifs.find? (nears host address)).getD 0 := by
  induction vifs with
  | nil => rfl
  | cons vif rest ih =>
      unfold findVifDirectLocalFrom
      by_cases active : (host.iface vif).isActive = true
      · by_cases own : (host.iface vif).address = address
        · simp [nears, active, own]
        · by_cases link : (host.iface vif).onLink address = true <;> simp [nears, active, own, link, ih]
      · simp [nears, active, ih]

/-- `find_vif_direct` answers 0 where `find_vif_direct_local` answers an owner. -/
theorem findVifDirectFrom_eq (host : Host) (address : Addr) (vifs : List Vif) :
    findVifDirectFrom host address vifs =
      ((vifs.find? (nears host address)).filter fun vif => !owns host address vif).getD 0 := by
  induction vifs with
  | nil => rfl
  | cons vif rest ih =>
      unfold findVifDirectFrom
      by_cases active : (host.iface vif).isActive = true
      · by_cases own : (host.iface vif).address = address
        · simp [nears, owns, active, own, Option.filter_some]
        · by_cases link : (host.iface vif).onLink address = true <;>
            simp [nears, owns, active, own, link, ih, Option.filter_some]
      · simp [nears, active, ih]

theorem owns_iff {vif : Vif} : owns host address vif = true ↔
    (host.iface vif).isActive = true ∧ (host.iface vif).address = address := by
  rw [owns, Bool.and_eq_true, beq_iff_eq]

theorem nears_of_owns {vif : Vif} (own : owns host address vif = true) : nears host address vif = true := by
  obtain ⟨active, same⟩ := owns_iff.mp own
  simp [nears, active, same]

/-- A match is an interface, and not 0. -/
theorem serves_of_find {property : Vif → Bool} {vif : Vif} (found : host.vifs.find? property = some vif)
    (active : (host.iface vif).isActive = true) : host.Serves vif := by
  obtain ⟨positive, bounded⟩ := Host.mem_vifs.mp (List.mem_of_find?_eq_some found)
  exact ⟨positive, bounded, active⟩

theorem getD_eq_zero_iff {property : Vif → Bool} :
    (host.vifs.find? property).getD 0 = 0 ↔ host.vifs.find? property = none := by
  cases found : host.vifs.find? property with
  | none => simp
  | some vif =>
      have positive := (Host.mem_vifs.mp (List.mem_of_find?_eq_some found)).1
      exact iff_of_false (Nat.ne_of_gt positive) (Option.some_ne_none vif)

/-! ## The property -/

/-- A link hides the owner exactly if the first interface near the address does not own it, but
another one does. -/
theorem shadowed_iff : Shadowed host address ↔
    ∃ link, host.vifs.find? (nears host address) = some link ∧ owns host address link = false ∧
      (host.vifs.find? (owns host address)).isSome = true := by
  constructor
  · rintro ⟨link, owner, serves, also, _, onLink, own, none⟩
    have here : nears host address link = true := by simp [nears, serves.active, onLink]
    have listed : link ∈ host.vifs := Host.mem_vifs.mpr ⟨serves.positive, serves.bounded⟩
    cases found : host.vifs.find? (nears host address) with
    | none => exact absurd here (List.find?_eq_none.mp found link listed)
    | some first =>
        obtain ⟨near, inside, before⟩ := List.find?_range'_eq_some.mp found
        have early : first ≤ link := by
          by_contra late
          simpa [here] using before link serves.positive (Nat.lt_of_not_le late)
        have active : (host.iface first).isActive = true := (Bool.and_eq_true_iff.mp near).1
        refine ⟨first, rfl, ?_, ?_⟩
        · simp [owns, none first early (serves_of_find found active)]
        · refine List.find?_isSome.mpr ⟨owner, Host.mem_vifs.mpr ⟨also.positive, also.bounded⟩, ?_⟩
          exact owns_iff.mpr ⟨also.active, own⟩
  · rintro ⟨link, found, other, some⟩
    obtain ⟨near, _, before⟩ := List.find?_range'_eq_some.mp found
    obtain ⟨owner, inside, own⟩ := List.find?_isSome.mp some
    obtain ⟨positive, bounded⟩ := Host.mem_vifs.mp inside
    obtain ⟨active, here⟩ := Bool.and_eq_true_iff.mp near
    have serves := serves_of_find found active
    have apart : link ≠ owner := by
      rintro rfl
      rw [own] at other
      cases other
    have later : link ≤ owner := by
      by_contra early
      simpa [nears_of_owns own] using before owner positive (Nat.lt_of_not_le early)
    have foreign : (host.iface link).address ≠ address := fun same => by simp [owns, active, same] at other
    refine ⟨link, owner, serves, ⟨positive, bounded, (owns_iff.mp own).1⟩, Nat.lt_of_le_of_ne later apart,
      by simpa [foreign] using here,
      (owns_iff.mp own).2, fun vif early takes => ?_⟩
    rcases Nat.lt_or_eq_of_le early with before' | rfl
    · intro same
      have mine := nears_of_owns (owns_iff.mpr ⟨takes.active, same⟩)
      simpa [mine] using before vif takes.positive before'
    · exact foreign

/-- The first interface near an address is its first owner if it owns it. -/
theorem find_owns {vifs : List Vif} {link : Vif} (found : vifs.find? (nears host address) = some link)
    (own : owns host address link = true) : vifs.find? (owns host address) = some link := by
  obtain ⟨_, ahead, behind, split, before⟩ := List.find?_eq_some_iff_append.mp found
  refine List.find?_eq_some_iff_append.mpr ⟨own, ahead, behind, split, fun vif member => ?_⟩
  cases mine : owns host address vif with
  | false => rfl
  | true => exact absurd (nears_of_owns mine) (by simpa using before vif member)

theorem lookupsAgree_iff (host : Host) (address : Addr) : LookupsAgree host address ↔ ¬ Shadowed host address := by
  have own : isLocalAddress host address = (host.vifs.find? (owns host address)).getD 0 := isLocalAddressFrom_eq ..
  have direct : findVifDirect host address = _ := findVifDirectFrom_eq host address host.vifs
  have near : findVifDirectLocal host address = _ := findVifDirectLocalFrom_eq host address host.vifs
  rw [shadowed_iff]
  cases found : host.vifs.find? (nears host address) with
  | none =>
      have none : host.vifs.find? (owns host address) = none := List.find?_eq_none.mpr fun vif member mine =>
        List.find?_eq_none.mp found vif member (nears_of_owns mine)
      rw [none] at own
      rw [found] at direct near
      refine iff_of_true ⟨fun mine => absurd own mine, fun _ => direct.trans near.symm⟩ ?_
      rintro ⟨_, some, _⟩
      cases some
  | some link =>
      rw [found] at direct near
      cases mine : owns host address link with
      | true =>
          rw [find_owns found mine] at own
          have positive := (Host.mem_vifs.mp (List.mem_of_find?_eq_some found)).1
          rw [Option.filter_some, mine] at direct
          refine iff_of_true ⟨fun _ => ⟨direct, near.trans own.symm⟩, fun zero => ?_⟩ ?_
          · exact absurd (own.symm.trans zero) (Nat.ne_of_gt positive)
          · rintro ⟨_, same, other, _⟩
            rw [← Option.some.inj same, mine] at other
            cases other
      | false =>
          rw [Option.filter_some, mine] at direct
          have positive := (Host.mem_vifs.mp (List.mem_of_find?_eq_some found)).1
          constructor
          · rintro agree ⟨_, _, _, some⟩
            have local_ : isLocalAddress host address ≠ 0 := fun zero => by
              rw [getD_eq_zero_iff.mp (own.symm.trans zero)] at some
              cases some
            have hidden := (agree.own local_).1.symm.trans direct
            exact absurd hidden.symm (Nat.ne_of_gt positive)
          · intro clear
            have zero : isLocalAddress host address = 0 := by
              rw [own, getD_eq_zero_iff]
              cases ours : host.vifs.find? (owns host address) with
              | none => rfl
              | some owner => exact absurd ⟨link, rfl, mine, by rw [ours]; rfl⟩ clear
            exact ⟨fun ours => absurd zero ours, fun _ => direct.trans near.symm⟩

/-- The look-ups agree on an address exactly if no link hides its owner. -/
theorem lookups_agree (host : Host) (ifreqs : List Ifreq) (address : Addr) :
    LookupsAgree (host.initVifs ifreqs) address ↔ ¬ Shadowed (host.initVifs ifreqs) address :=
  lookupsAgree_iff _ _

/-- Two interfaces of one network: the address of the second one passes for a neighbour on the first. -/
theorem lookups_disagree :
    ¬ ∀ (host : Host) (ifreqs : List Ifreq) (address : Addr), LookupsAgree (host.initVifs ifreqs) address := by
  intro all
  have agree := all router [upOn (stationOn 1 1) (dotted 255 255 255 0), upOn (stationOn 1 2) (dotted 255 255 255 0)]
    (stationOn 1 2)
  exact absurd (agree.own (by decide +kernel)).1 (by decide +kernel)

end PimDm.Property
