import PimDm.Foundation.Completion
import PimDm.Refinement.Roles
import PimDm.Refinement.Signals
import PimDm.Property.Session

/-!
# The numbers of the interfaces

Interfaces are numbered from 1, and the arrays over them are indexed from 0: the interface with
the highest number has no place in an array that is as long as there are interfaces.
-/

namespace PimDm.Property

open PimDm.Foundation PimDm.Source PimDm.Refinement

variable {host : Host} {s : Daemon}

/-- The interface is not passed over by `init_vifs`: IPv4 and multicast, and no loopback. -/
def wanted (ifr : Ifreq) : Bool :=
  ifr.family == afInet && ifr.flags &&& (iffLoopback ||| iffMulticast) == iffMulticast

/-- Every index that `init_vifs` and `active_vifs` write at lies inside its array, and every
number of an interface is an index of `myvifs` and of `outvif`. -/
structure NumbersFit (host : Host) (ifreqs : List Ifreq) : Prop where
  table : ∀ vif ∈ (initVifs ifreqs).written, vif < myvifsSize
  locals : ∀ pimSendBuf written s,
    Runs (loggingActiveVifs (host.initVifs ifreqs)) (Daemon.blank pimSendBuf) written s →
      ∀ vif ∈ written, vif < (host.initVifs ifreqs).maxvif
  numbers : 0 ≤ (host.initVifs ifreqs).maxvif ∧ ∀ vif, 1 ≤ vif → vif ≤ (host.initVifs ifreqs).maxvif →
    vif < myvifsSize ∧ vif < outvifSize

/-- There is room for all interfaces, and the last one is down. -/
def RoomForNumbers (ifreqs : List Ifreq) : Prop :=
  (ifreqs.filter wanted).length < myvifsSize ∧ ∀ last ∈ (ifreqs.filter wanted).getLast?, last.isUp = false

/-! ## The table -/

/-- These interfaces have the numbers from 1 on, and nothing else has been written. -/
structure Numbered (table : VifTable) (items : List Ifreq) : Prop where
  count : table.maxvif = items.length
  pointer : table.myv = items.length
  written : table.written = List.range' 1 items.length
  entries : ∀ ahead ifr behind, items = ahead ++ ifr :: behind → table.iface (ahead.length + 1) = ifr.toIface

theorem numbered_empty : Numbered .empty [] := ⟨rfl, rfl, rfl, fun _ _ _ split => by simp at split⟩

theorem Numbered.add {table : VifTable} {items : List Ifreq} (numbered : Numbered table items) (ifr : Ifreq) :
    Numbered (table.add ifr) (items ++ [ifr]) := by
  obtain ⟨count, pointer, written, entries⟩ := numbered
  refine ⟨by simp [VifTable.add, count], by simp [VifTable.add, pointer], ?_, fun ahead other behind split => ?_⟩
  · rw [VifTable.add, written, pointer, List.length_append, List.length_singleton, List.range'_concat]
    simp [Nat.add_comm]
  · rw [VifTable.add, pointer]
    rcases List.eq_nil_or_concat behind with rfl | ⟨front, last, rfl⟩
    · obtain ⟨rfl, same⟩ := List.append_inj' split rfl
      dsimp only
      rw [Function.update_self, List.singleton_inj.mp same]
    · rw [List.concat_eq_append, ← List.cons_append, ← List.append_assoc] at split
      obtain ⟨rfl, _⟩ := List.append_inj' split rfl
      have apart : ahead.length + 1 ≠ (ahead ++ other :: front).length + 1 := by
        rw [List.length_append, List.length_cons]
        omega
      dsimp only
      rw [Function.update_of_ne apart]
      exact entries ahead other front rfl

/-- The loop adds the wanted interfaces while there are fewer than 32. -/
theorem initVifsLoop_adds {table : VifTable} (ifreqs : List Ifreq) (bound : table.maxvif ≤ 32) :
    initVifsLoop ifreqs table = ((ifreqs.filter wanted).take (32 - table.maxvif)).foldl VifTable.add table := by
  induction ifreqs generalizing table with
  | nil => simp [initVifsLoop]
  | cons ifr rest ih =>
      unfold initVifsLoop
      by_cases family : ifr.family = afInet
      · by_cases flags : ifr.flags &&& (iffLoopback ||| iffMulticast) = iffMulticast
        · have kept : wanted ifr = true := by simp [wanted, family, flags]
          rw [if_neg (not_not.mpr family), if_neg (not_not.mpr flags), List.filter_cons_of_pos kept]
          by_cases full : table.maxvif = 32
          · simp [full]
          · have room : 32 - table.maxvif = 32 - (table.add ifr).maxvif + 1 := by
              simp only [VifTable.add]
              omega
            rw [if_neg full, ih (by simp only [VifTable.add]; omega), room, List.take_succ_cons, List.foldl_cons]
        · have passed : ¬ wanted ifr = true := by simp [wanted, flags]
          rw [if_neg (not_not.mpr family), if_pos flags, ih bound, List.filter_cons_of_neg passed]
      · have passed : ¬ wanted ifr = true := by simp [wanted, family]
        rw [if_pos family, ih bound, List.filter_cons_of_neg passed]

theorem Numbered.foldl {table : VifTable} {before : List Ifreq} (numbered : Numbered table before)
    (items : List Ifreq) :
    Numbered (items.foldl VifTable.add table) (before ++ items) := by
  induction items generalizing table before with
  | nil => simpa using numbered
  | cons ifr rest ih => simpa using ih (numbered.add ifr)

/-- `init_vifs` numbers the first 32 interfaces it wants. -/
theorem initVifs_numbered (ifreqs : List Ifreq) : Numbered (initVifs ifreqs) ((ifreqs.filter wanted).take 32) := by
  rw [initVifs, initVifsLoop_adds ifreqs (Nat.zero_le 32)]
  exact numbered_empty.foldl _

/-! ## The local arrays -/

theorem activeVif_completes (host : Host) (vif : Vif) :
    Achieves (fun _ => True) (activeVif host vif) fun _ _ => True := by
  refine achieves_bind (Q := fun _ _ => True) (fun s _ => ⟨(), _, runs_startQuerying.mpr rfl, trivial⟩) fun _ => ?_
  refine achieves_bind (Q := fun _ _ => True) (achieves_modify fun _ _ => trivial) fun _ => ?_
  refine achieves_bind (achieves_onlyIf fun _ => ?_) fun _ s _ => ⟨(), _, runs_pimdmOutput.mpr rfl, trivial⟩
  refine achieves_bind (Q := fun _ _ => True) (fun s _ =>
    ⟨_, _, runs_timerSetTimer.mpr ⟨rfl, rfl⟩, trivial⟩) fun _ => ?_
  exact achieves_pure fun _ _ => trivial

/-- A round notes its interface if that is active. -/
theorem activeRound_writes (host : Host) (written : List Vif) (vif : Vif) :
    Achieves (fun _ => True) (if (host.iface vif).isActive = true then do
        activeVif host vif
        pure (written ++ [vif])
      else pure written) fun value _ => value = written ++ [vif].filter fun vif => (host.iface vif).isActive := by
  refine achieves_ite (fun active => ?_) fun idle => ?_
  · rw [List.filter_singleton, active]
    exact achieves_bind (activeVif_completes host vif) fun _ => achieves_pure fun _ _ => rfl
  · rw [List.filter_singleton, Bool.eq_false_iff.mpr idle, cond_false, List.append_nil]
    exact achieves_pure fun _ _ => rfl

/-- The rounds over some interfaces note those that are active. -/
theorem activeRounds_write (host : Host) (vifs : List Vif) (written : List Vif) :
    Achieves (fun _ => True) (foldProgram (fun written vif =>
      if (host.iface vif).isActive = true then do
        activeVif host vif
        pure (written ++ [vif])
      else pure written) vifs written) fun result _ =>
        result = written ++ vifs.filter fun vif => (host.iface vif).isActive := by
  induction vifs generalizing written with
  | nil => exact achieves_pure fun _ _ => (List.append_nil written).symm
  | cons vif rest ih =>
      refine achieves_bind (activeRound_writes host written vif) fun value s same => ?_
      obtain ⟨result, final, run, all⟩ := ih value s trivial
      refine ⟨result, final, run, ?_⟩
      rw [all, same, List.append_assoc, ← List.filter_append]
      rfl

/-- `active_vifs` writes its arrays at the numbers of the active interfaces. -/
theorem loggingActiveVifs_writes (host : Host) : Achieves (fun _ => True) (loggingActiveVifs host) fun written _ =>
    written = host.vifs.filter fun vif => (host.iface vif).isActive := by
  refine (activeRounds_write host host.vifs []).mono fun written _ same => ?_
  rw [same, List.nil_append]

theorem runs_loggingActiveVifs {host : Host} {s s' : Daemon} {written : List Vif}
    (run : Runs (loggingActiveVifs host) s written s') :
    written = host.vifs.filter fun vif => (host.iface vif).isActive := by
  obtain ⟨_, _, again, same⟩ := loggingActiveVifs_writes host s trivial
  rw [(runs_deterministic run again).1, same]

/-! ## The property -/

theorem taken_all {ifreqs : List Ifreq} (room : (ifreqs.filter wanted).length < 32) :
    (ifreqs.filter wanted).take 32 = ifreqs.filter wanted := List.take_of_length_le (Nat.le_of_lt room)

theorem last_iface {ifreqs : List Ifreq} {last : Ifreq} (room : (ifreqs.filter wanted).length < 32)
    (ends : last ∈ (ifreqs.filter wanted).getLast?) :
    (initVifs ifreqs).iface (ifreqs.filter wanted).length = last.toIface := by
  obtain ⟨ahead, split⟩ := List.getLast?_eq_some_iff.mp ends
  have entry := (initVifs_numbered ifreqs).entries ahead last []
  rw [taken_all room] at entry
  rw [split, List.length_append, List.length_singleton]
  exact entry split

/-- All the numbers are places of their arrays exactly if there is room and the last interface is
down. -/
theorem numbers_fit (host : Host) (ifreqs : List Ifreq) : NumbersFit host ifreqs ↔ RoomForNumbers ifreqs := by
  have numbered := initVifs_numbered ifreqs
  constructor
  · rintro ⟨table, locals, _⟩
    have room : (ifreqs.filter wanted).length < 32 := by
      by_contra full
      have all : ((ifreqs.filter wanted).take 32).length = 32 := List.length_take_of_le (Nat.le_of_not_lt full)
      have listed : 32 ∈ (initVifs ifreqs).written := by
        rw [numbered.written, all]
        decide
      exact Nat.lt_irrefl _ (table 32 listed)
    refine ⟨room, fun last ends => Bool.eq_false_iff.mpr fun up => ?_⟩
    have count : (initVifs ifreqs).maxvif = (ifreqs.filter wanted).length := by rw [numbered.count, taken_all room]
    have some : 1 ≤ (ifreqs.filter wanted).length := List.length_pos_of_mem (List.mem_of_mem_getLast? ends)
    obtain ⟨written, s, run, same⟩ :=
      loggingActiveVifs_writes (host.initVifs ifreqs) (Daemon.blank fun _ => 0) trivial
    have listed : (ifreqs.filter wanted).length ∈ written := by
      rw [same]
      refine List.mem_filter.mpr ⟨Host.mem_vifs.mpr ⟨some, Nat.le_of_eq count.symm⟩, ?_⟩
      exact (congrArg Iface.isActive (last_iface room ends)).trans up
    exact Nat.lt_irrefl _ (count ▸ locals _ written s run _ listed)
  · rintro ⟨room, down⟩
    have room : (ifreqs.filter wanted).length < 32 := room
    have count : (initVifs ifreqs).maxvif = (ifreqs.filter wanted).length := by rw [numbered.count, taken_all room]
    refine ⟨fun vif listed => ?_, fun pimSendBuf written s run vif listed => ?_, Nat.zero_le _, fun vif _ most => ?_⟩
    · rw [numbered.written, taken_all room, List.mem_range'_1] at listed
      exact Nat.lt_of_lt_of_le listed.2 (by omega)
    · rw [runs_loggingActiveVifs run] at listed
      obtain ⟨inside, active⟩ := List.mem_filter.mp listed
      obtain ⟨positive, most⟩ := Host.mem_vifs.mp inside
      refine Nat.lt_of_le_of_ne most fun same => ?_
      cases ends : (ifreqs.filter wanted).getLast? with
      | none =>
          rw [List.getLast?_eq_none_iff.mp ends] at count
          exact absurd (same.trans count) (Nat.ne_of_gt positive)
      | some last =>
          have entry : ((host.initVifs ifreqs).iface vif).isActive = last.isUp := by
            rw [same]
            exact congrArg Iface.isActive (count ▸ last_iface room ends)
          exact absurd (entry.symm.trans active) (Bool.eq_false_iff.mp (down last ends))
    · have below : vif < 32 := Nat.lt_of_le_of_lt (most.trans (Nat.le_of_eq count)) room
      exact ⟨below, below⟩

/-- One interface that is up: its number 1 is no place of an array of one element. -/
theorem numbers_overflow : ¬ ∀ (host : Host) (ifreqs : List Ifreq), NumbersFit host ifreqs := by
  intro all
  obtain ⟨written, s, run, same⟩ := loggingActiveVifs_writes
    (router.initVifs [upOn (stationOn 1 1) (dotted 255 255 255 0)]) (Daemon.blank fun _ => 0) trivial
  have inside := (all router [upOn (stationOn 1 1) (dotted 255 255 255 0)]).locals _ written s run 1
  rw [same] at inside
  exact absurd (inside (by decide +kernel)) (by decide +kernel)

end PimDm.Property
