import PimDm.Refinement.Keys
import PimDm.Property.Session

/-!
# The list at `themrt` and the calls that create and delete entries

`add_sg` neither looks for the entry it creates nor ends the list it starts.
Whatever blocks `malloc` returns, the list holds each live key once as long as
every upcall asks for a new entry and the first block ends the list by itself.
-/

namespace PimDm.Property

open PimDm.Foundation PimDm.Source PimDm.Effect PimDm.Refinement

variable {host : Host} {s s' : Daemon} {items : List (Ptr × Addr × Addr)}

/-- `find_sg` returns `NULL`. -/
def Absent (s : Daemon) (source group : Addr) : Prop :=
  s.mrts.find Mrt.next (Mrt.isFor source group) (s.mrts.size + 1) s.themrt = .ok 0

instance (s : Daemon) (source group : Addr) : Decidable (Absent s source group) :=
  inferInstanceAs (Decidable (_ = _))

/-- An upcall that creates an entry asks for a new one, and the block of a first
entry ends the list. -/
def CreatesNew (host : Host) (s : Daemon) : Event → Prop
  | .multicastPacketError mydata checked _ =>
      mydata.message = 1 → findVifDirect host (getUpstream host checked mydata.source) = mydata.vif →
        (s.themrt = 0 → (host.mallocMrt s.mrts.fresh).next = 0) ∧
          Absent s mydata.source mydata.destination
  | _ => True

instance decidableCreatesNew (host : Host) (s : Daemon) :
    (event : Event) → Decidable (CreatesNew host s event)
  | .multicastPacketError mydata checked _ =>
      inferInstanceAs (Decidable (mydata.message = 1 →
        findVifDirect host (getUpstream host checked mydata.source) = mydata.vif →
          (s.themrt = 0 → (host.mallocMrt s.mrts.fresh).next = 0) ∧
            Absent s mydata.source mydata.destination))
  | .acceptMembershipQuery .. | .acceptGroupReport .. | .acceptLeaveMessage .. | .pimInput ..
  | .age _ | .expire _ => isTrue trivial

/-! ## Searching -/

theorem findSg_represents (represents : Represents s items) (source group : Addr) :
    ∃ mymrt, s.mrts.find Mrt.next (Mrt.isFor source group) (s.mrts.size + 1) s.themrt = .ok mymrt ∧
      (mymrt = 0 ↔ ¬ Live source group s.trace) := by
  have result := represents.shows.find_eq (Mrt.isFor source group)
    (fun key => key.1 == source && key.2 == group) fun _ => rfl
  refine ⟨_, result, ?_⟩
  rw [← represents.live]
  cases found : items.find? fun item => item.2.1 == source && item.2.2 == group with
  | none =>
      refine iff_of_true rfl fun member => ?_
      obtain ⟨item, inside, key⟩ := List.mem_map.mp member
      have differs := List.find?_eq_none.mp found item inside
      simp [key] at differs
  | some item =>
      have inside := List.mem_of_find?_eq_some found
      have key := List.find?_some (p := fun item : Ptr × Addr × Addr =>
        item.2.1 == source && item.2.2 == group) found
      obtain ⟨sameSource, sameGroup⟩ := Bool.and_eq_true_iff.mp key
      refine iff_of_false (represents.shows.nonnull inside) (not_not.mpr ?_)
      rw [← eq_of_beq sameSource, ← eq_of_beq sameGroup]
      exact List.mem_map_of_mem inside

theorem absent_iff (represents : Represents s items) {source group : Addr} :
    Absent s source group ↔ ¬ Live source group s.trace := by
  obtain ⟨mymrt, found, null⟩ := findSg_represents represents source group
  rw [← null, Absent, found, Except.ok.injEq]

/-! ## Steps -/

/-- An event that neither creates nor removes an entry keeps the keys. -/
theorem represents_of_low (represents : Represents s items) {event : Event}
    (low : eventLevel s event ≤ .lists) (run : Runs (handle host event) s () s') :
    ∃ items', Represents s' items' :=
  ⟨items, (sameKeys_of_changes low (handle_anything run)).represents represents⟩

theorem newMulticastPacket_represents_iff (represents : Represents s items)
    {mydata : MulticastErrorData} {checked routed : Addr}
    (run : Runs (newMulticastPacket host mydata checked routed) s () s') :
    (∃ items', Represents s' items') ↔
      (findVifDirect host (getUpstream host checked mydata.source) = mydata.vif →
        (s.themrt = 0 → (host.mallocMrt s.mrts.fresh).next = 0) ∧
          Absent s mydata.source mydata.destination) := by
  rcases newMulticastPacket_creates run with ⟨right, added, add, tell⟩ | ⟨wrong, rfl⟩
  · obtain ⟨timed, newmrt, before, next, key, after⟩ := addSg_links add
    have changes : Changes .forwarding Anything added s' :=
      changeMfc_changes (Nat.le_refl _) host _ _ _ _ _ _ tell
    have told := sameKeys_of_changes (by decide) changes
    have whole := steady_sameKeys.trans after told
    simp only [whole.represents_iff, right, forall_const]
    rw [linked_represents_iff (before.represents represents) key, before.themrt, next, before.live,
      absent_iff represents]
  · refine iff_of_true ⟨items, represents⟩ fun right => ?_
    exact absurd right wrong

/-- After one event the table represents what is live exactly when the event
creates nothing but new entries. -/
theorem step_represents_iff (represents : Represents s items) {event : Event}
    (taken : Step host s event s') : (∃ items', Represents s' items') ↔ CreatesNew host s event := by
  obtain ⟨_, run⟩ := taken
  cases event with
  | multicastPacketError mydata checked routed =>
      obtain ⟨_, middle, first, second⟩ := runs_bind.mp run
      have quiet : Within (Changes .quiet Anything)
          (onlyIf (mydata.message = 2) (wrongMulticastPacket host mydata)) :=
        does_onlyIf fun _ => wrongMulticastPacket_changes host mydata
      have later := sameKeys_of_changes (by decide) (quiet _ _ _ second)
      simp only [later.represents_iff]
      rcases runs_onlyIf.mp first with ⟨fresh, create⟩ | ⟨other, rfl⟩
      · rw [newMulticastPacket_represents_iff represents create]
        exact ⟨fun new _ => new, fun new => new fresh⟩
      · exact iff_of_true ⟨items, represents⟩ fun fresh => absurd fresh other
  | expire pktcnt =>
      refine iff_of_true ?_ trivial
      rcases runs_expire run with ⟨_, rfl⟩ | ⟨func, calls, call⟩
      · exact ⟨items, represents⟩
      by_cases timeout : ∃ source group, func = .handleSgTimeout source group
      · obtain ⟨source, group, rfl⟩ := timeout
        obtain ⟨_, _, delete, stop⟩ := runs_bind.mp call
        obtain ⟨_, rfl⟩ := runs_pure.mp stop
        have before : SameKeys s s.popExpired := update_sameKeys s .popExpired (by decide)
        exact deleteSg_represents (before.represents represents) delete
      · have low : eventLevel s (.expire pktcnt) ≤ .lists := by
          refine eventLevel_lists (fun _ _ _ other => nomatch other) fun source group other => ?_
          exact timeout ⟨source, group, Option.some.inj (calls.symm.trans other)⟩
        exact represents_of_low represents low run
  | _ =>
      refine iff_of_true (represents_of_low represents (eventLevel_lists ?_ ?_) run) trivial
      · exact fun _ _ _ other => nomatch other
      · exact fun _ _ calls => nomatch calls

/-! ## Runs -/

theorem represents_blank (pimSendBuf : Memory) : Represents (Daemon.blank pimSendBuf) [] where
  shows := Heap.Shows.empty
  distinct := List.nodup_nil
  live _ _ := iff_of_false List.not_mem_nil id

theorem represents_of_createsNew (reached : Reachable host (CreatesNew host) s) :
    ∃ items, Represents s items := by
  obtain ⟨start, ⟨pimSendBuf, booted⟩, run⟩ := reached
  refine run.keeps (P := fun state => ∃ items, Represents state items) ?_ ?_
  · have quiet : Within (Changes .quiet Anything) (boot host) :=
      boot_changes (fun _ => trivial) (fun _ => trivial) trivial host
    have same := sameKeys_of_changes (by decide) (quiet _ _ _ booted)
    exact ⟨[], same.represents (represents_blank pimSendBuf)⟩
  · rintro before event after ⟨items, represents⟩ may taken
    exact (step_represents_iff represents taken).mpr may

/-- As long as upcalls create nothing but new entries, the list at `themrt` ends,
holds each live key once and nothing else, and `find_sg` ends and returns `NULL`
exactly for the keys that are not live; the first event that does otherwise
breaks the list. -/
theorem themrt_represents (reached : Reachable host (CreatesNew host) s) :
    (∃ items, Represents s items) ∧
      (∀ source group, ∃ mymrt, Runs (findSg source group) s mymrt s ∧
        (mymrt = 0 ↔ ¬ Live source group s.trace)) ∧
      ∀ event s', Step host s event s' →
        ((∃ items, Represents s' items) ↔ CreatesNew host s event) := by
  obtain ⟨items, represents⟩ := represents_of_createsNew reached
  refine ⟨⟨items, represents⟩, fun source group => ?_, fun event s' taken => ?_⟩
  · obtain ⟨mymrt, found, null⟩ := findSg_represents represents source group
    exact ⟨mymrt, runs_findMrt.mpr ⟨found, rfl⟩, null⟩
  · exact step_represents_iff represents taken

/-- A list that represents what is live repeats no key. -/
theorem view_nodup (represents : Represents s items) :
    ((s.mrts.view Mrt.next keyOf s.themrt).map Prod.snd).Nodup := by
  rw [represents.shows.view_eq]
  exact represents.distinct

/-- The event is an upcall of the kernel. -/
def IsUpcall (_ : Daemon) : Event → Prop
  | .multicastPacketError .. => True
  | _ => False

instance decidableIsUpcall (s : Daemon) : (event : Event) → Decidable (IsUpcall s event)
  | .multicastPacketError .. => isTrue trivial
  | .acceptMembershipQuery .. | .acceptGroupReport .. | .acceptLeaveMessage .. | .pimInput ..
  | .age _ | .expire _ => isFalse id

/-- An upcall that is repeated creates a second entry, even on clean memory. -/
theorem themrt_repeats :
    ¬ ∀ host : Host, ∀ s, Reachable host IsUpcall s → ∃ items, Represents s items := by
  intro represented
  have passed : endsWith router IsUpcall
      [upcall 1 1 (stationOn 1 7) studio channel, upcall 1 1 (stationOn 1 7) studio channel]
      (fun s => decide ¬ ((s.mrts.view Mrt.next keyOf s.themrt).map Prod.snd).Nodup) = true := by
    decide +kernel
  obtain ⟨s, reached, repeated⟩ := reachable_of_endsWith passed
  obtain ⟨items, represents⟩ := represented router s reached
  exact of_decide_eq_true repeated (view_nodup represents)

/-- Two sources, and packets of the first on another interface. -/
theorem themrt_represents_session :
    ∃ s, Reachable router (CreatesNew router) s ∧ (table s).entries.length = 2 ∧
      ∃ items, Represents s items := by
  have passed : endsWith router (CreatesNew router)
      [upcall 1 1 (stationOn 1 7) studio channel, upcall 1 1 0 (stationOn 1 8) channel,
        upcall 2 2 0 studio channel, upcall 1 2 (stationOn 1 7) studio channel]
      (fun s => (table s).entries.length == 2) = true := by decide +kernel
  obtain ⟨s, reached, two⟩ := reachable_of_endsWith passed
  exact ⟨s, reached, eq_of_beq two, (themrt_represents reached).1⟩

end PimDm.Property
