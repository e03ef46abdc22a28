import ClusterControl.Proofs.Store.Switches
import ClusterControl.Workflow.Outcome

/-!
# Outcomes in the store

A workflow that carries out a plan changes the store twice.  First it wakes hosts, which changes
their power and nothing else (`Store.Wakes`).  When the outcomes are known, it settles the record of
each machine: a relocated one is entered on its destination, and a failed one is marked where it is
(`MigrationResult.settle`).

* `Store.Enters.settle` says that settling one outcome after the other enters the settled records
  and leaves all other machines as they are.
-/

namespace ClusterControl

variable {α : Type}

/-! ## Settled records -/

/-- What an outcome makes of the record of its machine. -/
def MigrationResult.settle (r : MigrationResult) (w : Vm α) : Vm α :=
  if r.outcome.isRelocated then (w.on r.migration.destination).withStatus .running none
  else w.withStatus .error (some .migrationFailed)

@[simp]
theorem MigrationResult.id_settle (r : MigrationResult) (w : Vm α) : (r.settle w).id = w.id := by
  unfold settle
  split <;> rfl

namespace Store

/-- The records of the machines as the outcomes settle them. -/
def settled (s : Store α) (results : List MigrationResult) : List (Vm α) :=
  results.filterMap fun r => (s.vm? r.migration.vm).map r.settle

/-- The machine is on the host where the migration starts, and its destination is another one that
is known. -/
structure Departs (s : Store α) (m : Migration) (source : HostId) (w : Vm α) : Prop where
  starts : m.source = some source
  recordOn : s.recordOn source m.vm = some w
  known : (s.hosts.get? m.destination).isSome = true
  elsewhere : m.destination ≠ source

/-! ## One machine at a time -/

variable {s t u : Store α} {vm : VmId}

/-- A machine that changes place twice ends where it was sent last. -/
theorem Relocates.trans {p q : Option HostId} {w x : Option (Vm α)} (h : Relocates s t vm p w)
    (k : Relocates t u vm q x) : Relocates s u vm q x := by
  refine ⟨fun id => (k.hosts id).trans (h.hosts id), fun id v => ?_, fun v => ?_, fun v => ?_⟩
  · rw [k.recordOn, h.recordOn]
    by_cases hv : v = vm <;> simp [hv]
  · rw [k.index, h.index]
    by_cases hv : v = vm <;> simp [hv]
  · rw [k.unassigned, h.unassigned]
    by_cases hv : v = vm <;> simp [hv]

/-- A machine on a host gets a status where it is. -/
theorem Consistent.relocates_setVmStatus (hs : s.Consistent) {p : HostId} {w : Vm α}
    (hw : s.recordOn p vm = some w) (status : VmStatus) (code : Option VmErrorCode) :
    ∃ s', s.setVmStatus vm status code = (.ok (), s') ∧
      Relocates s s' vm (some p) (some (w.withStatus status code)) := by
  have hindex : s.index.get? vm = some p := hs.placed.index_of_recordOn hw
  obtain ⟨h, hget, hvm⟩ := Option.bind_eq_some_iff.1 hw
  simp only [setVmStatus, hostOf, hindex, modifyVmOn, hget, hvm]
  refine ⟨_, rfl, fun id => ?_, fun id v => ?_, fun v => ?_, fun v => ?_⟩
  · have hbare : ({ h with vms := h.vms.insert vm (w.withStatus status code) } : Host α).bare =
        h.bare := rfl
    exact bare_insert hget hbare id
  · rw [recordOn_insert]
    by_cases hid : id = p
    · subst hid
      by_cases hv : v = vm
      · simp [hv, SortedMap.get?_insert]
      · simp [hv, SortedMap.get?_insert, recordOn_of_get? hget]
    · have hpid : ¬p = id := fun h => hid h.symm
      by_cases hv : v = vm
      · simpa [hv, hid, hpid] using hs.placed.recordOn_of_index_ne hindex hid
      · simp [hv, hid]
  · by_cases hv : v = vm <;> simp [hv, hindex]
  · by_cases hv : v = vm <;> simp [hv, hs.placed.unassigned_of_recordOn hw]

/-- A record that is filed where it says keeps the maps in agreement. -/
theorem Consistent.relocates_filed (hs : s.Consistent) {w : Vm α}
    (h : Relocates s t w.id w.hostId (some w)) : t.Consistent := by
  refine hs.relocate h ?_ (by simp)
  rintro v ⟨⟩
  exact ⟨rfl, rfl⟩

/-- The same record is found of a machine about which nothing has changed. -/
theorem SameOf.vm?_eq {v : VmId} (h : SameOf s t v) : t.vm? v = s.vm? v := by
  rw [vm?, vm?, hostOf, hostOf, h.index]
  cases s.index.get? v with
  | none => exact h.unassigned
  | some host => exact h.recordOn host

/-- A record that is filed is found. -/
theorem Files.vm?_eq {w : Vm α} (h : s.Files w) : s.vm? w.id = some w := by
  rw [vm?, hostOf, h.index]
  cases hplace : w.hostId with
  | none =>
    have hunassigned := h.unassigned
    rwa [if_pos hplace] at hunassigned
  | some host =>
    have hrecord := h.recordOn host
    rwa [if_pos hplace] at hrecord

/-! ## One outcome after the other -/

/-- After machines were entered, another one still departs from where it is. -/
theorem Enters.departs {entered : List (Vm α)} (h : Enters s t entered) {m : Migration}
    {source : HostId} {w : Vm α} (hm : s.Departs m source w)
    (hnew : m.vm ∉ entered.map Vm.id) : t.Departs m source w := by
  have hsame : SameOf s t m.vm := h.others m.vm hnew
  refine ⟨hm.starts, ?_, ?_, hm.elsewhere⟩
  · rw [hsame.recordOn]
    exact hm.recordOn
  · rw [← Option.isSome_map (f := Host.bare), h.hosts, Option.isSome_map]
    exact hm.known

/-- One more outcome is settled. -/
theorem Enters.settle {done : List MigrationResult} (hs : s.Consistent)
    (h : Enters s t (s.settled done)) {r : MigrationResult} {source : HostId} {w : Vm α}
    (hr : s.Departs r.migration source w)
    (hnew : r.migration.vm ∉ (s.settled done).map Vm.id)
    (hmoved : Relocates t u r.migration.vm (r.settle w).hostId (some (r.settle w))) :
    Enters s u (s.settled (done ++ [r])) := by
  have hid : (r.settle w).id = r.migration.vm := by
    rw [MigrationResult.id_settle]
    exact (hs.on_host hr.recordOn).1
  have hrecord : s.settled [r] = [r.settle w] := by
    simp [settled, hs.vm?_of_recordOn hr.recordOn]
  have happend : s.settled (done ++ [r]) = s.settled done ++ [r.settle w] := by
    rw [← hrecord, settled, settled, settled, List.filterMap_append]
  rw [← hid] at hnew hmoved
  rw [happend]
  exact h.relocates hnew (h.consistent.relocates_filed hmoved) hmoved

/-- The settled machines are the ones that the outcomes are about. -/
theorem ids_settled {results : List MigrationResult} (hs : s.Consistent)
    (h : ∀ r ∈ results, ∃ source w, s.Departs r.migration source w) :
    (s.settled results).map Vm.id = results.map fun r => r.migration.vm := by
  induction results with
  | nil => rfl
  | cons r rest ih =>
    obtain ⟨source, w, hr⟩ := h r List.mem_cons_self
    have hget : (s.vm? r.migration.vm).map r.settle = some (r.settle w) := by
      rw [hs.vm?_of_recordOn hr.recordOn, Option.map_some]
    have hid : (r.settle w).id = r.migration.vm := by
      rw [MigrationResult.id_settle]
      exact (hs.on_host hr.recordOn).1
    have hrest := ih fun r' hr' => h r' (List.mem_cons_of_mem r hr')
    simp only [settled, List.filterMap_cons, hget, List.map_cons, hid]
    exact congrArg _ hrest

/-! ## Hosts that were woken -/

/-- From `s` to `s'` the hosts on the list, which were passive, were woken, and nothing else has
changed. -/
structure Wakes (s s' : Store α) (woken : List HostId) : Prop where
  passive : ∀ id ∈ woken, s.status? id = some .passive
  hosts : ∀ id, s'.hosts.get? id =
    if id ∈ woken then (s.hosts.get? id).map (Host.withStatus · .wokenUp) else s.hosts.get? id
  index : s'.index = s.index
  unassigned : s'.unassigned = s.unassigned

/-- To be woken is to be switched from passive to woken up. -/
theorem wakes_iff {woken : List HostId} :
    Wakes s t woken ↔ s.Switches .passive .wokenUp t woken :=
  ⟨fun h => ⟨h.passive, h.hosts, h.index, h.unassigned⟩,
    fun h => ⟨h.before, h.hosts, h.index, h.unassigned⟩⟩

theorem Wakes.refl (s : Store α) : Wakes s s [] := wakes_iff.2 (.refl _ _ s)

theorem Wakes.status {woken : List HostId} (h : Wakes s t woken) (id : HostId) :
    t.status? id = if id ∈ woken then some .wokenUp else s.status? id :=
  (wakes_iff.1 h).status id

/-- Hosts may be woken one after the other. -/
theorem Wakes.trans {first rest : List HostId} (h : Wakes s t first) (k : Wakes t u rest) :
    Wakes s u (first ++ rest) :=
  wakes_iff.2 ((wakes_iff.1 h).trans (by simp) (wakes_iff.1 k))

/-- Waking hosts leaves every machine as it is. -/
theorem Wakes.sameOf {woken : List HostId} (h : Wakes s t woken) (v : VmId) : SameOf s t v :=
  (wakes_iff.1 h).sameOf v

theorem Wakes.consistent {woken : List HostId} (h : Wakes s t woken) (hs : s.Consistent) :
    t.Consistent :=
  (wakes_iff.1 h).consistent hs

/-- A machine departs as before once hosts were woken. -/
theorem Wakes.departs {woken : List HostId} (h : Wakes s t woken) {m : Migration} {source : HostId}
    {w : Vm α} (hm : s.Departs m source w) : t.Departs m source w := by
  refine ⟨hm.starts, ?_, ?_, hm.elsewhere⟩
  · rw [(h.sameOf m.vm).recordOn]
    exact hm.recordOn
  · rw [h.hosts]
    by_cases hid : m.destination ∈ woken
    · rw [if_pos hid, Option.isSome_map]
      exact hm.known
    · rw [if_neg hid]
      exact hm.known

/-- A passive host is woken. -/
theorem wakes_transition {id : HostId} (h : s.status? id = some .passive) :
    ∃ s', s.transition id .passive .wokenUp = (.ok true, s') ∧ Wakes s s' [id] ∧
      s'.transition id .wokenUp .passive = (.ok true, s) := by
  obtain ⟨s', hclaim, hswitches, hback⟩ := switches_transition h .wokenUp
  exact ⟨s', hclaim, wakes_iff.2 hswitches, hback⟩

end Store

end ClusterControl
