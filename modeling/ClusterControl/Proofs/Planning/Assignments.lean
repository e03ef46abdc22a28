import ClusterControl.Proofs.Planning.Batch

/-!
# Where a batch ends up

A batch of new machines is placed on hosts that have none of them.  Which host a machine goes to
depends on the policy; that nothing is lost, that no host is overfilled, and that what is left over
fits nowhere does not.

* `Placement.distributes` says this of every policy: the plan and the hosts that come of a batch
  agree, and the plan could not have been larger.
* `Placement.first_fit_stable` is about first fit.  A host that was passed over for a machine had no
  room for it then, and has none in the end.
-/

namespace ClusterControl

namespace Placement

variable {α : Type}

/-! ## The host of a machine -/

/-- The plan names the host that was decided on, when no two machines have one id. -/
theorem Decides.hostOf {choices : List (Vm α × Option HostId)} {p : PlacementPlan α}
    (h : Decides choices p) (hids : ((choices.map Prod.fst).map Vm.id).Nodup)
    {x : Vm α × Option HostId} (hx : x ∈ choices) : p.hostOf x.1.id = x.2 := by
  rw [PlacementPlan.hostOf, h.assigned]
  clear h
  induction choices with
  | nil => exact absurd hx List.not_mem_nil
  | cons y rest ih =>
    obtain ⟨hy, hrest⟩ := List.nodup_cons.1 hids
    have hother : ∀ w ∈ rest, y.1.id ≠ w.1.id := fun w hw heq =>
      hy (heq ▸ List.mem_map_of_mem (List.mem_map_of_mem hw))
    rcases List.mem_cons.1 hx with rfl | hlater
    · obtain ⟨vm, choice⟩ := x
      cases choice with
      | some host => simp [Vm.on]
      | none =>
        -- the machine was left out, and those after it have other ids
        simp only [List.filterMap_cons, Option.map_none, Option.map_eq_none_iff,
          List.find?_eq_none, List.mem_filterMap]
        rintro a ⟨w, hw, ha⟩
        obtain ⟨host, -, rfl⟩ := Option.map_eq_some_iff.1 ha
        simpa [Vm.on] using (hother w hw).symm
    · obtain ⟨vm, choice⟩ := y
      cases choice with
      | some host => simpa [Vm.on, hother x hlater] using ih hrest hlater
      | none => exact ih hrest hlater

/-! ## All policies -/

/-- A batch is distributed over hosts: every machine is on one of them, as the plan says, or is
left unassigned; the hosts have what they had and what was assigned to them. -/
structure Distributes [Quantity α] (hosts : List (Host α)) (batch : List (Vm α)) (s : Progress α) :
    Prop where
  /-- The machines with a host are assigned to it, in batch order. -/
  assigned : s.plan.assignments = batch.filterMap fun vm =>
    (s.plan.hostOf vm.id).map fun host => ⟨vm.on host, host⟩
  /-- The other ones are unassigned, in batch order. -/
  unassigned : s.plan.unassigned = batch.filter fun vm => (s.plan.hostOf vm.id).isNone
  /-- Machines are assigned to hosts that were offered. -/
  known : ∀ a ∈ s.plan.assignments, ∃ h ∈ hosts, h.id = a.host
  /-- Every host, in its place in the list, has gained the machines that are assigned to it. -/
  gains : List.Forall₂ (fun h h' =>
    h.Gains (batch.filter fun vm => s.plan.hostOf vm.id == some h.id) h') hosts s.hosts
  /-- A host that machines were assigned to is within its capacity. -/
  fits : ∀ h ∈ s.hosts, (∃ a ∈ s.plan.assignments, a.host = h.id) →
    h.requested.fitsWithin h.capacity = true
  /-- An unassigned machine fits none of the hosts as they are in the end. -/
  full : ∀ vm ∈ s.plan.unassigned, ∀ h ∈ s.hosts, h.canTake vm = false

section

variable [Quantity α] [AddCommMonoid α] [LinearOrder α] [IsOrderedAddMonoid α] [Quantity.Exact α]

/-- A policy distributes every batch of machines that the offered hosts have not. -/
theorem distributes (p : PlacementPolicy) (cursor : Nat) {batch : List (Vm α)}
    {hosts : List (Host α)} (hids : (hosts.map Host.id).Nodup)
    (hbatch : (batch.map Vm.id).Nodup) (hfresh : ∀ h ∈ hosts, ∀ vm ∈ batch, ¬h.Has vm.id)
    (hown : ∀ h ∈ hosts, ∀ {v w}, h.vms.get? v = some w → w.requested.Nonneg)
    (hnonneg : ∀ vm ∈ batch, vm.requested.Nonneg) :
    Distributes hosts batch (place p cursor batch hosts) := by
  obtain ⟨choices, rfl, hdecides, hfills⟩ := exists_choices p cursor batch hosts
  have hnew : Awaited (fun _ => True) hosts (choices.map Prod.fst) :=
    ⟨hbatch, fun h hh _ => hfresh h hh, hown, hnonneg⟩
  have hhost : ∀ x ∈ choices, (place p cursor (choices.map Prod.fst) hosts).plan.hostOf x.1.id =
      x.2 := fun x hx => hdecides.hostOf hbatch hx
  refine ⟨?_, ?_, fun a ha => ?_, ?_, fun h hh hsome => ?_, fun vm hvm h hh => ?_⟩
  · rw [List.filterMap_map]
    refine hdecides.assigned.trans (List.filterMap_congr fun x hx => ?_)
    rw [Function.comp_apply, hhost x hx]
  · rw [← List.filterMap_eq_filter, List.filterMap_map]
    refine hdecides.left.trans (List.filterMap_congr fun x hx => ?_)
    rw [Function.comp_apply, Option.guard, hhost x hx]
    cases x.2 <;> rfl
  · obtain ⟨vm, hvm, -⟩ := hdecides.mem_assignments ha
    obtain ⟨h, hh, hid, -⟩ := hfills.known hvm
    exact ⟨h, hh, hid⟩
  · simp only [← sentTo_eq_filter hhost]
    exact hfills.gains hnew hids
  · obtain ⟨a, ha, hid⟩ := hsome
    obtain ⟨vm, hvm, -⟩ := hdecides.mem_assignments ha
    exact hfills.fits hnew hids hh (List.ne_nil_of_mem (mem_sentTo (hid ▸ hvm)))
  · exact hfills.refused hnew (hdecides.mem_unassigned hvm) hh trivial

end

/-- Two hosts, of which the first one has a machine and room for little more. -/
def offered : List (Host ℚ) :=
  [(Host.new "a" (.ofFn fun _ => 4) 1).assign (.new "u" (.ofFn fun _ => 3) 1),
    Host.new "b" (.ofFn fun _ => 4) 1]

/-- Three machines, for which the two hosts have not room enough. -/
def arriving : List (Vm ℚ) :=
  [.new "v" (.ofFn fun _ => 2) 1, .new "w" (.ofFn fun _ => 1) 1, .new "x" (.ofFn fun _ => 3) 1]

theorem fresh_offered : ∀ h ∈ offered, ∀ vm ∈ arriving, ¬h.Has vm.id := by
  unfold Host.Has
  decide +kernel

theorem nonneg_offered : ∀ h ∈ offered, ∀ {v w}, h.vms.get? v = some w → w.requested.Nonneg := by
  have hall : ∀ h ∈ offered, ∀ e ∈ h.vms.entries, e.2.requested.Nonneg := by decide +kernel
  exact fun h hh v w hw => hall h hh (v, w) (SortedMap.get?_eq_some_iff.1 hw)

theorem nonneg_arriving : ∀ vm ∈ arriving, vm.requested.Nonneg := by decide +kernel

theorem distributes_offered :
    (place .roundRobin 1 arriving offered).plan.assignments.map (fun a => (a.vm.id, a.host)) =
        [("v", "b"), ("w", "a")] ∧
      (place .roundRobin 1 arriving offered).plan.unassigned.map Vm.id = ["x"] ∧
      Distributes offered arriving (place .roundRobin 1 arriving offered) :=
  ⟨by decide +kernel, by decide +kernel,
    distributes .roundRobin 1 (by decide) (by decide) fresh_offered nonneg_offered nonneg_arriving⟩

/-! ## First fit -/

/-- First fit puts a machine on the host at an index when its turn comes, and none of the hosts
before that one has room for it, then or in the end. -/
structure PutsFirst [Quantity α] (cursor : Nat) (batch : List (Vm α)) (hosts : List (Host α))
    (t : Nat) (vm : Vm α) (i : Nat) (k : Host α) : Prop where
  /-- It is the machine's turn, and the host has room for it. -/
  comes : batch[t]? = some vm
  host : (moment .firstFit cursor batch hosts t).hosts[i]? = some k
  room : k.canTake vm = true
  /-- The host takes the machine, and has it in the end. -/
  goes : moment .firstFit cursor batch hosts (t + 1) =
    { moment .firstFit cursor batch hosts t with
      plan := (moment .firstFit cursor batch hosts t).plan.assign vm k.id,
      hosts := (moment .firstFit cursor batch hosts t).hosts.set i (k.assign vm) }
  stays : ∃ k', (place .firstFit cursor batch hosts).hosts[i]? = some k' ∧ k'.bare = k.bare ∧
    k'.vms.get? vm.id = some (vm.on k.id)
  /-- The hosts before it have no room for the machine when its turn comes. -/
  passed : ∀ j < i, ∀ h, (moment .firstFit cursor batch hosts t).hosts[j]? = some h →
    h.canTake vm = false
  /-- They have none in the end. -/
  full : ∀ j < i, ∀ h, (place .firstFit cursor batch hosts).hosts[j]? = some h →
    h.canTake vm = false

section

variable [Quantity α] [AddCommMonoid α] [LinearOrder α]

/-- What is still to come at a moment may be handed out then. -/
theorem awaited_moment (p : PlacementPolicy) (cursor : Nat) {batch : List (Vm α)}
    {hosts : List (Host α)} (hnew : Awaited (fun _ => True) hosts batch) (t : Nat) :
    Awaited (fun _ => True) (moment p cursor batch hosts t).hosts (batch.drop t) := by
  obtain ⟨choices, hchoices, -, hfills⟩ := exists_choices p cursor (batch.take t) hosts
  refine hfills.awaited ?_
  rwa [hchoices, List.take_append_drop]

omit [AddCommMonoid α] [LinearOrder α] in
theorem not_canTake_before_firstFitting {vm : Vm α} {l : List (Host α)} {i j : Nat} {h : Host α}
    (hi : firstFitting vm l = some i) (hj : j < i) (hh : l[j]? = some h) :
    h.canTake vm = false := by
  obtain ⟨_, _, hbefore⟩ := List.findIdx?_eq_some_iff_getElem.1 hi
  obtain ⟨_, rfl⟩ := List.getElem?_eq_some_iff.1 hh
  exact Bool.eq_false_iff.2 (hbefore j hj)

variable [IsOrderedAddMonoid α] [Quantity.Exact α]

/-- First fit is stable: every machine that it assigns is on the first host that had room for it,
and the hosts before that one have no room for it in the end either. -/
theorem first_fit_stable (cursor : Nat) {batch : List (Vm α)} {hosts : List (Host α)}
    (hbatch : (batch.map Vm.id).Nodup) (hfresh : ∀ h ∈ hosts, ∀ vm ∈ batch, ¬h.Has vm.id)
    (hown : ∀ h ∈ hosts, ∀ {v w}, h.vms.get? v = some w → w.requested.Nonneg)
    (hnonneg : ∀ vm ∈ batch, vm.requested.Nonneg) :
    ∀ a ∈ (place .firstFit cursor batch hosts).plan.assignments, ∃ t vm i k,
      a = ⟨vm.on k.id, k.id⟩ ∧ PutsFirst cursor batch hosts t vm i k := by
  intro a ha
  obtain ⟨t, vm, i, k, hvm, hi, hk, ha⟩ := exists_turn ha
  obtain ⟨k', hk', hroom, hstep⟩ := step_of_choose_eq_some hi
  obtain rfl := Option.some.inj (hk.symm.trans hk')
  rw [← moment_succ _ _ _ _ hvm] at hstep
  have hnew : ∀ n, Awaited (fun _ => True) (moment .firstFit cursor batch hosts n).hosts
      (batch.drop n) :=
    awaited_moment .firstFit cursor ⟨hbatch, fun h hh _ => hfresh h hh, hown, hnonneg⟩
  have hpassed : ∀ j < i, ∀ h, (moment .firstFit cursor batch hosts t).hosts[j]? = some h →
      h.canTake vm = false :=
    fun j hj h hh => not_canTake_before_firstFitting hi hj hh
  refine ⟨t, vm, i, k, ha, hvm, hk, hroom, hstep, ?_, hpassed, fun j hj h hh => ?_⟩
  · obtain ⟨choices, hchoices, hfills⟩ := exists_choices_moment .firstFit cursor batch hosts (t + 1)
    have hassigned : (moment .firstFit cursor batch hosts (t + 1)).hosts[i]? =
        some (k.assign vm) := by
      rw [hstep]
      exact List.getElem?_set_self (List.getElem?_eq_some_iff.1 hk).1
    have hrecorded : (k.assign vm).vms.get? vm.id = some (vm.on k.id) := by
      rw [Host.assign, SortedMap.get?_insert, if_pos rfl]
    obtain ⟨k', hk', hbare, hkept⟩ :=
      hfills.keeps (hchoices ▸ hnew (t + 1)) hassigned hrecorded
    exact ⟨k', hk', hbare, hkept⟩
  · obtain ⟨choices, hchoices, hfills⟩ := exists_choices_moment .firstFit cursor batch hosts t
    obtain ⟨k₀, hk₀⟩ := hfills.exists_get hh
    exact hfills.refuses (hchoices ▸ hnew t) hk₀ hh (hpassed j hj k₀ hk₀)

end

theorem first_fit_stable_offered :
    (place .firstFit 0 arriving offered).plan.assignments.map (fun a => (a.vm.id, a.host)) =
        [("v", "b"), ("w", "a")] ∧
      ∀ a ∈ (place .firstFit 0 arriving offered).plan.assignments, ∃ t vm i k,
        a = ⟨vm.on k.id, k.id⟩ ∧ PutsFirst 0 arriving offered t vm i k :=
  ⟨by decide +kernel,
    first_fit_stable 0 (by decide) fresh_offered nonneg_offered nonneg_arriving⟩

end Placement

end ClusterControl
