import ClusterControl.Demand.Estimator
import ClusterControl.Proofs.Resource.Faithful

/-!
# What remains of a host's utilization

A host's utilization is what its machines demand plus what it uses itself.  A host that gives up a
machine may subtract that machine's demand, or be estimated again without it.  Over exact numbers
both come to the same, since no sum falls below one of its parts.

* `Estimator.Lawful` says what an estimator owes its callers, and `Estimator.lawful_ofName` that
  every estimator a setting names does.
* `Estimator.Lawful.utilization_monus` is the subtraction of one machine.
* `Estimator.Lawful.foldl_monus` is that of one machine after the other.
-/

namespace ClusterControl

variable {α : Type}

/-- The host without the machines filed under some ids. -/
def Host.without (h : Host α) (ids : List VmId) : Host α := ids.foldl Host.unassign h

namespace Host

@[simp]
theorem without_nil (h : Host α) : h.without [] = h := rfl

@[simp]
theorem without_cons (h : Host α) (v : VmId) (ids : List VmId) :
    h.without (v :: ids) = (h.unassign v).without ids := rfl

@[simp]
theorem bare_without (h : Host α) (ids : List VmId) : (h.without ids).bare = h.bare := by
  induction ids generalizing h with
  | nil => rfl
  | cons v rest ih => rw [without_cons, ih, bare_unassign]

end Host

namespace Estimator

variable [AddCommGroup α] [LinearOrder α]

/-- What an estimator owes its callers: amounts that are not negative, and a host's own usage that
does not depend on its machines. -/
structure Lawful (e : Estimator α) : Prop where
  demand_nonneg : ∀ vm, (e.demand vm).Nonneg
  overhead_nonneg : ∀ h, (e.overhead h).Nonneg
  overhead_bare : ∀ h, e.overhead h.bare = e.overhead h

variable {e : Estimator α}

theorem Lawful.overhead_unassign (he : e.Lawful) (h : Host α) (v : VmId) :
    e.overhead (h.unassign v) = e.overhead h := by
  rw [← he.overhead_bare, Host.bare_unassign, he.overhead_bare]

variable [Quantity α] [Quantity.Faithful α]

theorem nonneg_combine (a : Aggregation) (samples : List (Sample α)) :
    (a.combine samples).Nonneg := by
  unfold Aggregation.combine
  dsimp only
  split
  · exact Resources.nonneg_zero
  · exact Resources.nonneg_clamped _
  · exact Resources.nonneg_clamped _

theorem lawful_windowed (a : Aggregation) (window : Nat) :
    (windowed a window : Estimator α).Lawful where
  demand_nonneg vm := nonneg_combine a (vm.history.latest window)
  overhead_nonneg h := nonneg_combine a (h.history.latest window)
  overhead_bare _ := rfl

/-- Every estimator that settings name is lawful. -/
theorem lawful_ofName (name : String) (window historyCapacity : Nat) :
    (ofName name window historyCapacity : Estimator α).Lawful :=
  lawful_windowed _ _

/-- An estimator that answers for one dimension at a time is lawful when its demands are and its
answers do not depend on the machines. -/
theorem lawful_ofScalar (name : String) (window : Nat) {demand : Vm α → Resources α}
    {hostUsage : Host α → Resource → α} (hdemand : ∀ vm, (demand vm).Nonneg)
    (husage : ∀ h r, hostUsage h.bare r = hostUsage h r) :
    (ofScalar name window demand hostUsage).Lawful where
  demand_nonneg := hdemand
  overhead_nonneg h := by
    have hfold : ∀ (l : List Resource) {v : Resources α}, v.Nonneg →
        (l.foldl (fun v r => v.set r (hostUsage h r)) v).Nonneg := by
      intro l
      induction l with
      | nil => exact fun hv => hv
      | cons r rest ih => exact fun hv => ih (hv.set r _)
    exact hfold _ Resources.nonneg_zero
  overhead_bare h := by
    simp only [ofScalar, husage]

/-- What the machines of a host demand, in any order, and what it uses itself. -/
theorem get_utilization (e : Estimator α) {h : Host α} {entries : List (VmId × Vm α)}
    (hentries : h.vms.entries.Perm entries) (r : Resource) : (e.utilization h).get r =
      (entries.map fun x => (e.demand x.2).get r).sum + (e.overhead h).get r := by
  rw [utilization, Resources.get_add, Resources.get_sum, SortedMap.values, List.map_map,
    List.map_map]
  exact congrArg (· + _) (hentries.map _).sum_eq

/-- The utilization without a machine, and the machine's demand, come to the utilization with it. -/
theorem Lawful.utilization_unassign (he : e.Lawful) {h : Host α} {v : VmId} {vm : Vm α}
    (hv : h.vms.get? v = some vm) :
    (e.utilization (h.unassign v)).add (e.demand vm) = e.utilization h := by
  ext r
  rw [Resources.get_add, e.get_utilization (SortedMap.perm_of_get? hv),
    e.get_utilization (.refl _), he.overhead_unassign, List.map_cons, List.sum_cons, add_right_comm,
    add_comm (List.sum _)]
  rfl

variable [IsOrderedAddMonoid α]

theorem Lawful.utilization_nonneg (he : e.Lawful) (h : Host α) : (e.utilization h).Nonneg := by
  intro r
  rw [e.get_utilization (.refl _)]
  refine add_nonneg (List.sum_nonneg fun x hx => ?_) (he.overhead_nonneg h r)
  obtain ⟨y, -, rfl⟩ := List.mem_map.1 hx
  exact he.demand_nonneg y.2 r

/-- Subtracting a machine's demand is as good as estimating the host without the machine. -/
theorem Lawful.utilization_monus (he : e.Lawful) {h : Host α} {v : VmId} {vm : Vm α}
    (hv : h.vms.get? v = some vm) :
    (e.utilization h).monus (e.demand vm) = e.utilization (h.unassign v) := by
  rw [← he.utilization_unassign hv, Resources.add_monus_cancel (he.utilization_nonneg _)]

/-- Subtracting the demands of several machines, one after the other. -/
theorem Lawful.foldl_monus (he : e.Lawful) {h : Host α} {gone : List (VmId × Vm α)}
    (hgone : ∀ x ∈ gone, h.vms.get? x.1 = some x.2) (hkeys : (gone.map Prod.fst).Nodup) :
    gone.foldl (fun u x => u.monus (e.demand x.2)) (e.utilization h) =
      e.utilization (h.without (gone.map Prod.fst)) := by
  induction gone generalizing h with
  | nil => rfl
  | cons x rest ih =>
    rw [List.map_cons, List.nodup_cons] at hkeys
    rw [List.foldl_cons, he.utilization_monus (hgone x List.mem_cons_self)]
    refine ih (fun y hy => ?_) hkeys.2
    have hne : y.1 ≠ x.1 := fun heq => hkeys.1 (heq ▸ List.mem_map_of_mem hy)
    rw [Host.unassign, SortedMap.get?_erase, if_neg hne]
    exact hgone y (List.mem_cons_of_mem x hy)

end Estimator

end ClusterControl
