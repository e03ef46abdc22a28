import ClusterControl.Proofs.Planning.Consolidation
import ClusterControl.Proofs.Program.Requests
import ClusterControl.Proofs.Store.Traffic

/-!
# What workflows deliver

Outside the gate no job brings a machine to a host.  Behind the gate a workflow brings machines
where its plan sends them, and nowhere else.

* `Casual.sheds` is about the requests that jobs make without holding the gate.
* `Records.delivers` and `Commits.delivers` are about those that carry out a plan.
* `Contract.supports_of_delivers` says how a contract comes to support a plan.
-/

namespace ClusterControl

variable {α : Type}

/-! ## Requests outside the gate -/

/-- A change of power leaves every machine where it is. -/
theorem Store.Consistent.sheds_transition {s : Store α} (hs : s.Consistent) (host : HostId)
    (expected next : HostStatus) : (s.transition host expected next).2.Consistent ∧
      s.Sheds (s.transition host expected next).2 :=
  ⟨hs.refresh (refreshes_transition s host expected next),
    (refreshes_transition s host expected next).sheds⟩

/-- What jobs ask without holding the gate takes machines off hosts at most. -/
theorem Casual.sheds {j : Job α} {q : StoreRequest α} (hq : Casual j q) {s : Store α}
    (hs : s.Consistent) : (q.apply s).2.Consistent ∧ s.Sheds (q.apply s).2 := by
  cases hq with
  | listHosts | findHost | findVm => exact ⟨hs, .refl s⟩
  | setVmStatus vm status code =>
    have hrefreshed := Store.refreshes_setVmStatus s vm status code
    exact ⟨hs.refresh hrefreshed, hrefreshed.sheds⟩
  | removeVm vm => exact ⟨hs.removeVm vm, hs.sheds_removeVm vm⟩
  | addHostSample host sample =>
    have hrefreshed := Store.refreshes_addHostSample s host sample
    exact ⟨hs.refresh hrefreshed, hrefreshed.sheds⟩
  | addVmSample vm sample =>
    have hrefreshed := Store.refreshes_addVmSample s vm sample
    exact ⟨hs.refresh hrefreshed, hrefreshed.sheds⟩
  | activate host | claim host | giveUp _ host => exact hs.sheds_transition host ..

/-! ## Requests that carry out a plan -/

/-- The machines that a placement has not started stay without a host, the others go where the
placement assigns them. -/
theorem Records.delivers {plan : PlacementPlan α} {q : StoreRequest α} (hq : Records plan q)
    {expected : VmId → HostId → Prop} {fresh : VmId → Resources α → Prop}
    (hassigned : ∀ a ∈ plan.assignments, expected a.vm.id a.host ∧ fresh a.vm.id a.vm.requested) :
    q.Delivers expected fresh := by
  cases hq with
  | @start a ha => exact .place (d := a.host) rfl (hassigned a ha).1 (hassigned a ha).2
  | failure vm code => exact .shelve rfl

theorem Commits.delivers {moves : List Migration} {q : StoreRequest α} (hq : Commits moves q)
    {expected : VmId → HostId → Prop} {fresh : VmId → Resources α → Prop}
    (hmoves : ∀ m ∈ moves, expected m.vm m.destination) : q.Delivers expected fresh := by
  cases hq with
  | move hm => exact .move (hmoves _ hm)
  | mark vm status code => exact .mark vm status code

/-- A contract supports requests that bring machines where they are expected, if what the plan has
taken for granted outlasts that. -/
theorem Contract.supports_of_delivers {C : Contract α} {s : Store α} {W : StoreRequest α → Prop}
    {expected : VmId → HostId → Prop} {fresh : VmId → Resources α → Prop} (stays : Store α → Prop)
    (hs : stays s) (hW : ∀ {q}, W q → q.Delivers expected fresh)
    (hconsistent : ∀ {t}, C.good t → t.Consistent)
    (hrely : ∀ {t u}, stays t → C.good u → C.rely t u → stays u)
    (hstep : ∀ {t u}, C.good t → stays t → t.Delivered expected fresh u → C.good u ∧ stays u) :
    C.Supports s W :=
  ⟨stays, hs, hrely, fun hq ht hstays => hstep ht hstays ((hW hq).delivered (hconsistent ht))⟩

/-! ## Listings that plans are made from -/

theorem Store.Consistent.filed_hostList {s : Store α} (hs : s.Consistent) (n : Nat)
    (excludePassive monitoring : Bool) :
    Consolidation.Filed (s.hostList n excludePassive monitoring) := by
  intro h hh v w hw
  obtain ⟨w', hw', heq⟩ := (hs.shows_of_mem_hostList hh).1.record hw
  rw [← (hs.on_host hw').1]
  exact congrArg Prod.fst heq

theorem Store.Consistent.apart_hostList {s : Store α} (hs : s.Consistent) (n : Nat)
    (excludePassive monitoring : Bool) :
    Consolidation.Apart (fun _ => True) (s.hostList n excludePassive monitoring) := by
  have hids := List.pairwise_map.1 (hs.nodup_hostList n excludePassive monitoring)
  refine List.Pairwise.imp_of_mem (fun hh hk hid => ⟨hid, fun _ _ v => ?_⟩) hids
  exact Store.Shows.apart hs (hs.shows_of_mem_hostList hh).1 (hs.shows_of_mem_hostList hk).1 hid v

/-- A machine that was on no host is on none after others have left. -/
theorem Contract.Unplaced.recordOn_eq_none {C : Contract α} {v : VmId} {s : Store α}
    (h : C.Unplaced v s) (hlax : ¬C.lax) (hgood : ∀ {t}, C.good t → t.Consistent)
    (hrely : ∀ {t}, C.rely t s → t.Sheds s) (id : HostId) : s.recordOn id v = none := by
  obtain ⟨t, ht, hts, hv⟩ := h.resolve_left hlax
  by_contra hne
  obtain ⟨w, hw⟩ := Option.ne_none_iff_exists'.1 hne
  obtain ⟨w₀, hw₀, -⟩ := (hrely hts).records hw
  have hnone := hv w₀ ((hgood ht).vm?_of_recordOn hw₀)
  rw [((hgood ht).on_host hw₀).2] at hnone
  exact absurd hnone (by simp)

end ClusterControl
