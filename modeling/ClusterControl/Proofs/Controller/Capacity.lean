import ClusterControl.Proofs.Controller.Guarded
import ClusterControl.Proofs.Planning.Room
import ClusterControl.Proofs.Program.Deliveries
import Mathlib.Algebra.Order.Ring.Rat

/-!
# Hosts are never given too much

No operation of the store looks at capacity: a host would take whatever it is sent.  That its
machines fit on it all the same rests on the planners, which only send a machine to a copy that can
take it, and on the gate, which keeps others from sending machines there in the meantime.

* `Contract.capacity` is what the tasks of a controller owe each other for this.
* `Controller.capacity_kept` says that the machines of every host fit on it, in every state that any
  moves lead to.
-/

namespace ClusterControl

variable {α : Type} [Quantity α] [AddCommMonoid α] [LinearOrder α]

/-- Everything fits, and while a task holds the gate the others take machines off hosts at most. -/
def Contract.capacity (α : Type) [Quantity α] [AddCommMonoid α] [LinearOrder α] : Contract α where
  good := Store.Fits
  rely := Store.Sheds
  admits _ _ _ _ := True
  accepts vms := ∀ vm ∈ vms, vm.requested.Nonneg
  wakes _ := Store.Sheds
  gated := True
  lax := False
  refl := Store.Sheds.refl
  trans := Store.Sheds.trans
  good_of_lax := by simp
  rely_of_lax := by simp
  wakes_nil := Store.Sheds.refl

namespace Contract

variable [Quantity.Exact α] [IsOrderedAddMonoid α]

/-- The contract supports bringing machines where a plan sends them. -/
theorem capacity_supports {s : Store α} {hosts copies : List (Host α)}
    {demand : VmId → Resources α} (hplanned : Planned hosts (Host.Roomy demand) copies)
    (hs : s.Expects demand copies) {W : StoreRequest α → Prop}
    (hW : ∀ {q}, W q → q.Delivers (Receives copies) fun v r => r = demand v ∧ r.Nonneg) :
    (capacity α).Supports s W :=
  supports_of_delivers _ hs hW Store.Fits.consistent (fun ht _ htu => ht.sheds htu)
    fun ht hexpects htu => hexpects.delivered ht hplanned htu

/-- A transition of a host's power keeps the contract. -/
theorem capacity_transition {s : Store α} (hs : s.Fits) (host : HostId)
    (expected next : HostStatus) : (s.transition host expected next).2.Fits ∧
      s.Sheds (s.transition host expected next).2 := by
  obtain ⟨hconsistent, hsheds⟩ := hs.consistent.sheds_transition host expected next
  exact ⟨hs.sheds hconsistent hsheds, hsheds⟩

variable {c : Settings α}

/-- A batch goes to hosts that have room for it. -/
theorem capacity_place {s : Store α} (hs : s.Fits) {batch chosen : List (Vm α)}
    (haccepted : ∀ vm ∈ batch, vm.requested.Nonneg)
    (hfrom : ∀ vm ∈ chosen, vm ∈ batch.map Submission.fresh) (hnodup : (chosen.map Vm.id).Nodup)
    (hfree : ∀ vm ∈ chosen, (capacity α).Unplaced vm.id s) (cursor : Nat) :
    (capacity α).Supports s (Records (Placement.place c.placementPolicy cursor chosen
      (s.hostList c.estimator.window true false)).plan) := by
  obtain ⟨demand, hdemand, hchosen⟩ := hs.consistent.exists_demand hnodup fun vm hvm =>
    (hfree vm hvm).recordOn_eq_none id Store.Fits.consistent id
  have hnonneg : ∀ vm ∈ chosen, vm.requested.Nonneg := by
    intro vm hvm
    obtain ⟨w, hw, rfl⟩ := List.mem_map.1 (hfrom vm hvm)
    exact haccepted w hw
  have hshows : ∀ h ∈ s.hostList c.estimator.window true false, s.Shows h :=
    fun h hh => (hs.consistent.shows_of_mem_hostList hh).1
  have hsound := Placement.sound_place c.placementPolicy cursor
    (hs.consistent.nodup_hostList c.estimator.window true false)
    (fun h hh => hs.roomy hdemand (hshows h hh))
    fun h vm hvm hroomy htake => hroomy.assign (hchosen vm hvm) (hnonneg vm hvm) htake
  refine capacity_supports hsound.planned (Store.expects_of_planned hshows hdemand hsound.planned)
    fun hq => hq.delivers fun a ha => ?_
  obtain ⟨⟨vm, hvm, heq⟩, hreceived⟩ := hsound.assigned a ha
  refine ⟨hreceived, ?_⟩
  rw [heq]
  exact ⟨hchosen vm hvm, hnonneg vm hvm⟩

/-- A machine goes to a host that has room for it. -/
theorem capacity_migrate {s t : Store α} {vm : VmId} {found : Vm α} {source d : HostId}
    {target : Host α} (hs : s.Fits) (hvm : s.vm? vm = some found)
    (hsource : found.hostId = some source) (ht : t.Fits) (hst : s.Sheds t)
    (htarget : t.host? d 0 = some target) (haccepts : Control.accepts target source found = true) :
    (capacity α).Supports t (Commits [⟨vm, some source, d⟩]) := by
  obtain ⟨demand, hdemand, hdemand'⟩ := hst.exists_demand hs.consistent
  obtain ⟨rfl, hrecord⟩ := hs.consistent.recordOn_of_vm? hvm hsource
  obtain ⟨rfl, hshows⟩ := ht.consistent.shows_of_host? htarget
  have hroomy : target.Roomy demand := ht.roomy hdemand' hshows
  have hstart : Planned [target] (Host.Roomy demand) [target] :=
    .start (List.nodup_singleton _) (by simpa using hroomy)
  have hplanned : Planned [target] (Host.Roomy demand) [target.assign found] :=
    hstart.assign (i := 0) rfl
      (hroomy.assign (hdemand hrecord) (hs.nonneg hrecord) (Bool.and_eq_true_iff.1 haccepts).2)
  have hreceived : Receives [target.assign found] found.id target.id :=
    ⟨_, List.mem_singleton.2 rfl, rfl, (target.has_assign found found.id).2 (.inl rfl)⟩
  refine capacity_supports hplanned
    (Store.expects_of_planned (by simpa using hshows) hdemand' hplanned) fun hq => hq.delivers ?_
  rintro m hm
  rwa [List.mem_singleton.1 hm]

/-- A source is relieved of machines for which there is room elsewhere. -/
theorem capacity_relocate {s t u : Store α} {host : HostId} {p : RelocationPolicy}
    {source : Host α} {destinations : List (Host α)} (hs : s.Fits)
    (hsource : s.host? host c.estimator.window = some source) (ht : t.Fits) (hst : s.Sheds t)
    (hshows : ∀ h ∈ destinations, t.Shows h) (hids : (destinations.map Host.id).Nodup)
    (htu : t.Sheds u) : (capacity α).Supports u
      (Commits (Relocation.relocate c.ranking p source destinations).1.moves) := by
  obtain ⟨demand, hdemand, hdemand'⟩ := hst.exists_demand hs.consistent
  have hgiven := hs.roomy hdemand (hs.consistent.shows_of_host? hsource).2
  have htaken : ∀ h vm, vm ∈ source.vms.values → Host.Roomy demand h → h.canTake vm = true →
      (h.assign vm).Roomy demand := by
    intro h vm hvm hroomy htake
    obtain ⟨v, hv⟩ := SortedMap.mem_values_iff.1 hvm
    obtain ⟨rfl, hasked, hnonneg⟩ := hgiven.filed hv
    exact hroomy.assign hasked hnonneg htake
  obtain ⟨copies, hplanned, harrives⟩ := Relocation.planned_relocate c.ranking p hids
    (fun h hh => ht.roomy hdemand' (hshows h hh)) htaken
  exact capacity_supports hplanned
    ((Store.expects_of_planned hshows hdemand' hplanned).sheds htu)
    fun hq => hq.delivers fun m hm => harrives.mem_moves hm

/-- Hosts are emptied onto others that have room. -/
theorem capacity_consolidate {s : Store α} (hs : s.Fits) : (capacity α).Supports s (Commits
    (Consolidation.consolidate c.ranking (s.hostList c.estimator.window true true)).moves) := by
  obtain ⟨demand, hdemand, -⟩ := (Store.Sheds.refl s).exists_demand hs.consistent
  have hshows : ∀ h ∈ s.hostList c.estimator.window true true, s.Shows h :=
    fun h hh => (hs.consistent.shows_of_mem_hostList hh).1
  have htaken : ∀ h k vm, vm ∈ k.vms.values → Host.Roomy demand k → Host.Roomy demand h →
      h.canTake vm = true → (h.assign vm).Roomy demand := by
    intro h k vm hvm hk hroomy htake
    obtain ⟨v, hv⟩ := SortedMap.mem_values_iff.1 hvm
    obtain ⟨rfl, hasked, hnonneg⟩ := hk.filed hv
    exact hroomy.assign hasked hnonneg htake
  obtain ⟨copies, hplanned, harrives⟩ := Consolidation.planned_consolidate c.ranking
    (hs.consistent.filed_hostList c.estimator.window true true)
    (hs.consistent.apart_hostList c.estimator.window true true)
    (fun h hh _ => hs.roomy hdemand (hshows h hh)) htaken
  have hawake : ∀ h ∈ (s.hostList c.estimator.window true true).filter fun h => !h.isPassive,
      s.Shows h := fun h hh => hshows h (List.mem_of_mem_filter hh)
  exact capacity_supports hplanned (Store.expects_of_planned hawake hdemand hplanned)
    fun hq => hq.delivers fun m hm => harrives.mem_moves hm

/-- The contract supports everything that workflows do. -/
theorem capacity_serves (c : Settings α) : (capacity α).Serves c where
  casual hq hs _ := by
    obtain ⟨hconsistent, hsheds⟩ := hq.sheds hs.consistent
    exact ⟨hs.sheds hconsistent hsheds, fun _ => hsheds⟩
  wake hosts := by
    refine (meets_wakeAll_of_rely _ hosts fun hs => capacity_transition hs _ _ _).mono ?_
    rintro g failed ⟨s, hg, hsheds⟩
    exact ⟨s, hg, fun _ => hsheds⟩
  powerDown reserved hs := by
    refine ⟨fun _ => True, trivial, fun _ _ _ => trivial, fun hq ht _ => ⟨?_, trivial⟩⟩
    cases hq with
    | down | undo => exact (capacity_transition ht ..).1
  place cursor hs haccepted hfrom hnodup hfree :=
    capacity_place hs haccepted hfrom hnodup hfree cursor
  migrate hs hvm hsource ht hst htarget haccepts :=
    capacity_migrate hs hvm hsource ht hst htarget haccepts
  relocate hs hsource ht hst hdestinations htu := by
    subst hdestinations
    refine capacity_relocate hs hsource ht hst (fun h hh => ?_) ?_ htu
    · exact (ht.consistent.shows_of_mem_hostList (List.mem_of_mem_filter hh)).1
    · exact (ht.consistent.nodup_hostList ..).sublist (List.filter_sublist.map _)
  consolidate hs := capacity_consolidate hs

end Contract

/-! ## Every state that can be reached -/

/-- Only tasks use the store, the store keeps its backend, and no machine that is submitted asks for
less than nothing: amounts that come in are clamped when they are read. -/
def Move.Honest : Move α → Prop
  | .submit _ vms => ∀ vm ∈ vms, vm.requested.Nonneg
  | .fault _ _ => False
  | .amend _ => False
  | _ => True

theorem Move.Honest.permits {s : Controller α} {m : Move α} (hm : m.Honest) :
    Controller.Permits (Contract.capacity α) s m := by
  cases m with
  | run t => exact fun _ _ => trivial
  | _ => exact hm

namespace Controller

variable [Quantity.Exact α] [IsOrderedAddMonoid α]

/-- If the machines of every host fit on it at first, they do in every state that honest moves lead
to: whatever workflows run, whatever hosts and signals answer, whatever else goes on in between, and
also while a plan is carried out in part. -/
theorem capacity_kept (c : Settings α) {s₀ : Store α} (hconsistent : s₀.Consistent)
    (hnonneg : ∀ id v w, s₀.recordOn id v = some w → w.requested.Nonneg)
    (hfits : ∀ id h, s₀.hosts.get? id = some h → h.requested.fitsWithin h.capacity = true)
    {s : Controller α} (hs : Runs (fun _ m => m.Honest) (start c s₀) s) :
    ∀ id h, s.store.hosts.get? id = some h → h.requested.fitsWithin h.capacity = true := by
  have hstart : s₀.Fits := ⟨hconsistent, fun hw => hnonneg _ _ _ hw, fun hh => hfits _ _ hh⟩
  obtain ⟨o, hguarded⟩ := Guarded.run (Contract.capacity_serves c) trivial (guarded_start hstart)
    (fun hm => hm.permits) hs
  exact fun id h hget => hguarded.good.fits hget

/-- A host with a machine that takes up half of it. -/
def halfUsed : Host ℚ :=
  { id := "h1", address := "", status := .active, capacity := ⟨4, 4, 4, 4⟩
    vms := SortedMap.empty.insert "v1" { Vm.new "v1" ⟨2, 2, 2, 2⟩ 1 with hostId := some "h1" }
    history := .empty 1, thresholds := .standard }

/-- A machine that asks for the other half is submitted and started. -/
def fillUp : List (Move ℚ) :=
  [.submit "task" [Vm.new "v2" ⟨2, 2, 2, 2⟩ 1], .run 0, .run 0, .run 0, .run 0,
    .answer 0 (.started (.ok ["v2"])), .run 0]

theorem capacity_kept_of_fillUp : ∃ s,
    (start .standard (Store.empty.addHost halfUsed)).replay fillUp = some s ∧
      (s.store.hosts.get? "h1").map Host.requested = some ⟨4, 4, 4, 4⟩ ∧
        ∀ id h, s.store.hosts.get? id = some h → h.requested.fitsWithin h.capacity = true := by
  have hfull : (((start .standard (Store.empty.addHost halfUsed)).replay fillUp).bind fun s =>
      (s.store.hosts.get? "h1").map Host.requested) = some ⟨4, 4, 4, 4⟩ := by decide +kernel
  have hvms : ∀ {v w}, halfUsed.vms.get? v = some w →
      v = "v1" ∧ w = { Vm.new "v1" ⟨2, 2, 2, 2⟩ 1 with hostId := some "h1" } := by
    intro v w hw
    rw [halfUsed, SortedMap.get?_insert] at hw
    split at hw
    · rename_i hv
      exact ⟨hv, (Option.some.inj hw).symm⟩
    · exact absurd hw (by simp)
  have hadmits : (Store.empty : Store ℚ).Admits halfUsed := by
    refine ⟨fun hw => ?_, fun _ => rfl, fun _ _ => rfl⟩
    obtain ⟨rfl, rfl⟩ := hvms hw
    exact ⟨rfl, rfl⟩
  obtain ⟨s, hs, hrequested⟩ := Option.bind_eq_some_iff.1 hfull
  refine ⟨s, hs, hrequested, capacity_kept .standard (Store.consistent_empty.addHost hadmits)
    (fun id v w hw => ?_) (fun id h hh => ?_) (runs_replay (fun _ m hm => ?_) hs)⟩
  · rw [Store.recordOn_addHost] at hw
    split at hw
    · obtain ⟨-, rfl⟩ := hvms hw
      exact fun r => by cases r <;> decide +kernel
    · cases hw
  · rw [Store.hosts_addHost] at hh
    split at hh
    · rw [← Option.some.inj hh]
      decide +kernel
    · cases hh
  · simp only [fillUp, List.mem_cons, List.not_mem_nil, or_false] at hm
    rcases hm with rfl | rfl | rfl | rfl | rfl | rfl | rfl
    · intro vm hvm
      rw [List.mem_singleton.1 hvm]
      exact fun r => by cases r <;> decide +kernel
    all_goals exact trivial

end Controller

end ClusterControl
