import Mathlib.Data.List.InsertIdx
import ClusterControl.Planning.Consolidation
import ClusterControl.Planning.Relocation
import ClusterControl.Proofs.Demand.Trimming
import ClusterControl.Workflow.Submission

/-!
# Plans over views of the cluster

A view describes every host and every machine anew, and keeps what planners look at.  It does not
matter to a planner whether it is given the hosts or a view of them.

* `Placement.choices_view` says so of placements, under any view.
* `Relocation.relocate_view` and `Consolidation.consolidate_view` say so of migration plans, under
  views that are faithful to the ranking.
* `View.outlined` forgets everything but ids and room; `View.trimmed` cuts histories.
-/

namespace ClusterControl

variable {α : Type}

/-- Sorting by a key that a change of the elements keeps commutes with the change. -/
theorem map_snd_mergeSort_map {β γ : Type} {key : β → γ} {f : β → β} (hkey : ∀ b, key (f b) = key b)
    {r : γ × β → γ × β → Bool} (hr : ∀ x y, r (x.1, f x.2) (y.1, f y.2) = r x y) (l : List β) :
    (((l.map f).map fun b => (key b, b)).mergeSort r).map Prod.snd =
      (((l.map fun b => (key b, b)).mergeSort r).map Prod.snd).map f := by
  have hkeyed : ((l.map f).map fun b => (key b, b)) =
      (l.map fun b => (key b, b)).map fun x => (x.1, f x.2) := by
    rw [List.map_map, List.map_map]
    exact List.map_congr_left fun b _ => by simp only [Function.comp_apply, hkey]
  rw [hkeyed, ← List.map_mergeSort fun x _ y _ => (hr x y).symm, List.map_map, List.map_map]
  rfl

theorem modify_map {β : Type} {f g h : β → β} (hcomm : ∀ b, g (f b) = f (h b)) (l : List β)
    (i : Nat) : (l.map f).modify i g = (l.modify i h).map f := by
  induction l generalizing i with
  | nil => simp
  | cons b rest ih =>
    cases i with
    | zero => simp [hcomm]
    | succ i => simp [ih]

variable [Quantity α]

/-- Another description of every host and every machine, with the same ids and the same room. -/
structure View (α : Type) [Quantity α] where
  host : Host α → Host α
  vm : Vm α → Vm α
  id_host : ∀ h, (host h).id = h.id
  id_vm : ∀ v, (vm v).id = v.id
  canTake : ∀ h v, (host h).canTake (vm v) = h.canTake v
  assign : ∀ h v, host (h.assign v) = (host h).assign (vm v)

/-! ## Placements -/

/-- Where each assigned machine goes, and which ones are left. -/
def PlacementPlan.choices {α : Type} (p : PlacementPlan α) : List (VmId × HostId) × List VmId :=
  (p.assignments.map fun a => (a.vm.id, a.host), p.unassigned.map Vm.id)

namespace Placement

/-- A placement over the view has come as far. -/
structure Mirrors (d : View α) (s t : Progress α) : Prop where
  choices : t.plan.choices = s.plan.choices
  hosts : t.hosts = s.hosts.map d.host
  position : t.position = s.position

variable {d : View α} {s t : Progress α}

theorem Mirrors.settle (h : Mirrors d s t) (vm : Vm α) (choice : Option Nat) :
    Mirrors d (settle s vm choice) (settle t (d.vm vm) choice) := by
  obtain ⟨hassigned, hleft⟩ := Prod.mk.inj h.choices
  have hfound : (choice.bind fun i => (t.hosts[i]?).map (i, ·)) =
      (choice.bind fun i => (s.hosts[i]?).map (i, ·)).map fun x => (x.1, d.host x.2) := by
    cases choice with
    | none => rfl
    | some i =>
      simp only [Option.bind_some, h.hosts, List.getElem?_map, Option.map_map]
      rfl
  unfold Placement.settle
  rw [hfound]
  cases choice.bind fun i => (s.hosts[i]?).map (i, ·) with
  | none =>
    refine ⟨?_, h.hosts, h.position⟩
    simp only [Option.map_none, PlacementPlan.leave, PlacementPlan.choices, List.map_append,
      List.map_cons, List.map_nil, d.id_vm, hassigned, hleft]
  | some found =>
    obtain ⟨i, k⟩ := found
    refine ⟨?_, ?_, h.position⟩
    · simp only [Option.map_some, PlacementPlan.assign, PlacementPlan.choices, List.map_append,
        List.map_cons, List.map_nil, Vm.on, d.id_vm, d.id_host, hassigned, hleft]
    · simp only [Option.map_some, h.hosts, List.map_set, d.assign]

theorem Mirrors.firstFitting (h : Mirrors d s t) (vm : Vm α) :
    firstFitting (d.vm vm) t.hosts = firstFitting vm s.hosts := by
  unfold Placement.firstFitting
  rw [h.hosts, List.findIdx?_map]
  exact congrArg (s.hosts.findIdx? ·) (funext fun k => d.canTake k vm)

theorem Mirrors.nextFitting (h : Mirrors d s t) (vm : Vm α) :
    nextFitting (d.vm vm) t.hosts t.position = nextFitting vm s.hosts s.position := by
  unfold Placement.nextFitting
  rw [h.hosts, h.position, List.length_map]
  refine congrArg ((cycleFrom s.position s.hosts.length).find? ·) (funext fun i => ?_)
  rw [List.getElem?_map]
  cases s.hosts[i]? with
  | none => rfl
  | some k => exact d.canTake k vm

theorem Mirrors.firstFitStep (h : Mirrors d s t) (vm : Vm α) :
    Mirrors d (firstFitStep s vm) (firstFitStep t (d.vm vm)) := by
  unfold Placement.firstFitStep
  rw [h.firstFitting]
  exact h.settle vm _

theorem Mirrors.roundRobinStep (h : Mirrors d s t) (vm : Vm α) :
    Mirrors d (roundRobinStep s vm) (roundRobinStep t (d.vm vm)) := by
  unfold Placement.roundRobinStep
  rw [h.nextFitting]
  cases Placement.nextFitting vm s.hosts s.position with
  | none => exact h.settle vm none
  | some i =>
    have hsettled := h.settle vm (some i)
    refine ⟨hsettled.choices, hsettled.hosts, ?_⟩
    simp only [h.hosts, List.length_map]

theorem Mirrors.foldl (h : Mirrors d s t) {f : Progress α → Vm α → Progress α}
    (hf : ∀ {s t}, Mirrors d s t → ∀ vm, Mirrors d (f s vm) (f t (d.vm vm))) (vms : List (Vm α)) :
    Mirrors d (vms.foldl f s) ((vms.map d.vm).foldl f t) := by
  induction vms generalizing s t with
  | nil => exact h
  | cons vm rest ih => exact ih (hf h vm)

/-- A placement over a view chooses the same hosts. -/
theorem choices_view (d : View α) (p : PlacementPolicy) (cursor : Nat) (vms : List (Vm α))
    (hosts : List (Host α)) :
    (place p cursor (vms.map d.vm) (hosts.map d.host)).plan.choices =
      (place p cursor vms hosts).plan.choices := by
  cases p with
  | firstFit =>
    have hstart : Mirrors d ⟨.empty, hosts, cursor⟩ ⟨.empty, hosts.map d.host, cursor⟩ :=
      ⟨rfl, rfl, rfl⟩
    exact (hstart.foldl Mirrors.firstFitStep vms).choices
  | roundRobin =>
    simp only [place, List.isEmpty_map, List.length_map]
    split
    · simp only [PlacementPlan.choices, List.map_map, List.map_nil]
      exact congrArg _ (List.map_congr_left fun v _ => d.id_vm v)
    · have hstart : Mirrors d ⟨.empty, hosts, cursor % hosts.length⟩
          ⟨.empty, hosts.map d.host, cursor % hosts.length⟩ := ⟨rfl, rfl, rfl⟩
      exact (hstart.foldl Mirrors.roundRobinStep vms).choices

end Placement

/-! ## Rankings -/

/-- The view keeps what the ranking and the planners of migrations look at. -/
structure View.Faithful (d : View α) (k : Ranking α) : Prop where
  status : ∀ h, (d.host h).status = h.status
  capacity : ∀ h, (d.host h).capacity = h.capacity
  thresholds : ∀ h, (d.host h).thresholds = h.thresholds
  vms : ∀ h, (d.host h).vms = h.vms.mapValues fun _ v => d.vm v
  unassign : ∀ h v, d.host (h.unassign v) = (d.host h).unassign v
  demand : ∀ v, k.estimator.demand (d.vm v) = k.estimator.demand v
  utilization : ∀ h, k.estimator.utilization (d.host h) = k.estimator.utilization h

namespace View.Faithful

variable {d : View α} {k : Ranking α}

theorem isPassive (hd : d.Faithful k) (h : Host α) : (d.host h).isPassive = h.isPassive := by
  rw [Host.isPassive, hd.status, Host.isPassive]

theorem hasVms (hd : d.Faithful k) (h : Host α) : (d.host h).hasVms = h.hasVms := by
  rw [Host.hasVms, hd.vms, Host.hasVms, SortedMap.isEmpty, SortedMap.mapValues, List.isEmpty_map,
    SortedMap.isEmpty]

theorem size_vms (hd : d.Faithful k) (h : Host α) : (d.host h).vms.size = h.vms.size := by
  rw [hd.vms, SortedMap.size, SortedMap.mapValues, List.length_map, SortedMap.size]

theorem sortVms (hd : d.Faithful k) (o : SortOrder) (vms : List (Vm α)) :
    k.sortVms o (vms.map d.vm) = (k.sortVms o vms).map d.vm := by
  refine map_snd_mergeSort_map (fun vm => ?_) (fun _ _ => rfl) vms
  rw [Ranking.vmLoad, hd.demand, Ranking.vmLoad]

theorem sortHosts (hd : d.Faithful k) (o : SortOrder) (hosts : List (Host α)) :
    k.sortHosts o (hosts.map d.host) = (k.sortHosts o hosts).map d.host := by
  refine map_snd_mergeSort_map (fun h => ?_) (fun x y => ?_) hosts
  · rw [Ranking.hostLoad, hd.utilization, Ranking.hostLoad]
  · simp only [hd.status]

/-- The machines of a host, in the order in which planners take them. -/
theorem sortVms_values (hd : d.Faithful k) (h : Host α) :
    k.sortVms .decreasing (d.host h).vms.values =
      (k.sortVms .decreasing h.vms.values).map d.vm := by
  rw [hd.vms, SortedMap.values_mapValues, hd.sortVms]

end View.Faithful

/-! ## Relocations -/

namespace Relocation

variable {d : View α} {k : Ranking α}

theorem takeUntilRelieved_view (hd : d.Faithful k) (capacity upper remaining : Resources α)
    (vms : List (Vm α)) : takeUntilRelieved k.estimator capacity upper remaining (vms.map d.vm) =
      (takeUntilRelieved k.estimator capacity upper remaining vms).map d.vm := by
  induction vms generalizing remaining with
  | nil => rfl
  | cons vm rest ih =>
    rw [List.map_cons, takeUntilRelieved, takeUntilRelieved, hd.demand, ih]
    split <;> rfl

theorem candidates_view (hd : d.Faithful k) (p : RelocationPolicy) (source : Host α) :
    candidates k p (d.host source) = (candidates k p source).map d.vm := by
  cases p with
  | underload => exact hd.sortVms_values source
  | overload q =>
    cases q with
    | single =>
      show (k.sortVms .decreasing (d.host source).vms.values).take 1 = _
      rw [hd.sortVms_values, ← List.map_take]
      rfl
    | greedy =>
      show takeUntilRelieved k.estimator (d.host source).capacity (d.host source).thresholds.upper
        (k.estimator.utilization (d.host source))
        (k.sortVms .decreasing (d.host source).vms.values) = _
      rw [hd.sortVms_values, hd.capacity, hd.thresholds, hd.utilization, takeUntilRelieved_view hd]
      rfl

theorem assignStep_view (hd : d.Faithful k) (p : RelocationPolicy) (source : Host α)
    (s : MigrationPlan × List (Host α)) (vm : Vm α) :
    assignStep p (d.host source) (s.1, s.2.map d.host) (d.vm vm) =
      ((assignStep p source s vm).1, (assignStep p source s vm).2.map d.host) := by
  have htarget : ((s.2.map d.host).findIdx? fun h =>
      eligible p (d.host source) h && h.canTake (d.vm vm)) =
        s.2.findIdx? fun h => eligible p source h && h.canTake vm := by
    rw [List.findIdx?_map]
    refine congrArg (s.2.findIdx? ·) (funext fun h => ?_)
    simp only [Function.comp_apply, eligible, d.id_host, hd.isPassive, d.canTake]
  unfold assignStep
  simp only [htarget]
  cases s.2.findIdx? fun h => eligible p source h && h.canTake vm with
  | none => rfl
  | some i =>
    simp only [Option.bind_some, List.getElem?_map]
    cases s.2[i]? with
    | none => rfl
    | some h => simp only [Option.map_some, d.id_vm, d.id_host, List.map_set, d.assign]

theorem assignAll_view (hd : d.Faithful k) (p : RelocationPolicy) (source : Host α)
    (vms : List (Vm α)) (destinations : List (Host α)) :
    assignAll k p (d.host source) (vms.map d.vm) (destinations.map d.host) =
      ((assignAll k p source vms destinations).1,
        (assignAll k p source vms destinations).2.map d.host) := by
  have hfold : ∀ (l : List (Vm α)) (s : MigrationPlan × List (Host α)),
      (l.map d.vm).foldl (assignStep p (d.host source)) (s.1, s.2.map d.host) =
        ((l.foldl (assignStep p source) s).1, (l.foldl (assignStep p source) s).2.map d.host) := by
    intro l
    induction l with
    | nil => exact fun s => rfl
    | cons vm rest ih =>
      intro s
      rw [List.map_cons, List.foldl_cons, List.foldl_cons, assignStep_view hd]
      exact ih (assignStep p source s vm)
  unfold assignAll
  rw [List.isEmpty_map, List.isEmpty_map, hd.sortHosts]
  split
  · rfl
  · simp only [hfold vms (.empty, k.sortHosts (destinationOrder p) destinations)]

/-- The plan that relieves a host is the same over a faithful view. -/
theorem relocate_view (hd : d.Faithful k) (p : RelocationPolicy) (source : Host α)
    (destinations : List (Host α)) :
    (relocate k p (d.host source) (destinations.map d.host)).1 =
      (relocate k p source destinations).1 := by
  unfold relocate
  rw [candidates_view hd, assignAll_view hd]
  cases p with
  | overload q => rfl
  | underload =>
    simp only [hd.size_vms]
    split <;> rfl

end Relocation

/-! ## Consolidations -/

namespace Consolidation

variable {d : View α} {k : Ranking α}

theorem lastIdx?_view {p q : Host α → Bool} (hpq : ∀ h, p (d.host h) = q h)
    (hosts : List (Host α)) : lastIdx? p (hosts.map d.host) = lastIdx? q hosts := by
  unfold lastIdx?
  rw [← List.map_reverse, List.findIdx?_map, List.length_map]
  exact congrArg (fun f => (hosts.reverse.findIdx? f).map _) (funext hpq)

theorem rehome_view (d : View α) (source : HostId) (hosts : List (Host α)) (vms : List (Vm α)) :
    rehome source (hosts.map d.host) (vms.map d.vm) =
      ((rehome source hosts vms).1.map d.host, (rehome source hosts vms).2) := by
  induction vms generalizing hosts with
  | nil => rfl
  | cons vm rest ih =>
    have htarget : ((hosts.map d.host).findIdx? fun h => h.id != source && h.canTake (d.vm vm)) =
        hosts.findIdx? fun h => h.id != source && h.canTake vm := by
      rw [List.findIdx?_map]
      refine congrArg (hosts.findIdx? ·) (funext fun h => ?_)
      simp only [Function.comp_apply, d.id_host, d.canTake]
    rw [List.map_cons, rehome, rehome]
    simp only [htarget]
    cases hosts.findIdx? fun h => h.id != source && h.canTake vm with
    | none => rfl
    | some i =>
      simp only [Option.bind_some, List.getElem?_map]
      cases hosts[i]? with
      | none => rfl
      | some h =>
        have hset : (hosts.map d.host).set i ((d.host h).assign (d.vm vm)) =
            (hosts.set i (h.assign vm)).map d.host := by
          rw [List.map_set, d.assign]
        simp only [Option.map_some, hset, ih, d.id_vm]

theorem undo_view (hd : d.Faithful k) (hosts : List (Host α)) (moved : List (VmId × Nat)) :
    undo (hosts.map d.host) moved = (undo hosts moved).map d.host := by
  induction moved generalizing hosts with
  | nil => rfl
  | cons m rest ih =>
    have hcomm : ∀ h, (d.host h).unassign m.1 = d.host (h.unassign m.1) :=
      fun h => (hd.unassign h m.1).symm
    rw [undo, List.foldl_cons, modify_map hcomm]
    exact ih (hosts.modify m.2 fun h => h.unassign m.1)

theorem record_view (d : View α) (source : HostId) (hosts : List (Host α)) (plan : MigrationPlan)
    (moved : List (VmId × Nat)) :
    record source (hosts.map d.host) plan moved = record source hosts plan moved := by
  unfold record
  refine congrArg (fun f => moved.foldl f plan) (funext fun p => funext fun m => ?_)
  rw [List.getElem?_map]
  cases hosts[m.2]? with
  | none => rfl
  | some h => simp only [Option.map_some, d.id_host]

/-- A round over the view. -/
def Round.view (d : View α) (s : Round α) : Round α := { s with hosts := s.hosts.map d.host }

theorem round_view (hd : d.Faithful k) (s : Round α) :
    round k (s.view d) = (round k s).map (Round.view d) := by
  have hcandidate : lastIdx? (fun h => !s.tried.contains h.id && h.hasVms)
      ((k.sortHosts .decreasing s.hosts).map d.host) =
        lastIdx? (fun h => !s.tried.contains h.id && h.hasVms)
          (k.sortHosts .decreasing s.hosts) :=
    lastIdx?_view (fun h => by rw [d.id_host, hd.hasVms]) _
  unfold round
  simp only [Round.view, hd.sortHosts, hcandidate]
  cases lastIdx? (fun h => !s.tried.contains h.id && h.hasVms)
      (k.sortHosts .decreasing s.hosts) with
  | none => rfl
  | some i =>
    simp only [Option.bind_some, List.getElem?_map]
    cases (k.sortHosts .decreasing s.hosts)[i]? with
    | none => rfl
    | some source =>
      simp only [Option.map_some, d.id_host, hd.sortVms_values, rehome_view, List.length_map,
        record_view, undo_view hd, List.eraseIdx_map]
      split <;> rfl

theorem rounds_view (hd : d.Faithful k) (n : Nat) (s : Round α) :
    rounds k n (s.view d) = (rounds k n s).view d := by
  induction n generalizing s with
  | zero => rfl
  | succ n ih =>
    rw [rounds, rounds, round_view hd]
    cases round k s with
    | none =>
      simp only [Option.map_none, Round.view, hd.sortHosts]
    | some s' => exact ih s'

/-- The plan that consolidates a cluster is the same over a faithful view. -/
theorem consolidate_view (hd : d.Faithful k) (hosts : List (Host α)) :
    consolidate k (hosts.map d.host) = consolidate k hosts := by
  have hawake : ((hosts.map d.host).filter fun h => !h.isPassive) =
      (hosts.filter fun h => !h.isPassive).map d.host := by
    rw [List.filter_map]
    refine congrArg (List.map d.host) (List.filter_congr fun h _ => ?_)
    rw [Function.comp_apply, hd.isPassive]
  have hstart : (⟨(hosts.filter fun h => !h.isPassive).map d.host, [], .empty⟩ : Round α) =
      Round.view d ⟨hosts.filter fun h => !h.isPassive, [], .empty⟩ := rfl
  have hcount : ∀ s : Round α, ((s.view d).hosts.filter Host.hasVms).length =
      (s.hosts.filter Host.hasVms).length := by
    intro s
    rw [Round.view, List.filter_map, List.length_map]
    exact congrArg List.length (List.filter_congr fun h _ => hd.hasVms h)
  simp only [consolidate, hawake, List.length_map, hstart, rounds_view hd, hcount]
  rfl

end Consolidation

/-! ## Views -/

namespace View

/-- Hosts and machines as they are. -/
def full : View α := ⟨id, id, fun _ => rfl, fun _ => rfl, fun _ _ => rfl, fun _ _ => rfl⟩

theorem faithful_full (k : Ranking α) : (full : View α).Faithful k :=
  ⟨fun _ => rfl, fun _ => rfl, fun _ => rfl,
    fun h => SortedMap.ext (List.map_id h.vms.entries).symm, fun _ _ => rfl, fun _ => rfl,
    fun _ => rfl⟩

/-- Hosts and machines with cut histories. -/
def trimmed (n : Nat) : View α where
  host h := h.trim n
  vm v := v.trim n
  id_host _ := rfl
  id_vm _ := rfl
  canTake h v := by
    have hrequested : (h.trim n).requested = h.requested := by
      rw [Host.requested, Host.trim, SortedMap.values_mapValues, List.map_map, Host.requested]
      rfl
    rw [Host.canTake, hrequested, Host.canTake]
    rfl
  assign h v := by
    simp only [Host.trim, Host.assign, SortedMap.mapValues_insert]
    rfl

theorem faithful_trimmed {k : Ranking α} (hk : k.estimator.Windowed) {n : Nat}
    (hn : k.estimator.window ≤ n) : (trimmed n : View α).Faithful k where
  status _ := rfl
  capacity _ := rfl
  thresholds _ := rfl
  vms _ := rfl
  unassign h v := by
    simp only [trimmed, Host.trim, Host.unassign, SortedMap.mapValues_erase]
  demand := hk.demand_trim hn
  utilization := hk.utilization_trim hn

/-- A machine of which only the id and the request are known. -/
def outline (v : Vm α) : Vm α := Vm.new v.id v.requested 0

/-- Hosts and machines of which only ids, requests and capacities are known. -/
def outlined : View α where
  host h := { Host.new h.id h.capacity 0 with
    vms := h.vms.mapValues fun _ v => (outline v).on h.id }
  vm := outline
  id_host _ := rfl
  id_vm _ := rfl
  canTake h v := by
    rw [Host.canTake, Host.requested, SortedMap.values_mapValues, List.map_map, Host.canTake,
      Host.requested]
    rfl
  assign h v := by
    simp only [Host.assign, SortedMap.mapValues_insert]
    rfl

end View

end ClusterControl
