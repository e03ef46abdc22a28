import Mathlib.Data.List.Forall2
import Mathlib.Data.Option.Basic
import ClusterControl.Demand.Classification
import ClusterControl.Proofs.Resource.Exact
import ClusterControl.Proofs.SortedMap
import ClusterControl.Proofs.Store.Histories
import ClusterControl.Settings

/-!
# Estimates from trimmed descriptions

The store hands out descriptions whose histories are cut to the window that the settings name, and
the estimator of the same settings reads a window of its own, which is never empty.

* `Estimator.Alike` says that an estimator reads the same off two descriptions of a host;
  `Estimator.Windowed.alike_trim` gives it for a description that keeps the window of the estimator.
* `Store.undisturbed_iff` says for which settings and which store the cut takes nothing away: unless
  the settings name a window of no samples, it never does.
-/

namespace ClusterControl

variable {α : Type}

/-! ## Descriptions -/

/-- No sample was ever kept of the host, nor of a machine on it. -/
def Host.Unobserved (h : Host α) : Prop :=
  h.history.entries = [] ∧ ∀ vm ∈ h.vms.values, vm.history.entries = []

/-- Nothing can be cut from the description of a host that was not observed. -/
theorem Host.Unobserved.trim_eq {h : Host α} (hh : h.Unobserved) (n : Nat) : h.trim n = h := by
  have hvms : (h.vms.mapValues fun _ vm => vm.trim n) = h.vms.mapValues fun _ vm => vm := by
    refine SortedMap.mapValues_congr fun vm hvm => ?_
    rw [Vm.trim, History.retainLatest_of_entries (hh.2 vm hvm)]
  have hsame : (h.vms.mapValues fun _ vm => vm) = h.vms := SortedMap.ext (List.map_id _)
  rw [Host.trim, hvms, hsame, History.retainLatest_of_entries hh.1]

variable [Quantity α]

namespace Estimator

/-! ## What an estimator reads -/

/-- The estimator reads the same off two descriptions of a host: the same samples, and so the same
demands, the same own usage and the same utilization. -/
structure Alike (e : Estimator α) (k h : Host α) : Prop where
  samples : k.history.latest e.window = h.history.latest e.window
  vmSamples : (k.vms.mapValues fun _ vm => vm.history.latest e.window) =
    h.vms.mapValues fun _ vm => vm.history.latest e.window
  demand : (k.vms.mapValues fun _ vm => e.demand vm) = h.vms.mapValues fun _ vm => e.demand vm
  hostUsage : ∀ r, e.hostUsage k r = e.hostUsage h r
  overhead : e.overhead k = e.overhead h
  utilization : e.utilization k = e.utilization h

theorem Alike.refl (e : Estimator α) (h : Host α) : e.Alike h h :=
  ⟨rfl, rfl, rfl, fun _ => rfl, rfl, rfl⟩

/-- An estimator that reads no more than the window it names: it gives the same for histories that
agree there. -/
structure Windowed (e : Estimator α) : Prop where
  demand_trim : ∀ {n : Nat}, e.window ≤ n → ∀ vm, e.demand (vm.trim n) = e.demand vm
  hostUsage_trim : ∀ {n : Nat}, e.window ≤ n → ∀ h r, e.hostUsage (h.trim n) r = e.hostUsage h r
  overhead_trim : ∀ {n : Nat}, e.window ≤ n → ∀ h, e.overhead (h.trim n) = e.overhead h

theorem windowed_windowed (a : Aggregation) (window : Nat) :
    (windowed a window : Estimator α).Windowed where
  demand_trim hn vm := congrArg a.combine (History.latest_retainLatest hn vm.history)
  hostUsage_trim hn h r :=
    congrArg (fun l => (a.combine l).get r) (History.latest_retainLatest hn h.history)
  overhead_trim hn h := congrArg a.combine (History.latest_retainLatest hn h.history)

variable {e : Estimator α} {n : Nat}

theorem Windowed.utilization_trim (he : e.Windowed) (hn : e.window ≤ n) (h : Host α) :
    e.utilization (h.trim n) = e.utilization h := by
  have hdemands : (h.trim n).vms.values.map e.demand = h.vms.values.map e.demand := by
    rw [Host.trim, SortedMap.values_mapValues, List.map_map]
    exact List.map_congr_left fun vm _ => he.demand_trim hn vm
  rw [utilization, utilization, hdemands, he.overhead_trim hn]

/-- A description that keeps the window of the estimator is as good as the full one. -/
theorem Windowed.alike_trim (he : e.Windowed) (hn : e.window ≤ n) (h : Host α) :
    e.Alike (h.trim n) h where
  samples := History.latest_retainLatest hn h.history
  vmSamples := by
    rw [Host.trim, SortedMap.mapValues_mapValues]
    exact SortedMap.mapValues_congr fun vm _ => History.latest_retainLatest hn vm.history
  demand := by
    rw [Host.trim, SortedMap.mapValues_mapValues]
    exact SortedMap.mapValues_congr fun vm _ => he.demand_trim hn vm
  hostUsage := he.hostUsage_trim hn h
  overhead := he.overhead_trim hn h
  utilization := he.utilization_trim hn h

/-- An estimator that reads samples misses those of a description without any. -/
theorem Alike.unobserved {h : Host α} (hh : e.Alike (h.trim 0) h) (he : 0 < e.window) :
    h.Unobserved := by
  have hempty : ∀ k : History (Sample α), (k.retainLatest 0).latest e.window =
      k.latest e.window → k.entries = [] := by
    intro k hk
    have hnone : (k.retainLatest 0).latest e.window = [] := by
      rw [History.latest, History.retainLatest, lastEntries_eq_nil_iff, lastEntries_eq_nil_iff]
      exact .inr (.inl rfl)
    rw [hnone, eq_comm, History.latest, lastEntries_eq_nil_iff] at hk
    exact hk.resolve_left (Nat.pos_iff_ne_zero.1 he)
  refine ⟨hempty h.history hh.samples, fun vm hvm => ?_⟩
  obtain ⟨v, hv⟩ := SortedMap.mem_values_iff.1 hvm
  have hsamples := congrArg (fun m => m.get? v) hh.vmSamples
  simp only [Host.trim, SortedMap.get?_mapValues, hv, Option.map_some, Option.some.injEq] at hsamples
  exact hempty vm.history hsamples

end Estimator

namespace Settings

/-- The estimator of the settings reads at least one sample. -/
theorem window_pos (c : Settings α) : 0 < c.demandEstimator.window :=
  Nat.le_max_left 1 _

/-- Unless they name a window of no samples, settings name one that the estimator stays within. -/
theorem window_le (c : Settings α) (h : c.estimator.window ≠ 0) :
    c.demandEstimator.window ≤ c.estimator.window := by
  show Estimator.effectiveWindow c.estimator.window c.estimator.historyCapacity ≤ _
  rw [Estimator.effectiveWindow]
  split <;> omega

theorem windowed_demandEstimator (c : Settings α) : c.demandEstimator.Windowed :=
  Estimator.windowed_windowed _ _

/-- Cutting the description of a host to the window of the settings is harmless unless the window
is empty and something was observed. -/
theorem alike_trim_iff (c : Settings α) (h : Host α) :
    c.demandEstimator.Alike (h.trim c.estimator.window) h ↔
      c.estimator.window ≠ 0 ∨ h.Unobserved := by
  constructor
  · intro hh
    by_cases hzero : c.estimator.window = 0
    · rw [hzero] at hh
      exact .inr (hh.unobserved c.window_pos)
    · exact .inl hzero
  · rintro (hwindow | hh)
    · exact c.windowed_demandEstimator.alike_trim (c.window_le hwindow) h
    · rw [hh.trim_eq]
      exact .refl _ h

end Settings

/-! ## What the store hands out -/

namespace Store

/-- The estimator of the settings reads the same off every description that the store hands out, in
a listing or for one host, as off the host as it is stored. -/
structure Undisturbed (s : Store α) (c : Settings α) : Prop where
  listed : ∀ excludePassive, List.Forall₂ c.demandEstimator.Alike
    (s.hostList c.estimator.window excludePassive true)
    (s.hosts.values.filter fun h => !(excludePassive && h.isPassive))
  found : ∀ id, Option.Rel c.demandEstimator.Alike (s.host? id c.estimator.window) (s.hosts.get? id)

/-- Where estimates are undisturbed by an empty window, nothing was observed. -/
theorem Undisturbed.unobserved {s : Store α} {c : Settings α} (hs : s.Undisturbed c)
    (hwindow : c.estimator.window = 0) : ∀ h ∈ s.hosts.values, h.Unobserved := by
  intro h hh
  have hlisted := hs.listed false
  rw [hostList, List.forall₂_map_left_iff, List.forall₂_same] at hlisted
  have hmem : h ∈ s.hosts.values.filter fun h => !(false && h.isPassive) := by simpa using hh
  exact ((c.alike_trim_iff h).1 (hlisted h hmem)).resolve_left (absurd hwindow)

/-- Estimates from what the store hands out are those from what is stored, if and only if the
settings name a window of at least one sample or nothing was observed. -/
theorem undisturbed_iff (s : Store α) (c : Settings α) :
    s.Undisturbed c ↔ c.estimator.window ≠ 0 ∨ ∀ h ∈ s.hosts.values, h.Unobserved := by
  constructor
  · intro hs
    by_cases hwindow : c.estimator.window = 0
    · exact .inr (hs.unobserved hwindow)
    · exact .inl hwindow
  · intro hs
    have halike : ∀ h ∈ s.hosts.values,
        c.demandEstimator.Alike (h.trim c.estimator.window) h := fun h hh =>
      (c.alike_trim_iff h).2 (hs.imp_right fun hall => hall h hh)
    refine ⟨fun excludePassive => ?_, fun id => ?_⟩
    · rw [hostList, List.forall₂_map_left_iff, List.forall₂_same]
      exact fun h hh => halike h (List.mem_of_mem_filter hh)
    · cases hget : s.hosts.get? id with
      | none =>
        rw [host?, hget]
        exact .none
      | some h =>
        rw [host?, hget]
        exact .some (halike h (SortedMap.mem_values_iff.2 ⟨id, hget⟩))

/-- A host of ten units with one machine that was last seen to use nine and a half. -/
def nearlyFull : Store ℚ :=
  let seen : Vm ℚ := (Vm.new "v" ⟨1, 1, 1, 1⟩ 1).observe ⟨0, ⟨19 / 2, 19 / 2, 19 / 2, 19 / 2⟩⟩
  .ofHosts [(Host.new "a" ⟨10, 10, 10, 10⟩ 1).assign seen]

/-- Settings that name a window of no samples. -/
def blind : Settings ℚ := { Settings.standard with estimator := ⟨"average", 0, 60⟩ }

/-- Under an empty window a host that is too busy as it is stored is too idle as it is listed. -/
theorem disturbed_nearlyFull :
    nearlyFull.hosts.values.map blind.demandEstimator.classify = [.overloaded] ∧
      (nearlyFull.hostList blind.estimator.window false true).map blind.demandEstimator.classify =
        [.underloaded] ∧ ¬ nearlyFull.Undisturbed blind := by
  have hobserved : ¬ ∀ h ∈ nearlyFull.hosts.values, ∀ vm ∈ h.vms.values,
      vm.history.entries.isEmpty = true := by decide +kernel
  refine ⟨by decide +kernel, by decide +kernel, fun hs => hobserved fun h hh vm hvm => ?_⟩
  rw [(hs.unobserved rfl h hh).2 vm hvm]
  rfl

end Store

end ClusterControl
