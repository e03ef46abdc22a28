import ClusterControl.Demand.Classification
import ClusterControl.Proofs.Demand.Classification
import ClusterControl.Proofs.Planning.Execution
import ClusterControl.Proofs.Planning.Growth

/-!
# The detector and the overload policy

The detector compares a host's utilization with its upper bounds as they are written.  The policy
that relieves the host reads the same bounds as amounts, so that a negative one counts as zero, and
allows for the tolerance of every comparison of capacities.  A host that the detector calls
overloaded may so give up nothing.

* `Estimator.classify_eq_overloaded_iff` and `Relocation.greedy_ne_nil_iff` are the two readings of
  being overloaded.
* `Relocation.gives_up_unless_within` says when the two agree.
* `Relocation.overloaded_keeps_all`: at the bound and below a negative one they do not.
-/

namespace ClusterControl

variable {α : Type} [Quantity α]

/-- A component is within its bound, read as an amount, up to the tolerance. -/
def Thresholds.Admits (t : Thresholds α) (r : Resource) (x : α) : Prop :=
  Quantity.le x (Quantity.add (Quantity.clamp (t.get r).max) Resources.tolerance) = true

theorem Thresholds.fitsWithin_upper_iff {t : Thresholds α} {u : Resources α} :
    u.fitsWithin t.upper = true ↔ ∀ r, t.Admits r (u.get r) := by
  have hupper : ∀ r, t.upper.get r = Quantity.clamp (t.get r).max := fun r => by
    rw [upper, Resources.clamped, Resources.map, Resources.map, Resources.get_ofFn,
      Resources.get_ofFn]
  simp only [Resources.fitsWithin, List.all_eq_true, hupper]
  exact ⟨fun h r => h r (by cases r <;> simp [Resource.all]), fun h r _ => h r⟩

/-- The detector calls a host overloaded when one dimension is used beyond its bound. -/
theorem Estimator.classify_eq_overloaded_iff {e : Estimator α} {h : Host α} :
    e.classify h = .overloaded ↔
      ∃ r, Quantity.lt (h.thresholds.get r).max ((e.normalized h).get r) = true :=
  LoadState.classify_eq_overloaded_iff

namespace Relocation

theorem sortVms_ne_nil {k : Ranking α} {source : Host α} (hvms : source.hasVms = true) :
    k.sortVms .decreasing source.vms.values ≠ [] := by
  obtain ⟨v, hv⟩ := Host.hasVms_iff.1 hvms
  obtain ⟨vm, hvm⟩ := Option.isSome_iff_exists.1 hv
  have hmem := (k.perm_sortVms .decreasing source.vms.values).mem_iff.2
    (SortedMap.mem_values_iff.2 ⟨v, hvm⟩)
  exact List.ne_nil_of_mem hmem

/-- The policy takes machines from a host that has some when one dimension is not within its
bound. -/
theorem greedy_ne_nil_iff {k : Ranking α} {source : Host α} (hvms : source.hasVms = true) :
    overloadCandidates k .greedy source ≠ [] ↔
      ∃ r, ¬ source.thresholds.Admits r ((k.estimator.normalized source).get r) := by
  rw [← not_forall, ← Thresholds.fitsWithin_upper_iff, overloadCandidates]
  obtain ⟨vm, rest, hcons⟩ := List.exists_cons_of_ne_nil (sortVms_ne_nil (k := k) hvms)
  simp only [hcons, takeUntilRelieved]
  split
  · rename_i hfits
    exact ⟨fun h => absurd rfl h, fun h => absurd hfits h⟩
  · rename_i hover
    exact ⟨fun _ => hover, fun _ => List.cons_ne_nil _ _⟩

/-- An overloaded host with machines gives one up when a dimension is beyond its bound by more than
the tolerance, and always where the largest is taken in any case.  When it gives up none, a dimension
that is beyond its bound as it is written is within it as it is read. -/
theorem gives_up_unless_within (k : Ranking α) (source : Host α) (hvms : source.hasVms = true) :
    (overloadCandidates k .greedy source ≠ [] ↔
      ∃ r, ¬ source.thresholds.Admits r ((k.estimator.normalized source).get r)) ∧
    overloadCandidates k .single source ≠ [] ∧
    (k.estimator.classify source = .overloaded → overloadCandidates k .greedy source = [] →
      ∃ r, Quantity.lt (source.thresholds.get r).max ((k.estimator.normalized source).get r) = true ∧
        source.thresholds.Admits r ((k.estimator.normalized source).get r)) := by
  refine ⟨greedy_ne_nil_iff hvms, ?_, fun hover hnone => ?_⟩
  · obtain ⟨vm, rest, hcons⟩ := List.exists_cons_of_ne_nil (sortVms_ne_nil (k := k) hvms)
    rw [overloadCandidates, hcons]
    exact List.cons_ne_nil vm _
  · obtain ⟨r, hr⟩ := Estimator.classify_eq_overloaded_iff.1 hover
    refine ⟨r, hr, not_not.1 fun hbeyond => ?_⟩
    exact (greedy_ne_nil_iff hvms).2 ⟨r, hbeyond⟩ hnone

/-- A host of ten units with one machine that was last seen to use `x` of them, under one upper bound
for every dimension. -/
def loaded (x bound : ℚ) : Host ℚ :=
  let seen : Vm ℚ := (Vm.new "v" ⟨1, 1, 1, 1⟩ 1).observe ⟨0, ⟨x, x, x, x⟩⟩
  { (Host.new "a" ⟨10, 10, 10, 10⟩ 1).assign seen with thresholds := .uniform 0 bound }

/-- Beyond the tolerance the host gives up its machine. -/
theorem gives_up_of_loaded : (loaded 9 (4 / 5)).hasVms = true ∧
    overloadCandidates ⟨.l1, .windowed .average 1⟩ .greedy (loaded 9 (4 / 5)) ≠ [] := by
  have hvms : (loaded 9 (4 / 5)).hasVms = true := by decide +kernel
  have hbeyond : ¬ (loaded 9 (4 / 5)).thresholds.Admits .cpu
      (((Estimator.windowed .average 1).normalized (loaded 9 (4 / 5))).get .cpu) := by
    unfold Thresholds.Admits
    decide +kernel
  exact ⟨hvms, (gives_up_unless_within ⟨.l1, .windowed .average 1⟩ _ hvms).1.2 ⟨.cpu, hbeyond⟩⟩

/-- A host that is over its bound by half the tolerance. -/
def nearBound : Host ℚ := loaded (8 + 5 / 10 ^ 9) (4 / 5)

/-- An idle host under a negative bound. -/
def belowNothing : Host ℚ := loaded 0 (-1)

/-- Both are overloaded and give up nothing. -/
theorem overloaded_keeps_all :
    (nearBound.hasVms = true ∧ (Estimator.windowed .average 1).classify nearBound = .overloaded ∧
      overloadCandidates ⟨.l1, .windowed .average 1⟩ .greedy nearBound = []) ∧
    (belowNothing.hasVms = true ∧
      (Estimator.windowed .average 1).classify belowNothing = .overloaded ∧
      overloadCandidates ⟨.l1, .windowed .average 1⟩ .greedy belowNothing = []) :=
  ⟨⟨by decide +kernel, by decide +kernel, by cbv⟩, by decide +kernel, by decide +kernel, by cbv⟩

end Relocation

end ClusterControl
