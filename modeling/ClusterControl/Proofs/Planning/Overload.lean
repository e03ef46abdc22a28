import ClusterControl.Planning.Relocation
import ClusterControl.Proofs.Demand.Ranked
import ClusterControl.Proofs.Demand.Remaining

/-!
# How much an overloaded host gives up

An overloaded host gives up its largest machines, one after the other, and stops as soon as what
remains of its utilization fits within its upper bounds.  The remaining utilization is tracked by
subtraction.

* `Relocation.exists_takeUntilRelieved` says where the walk over the machines stops, over numbers of
  any kind.
* `Relocation.greedy_shortest` says over exact numbers that the machines given up are the shortest
  run of the largest ones without which the host, estimated again, fits.
-/

namespace ClusterControl

namespace Relocation

variable {α : Type} [Quantity α]

/-- What is left of a utilization after the demands of some machines are subtracted in turn. -/
def leftOver (e : Estimator α) (u : Resources α) (vms : List (Vm α)) : Resources α :=
  vms.foldl (fun u vm => u.monus (e.demand vm)) u

/-- The walk stops at the first machine before which what is left fits, or at the end. -/
theorem exists_takeUntilRelieved (e : Estimator α) (capacity upper : Resources α)
    (u : Resources α) (vms : List (Vm α)) : ∃ n ≤ vms.length,
      takeUntilRelieved e capacity upper u vms = vms.take n ∧
      (∀ m < n, ((leftOver e u (vms.take m)).divide capacity).fitsWithin upper = false) ∧
      (n = vms.length ∨ ((leftOver e u (vms.take n)).divide capacity).fitsWithin upper = true) := by
  induction vms generalizing u with
  | nil => exact ⟨0, le_rfl, rfl, fun m hm => absurd hm (Nat.not_lt_zero m), .inl rfl⟩
  | cons vm rest ih =>
    rw [takeUntilRelieved]
    split
    · rename_i hfits
      exact ⟨0, Nat.zero_le _, rfl, fun m hm => absurd hm (Nat.not_lt_zero m), .inr hfits⟩
    · rename_i hover
      obtain ⟨n, hn, htake, hbefore, hstop⟩ := ih (u.monus (e.demand vm))
      refine ⟨n + 1, Nat.succ_le_succ hn, by rw [htake, List.take_succ_cons], fun m hm => ?_,
        hstop.imp (congrArg Nat.succ) id⟩
      cases m with
      | zero => exact Bool.eq_false_iff.2 hover
      | succ m => exact hbefore m (Nat.lt_of_succ_lt_succ hm)

variable [LinearOrder α]

/-- The host without the first machines of a ranking. -/
def unburdened (source : Host α) (ranked : List (VmId × Vm α)) (n : Nat) : Host α :=
  source.without ((ranked.take n).map Prod.fst)

/-- The first `n` machines of a ranking are the fewest whose removal brings a host back under its
upper bounds, or all of them where nothing does. -/
structure ShortestRelief (k : Ranking α) (source : Host α) (ranked : List (VmId × Vm α))
    (n : Nat) : Prop where
  /-- The ranking lists the machines of the host, by decreasing load and then by id. -/
  perm : ranked.Perm source.vms.entries
  decreasing : ranked.Pairwise k.Precedes
  le_length : n ≤ ranked.length
  /-- With fewer machines removed the host, estimated again, is still over its bounds. -/
  unrelieved : ∀ m < n, (k.estimator.normalized (unburdened source ranked m)).fitsWithin
    source.thresholds.upper = false
  relieved : n = ranked.length ∨
    (k.estimator.normalized (unburdened source ranked n)).fitsWithin source.thresholds.upper = true
  /-- What is tracked by subtraction is what is estimated without the machines. -/
  tracked : ∀ m, leftOver k.estimator (k.estimator.utilization source)
    ((ranked.take m).map Prod.snd) = k.estimator.utilization (unburdened source ranked m)

variable [AddCommGroup α] [IsOrderedAddMonoid α] [Quantity.Faithful α]

/-- Subtracting the demands of the first machines of a ranking is as good as estimating the host
without them. -/
theorem leftOver_take {e : Estimator α} (he : e.Lawful) {source : Host α}
    {ranked : List (VmId × Vm α)} (hperm : ranked.Perm source.vms.entries) (m : Nat) :
    leftOver e (e.utilization source) ((ranked.take m).map Prod.snd) =
      e.utilization (unburdened source ranked m) := by
  rw [leftOver, List.foldl_map]
  refine he.foldl_monus (fun x hx => ?_) ?_
  · exact SortedMap.get?_eq_some_iff.2 (hperm.subset (List.mem_of_mem_take hx))
  · have hkeys : (ranked.map Prod.fst).Nodup :=
      (hperm.map Prod.fst).nodup_iff.2 source.vms.nodup_keys
    exact hkeys.sublist ((List.take_sublist m ranked).map Prod.fst)

/-- Every estimator that settings name is lawful, and under a lawful estimator an overloaded host
gives up the fewest of its largest machines whose removal brings it back under its bounds. -/
theorem greedy_shortest :
    (∀ name window historyCapacity,
      (Estimator.ofName name window historyCapacity : Estimator α).Lawful) ∧
    ∀ (k : Ranking α) (source : Host α), k.estimator.Lawful →
      ∃ ranked n, ShortestRelief k source ranked n ∧
        overloadCandidates k .greedy source = (ranked.take n).map Prod.snd := by
  refine ⟨Estimator.lawful_ofName, fun k source hk => ?_⟩
  obtain ⟨ranked, hperm, hdecreasing, hsorted⟩ := k.exists_ranked source
  have htracked := leftOver_take hk hperm
  have hnormalized : ∀ m, (leftOver k.estimator (k.estimator.utilization source)
      ((ranked.map Prod.snd).take m)).divide source.capacity =
        k.estimator.normalized (unburdened source ranked m) := by
    intro m
    rw [← List.map_take, htracked, Estimator.normalized, unburdened,
      Host.capacity_of_bare (source.bare_without _)]
  obtain ⟨n, hn, htake, hover, hrelieved⟩ := exists_takeUntilRelieved k.estimator source.capacity
    source.thresholds.upper (k.estimator.utilization source) (ranked.map Prod.snd)
  simp only [hnormalized, List.length_map] at hn hover hrelieved
  refine ⟨ranked, n, ⟨hperm, hdecreasing, hn, hover, hrelieved, htracked⟩, ?_⟩
  rw [overloadCandidates, ← hsorted, List.map_take]
  exact htake

/-- A host of ten units with three machines that use one, three and four, and six units of its
own. -/
def pressed : Host ℚ :=
  let seen (id : VmId) (x : ℚ) : Vm ℚ := (Vm.new id ⟨1, 1, 1, 1⟩ 1).observe ⟨0, ⟨x, x, x, x⟩⟩
  ((((Host.new "h" ⟨10, 10, 10, 10⟩ 1).observe ⟨0, ⟨6, 6, 6, 6⟩⟩).assign (seen "a" 1)).assign
    (seen "b" 3)).assign (seen "c" 4)

/-- Under a bound of nine tenths it gives up the largest, which has the last id, and then the next
one. -/
theorem greedy_shortest_of_pressed :
    (Estimator.windowed .average 1 : Estimator ℚ).Lawful ∧
      (overloadCandidates ⟨.l1, .windowed .average 1⟩ .greedy pressed).map Vm.id = ["c", "b"] ∧
      ∃ ranked n, ShortestRelief ⟨.l1, .windowed .average 1⟩ pressed ranked n ∧
        overloadCandidates ⟨.l1, .windowed .average 1⟩ .greedy pressed =
          (ranked.take n).map Prod.snd :=
  ⟨Estimator.lawful_windowed _ _, by cbv,
    greedy_shortest.2 ⟨.l1, .windowed .average 1⟩ pressed (Estimator.lawful_windowed _ _)⟩

end Relocation

end ClusterControl
