import ClusterControl.Proofs.Enforcement.Reports
import ClusterControl.Proofs.Planning.Savings
import ClusterControl.Proofs.Program.Deliveries
import ClusterControl.Proofs.Store.Outcomes

/-!
# Plans that start from the store

A plan is made from copies of the hosts, and it is carried out on the hosts themselves.  Its moves
make sense there: each takes a machine from the host that has it to another known one, and no
machine moves twice.

* `MigrationPlan.Built` holds of every plan that a planner makes, whatever it was given.
* `MigrationPlan.StartsFrom` says that a plan agrees with the store on where its machines are; so
  does every plan that is made from what a consistent store lists.
-/

namespace ClusterControl

variable {α : Type}

/-! ## Plans that record moves -/

namespace MigrationPlan

theorem built_empty : empty.Built := ⟨[], rfl⟩

/-- Whether a plan was built depends on its moves alone. -/
theorem Built.congr {p q : MigrationPlan} (h : p.Built) (heq : q.migrations = p.migrations) :
    q.Built := by
  obtain ⟨moves, hmoves⟩ := h
  exact ⟨moves, heq.trans hmoves⟩

/-- What a further record does to the moves depends on the moves alone. -/
theorem migrations_add_congr {p q : MigrationPlan} (h : p.migrations = q.migrations) (vm : VmId)
    (source : Option HostId) (d : HostId) :
    (p.add vm source d).migrations = (q.add vm source d).migrations := by
  unfold add
  rw [h]
  dsimp only
  split <;> split <;> rfl

theorem Built.add {p : MigrationPlan} (h : p.Built) (vm : VmId) (source : Option HostId)
    (d : HostId) : (p.add vm source d).Built := by
  obtain ⟨moves, hmoves⟩ := h
  refine ⟨moves ++ [⟨vm, source, d⟩], (migrations_add_congr hmoves vm source d).trans ?_⟩
  simp only [recorded, List.foldl_append, List.foldl_cons, List.foldl_nil]

/-- A fold that only records moves builds a plan. -/
theorem Built.foldl {β γ : Type} {f : β → γ → β} {p : β → MigrationPlan}
    (hstep : ∀ b c, (p b).Built → (p (f b c)).Built) (l : List γ) {b : β} (h : (p b).Built) :
    (p (l.foldl f b)).Built := by
  induction l generalizing b with
  | nil => exact h
  | cons c rest ih => exact ih (hstep b c h)

end MigrationPlan

variable [Quantity α]

namespace Relocation

theorem built_relocate (k : Ranking α) (p : RelocationPolicy) (source : Host α)
    (destinations : List (Host α)) : (relocate k p source destinations).1.Built := by
  refine MigrationPlan.Built.congr ?_ (migrations_relocate k p source destinations)
  unfold assignAll
  split
  · exact MigrationPlan.built_empty
  · refine MigrationPlan.Built.foldl (p := Prod.fst) (fun s vm hs => ?_) _
      MigrationPlan.built_empty
    unfold assignStep
    dsimp only
    split
    · exact hs.add ..
    · exact hs

end Relocation

namespace Consolidation

omit [Quantity α] in
theorem built_record {source : HostId} (hosts : List (Host α)) {plan : MigrationPlan}
    (h : plan.Built) (moved : List (VmId × Nat)) : (record source hosts plan moved).Built := by
  refine MigrationPlan.Built.foldl (p := id) (fun p m hp => ?_) moved h
  dsimp only [id]
  split
  · exact MigrationPlan.Built.add hp ..
  · exact hp

theorem built_round {k : Ranking α} {s s' : Round α} (h : s.plan.Built)
    (hround : round k s = some s') : s'.plan.Built := by
  unfold round at hround
  dsimp only at hround
  split at hround
  · exact absurd hround (by simp)
  · split at hround
    · rw [← Option.some.inj hround]
      exact built_record _ h _
    · rw [← Option.some.inj hround]
      exact h

theorem built_rounds (k : Ranking α) (n : Nat) {s : Round α} (h : s.plan.Built) :
    (rounds k n s).plan.Built := by
  induction n generalizing s with
  | zero => exact h
  | succ n ih =>
    unfold rounds
    split
    · rename_i s' hround
      exact ih (built_round h hround)
    · exact h

theorem built_consolidate (k : Ranking α) (hosts : List (Host α)) :
    (consolidate k hosts).Built :=
  (built_rounds k _ MigrationPlan.built_empty).congr rfl

end Consolidation

/-! ## Plans that agree with the store -/

/-- Every move takes a machine from where the store has it to another host of the store. -/
def MigrationPlan.StartsFrom (p : MigrationPlan) (s : Store α) : Prop :=
  ∀ m ∈ p.moves, ∃ source w, s.Departs m source w

omit [Quantity α] in
/-- A host that is shown is a host of the store. -/
theorem Store.Shows.known {s : Store α} {h : Host α} (hh : s.Shows h) :
    (s.hosts.get? h.id).isSome = true := by
  obtain ⟨k, n, hget, -⟩ := hh
  rw [hget]
  rfl

/-- The plan that relieves a host which the store shows starts from the store. -/
theorem Relocation.startsFrom_relocate {s : Store α} (hs : s.Consistent) {source : Host α}
    (hsource : s.Shows source) {destinations : List (Host α)}
    (hids : (destinations.map Host.id).Nodup)
    (hshown : ∀ h ∈ destinations, s.Shows h ∧ h.id ≠ source.id) (k : Ranking α)
    (p : RelocationPolicy) : (relocate k p source destinations).1.StartsFrom s := by
  intro m hm
  have hfiled : ∀ ⦃v w⦄, source.vms.get? v = some w → w.id = v := by
    intro v w hw
    obtain ⟨w', hw', heq⟩ := hsource.record hw
    rw [← (hs.on_host hw').1]
    exact congrArg Prod.fst heq
  obtain ⟨copies, hplanned, harrives⟩ := arrives_relocate k p source hids
  obtain ⟨h, hh, hid⟩ := hplanned.exists_of_receives (harrives.mem_moves hm)
  obtain ⟨v, hv⟩ := SortedMap.mem_values_iff.1 hm
  obtain ⟨hfrom, hhas⟩ := leaves_relocate k p hfiled destinations hv
  rw [← (harrives hv).1] at hhas
  obtain ⟨w, hw⟩ := Option.isSome_iff_exists.1 ((hsource.has_iff m.vm).1 hhas)
  refine ⟨source.id, w, hfrom, hw, ?_, ?_⟩
  · rw [← hid]
    exact (hshown h hh).1.known
  · rw [← hid]
    exact (hshown h hh).2

/-- The plan that consolidates the hosts that a store lists starts from the store. -/
theorem Consolidation.startsFrom_consolidate {s : Store α} (hs : s.Consistent) (k : Ranking α)
    (entries : Nat) (excludePassive monitoring : Bool) :
    (consolidate k (s.hostList entries excludePassive monitoring)).StartsFrom s := by
  intro m hm
  have hshown : ∀ {h}, h ∈ s.hostList entries excludePassive monitoring → s.Shows h :=
    fun hh => (hs.shows_of_mem_hostList hh).1
  have hevacuates := evacuates_consolidate k (hs.filed_hostList entries excludePassive monitoring)
    (hs.apart_hostList entries excludePassive monitoring)
  obtain ⟨h, hh, -, hfrom, hhas⟩ := hevacuates.source m hm
  obtain ⟨d, hd, -, hdest, hkept⟩ := hevacuates.destination m hm
  obtain ⟨w, hw⟩ := Option.isSome_iff_exists.1 (((hshown hh).has_iff m.vm).1 hhas)
  refine ⟨h.id, w, hfrom, hw, ?_, fun hback => ?_⟩
  · rw [hdest]
    exact (hshown hd).known
  · -- a host that receives a machine keeps its own
    obtain rfl := List.inj_on_of_nodup_map (hs.nodup_hostList entries excludePassive monitoring) hd
      hh (hdest.symm.trans hback)
    obtain ⟨v, hv⟩ := SortedMap.mem_values_iff.1 hm
    rw [← (built_consolidate k _).vm_eq hv, hkept m.vm hhas] at hv
    exact absurd hv (by simp)

end ClusterControl
