import ClusterControl.Enforcement.Engine

/-!
# What a report is about

An engine never forgets a watch, and a watch keeps the migration and the number of the plan it was
started for.  So whatever happens while a plan is carried out, the report on it lists migrations of
that plan only.

* `Enforcement.work` is what the engine was told to do; only a new plan adds to it.
* `Enforcement.Serves.report` says that a report lists migrations of its plan.
-/

namespace ClusterControl

/-- The plan that a watch belongs to, and its migration. -/
def Watch.label (w : Watch) : Nat × Migration := (w.batch, w.migration)

@[simp]
theorem Watch.label_close (w : Watch) : w.close.label = w.label := by
  unfold close
  split <;> rfl

namespace Enforcement

/-- What the engine was told to do: the migrations, each with the number of its plan, and how many
plans there were. -/
def work (e : Enforcement) : List (Nat × Migration) × Nat := (e.watches.map Watch.label, e.batches)

/-! ## Only a new plan adds work -/

theorem map_modify_of_eq {β γ : Type} {f : β → β} {g : β → γ} (hf : ∀ b, g (f b) = g b)
    (l : List β) (i : Nat) : (l.modify i f).map g = l.map g := by
  induction l generalizing i with
  | nil => simp
  | cons b rest ih =>
    cases i with
    | zero => simp [hf]
    | succ i => simp [ih]

theorem work_modify (e : Enforcement) (i : Nat) {f : Watch → Watch}
    (hf : ∀ w, (f w).label = w.label) : (e.modify i f).work = e.work := by
  rw [work, work, modify, map_modify_of_eq hf]

@[simp]
theorem work_setStage (e : Enforcement) (i : Nat) (s : Stage) : (e.setStage i s).work = e.work :=
  e.work_modify i fun _ => rfl

@[simp]
theorem work_drop (e : Enforcement) (vm : VmId) : (e.drop vm).work = e.work := by
  unfold drop
  split
  · exact work_modify _ _ Watch.label_close
  · rfl

@[simp]
theorem work_register (e : Enforcement) (now i : Nat) (w : Watch) :
    (e.register now i w).work = e.work := by
  unfold register
  refine (work_modify _ i ?_).trans (e.work_drop w.migration.vm)
  exact fun _ => rfl

@[simp]
theorem work_finish (e : Enforcement) (i : Nat) (w : Watch) (o : MigrationOutcome) :
    (e.finish i w o).work = e.work :=
  (work_drop _ _).trans (e.work_setStage i _)

@[simp]
theorem work_signal (e : Enforcement) (vm : VmId) (success : Bool) :
    (e.signal vm success).2.work = e.work := by
  unfold signal
  split
  · rfl
  · dsimp only
    split
    · rfl
    · split
      · exact work_modify _ _ Watch.label_close
      · exact work_modify _ _ fun _ => rfl

@[simp]
theorem work_force (e : Enforcement) (i : Nat) (w : Watch) (source : HostId) :
    (e.force i w source).engine.work = e.work := by
  unfold force
  split
  · exact e.work_setStage i _
  · exact (work_drop _ _).trans (e.work_modify i fun _ => rfl)

@[simp]
theorem work_settle (e : Enforcement) (i : Nat) (w : Watch)
    (r : Except ControlError MigrationStart) : (e.settle i w r).work = e.work := by
  unfold settle
  split <;> simp

@[simp]
theorem work_select (e : Enforcement) (now i : Nat) (w : Watch) (source : HostId) (asked : Bool)
    (answer : Option (Except ControlError MigrationStart)) (order : List Branch) :
    (e.select now i w source asked answer order).engine.work = e.work := by
  induction order with
  | nil => rfl
  | cons b rest ih =>
    cases b <;> unfold select
    · split <;> simp [quiet, ih]
    · split
      · simp [quiet]
      · split <;> simp [ih]
    · split <;> simp [ih]

@[simp]
theorem work_await (e : Enforcement) (now i : Nat) (w : Watch) (source : HostId)
    (order : List Branch) : (e.await now i w source order).engine.work = e.work := by
  induction order with
  | nil => rfl
  | cons b rest ih =>
    cases b <;> unfold await
    · split <;> simp [quiet, ih]
    · exact ih
    · split <;> simp [ih]

@[simp]
theorem work_poll (e : Enforcement) (now i : Nat) (order : List Branch) :
    (e.poll now i order).engine.work = e.work := by
  unfold poll
  split
  · rfl
  split
  · split <;> simp [quiet]
  split
  · simp [quiet]
  · simp
  · simp
  · split <;> simp [quiet]
  · simp [quiet]
  · simp [quiet]
  · rfl
  · rfl

/-- A destination answers a watch that has asked it and has no answer yet. -/
theorem exists_of_answerMigrate {e e' : Enforcement} {i : Nat}
    {r : Except ControlError MigrationStart} (h : e.answerMigrate i r = some e') : ∃ w, e.watches[i]? = some w ∧
      w.stage = .starting true none ∧ e' = e.setStage i (.starting true (some r)) := by
  unfold answerMigrate at h
  split at h
  · rename_i w hw
    split at h
    · rename_i hstage
      exact ⟨w, hw, hstage, (Option.some.inj h).symm⟩
    · exact absurd h (by simp)
  · exact absurd h (by simp)

/-- A source answers a watch that has asked it to suspend its copy. -/
theorem exists_of_answerSuspend {e e' : Enforcement} {i : Nat} {r : Except ControlError Unit}
    (h : e.answerSuspend i r = some e') : ∃ w, e.watches[i]? = some w ∧
      w.stage = .suspending none ∧ e' = e.setStage i (.suspending (some r)) := by
  unfold answerSuspend at h
  split at h
  · rename_i w hw
    split at h
    · rename_i hstage
      exact ⟨w, hw, hstage, (Option.some.inj h).symm⟩
    · exact absurd h (by simp)
  · exact absurd h (by simp)

theorem work_answerMigrate {e e' : Enforcement} {i : Nat} {r : Except ControlError MigrationStart}
    (h : e.answerMigrate i r = some e') : e'.work = e.work := by
  obtain ⟨w, -, -, rfl⟩ := exists_of_answerMigrate h
  exact work_setStage e i _

theorem work_answerSuspend {e e' : Enforcement} {i : Nat} {r : Except ControlError Unit}
    (h : e.answerSuspend i r = some e') : e'.work = e.work := by
  obtain ⟨w, -, -, rfl⟩ := exists_of_answerSuspend h
  exact work_setStage e i _

theorem work_start (e : Enforcement) (plan : MigrationPlan) :
    (e.start plan).work = (e.work.1 ++ plan.moves.map fun m => (e.batches, m), e.batches + 1) := by
  rw [work, start, List.map_append, List.map_map]
  rfl

/-! ## Plans and their reports -/

/-- Every watch belongs to a plan that was started. -/
def Numbered (e : Enforcement) : Prop := ∀ l ∈ e.work.1, l.1 < e.work.2

/-- The watches of a plan that was started carry out its migrations and no others. -/
def Serves (e : Enforcement) (batch : Nat) (plan : MigrationPlan) : Prop :=
  batch < e.work.2 ∧ ∀ l ∈ e.work.1, l.1 = batch → l.2 ∈ plan.moves

theorem Numbered.of_work {e e' : Enforcement} (he : e.Numbered) (h : e'.work = e.work) :
    e'.Numbered := by
  intro l hl
  rw [h] at hl ⊢
  exact he l hl

theorem Serves.of_work {e e' : Enforcement} {batch : Nat} {plan : MigrationPlan}
    (he : e.Serves batch plan) (h : e'.work = e.work) : e'.Serves batch plan := by
  unfold Serves
  rw [h]
  exact he

theorem numbered_idle (timeout : Nat) : (idle timeout).Numbered := by
  intro l hl
  exact absurd hl (by simp [work, idle])

theorem Numbered.start {e : Enforcement} (he : e.Numbered) (plan : MigrationPlan) :
    (e.start plan).Numbered := by
  intro l hl
  rw [work_start] at hl ⊢
  rcases List.mem_append.1 hl with hl | hl
  · exact Nat.lt_succ_of_lt (he l hl)
  · obtain ⟨m, -, rfl⟩ := List.mem_map.1 hl
    exact Nat.lt_succ_self _

/-- The plan that is started gets a number of its own. -/
theorem Numbered.serves_start {e : Enforcement} (he : e.Numbered) (plan : MigrationPlan) :
    (e.start plan).Serves e.batches plan := by
  refine ⟨by rw [work_start]; exact Nat.lt_succ_self _, fun l hl hbatch => ?_⟩
  rw [work_start] at hl
  rcases List.mem_append.1 hl with hl | hl
  · exact absurd (hbatch ▸ he l hl) (Nat.lt_irrefl _)
  · obtain ⟨m, hm, rfl⟩ := List.mem_map.1 hl
    exact hm

/-- Starting another plan changes nothing about a plan that was started before. -/
theorem Serves.start {e : Enforcement} {batch : Nat} {plan : MigrationPlan}
    (h : e.Serves batch plan) (other : MigrationPlan) : (e.start other).Serves batch plan := by
  refine ⟨by rw [work_start]; exact Nat.lt_succ_of_lt h.1, fun l hl hbatch => ?_⟩
  rw [work_start] at hl
  rcases List.mem_append.1 hl with hl | hl
  · exact h.2 l hl hbatch
  · obtain ⟨m, -, rfl⟩ := List.mem_map.1 hl
    exact absurd (hbatch ▸ h.1) (Nat.lt_irrefl _)

/-- What a report lists is the result of a finished watch of its plan. -/
theorem exists_of_mem_report {e : Enforcement} {batch : Nat} {r : EnforcementReport}
    (hr : e.report? batch = some r) {x : MigrationResult} (hx : x ∈ r.results) :
    ∃ (i : Nat) (w : Watch), e.watches[i]? = some w ∧ w.batch = batch ∧ w.result? = some x := by
  unfold report? at hr
  split at hr
  · rw [← Option.some.inj hr] at hx
    obtain ⟨w, hw, hresult⟩ := List.mem_filterMap.1 (List.mem_mergeSort.1 hx)
    obtain ⟨hfinished, hbatch⟩ := List.mem_filter.1 hw
    obtain ⟨i, -, hi⟩ := List.mem_filterMap.1 hfinished
    exact ⟨i, w, hi, by simpa using hbatch, hresult⟩
  · exact absurd hr (by simp)

/-- A report lists migrations of its plan only. -/
theorem Serves.report {e : Enforcement} {batch : Nat} {plan : MigrationPlan}
    (h : e.Serves batch plan) {r : EnforcementReport} (hr : e.report? batch = some r) :
    ∀ x ∈ r.results, x.migration ∈ plan.moves := by
  intro x hx
  obtain ⟨i, w, hi, hbatch, hresult⟩ := exists_of_mem_report hr hx
  have hlabel : w.label ∈ e.work.1 := List.mem_map.2 ⟨w, List.mem_of_getElem? hi, rfl⟩
  have hmigration : x.migration = w.migration := by
    unfold Watch.result? at hresult
    split at hresult
    · rw [← Option.some.inj hresult]
    · exact absurd hresult (by simp)
  rw [hmigration]
  exact h.2 _ hlabel hbatch

end Enforcement

end ClusterControl
