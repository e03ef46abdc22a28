import ClusterControl.Proofs.Enforcement.Calls
import ClusterControl.Proofs.Enforcement.Handovers

/-!
# Every watch can come to its end

A host may stay silent for ever, but no watch is lost over it: once its deadline has passed it asks
for its copy to be suspended, and once that is answered it is over.  A watch that leaves the matter
to a signal has the mail that it waits for.

* `Watch.Alive` says that what a watch waits for can still come, and `Enforcement.Alive` that this
  holds of all watches of an engine.  Every act keeps it.
* `Stage.remaining` is how often a watch has to go on before it is over at the latest, and
  `Enforcement.Alive.exists_turn` says that it can.
-/

namespace ClusterControl

/-! ## Watches that can go on -/

namespace Watch

/-- What the watch waits for can still come.  One whose matter is decided has mail, unless it has
asked for its copy to be suspended. -/
def Alive (w : Watch) : Prop :=
  match w.stage with
  | .created | .starting .. | .running => w.terminated = true → w.mailbox.outcome?.isSome = true
  | .yielding => w.mailbox.outcome?.isSome = true
  | .suspending _ | .finished _ => True

variable {w : Watch}

theorem Alive.of_stage {s : Stage} (hs : w.stage = s)
    (h : (∃ answer, s = .suspending answer) ∨ ∃ o, s = .finished o) : w.Alive := by
  rw [Alive, hs]
  obtain ⟨answer, rfl⟩ | ⟨o, rfl⟩ := h
  · trivial
  · trivial

/-- A watch that waits can be given another stage at which it waits for the same. -/
theorem Alive.setStage (h : w.Alive) {s : Stage} (hw : w.stage = .created ∨ w.isUnderWay = true)
    (hs : { w with stage := s }.isUnderWay = true) : { w with stage := s }.Alive := by
  have hmail : w.terminated = true → w.mailbox.outcome?.isSome = true := by
    cases hstage : w.stage <;> simp_all [Alive, isUnderWay]
  cases s <;> simp_all [Alive, isUnderWay]

theorem Alive.close (h : w.Alive) : w.close.Alive := by
  unfold Watch.close
  split
  · unfold Alive at h ⊢
    split <;> simp_all [Mailbox.outcome?]
  · exact h

/-- A watch that has accepted a signal has mail. -/
theorem alive_sent (w : Watch) (success : Bool) :
    { w with terminated := true, mailbox := .sent success }.Alive := by
  unfold Alive
  split <;> simp [Mailbox.outcome_sent]

end Watch

namespace Enforcement

/-- All watches can go on. -/
def Alive (e : Enforcement) : Prop := ∀ w ∈ e.watches, w.Alive

variable {e e' : Enforcement} {now i : Nat} {w : Watch}

theorem Over.alive (h : e.Over) : e.Alive := by
  intro w hw
  have hfinished := h w hw
  unfold Watch.isFinished at hfinished
  split at hfinished
  · rename_i o hstage
    exact .of_stage hstage (.inr ⟨o, rfl⟩)
  · exact absurd hfinished (by simp)

theorem Alive.get (h : e.Alive) (hw : e.watches[i]? = some w) : w.Alive :=
  h w (List.mem_of_getElem? hw)

theorem Alive.modify (h : e.Alive) {f : Watch → Watch}
    (hf : ∀ w, e.watches[i]? = some w → (f w).Alive) : (e.modify i f).Alive := by
  intro w hw
  obtain ⟨j, hj⟩ := List.getElem?_of_mem hw
  by_cases hij : j = i
  · subst hij
    rw [Enforcement.modify, List.getElem?_modify_eq] at hj
    obtain ⟨v, hv, rfl⟩ := Option.map_eq_some_iff.1 hj
    exact hf v hv
  · rw [getElem?_modify_of_ne hij] at hj
    exact h.get hj

theorem Alive.drop (h : e.Alive) (vm : VmId) : (e.drop vm).Alive := by
  unfold Enforcement.drop
  split
  · have herased : ({ e with table := e.table.erase vm } : Enforcement).Alive := h
    exact herased.modify fun w hw => (h.get hw).close
  · exact h

theorem Alive.signal (h : e.Alive) (vm : VmId) (success : Bool) :
    (e.signal vm success).2.Alive := by
  unfold Enforcement.signal
  split
  · exact h
  · have htaken : ({ e with table := e.table.erase vm } : Enforcement).Alive := h
    dsimp only
    split
    · exact h
    · split
      · exact htaken.modify fun w hw => (h.get hw).close
      · exact htaken.modify fun w _ => w.alive_sent success

theorem Alive.finish (h : e.Alive) (w : Watch) (o : MigrationOutcome) :
    (e.finish i w o).Alive := by
  have hset : (e.setStage i (.finished o)).Alive :=
    h.modify fun w _ => .of_stage rfl (.inr ⟨o, rfl⟩)
  exact hset.drop w.migration.vm

theorem Alive.register (h : e.Alive) (hw : e.watches[i]? = some w) (hstage : w.stage = .created) :
    (e.register now i w).Alive := by
  have hdropped := h.drop w.migration.vm
  -- the watch may have been closed, but has not gone on
  have hsame : (e.drop w.migration.vm).stages[i]? = e.stages[i]? := by rw [stages_drop]
  unfold Enforcement.register
  generalize e.drop w.migration.vm = d at hdropped hsame
  have hentered : ({ d with table := d.table.insert w.migration.vm i } : Enforcement).Alive :=
    hdropped
  refine hentered.modify fun v hv => ?_
  rw [getElem?_stages, getElem?_stages, hw, show d.watches[i]? = some v from hv, Option.map_some,
    Option.map_some, hstage] at hsame
  exact (hdropped.get hv).setStage (s := .starting false none) (.inl (Option.some.inj hsame)) rfl

theorem Alive.force (h : e.Alive) (hw : e.watches[i]? = some w) (hunder : w.isUnderWay = true)
    (source : HostId) : (e.force i w source).engine.Alive := by
  unfold Enforcement.force
  split
  · rename_i hterm
    refine h.modify fun v hv => ?_
    rw [hw] at hv
    obtain rfl := Option.some.inj hv
    have hmail := h.get hw
    unfold Watch.isUnderWay at hunder
    unfold Watch.Alive at hmail ⊢
    split at hunder <;> simp_all
  · exact (h.modify (f := fun w => { w with terminated := true, stage := .suspending none })
      fun w _ => .of_stage rfl (.inl ⟨none, rfl⟩)).drop w.migration.vm

theorem Alive.setStage (h : e.Alive) (hw : e.watches[i]? = some w) {s : Stage}
    (hunder : w.isUnderWay = true) (hs : { w with stage := s }.isUnderWay = true) :
    (e.setStage i s).Alive := by
  refine h.modify fun v hv => ?_
  rw [hw] at hv
  obtain rfl := Option.some.inj hv
  exact (h.get hw).setStage (.inr hunder) hs

theorem Alive.settle (h : e.Alive) (hw : e.watches[i]? = some w) (hunder : w.isUnderWay = true)
    (r : Except ControlError MigrationStart) : (e.settle i w r).Alive := by
  unfold Enforcement.settle
  split
  · exact (h.setStage hw hunder rfl).signal w.migration.vm true
  · exact h.setStage hw hunder rfl
  · exact h.finish w _

theorem Alive.select (h : e.Alive) (hw : e.watches[i]? = some w) (hunder : w.isUnderWay = true)
    (source : HostId) (asked : Bool) (answer : Option (Except ControlError MigrationStart))
    (order : List Branch) : (e.select now i w source asked answer order).engine.Alive := by
  induction order with
  | nil => exact h
  | cons b rest ih =>
    cases b with
    | mail =>
      unfold Enforcement.select
      split
      · exact h.finish w _
      · exact ih
    | request =>
      unfold Enforcement.select
      split
      · exact h.settle hw hunder _
      · split
        · exact ih
        · exact h.setStage hw hunder rfl
    | deadline =>
      unfold Enforcement.select
      split
      · exact h.force hw hunder source
      · exact ih

theorem Alive.await (h : e.Alive) (hw : e.watches[i]? = some w) (hunder : w.isUnderWay = true)
    (source : HostId) (order : List Branch) : (e.await now i w source order).engine.Alive := by
  induction order with
  | nil => exact h
  | cons b rest ih =>
    cases b with
    | mail =>
      unfold Enforcement.await
      split
      · exact h.finish w _
      · exact ih
    | request => exact ih
    | deadline =>
      unfold Enforcement.await
      split
      · exact h.force hw hunder source
      · exact ih

theorem Alive.poll (h : e.Alive) (now i : Nat) (order : List Branch) :
    (e.poll now i order).engine.Alive := by
  unfold Enforcement.poll
  split
  · exact h
  · rename_i w hw
    split
    · split
      · exact h
      · exact h.finish w _
    · split
      · rename_i hstage
        exact h.register hw hstage
      · rename_i hstage
        exact h.select hw (by rw [Watch.isUnderWay, hstage]) _ _ _ order
      · rename_i hstage
        exact h.await hw (by rw [Watch.isUnderWay, hstage]) _ order
      · split
        · exact h.finish w _
        · exact h
      · exact h.finish w _
      · exact h.finish w _
      · exact h
      · exact h

theorem Alive.answerMigrate (h : e.Alive) {r : Except ControlError MigrationStart}
    (he : e.answerMigrate i r = some e') : e'.Alive := by
  obtain ⟨w, hw, hstage, rfl⟩ := exists_of_answerMigrate he
  exact h.setStage hw (by rw [Watch.isUnderWay, hstage]) rfl

theorem Alive.answerSuspend (h : e.Alive) {r : Except ControlError Unit}
    (he : e.answerSuspend i r = some e') : e'.Alive := by
  obtain ⟨w, hw, hstage, rfl⟩ := exists_of_answerSuspend he
  exact h.modify fun w _ => .of_stage rfl (.inl ⟨some r, rfl⟩)

theorem Alive.start (h : e.Alive) (plan : MigrationPlan) : (e.start plan).Alive := by
  intro w hw
  rcases List.mem_append.1 hw with hw | hw
  · exact h w hw
  · obtain ⟨m, -, rfl⟩ := List.mem_map.1 hw
    exact fun hterm => absurd hterm (by simp [Watch.create])

end Enforcement

/-! ## The way to the end -/

/-- How often a watch at this stage has to go on before it is over, at the latest, if it does not
wait for an answer of its destination or for mail. -/
def Stage.remaining : Stage → Nat
  | .created => 4
  | .starting .. => 3
  | .running => 3
  | .suspending none => 2
  | .suspending (some _) => 1
  | .yielding => 1
  | .finished _ => 0

namespace Enforcement

variable {e : Enforcement} {now i : Nat} {w : Watch}

/-- How often watches have to go on before all are over. -/
def remaining (e : Enforcement) : Nat := e.stages.foldr (fun s n => s.remaining + n) 0

/-- A watch that looks at its deadline when this has passed goes on. -/
theorem exists_force (hunder : w.isUnderWay = true) (source : HostId) : ∃ s : Stage,
    s.remaining < w.stage.remaining ∧ (e.force i w source).engine.stages = e.stages.set i s := by
  have hthree : w.stage.remaining = 3 := by
    unfold Watch.isUnderWay at hunder
    split at hunder <;> simp_all [Stage.remaining]
  unfold force
  split
  · exact ⟨.yielding, by rw [hthree, Stage.remaining]; simp, stages_setStage _⟩
  · refine ⟨.suspending none, by rw [hthree, Stage.remaining]; simp, ?_⟩
    exact (stages_drop _).trans (stages_modify_set i fun _ => rfl)

/-- An unfinished watch goes on when it looks around after its deadline, or when its source answers
that the copy is suspended. -/
theorem Alive.exists_turn (h : e.Alive) (hw : e.watches[i]? = some w)
    (hunfinished : w.isFinished = false) : ∃ s : Stage, s.remaining < w.stage.remaining ∧
      ((∀ now, w.deadline ≤ now →
        (e.poll now i [.deadline]).engine.stages = e.stages.set i s) ∨
      ∃ e', e.answerSuspend i (.ok ()) = some e' ∧ e'.stages = e.stages.set i s) := by
  have hpositive : ∀ o, Stage.remaining (.finished o) < w.stage.remaining := by
    intro o
    cases hstage : w.stage with
    | finished => exact absurd hunfinished (by simp [Watch.isFinished, hstage])
    | suspending answer => cases answer <;> simp [Stage.remaining]
    | _ => simp [Stage.remaining]
  cases hsource : w.migration.source with
  | none =>
    refine ⟨_, hpositive (.failed "virtual machine has no source host"), .inl fun now _ => ?_⟩
    simp only [Enforcement.poll, hw, hsource, hunfinished, Bool.false_eq_true, if_false, quiet,
      stages_finish]
  | some source =>
    have halive := h.get hw
    cases hstage : w.stage with
    | created =>
      refine ⟨.starting false none, by simp [Stage.remaining], .inl fun now _ => ?_⟩
      simp only [Enforcement.poll, hw, hsource, hstage, quiet, stages_register]
    | starting asked answer =>
      obtain ⟨s, hlt, hs⟩ := exists_force (e := e) (i := i) (w := w)
        (by rw [Watch.isUnderWay, hstage]) source
      refine ⟨s, hstage ▸ hlt, .inl fun now hdue => ?_⟩
      simpa only [Enforcement.poll, hw, hsource, hstage, Enforcement.select, hdue, if_true] using hs
    | running =>
      obtain ⟨s, hlt, hs⟩ := exists_force (e := e) (i := i) (w := w)
        (by rw [Watch.isUnderWay, hstage]) source
      refine ⟨s, hstage ▸ hlt, .inl fun now hdue => ?_⟩
      simpa only [Enforcement.poll, hw, hsource, hstage, Enforcement.await, hdue, if_true] using hs
    | yielding =>
      rw [Watch.Alive, hstage] at halive
      obtain ⟨o, ho⟩ := Option.isSome_iff_exists.1 halive
      refine ⟨_, hstage ▸ hpositive o, .inl fun now _ => ?_⟩
      simp only [Enforcement.poll, hw, hsource, hstage, ho, quiet, stages_finish]
    | suspending answer =>
      cases answer with
      | none =>
        refine ⟨.suspending (some (.ok ())), by simp [Stage.remaining],
          .inr ⟨_, ?_, stages_setStage _⟩⟩
        simp only [Enforcement.answerSuspend, hw, hstage]
      | some r =>
        cases r with
        | ok =>
          refine ⟨_, hstage ▸ hpositive .forcedSuspend, .inl fun now _ => ?_⟩
          simp only [Enforcement.poll, hw, hsource, hstage, quiet, stages_finish]
        | error err =>
          refine ⟨_, hstage ▸ hpositive (.failed ("forced suspend failed: " ++ err.message)),
            .inl fun now _ => ?_⟩
          simp only [Enforcement.poll, hw, hsource, hstage, quiet, stages_finish]
    | finished => exact absurd hunfinished (by simp [Watch.isFinished, hstage])

/-- Once a watch has gone on, less remains. -/
theorem remaining_lt {e' : Enforcement} (hw : e.watches[i]? = some w) {s : Stage}
    (hs : s.remaining < w.stage.remaining) (hstages : e'.stages = e.stages.set i s) :
    e'.remaining < e.remaining := by
  have hget : e.stages[i]? = some w.stage := by rw [getElem?_stages, hw, Option.map_some]
  rw [remaining, remaining, hstages]
  generalize e.stages = l at hget
  clear hw hstages
  induction l generalizing i with
  | nil => exact absurd hget (by simp)
  | cons x rest ih =>
    cases i with
    | zero =>
      obtain rfl : x = w.stage := by simpa using hget
      simpa using hs
    | succ i => simpa using ih (by simpa using hget)

/-- All watches are over, or one is left that can go on. -/
theorem over_or_exists (e : Enforcement) :
    e.Over ∨ ∃ (i : Nat) (w : Watch), e.watches[i]? = some w ∧ w.isFinished = false := by
  refine or_iff_not_imp_left.2 fun hover => ?_
  obtain ⟨w, hw⟩ := not_forall.1 hover
  obtain ⟨hmem, hunfinished⟩ := Classical.not_imp.1 hw
  obtain ⟨i, hw⟩ := List.getElem?_of_mem hmem
  exact ⟨i, w, hw, Bool.eq_false_iff.2 hunfinished⟩

/-- An engine whose watches are over has a report on every plan. -/
theorem Over.exists_report (h : e.Over) (batch : Nat) : ∃ r, e.report? batch = some r := by
  refine ⟨_, if_pos ?_⟩
  rw [List.all_eq_true]
  exact fun w hw => h w (List.mem_filter.1 hw).1

end Enforcement

end ClusterControl
