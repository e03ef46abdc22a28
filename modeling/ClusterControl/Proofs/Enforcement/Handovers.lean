import ClusterControl.Proofs.Enforcement.Decisions

/-!
# Whether a request is handed over

A watch registers its machine and then looks for mail, for its deadline and for its request, in
whatever order.  Handing the request over is one of these things: a watch that finds mail or its
deadline first goes on without it.

* `Watch.finds` is what a watch finds first.
* `Watch.Opening` are the ways in which a watch goes on that has not handed its request over, as
  `Enforcement.opening_poll` says; a watch that has gone on never comes back
  (`Enforcement.later_poll`).
-/

namespace ClusterControl

/-- Nothing has come of the watch yet: it is registered at most, and its request is not handed
over. -/
def Stage.isFresh : Stage → Bool
  | .created => true
  | .starting false none => true
  | _ => false

/-- What a registered watch finds first when it looks around in the given order and can still hand
its request over. -/
def Watch.finds (w : Watch) (now : Nat) (order : List Branch) : Option Branch :=
  order.find? fun b =>
    match b with
    | .mail => w.mailbox.outcome?.isSome
    | .request => true
    | .deadline => w.deadline ≤ now

/-- How a watch goes on that has not handed its request over: its next stage, and what it asks
for. -/
inductive Watch.Opening (w : Watch) (now : Nat) (order : List Branch) : Stage → Option HostCall → Prop
  /-- A machine without a source cannot be migrated. -/
  | lapses (reason : String) (hsource : w.migration.source = none) :
    Opening w now order (.finished (.failed reason)) none
  | registers (hstage : w.stage = .created) : Opening w now order (.starting false none) none
  | rests (hstage : w.stage = .starting false none) (hfinds : w.finds now order = none) :
    Opening w now order (.starting false none) none
  | asks (hstage : w.stage = .starting false none) (hfinds : w.finds now order = some .request) :
    Opening w now order (.starting true none) (some (.migrate w.migration))
  /-- It goes on without its request, for good. -/
  | skips {b : Branch} {s : Stage} {call : Option HostCall} (hstage : w.stage = .starting false none)
    (hfinds : w.finds now order = some b) (hb : b ≠ .request) (hs : s.isFresh = false)
    (hcall : ∀ m, call ≠ some (.migrate m)) : Opening w now order s call

namespace Enforcement

/-- The stages of all watches. -/
def stages (e : Enforcement) : List Stage := e.watches.map Watch.stage

variable {e e' : Enforcement} {now i : Nat} {w : Watch}

/-! ## Stages -/

theorem getElem?_stages : e.stages[i]? = e.watches[i]?.map Watch.stage := List.getElem?_map

/-- What keeps the stage of every watch it changes keeps all stages. -/
theorem stages_modify (i : Nat) {f : Watch → Watch} (hf : ∀ w, (f w).stage = w.stage) :
    (e.modify i f).stages = e.stages := map_modify_of_eq hf e.watches i

/-- One watch comes to another stage. -/
theorem stages_modify_set (i : Nat) {f : Watch → Watch} {s : Stage} (hf : ∀ w, (f w).stage = s) :
    (e.modify i f).stages = e.stages.set i s := by
  rw [stages, stages, modify]
  dsimp only
  generalize e.watches = l
  induction l generalizing i with
  | nil => simp
  | cons w rest ih =>
    cases i with
    | zero => simp [hf]
    | succ i => simp [ih]

@[simp]
theorem stages_setStage (s : Stage) : (e.setStage i s).stages = e.stages.set i s :=
  stages_modify_set i fun _ => rfl

theorem stage_close (w : Watch) : w.close.stage = w.stage := by
  unfold Watch.close
  split <;> rfl

@[simp]
theorem stages_drop (vm : VmId) : (e.drop vm).stages = e.stages := by
  unfold drop
  split
  · exact stages_modify _ stage_close
  · rfl

@[simp]
theorem stages_signal (vm : VmId) (success : Bool) :
    (e.signal vm success).2.stages = e.stages := by
  unfold signal
  split
  · rfl
  · dsimp only
    split
    · rfl
    · split
      · exact stages_modify (e := { e with table := _ }) _ stage_close
      · exact stages_modify (e := { e with table := _ }) _ fun _ => rfl

@[simp]
theorem stages_finish (o : MigrationOutcome) :
    (e.finish i w o).stages = e.stages.set i (.finished o) :=
  (stages_drop (e := e.setStage i (.finished o)) _).trans (stages_setStage _)

@[simp]
theorem stages_register : (e.register now i w).stages = e.stages.set i (.starting false none) := by
  have hdropped : (e.drop w.migration.vm).stages = e.stages := stages_drop w.migration.vm
  rw [← hdropped]
  exact stages_modify_set i fun _ => rfl

/-- The watch has gone on to a stage at which it no longer hands its request over, and asks for
something else at most. -/
def Later (e : Enforcement) (i : Nat) (p : Progress) : Prop :=
  ∃ s, s.isFresh = false ∧ p.engine.stages = e.stages.set i s ∧ ∀ m, p.call ≠ some (.migrate m)

theorem later_quiet {s : Stage} (hs : s.isFresh = false) (h : e'.stages = e.stages.set i s) :
    e.Later i (quiet e') :=
  ⟨s, hs, h, by simp [quiet]⟩

/-- Nothing has happened to a watch that has gone on before. -/
theorem later_same (hw : e.watches[i]? = some w) (hlate : w.stage.isFresh = false) :
    e.Later i (quiet e) := by
  refine later_quiet hlate ?_
  have hget : e.stages[i]? = some w.stage := by rw [getElem?_stages, hw, Option.map_some]
  rw [← (List.getElem?_eq_some_iff.1 hget).2, List.set_getElem_self]

theorem later_force (source : HostId) : e.Later i (e.force i w source) := by
  unfold force
  split
  · exact later_quiet rfl (stages_setStage .yielding)
  · refine ⟨.suspending none, rfl, ?_, by simp⟩
    exact (stages_drop _).trans (stages_modify_set i fun _ => rfl)

theorem later_settle (r : Except ControlError MigrationStart) :
    e.Later i (quiet (e.settle i w r)) := by
  unfold settle
  split
  · exact later_quiet rfl ((stages_signal _ _).trans (stages_setStage .running))
  · exact later_quiet rfl (stages_setStage .running)
  · exact later_quiet rfl (stages_finish _)

/-! ## Before the request is handed over -/

/-- A registered watch acts on what it finds first. -/
theorem select_finds (source : HostId) (order : List Branch) :
    e.select now i w source false none order =
      match w.finds now order, w.mailbox.outcome? with
      | none, _ => quiet e
      | some .request, _ => ⟨e.setStage i (.starting true none), some (.migrate w.migration)⟩
      | some .mail, some o => quiet (e.finish i w o)
      | some .mail, none => quiet e
      | some .deadline, _ => e.force i w source := by
  induction order with
  | nil => rfl
  | cons b rest ih =>
    cases b with
    | mail =>
      cases hmail : w.mailbox.outcome? with
      | none => simpa [select, Watch.finds, hmail] using ih
      | some o => simp [select, Watch.finds, hmail]
    | request => simp [select, Watch.finds]
    | deadline =>
      by_cases hdue : w.deadline ≤ now
      · simp [select, Watch.finds, hdue]
      · simpa [select, Watch.finds, hdue] using ih

/-- Mail that is found has come. -/
theorem finds_mail {order : List Branch} (h : w.finds now order = some .mail) :
    ∃ o, w.mailbox.outcome? = some o := by
  have hmail := List.find?_some h
  exact Option.isSome_iff_exists.1 hmail

/-- A watch that has not handed its request over goes on in one of these ways. -/
theorem opening_poll (now : Nat) (hw : e.watches[i]? = some w) (hfresh : w.stage.isFresh = true)
    (order : List Branch) : ∃ s, (e.poll now i order).engine.stages = e.stages.set i s ∧
      w.Opening now order s (e.poll now i order).call := by
  have hsame : e.stages = e.stages.set i w.stage := by
    have hget : e.stages[i]? = some w.stage := by rw [getElem?_stages, hw, Option.map_some]
    rw [← (List.getElem?_eq_some_iff.1 hget).2, List.set_getElem_self]
  unfold poll
  rw [hw]
  dsimp only
  split
  · rename_i hsource
    have hunfinished : w.isFinished = false := by
      unfold Stage.isFresh at hfresh
      unfold Watch.isFinished
      split at hfresh <;> simp_all
    rw [if_neg (by simp [hunfinished])]
    exact ⟨_, stages_finish _, .lapses _ hsource⟩
  · rename_i source hsource
    unfold Stage.isFresh at hfresh
    split at hfresh
    · rename_i hstage
      simp only [hstage]
      exact ⟨_, stages_register, .registers hstage⟩
    · rename_i hstage
      simp only [hstage]
      rw [select_finds]
      split
      · rename_i hnone
        exact ⟨_, hstage ▸ hsame, .rests hstage hnone⟩
      · rename_i hrequest
        exact ⟨_, stages_setStage _, .asks hstage hrequest⟩
      · rename_i hmail _
        obtain ⟨s, hs, hstages, hcall⟩ := later_quiet (e := e) (i := i) rfl (stages_finish _)
        exact ⟨s, hstages, .skips hstage hmail (by simp) hs hcall⟩
      · rename_i hmail hnone
        obtain ⟨o, ho⟩ := finds_mail hmail
        rw [hnone] at ho
        exact absurd ho (by simp)
      · rename_i hdeadline
        obtain ⟨s, hs, hstages, hcall⟩ := later_force (e := e) (i := i) (w := w) source
        exact ⟨s, hstages, .skips hstage hdeadline (by simp) hs hcall⟩
    · exact absurd hfresh (by simp)

/-! ## After that -/

theorem later_select (hw : e.watches[i]? = some w) (hlate : w.stage.isFresh = false)
    (source : HostId) {asked : Bool} {answer : Option (Except ControlError MigrationStart)}
    (hstage : w.stage = .starting asked answer) (order : List Branch) :
    e.Later i (e.select now i w source asked answer order) := by
  induction order with
  | nil => exact later_same hw hlate
  | cons b rest ih =>
    cases b with
    | mail =>
      unfold select
      split
      · exact later_quiet rfl (stages_finish _)
      · exact ih
    | request =>
      unfold select
      split
      · exact later_settle _
      · split
        · exact ih
        · rename_i hasked
          rw [Bool.not_eq_true] at hasked
          subst hasked
          exact absurd hlate (by simp [hstage, Stage.isFresh])
    | deadline =>
      unfold select
      split
      · exact later_force source
      · exact ih

theorem later_await (hw : e.watches[i]? = some w) (hlate : w.stage.isFresh = false)
    (source : HostId) (order : List Branch) : e.Later i (e.await now i w source order) := by
  induction order with
  | nil => exact later_same hw hlate
  | cons b rest ih =>
    cases b with
    | mail =>
      unfold await
      split
      · exact later_quiet rfl (stages_finish _)
      · exact ih
    | request => exact ih
    | deadline =>
      unfold await
      split
      · exact later_force source
      · exact ih

/-- A watch that has gone on hands no request over. -/
theorem later_poll (now : Nat) (hw : e.watches[i]? = some w) (hlate : w.stage.isFresh = false)
    (order : List Branch) : e.Later i (e.poll now i order) := by
  unfold poll
  rw [hw]
  dsimp only
  split
  · split
    · exact later_same hw hlate
    · exact later_quiet rfl (stages_finish _)
  · split
    · rename_i hstage
      exact absurd hlate (by simp [hstage, Stage.isFresh])
    · rename_i hstage
      exact later_select hw hlate _ hstage order
    · exact later_await hw hlate _ order
    · split
      · exact later_quiet rfl (stages_finish _)
      · exact later_same hw hlate
    · exact later_quiet rfl (stages_finish _)
    · exact later_quiet rfl (stages_finish _)
    · exact later_same hw hlate
    · exact later_same hw hlate

/-! ## One watch and the acts of others -/

/-- A watch is found again with its migration, at the stage that is noted for its place. -/
theorem exists_of_work (hwork : e'.work = e.work) (hw : e.watches[i]? = some w) {s : Stage}
    (hs : e'.stages[i]? = some s) :
    ∃ w', e'.watches[i]? = some w' ∧ w'.migration = w.migration ∧ w'.stage = s := by
  obtain ⟨w', hw', rfl⟩ := Option.map_eq_some_iff.1 (getElem?_stages.symm.trans hs)
  have hlabel : (e'.watches.map Watch.label)[i]? = (e.watches.map Watch.label)[i]? :=
    congrArg (fun x => x.1[i]?) hwork
  rw [List.getElem?_map, List.getElem?_map, hw, hw'] at hlabel
  exact ⟨w', hw', congrArg Prod.snd (Option.some.inj hlabel), rfl⟩

/-- After a poll a watch is found again at its next stage. -/
theorem exists_of_poll (hw : e.watches[i]? = some w) {order : List Branch} {s : Stage}
    (hs : (e.poll now i order).engine.stages = e.stages.set i s) :
    ∃ w', (e.poll now i order).engine.watches[i]? = some w' ∧ w'.migration = w.migration ∧
      w'.stage = s := by
  refine exists_of_work (work_poll e now i order) hw ?_
  rw [hs]
  exact List.getElem?_set_self (by simpa [stages] using (List.getElem?_eq_some_iff.1 hw).1)

/-- From `e` to `e'` the watch at a place has not looked around: what can still hand its request over
is the same as before, and what has ended is as it was. -/
structure Passed (e e' : Enforcement) (i : Nat) : Prop where
  known : ∀ {w}, e.watches[i]? = some w → ∃ w', e'.watches[i]? = some w' ∧
    w'.migration = w.migration ∧ w'.stage.isFresh = w.stage.isFresh ∧
      (w.isFinished = true → w'.stage = w.stage)
  unknown : ∀ {w'}, e.watches[i]? = none → e'.watches[i]? = some w' → w'.stage = .created

/-- No watch has come, and the one at the place is at a stage as good as before. -/
theorem passed_of_work (hwork : e'.work = e.work)
    (hstage : ∀ {w}, e.watches[i]? = some w → ∃ s, e'.stages[i]? = some s ∧
      s.isFresh = w.stage.isFresh ∧ (w.isFinished = true → s = w.stage)) : Passed e e' i where
  known hw := by
    obtain ⟨s, hs, hfresh, hfinished⟩ := hstage hw
    obtain ⟨w', hw', hmigration, rfl⟩ := exists_of_work hwork hw hs
    exact ⟨w', hw', hmigration, hfresh, hfinished⟩
  unknown hnone hw' := by
    have hlength : e'.watches.length = e.watches.length := by
      simpa [work] using congrArg (fun x => x.1.length) hwork
    rw [List.getElem?_eq_none_iff, ← hlength, ← List.getElem?_eq_none_iff, hw'] at hnone
    exact absurd hnone (by simp)

theorem passed_of_stages (hwork : e'.work = e.work) (hstages : e'.stages = e.stages) (i : Nat) :
    Passed e e' i := by
  refine passed_of_work hwork fun {w} hw => ⟨w.stage, ?_, rfl, fun _ => rfl⟩
  rw [hstages, getElem?_stages, hw, Option.map_some]

theorem passed_rfl : Passed e e i := passed_of_stages rfl rfl i

theorem passed_signal (vm : VmId) (success : Bool) : Passed e (e.signal vm success).2 i :=
  passed_of_stages (work_signal e vm success) (stages_signal vm success) i

/-- A watch at another place looks around. -/
theorem passed_poll {j : Nat} (hij : i ≠ j) (order : List Branch) :
    Passed e (e.poll now j order).engine i := by
  refine passed_of_work (work_poll e now j order) fun {w} hw => ⟨w.stage, ?_, rfl, fun _ => rfl⟩
  have hsame : (e.poll now j order).engine.stages[i]? = e.stages[i]? := by
    cases hj : e.watches[j]? with
    | none => rw [poll, hj, quiet]
    | some x =>
      cases hfresh : x.stage.isFresh with
      | true =>
        obtain ⟨s, hs, -⟩ := opening_poll now hj hfresh order
        rw [hs, List.getElem?_set_ne hij.symm]
      | false =>
        obtain ⟨s, -, hs, -⟩ := later_poll now hj hfresh order
        rw [hs, List.getElem?_set_ne hij.symm]
  rw [hsame, getElem?_stages, hw, Option.map_some]

/-- A watch looks around and can still hand its request over, or it could not before. -/
theorem passed_poll_self (hw : e.watches[i]? = some w) {order : List Branch} {s : Stage}
    (hs : (e.poll now i order).engine.stages = e.stages.set i s)
    (hfresh : s.isFresh = w.stage.isFresh) : Passed e (e.poll now i order).engine i where
  known {x} hx := by
    rw [hw] at hx
    obtain rfl := Option.some.inj hx
    obtain ⟨w', hw', hmigration, rfl⟩ := exists_of_poll hw hs
    refine ⟨w', hw', hmigration, hfresh, fun hfinished => ?_⟩
    rw [poll_of_isFinished hw hfinished, quiet, hw] at hw'
    rw [Option.some.inj hw']
  unknown hnone := by
    rw [hw] at hnone
    exact absurd hnone (by simp)

/-- A watch under way is given an answer. -/
theorem passed_setStage {j : Nat} {x : Watch} (hx : e.watches[j]? = some x)
    (hunfinished : x.isFinished = false) (hlate : x.stage.isFresh = false) {s : Stage}
    (hs : s.isFresh = false) : Passed e (e.setStage j s) i := by
  refine passed_of_work (work_setStage e j s) fun {w} hw => ?_
  by_cases hij : j = i
  · subst hij
    rw [hx] at hw
    obtain rfl := Option.some.inj hw
    refine ⟨s, ?_, by rw [hs, hlate], fun hfinished => absurd hfinished (by simp [hunfinished])⟩
    rw [stages_setStage]
    exact List.getElem?_set_self (by simpa [stages] using (List.getElem?_eq_some_iff.1 hx).1)
  · refine ⟨w.stage, ?_, rfl, fun _ => rfl⟩
    rw [stages_setStage, List.getElem?_set_ne hij, getElem?_stages, hw, Option.map_some]

theorem passed_answerMigrate {j : Nat} {r : Except ControlError MigrationStart}
    (h : e.answerMigrate j r = some e') : Passed e e' i := by
  obtain ⟨x, hx, hstage, rfl⟩ := exists_of_answerMigrate h
  exact passed_setStage hx (by rw [Watch.isFinished, hstage]) (by rw [hstage]; rfl) rfl

theorem passed_answerSuspend {j : Nat} {r : Except ControlError Unit}
    (h : e.answerSuspend j r = some e') : Passed e e' i := by
  obtain ⟨x, hx, hstage, rfl⟩ := exists_of_answerSuspend h
  exact passed_setStage hx (by rw [Watch.isFinished, hstage]) (by rw [hstage]; rfl) rfl

/-- Another plan starts. -/
theorem passed_start (plan : MigrationPlan) : Passed e (e.start plan) i where
  known {w} hw := by
    refine ⟨w, ?_, rfl, rfl, fun _ => rfl⟩
    rw [start, List.getElem?_append_left (List.getElem?_eq_some_iff.1 hw).1, hw]
  unknown {w'} hnone hw' := by
    rw [start, List.getElem?_append_right (List.getElem?_eq_none_iff.1 hnone)] at hw'
    obtain ⟨m, -, rfl⟩ := List.mem_map.1 (List.mem_of_getElem? hw')
    rfl

end Enforcement

end ClusterControl
