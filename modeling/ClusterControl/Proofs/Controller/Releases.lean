import ClusterControl.Proofs.Controller.Outcomes
import ClusterControl.Proofs.Program.Counts
import ClusterControl.Proofs.Program.Releases

/-!
# The count of released hosts

A reconfiguration counts the hosts that its plan releases, whatever comes of the plan; a resolution
counts them only if no migration has failed.

* `Controller.Counting.run` says that while a task runs alone, a series grows by what the program of
  the task counts.
* `Controller.released_counted` compares the count of released hosts with the hosts that have lost
  all their machines.
* `Controller.released_overcounted` are two reconfigurations that count too many.
-/

namespace ClusterControl

variable {α : Type}

namespace Controller

variable [Quantity α] {s s' : Controller α} {x : Series} {t : Nat}

/-! ## What a task counts -/

/-- A request adds to a series what it counts. -/
theorem metrics_perform (hx : ¬x.OfGate) {q : Request α} {r : q.Answer}
    (hs : s.perform q = some (r, s')) :
    s'.metrics.get x = s.metrics.get x + q.counts x := by
  have hbusy : x ≠ .busy := by
    rintro rfl
    exact hx trivial
  have hduration : ∀ a, Series.workflowDuration a ≠ x := by
    rintro a rfl
    exact hx trivial
  cases q with
  | host | enforce => cases hs
  | acquire a =>
    simp only [perform, acquire] at hs
    split at hs
    · rename_i hacquired
      obtain ⟨rfl, rfl⟩ := Prod.mk.inj (Option.some.inj hs)
      split at hacquired
      · exact absurd hacquired (by simp)
      · rw [← Option.some.inj hacquired]
        exact (Metrics.get_set _ x .busy 1).trans (if_neg hbusy)
    · obtain ⟨rfl, rfl⟩ := Prod.mk.inj (Option.some.inj hs)
      rfl
  | release a =>
    obtain ⟨rfl, rfl⟩ := Prod.mk.inj (Option.some.inj hs)
    refine (Metrics.get_set _ x .busy 0).trans ((if_neg hbusy).trans ?_)
    rw [Metrics.get_add, if_neg (hduration a)]
    rfl
  | setPhase e p =>
    obtain ⟨rfl, rfl⟩ := Prod.mk.inj (Option.some.inj hs)
    cases e <;> rfl
  | note n =>
    obtain ⟨rfl, rfl⟩ := Prod.mk.inj (Option.some.inj hs)
    cases n with
    | count y n => exact Metrics.get_add s.metrics x y n
    | event | health => rfl
  | _ =>
    obtain ⟨rfl, rfl⟩ := Prod.mk.inj (Option.some.inj hs)
    rfl

/-- The task goes on with its job to `Q` of what the series comes to by its end. -/
def Counting (s : Controller α) (x : Series) (t : Nat) (j : Job α) (Q : Nat → j.Result → Prop) :
    Prop :=
  ∃ p issued batch, s.tasks[t]? = some ⟨j, p, issued, batch⟩ ∧ p.Counts x (s.metrics.get x) Q

variable {j : Job α} {Q : Nat → j.Result → Prop}

omit [Quantity α] in
/-- The task goes on with an answer. -/
theorem Counting.proceed {p p' : Program α j.Result} {issued : Bool} {batch : Nat}
    (hget : s.tasks[t]? = some ⟨j, p', issued, batch⟩) (h : p.Counts x (s.metrics.get x) Q) :
    (s.proceed t ⟨j, p', issued, batch⟩ p).Counting x t j Q :=
  ⟨p, false, batch, List.getElem?_set_self (List.getElem?_eq_some_iff.1 hget).1, h⟩

omit [Quantity α] in
/-- Something has changed that the task does not count. -/
theorem Counting.same (h : s.Counting x t j Q) (htasks : s'.tasks = s.tasks)
    (hmetrics : s'.metrics = s.metrics) : s'.Counting x t j Q := by
  obtain ⟨p, issued, batch, hget, hcounts⟩ := h
  exact ⟨p, issued, batch, by rwa [htasks], by rwa [hmetrics]⟩

/-- What the task does next adds to the series what its program says. -/
theorem Counting.runTask (hx : ¬x.OfGate) {p : Program α j.Result} {issued : Bool} {batch : Nat}
    (hget : s.tasks[t]? = some ⟨j, p, issued, batch⟩) (h : p.Counts x (s.metrics.get x) Q)
    (hs : s.runTask t ⟨j, p, issued, batch⟩ = some s') : s'.Counting x t j Q := by
  have hlt : t < s.tasks.length := (List.getElem?_eq_some_iff.1 hget).1
  cases p with
  | done r => exact absurd hs (by simp [Controller.runTask])
  | call q next =>
    have hcounts := Program.counts_call.1 h
    cases q with
    | host q =>
      simp only [Controller.runTask] at hs
      split at hs
      · exact absurd hs (by simp)
      · rw [← Option.some.inj hs]
        exact ⟨_, _, _, List.getElem?_set_self hlt, h⟩
    | enforce e plan =>
      simp only [Controller.runTask] at hs
      split at hs
      · obtain ⟨r, -, rfl⟩ := Option.map_eq_some_iff.1 hs
        exact .proceed hget (hcounts r)
      · rw [← Option.some.inj hs]
        cases e <;> exact ⟨_, _, _, List.getElem?_set_self hlt, h⟩
    | _ =>
      simp only [Controller.runTask] at hs
      obtain ⟨⟨r, s₁⟩, hperform, rfl⟩ := Option.map_eq_some_iff.1 hs
      refine .proceed ?_ ?_
      · rwa [(perform_spec hperform).1]
      · rw [metrics_perform hx hperform]
        exact hcounts r

/-- A move of the task, of its engine, of hosts or of time adds to the series what the program of the
task says. -/
theorem Counting.step (hx : ¬x.OfGate) (h : s.Counting x t j Q) {m : Move α} (hm : m.Enforced t)
    (hs : s.step m = some s') : s'.Counting x t j Q := by
  cases m with
  | run u =>
    obtain rfl : u = t := hm
    obtain ⟨p, issued, batch, hget, hcounts⟩ := h
    obtain ⟨task', hget', hrun⟩ := Option.bind_eq_some_iff.1 hs
    rw [hget] at hget'
    obtain rfl := Option.some.inj hget'
    exact .runTask hx hget hcounts hrun
  | answer u a =>
    obtain rfl : u = t := hm
    obtain ⟨p, issued, batch, hget, hcounts⟩ := h
    obtain ⟨task', hget', hanswer⟩ := Option.bind_eq_some_iff.1 hs
    rw [hget] at hget'
    obtain rfl := Option.some.inj hget'
    unfold answerTask at hanswer
    split at hanswer
    · rename_i q next hprogram
      rw [show p = .call (.host q) next from hprogram, Program.counts_call] at hcounts
      split at hanswer
      · obtain ⟨r, -, rfl⟩ := Option.map_eq_some_iff.1 hanswer
        exact .proceed hget (hcounts r)
      · exact absurd hanswer (by simp)
    · exact absurd hanswer (by simp)
  | poll e i order =>
    rw [← Option.some.inj hs]
    unfold pollWatch
    dsimp only
    split <;> cases e <;> exact h.same rfl rfl
  | answerMigrate e i r | answerSuspend e i r =>
    obtain ⟨f, -, rfl⟩ := Option.map_eq_some_iff.1 hs
    cases e <;> exact h.same rfl rfl
  | signal e vm success =>
    rw [← Option.some.inj hs]
    cases e <;> exact h.same rfl rfl
  | elapse ms =>
    simp only [Controller.step] at hs
    split at hs
    · rw [← Option.some.inj hs]
      exact h.same rfl rfl
    · exact absurd hs (by simp)
  | _ => exact hm.elim

/-- While the task runs alone, the series grows by what its program counts. -/
theorem Counting.run (hx : ¬x.OfGate) (h : s.Counting x t j Q)
    (hs : Runs (fun _ m => m.Enforced t) s s') : s'.Counting x t j Q := by
  induction hs with
  | refl => exact h
  | step m _ hm moved ih => exact ih.step hx hm moved

/-- A job that has run alone has counted what its program says. -/
theorem counted_of_run (hx : ¬x.OfGate) {s₁ s₂ : Controller α} (hbegin : s.begin j = some s₁)
    (hrun : Runs (fun _ m => m.Enforced s.tasks.length) s₁ s₂) {r : j.Result}
    (hreturns : s₂.Returns s.tasks.length j r)
    (h : (j.program s.settings).Counts x (s.metrics.get x) Q) : Q (s₂.metrics.get x) r := by
  have hcounting : s₁.Counting x s.tasks.length j Q := by
    rw [begin_eq hbegin]
    exact ⟨_, _, _, List.getElem?_concat_length, h⟩
  obtain ⟨p, issued, batch, hget, hcounts⟩ := hcounting.run hx hrun
  obtain ⟨issued', batch', hget'⟩ := hreturns
  rw [hget'] at hget
  cases hget
  exact Program.counts_done.1 hcounts

/-! ## Released hosts -/

/-- While no other operation runs, a reconfiguration that found the gate open counts the hosts that
have lost all their machines, and beyond them the released hosts that a failed migration has held
back and those that had no machines before.  The resolution of an underloaded host counts exactly the
hosts that have lost all their machines. -/
theorem released_counted {s : Controller α} (hs : s.store.Consistent) (hbusy : s.busy = false)
    {timeout : Nat} (hrest : Enforcement.AtRest timeout s.own.enforcement) :
    (∀ s₁ s₂ r, s.begin .reconfigure = some s₁ →
      Runs (fun _ m => m.Enforced s.tasks.length) s₁ s₂ →
        s₂.Returns s.tasks.length .reconfigure r → ∃ report, r = .ok report ∧
          s₂.metrics.get .hostsReleased =
            s.metrics.get .hostsReleased + (s.store.vacated s₂.store).length +
              (Reconfiguration.released s.settings s.store).countP report.enforcement.holdsBack +
              (Reconfiguration.released s.settings s.store).countP fun id =>
                !s.store.occupied id) ∧
    ∀ host s₁ s₂ r, s.begin (.resolve host .underloaded) = some s₁ →
      Runs (fun _ m => m.Enforced s.tasks.length) s₁ s₂ →
        s₂.Returns s.tasks.length (.resolve host .underloaded) r →
          s₂.metrics.get .hostsReleased =
            s.metrics.get .hostsReleased + (s.store.vacated s₂.store).length := by
  have hx : ¬Series.hostsReleased.OfGate := id
  constructor
  · intro s₁ s₂ r hbegin hrun hreturns
    have hcounted := counted_of_run hx hbegin hrun hreturns (Reconfiguration.counts_run s.settings _)
    obtain ⟨-, hends⟩ := settles_of_run hs hbusy hrest (.inl rfl) hbegin hrun hreturns
    cases r with
    | error e => exact absurd hends id
    | ok report =>
      obtain ⟨hplan, hcarried⟩ := hends
      rw [hplan] at hcarried
      refine ⟨report, rfl, ?_⟩
      dsimp only at hcounted
      rw [hcounted, hplan, Reconfiguration.released_account hs hcarried, ← Nat.add_assoc,
        ← Nat.add_assoc]
      rfl
  · intro host s₁ s₂ r hbegin hrun hreturns
    obtain ⟨-, hends⟩ :=
      settles_of_run hs hbusy hrest (.inr ⟨host, .underloaded, rfl⟩) hbegin hrun hreturns
    have hcounted := counted_of_run hx hbegin hrun hreturns
      (Resolution.counts_run s.settings host .underloaded _)
    rw [hcounted]
    exact congrArg _ (Resolution.released_account hs hends)

/-- Both machines of the small host arrive. -/
def bothArrive : List (Move ℚ) :=
  let acts : List (Move ℚ) :=
    [.poll .own 0 [], .poll .own 1 [], .poll .own 0 Branch.all, .poll .own 1 Branch.all,
      .answerMigrate .own 0 (.ok .started), .answerMigrate .own 1 (.ok .started),
      .poll .own 0 Branch.all, .signal .own "x" true, .signal .own "w" true,
      .poll .own 1 Branch.all, .poll .own 0 Branch.all]
  List.replicate 7 (.run 0) ++ acts ++ List.replicate 15 (.run 0)

theorem enforced_bothArrive : ∀ m ∈ bothArrive, m.Enforced 0 := by
  simp [bothArrive, Move.Enforced]

theorem released_counted_of_crowded :
    (∃ s₁ s₂ report, (start .standard crowded).begin .reconfigure = some s₁ ∧
      Runs (fun _ m => m.Enforced 0) s₁ s₂ ∧ s₂.Returns 0 .reconfigure (.ok report) ∧
        s₂.metrics.get .hostsReleased = 0 + (crowded.vacated s₂.store).length +
          (Reconfiguration.released .standard crowded).countP report.enforcement.holdsBack +
            (Reconfiguration.released .standard crowded).countP fun id => !crowded.occupied id) ∧
    ∃ s₁ s₂ report, (start .standard crowded).begin (.resolve "a" .underloaded) = some s₁ ∧
      Runs (fun _ m => m.Enforced 0) s₁ s₂ ∧
        s₂.Returns 0 (.resolve "a" .underloaded) (.ok report) ∧
          s₂.metrics.get .hostsReleased = 0 + (crowded.vacated s₂.store).length := by
  have hcounted := released_counted (s := start .standard crowded) consistent_crowded rfl .idle
  constructor
  · have hend : (((start .standard crowded).replayed .reconfigure oneFailed).bind
        reconfigured).isSome = true := by
      cbv
    obtain ⟨report, hend⟩ := Option.isSome_iff_exists.1 hend
    obtain ⟨s₁, s₂, hbegin, hrun, hreturns⟩ := exists_of_reconfigured enforced_oneFailed hend
    obtain ⟨report', heq, hcount⟩ := hcounted.1 s₁ s₂ _ hbegin hrun hreturns
    obtain rfl := Except.ok.inj heq
    exact ⟨s₁, s₂, report, hbegin, hrun, hreturns, hcount⟩
  · have hend : (((start .standard crowded).replayed (.resolve "a" .underloaded) bothArrive).bind
        resolved).map (fun x => (x.1, x.2.1)) = some ("a", .underloaded) := by
      cbv
    obtain ⟨⟨host, state, report⟩, hend, hread⟩ := Option.map_eq_some_iff.1 hend
    obtain ⟨rfl, rfl⟩ : host = "a" ∧ state = .underloaded := by simpa using hread
    obtain ⟨s₁, s₂, hbegin, hrun, hreturns⟩ := exists_of_resolved enforced_bothArrive hend
    exact ⟨s₁, s₂, report, hbegin, hrun, hreturns, hcounted.2 "a" s₁ s₂ _ hbegin hrun hreturns⟩

/-- One machine on the first of three hosts. -/
def lone : Store ℚ :=
  let a : Store ℚ := Store.empty.addHost (.new "a" ⟨8, 8, 8, 8⟩ 1)
  let b := a.addHost (.new "b" ⟨8, 8, 8, 8⟩ 1)
  let c := b.addHost (.new "c" ⟨8, 8, 8, 8⟩ 1)
  (c.addVm ((Vm.new "v" ⟨2, 2, 2, 2⟩ 1).on "a")).2

theorem consistent_lone : lone.Consistent := by
  have hfresh : ∀ (s : Store ℚ) (id : HostId), s.Consistent →
      (s.addHost (.new id ⟨8, 8, 8, 8⟩ 1)).Consistent :=
    fun s id hs => hs.addHost (Store.admits_of_no_vms rfl)
  exact (hfresh _ "c" (hfresh _ "b" (hfresh _ "a" Store.consistent_empty))).addVm _

/-- The machine arrives where it is sent. -/
def oneArrives : List (Move ℚ) :=
  let acts : List (Move ℚ) :=
    [.poll .own 0 [], .poll .own 0 Branch.all, .answerMigrate .own 0 (.ok .started),
      .poll .own 0 Branch.all, .signal .own "v" true, .poll .own 0 Branch.all]
  List.replicate 3 (.run 0) ++ acts ++ List.replicate 9 (.run 0)

theorem enforced_oneArrives : ∀ m ∈ oneArrives, m.Enforced 0 := by
  simp [oneArrives, Move.Enforced]

/-- How many migrations of a reconfiguration have failed, what it has counted, and how many hosts
have lost all their machines. -/
def recounted (s : Controller ℚ) (moves : List (Move ℚ)) : Option (Nat × Nat × Nat) :=
  (s.begin .reconfigure).bind fun s₁ => (s₁.replay moves).bind fun s₂ =>
    (s₂.tasks[0]?.bind reconfigured).map fun r => (r.enforcement.failed,
      s₂.metrics.get .hostsReleased, (s.store.vacated s₂.store).length)

theorem exists_of_recounted {s : Controller ℚ} {moves : List (Move ℚ)}
    (hmoves : ∀ m ∈ moves, m.Enforced 0) {failed counted vacated : Nat}
    (h : s.recounted moves = some (failed, counted, vacated)) :
    ∃ s₁ s₂ r, s.begin .reconfigure = some s₁ ∧ Runs (fun _ m => m.Enforced 0) s₁ s₂ ∧
      s₂.Returns 0 .reconfigure (.ok r) ∧ r.enforcement.failed = failed ∧
        s₂.metrics.get .hostsReleased = counted ∧
          (s.store.vacated s₂.store).length = vacated := by
  obtain ⟨s₁, hbegin, h⟩ := Option.bind_eq_some_iff.1 h
  obtain ⟨s₂, hreplay, h⟩ := Option.bind_eq_some_iff.1 h
  obtain ⟨r, hread, h⟩ := Option.map_eq_some_iff.1 h
  obtain ⟨task, hget, hread⟩ := Option.bind_eq_some_iff.1 hread
  obtain ⟨hfailed, hcounted, hvacated⟩ : r.enforcement.failed = failed ∧
      s₂.metrics.get .hostsReleased = counted ∧ (s.store.vacated s₂.store).length = vacated := by
    simpa using h
  unfold reconfigured at hread
  split at hread
  · obtain rfl := Option.some.inj hread
    exact ⟨s₁, s₂, _, hbegin, runs_replay (fun _ => hmoves) hreplay, ⟨_, _, hget⟩, hfailed,
      hcounted, hvacated⟩
  · exact absurd hread (by simp)

/-- One host is counted that keeps a machine, since its migration failed; and one that never had a
machine, since the run has filled it and emptied it, without any failure. -/
theorem released_overcounted :
    (crowded.Consistent ∧ ∃ s₁ s₂ r, (start .standard crowded).begin .reconfigure = some s₁ ∧
      Runs (fun _ m => m.Enforced 0) s₁ s₂ ∧ s₂.Returns 0 .reconfigure (.ok r) ∧
        r.enforcement.failed = 1 ∧ s₂.metrics.get .hostsReleased = 1 ∧
          (crowded.vacated s₂.store).length = 0) ∧
    lone.Consistent ∧ ∃ s₁ s₂ r, (start .standard lone).begin .reconfigure = some s₁ ∧
      Runs (fun _ m => m.Enforced 0) s₁ s₂ ∧ s₂.Returns 0 .reconfigure (.ok r) ∧
        r.enforcement.failed = 0 ∧ s₂.metrics.get .hostsReleased = 2 ∧
          (lone.vacated s₂.store).length = 1 := by
  have hfailed : (start .standard crowded).recounted oneFailed = some (1, 1, 0) := by cbv
  have hfilled : (start .standard lone).recounted oneArrives = some (0, 2, 1) := by cbv
  exact ⟨⟨consistent_crowded, exists_of_recounted enforced_oneFailed hfailed⟩, consistent_lone,
    exists_of_recounted enforced_oneArrives hfilled⟩

end Controller

end ClusterControl
