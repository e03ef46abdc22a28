import ClusterControl.Proofs.Controller.Enforced
import ClusterControl.Proofs.Program.Outcomes
import ClusterControl.Proofs.Resource.Exact
import Mathlib

/-!
# The store after plans were carried out

A resolution or a reconfiguration that runs while no other operation does ends with a store that
agrees with its report.

* `Controller.settles_of_run` says what a resolution and a reconfiguration end with, whatever the
  hosts answer and whatever signals come in.
* `Controller.outcomes_committed` says where that leaves the machines: those of the plan are where
  their outcomes say, and nothing else has changed but the power of the hosts that were woken.

`Controller.replayed` is a whole run on the rationals, under settings that are given as texts.  It is
evaluated with the equations of the library, down to the bytes of a text.
-/

namespace ClusterControl

variable {α : Type}

namespace Controller

/-- The task has done its job, and `r` came of it. -/
def Returns (s : Controller α) (t : Nat) (j : Job α) (r : j.Result) : Prop :=
  ∃ issued batch, s.tasks[t]? = some ⟨j, .done r, issued, batch⟩

variable [Quantity α]

/-- What a job that ran alone ends with when it found the store `s`. -/
def Settles (c : Settings α) (s : Store α) (g : Scene α) : (j : Job α) → j.Result → Prop
  | .resolve host state, r => g.busy = false ∧ Resolution.Ends c s g.store host state r
  | .reconfigure, r => g.busy = false ∧ Reconfiguration.Ends c s g.store r
  | _, _ => True

/-- A resolution or a reconfiguration that begins while no other operation runs settles. -/
theorem settles_of_run {s s₁ s₂ : Controller α} (hs : s.store.Consistent) (hbusy : s.busy = false)
    {timeout : Nat} (hrest : Enforcement.AtRest timeout s.own.enforcement) {j : Job α}
    (hj : j = .reconfigure ∨ ∃ host state, j = .resolve host state) (hbegin : s.begin j = some s₁)
    (hrun : Runs (fun _ m => m.Enforced s.tasks.length) s₁ s₂) {r : j.Result}
    (hreturns : s₂.Returns s.tasks.length j r) : Settles s.settings s.store s₂.scene j r := by
  have hachieves : (j.program s.settings).Achieves s.settings s.scene fun g r =>
      Settles s.settings s.store g j r := by
    rcases hj with rfl | ⟨host, state, rfl⟩
    · exact Reconfiguration.achieves_run hs hbusy
    · exact Resolution.achieves_run hs hbusy host state
  obtain ⟨issued, batch, hget⟩ := hreturns
  exact ((course_of_begin hbegin hrest hachieves).run hrun).finished hget rfl

/-- After a reconfiguration that found the gate open, and after a resolution that succeeded, while
no other operation ran, the machines of the plan are where their outcomes say, and nothing else has
changed but the power of the hosts that were woken. -/
theorem outcomes_committed {s : Controller α} (hs : s.store.Consistent) (hbusy : s.busy = false)
    {timeout : Nat} (hrest : Enforcement.AtRest timeout s.own.enforcement) :
    (∀ s₁ s₂ r, s.begin .reconfigure = some s₁ →
      Runs (fun _ m => m.Enforced s.tasks.length) s₁ s₂ →
        s₂.Returns s.tasks.length .reconfigure r → s₂.busy = false ∧
          ∃ report, r = .ok report ∧
            Carried s.store s₂.store [] report.plan report.enforcement) ∧
    ∀ host state s₁ s₂ report, s.begin (.resolve host state) = some s₁ →
      Runs (fun _ m => m.Enforced s.tasks.length) s₁ s₂ →
        s₂.Returns s.tasks.length (.resolve host state) (.ok report) → s₂.busy = false ∧
          Carried s.store s₂.store report.woken report.plan report.enforcement := by
  constructor
  · intro s₁ s₂ r hbegin hrun hreturns
    obtain ⟨hopen, hends⟩ := settles_of_run hs hbusy hrest (.inl rfl) hbegin hrun hreturns
    cases r with
    | error e => exact absurd hends id
    | ok report => exact ⟨hopen, report, rfl, hends.2⟩
  · intro host state s₁ s₂ report hbegin hrun hreturns
    obtain ⟨hopen, hends⟩ :=
      settles_of_run hs hbusy hrest (.inr ⟨host, state, rfl⟩) hbegin hrun hreturns
    exact ⟨hopen, hends.2.2⟩

/-- A small host with two machines, a host that one machine keeps busy, and a passive host. -/
def crowded : Store ℚ :=
  let small : Store ℚ := Store.empty.addHost (.new "a" ⟨3, 3, 3, 3⟩ 1)
  let both := small.addHost (.new "b" ⟨8, 8, 8, 8⟩ 1)
  let hosts := both.addHost ((Host.new "p" ⟨8, 8, 8, 8⟩ 1).withStatus .passive)
  let v := ((Vm.new "v" ⟨2, 2, 2, 2⟩ 1).observe ⟨0, ⟨8, 8, 8, 8⟩⟩).on "b"
  (((hosts.addVm v).2.addVm ((Vm.new "w" ⟨1, 1, 1, 1⟩ 1).on "a")).2.addVm
    ((Vm.new "x" ⟨1, 1, 1, 1⟩ 1).on "a")).2

theorem consistent_crowded : crowded.Consistent := by
  have hsmall : (Store.empty.addHost (Host.new "a" (⟨3, 3, 3, 3⟩ : Resources ℚ) 1)).Consistent :=
    Store.consistent_empty.addHost (Store.admits_of_no_vms rfl)
  have hboth := hsmall.addHost (h := .new "b" ⟨8, 8, 8, 8⟩ 1) (Store.admits_of_no_vms rfl)
  have hhosts := hboth.addHost (h := (Host.new "p" ⟨8, 8, 8, 8⟩ 1).withStatus .passive)
    (Store.admits_of_no_vms rfl)
  exact ((hhosts.addVm _).addVm _).addVm _

/-- Both machines of the small host are sent away; one arrives, and the other one is reported to
have failed. -/
def oneFailed : List (Move ℚ) :=
  let acts : List (Move ℚ) :=
    [.poll .own 0 [], .poll .own 1 [], .poll .own 0 Branch.all, .poll .own 1 Branch.all,
      .answerMigrate .own 0 (.ok .started), .answerMigrate .own 1 (.ok .started),
      .poll .own 0 Branch.all, .signal .own "x" false, .signal .own "w" true,
      .poll .own 1 Branch.all, .poll .own 0 Branch.all]
  List.replicate 3 (.run 0) ++ acts ++ List.replicate 12 (.run 0)

/-- The passive host is woken, and the machine that is sent there is late. -/
def oneLate : List (Move ℚ) :=
  let woken : List (Move ℚ) := List.replicate 7 (.run 0) ++ [.answer 0 (.done (.ok ()))]
  let acts : List (Move ℚ) :=
    [.poll .own 0 [], .poll .own 0 Branch.all, .elapse 1000000, .poll .own 0 Branch.all,
      .answerSuspend .own 0 (.ok ()), .poll .own 0 []]
  woken ++ List.replicate 4 (.run 0) ++ acts ++ List.replicate 10 (.run 0)

/-- What has become of the first task when a job was begun and the moves were made. -/
def replayed (s : Controller ℚ) (j : Job ℚ) (moves : List (Move ℚ)) : Option (Task ℚ) :=
  (s.begin j).bind fun s₁ => (s₁.replay moves).bind fun s₂ => s₂.tasks[0]?

theorem exists_of_replayed {s : Controller ℚ} {j : Job ℚ} {moves : List (Move ℚ)} {task : Task ℚ}
    (h : s.replayed j moves = some task) :
    ∃ s₁ s₂, s.begin j = some s₁ ∧ s₁.replay moves = some s₂ ∧ s₂.tasks[0]? = some task := by
  obtain ⟨s₁, hbegin, h⟩ := Option.bind_eq_some_iff.1 h
  obtain ⟨s₂, hreplay, hget⟩ := Option.bind_eq_some_iff.1 h
  exact ⟨s₁, s₂, hbegin, hreplay, hget⟩

/-- The report of a reconfiguration that has come to its end. -/
def reconfigured : Task ℚ → Option ReconfigurationReport
  | ⟨.reconfigure, .done (.ok r), _, _⟩ => some r
  | _ => none

theorem exists_of_reconfigured {s : Controller ℚ} {moves : List (Move ℚ)}
    (hmoves : ∀ m ∈ moves, m.Enforced 0) {r : ReconfigurationReport}
    (h : (s.replayed .reconfigure moves).bind reconfigured = some r) :
    ∃ s₁ s₂, s.begin .reconfigure = some s₁ ∧ Runs (fun _ m => m.Enforced 0) s₁ s₂ ∧
      s₂.Returns 0 .reconfigure (.ok r) := by
  obtain ⟨task, htask, hread⟩ := Option.bind_eq_some_iff.1 h
  obtain ⟨s₁, s₂, hbegin, hreplay, hget⟩ := exists_of_replayed htask
  unfold reconfigured at hread
  split at hread
  · obtain rfl := Option.some.inj hread
    exact ⟨s₁, s₂, hbegin, runs_replay (fun _ => hmoves) hreplay, _, _, hget⟩
  · exact absurd hread (by simp)

/-- The report of a resolution that has succeeded, with what it was asked to resolve. -/
def resolved : Task ℚ → Option (HostId × LoadState × ResolutionReport)
  | ⟨.resolve host state, .done (.ok r), _, _⟩ => some (host, state, r)
  | _ => none

theorem replay_of_resolved {s : Controller ℚ} {host : HostId} {state : LoadState}
    {moves : List (Move ℚ)} {r : ResolutionReport}
    (h : (s.replayed (.resolve host state) moves).bind resolved = some (host, state, r)) :
    ∃ s₁ s₂, s.begin (.resolve host state) = some s₁ ∧ s₁.replay moves = some s₂ ∧
      s₂.Returns 0 (.resolve host state) (.ok r) := by
  obtain ⟨task, htask, hread⟩ := Option.bind_eq_some_iff.1 h
  obtain ⟨s₁, s₂, hbegin, hreplay, hget⟩ := exists_of_replayed htask
  unfold resolved at hread
  split at hread
  · cases hread
    exact ⟨s₁, s₂, hbegin, hreplay, _, _, hget⟩
  · exact absurd hread (by simp)

theorem exists_of_resolved {s : Controller ℚ} {host : HostId} {state : LoadState}
    {moves : List (Move ℚ)} (hmoves : ∀ m ∈ moves, m.Enforced 0) {r : ResolutionReport}
    (h : (s.replayed (.resolve host state) moves).bind resolved = some (host, state, r)) :
    ∃ s₁ s₂, s.begin (.resolve host state) = some s₁ ∧ Runs (fun _ m => m.Enforced 0) s₁ s₂ ∧
      s₂.Returns 0 (.resolve host state) (.ok r) := by
  obtain ⟨s₁, s₂, hbegin, hreplay, hreturns⟩ := replay_of_resolved h
  exact ⟨s₁, s₂, hbegin, runs_replay (fun _ => hmoves) hreplay, hreturns⟩

theorem enforced_oneFailed : ∀ m ∈ oneFailed, m.Enforced 0 := by
  simp [oneFailed, Move.Enforced]

theorem enforced_oneLate : ∀ m ∈ oneLate, m.Enforced 0 := by
  simp [oneLate, Move.Enforced]

theorem outcomes_committed_of_crowded :
    (∃ s₁ s₂ report, (start .standard crowded).begin .reconfigure = some s₁ ∧
      Runs (fun _ m => m.Enforced 0) s₁ s₂ ∧ s₂.Returns 0 .reconfigure (.ok report) ∧
        report.enforcement.results = [⟨⟨"w", some "a", "b"⟩, .migrated⟩, ⟨⟨"x", some "a", "b"⟩,
          .failed "migration reported failure"⟩] ∧
          s₂.busy = false ∧ Carried crowded s₂.store [] report.plan report.enforcement) ∧
    ∃ s₁ s₂ report, (start .standard crowded).begin (.resolve "b" .overloaded) = some s₁ ∧
      Runs (fun _ m => m.Enforced 0) s₁ s₂ ∧
        s₂.Returns 0 (.resolve "b" .overloaded) (.ok report) ∧
          report.enforcement.results = [⟨⟨"v", some "b", "p"⟩, .forcedSuspend⟩] ∧
            s₂.busy = false ∧ Carried crowded s₂.store ["p"] report.plan report.enforcement := by
  have hcommitted := outcomes_committed (s := start .standard crowded) consistent_crowded rfl .idle
  constructor
  · have hend : (((start .standard crowded).replayed .reconfigure oneFailed).bind
        reconfigured).map (fun r => r.enforcement.results) =
          some [⟨⟨"w", some "a", "b"⟩, .migrated⟩,
            ⟨⟨"x", some "a", "b"⟩, .failed "migration reported failure"⟩] := by
      cbv
    obtain ⟨report, hend, hresults⟩ := Option.map_eq_some_iff.1 hend
    obtain ⟨s₁, s₂, hbegin, hrun, hreturns⟩ := exists_of_reconfigured enforced_oneFailed hend
    obtain ⟨hopen, report', heq, hcarried⟩ := hcommitted.1 s₁ s₂ _ hbegin hrun hreturns
    obtain rfl := Except.ok.inj heq
    exact ⟨s₁, s₂, report, hbegin, hrun, hreturns, hresults, hopen, hcarried⟩
  · have hend : (((start .standard crowded).replayed (.resolve "b" .overloaded) oneLate).bind
        resolved).map (fun x => (x.1, x.2.1, x.2.2.woken, x.2.2.enforcement.results)) =
          some ("b", .overloaded, ["p"], [⟨⟨"v", some "b", "p"⟩, .forcedSuspend⟩]) := by
      cbv
    obtain ⟨⟨host, state, report⟩, hend, hread⟩ := Option.map_eq_some_iff.1 hend
    obtain ⟨rfl, rfl, hwoken, hresults⟩ : host = "b" ∧ state = .overloaded ∧
        report.woken = ["p"] ∧
          report.enforcement.results = [⟨⟨"v", some "b", "p"⟩, .forcedSuspend⟩] := by
      simpa using hread
    obtain ⟨s₁, s₂, hbegin, hrun, hreturns⟩ := exists_of_resolved enforced_oneLate hend
    obtain ⟨hopen, hcarried⟩ := hcommitted.2 _ _ s₁ s₂ report hbegin hrun hreturns
    rw [hwoken] at hcarried
    exact ⟨s₁, s₂, report, hbegin, hrun, hreturns, hresults, hopen, hcarried⟩

end Controller

end ClusterControl
