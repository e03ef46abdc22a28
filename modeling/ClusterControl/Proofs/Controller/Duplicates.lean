import ClusterControl.Proofs.Controller.Submissions
import ClusterControl.Proofs.Program.Duplicates
import ClusterControl.Proofs.Store.Registration

/-!
# Submitting machines that hosts have

A store that is built from hosts may have records that lie on a host and name none.  To a submission
such a machine is a new one.

* `Submission.Treats` says what becomes of a machine that a host has, given its record.
* `Controller.submission_treats` says so of every submission that runs alone on a store that was
  built from hosts, and that it comes to its end.
-/

namespace ClusterControl

variable {α : Type}

namespace Submission

/-- A machine that a host has is taken when its record names a host, whichever. -/
theorem taken_ofHosts {hosts : List (Host α)} (hosts' : Host.Distinct hosts) {h : Host α}
    (hh : h ∈ hosts) {v : VmId} {w : Vm α} (hw : h.vms.get? v = some w) :
    taken (.ofHosts hosts) v = w.isAssigned := by
  have hrecord : ((Store.ofHosts hosts).hosts.get? h.id).bind (fun h => h.vms.get? v) = some w :=
    Store.recordOn_ofHosts hosts' hh hw
  rw [taken, Store.vm?, Store.hostOf, Store.index_ofHosts hosts' hh hw]
  simp only [hrecord, Option.any_some]

/-- What a submission does about a machine that is recorded as `w` on a host, when it finds the
store `s`, leaves the store `s'` and answers `r`. -/
structure Treats (s s' : Store α) (vms : List (Vm α)) (r : SubmissionResponse) (host : HostId)
    (v : VmId) (w : Vm α) : Prop where
  /-- When the record names a host, every entry with the id is refused as a duplicate. -/
  refused : w.isAssigned = true →
    r.failed.count ⟨v, .duplicateId⟩ = (vms.map Vm.id).count v
  /-- Then nothing changes about the machine, nor does it when it is not in the batch. -/
  kept : w.isAssigned = true ∨ v ∉ vms.map Vm.id → s.SameOf s' v
  /-- When the record names no host, one of the entries with the id is taken for a new machine. -/
  accepted : w.isAssigned = false → v ∈ vms.map Vm.id →
    r.failed.count ⟨v, .duplicateId⟩ + 1 = (vms.map Vm.id).count v
  /-- Then the host does not keep the record. -/
  supplanted : w.isAssigned = false → v ∈ vms.map Vm.id → s'.recordOn host v ≠ some w

theorem Books.perm {s s' : Store α} {t t' : Tally} {ids ids' : List VmId}
    (h : Books s t ids s' t') (hids : ids.Perm ids') : Books s t ids' s' t' :=
  ⟨fun v hv => h.others v fun hmem => hv (hids.mem_iff.1 hmem),
    fun v hv => h.supplanted v (hids.mem_iff.2 hv),
    h.answered.trans (hids.append_left t.ids), h.duplicates⟩

/-- How often an id was refused can be read off the tally of refused duplicates. -/
theorem count_duplicates (t : Tally) (v : VmId) :
    t.failed.count ⟨v, .duplicateId⟩ = t.duplicates.count ⟨v, .duplicateId⟩ := by
  rw [Tally.duplicates, List.count_filter (by simp)]

/-- What is recorded after the duplicates of a batch were refused. -/
structure Books.Batch (s s' : Store α) (vms : List (Vm α)) (r : SubmissionResponse) : Prop where
  answered : (r.placed.map PlacedVm.vm ++ r.failed.map FailedVm.vm).Perm (vms.map Vm.id)
  refused : ∀ v, r.failed.count ⟨v, .duplicateId⟩ = (Submission.refused s [] vms).count v
  others : ∀ v, v ∉ (chosen s [] vms).map Vm.id → s.SameOf s' v
  supplanted : ∀ v ∈ (chosen s [] vms).map Vm.id, ∀ p u, s.index.get? v = some p →
    s'.recordOn p v = some u → u.isAssigned = true

theorem Books.batch {s s' : Store α} {vms : List (Vm α)} {t t' : Tally}
    (h : Books s t ((chosen s [] vms).map Vm.id) s' t') (hplaced : t.placed = [])
    (hfailed : t.failed = (Submission.refused s [] vms).map (⟨·, .duplicateId⟩)) (task : TaskId) :
    Books.Batch s s' vms ⟨task, t'.placed, t'.failed⟩ := by
  have hrefused : t.failed.map FailedVm.vm = Submission.refused s [] vms := by
    rw [hfailed, List.map_map]
    exact List.map_id _
  have hids : t.ids = Submission.refused s [] vms := by
    rw [Tally.ids, hplaced, List.map_nil, List.nil_append, hrefused]
  refine ⟨?_, fun v => ?_, h.others, h.supplanted⟩
  · have hall := h.answered
    rw [hids] at hall
    exact hall.trans (List.perm_append_comm.trans (perm_chosen_refused s [] vms))
  · have hinjective : Function.Injective fun v : VmId => (⟨v, .duplicateId⟩ : FailedVm) :=
      fun a b hab => congrArg FailedVm.vm hab
    rw [count_duplicates t' v, h.duplicates, ← count_duplicates, hfailed]
    exact List.count_map_of_injective _ _ hinjective v

/-- What becomes of a machine on a host follows from what becomes of the batch. -/
theorem Books.Batch.treats {hosts : List (Host α)} (hosts' : Host.Distinct hosts) {s' : Store α}
    {vms : List (Vm α)} {r : SubmissionResponse} (hbatch : Books.Batch (.ofHosts hosts) s' vms r)
    {h : Host α} (hh : h ∈ hosts) {v : VmId} {w : Vm α} (hw : h.vms.get? v = some w) :
    Treats (.ofHosts hosts) s' vms r h.id v w := by
  have htaken := taken_ofHosts hosts' hh hw
  refine ⟨fun hassigned => ?_, fun hkept => hbatch.others v fun hmem => ?_, fun hfree hv => ?_,
    fun hfree hv hstill => ?_⟩
  · rw [hbatch.refused]
    by_cases hv : v ∈ vms.map Vm.id
    · have hcount := count_refused (.ofHosts hosts) hv
      rwa [htaken, if_pos hassigned, Nat.add_zero] at hcount
    · rw [count_refused_of_not_mem _ hv, List.count_eq_zero_of_not_mem hv]
  · obtain ⟨x, hx, rfl⟩ := List.mem_map.1 hmem
    obtain ⟨-, hnot, vm, hfind, heq⟩ := of_mem_chosen hx
    obtain hassigned | hv := hkept
    · rw [htaken, hassigned] at hnot
      exact absurd hnot (by simp)
    · refine hv ?_
      have hin : vm.id ∈ vms.map Vm.id := List.mem_map_of_mem (List.mem_of_find?_eq_some hfind)
      rw [heq]
      exact hin
  · have hcount := count_refused (.ofHosts hosts) hv
    rwa [htaken, hfree, if_neg (by simp), ← hbatch.refused] at hcount
  · have hchosen : v ∈ (chosen (.ofHosts hosts) [] vms).map Vm.id :=
      mem_chosen_ids hv List.not_mem_nil (htaken.trans hfree)
    have hassigned := hbatch.supplanted v hchosen h.id w (Store.index_ofHosts hosts' hh hw) hstill
    rw [hfree] at hassigned
    exact absurd hassigned (by simp)

variable [Quantity α] {c : Settings α} {g : Scene α}

/-- A submission that runs alone refuses the duplicates of its batch and records the rest. -/
theorem leads_batch (task : TaskId) (vms : List (Vm α)) :
    (run c.estimator.window task vms).Leads c g fun g' r => r.task = task ∧
      Books.Batch g.store g'.store vms r := by
  refine Program.leads_bind.2 ((leads_sift [] .empty vms).mono ?_)
  rintro g ⟨_, t⟩ ⟨rfl, rfl, hplaced, hfailed⟩
  refine Program.leads_bind.2 ((leads_candidates _).mono ?_)
  rintro g _ ⟨rfl, rfl⟩
  refine Program.leads_bind.2 (Program.leads_place.2 ?_)
  have hperm := @perm_plan α _ c g.cursor g.store vms
  have hnew := hperm.nodup_iff.2 (nodup_chosen g.store [] vms)
  obtain ⟨hshares, hleft, -⟩ := List.nodup_append.1 hnew
  refine Program.leads_bind.2 ((leads_startShares t hshares).mono fun g₁ t₁ hfirst => ?_)
  refine Program.leads_bind.2 ((leads_recordUnassigned t₁ hleft).mono fun g₂ t₂ hrest => ?_)
  refine Program.leads_bind.2 (Program.leads_count.2 (Program.leads_bind.2
    (Program.leads_count.2 (Program.leads_pure.2 ⟨rfl, ?_⟩))))
  exact ((hfirst.trans hrest hnew).perm hperm).batch hplaced hfailed task

/-- It files its response, and gives the gate back. -/
theorem leads_finish_batch (task : TaskId) (vms : List (Vm α)) :
    (finish c.estimator.window task vms).Leads c g fun g' _ => g'.busy = false ∧
      ∃ r, g'.submissions.get? task = some r ∧ r.task = task ∧
        Books.Batch g.store g'.store vms r := by
  refine Program.leads_bind.2 ((leads_batch task vms).mono ?_)
  rintro g' r ⟨htask, hbatch⟩
  refine Program.leads_bind.2 (Program.leads_ask.2 (Program.leads_ask.2 ⟨rfl, r, ?_, htask,
    hbatch⟩))
  rw [SortedMap.get?_insert, if_pos htask.symm]

end Submission

namespace Controller

variable [Quantity α]

/-- A submission that is accepted on a store that was built from hosts, while no other operation
runs, comes to its end, whatever the hosts answer.  By then every entry has its answer.  A machine
that was on a host is refused as a duplicate and left as it was if its record named a host; if the
record named none, one of its entries is taken for a new machine that takes its place. -/
theorem submission_treats {s s₁ : Controller α} {hosts : List (Host α)}
    (hosts' : Host.Distinct hosts) (hstore : s.store = .ofHosts hosts) {task : TaskId}
    {vms : List (Vm α)} (hsubmit : s.submit task vms = some s₁) :
    (∀ s₂, Runs (fun _ m => m.Alone s.tasks.length) s₁ s₂ →
      ∃ s₃, Runs (fun _ m => m.Alone s.tasks.length) s₂ s₃ ∧ s₃.Finished s.tasks.length) ∧
    ∀ s₂, Runs (fun _ m => m.Alone s.tasks.length) s₁ s₂ → s₂.Finished s.tasks.length →
      s₂.busy = false ∧ ∃ r, s₂.submissions.get? task = some r ∧ r.task = task ∧
        (r.placed.map PlacedVm.vm ++ r.failed.map FailedVm.vm).Perm (vms.map Vm.id) ∧
          ∀ h ∈ hosts, ∀ v w, h.vms.get? v = some w →
            Submission.Treats s.store s₂.store vms r h.id v w := by
  have hleads := Leads.of_submit hsubmit (Submission.leads_finish_batch task vms)
  refine ⟨fun s₂ hrun => (hleads.run hrun).exists_finished, fun s₂ hrun hend => ?_⟩
  obtain ⟨hbusy, r, hfiled, htask, hbatch⟩ := (hleads.run hrun).of_finished hend
  have hfrom : Submission.Books.Batch (.ofHosts hosts) s₂.store vms r := hstore ▸ hbatch
  refine ⟨hbusy, r, hfiled, htask, hfrom.answered, fun h hh v w hw => ?_⟩
  rw [hstore]
  exact hfrom.treats hosts' hh hw

/-- A host with two machines, of which the second has a record that names no host. -/
def careless : Host ℚ :=
  { Host.new "h" ⟨4, 4, 4, 4⟩ 1 with
    vms := (SortedMap.empty.insert "x" ((Vm.new "x" ⟨1, 1, 1, 1⟩ 1).on "h")).insert "y"
      (Vm.new "y" ⟨1, 1, 1, 1⟩ 1) }

theorem distinct_careless : Host.Distinct [careless] := by
  refine ⟨by simp, fun {h} hh {v w} hw => ?_, fun {h k} hh hk {v} _ _ => ?_⟩
  · rw [List.mem_singleton.1 hh, careless, SortedMap.get?_insert, SortedMap.get?_insert,
      SortedMap.get?_empty] at hw
    by_cases hy : v = "y"
    · rw [if_pos hy] at hw
      rw [← Option.some.inj hw, hy]
      rfl
    · by_cases hx : v = "x"
      · rw [if_neg hy, if_pos hx] at hw
        rw [← Option.some.inj hw, hx]
        rfl
      · rw [if_neg hy, if_neg hx] at hw
        exact absurd hw (by simp)
  · rw [List.mem_singleton.1 hh, List.mem_singleton.1 hk]

/-- Both machines are submitted again, larger than before. -/
def again : List (Vm ℚ) := [.new "x" ⟨2, 2, 2, 2⟩ 1, .new "y" ⟨2, 2, 2, 2⟩ 1]

/-- The submission runs to its end, and the host starts what it is asked to. -/
def startAgain : List (Move ℚ) :=
  List.replicate 6 (.run 0) ++ [.answer 0 (.started (.ok ["y"]))] ++ List.replicate 6 (.run 0)

theorem alone_startAgain : ∀ m ∈ startAgain, Move.Alone 0 m := by
  intro m hm
  simp only [startAgain, List.append_assoc, List.mem_append, List.mem_singleton,
    List.mem_replicate] at hm
  rcases hm with ⟨-, rfl⟩ | rfl | ⟨-, rfl⟩ <;> rfl

/-- What the submission answers, and the record that it leaves of the second machine. -/
theorem replay_startAgain :
    (((start .standard (.ofHosts [careless])).submit "task" again).bind fun s₁ =>
      (s₁.replay startAgain).bind fun s₂ => (s₂.tasks[0]?).bind fun task =>
        if task.isFinished then some (s₂.submissions.get? "task", s₂.store.recordOn "h" "y")
        else none) =
      some (some ⟨"task", [⟨"y", "h"⟩], [⟨"x", .duplicateId⟩]⟩,
        some { Vm.new "y" ⟨2, 2, 2, 2⟩ 1 with hostId := some "h", status := .running }) := by
  decide +kernel

/-- The submission comes to its end. -/
theorem exists_again : ∃ s₁ s₂ : Controller ℚ,
    (start .standard (.ofHosts [careless])).submit "task" again = some s₁ ∧
      Runs (fun _ m => m.Alone 0) s₁ s₂ ∧ s₂.Finished 0 ∧
        s₂.submissions.get? "task" = some ⟨"task", [⟨"y", "h"⟩], [⟨"x", .duplicateId⟩]⟩ ∧
          s₂.store.recordOn "h" "y" =
            some { Vm.new "y" ⟨2, 2, 2, 2⟩ 1 with hostId := some "h", status := .running } := by
  obtain ⟨s₁, hsubmit, hend⟩ := Option.bind_eq_some_iff.1 replay_startAgain
  obtain ⟨s₂, hreplay, hend⟩ := Option.bind_eq_some_iff.1 hend
  obtain ⟨task, hget, hend⟩ := Option.bind_eq_some_iff.1 hend
  obtain ⟨hfinished, heq⟩ := Option.ite_none_right_eq_some.1 hend
  obtain ⟨hresponse, hrecord⟩ := Prod.mk.inj (Option.some.inj heq)
  exact ⟨s₁, s₂, hsubmit, runs_replay (fun _ m hm => alone_startAgain m hm) hreplay,
    ⟨task, hget, hfinished⟩, hresponse, hrecord⟩

theorem submission_treats_of_again : ∃ s₁ s₂ r,
    (start .standard (.ofHosts [careless])).submit "task" again = some s₁ ∧
      Runs (fun _ m => m.Alone 0) s₁ s₂ ∧ s₂.Finished 0 ∧
        s₂.submissions.get? "task" = some r ∧
          Submission.Treats (.ofHosts [careless]) s₂.store again r "h" "x"
            ((Vm.new "x" ⟨1, 1, 1, 1⟩ 1).on "h") ∧
          Submission.Treats (.ofHosts [careless]) s₂.store again r "h" "y"
            (Vm.new "y" ⟨1, 1, 1, 1⟩ 1) := by
  obtain ⟨s₁, s₂, hsubmit, hrun, hend, -⟩ := exists_again
  obtain ⟨-, r, hr, -, -, htreats⟩ :=
    (submission_treats distinct_careless rfl hsubmit).2 s₂ hrun hend
  refine ⟨s₁, s₂, r, hsubmit, hrun, hend, hr, ?_, ?_⟩
  · exact htreats careless List.mem_cons_self "x" _ (by decide)
  · exact htreats careless List.mem_cons_self "y" _ (by decide)

/-- A machine that a host has is not refused, and its record is written over. -/
theorem stored_id_accepted : ∃ s₁ s₂ r,
    Host.Distinct [careless] ∧ careless.Has "y" ∧ "y" ∈ again.map Vm.id ∧
      (start .standard (.ofHosts [careless])).submit "task" again = some s₁ ∧
        Runs (fun _ m => m.Alone 0) s₁ s₂ ∧ s₂.Finished 0 ∧
          s₂.submissions.get? "task" = some r ∧ (⟨"y", .duplicateId⟩ : FailedVm) ∉ r.failed ∧
            s₂.store.recordOn "h" "y" ≠ (Store.ofHosts [careless]).recordOn "h" "y" := by
  obtain ⟨s₁, s₂, hsubmit, hrun, hend, hr, hrecord⟩ := exists_again
  have hstored : careless.Has "y" := rfl
  refine ⟨s₁, s₂, _, distinct_careless, hstored, by decide, hsubmit, hrun, hend, hr, by decide, ?_⟩
  rw [hrecord]
  decide +kernel

end Controller

end ClusterControl
