import ClusterControl.Proofs.Controller.Alone
import ClusterControl.Proofs.Program.Tallies
import ClusterControl.Proofs.Resource.Exact

/-!
# Where the machines of a submission end

While no other operation runs, every machine of a submission ends in one bucket of the response and
in one place of the store.

* `Submission.Accounts` says what the response, the store and the requests to hosts have to do with
  each other; `Submission.Recorded.accounts` reads it off what was recorded.
* `Controller.submission_accounts` says so of every submission that runs alone, and that it comes to
  its end.
-/

namespace ClusterControl

variable {α : Type}

/-- The request asks a host to start machines. -/
def HostCall.starts (host : HostId) : HostCall → Bool
  | .start k _ => k == host
  | _ => false

namespace Submission

/-- The failures that a submission keeps a record of. -/
def kept (r : SubmissionResponse) : List FailedVm := r.failed.filter fun f => f.code != .duplicateId

/-- The ids that a submission has placed, or has recorded as failed. -/
def settled (r : SubmissionResponse) : List VmId :=
  r.placed.map PlacedVm.vm ++ (kept r).map FailedVm.vm

/-- Every host with a share is asked once. -/
theorem countP_startCall (p : PlacementPlan α) (host : HostId) :
    (p.byHost.entries.map startCall).countP (HostCall.starts host) =
      if p.assignments.any (fun a => a.host == host) then 1 else 0 := by
  have hkeys : (p.byHost.entries.map startCall).countP (HostCall.starts host) =
      p.byHost.keys.count host := by
    rw [List.countP_map, SortedMap.keys, List.count, List.countP_map]
    rfl
  rw [hkeys, p.byHost.nodup_keys.count]
  refine if_congr ?_ rfl rfl
  rw [SortedMap.mem_keys_iff, PlacementPlan.get?_byHost]
  by_cases hshare : p.share host = []
  · simp [hshare, PlacementPlan.share_eq_nil_iff.1 hshare]
  · rw [if_neg hshare]
    rw [PlacementPlan.share_eq_nil_iff, Bool.not_eq_false] at hshare
    exact iff_of_true rfl hshare

variable [Quantity α]

/-- The plan for a batch, given the cursor of placements and the store. -/
def plan (c : Settings α) (cursor : Nat) (s : Store α) (vms : List (Vm α)) : PlacementPlan α :=
  (Placement.place c.placementPolicy cursor (chosen s [] vms)
    (s.hostList c.estimator.window true false)).plan

/-- A submission of `vms` that finds the store `s` and the cursor, leaves the store `s'`, answers
`r` and makes the requests `calls`. -/
structure Accounts (c : Settings α) (cursor : Nat) (s s' : Store α) (vms : List (Vm α))
    (r : SubmissionResponse) (calls : List HostCall) : Prop where
  /-- Every machine of the batch is placed or failed, once for each time it is listed. -/
  answered : (r.placed.map PlacedVm.vm ++ r.failed.map FailedVm.vm).Perm (vms.map Vm.id)
  /-- No id is settled twice. -/
  once : (settled r).Nodup
  /-- The ids that are settled are those that were on no host. -/
  mem_settled : ∀ v, v ∈ settled r ↔ v ∈ vms.map Vm.id ∧ s.index.get? v = none
  /-- A placed machine runs on the reported host, as it was first requested. -/
  placed : ∀ p ∈ r.placed, ∃ vm, vms.find? (fun w => w.id == p.vm) = some vm ∧
    s'.Files { vm with hostId := some p.host, status := .running, errorCode := none }
  /-- A failed machine is unassigned and marked with the reported code. -/
  failed : ∀ f ∈ kept r, ∃ vm, vms.find? (fun w => w.id == f.vm) = some vm ∧
    s'.Files ((Vm.new vm.id vm.requested 0).failed f.code)
  /-- All other machines are as they were, those refused as duplicates among them. -/
  others : ∀ v, v ∉ settled r → s.SameOf s' v
  /-- Apart from their machines the hosts are as they were. -/
  hosts : ∀ id, (s'.hosts.get? id).map Host.bare = (s.hosts.get? id).map Host.bare
  consistent : s'.Consistent
  /-- Machines are placed where they were assigned. -/
  assigned : ∀ p ∈ r.placed, ∃ a ∈ (plan c cursor s vms).assignments,
    a.vm.id = p.vm ∧ a.host = p.host
  /-- A host is asked once if machines were assigned to it, and not at all otherwise. -/
  called : ∀ host, calls.countP (HostCall.starts host) =
    if (plan c cursor s vms).assignments.any (fun a => a.host == host) then 1 else 0
  /-- Every request asks a host that is not passive to start its share. -/
  awake : ∀ q ∈ calls, ∃ h, s.hosts.get? h.id = some h ∧ h.isPassive = false ∧
    q = .start h.id (((plan c cursor s vms).share h.id).map Vm.id)

/-! ## The plan -/

section

variable {c : Settings α} {cursor : Nat} {s : Store α} {vms : List (Vm α)}

/-- Chosen machines are assigned to hosts of the store that are not passive. -/
theorem of_mem_assignments (hs : s.Consistent) {a : Assignment α}
    (ha : a ∈ (plan c cursor s vms).assignments) :
    (∃ vm ∈ chosen s [] vms, a.vm = vm.on a.host) ∧
      ∃ h, s.hosts.get? a.host = some h ∧ h.isPassive = false := by
  have hsound : Placement.Sound (s.hostList c.estimator.window true false) (chosen s [] vms)
      (fun _ => True) (Placement.place c.placementPolicy cursor (chosen s [] vms)
        (s.hostList c.estimator.window true false)) :=
    Placement.sound_place c.placementPolicy cursor
      (hs.nodup_hostList c.estimator.window true false) (fun _ _ => trivial)
      (fun _ _ _ _ _ => trivial)
  obtain ⟨hvm, hreceived⟩ := hsound.assigned a ha
  obtain ⟨k, hk, hid⟩ := hsound.planned.exists_of_receives hreceived
  obtain ⟨⟨h, n, hget, rfl⟩, hawake⟩ := hs.shows_of_mem_hostList hk
  exact ⟨hvm, h, hid ▸ hget, hawake rfl⟩

/-- The ids of a plan are those of the chosen machines. -/
theorem perm_plan : ((((plan c cursor s vms).byHost.entries.flatMap Prod.snd).map Vm.id) ++
    (plan c cursor s vms).unassigned.map Vm.id).Perm ((chosen s [] vms).map Vm.id) := by
  have hshares := ((plan c cursor s vms).perm_byHost.map Vm.id).append_right
    ((plan c cursor s vms).unassigned.map Vm.id)
  rw [List.map_map] at hshares
  exact hshares.trans (Placement.perm_ids ..)

/-- Whoever is asked is not passive, and is asked to start its share. -/
theorem awake_of_startCall (hs : s.Consistent) {q : HostCall}
    (hq : q ∈ (plan c cursor s vms).byHost.entries.map startCall) :
    ∃ h, s.hosts.get? h.id = some h ∧ h.isPassive = false ∧
      q = .start h.id (((plan c cursor s vms).share h.id).map Vm.id) := by
  obtain ⟨⟨host, share⟩, hentry, rfl⟩ := List.mem_map.1 hq
  have hget := SortedMap.get?_eq_some_iff.2 hentry
  rw [PlacementPlan.get?_byHost] at hget
  split at hget
  · exact absurd hget (by simp)
  · rename_i hshare
    rw [PlacementPlan.share_eq_nil_iff, Bool.not_eq_false, List.any_eq_true] at hshare
    obtain ⟨a, ha, hhost⟩ := hshare
    obtain ⟨-, h, hknown, hawake⟩ := of_mem_assignments hs ha
    rw [beq_iff_eq.1 hhost] at hknown
    obtain rfl := hs.host_id hknown
    exact ⟨h, hknown, hawake, by rw [startCall, Option.some.inj hget]⟩

end

/-! ## The account -/

section

variable {c : Settings α} {cursor : Nat} {s : Store α} {vms : List (Vm α)}

/-- The list says of every chosen machine what became of it: the machines of a share run on their
host or could not be started, and those that fitted nowhere are listed as such. -/
structure Covers (c : Settings α) (cursor : Nat) (s : Store α) (vms : List (Vm α))
    (l : List (Vm α × Outcome)) : Prop where
  ids : (l.map fun x => x.1.id).Perm ((chosen s [] vms).map Vm.id)
  source : ∀ x ∈ l, ∃ vm ∈ chosen s [] vms, x.2.record x.1 = x.2.record vm
  genuine : ∀ x ∈ l, x.2 ≠ .failed .duplicateId
  started : ∀ x ∈ l, ∀ host, x.2 = .started host →
    ∃ a ∈ (plan c cursor s vms).assignments, a.vm.id = x.1.id ∧ a.host = host

variable {t₀ t : Tally} {l : List (Vm α × Outcome)} {s' : Store α}

/-- After the refused ids were tallied, the failures with a record are those that were recorded. -/
theorem Recorded.kept_eq (h : Recorded s t₀ l s' t) (hcovers : Covers c cursor s vms l)
    (hfailed : t₀.failed = (refused s [] vms).map (⟨·, .duplicateId⟩)) (task : TaskId) :
    kept ⟨task, t.placed, t.failed⟩ = l.filterMap fun x => x.2.failed? x.1.id := by
  have hrefused : (((refused s [] vms).map fun v => (⟨v, .duplicateId⟩ : FailedVm)).filter
      fun f => f.code != .duplicateId) = [] := by simp
  rw [kept, h.failed, hfailed, List.filter_append, hrefused, List.nil_append, List.filter_eq_self]
  intro f hf
  obtain ⟨x, hx, hfx⟩ := List.mem_filterMap.1 hf
  have hx₂ := (Outcome.failed?_eq_some_iff.1 hfx).2
  rw [bne_iff_ne]
  exact fun hcode => hcovers.genuine x hx (hcode ▸ hx₂)

/-- What is settled is what was recorded. -/
theorem Recorded.perm_settled (h : Recorded s t₀ l s' t) (hcovers : Covers c cursor s vms l)
    (hplaced : t₀.placed = [])
    (hfailed : t₀.failed = (refused s [] vms).map (⟨·, .duplicateId⟩)) (task : TaskId) :
    (settled ⟨task, t.placed, t.failed⟩).Perm (l.map fun x => x.1.id) := by
  rw [settled, h.kept_eq hcovers hfailed task, h.placed, hplaced, List.nil_append]
  exact Outcome.perm_ids l

/-- Every machine of the list is filed as the first one of its id, with what became of it. -/
theorem Recorded.files (h : Recorded s t₀ l s' t) (hcovers : Covers c cursor s vms l)
    {x : Vm α × Outcome} (hx : x ∈ l) : ∃ vm, vms.find? (fun w => w.id == x.1.id) = some vm ∧
      s'.Files (x.2.record (fresh vm)) := by
  obtain ⟨w, hw, hrecord⟩ := hcovers.source x hx
  obtain ⟨-, -, vm, hfind, rfl⟩ := of_mem_chosen hw
  have hid := congrArg Vm.id hrecord
  rw [Outcome.id_record, Outcome.id_record] at hid
  exact ⟨vm, by rwa [hid], hrecord ▸ h.enters.files _ (List.mem_map_of_mem hx)⟩

/-- Recording the chosen machines after the refused ids settles the account. -/
theorem Recorded.accounts (hs : s.Consistent) (h : Recorded s t₀ l s' t)
    (hcovers : Covers c cursor s vms l) (hplaced : t₀.placed = [])
    (hfailed : t₀.failed = (refused s [] vms).map (⟨·, .duplicateId⟩)) (task : TaskId) :
    Accounts c cursor s s' vms ⟨task, t.placed, t.failed⟩
      ((plan c cursor s vms).byHost.entries.map startCall) := by
  have hsettled := h.perm_settled hcovers hplaced hfailed task
  refine ⟨?_, ?_, fun v => ?_, fun p hp => ?_, fun f hf => ?_, fun v hv => ?_, h.enters.hosts,
    h.enters.consistent, fun p hp => ?_, countP_startCall _, fun q => awake_of_startCall hs⟩
  · have hrefused : ((refused s [] vms).map fun v => (⟨v, .duplicateId⟩ : FailedVm)).map
        FailedVm.vm = refused s [] vms := by simp [Function.comp_def]
    rw [h.placed, hplaced, List.nil_append, h.failed, hfailed, List.map_append, hrefused]
    refine (List.perm_append_comm.append_left _).trans ?_
    rw [← List.append_assoc]
    exact (((Outcome.perm_ids l).trans hcovers.ids).append_right _).trans
      (perm_chosen_refused s [] vms)
  · exact (hsettled.trans hcovers.ids).nodup_iff.2 (nodup_chosen s [] vms)
  · exact (hsettled.trans hcovers.ids).mem_iff.trans (mem_chosen_iff hs)
  · obtain ⟨x, hx, hid, hx₂⟩ := (h.mem_placed hplaced).1 hp
    have hfiles := h.files hcovers hx
    rwa [hid, hx₂] at hfiles
  · rw [h.kept_eq hcovers hfailed task] at hf
    obtain ⟨x, hx, hfx⟩ := List.mem_filterMap.1 hf
    obtain ⟨hid, hx₂⟩ := Outcome.failed?_eq_some_iff.1 hfx
    have hfiles := h.files hcovers hx
    rwa [hid, hx₂] at hfiles
  · refine h.enters.others v fun hmem => hv (hsettled.mem_iff.2 ?_)
    rwa [ids_records] at hmem
  · obtain ⟨x, hx, hid, hx₂⟩ := (h.mem_placed hplaced).1 hp
    obtain ⟨a, ha, hvm, hhost⟩ := hcovers.started x hx p.host hx₂
    exact ⟨a, ha, hvm.trans hid, hhost⟩

/-- What became of the shares and of the machines that fitted nowhere covers the chosen machines. -/
theorem covers_of_shares (hs : s.Consistent) {shared : List (Vm α × Outcome)}
    (hshared : shared.map Prod.fst = (plan c cursor s vms).byHost.entries.flatMap Prod.snd)
    (houtcome : ∀ x ∈ shared, x.2 = .failed .startFailed ∨
      ∃ share ∈ (plan c cursor s vms).byHost.entries, x.1 ∈ share.2 ∧ x.2 = .started share.1) :
    Covers c cursor s vms (shared ++ (plan c cursor s vms).unassigned.map fun vm =>
      (vm, .failed .notEnoughResources)) := by
  refine ⟨?_, fun x hx => ?_, fun x hx => ?_, fun x hx host hstarted => ?_⟩
  · have hids : (shared.map fun x => x.1.id) = (shared.map Prod.fst).map Vm.id := by
      rw [List.map_map]
      rfl
    rw [List.map_append, List.map_map, hids, hshared]
    exact perm_plan
  · obtain hx | hx := List.mem_append.1 hx
    · have hmem := List.mem_map_of_mem (f := Prod.fst) hx
      rw [hshared, List.mem_flatMap] at hmem
      obtain ⟨share, hshare, hvm⟩ := hmem
      obtain ⟨⟨vm, hchosen, heq⟩, -⟩ :=
        of_mem_assignments hs (PlacementPlan.mem_of_byHost hshare hvm)
      exact ⟨vm, hchosen, by rw [show x.1 = vm.on share.1 from heq, Outcome.record_on]⟩
    · obtain ⟨vm, hvm, rfl⟩ := List.mem_map.1 hx
      exact ⟨vm, Placement.mem_of_unassigned hvm, rfl⟩
  · obtain hx | hx := List.mem_append.1 hx
    · obtain hfailed | ⟨share, -, -, hstarted⟩ := houtcome x hx
      · simp [hfailed]
      · simp [hstarted]
    · obtain ⟨vm, -, rfl⟩ := List.mem_map.1 hx
      simp
  · obtain hx | hx := List.mem_append.1 hx
    · obtain hfailed | ⟨share, hshare, hvm, hx₂⟩ := houtcome x hx
      · rw [hfailed] at hstarted
        cases hstarted
      · rw [hx₂] at hstarted
        obtain rfl := Outcome.started.inj hstarted
        exact ⟨_, PlacementPlan.mem_of_byHost hshare hvm, rfl, rfl⟩
    · obtain ⟨vm, -, rfl⟩ := List.mem_map.1 hx
      cases hstarted

end

/-! ## The run -/

variable {c : Settings α} {g : Scene α} {vms : List (Vm α)}

/-- The candidates are the hosts that are not passive. -/
theorem leads_candidates (entries : Nat) : (candidates entries).Leads c g fun g' hosts =>
    g' = g ∧ hosts = g.store.hostList entries true false :=
  Program.leads_bind.2 (Program.leads_store.2 (Program.leads_pure.2 ⟨rfl, rfl⟩))

/-- Carrying out the plan, after the refused ids were tallied, settles the account. -/
theorem leads_record {s : Store α} (hs : s.Consistent) (hg : g.store = s) {cursor : Nat}
    {p : PlacementPlan α} (hp : p = plan c cursor s vms) {t : Tally} (hplaced : t.placed = [])
    (hfailed : t.failed = (refused s [] vms).map (⟨·, .duplicateId⟩)) (task : TaskId) :
    (do
      let t ← startShares t p.byHost.entries
      let t ← recordUnassigned t p.unassigned
      Program.count .vmsPlaced t.placed.length
      Program.count .vmsUnplaced t.failed.length
      return (⟨task, t.placed, t.failed⟩ : SubmissionResponse) : Program α _).Leads c g
        fun g' r => r.task = task ∧ g'.submissions = g.submissions ∧
          ∃ calls, g'.calls = g.calls ++ calls ∧
            Accounts c cursor s g'.store vms r calls := by
  have hnodup : (((p.byHost.entries.flatMap Prod.snd).map Vm.id) ++
      p.unassigned.map Vm.id).Nodup := by
    rw [hp]
    exact perm_plan.nodup_iff.2 (nodup_chosen s [] vms)
  have hhosts : ∀ share ∈ p.byHost.entries, (s.hosts.get? share.1).isSome = true := by
    intro share hshare
    rw [hp] at hshare
    obtain ⟨h, hget, -, heq⟩ := awake_of_startCall hs (List.mem_map_of_mem hshare)
    rw [(HostCall.start.inj heq).1, hget]
    rfl
  have hrecorded : Recorded s t [] g.store t := by
    rw [hg]
    exact .start hs
  refine Program.leads_bind.2 ((hrecorded.leads_shares hhosts
    (List.nodup_append.1 hnodup).1).mono ?_)
  rintro _ t₁ ⟨s₁, shared, rfl, hshared, houtcome, h₁⟩
  rw [List.nil_append] at h₁
  have hids : (shared.map fun x => x.1.id) = (p.byHost.entries.flatMap Prod.snd).map Vm.id := by
    rw [← hshared, List.map_map]
    rfl
  refine Program.leads_bind.2 ((h₁.leads_unassigned (hids ▸ hnodup)).mono ?_)
  rintro _ t₂ ⟨s₂, rfl, h₂⟩
  refine Program.leads_bind.2 (Program.leads_count.2 (Program.leads_bind.2
    (Program.leads_count.2 (Program.leads_pure.2 ⟨rfl, rfl, _, rfl, ?_⟩))))
  subst hp
  exact h₂.accounts hs (covers_of_shares hs hshared houtcome) hplaced hfailed task

/-- A submission that runs alone settles its account. -/
theorem leads_run (hs : g.store.Consistent) (task : TaskId) :
    (run c.estimator.window task vms).Leads c g fun g' r => r.task = task ∧
      g'.submissions = g.submissions ∧
        ∃ calls, g'.calls = g.calls ++ calls ∧
          Accounts c g.cursor g.store g'.store vms r calls := by
  refine Program.leads_bind.2 ((leads_sift [] .empty vms).mono ?_)
  rintro g ⟨_, t⟩ ⟨rfl, rfl, hplaced, hfailed⟩
  refine Program.leads_bind.2 ((leads_candidates _).mono ?_)
  rintro g _ ⟨rfl, rfl⟩
  refine Program.leads_bind.2 (Program.leads_place.2 ?_)
  refine leads_record (t := t) hs ?_ ?_ hplaced hfailed task
  · rfl
  · rfl

/-- A submission that runs alone files its response, and gives the gate back. -/
theorem leads_finish (hs : g.store.Consistent) (task : TaskId) :
    (finish c.estimator.window task vms).Leads c g fun g' _ => g'.busy = false ∧
      ∃ r calls, g'.submissions.get? task = some r ∧ r.task = task ∧
        g'.calls = g.calls ++ calls ∧ Accounts c g.cursor g.store g'.store vms r calls := by
  refine Program.leads_bind.2 ((leads_run hs task).mono ?_)
  rintro g' r ⟨htask, hsubmissions, calls, hcalls, haccounts⟩
  refine Program.leads_bind.2 (Program.leads_ask.2 (Program.leads_ask.2 ⟨rfl, r, calls, ?_, htask,
    hcalls, haccounts⟩))
  rw [SortedMap.get?_insert, if_pos htask.symm]

end Submission

namespace Controller

variable [Quantity α]

/-- A submission that is accepted leads where its program does once the gate is taken. -/
theorem Leads.of_submit {s s₁ : Controller α} {task : TaskId} {vms : List (Vm α)}
    (hsubmit : s.submit task vms = some s₁) {Q : Scene α → Prop}
    (h : (Submission.finish s.settings.estimator.window task vms).Leads s.settings
      { s.scene with busy := true } fun g _ => Q g) :
    s₁.Leads s.tasks.length fun g _ _ => Q g := by
  obtain ⟨s₀, hacquire, rfl⟩ := Option.map_eq_some_iff.1 hsubmit
  unfold acquire at hacquire
  split at hacquire
  · exact absurd hacquire (by simp)
  obtain rfl := Option.some.inj hacquire
  exact ⟨_, List.getElem?_concat_length, (Task.leads_of_not_issued rfl).2 h⟩

/-- A submission that is accepted while no other operation runs leads to the end of its account. -/
theorem leads_submit {s s₁ : Controller α} (hs : s.store.Consistent) {task : TaskId}
    {vms : List (Vm α)} (hsubmit : s.submit task vms = some s₁) :
    s₁.Leads s.tasks.length fun g _ _ => g.busy = false ∧ ∃ r calls,
      g.submissions.get? task = some r ∧ r.task = task ∧
        g.calls = s.calls.map CallRecord.call ++ calls ∧
          Submission.Accounts s.settings s.cursor s.store g.store vms r calls :=
  .of_submit hsubmit (Submission.leads_finish hs task)

/-- What a task leads to has come about when the task is finished. -/
theorem Leads.of_finished {s : Controller α} {t : Nat} {Q : Scene α → Prop}
    (h : s.Leads t fun g _ _ => Q g) (hend : s.Finished t) : Q s.scene := by
  obtain ⟨job, hget, hfinished⟩ := hend
  obtain ⟨r, hr⟩ := Option.isSome_iff_exists.1 hfinished
  have hdone : job.program = .done r := by
    unfold Task.result? at hr
    split at hr
    · rename_i hprogram
      rw [hprogram, Option.some.inj hr]
    · exact absurd hr (by simp)
  exact h.finished hget hdone

/-- A submission that is accepted while no other operation runs comes to its end, whatever the hosts
answer.  By then it has given the gate back, and its response, the store and the requests to hosts
settle its account. -/
theorem submission_accounts {s s₁ : Controller α} (hs : s.store.Consistent) {task : TaskId}
    {vms : List (Vm α)} (hsubmit : s.submit task vms = some s₁) :
    (∀ s₂, Runs (fun _ m => m.Alone s.tasks.length) s₁ s₂ →
      ∃ s₃, Runs (fun _ m => m.Alone s.tasks.length) s₂ s₃ ∧ s₃.Finished s.tasks.length) ∧
    ∀ s₂, Runs (fun _ m => m.Alone s.tasks.length) s₁ s₂ → s₂.Finished s.tasks.length →
      s₂.busy = false ∧ ∃ r calls, s₂.submissions.get? task = some r ∧ r.task = task ∧
        s₂.calls.map CallRecord.call = s.calls.map CallRecord.call ++ calls ∧
          Submission.Accounts s.settings s.cursor s.store s₂.store vms r calls := by
  have hleads := leads_submit hs hsubmit
  refine ⟨fun s₂ hrun => (hleads.run hrun).exists_finished, fun s₂ hrun hend => ?_⟩
  exact (hleads.run hrun).of_finished hend

/-- A host that runs one machine, and a passive one. -/
def pair : Store ℚ :=
  let up : Store ℚ := Store.empty.addHost (.new "h" ⟨4, 4, 4, 4⟩ 1)
  let both := up.addHost ((Host.new "p" ⟨8, 8, 8, 8⟩ 1).withStatus .passive)
  (both.addVm ((Vm.new "x" ⟨1, 1, 1, 1⟩ 1).on "h")).2

theorem consistent_pair : pair.Consistent := by
  refine (Store.Consistent.addHost (Store.consistent_empty.addHost ?_) ?_).addVm _
  · exact ⟨fun h => absurd h (by simp [Host.new]), fun h => absurd h (by simp [Host.new]),
      fun h => absurd h (by simp [Host.new])⟩
  · exact ⟨fun h => absurd h (by simp [Host.new, Host.withStatus]),
      fun h => absurd h (by simp [Host.new, Host.withStatus]),
      fun h => absurd h (by simp [Host.new, Host.withStatus])⟩

/-- One machine that starts and is listed twice, one that runs already, one that does not start, and
one that is too large. -/
def mixed : List (Vm ℚ) :=
  [.new "a" ⟨1, 1, 1, 1⟩ 1, .new "a" ⟨2, 2, 2, 2⟩ 1, .new "x" ⟨1, 1, 1, 1⟩ 1,
    .new "b" ⟨1, 1, 1, 1⟩ 1, .new "c" ⟨6, 6, 6, 6⟩ 1]

/-- The submission runs to its end, while the host starts only the first machine. -/
def startOne : List (Move ℚ) :=
  List.replicate 9 (.run 0) ++ [.answer 0 (.started (.ok ["a"]))] ++ List.replicate 10 (.run 0)

/-- What comes of it. -/
def startedOne : SubmissionResponse :=
  ⟨"task", [⟨"a", "h"⟩], [⟨"a", .duplicateId⟩, ⟨"x", .duplicateId⟩, ⟨"b", .startFailed⟩,
    ⟨"c", .notEnoughResources⟩]⟩

theorem submission_accounts_of_mixed : ∃ s₁ s₂ calls,
    (start .standard pair).submit "task" mixed = some s₁ ∧
      Runs (fun _ m => m.Alone 0) s₁ s₂ ∧ s₂.Finished 0 ∧
        Submission.Accounts .standard 0 pair s₂.store mixed startedOne calls := by
  have hend : (((start .standard pair).submit "task" mixed).bind fun s₁ =>
      (s₁.replay startOne).bind fun s₂ => (s₂.tasks[0]?).bind fun task =>
        if task.isFinished then s₂.submissions.get? "task" else none) = some startedOne := by
    decide +kernel
  obtain ⟨s₁, hsubmit, hend⟩ := Option.bind_eq_some_iff.1 hend
  obtain ⟨s₂, hreplay, hend⟩ := Option.bind_eq_some_iff.1 hend
  obtain ⟨task, hget, hend⟩ := Option.bind_eq_some_iff.1 hend
  obtain ⟨hfinished, hresponse⟩ := Option.ite_none_right_eq_some.1 hend
  have hrun : Runs (fun _ m => m.Alone 0) s₁ s₂ := by
    refine runs_replay (fun _ m hm => ?_) hreplay
    simp only [startOne, List.append_assoc, List.mem_append, List.mem_singleton,
      List.mem_replicate] at hm
    rcases hm with ⟨-, rfl⟩ | rfl | ⟨-, rfl⟩ <;> rfl
  obtain ⟨-, r, calls, hr, -, -, haccounts⟩ :=
    (submission_accounts consistent_pair hsubmit).2 s₂ hrun ⟨task, hget, hfinished⟩
  rw [hresponse] at hr
  obtain rfl := Option.some.inj hr
  exact ⟨s₁, s₂, calls, hsubmit, hrun, ⟨task, hget, hfinished⟩, haccounts⟩

end Controller

end ClusterControl
