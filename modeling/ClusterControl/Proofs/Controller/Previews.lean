import ClusterControl.Planning.Preview
import ClusterControl.Proofs.Controller.Outcomes
import ClusterControl.Proofs.Controller.Submissions
import ClusterControl.Proofs.Planning.Views
import ClusterControl.Proofs.Store.Listing

/-!
# Previews and the controller

A preview plans with the hosts as a snapshot lists them.  The controller plans with what its store
hands out: the hosts in the order of their ids, with cut histories.

* `Snapshot.choices_plan`, `Snapshot.plan?_relief` and `Snapshot.plan_consolidation` say that the
  plans are the same for a snapshot that lists its hosts by id.
* `Controller.previews_agree` says so of every run of a controller that was just started, whatever
  the order in which it was given the hosts.
* `Controller.preview_outOfOrder` is a snapshot that lists its hosts the other way round.
-/

namespace ClusterControl

variable {α : Type}

/-! ## Hosts in order -/

/-- A snapshot that lists its hosts by id, each with its own machines. -/
structure Snapshot.Listed (s : Snapshot α) : Prop where
  ordered : s.hosts.Pairwise fun h k => h.id < k.id
  apart : Host.Apart s.hosts

/-- When no machine of a batch is taken or repeated, all of them are chosen. -/
theorem Submission.chosen_eq_map {s : Store α} {seen : List VmId} {vms : List (Vm α)}
    (hnodup : (vms.map Vm.id).Nodup) (hnew : ∀ vm ∈ vms, vm.id ∉ seen ∧ taken s vm.id = false) :
    chosen s seen vms = vms.map fresh := by
  induction vms generalizing seen with
  | nil => rfl
  | cons vm rest ih =>
    obtain ⟨hfirst, hrest⟩ := List.nodup_cons.1 hnodup
    obtain ⟨⟨hseen, htaken⟩, hlater⟩ := List.forall_mem_cons.1 hnew
    have hfree : ¬(seen.contains vm.id || taken s vm.id) = true := by
      rw [htaken, Bool.or_false, List.contains_iff_mem]
      exact hseen
    rw [chosen, if_neg hfree, List.map_cons]
    refine congrArg (fresh vm :: ·) (ih hrest fun w hw => ⟨fun hmem => ?_, (hlater w hw).2⟩)
    obtain heq | hmem := List.mem_cons.1 hmem
    · exact hfirst (heq ▸ List.mem_map_of_mem hw)
    · exact (hlater w hw).1 hmem

namespace Snapshot

variable {s : Snapshot α} {hosts : List (Host α)}

theorem Listed.nodup (hs : s.Listed) (hperm : hosts.Perm s.hosts) :
    (hosts.map Host.id).Nodup :=
  Store.nodup_ids_of_sorted hperm hs.ordered

theorem Listed.consistent (hs : s.Listed) (hperm : hosts.Perm s.hosts) :
    (Store.ofHosts hosts).Consistent :=
  Store.consistent_ofHosts (hs.nodup hperm) (hs.apart.mono fun _ hk => hperm.mem_iff.1 hk)

theorem Listed.values (hs : s.Listed) (hperm : hosts.Perm s.hosts) :
    (Store.ofHosts hosts).hosts.values = s.hosts :=
  Store.values_ofHosts hperm hs.ordered

/-- A machine that no host lists is on no host of the store. -/
theorem Listed.taken_eq_false (hs : s.Listed) (hperm : hosts.Perm s.hosts) {v : VmId}
    (hv : ∀ h ∈ s.hosts, ¬ h.Has v) : Submission.taken (.ofHosts hosts) v = false := by
  have hgood := hs.consistent hperm
  rw [Submission.taken_eq_false_iff hgood, Option.eq_none_iff_forall_ne_some]
  intro id hindex
  obtain ⟨w, hw⟩ := Option.isSome_iff_exists.1 (hgood.indexed.1 hindex)
  obtain ⟨h, hget, hvm⟩ := Option.bind_eq_some_iff.1 hw
  obtain ⟨hmem, -⟩ := (Store.get?_ofHosts (hs.nodup hperm)).1 hget
  exact hv h (hperm.mem_iff.1 hmem) (Option.isSome_iff_exists.2 ⟨w, hvm⟩)

/-- A snapshot of a consistent store lists its hosts by id. -/
theorem listed_values {t : Store α} (ht : t.Consistent) (c : Settings α) :
    (⟨t.hosts.values, c⟩ : Snapshot α).Listed := by
  have hget : ∀ {h}, h ∈ t.hosts.values → t.hosts.get? h.id = some h := by
    intro h hh
    obtain ⟨id, hget⟩ := SortedMap.mem_values_iff.1 hh
    rwa [ht.host_id hget]
  refine ⟨?_, ⟨fun hh v w hv => ?_, fun {h k} hh hk v hv hv' => ?_⟩⟩
  · refine List.pairwise_map.2 (t.hosts.sorted.imp_of_mem fun {e f} he hf hlt => ?_)
    rw [ht.host_id (SortedMap.get?_eq_some_iff.2 he), ht.host_id (SortedMap.get?_eq_some_iff.2 hf)]
    exact hlt
  · exact ht.on_host (by rw [Store.recordOn_of_get? (hget hh), hv])
  · have hindexed : ∀ {h}, h ∈ t.hosts.values → h.Has v → t.index.get? v = some h.id :=
      fun hh hv => ht.indexed.2 (by rwa [Store.recordOn_of_get? (hget hh)])
    exact Option.some.inj ((hindexed hh hv).symm.trans (hindexed hk hv'))

/-- Settling gives every machine the id of the host that lists it. -/
theorem listed_settle {s : Snapshot α} (hordered : s.hosts.Pairwise fun h k => h.id < k.id)
    (hfiled : ∀ h ∈ s.hosts, ∀ v w, h.vms.get? v = some w → w.id = v)
    (honce : ∀ h ∈ s.hosts, ∀ k ∈ s.hosts, ∀ v, h.Has v → k.Has v → h.id = k.id) :
    s.settle.Listed := by
  have hhas : ∀ (h : Host α) v, (h.vms.mapValues fun _ vm => vm.on h.id).get? v =
      (h.vms.get? v).map fun vm => vm.on h.id := fun h v => SortedMap.get?_mapValues ..
  refine ⟨List.pairwise_map.2 hordered, ⟨fun {h} hh v w hv => ?_, fun {h k} hh hk v hv hv' => ?_⟩⟩
  · obtain ⟨h, hmem, rfl⟩ := List.mem_map.1 hh
    rw [hhas] at hv
    obtain ⟨w, hw, rfl⟩ := Option.map_eq_some_iff.1 hv
    exact ⟨hfiled h hmem v w hw, rfl⟩
  · obtain ⟨h, hmem, rfl⟩ := List.mem_map.1 hh
    obtain ⟨k, hmem', rfl⟩ := List.mem_map.1 hk
    rw [Host.Has, hhas, Option.isSome_map] at hv hv'
    exact honce h hmem k hmem' v hv hv'

variable [Quantity α]

/-- What the store hands out is a faithful view of the hosts. -/
theorem exists_view (s : Snapshot α)
    (hwindow : s.settings.estimator.window ≠ 0 ∨ ∀ h ∈ s.hosts, h.Unobserved) :
    ∃ d : View α, d.Faithful s.settings.ranking ∧
      ∀ h ∈ s.hosts, h.trim s.settings.estimator.window = d.host h := by
  obtain hwindow | hunobserved := hwindow
  · exact ⟨.trimmed s.settings.estimator.window,
      View.faithful_trimmed s.settings.windowed_demandEstimator (s.settings.window_le hwindow),
      fun _ _ => rfl⟩
  · exact ⟨.full, View.faithful_full _, fun h hh => (hunobserved h hh).trim_eq _⟩

/-! ## The plans -/

/-- The placement of a batch goes the same way as in the preview. -/
theorem choices_plan (hs : s.Listed) (hperm : hosts.Perm s.hosts) {vms : List (Vm α)}
    (hnodup : (vms.map Vm.id).Nodup) (habsent : ∀ vm ∈ vms, ∀ h ∈ s.hosts, ¬ h.Has vm.id) :
    (Submission.plan s.settings 0 (.ofHosts hosts) vms).choices =
      (s.placement s.settings.placementPolicy vms).choices := by
  have hchosen : Submission.chosen (.ofHosts hosts) [] vms = vms.map Submission.fresh :=
    Submission.chosen_eq_map hnodup fun vm hvm =>
      ⟨List.not_mem_nil, hs.taken_eq_false hperm (habsent vm hvm)⟩
  have hlisted : ((Store.ofHosts hosts).hostList s.settings.estimator.window true false) =
      (s.hosts.filter fun h => !h.isPassive).map fun h => h.trim 0 := by
    simp only [Store.hostList, hs.values hperm, Bool.true_and, Bool.false_eq_true, if_false]
  have hvms : (vms.map Submission.fresh).map View.outlined.vm = vms.map View.outlined.vm := by
    rw [List.map_map]
    rfl
  have hhosts : ((s.hosts.filter fun h => !h.isPassive).map fun h => h.trim 0).map
      View.outlined.host = (s.hosts.filter fun h => !h.isPassive).map View.outlined.host := by
    rw [List.map_map]
    refine List.map_congr_left fun h _ => ?_
    simp only [Function.comp_apply, View.outlined, Host.trim, SortedMap.mapValues_mapValues]
    rfl
  calc (Submission.plan s.settings 0 (.ofHosts hosts) vms).choices
      = (Placement.place s.settings.placementPolicy 0 (vms.map View.outlined.vm)
          ((s.hosts.filter fun h => !h.isPassive).map View.outlined.host)).plan.choices := by
        rw [Submission.plan, hchosen, hlisted, ← Placement.choices_view View.outlined, hvms, hhosts]
    _ = (s.placement s.settings.placementPolicy vms).choices :=
        Placement.choices_view View.outlined ..

/-- The plan that relieves a host is that of the preview. -/
theorem plan?_relief (hs : s.Listed) (hperm : hosts.Perm s.hosts)
    (hwindow : s.settings.estimator.window ≠ 0 ∨ ∀ h ∈ s.hosts, h.Unobserved) {source : Host α}
    (hsource : source ∈ s.hosts) {r : Relief} (hr : s.relief source = some r) :
    Resolution.plan? s.settings (.ofHosts hosts) source.id r.state = some r.plan := by
  obtain ⟨d, hfaithful, hview⟩ := s.exists_view hwindow
  obtain ⟨p, hpolicy, rfl⟩ := Option.map_eq_some_iff.1 hr
  have hget : (Store.ofHosts hosts).host? source.id s.settings.estimator.window =
      some (d.host source) := by
    rw [Store.host?, (Store.get?_ofHosts (hs.nodup hperm)).2 ⟨hperm.mem_iff.2 hsource, rfl⟩,
      Option.map_some, hview source hsource]
  have hdestinations : Resolution.destinations s.settings (.ofHosts hosts) p (d.host source) =
      (s.destinationsFor source.id p).map d.host := by
    have hlisted : (Store.ofHosts hosts).hostList s.settings.estimator.window
        (!p.includesPassive) true =
          (s.hosts.filter fun h => p.includesPassive || !h.isPassive).map d.host := by
      simp only [Store.hostList, hs.values hperm, Bool.not_and, Bool.not_not, if_true]
      exact List.map_congr_left fun h hh => hview h (List.mem_of_mem_filter hh)
    rw [Resolution.destinations, hlisted, List.filter_map, destinationsFor, List.filter_filter,
      List.filter_filter]
    refine congrArg (List.map d.host) (List.filter_congr fun h _ => ?_)
    simp only [Function.comp_apply, d.id_host, Bool.and_comm]
  simp only [Resolution.plan?, hpolicy, hget, hdestinations, Option.bind_some, Option.map_some,
    Relocation.relocate_view hfaithful]

/-- The plan that consolidates the cluster is that of the preview. -/
theorem plan_consolidation (hs : s.Listed) (hperm : hosts.Perm s.hosts)
    (hwindow : s.settings.estimator.window ≠ 0 ∨ ∀ h ∈ s.hosts, h.Unobserved) :
    Reconfiguration.plan s.settings (.ofHosts hosts) = s.consolidation := by
  obtain ⟨d, hfaithful, hview⟩ := s.exists_view hwindow
  have hlisted : (Store.ofHosts hosts).hostList s.settings.estimator.window true true =
      (s.hosts.filter fun h => !h.isPassive).map d.host := by
    simp only [Store.hostList, hs.values hperm, Bool.true_and, if_true]
    exact List.map_congr_left fun h hh => hview h (List.mem_of_mem_filter hh)
  have hawake : Consolidation.consolidate s.settings.ranking
      (s.hosts.filter fun h => !h.isPassive) = s.consolidation := by
    simp only [consolidation, Consolidation.consolidate, List.filter_filter, Bool.and_self]
  rw [Reconfiguration.plan, hlisted, Consolidation.consolidate_view hfaithful, hawake]

end Snapshot

/-! ## The runs -/

/-- The hosts are asked for exactly what the choices give them, and what is reported as placed is
where they say. -/
structure Submission.Follows (choices : List (VmId × HostId)) (r : SubmissionResponse)
    (calls : List HostCall) : Prop where
  placed : ∀ x ∈ r.placed, (x.vm, x.host) ∈ choices
  called : ∀ host, calls.countP (HostCall.starts host) =
    if choices.any (fun x => x.2 == host) then 1 else 0
  started : ∀ q ∈ calls, ∃ host,
    q = .start host ((choices.filter fun x => x.2 == host).map Prod.fst)

/-- The plan, or that there is nothing to do, or that the hosts it needs could not be woken. -/
def Resolution.Follows (plan : MigrationPlan) : Except WorkflowError ResolutionReport → Prop
  | .ok r => r.plan = plan
  | .error (.resolution (.noDestinationCandidates _))
  | .error (.resolution (.emptyPlan _)) => plan.isEmpty = true
  | .error (.resolution (.wakeupFailed hosts)) => hosts ≠ []
  | .error _ => False

variable [Quantity α]

/-- A submission that settles its account follows its plan. -/
theorem Submission.Accounts.follows {c : Settings α} {cursor : Nat} {s s' : Store α}
    {vms : List (Vm α)} {r : SubmissionResponse} {calls : List HostCall}
    (h : Accounts c cursor s s' vms r calls) :
    Follows (plan c cursor s vms).choices.1 r calls := by
  refine ⟨fun x hx => ?_, fun host => ?_, fun q hq => ?_⟩
  · obtain ⟨a, ha, hvm, hhost⟩ := h.assigned x hx
    exact List.mem_map.2 ⟨a, ha, by rw [hvm, hhost]⟩
  · rw [h.called, PlacementPlan.choices, List.any_map]
    rfl
  · obtain ⟨k, -, -, rfl⟩ := h.awake q hq
    refine ⟨k.id, ?_⟩
    rw [PlacementPlan.choices, List.filter_map, List.map_map, PlacementPlan.share, List.map_map]
    rfl

/-- A resolution that ends with the plan made for the host follows that plan. -/
theorem Resolution.Ends.follows {c : Settings α} {s s' : Store α} {host : HostId}
    {state : LoadState} {plan : MigrationPlan} (hplan : plan? c s host state = some plan)
    {r : Except WorkflowError ResolutionReport} (h : Ends c s s' host state r) :
    Follows plan r := by
  have hempty : ∀ {other}, plan? c s host state = some other → other.isEmpty = true →
      plan.isEmpty = true := by
    intro other hother hisempty
    rw [hplan] at hother
    rwa [Option.some.inj hother]
  have hknown : c.relocationPolicy state ≠ none ∧ s.host? host c.estimator.window ≠ none := by
    obtain ⟨p, hp, hsource⟩ := Option.bind_eq_some_iff.1 hplan
    obtain ⟨source, hget, -⟩ := Option.map_eq_some_iff.1 hsource
    rw [hp, hget]
    exact ⟨Option.some_ne_none p, Option.some_ne_none source⟩
  cases r with
  | ok report =>
    obtain ⟨hreported, -, -⟩ := h
    rw [hplan] at hreported
    exact (Option.some.inj hreported).symm
  | error e =>
    cases e with
    | resolution e =>
      obtain ⟨-, hexcuses⟩ := h
      cases e with
      | hostStable => exact absurd hexcuses hknown.1
      | hostUnknown => exact absurd hexcuses hknown.2
      | noDestinationCandidates =>
        obtain ⟨other, hother, hisempty⟩ := hexcuses
        exact hempty hother hisempty
      | emptyPlan =>
        obtain ⟨other, hother, hisempty⟩ := hexcuses
        exact hempty hother hisempty
      | wakeupFailed hosts => exact hexcuses.1
      | store e => exact hexcuses
    | _ => exact absurd h id

namespace Controller

/-- A preview agrees with a controller that was started on the same hosts, if the snapshot lists
them by id and the settings name a window of at least one sample, or nothing was observed.  The
batch is placed where the preview puts it, a resolution carries out the plan that relieves the host,
and a reconfiguration the one that consolidates the cluster. -/
theorem previews_agree {s : Snapshot α} (hs : s.Listed) {hosts : List (Host α)}
    (hperm : hosts.Perm s.hosts)
    (hwindow : s.settings.estimator.window ≠ 0 ∨ ∀ h ∈ s.hosts, h.Unobserved) :
    (∀ vms : List (Vm α), (vms.map Vm.id).Nodup →
      (∀ vm ∈ vms, ∀ h ∈ s.hosts, ¬ h.Has vm.id) →
        (Submission.plan s.settings 0 (.ofHosts hosts) vms).choices =
            (s.placement s.settings.placementPolicy vms).choices ∧
          ∀ task s₁ s₂, (start s.settings (.ofHosts hosts)).submit task vms = some s₁ →
            Runs (fun _ m => m.Alone 0) s₁ s₂ → s₂.Finished 0 →
              ∃ r, s₂.submissions.get? task = some r ∧
                Submission.Follows (s.placement s.settings.placementPolicy vms).choices.1 r
                  (s₂.calls.map CallRecord.call)) ∧
    (∀ source ∈ s.hosts, ∀ p, s.relief source = some p → ∀ s₁ s₂ r,
      (start s.settings (.ofHosts hosts)).begin (.resolve source.id p.state) = some s₁ →
        Runs (fun _ m => m.Enforced 0) s₁ s₂ → s₂.Returns 0 (.resolve source.id p.state) r →
          Resolution.Follows p.plan r) ∧
    ∀ s₁ s₂ r, (start s.settings (.ofHosts hosts)).begin .reconfigure = some s₁ →
      Runs (fun _ m => m.Enforced 0) s₁ s₂ → s₂.Returns 0 .reconfigure r →
        ∃ report, r = .ok report ∧ report.plan = s.consolidation := by
  have hgood := hs.consistent hperm
  refine ⟨fun vms hnodup habsent => ?_, fun source hsource p hp s₁ s₂ r hbegin hrun hreturns => ?_,
    fun s₁ s₂ r hbegin hrun hreturns => ?_⟩
  · have hchoices := Snapshot.choices_plan hs hperm hnodup habsent
    refine ⟨hchoices, fun task s₁ s₂ hsubmit hrun hend => ?_⟩
    have hleads := leads_submit (s := start s.settings (.ofHosts hosts)) hgood hsubmit
    obtain ⟨-, r, calls, hr, -, hcalls, haccounts⟩ := (hleads.run hrun).of_finished hend
    have hfollows := haccounts.follows
    refine ⟨r, hr, ?_⟩
    rw [show (start s.settings (.ofHosts hosts)).cursor = 0 from rfl,
      show (start s.settings (.ofHosts hosts)).settings = s.settings from rfl,
      show (start s.settings (.ofHosts hosts)).store = .ofHosts hosts from rfl, hchoices]
      at hfollows
    rwa [show s₂.calls.map CallRecord.call = calls from hcalls]
  · obtain ⟨-, hends⟩ := settles_of_run (s := start s.settings (.ofHosts hosts)) hgood rfl .idle
      (.inr ⟨source.id, p.state, rfl⟩) hbegin hrun hreturns
    exact hends.follows (Snapshot.plan?_relief hs hperm hwindow hsource hp)
  · obtain ⟨-, hends⟩ := settles_of_run (s := start s.settings (.ofHosts hosts)) hgood rfl .idle
      (.inl rfl) hbegin hrun hreturns
    cases r with
    | error e => exact absurd hends id
    | ok report =>
      exact ⟨report, rfl, hends.1.trans (Snapshot.plan_consolidation hs hperm hwindow)⟩

/-- Where a machine is placed that is submitted alone, if its host starts it. -/
def placedAlone (s : Controller ℚ) (vm : Vm ℚ) : Option (List PlacedVm) :=
  let moves : List (Move ℚ) := List.replicate 4 (.run 0) ++ [.answer 0 (.started (.ok [vm.id]))] ++
    List.replicate 6 (.run 0)
  (s.submit "task" [vm]).bind fun s₁ => (s₁.replay moves).bind fun s₂ =>
    (s₂.tasks[0]?).bind fun task =>
      if task.isFinished then (s₂.submissions.get? "task").map SubmissionResponse.placed else none

theorem exists_of_placedAlone {s : Controller ℚ} {vm : Vm ℚ} {placed : List PlacedVm}
    (h : s.placedAlone vm = some placed) : ∃ s₁ s₂ r, s.submit "task" [vm] = some s₁ ∧
      Runs (fun _ m => m.Alone 0) s₁ s₂ ∧ s₂.Finished 0 ∧ s₂.submissions.get? "task" = some r ∧
        r.placed = placed := by
  obtain ⟨s₁, hsubmit, h⟩ := Option.bind_eq_some_iff.1 h
  obtain ⟨s₂, hreplay, h⟩ := Option.bind_eq_some_iff.1 h
  obtain ⟨task, hget, h⟩ := Option.bind_eq_some_iff.1 h
  obtain ⟨hfinished, h⟩ := Option.ite_none_right_eq_some.1 h
  obtain ⟨r, hr, hplaced⟩ := Option.map_eq_some_iff.1 h
  refine ⟨s₁, s₂, r, hsubmit, runs_replay (fun _ m hm => ?_) hreplay, ⟨task, hget, hfinished⟩, hr,
    hplaced⟩
  simp only [List.append_assoc, List.mem_append, List.mem_singleton, List.mem_replicate] at hm
  rcases hm with ⟨-, rfl⟩ | rfl | ⟨-, rfl⟩ <;> rfl

/-- The cluster with the small host, as a snapshot. -/
def crowdedSnapshot : Snapshot ℚ := ⟨crowded.hosts.values, .standard⟩

/-- A controller that is given its hosts the other way round. -/
def reversed : Controller ℚ := start .standard (.ofHosts crowdedSnapshot.hosts.reverse)

theorem previews_agree_of_crowded : crowdedSnapshot.Listed ∧
    (∃ s₁ s₂ r, reversed.submit "task" [.new "n" ⟨1, 1, 1, 1⟩ 1] = some s₁ ∧
      Runs (fun _ m => m.Alone 0) s₁ s₂ ∧ s₂.submissions.get? "task" = some r ∧
        r.placed = [⟨"n", "a"⟩] ∧ Submission.Follows
          (crowdedSnapshot.placement .firstFit [.new "n" ⟨1, 1, 1, 1⟩ 1]).choices.1 r
            (s₂.calls.map CallRecord.call)) ∧
    (∃ p s₁ s₂ r, (crowdedSnapshot.host? "b").bind crowdedSnapshot.relief = some p ∧
      reversed.begin (.resolve "b" .overloaded) = some s₁ ∧
        Runs (fun _ m => m.Enforced 0) s₁ s₂ ∧
          s₂.Returns 0 (.resolve "b" .overloaded) (.ok r) ∧ r.plan.isEmpty = false ∧
            r.plan = p.plan) ∧
    ∃ s₁ s₂ r, reversed.begin .reconfigure = some s₁ ∧
      Runs (fun _ m => m.Enforced 0) s₁ s₂ ∧ s₂.Returns 0 .reconfigure (.ok r) ∧
        r.plan.isEmpty = false ∧ r.plan = crowdedSnapshot.consolidation := by
  have hlisted : crowdedSnapshot.Listed := Snapshot.listed_values consistent_crowded .standard
  obtain ⟨hplace, hresolve, hconsolidate⟩ := previews_agree hlisted
    (List.reverse_perm crowdedSnapshot.hosts) (.inl (by decide))
  refine ⟨hlisted, ?_, ?_, ?_⟩
  · have hplaced : reversed.placedAlone (.new "n" ⟨1, 1, 1, 1⟩ 1) = some [⟨"n", "a"⟩] := by
      decide +kernel
    obtain ⟨s₁, s₂, r, hsubmit, hrun, hend, hr, hplaced⟩ := exists_of_placedAlone hplaced
    have habsent : ∀ vm ∈ [Vm.new "n" (⟨1, 1, 1, 1⟩ : Resources ℚ) 1],
        ∀ h ∈ crowdedSnapshot.hosts, ¬ (h.vms.get? vm.id).isSome = true := by
      decide +kernel
    obtain ⟨r', hr', hfollows⟩ :=
      (hplace _ (by decide) habsent).2 "task" s₁ s₂ hsubmit hrun hend
    rw [hr] at hr'
    obtain rfl := Option.some.inj hr'
    exact ⟨s₁, s₂, r, hsubmit, hrun, hr, hplaced, hfollows⟩
  · have hrelief : (crowdedSnapshot.host? "b").bind (fun source =>
        (crowdedSnapshot.relief source).map fun p => (source.id, p.state)) =
          some ("b", .overloaded) := by
      decide +kernel
    obtain ⟨source, hsource, hrelief⟩ := Option.bind_eq_some_iff.1 hrelief
    obtain ⟨p, hp, heq⟩ := Option.map_eq_some_iff.1 hrelief
    obtain ⟨hid, hstate⟩ := Prod.mk.inj heq
    have hagrees := hresolve source (List.mem_of_find?_eq_some hsource) p hp
    rw [hid, hstate] at hagrees
    have hend : ((reversed.replayed (.resolve "b" .overloaded) oneLate).bind resolved).map
        (fun x => (x.1, x.2.1, x.2.2.plan.isEmpty)) = some ("b", .overloaded, false) := by
      cbv
    obtain ⟨⟨host, state, r⟩, hend, hread⟩ := Option.map_eq_some_iff.1 hend
    obtain ⟨rfl, rfl, hmoves⟩ : host = "b" ∧ state = .overloaded ∧ r.plan.isEmpty = false := by
      simpa using hread
    obtain ⟨s₁, s₂, hbegin, hrun, hreturns⟩ := exists_of_resolved enforced_oneLate hend
    refine ⟨p, s₁, s₂, r, ?_, hbegin, hrun, hreturns, hmoves, hagrees s₁ s₂ _ hbegin hrun hreturns⟩
    rw [hsource, Option.bind_some, hp]
  · have hend : ((reversed.replayed .reconfigure oneFailed).bind reconfigured).map
        (fun r => r.plan.isEmpty) = some false := by
      cbv
    obtain ⟨r, hend, hmoves⟩ := Option.map_eq_some_iff.1 hend
    obtain ⟨s₁, s₂, hbegin, hrun, hreturns⟩ := exists_of_reconfigured enforced_oneFailed hend
    obtain ⟨report, heq, hplan⟩ := hconsolidate s₁ s₂ _ hbegin hrun hreturns
    obtain rfl := Except.ok.inj heq
    exact ⟨s₁, s₂, r, hbegin, hrun, hreturns, hmoves, hplan⟩

/-- Two hosts, the later one first. -/
def outOfOrder : Snapshot ℚ :=
  ⟨[.new "b" ⟨10, 10, 10, 10⟩ 1, .new "a" ⟨10, 10, 10, 10⟩ 1], .standard⟩

/-- A machine that the preview puts on the host that is listed first is placed on the other one. -/
theorem preview_outOfOrder :
    (outOfOrder.placement .firstFit [.new "v" ⟨1, 1, 1, 1⟩ 1]).choices = ([("v", "b")], []) ∧
      ∃ s₁ s₂ r, (start .standard (.ofHosts outOfOrder.hosts)).submit "task"
          [.new "v" ⟨1, 1, 1, 1⟩ 1] = some s₁ ∧
        Runs (fun _ m => m.Alone 0) s₁ s₂ ∧ s₂.Finished 0 ∧
          s₂.submissions.get? "task" = some r ∧ r.placed = [⟨"v", "a"⟩] := by
  refine ⟨by decide +kernel, exists_of_placedAlone ?_⟩
  decide +kernel

end Controller

end ClusterControl
