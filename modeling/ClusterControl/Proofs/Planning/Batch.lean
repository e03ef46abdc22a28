import ClusterControl.Proofs.Planning.Filling

/-!
# A batch and its plan

A placement decides once for every machine of a batch, in batch order: it is assigned to a host, or
it is left unassigned.  The shares of the hosts are the assignments, sorted by host.

* `Placement.exists_choices` is the decision for each machine, and what the hosts gain by it;
  `Placement.perm_ids` says that no id is lost or doubled on the way.
* `Placement.moment` is how far a placement has come when a machine's turn comes.
* `PlacementPlan.get?_byHost` is the share of one host, and `PlacementPlan.perm_byHost` all shares
  together.
-/

namespace ClusterControl

variable {α : Type}

/-! ## Shares -/

namespace PlacementPlan

/-- The machines that a plan assigns to a host, in the order in which it does. -/
def share (p : PlacementPlan α) (host : HostId) : List (Vm α) :=
  (p.assignments.filter fun a => a.host == host).map Assignment.vm

/-- Adds a machine to the share of its host. -/
def sort (m : SortedMap (List (Vm α))) (a : Assignment α) : SortedMap (List (Vm α)) :=
  m.insert a.host ((m.get? a.host).getD [] ++ [a.vm])

/-- What a host has after some assignments is what it had, and its share of them. -/
theorem get?_foldl_sort (l : List (Assignment α)) (m : SortedMap (List (Vm α))) (host : HostId) :
    ((l.foldl sort m).get? host).getD [] =
        (m.get? host).getD [] ++ (l.filter fun a => a.host == host).map Assignment.vm ∧
      ((l.foldl sort m).get? host = none ↔
        m.get? host = none ∧ l.filter (fun a => a.host == host) = []) := by
  induction l generalizing m with
  | nil => simp
  | cons a rest ih =>
    obtain ⟨hshare, hnone⟩ := ih (sort m a)
    rw [List.foldl_cons, hshare, hnone, sort, SortedMap.get?_insert]
    by_cases hhost : host = a.host
    · subst hhost
      simp
    · have hne : (a.host == host) = false := beq_false_of_ne (Ne.symm hhost)
      simp [hhost, hne]

/-- A host gets its share, if it has one. -/
theorem get?_byHost (p : PlacementPlan α) (host : HostId) :
    p.byHost.get? host = if p.share host = [] then none else some (p.share host) := by
  obtain ⟨hshare, hnone⟩ := get?_foldl_sort p.assignments .empty host
  rw [SortedMap.get?_empty, Option.getD_none, List.nil_append] at hshare
  rw [SortedMap.get?_empty] at hnone
  rw [show p.byHost = p.assignments.foldl sort .empty from rfl]
  by_cases hempty : p.share host = []
  · rw [if_pos hempty, hnone]
    exact ⟨rfl, List.map_eq_nil_iff.1 hempty⟩
  · rw [if_neg hempty]
    cases hget : (p.assignments.foldl sort .empty).get? host with
    | none => exact absurd (List.map_eq_nil_iff.2 (hnone.1 hget).2) hempty
    | some vms =>
      rw [hget, Option.getD_some] at hshare
      rw [hshare]
      rfl

/-- A host has no share when nothing is assigned to it. -/
theorem share_eq_nil_iff {p : PlacementPlan α} {host : HostId} :
    p.share host = [] ↔ p.assignments.any (fun a => a.host == host) = false := by
  rw [share, List.map_eq_nil_iff, List.filter_eq_nil_iff, List.any_eq_false]

/-- What is in the share of a host is assigned to it. -/
theorem mem_of_byHost {p : PlacementPlan α} {host : HostId} {vms : List (Vm α)}
    (hshare : (host, vms) ∈ p.byHost.entries) {vm : Vm α} (hvm : vm ∈ vms) :
    (⟨vm, host⟩ : Assignment α) ∈ p.assignments := by
  have hget : p.byHost.get? host = some vms := SortedMap.get?_eq_some_iff.2 hshare
  rw [get?_byHost] at hget
  split at hget
  · exact absurd hget (by simp)
  · rw [← Option.some.inj hget] at hvm
    obtain ⟨a, ha, rfl⟩ := List.mem_map.1 hvm
    obtain ⟨hmem, hhost⟩ := List.mem_filter.1 ha
    rwa [← beq_iff_eq.1 hhost]

/-- One more assignment adds one machine to the shares. -/
theorem perm_sort (m : SortedMap (List (Vm α))) (a : Assignment α) :
    ((sort m a).entries.flatMap Prod.snd).Perm (m.entries.flatMap Prod.snd ++ [a.vm]) := by
  have hinsert := (m.perm_insert a.host ((m.get? a.host).getD [] ++ [a.vm])).flatMap_right Prod.snd
  rw [List.flatMap_cons] at hinsert
  refine hinsert.trans ?_
  cases hget : m.get? a.host with
  | none =>
    rw [SortedMap.erase_eq_self hget, Option.getD_none, List.nil_append]
    exact List.perm_append_comm
  | some vms =>
    have hm := (SortedMap.perm_of_get? hget).flatMap_right Prod.snd
    rw [List.flatMap_cons] at hm
    rw [Option.getD_some, List.append_assoc]
    refine .trans ?_ (hm.symm.append_right _)
    rw [List.append_assoc]
    exact List.perm_append_comm.append_left vms

/-- The shares of all hosts together are the assignments. -/
theorem perm_byHost (p : PlacementPlan α) :
    (p.byHost.entries.flatMap Prod.snd).Perm (p.assignments.map Assignment.vm) := by
  have hfold : ∀ (l : List (Assignment α)) (m : SortedMap (List (Vm α))),
      ((l.foldl sort m).entries.flatMap Prod.snd).Perm
        (m.entries.flatMap Prod.snd ++ l.map Assignment.vm) := by
    intro l
    induction l with
    | nil => intro m; simp
    | cons a rest ih =>
      intro m
      refine (ih (sort m a)).trans (((perm_sort m a).append_right _).trans ?_)
      rw [List.append_assoc, List.map_cons, List.singleton_append]
  exact hfold p.assignments .empty

end PlacementPlan

/-! ## Decisions -/

namespace Placement

/-- The plan says of each machine which host it goes to, or that it goes to none. -/
structure Decides (choices : List (Vm α × Option HostId)) (p : PlacementPlan α) : Prop where
  assigned : p.assignments = choices.filterMap fun x => x.2.map fun host => ⟨x.1.on host, host⟩
  left : p.unassigned = choices.filterMap fun x => if x.2 = none then some x.1 else none

/-- The plan with a decision about one more machine. -/
def decided (p : PlacementPlan α) (vm : Vm α) : Option HostId → PlacementPlan α
  | some host => p.assign vm host
  | none => p.leave vm

theorem Decides.decided {choices : List (Vm α × Option HostId)} {p : PlacementPlan α}
    (h : Decides choices p) (vm : Vm α) (choice : Option HostId) :
    Decides (choices ++ [(vm, choice)]) (decided p vm choice) := by
  cases choice with
  | some host =>
    exact ⟨by simp [Placement.decided, PlacementPlan.assign, h.assigned],
      by simp [Placement.decided, PlacementPlan.assign, h.left]⟩
  | none =>
    exact ⟨by simp [Placement.decided, PlacementPlan.leave, h.assigned],
      by simp [Placement.decided, PlacementPlan.leave, h.left]⟩

/-- What is assigned was sent to a host. -/
theorem Decides.mem_assignments {choices : List (Vm α × Option HostId)} {p : PlacementPlan α}
    (h : Decides choices p) {a : Assignment α} (ha : a ∈ p.assignments) :
    ∃ vm, (vm, some a.host) ∈ choices ∧ a.vm = vm.on a.host := by
  rw [h.assigned] at ha
  obtain ⟨⟨vm, choice⟩, hx, hassign⟩ := List.mem_filterMap.1 ha
  obtain ⟨host, rfl, rfl⟩ := Option.map_eq_some_iff.1 hassign
  exact ⟨vm, hx, rfl⟩

/-- What is unassigned was sent nowhere. -/
theorem Decides.mem_unassigned {choices : List (Vm α × Option HostId)} {p : PlacementPlan α}
    (h : Decides choices p) {vm : Vm α} (hvm : vm ∈ p.unassigned) : (vm, none) ∈ choices := by
  rw [h.left] at hvm
  obtain ⟨⟨w, choice⟩, hx, hleft⟩ := List.mem_filterMap.1 hvm
  obtain ⟨rfl, hw⟩ := Option.ite_none_right_eq_some.1 hleft
  rwa [← Option.some.inj hw]

/-- No id is lost, and none is doubled. -/
theorem Decides.perm_ids {choices : List (Vm α × Option HostId)} {p : PlacementPlan α}
    (h : Decides choices p) : ((p.assignments.map fun a => a.vm.id) ++ p.unassigned.map Vm.id).Perm
      ((choices.map Prod.fst).map Vm.id) := by
  rw [h.assigned, h.left]
  clear h
  induction choices with
  | nil => exact .refl _
  | cons x rest ih =>
    obtain ⟨vm, choice⟩ := x
    cases choice with
    | some host => exact ih.cons vm.id
    | none => exact List.perm_middle.trans (ih.cons vm.id)

variable [Quantity α]

/-- A placement under way decides once for every machine that is still to come, in their order, and
fills the hosts as it decides. -/
theorem exists_choices_foldl (p : PlacementPolicy) (vms : List (Vm α)) (s : Progress α) :
    ∃ choices, choices.map Prod.fst = vms ∧
      (∀ earlier, Decides earlier s.plan →
        Decides (earlier ++ choices) (vms.foldl (step p) s).plan) ∧
      Fills (fun _ => True) s.hosts choices (vms.foldl (step p) s).hosts := by
  induction vms generalizing s with
  | nil => exact ⟨[], rfl, fun earlier hs => by rwa [List.append_nil], .stop s.hosts⟩
  | cons vm rest ih =>
    obtain ⟨choices, hchoices, hdecides, hfills⟩ := ih (step p s vm)
    rw [List.foldl_cons]
    cases hchoice : choose p s vm with
    | some i =>
      obtain ⟨k, hk, htake, hstep⟩ := step_of_choose_eq_some hchoice
      rw [hstep] at hdecides hfills ⊢
      refine ⟨(vm, some k.id) :: choices, by rw [List.map_cons, hchoices], fun earlier hs => ?_,
        .take hk trivial htake hfills⟩
      rw [List.append_cons]
      exact hdecides _ (hs.decided vm (some k.id))
    | none =>
      obtain ⟨hfull, hstep⟩ := step_of_choose_eq_none hchoice
      rw [hstep] at hdecides hfills ⊢
      refine ⟨(vm, none) :: choices, by rw [List.map_cons, hchoices], fun earlier hs => ?_,
        .leave (fun k hk _ => hfull k hk) hfills⟩
      rw [List.append_cons]
      exact hdecides _ (hs.decided vm none)

/-- A placement decides once for every machine of the batch, in batch order, and fills the hosts as
it decides. -/
theorem exists_choices (p : PlacementPolicy) (cursor : Nat) (vms : List (Vm α))
    (hosts : List (Host α)) : ∃ choices, choices.map Prod.fst = vms ∧
      Decides choices (place p cursor vms hosts).plan ∧
        Fills (fun _ => True) hosts choices (place p cursor vms hosts).hosts := by
  rw [place_eq_foldl]
  obtain ⟨choices, hchoices, hdecides, hfills⟩ :=
    exists_choices_foldl p vms ⟨.empty, hosts, origin p cursor hosts.length⟩
  exact ⟨choices, hchoices, hdecides [] ⟨rfl, rfl⟩, hfills⟩

/-- How far a placement has come with the first machines of the batch. -/
def moment (p : PlacementPolicy) (cursor : Nat) (vms : List (Vm α)) (hosts : List (Host α))
    (t : Nat) : Progress α :=
  place p cursor (vms.take t) hosts

section

variable (p : PlacementPolicy) (cursor : Nat) (vms : List (Vm α)) (hosts : List (Host α))

theorem moment_succ {t : Nat} {vm : Vm α} (hvm : vms[t]? = some vm) :
    moment p cursor vms hosts (t + 1) = step p (moment p cursor vms hosts t) vm := by
  rw [moment, List.take_add_one, hvm, place_append]
  rfl

theorem moment_length : moment p cursor vms hosts vms.length = place p cursor vms hosts := by
  rw [moment, List.take_length]

/-- Between a moment and the end the hosts are filled with the machines that are still to come. -/
theorem exists_choices_moment (t : Nat) : ∃ choices, choices.map Prod.fst = vms.drop t ∧
    Fills (fun _ => True) (moment p cursor vms hosts t).hosts choices
      (place p cursor vms hosts).hosts := by
  obtain ⟨choices, hchoices, -, hfills⟩ :=
    exists_choices_foldl p (vms.drop t) (moment p cursor vms hosts t)
  rw [moment, ← place_append, List.take_append_drop] at hfills
  exact ⟨choices, hchoices, hfills⟩

variable {p cursor vms hosts}

/-- Whatever is assigned was given a host when its turn came. -/
theorem exists_turn {a : Assignment α} (ha : a ∈ (place p cursor vms hosts).plan.assignments) :
    ∃ t vm i k, vms[t]? = some vm ∧ choose p (moment p cursor vms hosts t) vm = some i ∧
      (moment p cursor vms hosts t).hosts[i]? = some k ∧ a = ⟨vm.on k.id, k.id⟩ := by
  have hturn : ∀ n, a ∈ (moment p cursor vms hosts n).plan.assignments →
      ∃ t vm i k, vms[t]? = some vm ∧ choose p (moment p cursor vms hosts t) vm = some i ∧
        (moment p cursor vms hosts t).hosts[i]? = some k ∧ a = ⟨vm.on k.id, k.id⟩ := by
    intro n
    induction n with
    | zero =>
      rw [moment, List.take_zero, place_eq_foldl]
      exact fun ha => absurd ha List.not_mem_nil
    | succ n ih =>
      cases hget : vms[n]? with
      | none =>
        rw [moment, List.take_add_one, hget, Option.toList_none, List.append_nil]
        exact ih
      | some vm =>
        rw [moment_succ p cursor vms hosts hget]
        cases hchoice : choose p (moment p cursor vms hosts n) vm with
        | none =>
          rw [(step_of_choose_eq_none hchoice).2]
          exact ih
        | some i =>
          obtain ⟨k, hk, -, hstep⟩ := step_of_choose_eq_some hchoice
          rw [hstep]
          intro ha
          rcases List.mem_append.1 ha with hearlier | hnow
          · exact ih hearlier
          · exact ⟨n, vm, i, k, hget, hchoice, hk, List.mem_singleton.1 hnow⟩
  rw [← moment_length] at ha
  exact hturn vms.length ha

end

/-- Each id of a batch is the id of an assigned machine or of an unassigned one, as often as it is
in the batch. -/
theorem perm_ids (p : PlacementPolicy) (cursor : Nat) (vms : List (Vm α)) (hosts : List (Host α)) :
    (((place p cursor vms hosts).plan.assignments.map fun a => a.vm.id) ++
      (place p cursor vms hosts).plan.unassigned.map Vm.id).Perm (vms.map Vm.id) := by
  obtain ⟨choices, rfl, hdecides, -⟩ := exists_choices p cursor vms hosts
  exact hdecides.perm_ids

/-- What is left unassigned is of the batch. -/
theorem mem_of_unassigned {p : PlacementPolicy} {cursor : Nat} {vms : List (Vm α)}
    {hosts : List (Host α)} {vm : Vm α} (hvm : vm ∈ (place p cursor vms hosts).plan.unassigned) :
    vm ∈ vms := by
  obtain ⟨choices, rfl, hdecides, -⟩ := exists_choices p cursor vms hosts
  exact List.mem_map_of_mem (f := Prod.fst) (hdecides.mem_unassigned hvm)

end Placement

end ClusterControl
