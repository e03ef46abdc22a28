import ClusterControl.Planning.Consolidation
import ClusterControl.Proofs.Planning.Growth

/-!
# Serial consolidation

A round of consolidation empties one host or changes nothing.  `Consolidation.Rehomes` is what a
round does on the way, one machine at a time; from it follow the facts that a round needs: machines
arrive where they are sent, taking them back restores the hosts, and no machine is ever on two
hosts.  `Consolidation.planned_consolidate` says that a plan sends machines only to hosts that are
left in the end, and that these have received them.
-/

namespace ClusterControl.Consolidation

variable {α : Type}

/-! ## Hosts of a round -/

/-- Every machine is filed under its id. -/
def Filed (hosts : List (Host α)) : Prop :=
  ∀ h ∈ hosts, ∀ ⦃v w⦄, h.vms.get? v = some w → w.id = v

/-- The machines are on no host but the source. -/
def Free (source : HostId) (hosts : List (Host α)) (vms : List (Vm α)) : Prop :=
  ∀ k ∈ hosts, k.id ≠ source → ∀ vm ∈ vms, ¬k.Has vm.id

/-- Once a machine has moved, the other ones are still on no host but the source. -/
theorem Free.set {source : HostId} {hosts : List (Host α)} {vm : Vm α} {rest : List (Vm α)}
    (h : Free source hosts (vm :: rest)) (hnodup : ((vm :: rest).map Vm.id).Nodup) {i : Nat}
    {k : Host α} (hget : hosts[i]? = some k) (hother : k.id ≠ source) :
    Free source (hosts.set i (k.assign vm)) rest := by
  intro k' hk' hid w hw hhas
  obtain hmem | rfl := List.mem_or_eq_of_mem_set hk'
  · exact h k' hmem hid w (List.mem_cons_of_mem _ hw) hhas
  · rcases (k.has_assign vm w.id).1 hhas with heq | hhas
    · exact (List.nodup_cons.1 hnodup).1 (heq ▸ List.mem_map.2 ⟨w, hw, rfl⟩)
    · exact h k (List.mem_of_getElem? hget) hother w (List.mem_cons_of_mem _ hw) hhas

theorem unassign_assign {k : Host α} {vm : Vm α} (h : ¬k.Has vm.id) :
    (k.assign vm).unassign vm.id = k := by
  have hvms : (k.assign vm).vms.erase vm.id = k.vms := by
    refine SortedMap.ext_get? fun v => ?_
    rw [SortedMap.get?_erase, Host.assign, SortedMap.get?_insert]
    by_cases hv : v = vm.id
    · rw [if_pos hv, hv]
      exact (Option.not_isSome_iff_eq_none.1 h).symm
    · rw [if_neg hv, if_neg hv]
  rw [Host.unassign, hvms]
  rfl

/-- Taking machines off hosts in another order makes no difference. -/
theorem undo_modify (hosts : List (Host α)) (moved : List (VmId × Nat)) (i : Nat) (v : VmId) :
    undo (hosts.modify i fun h => h.unassign v) moved =
      (undo hosts moved).modify i fun h => h.unassign v := by
  have hcomm : ∀ (h : Host α) (u w : VmId), (h.unassign u).unassign w =
      (h.unassign w).unassign u := by
    intro h u w
    have hvms : (h.vms.erase u).erase w = (h.vms.erase w).erase u := by
      refine SortedMap.ext_get? fun x => ?_
      simp only [SortedMap.get?_erase]
      by_cases hu : x = u <;> by_cases hw : x = w <;> simp [hu, hw]
    rw [Host.unassign, Host.unassign, Host.unassign, Host.unassign, hvms]
  unfold undo
  induction moved generalizing hosts with
  | nil => rfl
  | cons x rest ih =>
    rw [List.foldl_cons, List.foldl_cons, ← ih]
    congr 1
    refine List.ext_getElem? fun n => ?_
    simp only [List.getElem?_modify]
    cases hosts[n]? with
    | none => rfl
    | some h =>
      by_cases hi : i = n <;> by_cases hx : x.2 = n <;> simp [hi, hx, hcomm]

/-! ## Hosts that share nothing -/

/-- No two hosts have one id, and no machine is on two of the hosts that count. -/
def Apart (counts : Host α → Prop) (hosts : List (Host α)) : Prop :=
  hosts.Pairwise fun h k => h.id ≠ k.id ∧ (counts h → counts k → ∀ v, ¬(h.Has v ∧ k.Has v))

/-- A relation between any two members outlasts the change of one that stands in it to the rest. -/
theorem pairwise_set {β : Type} {R : β → β → Prop} (hsymm : ∀ {x y}, R x y → R y x) {l : List β}
    (h : l.Pairwise R) {i : Nat} {x : β} (hx : ∀ {j y}, j ≠ i → l[j]? = some y → R y x) :
    (l.set i x).Pairwise R := by
  refine List.pairwise_iff_getElem.2 fun a b ha hb hlt => ?_
  rw [List.length_set] at ha hb
  rw [List.getElem_set, List.getElem_set]
  by_cases hia : i = a
  · have hib : i ≠ b := by omega
    rw [if_pos hia, if_neg hib]
    exact hsymm (hx hib.symm (List.getElem?_eq_getElem hb))
  · rw [if_neg hia]
    by_cases hib : i = b
    · rw [if_pos hib]
      exact hx (fun e => hia e.symm) (List.getElem?_eq_getElem ha)
    · rw [if_neg hib]
      exact List.pairwise_iff_getElem.1 h a b ha hb hlt

namespace Apart

variable {counts : Host α → Prop} {hosts : List (Host α)}

theorem symm {h k : Host α}
    (hhk : h.id ≠ k.id ∧ (counts h → counts k → ∀ v, ¬(h.Has v ∧ k.Has v))) :
    k.id ≠ h.id ∧ (counts k → counts h → ∀ v, ¬(k.Has v ∧ h.Has v)) :=
  ⟨hhk.1.symm, fun hk hh v hv => hhk.2 hh hk v hv.symm⟩

theorem perm {hosts' : List (Host α)} (h : Apart counts hosts) (hp : hosts'.Perm hosts) :
    Apart counts hosts' :=
  (hp.pairwise_iff Apart.symm).2 h

theorem ids (h : Apart counts hosts) : (hosts.map Host.id).Nodup :=
  List.pairwise_map.2 (List.Pairwise.imp And.left h)

theorem weaken {counts' : Host α → Prop} (h : Apart counts hosts)
    (hcounts : ∀ k ∈ hosts, counts' k → counts k) : Apart counts' hosts :=
  List.Pairwise.imp_of_mem (fun ha hb hab =>
    ⟨hab.1, fun ha' hb' => hab.2 (hcounts _ ha ha') (hcounts _ hb hb')⟩) h

/-- Hosts at two positions share nothing. -/
theorem at_positions (h : Apart counts hosts) {i j : Nat} {a b : Host α} (ha : hosts[i]? = some a)
    (hb : hosts[j]? = some b) (hij : i ≠ j) :
    a.id ≠ b.id ∧ (counts a → counts b → ∀ v, ¬(a.Has v ∧ b.Has v)) := by
  obtain ⟨hi, rfl⟩ := List.getElem?_eq_some_iff.1 ha
  obtain ⟨hj, rfl⟩ := List.getElem?_eq_some_iff.1 hb
  rcases Nat.lt_or_gt_of_ne hij with hlt | hgt
  · exact List.pairwise_iff_getElem.1 h i j hi hj hlt
  · exact Apart.symm (List.pairwise_iff_getElem.1 h j i hj hi hgt)

/-- Hosts share nothing when every machine has its place. -/
theorem of_places {place : VmId → Option HostId} (hids : (hosts.map Host.id).Nodup)
    (hplaces : ∀ h ∈ hosts, ∀ v, h.Has v → place v = some h.id) : Apart counts hosts := by
  refine (List.pairwise_map.1 hids).imp_of_mem fun {h k} hh hk hid => ⟨hid, fun _ _ v hv => hid ?_⟩
  exact Option.some.inj ((hplaces h hh v hv.1).symm.trans (hplaces k hk v hv.2))

theorem filter (h : Apart counts hosts) (p : Host α → Bool) : Apart counts (hosts.filter p) :=
  List.Pairwise.sublist List.filter_sublist h

/-- Hosts that share nothing are told apart by any machine. -/
theorem eq_of_has (h : Apart (fun _ => True) hosts) {a b : Host α} (ha : a ∈ hosts) (hb : b ∈ hosts)
    {v : VmId} (hav : a.Has v) (hbv : b.Has v) : a = b := by
  obtain ⟨i, hi⟩ := List.mem_iff_getElem?.1 ha
  obtain ⟨j, hj⟩ := List.mem_iff_getElem?.1 hb
  by_cases hij : i = j
  · subst hij
    exact Option.some.inj (hi.symm.trans hj)
  · exact absurd ⟨hav, hbv⟩ ((h.at_positions hi hj hij).2 trivial trivial v)

/-- A host takes a machine that none of the others that count has. -/
theorem assign (h : Apart counts hosts) {i : Nat} {k : Host α} {vm : Vm α}
    (hk : hosts[i]? = some k) (hcounts : counts k)
    (hnew : ∀ {j y}, j ≠ i → hosts[j]? = some y → counts y → ¬y.Has vm.id) :
    Apart counts (hosts.set i (k.assign vm)) := by
  refine pairwise_set Apart.symm h fun {j y} hj hy => ?_
  obtain ⟨hid, hshare⟩ := h.at_positions hy hk hj
  refine ⟨hid, fun hcy _ v ⟨hyv, hkv⟩ => ?_⟩
  rcases (k.has_assign vm v).1 hkv with rfl | hkv
  · exact hnew hj hy hcy hyv
  · exact hshare hcy hcounts v ⟨hyv, hkv⟩

end Apart

/-! ## What a round records -/

/-- After moves are recorded, what is planned for a machine is one of them, or it is not among them
and is planned as before. -/
theorem get?_record {source : HostId} {hosts : List (Host α)} {v : VmId} {m : Migration}
    {moved : List (VmId × Nat)} {plan : MigrationPlan}
    (hmoved : ∀ x ∈ moved, ∃ k, hosts[x.2]? = some k)
    (hm : (record source hosts plan moved).migrations.get? v = some m) :
    (m.vm = v ∧ ∃ x ∈ moved, x.1 = v ∧ ∃ k, hosts[x.2]? = some k ∧ m.destination = k.id) ∨
      v ∉ moved.map (·.1) ∧ plan.migrations.get? v = some m := by
  induction moved generalizing plan with
  | nil => exact .inr ⟨List.not_mem_nil, hm⟩
  | cons x rest ih =>
    obtain ⟨k, hk⟩ := hmoved x List.mem_cons_self
    have hfirst : record source hosts plan (x :: rest) =
        record source hosts (plan.add x.1 (some source) k.id) rest := by
      simp only [record, List.foldl_cons, hk]
    rw [hfirst] at hm
    rcases ih (fun y hy => hmoved y (List.mem_cons_of_mem _ hy)) hm with
      ⟨hv, y, hy, hin⟩ | ⟨hnot, hold⟩
    · exact .inl ⟨hv, y, List.mem_cons_of_mem _ hy, hin⟩
    · rcases MigrationPlan.get?_add hold with ⟨hv, hmv, hd⟩ | ⟨hv, hold⟩
      · exact .inl ⟨hmv.trans hv.symm, x, List.mem_cons_self, hv.symm, k, hk, hd⟩
      · exact .inr ⟨fun hmem => (List.mem_cons.1 hmem).elim hv hnot, hold⟩

/-- The ids of the machines on a host are all different. -/
theorem nodup_ids {h : Host α} (hfiled : ∀ ⦃v w⦄, h.vms.get? v = some w → w.id = v) :
    (h.vms.values.map Vm.id).Nodup := by
  have hids : h.vms.values.map Vm.id = h.vms.keys := by
    rw [SortedMap.values, SortedMap.keys, List.map_map]
    exact List.map_congr_left fun e he => hfiled (SortedMap.get?_eq_some_iff.2 he)
  rw [hids]
  exact h.vms.nodup_keys

/-- The machines of a host are the ones filed there. -/
theorem has_iff_mem_ids {h : Host α} (hfiled : ∀ ⦃v w⦄, h.vms.get? v = some w → w.id = v)
    (v : VmId) : h.Has v ↔ v ∈ h.vms.values.map Vm.id := by
  constructor
  · intro hv
    obtain ⟨w, hw⟩ := Option.isSome_iff_exists.1 hv
    exact List.mem_map.2 ⟨w, SortedMap.mem_values_iff.2 ⟨v, hw⟩, hfiled hw⟩
  · intro hv
    obtain ⟨w, hw, rfl⟩ := List.mem_map.1 hv
    obtain ⟨v, hget⟩ := SortedMap.mem_values_iff.1 hw
    rw [hfiled hget, Host.Has, hget]
    rfl

/-! ## Between rounds -/

/-- What holds of a run between two rounds: its hosts are planned copies with separate machines, and
what it has planned has arrived on them. -/
structure Sound (start : List (Host α)) (Φ : Host α → Prop) (s : Round α) : Prop where
  planned : Planned start Φ s.hosts
  arrives : s.plan.Arrives s.hosts
  filed : Filed s.hosts
  apart : Apart (fun _ => True) s.hosts

/-- Hosts may be put in another order. -/
theorem Sound.perm {start : List (Host α)} {Φ : Host α → Prop} {s : Round α}
    (h : Sound start Φ s) {hosts : List (Host α)}
    (hp : hosts.Perm s.hosts) (tried : List HostId) : Sound start Φ ⟨hosts, tried, s.plan⟩ :=
  ⟨h.planned.perm hp, h.arrives.perm hp, fun k hk => h.filed k (hp.mem_iff.1 hk), h.apart.perm hp⟩

variable [Quantity α]

/-! ## Moving the machines of one host -/

/-- Machines of a source go, one after the other, to other hosts that can take them, until none is
left or one has to stay. -/
inductive Rehomes (source : HostId) :
    List (Host α) → List (Vm α) → List (Host α) → List (VmId × Nat) → Prop
  | stop (hosts : List (Host α)) (vms : List (Vm α)) : Rehomes source hosts vms hosts []
  | move {hosts after : List (Host α)} {rest : List (Vm α)} {moved : List (VmId × Nat)} {i : Nat}
    {h : Host α} {vm : Vm α} (hget : hosts[i]? = some h) (hother : h.id ≠ source)
    (htake : h.canTake vm = true)
    (hrest : Rehomes source (hosts.set i (h.assign vm)) rest after moved) :
    Rehomes source hosts (vm :: rest) after ((vm.id, i) :: moved)

theorem rehomes_rehome (source : HostId) (hosts : List (Host α)) (vms : List (Vm α)) :
    Rehomes source hosts vms (rehome source hosts vms).1 (rehome source hosts vms).2 := by
  induction vms generalizing hosts with
  | nil => exact .stop hosts []
  | cons vm rest ih =>
    unfold rehome
    dsimp only
    split
    · rename_i i h hsome
      obtain ⟨i', hi', hget⟩ := Option.bind_eq_some_iff.1 hsome
      obtain ⟨h', hh', heq⟩ := Option.map_eq_some_iff.1 hget
      obtain ⟨rfl, rfl⟩ := Prod.mk.inj heq
      obtain ⟨hlt, htarget, -⟩ := List.findIdx?_eq_some_iff_getElem.1 hi'
      rw [(List.getElem?_eq_some_iff.1 hh').2, Bool.and_eq_true_iff, bne_iff_ne] at htarget
      exact .move hh' htarget.1 htarget.2 (ih _)
    · exact .stop hosts (vm :: rest)

section

variable {source : HostId} {hosts after : List (Host α)} {vms : List (Vm α)}
  {moved : List (VmId × Nat)}

theorem Rehomes.planned {start : List (Host α)} {Φ : Host α → Prop}
    (h : Rehomes source hosts vms after moved)
    (hΦ : ∀ k vm, vm ∈ vms → Φ k → k.canTake vm = true → Φ (k.assign vm))
    (hosts_planned : Planned start Φ hosts) : Planned start Φ after := by
  induction h with
  | stop => exact hosts_planned
  | @move hosts _ _ _ _ k vm hget _ htake _ ih =>
    have hfine := hosts_planned.fine k (List.mem_of_getElem? hget)
    exact ih (fun k' vm' hvm' => hΦ k' vm' (List.mem_cons_of_mem _ hvm'))
      (hosts_planned.assign hget (hΦ k vm List.mem_cons_self hfine htake))

/-- Every host keeps its place in the list and its machines. -/
theorem Rehomes.grows (h : Rehomes source hosts vms after moved) {n : Nat} {k : Host α}
    (hk : hosts[n]? = some k) :
    ∃ k', after[n]? = some k' ∧ k'.id = k.id ∧ ∀ v, k.Has v → k'.Has v := by
  induction h generalizing k with
  | stop => exact ⟨k, hk, rfl, fun _ hv => hv⟩
  | @move hosts _ _ _ i k₁ vm hget _ _ _ ih =>
    have hlt : i < hosts.length := (List.getElem?_eq_some_iff.1 hget).1
    by_cases hni : i = n
    · subst hni
      rw [hget] at hk
      obtain rfl := Option.some.inj hk
      obtain ⟨k', hk', hid, hhas⟩ := ih (List.getElem?_set_self hlt)
      exact ⟨k', hk', hid, fun v hv => hhas v ((k₁.has_assign vm v).2 (.inr hv))⟩
    · exact ih (by rw [List.getElem?_set_ne hni, hk])

/-- A machine that was moved is on the host it was moved to. -/
theorem Rehomes.arrived (h : Rehomes source hosts vms after moved) :
    ∀ x ∈ moved, ∃ k, after[x.2]? = some k ∧ k.id ≠ source ∧ k.Has x.1 := by
  induction h with
  | stop => exact fun x hx => absurd hx List.not_mem_nil
  | @move hosts _ _ _ i k vm hget hother _ hrest ih =>
    intro x hx
    rcases List.mem_cons.1 hx with rfl | hx
    · have hlt : i < hosts.length := (List.getElem?_eq_some_iff.1 hget).1
      obtain ⟨k', hk', hid, hhas⟩ := hrest.grows (List.getElem?_set_self hlt)
      exact ⟨k', hk', by rwa [hid], hhas _ ((k.has_assign vm vm.id).2 (.inl rfl))⟩
    · exact ih x hx

/-- The machines are moved in order. -/
theorem Rehomes.moved_prefix (h : Rehomes source hosts vms after moved) :
    moved.map (·.1) <+: vms.map Vm.id := by
  induction h with
  | stop => exact List.nil_prefix
  | move _ _ _ _ ih => exact List.cons_prefix_cons.2 ⟨rfl, ih⟩

theorem Rehomes.filed (h : Rehomes source hosts vms after moved) (hosts_filed : Filed hosts) :
    Filed after := by
  induction h with
  | stop => exact hosts_filed
  | @move hosts _ _ _ i k vm hget _ _ _ ih =>
    refine ih fun k' hk' v w hw => ?_
    obtain hmem | rfl := List.mem_or_eq_of_mem_set hk'
    · exact hosts_filed k' hmem hw
    · rw [Host.assign, SortedMap.get?_insert] at hw
      split at hw
      · rename_i hv
        rw [← Option.some.inj hw, hv]
        rfl
      · exact hosts_filed k (List.mem_of_getElem? hget) hw

/-- Taking every moved machine back restores the hosts. -/
theorem Rehomes.undo_eq (h : Rehomes source hosts vms after moved)
    (hnodup : (vms.map Vm.id).Nodup) (hfree : Free source hosts vms) :
    undo after moved = hosts := by
  induction h with
  | stop => rfl
  | @move hosts after _ moved i k vm hget hother _ _ ih =>
    obtain ⟨hlt, hk⟩ := List.getElem?_eq_some_iff.1 hget
    have hrest := ih (List.nodup_cons.1 hnodup).2 (hfree.set hnodup hget hother)
    have hundo : undo after ((vm.id, i) :: moved) =
        undo (after.modify i fun h => h.unassign vm.id) moved := rfl
    have hkept := hfree k (List.mem_of_getElem? hget) hother vm List.mem_cons_self
    rw [hundo, undo_modify, hrest, List.modify_eq_set_getElem?]
    simp only [List.getElem?_set_self hlt, Option.map_eq_map, Option.map_some, Option.getD_some,
      List.set_set, unassign_assign hkept]
    rw [← hk, List.set_getElem_self]

/-- While the machines move, no machine is on two hosts other than the source. -/
theorem Rehomes.apart (h : Rehomes source hosts vms after moved)
    (hnodup : (vms.map Vm.id).Nodup) (hfree : Free source hosts vms)
    (hosts_apart : Apart (fun k => k.id ≠ source) hosts) :
    Apart (fun k => k.id ≠ source) after := by
  induction h with
  | stop => exact hosts_apart
  | @move hosts _ _ _ i k vm hget hother _ _ ih =>
    refine ih (List.nodup_cons.1 hnodup).2 (hfree.set hnodup hget hother) ?_
    refine hosts_apart.assign hget hother fun {j y} _ hy hid => ?_
    exact hfree y (List.mem_of_getElem? hy) hid vm List.mem_cons_self

end

/-! ## Rounds -/

variable {start : List (Host α)} {Φ : Host α → Prop}

/-- A source that was emptied is released: what its machines were to do is replaced by their move,
and what was to go to other hosts is still there. -/
theorem Sound.release {hosts after : List (Host α)} {tried : List HostId} {plan : MigrationPlan}
    (h : Sound start Φ ⟨hosts, tried, plan⟩) (tried' : List HostId) {i : Nat} {source : Host α}
    (hsource : hosts[i]? = some source) {vms : List (Vm α)} {moved : List (VmId × Nat)}
    (hvms : vms.Perm source.vms.values) (hmoves : Rehomes source.id hosts vms after moved)
    (hall : moved.length = vms.length) (hplanned : Planned start Φ after)
    (hapart : Apart (fun k => k.id ≠ source.id) after) :
    Sound start Φ ⟨after.eraseIdx i, tried', record source.id after plan moved⟩ := by
  have hsub : (after.eraseIdx i).Sublist after := List.eraseIdx_sublist after i
  have hothers : ∀ {k}, k ∈ after.eraseIdx i → k.id ≠ source.id := by
    intro k hk
    obtain ⟨n, hn, hk⟩ := List.mem_eraseIdx_iff_getElem?.1 hk
    obtain ⟨source', hsource', hid, -⟩ := hmoves.grows hsource
    have hne := (hapart.at_positions hk hsource' hn).1
    rwa [hid] at hne
  refine ⟨hplanned.sublist hsub, ?_, fun k hk => hmoves.filed h.filed k (hsub.mem hk), ?_⟩
  · intro v m hm
    have hindices : ∀ x ∈ moved, ∃ k, after[x.2]? = some k := fun x hx => by
      obtain ⟨k, hk, -⟩ := hmoves.arrived x hx
      exact ⟨k, hk⟩
    rcases get?_record hindices hm with ⟨hv, x, hx, rfl, k, hk, hd⟩ | ⟨hnot, hold⟩
    · obtain ⟨k', hk', hid, hhas⟩ := hmoves.arrived x hx
      rw [hk] at hk'
      obtain rfl := Option.some.inj hk'
      refine ⟨hv, k, List.mem_eraseIdx_iff_getElem?.2 ⟨x.2, fun hxi => ?_, hk⟩, hd.symm, hhas⟩
      obtain ⟨source', hsource', hsid, -⟩ := hmoves.grows hsource
      rw [hxi, hsource'] at hk
      exact hid (Option.some.inj hk ▸ hsid)
    · obtain ⟨hv, k, hk, hd, hhas⟩ := h.arrives hold
      obtain ⟨n, hn⟩ := List.mem_iff_getElem?.1 hk
      refine ⟨hv, ?_⟩
      by_cases hni : n = i
      · -- the machine was to go to the source, so it has moved again
        have hids : moved.map (·.1) = vms.map Vm.id :=
          hmoves.moved_prefix.eq_of_length (by rw [List.length_map, List.length_map, hall])
        rw [hni, hsource] at hn
        obtain rfl := Option.some.inj hn
        refine absurd ?_ hnot
        rw [hids, (hvms.map Vm.id).mem_iff]
        exact (has_iff_mem_ids (h.filed source hk) v).1 hhas
      · obtain ⟨k', hk', hid, hgrown⟩ := hmoves.grows hn
        exact ⟨k', List.mem_eraseIdx_iff_getElem?.2 ⟨n, hni, hk'⟩, hid.trans hd, hgrown v hhas⟩
  · have hrest : Apart (fun k => k.id ≠ source.id) (after.eraseIdx i) :=
      List.Pairwise.sublist hsub hapart
    exact hrest.weaken fun k hk _ => hothers hk

/-- An attempt to empty the host at a position: its machines move, as far as there is room. -/
structure Attempt (s : Round α) (hosts : List (Host α)) (i : Nat) (source : Host α)
    (vms : List (Vm α)) (after : List (Host α)) (moved : List (VmId × Nat)) : Prop where
  perm : hosts.Perm s.hosts
  get : hosts[i]? = some source
  sorted : vms.Perm source.vms.values
  moves : Rehomes source.id hosts vms after moved

theorem Attempt.nodup {s : Round α} {hosts after : List (Host α)} {i : Nat} {source : Host α}
    {vms : List (Vm α)} {moved : List (VmId × Nat)} (a : Attempt s hosts i source vms after moved)
    (h : Sound start Φ s) : (vms.map Vm.id).Nodup :=
  (a.sorted.map Vm.id).nodup_iff.2
    (nodup_ids (h.filed source (a.perm.mem_iff.1 (List.mem_of_getElem? a.get))))

theorem Attempt.free {s : Round α} {hosts after : List (Host α)} {i : Nat} {source : Host α}
    {vms : List (Vm α)} {moved : List (VmId × Nat)} (a : Attempt s hosts i source vms after moved)
    (h : Sound start Φ s) : Free source.id hosts vms := by
  intro other hother hid vm hvm hhas
  obtain ⟨n, hn⟩ := List.mem_iff_getElem?.1 hother
  have hni : n ≠ i := by
    rintro rfl
    rw [a.get] at hn
    exact hid (congrArg Host.id (Option.some.inj hn)).symm
  refine ((h.apart.perm a.perm).at_positions hn a.get hni).2 trivial trivial vm.id ⟨hhas, ?_⟩
  have hfiled := h.filed source (a.perm.mem_iff.1 (List.mem_of_getElem? a.get))
  exact (has_iff_mem_ids hfiled vm.id).2 (List.mem_map.2 ⟨vm, a.sorted.mem_iff.1 hvm, rfl⟩)

/-- A round releases the host that it tries to empty, or leaves everything where it was. -/
theorem Sound.round_cases {k : Ranking α} {s s' : Round α} (h : Sound start Φ s)
    (hround : round k s = some s') : ∃ hosts i source vms after moved,
      Attempt s hosts i source vms after moved ∧
        ((moved.length = vms.length ∧ s' = ⟨after.eraseIdx i, source.id :: s.tried,
          { record source.id after s.plan moved with
            hostsReleased := (record source.id after s.plan moved).hostsReleased + 1 }⟩) ∨
        s' = ⟨hosts, source.id :: s.tried, s.plan⟩) := by
  unfold Consolidation.round at hround
  dsimp only at hround
  split at hround
  · exact absurd hround (by simp)
  rename_i i source hsome
  obtain ⟨i', -, hget⟩ := Option.bind_eq_some_iff.1 hsome
  obtain ⟨source', hsource, heq⟩ := Option.map_eq_some_iff.1 hget
  obtain ⟨rfl, rfl⟩ := Prod.mk.inj heq
  have hattempt : Attempt s _ i' source' _ _ _ := ⟨k.perm_sortHosts .decreasing s.hosts, hsource,
    k.perm_sortVms .decreasing source'.vms.values, rehomes_rehome source'.id _ _⟩
  refine ⟨_, i', source', _, _, _, hattempt, ?_⟩
  split at hround
  · rename_i hall
    exact .inl ⟨hall, (Option.some.inj hround).symm⟩
  · rw [hattempt.moves.undo_eq (hattempt.nodup h) (hattempt.free h)] at hround
    exact .inr (Option.some.inj hround).symm

/-- A round leaves a sound run sound. -/
theorem Sound.round {k : Ranking α} {s s' : Round α} (h : Sound start Φ s)
    (hΦ : ∀ h k vm, vm ∈ k.vms.values → Φ k → Φ h → h.canTake vm = true → Φ (h.assign vm))
    (hround : round k s = some s') : Sound start Φ s' := by
  obtain ⟨hosts, i, source, vms, after, moved, a, ⟨hall, rfl⟩ | rfl⟩ := h.round_cases hround
  · have hsorted := h.perm a.perm s.tried
    have hfine := hsorted.planned.fine source (List.mem_of_getElem? a.get)
    have hplanned := a.moves.planned
      (fun h vm hvm => hΦ h source vm (a.sorted.mem_iff.1 hvm) hfine) hsorted.planned
    have hapart := a.moves.apart (a.nodup h) (a.free h)
      (hsorted.apart.weaken fun _ _ _ => trivial)
    have hreleased := hsorted.release (source.id :: s.tried) a.get a.sorted a.moves hall hplanned
      hapart
    exact ⟨hreleased.planned, hreleased.arrives, hreleased.filed, hreleased.apart⟩
  · exact h.perm a.perm _

theorem Sound.rounds {k : Ranking α} {s : Round α} (h : Sound start Φ s)
    (hΦ : ∀ h k vm, vm ∈ k.vms.values → Φ k → Φ h → h.canTake vm = true → Φ (h.assign vm))
    (n : Nat) : Sound start Φ (rounds k n s) := by
  induction n generalizing s with
  | zero => exact h
  | succ n ih =>
    unfold Consolidation.rounds
    split
    · rename_i s' hround
      exact ih (h.round hΦ hround)
    · exact h.perm (k.perm_sortHosts .decreasing s.hosts) s.tried

/-- Where a consolidation stands when it ends. -/
def finish (k : Ranking α) (hosts : List (Host α)) : Round α :=
  rounds k (hosts.filter fun h => !h.isPassive).length
    ⟨hosts.filter fun h => !h.isPassive, [], .empty⟩

theorem sound_finish (k : Ranking α) {hosts : List (Host α)} (hfiled : Filed hosts)
    (hapart : Apart (fun _ => True) hosts) (hhosts : ∀ h ∈ hosts, h.isPassive = false → Φ h)
    (hΦ : ∀ h k vm, vm ∈ k.vms.values → Φ k → Φ h → h.canTake vm = true → Φ (h.assign vm)) :
    Sound (hosts.filter fun h => !h.isPassive) Φ (finish k hosts) := by
  have hawake : ∀ h ∈ hosts.filter fun h => !h.isPassive, Φ h := by
    intro h hh
    obtain ⟨hmem, hstatus⟩ := List.mem_filter.1 hh
    exact hhosts h hmem (by simpa using hstatus)
  have hstart : Sound (hosts.filter fun h => !h.isPassive) Φ
      ⟨hosts.filter fun h => !h.isPassive, [], .empty⟩ :=
    ⟨.start (hapart.filter _).ids hawake, MigrationPlan.arrives_empty _,
      fun h hh => hfiled h (List.mem_of_mem_filter hh), hapart.filter _⟩
  exact hstart.rounds hΦ _

/-- A consolidation is planned on copies of the hosts that are not passive, and each machine that it
moves arrives on one of them. -/
theorem planned_consolidate (k : Ranking α) {hosts : List (Host α)} (hfiled : Filed hosts)
    (hapart : Apart (fun _ => True) hosts) (hhosts : ∀ h ∈ hosts, h.isPassive = false → Φ h)
    (hΦ : ∀ h k vm, vm ∈ k.vms.values → Φ k → Φ h → h.canTake vm = true → Φ (h.assign vm)) :
    ∃ copies, Planned (hosts.filter fun h => !h.isPassive) Φ copies ∧
      (consolidate k hosts).Arrives copies := by
  have hfinal := sound_finish k hfiled hapart hhosts hΦ
  exact ⟨_, hfinal.planned, hfinal.arrives⟩

end ClusterControl.Consolidation
