import ClusterControl.Proofs.Planning.Evacuation

/-!
# What a released host saves

A host is released when it has been emptied, whether its machines went to hosts that had some
already or to hosts that had none.  So the hosts in use grow fewer by the hosts released, less the
hosts that were brought into use on the way.

* `Migration.inUse_map` is the account for any moves.
* `Consolidation.saving_consolidate` is the account for consolidations, `Relocation.saving_relocate`
  for the relief of an underloaded host, and `net_saving` puts the two together.
* `Consolidation.released_in_vain` are hosts of which one is released and none is saved.
-/

namespace ClusterControl

variable {α : Type}

/-- How many hosts have machines. -/
def inUse (hosts : List (Host α)) : Nat := hosts.countP Host.hasVms

namespace Migration

/-- The host has no machines and is brought into use: a move ends there, or machines came that have
moved on. -/
def opens (moves : List Migration) (emptied : Host α → Bool) (h : Host α) : Bool :=
  !h.hasVms && (moves.any (·.destination == h.id) || emptied h)

theorem countP_add_eq {β : Type} {l : List β} {p q r t : β → Bool}
    (h : ∀ x ∈ l, (p x).toNat + (q x).toNat = (r x).toNat + (t x).toNat) :
    l.countP p + l.countP q = l.countP r + l.countP t := by
  induction l with
  | nil => rfl
  | cons x rest ih =>
    have hrest := ih fun y hy => h y (List.mem_cons_of_mem x hy)
    have hx := h x List.mem_cons_self
    have hcount : ∀ p : β → Bool, (x :: rest).countP p = rest.countP p + (p x).toNat := by
      intro p
      rw [List.countP_cons]
      cases p x <;> rfl
    rw [hcount, hcount, hcount, hcount]
    omega

variable {hosts : List (Host α)} {moves : List Migration} {demand : VmId → Resources α}
  {f : Host α → Host α} {emptied : Host α → Bool}

/-- A host without machines has some in the end if and only if a move ends there. -/
theorem Settles.hasVms_iff {h h' : Host α} (hs : Settles moves demand h h')
    (hempty : h.hasVms = false) : h'.hasVms = moves.any (·.destination == h.id) := by
  rw [Bool.eq_iff_iff, Host.hasVms_iff, List.any_eq_true]
  have hnone : ∀ v, ¬h.Has v := fun v hv => by
    rw [Host.hasVms_iff.2 ⟨v, hv⟩] at hempty
    exact absurd hempty (by simp)
  constructor
  · rintro ⟨v, hv⟩
    rcases (hs.has v).1 hv with ⟨m, hm, -, hd⟩ | ⟨hv, -⟩
    · exact ⟨m, hm, by simpa using hd⟩
    · exact absurd hv (hnone v)
  · rintro ⟨m, hm, hd⟩
    exact ⟨m.vm, (hs.has m.vm).2 (.inl ⟨m, hm, rfl, by simpa using hd⟩)⟩

/-- When hosts that are emptied end up without machines and the other ones with machines keep some,
the hosts in use grow fewer by the hosts emptied, less those brought into use. -/
theorem inUse_map (hsettled : ∀ h ∈ hosts, Settles moves demand h (f h))
    (hgone : ∀ h ∈ hosts, emptied h = true → (f h).hasVms = false)
    (hkept : ∀ h ∈ hosts, emptied h = false → h.hasVms = true → (f h).hasVms = true) :
    inUse (hosts.map f) + hosts.countP emptied =
      inUse hosts + hosts.countP (opens moves emptied) := by
  rw [inUse, List.countP_map]
  refine countP_add_eq fun h hh => ?_
  have hgone := hgone h hh
  have hkept := hkept h hh
  have hopened := (hsettled h hh).hasVms_iff
  rw [Function.comp_apply, opens]
  cases hin : h.hasVms with
  | true =>
    cases he : emptied h with
    | true => simp [hgone he]
    | false => simp [hkept he hin]
  | false =>
    rw [← hopened hin]
    cases he : emptied h with
    | true => simp [hgone he]
    | false => simp

end Migration

namespace Relocation

variable {source : Host α}

/-- What a relocation moves, it moves off the source. -/
def Leaves (source : Host α) (p : MigrationPlan) : Prop :=
  ∀ ⦃v m⦄, p.migrations.get? v = some m → m.source = some source.id ∧ source.Has v

/-- A plan that moves as many machines as the source has moves them all. -/
theorem Leaves.all_of_size {p : MigrationPlan} (h : Leaves source p)
    (hsize : p.size = source.vms.size) {v : VmId} (hv : source.Has v) :
    ∃ m, p.migrations.get? v = some m := by
  have hkeys : p.migrations.keys ⊆ source.vms.keys := by
    intro u hu
    obtain ⟨m, hm⟩ := Option.isSome_iff_exists.1 (SortedMap.mem_keys_iff.1 hu)
    exact SortedMap.mem_keys_iff.2 (h hm).2
  have hperm : p.migrations.keys.Perm source.vms.keys := by
    refine (p.migrations.nodup_keys.subperm hkeys).perm_of_length_le ?_
    rw [SortedMap.keys, SortedMap.keys, List.length_map, List.length_map]
    exact hsize.ge
  exact Option.isSome_iff_exists.1
    (SortedMap.mem_keys_iff.1 (hperm.mem_iff.2 (SortedMap.mem_keys_iff.2 hv)))

end Relocation

variable [Quantity α]

/-! ## Consolidations -/

namespace Consolidation

/-- The host took part in a consolidation and was released. -/
def emptied (k : Ranking α) (hosts : List (Host α)) (h : Host α) : Bool :=
  !h.isPassive && (finish k hosts).hosts.all (·.id != h.id)

theorem emptied_iff {k : Ranking α} {hosts : List (Host α)} {h : Host α} :
    emptied k hosts h = true ↔ h.isPassive = false ∧ Released (finish k hosts) h := by
  simp [emptied, Released]

/-- The hosts that are released are counted. -/
theorem countP_emptied (k : Ranking α) {hosts : List (Host α)} (hfiled : Filed hosts)
    (hapart : Apart (fun _ => True) hosts) :
    hosts.countP (emptied k hosts) = (consolidate k hosts).hostsReleased := by
  have hs := sound_finish k (Φ := fun _ => True) hfiled hapart (fun _ _ _ => trivial)
    (fun _ _ _ _ _ _ _ => trivial)
  have hcount : (consolidate k hosts).hostsReleased + (finish k hosts).hosts.length =
    (hosts.filter fun h => !h.isPassive).length := (ledger_finish k hfiled hapart).count
  have hkept : ((hosts.filter fun h => !h.isPassive).filter fun h =>
      !emptied k hosts h).length = (finish k hosts).hosts.length := by
    have hperm : (((hosts.filter fun h => !h.isPassive).filter fun h =>
        !emptied k hosts h).map Host.id).Perm ((finish k hosts).hosts.map Host.id) := by
      refine (List.perm_ext_iff_of_nodup ?_ hs.planned.distinct).2 fun d => ?_
      · exact (hapart.filter _).ids.sublist (List.filter_sublist.map Host.id)
      · simp only [List.mem_map, List.mem_filter]
        constructor
        · rintro ⟨h, ⟨⟨hh, hawake⟩, hnot⟩, rfl⟩
          by_contra hmissing
          refine absurd (emptied_iff.2 ⟨by simpa using hawake, fun k' hk' hid => ?_⟩)
            (by simpa using hnot)
          exact hmissing ⟨k', hk', hid⟩
        · rintro ⟨k', hk', rfl⟩
          obtain ⟨h, hh, hbare, -⟩ := hs.planned.origin k' hk'
          have hid := Host.id_of_bare hbare
          refine ⟨h, ⟨List.mem_filter.1 hh, ?_⟩, hid.symm⟩
          rw [Bool.not_eq_true', ← Bool.not_eq_true, emptied_iff]
          exact fun hr => hr.2 k' hk' hid
    simpa using hperm.length_eq
  have hawake : hosts.countP (emptied k hosts) =
      (hosts.filter fun h => !h.isPassive).countP (emptied k hosts) := by
    rw [List.countP_filter]
    refine List.countP_congr fun h _ => ?_
    rw [Bool.and_eq_true, Bool.not_eq_true']
    exact ⟨fun he => ⟨he, (emptied_iff.1 he).1⟩, And.left⟩
  have hsplit : (hosts.filter fun h => !h.isPassive).length =
      (hosts.filter fun h => !h.isPassive).countP (emptied k hosts) +
        (finish k hosts).hosts.length := by
    have hsplit := List.length_eq_countP_add_countP (emptied k hosts)
      (l := hosts.filter fun h => !h.isPassive)
    simp only [Bool.not_eq_true, Bool.decide_eq_false] at hsplit
    rwa [List.countP_eq_length_filter (p := fun h => !emptied k hosts h), hkept] at hsplit
  omega

/-- The hosts in use grow fewer by the hosts released, less the hosts that the run filled on the
way. -/
theorem saving_consolidate (k : Ranking α) {hosts : List (Host α)} (hfiled : Filed hosts)
    (hapart : Apart (fun _ => True) hosts) :
    inUse (Migration.performAll (consolidate k hosts).moves hosts) +
        (consolidate k hosts).hostsReleased =
      inUse hosts +
        hosts.countP (Migration.opens (consolidate k hosts).moves (emptied k hosts)) := by
  have hs := sound_finish k (Φ := fun _ => True) hfiled hapart (fun _ _ _ => trivial)
    (fun _ _ _ _ _ _ _ => trivial)
  have h := ledger_finish k hfiled hapart
  obtain ⟨demand, hdemand⟩ := hapart.exists_demand
  obtain ⟨f, hf, hsettled⟩ := Migration.performAll_eq_map hapart hfiled hdemand
    (fun m hm => by
      obtain ⟨h₀, hh₀, hdeparts⟩ := h.departs hs hm
      exact ⟨h₀, List.mem_of_mem_filter hh₀, hdeparts⟩)
    (hs.arrives.nodup_vms (fun _ hm => hm) hs.arrives.nodup_moves)
  rw [show Migration.performAll (consolidate k hosts).moves hosts = hosts.map f from hf,
    ← countP_emptied k hfiled hapart]
  refine Migration.inUse_map hsettled (fun h₀ hh₀ he => ?_) (fun h₀ hh₀ he hvms => ?_)
  · obtain ⟨hawake, hr⟩ := emptied_iff.1 he
    have hmem : h₀ ∈ hosts.filter fun h => !h.isPassive :=
      List.mem_filter.2 ⟨hh₀, by rw [hawake]; rfl⟩
    rw [← Bool.not_eq_true, Host.hasVms_iff, not_exists]
    exact h.not_has hs hmem hr (hsettled h₀ hh₀)
  · obtain ⟨v, hv⟩ := Host.hasVms_iff.1 hvms
    refine Host.hasVms_iff.2 ⟨v, ((hsettled h₀ hh₀).has v).2 (.inr ⟨hv, fun m hm hvm => ?_⟩)⟩
    obtain ⟨u, hu⟩ := SortedMap.mem_values_iff.1 hm
    obtain ⟨h₁, hh₁, -, hhas, hr⟩ := h.leaves hu
    rw [← (hs.arrives hu).1, hvm] at hhas
    obtain rfl := hapart.eq_of_has (List.mem_of_mem_filter hh₁) hh₀ hhas hv
    have hreleased : emptied k hosts h₁ = true :=
      emptied_iff.2 ⟨by simpa using (List.mem_filter.1 hh₁).2, hr⟩
    exact absurd he (by simp [hreleased])

end Consolidation

/-! ## Relief of an underloaded host -/

namespace Relocation

variable {source : Host α}

theorem leaves_assignStep (p : RelocationPolicy) {s : MigrationPlan × List (Host α)}
    (hs : Leaves source s.1) {vm : Vm α} (hvm : source.Has vm.id) :
    Leaves source (assignStep p source s vm).1 := by
  obtain ⟨i, k, -, heligible, -, hstep⟩ | ⟨-, hstep⟩ := assignStep_cases p source s vm
  · rw [hstep]
    have hother : k.id ≠ source.id := (eligible_iff.1 heligible).1
    have hstart : s.1.startOf vm.id (some source.id) = some source.id := by
      unfold MigrationPlan.startOf
      split
      · rename_i m hm
        exact (hs hm).1
      · rfl
    intro v m hm
    by_cases hv : v = vm.id
    · subst hv
      rw [MigrationPlan.get?_add_self (by rw [hstart]; simpa using hother.symm), hstart] at hm
      rw [← Option.some.inj hm]
      exact ⟨rfl, hvm⟩
    · rw [MigrationPlan.get?_add_of_ne _ _ _ hv] at hm
      exact hs hm
  · rw [hstep]
    exact hs

/-- The moves of a relocation are the ones that its candidates were assigned. -/
theorem migrations_relocate (k : Ranking α) (p : RelocationPolicy) (source : Host α)
    (destinations : List (Host α)) : (relocate k p source destinations).1.migrations =
      (assignAll k p source (candidates k p source) destinations).1.migrations := by
  unfold relocate
  dsimp only
  split
  · rfl
  · split <;> rfl

theorem leaves_relocate (k : Ranking α) (p : RelocationPolicy)
    (hfiled : ∀ ⦃v w⦄, source.vms.get? v = some w → w.id = v) (destinations : List (Host α)) :
    Leaves source (relocate k p source destinations).1 := by
  unfold Leaves
  rw [migrations_relocate]
  have hempty : Leaves source .empty := fun v m hm => absurd hm (by simp [MigrationPlan.empty])
  unfold assignAll
  split
  · exact hempty
  · have hfold : ∀ (l : List (Vm α)) (s : MigrationPlan × List (Host α)),
        (∀ vm ∈ l, vm ∈ source.vms.values) → Leaves source s.1 →
          Leaves source (l.foldl (assignStep p source) s).1 := by
      intro l
      induction l with
      | nil => exact fun _ _ hs => hs
      | cons vm rest ih =>
        intro s hl hs
        have hvm : source.Has vm.id := (Consolidation.has_iff_mem_ids hfiled vm.id).2
          (List.mem_map_of_mem (hl vm List.mem_cons_self))
        exact ih _ (fun w hw => hl w (List.mem_cons_of_mem vm hw)) (leaves_assignStep p hs hvm)
    exact hfold _ _ (fun vm hvm => mem_candidates hvm) hempty

theorem hostsReleased_assignAll (k : Ranking α) (p : RelocationPolicy) (vms : List (Vm α))
    (destinations : List (Host α)) :
    (assignAll k p source vms destinations).1.hostsReleased = 0 := by
  have hstep : ∀ (s : MigrationPlan × List (Host α)) vm,
      (assignStep p source s vm).1.hostsReleased = s.1.hostsReleased := by
    intro s vm
    obtain ⟨i, k, -, -, -, hstep⟩ | ⟨-, hstep⟩ := assignStep_cases p source s vm
    · rw [hstep]
      exact s.1.hostsReleased_add vm.id (some source.id) k.id
    · rw [hstep]
  have hfold : ∀ (l : List (Vm α)) (s : MigrationPlan × List (Host α)),
      (l.foldl (assignStep p source) s).1.hostsReleased = s.1.hostsReleased := by
    intro l
    induction l with
    | nil => exact fun _ => rfl
    | cons vm rest ih => exact fun s => (ih _).trans (hstep s vm)
  unfold assignAll
  split
  · rfl
  · exact hfold vms _

/-- An underloaded host that is released loses all its machines, and it has some. -/
theorem all_of_released {k : Ranking α} {destinations : List (Host α)}
    (hleaves : Leaves source (relocate k .underload source destinations).1)
    (hreleased : 0 < (relocate k .underload source destinations).1.hostsReleased) :
    (relocate k .underload source destinations).1.hostsReleased = 1 ∧ source.hasVms = true ∧
      ∀ v, source.Has v →
        ∃ m, (relocate k .underload source destinations).1.migrations.get? v = some m := by
  have hsome : (relocate k .underload source destinations).1.hostsReleased = 1 ∧
      (relocate k .underload source destinations).1.isEmpty = false ∧
        (relocate k .underload source destinations).1.size = source.vms.size := by
    unfold relocate at hreleased ⊢
    dsimp only at hreleased ⊢
    split
    · rename_i hall
      rw [Bool.and_eq_true, Bool.not_eq_true', beq_iff_eq] at hall
      exact ⟨rfl, hall.1, hall.2⟩
    · rename_i hnot
      rw [if_neg hnot, hostsReleased_assignAll] at hreleased
      exact absurd hreleased (Nat.lt_irrefl 0)
  obtain ⟨hone, hmoves, hsize⟩ := hsome
  refine ⟨hone, ?_, fun v hv => hleaves.all_of_size hsize hv⟩
  rw [MigrationPlan.isEmpty, ← Bool.not_eq_true, SortedMap.isEmpty_iff, not_forall] at hmoves
  obtain ⟨v, hv⟩ := hmoves
  obtain ⟨m, hm⟩ := Option.ne_none_iff_exists'.1 hv
  exact Host.hasVms_iff.2 ⟨v, (hleaves hm).2⟩

/-- Relieving an underloaded host until it is released makes the hosts in use grow fewer by one,
less the hosts that its machines bring into use. -/
theorem saving_relocate (k : Ranking α) {hosts destinations : List (Host α)}
    (hfiled : Consolidation.Filed hosts) (hapart : Consolidation.Apart (fun _ => True) hosts)
    (hothers : (source :: destinations).Perm hosts)
    (hreleased : 0 < (relocate k .underload source destinations).1.hostsReleased) :
    inUse (Migration.performAll (relocate k .underload source destinations).1.moves hosts) +
        (relocate k .underload source destinations).1.hostsReleased =
      inUse hosts + hosts.countP
        (Migration.opens (relocate k .underload source destinations).1.moves fun _ => false) := by
  have hsource : source ∈ hosts := hothers.mem_iff.1 List.mem_cons_self
  have hids : ((source :: destinations).map Host.id).Nodup :=
    (hothers.map Host.id).nodup_iff.2 hapart.ids
  have hleaves := leaves_relocate k .underload (hfiled source hsource) destinations
  obtain ⟨hone, hvms, hall⟩ := all_of_released hleaves hreleased
  obtain ⟨copies, hplanned, harrives⟩ :=
    arrives_relocate k .underload source (List.nodup_cons.1 hids).2
  have hdest : ∀ m ∈ (relocate k .underload source destinations).1.moves,
      m.destination ≠ source.id := by
    intro m hm hback
    obtain ⟨h, hh, hid⟩ := hplanned.exists_of_receives (harrives.mem_moves hm)
    exact (List.nodup_cons.1 hids).1 (List.mem_map.2 ⟨h, hh, hid.trans hback⟩)
  have hfrom : ∀ m ∈ (relocate k .underload source destinations).1.moves,
      m.source = some source.id ∧ source.Has m.vm := by
    intro m hm
    obtain ⟨v, hv⟩ := SortedMap.mem_values_iff.1 hm
    rw [(harrives hv).1]
    exact hleaves hv
  obtain ⟨demand, hdemand⟩ := hapart.exists_demand
  obtain ⟨f, hf, hsettled⟩ := Migration.performAll_eq_map hapart hfiled hdemand
    (fun m hm => ⟨source, hsource, (hfrom m hm).1, (hfrom m hm).2, hdest m hm⟩)
    (harrives.nodup_vms (fun _ hm => hm) harrives.nodup_moves)
  have hcount : hosts.countP (fun h => h.id == source.id) = 1 := by
    have hcount := List.count_eq_one_of_mem hapart.ids (List.mem_map_of_mem hsource)
    rwa [List.count, List.countP_map] at hcount
  have hsame : ∀ h ∈ hosts, h.id = source.id → h = source := fun h hh hid =>
    List.inj_on_of_nodup_map hapart.ids hh hsource hid
  have hgone : ∀ h ∈ hosts, (h.id == source.id) = true → (f h).hasVms = false := by
    -- every machine of the source has left, and none has come
    intro h hh he
    obtain rfl := hsame h hh (by simpa using he)
    rw [← Bool.not_eq_true, Host.hasVms_iff]
    rintro ⟨v, hv⟩
    rcases ((hsettled h hh).has v).1 hv with ⟨m, hm, -, hd⟩ | ⟨hv, hnone⟩
    · exact hdest m hm hd
    · obtain ⟨m, hm⟩ := hall v hv
      exact hnone m (SortedMap.mem_values_iff.2 ⟨v, hm⟩) (harrives hm).1
  have hkept : ∀ h ∈ hosts, (h.id == source.id) = false → h.hasVms = true →
      (f h).hasVms = true := by
    intro h hh he hin
    obtain ⟨v, hv⟩ := Host.hasVms_iff.1 hin
    refine Host.hasVms_iff.2 ⟨v, ((hsettled h hh).has v).2 (.inr ⟨hv, fun m hm hvm => ?_⟩)⟩
    have heq := hapart.eq_of_has hsource hh (hvm ▸ (hfrom m hm).2) hv
    rw [heq] at he
    exact absurd he (by simp)
  rw [hf, hone, ← hcount, Migration.inUse_map hsettled hgone hkept]
  congr 1
  refine List.countP_congr fun h hh => ?_
  rw [Migration.opens, Migration.opens]
  by_cases hid : h.id = source.id
  · rw [hsame h hh hid, hvms]
    rfl
  · rw [beq_false_of_ne hid]

end Relocation

/-! ## The account -/

open Consolidation (emptied)

/-- Carrying out a consolidation, or the relief of an underloaded host that is released, makes the
hosts in use grow fewer by the hosts released, less the hosts without machines that are brought
into use on the way. -/
theorem net_saving (k : Ranking α) {hosts : List (Host α)} (hfiled : Consolidation.Filed hosts)
    (hapart : Consolidation.Apart (fun _ => True) hosts) :
    (inUse (Migration.performAll (Consolidation.consolidate k hosts).moves hosts) +
        (Consolidation.consolidate k hosts).hostsReleased =
      inUse hosts +
        hosts.countP
          (Migration.opens (Consolidation.consolidate k hosts).moves (emptied k hosts))) ∧
    ∀ (source : Host α) (destinations : List (Host α)), (source :: destinations).Perm hosts →
      0 < (Relocation.relocate k .underload source destinations).1.hostsReleased →
        inUse (Migration.performAll
            (Relocation.relocate k .underload source destinations).1.moves hosts) +
          (Relocation.relocate k .underload source destinations).1.hostsReleased =
        inUse hosts + hosts.countP (Migration.opens
          (Relocation.relocate k .underload source destinations).1.moves fun _ => false) :=
  ⟨Consolidation.saving_consolidate k hfiled hapart, fun _ _ hothers hreleased =>
    Relocation.saving_relocate k hfiled hapart hothers hreleased⟩

namespace Consolidation

/-- Two hosts of the chain are released, for one that is brought into use; the relief of the third
host alone brings none into use. -/
theorem net_saving_of_chain :
    (consolidate byRequest chain).hostsReleased = 2 ∧
      chain.countP (Migration.opens (consolidate byRequest chain).moves (emptied byRequest chain)) =
        1 ∧
      inUse (Migration.performAll (consolidate byRequest chain).moves chain) + 2 =
        inUse chain + 1 ∧
      ∃ p, p = (Relocation.relocate byRequest .underload (holding "c" "w" 1)
          [holding "a" "u" 4, holding "b" "v" 2, idling "d"]).1 ∧ p.hostsReleased = 1 ∧
        inUse (Migration.performAll p.moves chain) + 1 =
          inUse chain + chain.countP (Migration.opens p.moves fun _ => false) := by
  have hreleased : (consolidate byRequest chain).hostsReleased = 2 := by cbv
  have hopened : chain.countP (Migration.opens (consolidate byRequest chain).moves
      (emptied byRequest chain)) = 1 := by cbv
  have hrelief : (Relocation.relocate byRequest .underload (holding "c" "w" 1)
      [holding "a" "u" 4, holding "b" "v" 2, idling "d"]).1.hostsReleased = 1 := by cbv
  obtain ⟨hrun, hsingle⟩ := net_saving byRequest filed_chain apart_chain
  rw [hreleased, hopened] at hrun
  have hothers : (holding "c" "w" 1 :: [holding "a" "u" 4, holding "b" "v" 2, idling "d"]).Perm
      chain := by
    refine (List.Perm.swap _ _ _).trans (.cons _ ?_)
    exact List.Perm.swap _ _ _
  have hone := hsingle _ _ hothers (by rw [hrelief]; exact Nat.one_pos)
  rw [hrelief] at hone
  exact ⟨hreleased, hopened, hrun, _, rfl, hrelief, hone⟩

/-- One machine on two hosts. -/
def spare : List (Host ℚ) := [holding "a" "v" 1, idling "b"]

/-- The machine moves from the one host to the other: a host is released, and as many are in use as
before. -/
theorem released_in_vain : Filed spare ∧ Apart (fun _ => True) spare ∧
    (consolidate byRequest spare).hostsReleased = 1 ∧
      inUse (Migration.performAll (consolidate byRequest spare).moves spare) = inUse spare ∧
        (Relocation.relocate byRequest .underload (holding "a" "v" 1)
            [idling "b"]).1.hostsReleased = 1 ∧
          inUse (Migration.performAll (Relocation.relocate byRequest .underload
            (holding "a" "v" 1) [idling "b"]).1.moves spare) = inUse spare := by
  have hrecords : ∀ h ∈ spare, ∀ {v w}, h.vms.get? v = some w →
      w.id = v ∧ [("v", "a")].lookup v = some h.id := by
    intro h hh v w hw
    simp only [spare, List.mem_cons, List.not_mem_nil, or_false] at hh
    rcases hh with rfl | rfl
    · rw [holding_get?] at hw
      split at hw
      · rename_i hv
        rw [← Option.some.inj hw, hv]
        exact ⟨rfl, rfl⟩
      · exact absurd hw (by simp)
    · exact absurd hw (by simp [idling, Host.new])
  have hplaces : ∀ h ∈ spare, ∀ v, h.Has v → [("v", "a")].lookup v = some h.id := by
    intro h hh v hv
    obtain ⟨w, hw⟩ := Option.isSome_iff_exists.1 hv
    exact (hrecords h hh hw).2
  exact ⟨fun h hh _ _ hw => (hrecords h hh hw).1, .of_places (by decide) hplaces, by cbv, by cbv,
    by cbv, by cbv⟩

end Consolidation

end ClusterControl
