import ClusterControl.Proofs.Planning.Execution

/-!
# Evacuations

A consolidation evacuates hosts one at a time, and a machine that has moved may move again.  What
is left of this in the plan is simple: every host that was released has lost all its machines, every
other one has kept its own, and no move ends on a host that was released.

* `Consolidation.Ledger` is what a run keeps account of, round by round.
* `Consolidation.consolidate_evacuates` says what a plan does to the hosts, and that every part of
  it leaves the destinations within their capacity.
-/

namespace ClusterControl

variable {α : Type}

/-! ## Recording moves -/

namespace MigrationPlan

/-- Where a machine is that is about to move off a host: what the plan says, if it says
something. -/
def startOf (p : MigrationPlan) (vm : VmId) (source : Option HostId) : Option HostId :=
  match p.migrations.get? vm with
  | some m => m.source
  | none => source

theorem get?_add_self {p : MigrationPlan} {vm : VmId} {source : Option HostId} {d : HostId}
    (h : p.startOf vm source ≠ some d) :
    (p.add vm source d).migrations.get? vm = some ⟨vm, p.startOf vm source, d⟩ := by
  have hadd : (p.add vm source d).migrations =
      p.migrations.insert vm ⟨vm, p.startOf vm source, d⟩ :=
    congrArg MigrationPlan.migrations (if_neg h)
  rw [hadd, SortedMap.get?_insert, if_pos rfl]

theorem get?_add_of_ne (p : MigrationPlan) {vm v : VmId} (source : Option HostId) (d : HostId)
    (h : v ≠ vm) : (p.add vm source d).migrations.get? v = p.migrations.get? v := by
  obtain ⟨start, hadd⟩ := p.migrations_add vm source d
  rw [hadd]
  split
  · rw [SortedMap.get?_erase, if_neg h]
  · rw [SortedMap.get?_insert, if_neg h]

theorem startOf_add_of_ne (p : MigrationPlan) {vm v : VmId} (source : Option HostId) (d : HostId)
    (h : v ≠ vm) (source' : Option HostId) :
    (p.add vm source d).startOf v source' = p.startOf v source' := by
  rw [startOf, get?_add_of_ne p source d h, startOf]

theorem hostsReleased_add (p : MigrationPlan) (vm : VmId) (source : Option HostId) (d : HostId) :
    (p.add vm source d).hostsReleased = p.hostsReleased := by
  unfold add
  dsimp only
  split <;> split <;> rfl

end MigrationPlan

namespace Consolidation

theorem record_cons {source : HostId} {hosts : List (Host α)} {plan : MigrationPlan}
    {x : VmId × Nat} {k : Host α} (hk : hosts[x.2]? = some k) (rest : List (VmId × Nat)) :
    record source hosts plan (x :: rest) =
      record source hosts (plan.add x.1 (some source) k.id) rest := by
  simp only [record, List.foldl_cons, hk]

variable {source : HostId} {hosts : List (Host α)} {moved : List (VmId × Nat)}

/-- Recording moves changes nothing about other machines. -/
theorem get?_record_of_not_mem (hmoved : ∀ x ∈ moved, ∃ k, hosts[x.2]? = some k)
    (plan : MigrationPlan) {v : VmId} (hv : v ∉ moved.map (·.1)) :
    (record source hosts plan moved).migrations.get? v = plan.migrations.get? v := by
  induction moved generalizing plan with
  | nil => rfl
  | cons x rest ih =>
    obtain ⟨k, hk⟩ := hmoved x List.mem_cons_self
    rw [List.map_cons, List.mem_cons, not_or] at hv
    rw [record_cons hk, ih (fun y hy => hmoved y (List.mem_cons_of_mem x hy)) _ hv.2,
      plan.get?_add_of_ne _ _ hv.1]

/-- A recorded move starts where its machine was before the plan. -/
theorem get?_record_of_mem (hmoved : ∀ x ∈ moved, ∃ k, hosts[x.2]? = some k)
    (hnodup : (moved.map (·.1)).Nodup) {plan : MigrationPlan} {x : VmId × Nat} (hx : x ∈ moved)
    {k : Host α} (hk : hosts[x.2]? = some k) (hstart : plan.startOf x.1 (some source) ≠ some k.id) :
    (record source hosts plan moved).migrations.get? x.1 =
      some ⟨x.1, plan.startOf x.1 (some source), k.id⟩ := by
  induction moved generalizing plan with
  | nil => exact absurd hx List.not_mem_nil
  | cons y rest ih =>
    obtain ⟨k', hk'⟩ := hmoved y List.mem_cons_self
    have hrest : ∀ x ∈ rest, ∃ k, hosts[x.2]? = some k :=
      fun z hz => hmoved z (List.mem_cons_of_mem y hz)
    rw [List.map_cons, List.nodup_cons] at hnodup
    rw [record_cons hk']
    rcases List.mem_cons.1 hx with rfl | hx
    · rw [hk] at hk'
      obtain rfl := Option.some.inj hk'
      rw [get?_record_of_not_mem hrest _ hnodup.1, MigrationPlan.get?_add_self hstart]
    · have hne : x.1 ≠ y.1 := fun h => hnodup.1 (h ▸ List.mem_map_of_mem hx)
      have hsame := plan.startOf_add_of_ne (some source) k'.id hne (some source)
      rw [ih hrest hnodup.2 hx (by rwa [hsame]), hsame]

theorem hostsReleased_record (plan : MigrationPlan) :
    (record source hosts plan moved).hostsReleased = plan.hostsReleased := by
  unfold record
  induction moved generalizing plan with
  | nil => rfl
  | cons x rest ih =>
    rw [List.foldl_cons, ih]
    split
    · exact plan.hostsReleased_add _ _ _
    · rfl

/-! ## Accounts -/

/-- The host takes no part in the run any more. -/
def Released (s : Round α) (h : Host α) : Prop := ∀ k ∈ s.hosts, k.id ≠ h.id

/-- What a run keeps account of: only machines of released hosts have moved, and all of them have;
a host that takes part has its own machines and those that were sent to it. -/
structure Ledger (start : List (Host α)) (s : Round α) : Prop where
  leaves : ∀ {v m}, s.plan.migrations.get? v = some m →
    ∃ h ∈ start, m.source = some h.id ∧ h.Has v ∧ Released s h
  evacuated : ∀ h ∈ start, Released s h → ∀ v, h.Has v → ∃ m, s.plan.migrations.get? v = some m
  contents : ∀ k ∈ s.hosts, ∀ v, k.Has v → (∃ h ∈ start, h.id = k.id ∧ h.Has v) ∨
    ∃ m, s.plan.migrations.get? v = some m ∧ m.destination = k.id
  count : s.plan.hostsReleased + s.hosts.length = start.length

theorem Ledger.start (start : List (Host α)) (tried : List HostId) :
    Ledger start ⟨start, tried, .empty⟩ where
  leaves h := absurd h (by simp [MigrationPlan.empty])
  evacuated h hh hreleased := absurd rfl (hreleased h hh)
  contents k hk _ hv := .inl ⟨k, hk, rfl, hv⟩
  count := Nat.zero_add _

theorem Ledger.perm {start : List (Host α)} {s : Round α} (h : Ledger start s)
    {hosts : List (Host α)} (hp : hosts.Perm s.hosts) (tried : List HostId) :
    Ledger start ⟨hosts, tried, s.plan⟩ := by
  have hreleased : ∀ k, Released ⟨hosts, tried, s.plan⟩ k ↔ Released s k :=
    fun k => ⟨fun h k' hk' => h k' (hp.mem_iff.2 hk'), fun h k' hk' => h k' (hp.mem_iff.1 hk')⟩
  refine ⟨fun hm => ?_, fun k hk hr => h.evacuated k hk ((hreleased k).1 hr),
    fun k hk => h.contents k (hp.mem_iff.1 hk), ?_⟩
  · obtain ⟨k, hk, hsource, hhas, hr⟩ := h.leaves hm
    exact ⟨k, hk, hsource, hhas, (hreleased k).2 hr⟩
  · rw [← h.count, ← hp.length_eq]

/-- A machine of the source started from a host that is released by now, or from the source. -/
theorem Ledger.start_of_source {start : List (Host α)} {s : Round α} (h : Ledger start s)
    {source : Host α} (hsource : source ∈ s.hosts) {v : VmId} (hv : source.Has v) : ∃ h₀ ∈ start,
      s.plan.startOf v (some source.id) = some h₀.id ∧ h₀.Has v ∧
        (Released s h₀ ∨ h₀.id = source.id) := by
  cases hget : s.plan.migrations.get? v with
  | none =>
    rcases h.contents source hsource v hv with ⟨h₀, hh₀, hid, hhas⟩ | ⟨m, hm, -⟩
    · exact ⟨h₀, hh₀, by rw [MigrationPlan.startOf, hget, hid], hhas, .inr hid⟩
    · rw [hget] at hm
      exact absurd hm (by simp)
  | some m =>
    obtain ⟨h₀, hh₀, hfrom, hhas, hr⟩ := h.leaves hget
    refine ⟨h₀, hh₀, ?_, hhas, .inl hr⟩
    rw [MigrationPlan.startOf, hget]
    exact hfrom

variable {start : List (Host α)} {Φ : Host α → Prop} {s s' : Round α}

/-! ## Once the plan is carried out -/

section

variable {h₀ h' k : Host α} {demand : VmId → Resources α}

/-- A machine of a host that takes part has not moved. -/
theorem Ledger.not_released (h : Ledger start s) (hstart : Apart (fun _ => True) start)
    (hh₀ : h₀ ∈ start) (hk : k ∈ s.hosts) (hid : k.id = h₀.id) {v : VmId} (hv : h₀.Has v) :
    s.plan.migrations.get? v = none := by
  by_contra hsome
  obtain ⟨m, hm⟩ := Option.ne_none_iff_exists'.1 hsome
  obtain ⟨h₁, hh₁, -, hhas, hr⟩ := h.leaves hm
  rw [hstart.eq_of_has hh₁ hh₀ hhas hv] at hr
  exact hr k hk hid

/-- Once the plan is carried out, a host that takes part has the machines of its copy. -/
theorem Ledger.has_iff (h : Ledger start s) (hstart : Apart (fun _ => True) start)
    (hs : Sound start Φ s) (hh₀ : h₀ ∈ start) (hk : k ∈ s.hosts) (hid : k.id = h₀.id)
    (hsettled : Migration.Settles s.plan.moves demand h₀ h') (v : VmId) : h'.Has v ↔ k.Has v := by
  obtain ⟨h₁, hh₁, hbare, hgrown⟩ := hs.planned.origin k hk
  obtain rfl := List.inj_on_of_nodup_map hstart.ids hh₁ hh₀ ((Host.id_of_bare hbare).symm.trans hid)
  rw [hsettled.has v]
  constructor
  · rintro (⟨m, hm, rfl, hd⟩ | ⟨hv, -⟩)
    · exact hs.planned.has_of_receives hk (hid ▸ hd ▸ hs.arrives.mem_moves hm)
    · exact hgrown v hv
  · intro hv
    rcases h.contents k hk v hv with ⟨h₂, hh₂, hid₂, hhas⟩ | ⟨m, hm, hd⟩
    · obtain rfl := List.inj_on_of_nodup_map hstart.ids hh₂ hh₁ (hid₂.trans hid)
      refine .inr ⟨hhas, fun m hm hvm => ?_⟩
      obtain ⟨u, hu⟩ := SortedMap.mem_values_iff.1 hm
      rw [← (hs.arrives hu).1, hvm, h.not_released hstart hh₁ hk hid hhas] at hu
      exact absurd hu (by simp)
    · exact .inl ⟨m, SortedMap.mem_values_iff.2 ⟨v, hm⟩, (hs.arrives hm).1, hd.trans hid⟩

/-- Once the plan is carried out, a released host has no machines. -/
theorem Ledger.not_has (h : Ledger start s) (hs : Sound start Φ s) (hh₀ : h₀ ∈ start)
    (hr : Released s h₀) (hsettled : Migration.Settles s.plan.moves demand h₀ h') (v : VmId) :
    ¬h'.Has v := by
  rw [hsettled.has v]
  rintro (⟨m, hm, rfl, hd⟩ | ⟨hv, hnone⟩)
  · obtain ⟨k, hk, hid, -⟩ := hs.arrives.mem_moves hm
    exact hr k hk (hid.trans hd)
  · obtain ⟨m, hm⟩ := h.evacuated h₀ hh₀ hr v hv
    exact hnone m (SortedMap.mem_values_iff.2 ⟨v, hm⟩) (hs.arrives hm).1

end

/-- A planned move takes a machine from where it is to another host. -/
theorem Ledger.departs (h : Ledger start s) (hs : Sound start Φ s) {m : Migration}
    (hm : m ∈ s.plan.moves) : m.Departs start := by
  obtain ⟨v, hv⟩ := SortedMap.mem_values_iff.1 hm
  obtain ⟨rfl, k, hk, hid, -⟩ := hs.arrives hv
  obtain ⟨h₀, hh₀, hsource, hhas, hr⟩ := h.leaves hv
  exact ⟨h₀, hh₀, hsource, hhas, fun hback => hr k hk (hid.trans hback)⟩

variable [Quantity α] {after : List (Host α)} {vms : List (Vm α)}

/-! ## Rounds -/

theorem Rehomes.ids (h : Rehomes source hosts vms after moved) :
    after.map Host.id = hosts.map Host.id := by
  induction h with
  | stop => rfl
  | move hget _ _ _ ih => exact ih.trans (ids_set_assign hget _)

/-- A host has what it had and what was moved to it. -/
theorem Rehomes.contents (h : Rehomes source hosts vms after moved) {n : Nat} {k' : Host α}
    (hk' : after[n]? = some k') {v : VmId} (hv : k'.Has v) :
    (∃ k, hosts[n]? = some k ∧ k.id = k'.id ∧ k.Has v) ∨ (v, n) ∈ moved := by
  induction h with
  | stop => exact .inl ⟨k', hk', rfl, hv⟩
  | @move hosts _ _ _ i k₁ vm hget _ _ _ ih =>
    rcases ih hk' with ⟨k, hk, hid, hhas⟩ | hmem
    · by_cases hni : n = i
      · subst hni
        rw [List.getElem?_set_self (List.getElem?_eq_some_iff.1 hget).1] at hk
        obtain rfl := Option.some.inj hk
        rcases (k₁.has_assign vm v).1 hhas with rfl | hhas
        · exact .inr List.mem_cons_self
        · exact .inl ⟨k₁, hget, hid, hhas⟩
      · rw [List.getElem?_set_ne (Ne.symm hni)] at hk
        exact .inl ⟨k, hk, hid, hhas⟩
    · exact .inr (List.mem_cons_of_mem _ hmem)

/-- The hosts that are left when the source is released. -/
theorem Attempt.mem_release {i : Nat} {source : Host α}
    (a : Attempt s hosts i source vms after moved) (h : Sound start Φ s) {k : Host α} :
    k ∈ after.eraseIdx i ↔ k ∈ after ∧ k.id ≠ source.id := by
  have hids : (after.map Host.id).Nodup := by
    rw [a.moves.ids]
    exact (h.apart.perm a.perm).ids
  obtain ⟨source', hsource', hid, -⟩ := a.moves.grows a.get
  rw [List.mem_eraseIdx_iff_getElem?]
  constructor
  · rintro ⟨n, hn, hk⟩
    refine ⟨List.mem_of_getElem? hk, fun heq => hn ?_⟩
    have hk' : (after.map Host.id)[n]? = some source.id := by
      rw [List.getElem?_map, hk, Option.map_some, heq]
    have hs' : (after.map Host.id)[i]? = some source.id := by
      rw [List.getElem?_map, hsource', Option.map_some, hid]
    exact (List.getElem?_inj (List.getElem?_eq_some_iff.1 hk').1 hids).1 (hk'.trans hs'.symm)
  · rintro ⟨hk, hne⟩
    obtain ⟨n, hn⟩ := List.mem_iff_getElem?.1 hk
    refine ⟨n, ?_, hn⟩
    rintro rfl
    rw [hsource'] at hn
    exact hne (Option.some.inj hn ▸ hid)

/-- Whoever was released before is still released, and so is the source. -/
theorem Attempt.released_iff {i : Nat} {source : Host α}
    (a : Attempt s hosts i source vms after moved) (h : Sound start Φ s) (tried : List HostId)
    (plan : MigrationPlan) (k : Host α) :
    Released ⟨after.eraseIdx i, tried, plan⟩ k ↔ Released s k ∨ k.id = source.id := by
  have hids : ∀ d, (∃ k ∈ after, k.id = d) ↔ ∃ k ∈ s.hosts, k.id = d := by
    intro d
    rw [← List.mem_map, ← List.mem_map, a.moves.ids, (a.perm.map Host.id).mem_iff]
  unfold Released
  constructor
  · intro hr
    by_cases hk : k.id = source.id
    · exact .inr hk
    · refine .inl fun k' hk' hid => ?_
      obtain ⟨k'', hk'', hid''⟩ := (hids k.id).2 ⟨k', hk', hid⟩
      exact hr k'' ((a.mem_release h).2 ⟨hk'', hid''.symm ▸ hk⟩) hid''
  · rintro (hr | hk) k' hk' hid
    · obtain ⟨k'', hk'', hid''⟩ := (hids k.id).1 ⟨k', ((a.mem_release h).1 hk').1, hid⟩
      exact hr k'' hk'' hid''
    · exact ((a.mem_release h).1 hk').2 (hid.trans hk)

section

variable {i : Nat} {source : Host α}

/-- When the source is released, all its machines have moved, and no others. -/
theorem Attempt.mem_moved (a : Attempt s hosts i source vms after moved) (h : Sound start Φ s)
    (hall : moved.length = vms.length) (v : VmId) : v ∈ moved.map (·.1) ↔ source.Has v := by
  have hids : moved.map (·.1) = vms.map Vm.id :=
    a.moves.moved_prefix.eq_of_length (by rw [List.length_map, List.length_map, hall])
  have hfiled := h.filed source (a.perm.mem_iff.1 (List.mem_of_getElem? a.get))
  rw [hids, (a.sorted.map Vm.id).mem_iff, ← has_iff_mem_ids hfiled]

theorem Attempt.indices (a : Attempt s hosts i source vms after moved) :
    ∀ x ∈ moved, ∃ k, after[x.2]? = some k := fun x hx => by
  obtain ⟨k, hk, -⟩ := a.moves.arrived x hx
  exact ⟨k, hk⟩

/-- What is planned for a machine of the source once it has moved. -/
theorem Ledger.get?_of_moved (h : Ledger start s) (hs : Sound start Φ s)
    (a : Attempt s hosts i source vms after moved) (hall : moved.length = vms.length)
    {x : VmId × Nat} (hx : x ∈ moved) : ∃ k, after[x.2]? = some k ∧
      (record source.id after s.plan moved).migrations.get? x.1 =
        some ⟨x.1, s.plan.startOf x.1 (some source.id), k.id⟩ := by
  have hnodup : (moved.map (·.1)).Nodup := (a.nodup hs).sublist a.moves.moved_prefix.sublist
  obtain ⟨k, hk, hne, -⟩ := a.moves.arrived x hx
  refine ⟨k, hk, get?_record_of_mem a.indices hnodup hx hk fun hback => ?_⟩
  -- the host where the machine started is released by now, or it is the source
  have hhas := (a.mem_moved hs hall x.1).1 (List.mem_map_of_mem hx)
  obtain ⟨h₀, -, hfrom, -, hr⟩ :=
    h.start_of_source (a.perm.mem_iff.1 (List.mem_of_getElem? a.get)) hhas
  have hk' : k ∈ after.eraseIdx i := (a.mem_release hs).2 ⟨List.mem_of_getElem? hk, hne⟩
  rw [hfrom] at hback
  exact (a.released_iff hs [] s.plan h₀).2 hr k hk' (Option.some.inj hback).symm

/-- The account after the source was released. -/
theorem Ledger.release (h : Ledger start s) (hstart : Apart (fun _ => True) start)
    (hs : Sound start Φ s) (a : Attempt s hosts i source vms after moved)
    (hall : moved.length = vms.length) (tried : List HostId) :
    Ledger start ⟨after.eraseIdx i, tried,
      { record source.id after s.plan moved with
        hostsReleased := (record source.id after s.plan moved).hostsReleased + 1 }⟩ := by
  have hreleased := a.released_iff hs tried
    { record source.id after s.plan moved with
      hostsReleased := (record source.id after s.plan moved).hostsReleased + 1 }
  have hsource : source ∈ s.hosts := a.perm.mem_iff.1 (List.mem_of_getElem? a.get)
  have hsame : ∀ v, ¬source.Has v →
      (record source.id after s.plan moved).migrations.get? v = s.plan.migrations.get? v :=
    fun v hv => get?_record_of_not_mem a.indices s.plan fun hmem =>
      hv ((a.mem_moved hs hall v).1 hmem)
  have hsent : ∀ {v}, source.Has v → ∃ x ∈ moved, x.1 = v := fun hv =>
    List.mem_map.1 ((a.mem_moved hs hall _).2 hv)
  refine ⟨fun {v m} hm => ?_, fun h₀ hh₀ hr v hv => ?_, fun k hk v hv => ?_, ?_⟩
  · by_cases hv : source.Has v
    · obtain ⟨x, hx, rfl⟩ := hsent hv
      obtain ⟨k, -, hget⟩ := h.get?_of_moved hs a hall hx
      obtain ⟨h₀, hh₀, hfrom, hhas, hr⟩ := h.start_of_source hsource hv
      rw [← Option.some.inj (hget.symm.trans hm)]
      exact ⟨h₀, hh₀, hfrom, hhas, (hreleased h₀).2 hr⟩
    · obtain ⟨h₀, hh₀, hfrom, hhas, hr⟩ := h.leaves ((hsame v hv).symm.trans hm)
      exact ⟨h₀, hh₀, hfrom, hhas, (hreleased h₀).2 (.inl hr)⟩
  · by_cases hsv : source.Has v
    · obtain ⟨x, hx, rfl⟩ := hsent hsv
      obtain ⟨k, -, hget⟩ := h.get?_of_moved hs a hall hx
      exact ⟨_, hget⟩
    · rcases (hreleased h₀).1 hr with hr | hid
      · obtain ⟨m, hm⟩ := h.evacuated h₀ hh₀ hr v hv
        exact ⟨m, (hsame v hsv).trans hm⟩
      · obtain ⟨h₁, hh₁, hbare, hgrown⟩ := hs.planned.origin source hsource
        obtain rfl := List.inj_on_of_nodup_map hstart.ids hh₁ hh₀
          ((Host.id_of_bare hbare).symm.trans hid.symm)
        exact absurd (hgrown v hv) hsv
  · obtain ⟨hmem, hne⟩ := (a.mem_release hs).1 hk
    obtain ⟨n, hn⟩ := List.mem_iff_getElem?.1 hmem
    rcases a.moves.contents hn hv with ⟨k₀, hk₀, hid, hhas⟩ | hx
    · have hk₀' : k₀ ∈ s.hosts := a.perm.mem_iff.1 (List.mem_of_getElem? hk₀)
      rcases h.contents k₀ hk₀' v hhas with ⟨h₀, hh₀, hid₀, hhas₀⟩ | ⟨m, hm, hd⟩
      · exact .inl ⟨h₀, hh₀, hid₀.trans hid, hhas₀⟩
      · have hsv : ¬source.Has v := fun hsv =>
          hne (hid ▸ congrArg Host.id (hs.apart.eq_of_has hk₀' hsource hhas hsv))
        exact .inr ⟨m, (hsame v hsv).trans hm, hd.trans hid⟩
    · obtain ⟨k₂, hk₂, hget⟩ := h.get?_of_moved hs a hall hx
      rw [hn] at hk₂
      obtain rfl := Option.some.inj hk₂
      exact .inr ⟨_, hget, rfl⟩
  · have hlength : after.length = s.hosts.length := by
      rw [← a.perm.length_eq, ← List.length_map (f := Host.id), a.moves.ids, List.length_map]
    have hlt : i < after.length := by
      rw [hlength, ← a.perm.length_eq]
      exact (List.getElem?_eq_some_iff.1 a.get).1
    have hcount := h.count
    have hfewer := List.length_eraseIdx_of_lt hlt
    dsimp only
    rw [hostsReleased_record]
    omega

end

theorem Ledger.round {k : Ranking α} (h : Ledger start s) (hstart : Apart (fun _ => True) start)
    (hs : Sound start Φ s) (hround : round k s = some s') : Ledger start s' := by
  obtain ⟨hosts, i, source, vms, after, moved, a, ⟨hall, rfl⟩ | rfl⟩ := hs.round_cases hround
  · exact h.release hstart hs a hall _
  · exact h.perm a.perm _

theorem Ledger.rounds {k : Ranking α} (h : Ledger start s) (hstart : Apart (fun _ => True) start)
    (hs : Sound start Φ s)
    (hΦ : ∀ h k vm, vm ∈ k.vms.values → Φ k → Φ h → h.canTake vm = true → Φ (h.assign vm))
    (n : Nat) : Ledger start (rounds k n s) := by
  induction n generalizing s with
  | zero => exact h
  | succ n ih =>
    unfold Consolidation.rounds
    split
    · rename_i s' hround
      exact ih (h.round hstart hs hround) (hs.round hΦ hround)
    · exact h.perm (k.perm_sortHosts .decreasing s.hosts) s.tried

/-! ## The end of a run -/

theorem ledger_finish (k : Ranking α) {hosts : List (Host α)} (hfiled : Filed hosts)
    (hapart : Apart (fun _ => True) hosts) :
    Ledger (hosts.filter fun h => !h.isPassive) (finish k hosts) := by
  have hstart : Sound (hosts.filter fun h => !h.isPassive) (fun _ => True)
      ⟨hosts.filter fun h => !h.isPassive, [], .empty⟩ :=
    ⟨.start (hapart.filter _).ids fun _ _ => trivial, MigrationPlan.arrives_empty _,
      fun h hh => hfiled h (List.mem_of_mem_filter hh), hapart.filter _⟩
  exact (Ledger.start _ []).rounds (hapart.filter _) hstart (fun _ _ _ _ _ _ _ => trivial) _

/-! ## Evacuations -/

/-- What a plan does to hosts that it consolidates.  A host loses all its machines or none; machines
go from hosts that are not passive to others of that kind, which keep their own machines; and the
plan knows how many such hosts have machines in the end. -/
structure Evacuates (hosts : List (Host α)) (p : MigrationPlan) : Prop where
  all_or_none : ∀ h ∈ hosts, (∀ v, h.Has v → ∃ m, p.migrations.get? v = some m) ∨
    ∀ v, h.Has v → p.migrations.get? v = none
  source : ∀ m ∈ p.moves, ∃ h ∈ hosts, h.isPassive = false ∧ m.source = some h.id ∧ h.Has m.vm
  destination : ∀ m ∈ p.moves, ∃ h ∈ hosts, h.isPassive = false ∧ m.destination = h.id ∧
    ∀ v, h.Has v → p.migrations.get? v = none
  arrival : ∀ m ∈ p.moves, ∃ h ∈ Migration.performAll p.moves hosts,
    h.id = m.destination ∧ h.Has m.vm
  used : p.hostsUsed =
    ((Migration.performAll p.moves hosts).filter fun h => !h.isPassive && h.hasVms).length

/-- The hosts with machines once the plan is carried out are the ones with machines in the last
round. -/
theorem length_used (k : Ranking α) {hosts : List (Host α)} (hfiled : Filed hosts)
    (hapart : Apart (fun _ => True) hosts) {demand : VmId → Resources α} {f : Host α → Host α}
    (hf : ∀ h ∈ hosts, Migration.Settles (finish k hosts).plan.moves demand h (f h)) :
    ((hosts.map f).filter fun h => !h.isPassive && h.hasVms).length =
      ((finish k hosts).hosts.filter Host.hasVms).length := by
  have hs := sound_finish k (Φ := fun _ => True) hfiled hapart (fun _ _ _ => trivial)
    (fun _ _ _ _ _ _ _ => trivial)
  have h := ledger_finish k hfiled hapart
  have hids : ((hosts.map f).map Host.id) = hosts.map Host.id := by
    rw [List.map_map]
    exact List.map_congr_left fun h hh => (hf h hh).id
  have hperm : (((hosts.map f).filter fun h => !h.isPassive && h.hasVms).map Host.id).Perm
      (((finish k hosts).hosts.filter Host.hasVms).map Host.id) := by
    refine (List.perm_ext_iff_of_nodup ?_ (hs.planned.distinct.sublist
      (List.filter_sublist.map Host.id))).2 fun d => ?_
    · exact (hids ▸ hapart.ids).sublist (List.filter_sublist.map Host.id)
    · simp only [List.mem_map, List.mem_filter, Bool.and_eq_true, Bool.not_eq_true']
      constructor
      · rintro ⟨_, ⟨⟨h₀, hh₀, rfl⟩, hawake, hvms⟩, rfl⟩
        rw [(hf h₀ hh₀).isPassive] at hawake
        have hmem : h₀ ∈ hosts.filter fun h => !h.isPassive :=
          List.mem_filter.2 ⟨hh₀, by rw [hawake]; rfl⟩
        obtain ⟨v, hv⟩ := Host.hasVms_iff.1 hvms
        by_cases hr : Released (finish k hosts) h₀
        · exact absurd hv (h.not_has hs hmem hr (hf h₀ hh₀) v)
        · simp only [Released, not_forall, not_not] at hr
          obtain ⟨k', hk', hid⟩ := hr
          have hhas := (h.has_iff (hapart.filter _) hs hmem hk' hid (hf h₀ hh₀) v).1 hv
          exact ⟨k', ⟨hk', Host.hasVms_iff.2 ⟨v, hhas⟩⟩, hid.trans (hf h₀ hh₀).id.symm⟩
      · rintro ⟨k', ⟨hk', hvms⟩, rfl⟩
        obtain ⟨h₀, hmem, hbare, -⟩ := hs.planned.origin k' hk'
        obtain ⟨hh₀, hawake⟩ := List.mem_filter.1 hmem
        have hid := Host.id_of_bare hbare
        obtain ⟨v, hv⟩ := Host.hasVms_iff.1 hvms
        have hhas := (h.has_iff (hapart.filter _) hs hmem hk' hid (hf h₀ hh₀) v).2 hv
        refine ⟨f h₀, ⟨⟨h₀, hh₀, rfl⟩, ?_, Host.hasVms_iff.2 ⟨v, hhas⟩⟩,
          (hf h₀ hh₀).id.trans hid.symm⟩
        rw [(hf h₀ hh₀).isPassive]
        simpa using hawake
  simpa using hperm.length_eq

/-- A consolidation evacuates hosts. -/
theorem evacuates_consolidate (k : Ranking α) {hosts : List (Host α)} (hfiled : Filed hosts)
    (hapart : Apart (fun _ => True) hosts) : Evacuates hosts (consolidate k hosts) := by
  have hs := sound_finish k (Φ := fun _ => True) hfiled hapart (fun _ _ _ => trivial)
    (fun _ _ _ _ _ _ _ => trivial)
  have h := ledger_finish k hfiled hapart
  have hawake : ∀ {h₀}, h₀ ∈ hosts.filter (fun h => !h.isPassive) →
      h₀ ∈ hosts ∧ h₀.isPassive = false := fun hmem =>
    ⟨(List.mem_filter.1 hmem).1, by simpa using (List.mem_filter.1 hmem).2⟩
  have hunmoved : ∀ h₀ ∈ hosts, ∀ k' ∈ (finish k hosts).hosts, k'.id = h₀.id → ∀ v, h₀.Has v →
      (consolidate k hosts).migrations.get? v = none := by
    intro h₀ hh₀ k' hk' hid v hv
    obtain ⟨h₁, hmem, hbare, -⟩ := hs.planned.origin k' hk'
    obtain rfl := List.inj_on_of_nodup_map hapart.ids (hawake hmem).1 hh₀
      ((Host.id_of_bare hbare).symm.trans hid)
    exact h.not_released (hapart.filter _) hmem hk' hid hv
  obtain ⟨demand, hdemand⟩ := hapart.exists_demand
  obtain ⟨f, hf, hsettled⟩ := Migration.performAll_eq_map hapart hfiled hdemand
    (fun m hm => by
      obtain ⟨h₀, hh₀, hdeparts⟩ := h.departs hs hm
      exact ⟨h₀, (hawake hh₀).1, hdeparts⟩)
    (hs.arrives.nodup_vms (fun _ hm => hm) hs.arrives.nodup_moves)
  refine ⟨fun h₀ hh₀ => ?_, fun m hm => ?_, fun m hm => ?_, fun m hm => ?_, ?_⟩
  · by_cases hpassive : h₀.isPassive = true
    · refine .inr fun v hv => ?_
      by_contra hsome
      obtain ⟨m, hm⟩ := Option.ne_none_iff_exists'.1 hsome
      obtain ⟨h₁, hmem, -, hhas, -⟩ := h.leaves hm
      rw [hapart.eq_of_has (hawake hmem).1 hh₀ hhas hv] at hmem
      exact absurd (hawake hmem).2 (by simp [hpassive])
    · by_cases hr : Released (finish k hosts) h₀
      · exact .inl (h.evacuated h₀ (List.mem_filter.2 ⟨hh₀, by simp [hpassive]⟩) hr)
      · simp only [Released, not_forall, not_not] at hr
        obtain ⟨k', hk', hid⟩ := hr
        exact .inr (hunmoved h₀ hh₀ k' hk' hid)
  · obtain ⟨h₀, hmem, hsource, hhas, -⟩ := h.departs hs hm
    exact ⟨h₀, (hawake hmem).1, (hawake hmem).2, hsource, hhas⟩
  · obtain ⟨k', hk', hid, -⟩ := hs.arrives.mem_moves hm
    obtain ⟨h₀, hmem, hbare, -⟩ := hs.planned.origin k' hk'
    have hid₀ := Host.id_of_bare hbare
    exact ⟨h₀, (hawake hmem).1, (hawake hmem).2, hid.symm.trans hid₀,
      hunmoved h₀ (hawake hmem).1 k' hk' hid₀⟩
  · obtain ⟨k', hk', hid, -⟩ := hs.arrives.mem_moves hm
    obtain ⟨h₀, hmem, hbare, -⟩ := hs.planned.origin k' hk'
    have hh₀ := hsettled h₀ (hawake hmem).1
    have hid₀ : h₀.id = m.destination := (Host.id_of_bare hbare).symm.trans hid
    refine ⟨f h₀, ?_, hh₀.id.trans hid₀, (hh₀.has m.vm).2 (.inl ⟨m, hm, rfl, hid₀.symm⟩)⟩
    rw [show Migration.performAll (consolidate k hosts).moves hosts = hosts.map f from hf]
    exact List.mem_map_of_mem (hawake hmem).1
  · rw [show Migration.performAll (consolidate k hosts).moves hosts = hosts.map f from hf]
    exact (length_used k hfiled hapart hsettled).symm

section

variable [AddCommMonoid α] [LinearOrder α] [Quantity.Exact α] [IsOrderedAddMonoid α]

/-- A copy of a host: its machines are filed under their ids and ask for what is known of them, and
they fit unless it has taken none. -/
structure Grown (hosts : List (Host α)) (demand : VmId → Resources α) (k : Host α) : Prop where
  records : ∀ {v w}, k.vms.get? v = some w →
    w.id = v ∧ w.requested = demand v ∧ w.requested.Nonneg
  fits : k ∈ hosts ∨ k.requested.fitsWithin k.capacity = true

theorem Grown.assign {hosts : List (Host α)} {demand : VmId → Resources α} {k : Host α}
    (h : Grown hosts demand k) {vm : Vm α} (hdemand : vm.requested = demand vm.id)
    (hnonneg : vm.requested.Nonneg) (htake : k.canTake vm = true) :
    Grown hosts demand (k.assign vm) := by
  refine ⟨fun {v w} hw => ?_, .inr ?_⟩
  · rw [Host.assign, SortedMap.get?_insert] at hw
    split at hw
    · rename_i hv
      rw [← Option.some.inj hw, hv]
      exact ⟨rfl, hdemand, hnonneg⟩
    · exact h.records hw
  · exact Resources.fitsWithin_of_le (Host.requested_assign_le fun hw => (h.records hw).2.2) htake

/-- Any part of a consolidation, carried out in any order, leaves the destinations of the whole plan
within their capacity. -/
theorem fits_of_part (k : Ranking α) {hosts : List (Host α)} (hfiled : Filed hosts)
    (hapart : Apart (fun _ => True) hosts)
    (hnonneg : ∀ h ∈ hosts, ∀ {v w}, h.vms.get? v = some w → w.requested.Nonneg)
    {moves : List Migration} (hnodup : moves.Nodup)
    (hpart : ∀ m ∈ moves, m ∈ (consolidate k hosts).moves) {h' : Host α}
    (hh' : h' ∈ Migration.performAll moves hosts)
    (hdest : ∃ m ∈ (consolidate k hosts).moves, m.destination = h'.id) :
    h'.requested.fitsWithin h'.capacity = true := by
  obtain ⟨demand, hdemand⟩ := hapart.exists_demand
  have hs := sound_finish k (Φ := Grown hosts demand) hfiled hapart
    (fun h hh _ => ⟨fun hw => ⟨hfiled h hh hw, hdemand h hh hw, hnonneg h hh hw⟩, .inl hh⟩)
    (fun h source vm hvm hsource hh htake => by
      obtain ⟨v, hv⟩ := SortedMap.mem_values_iff.1 hvm
      obtain ⟨rfl, hvm_demand, hvm_nonneg⟩ := hsource.records hv
      exact hh.assign hvm_demand hvm_nonneg htake)
  have h := ledger_finish k hfiled hapart
  have hmem : ∀ {h₀}, h₀ ∈ hosts.filter (fun h => !h.isPassive) → h₀ ∈ hosts :=
    fun hawake => List.mem_of_mem_filter hawake
  obtain ⟨f, hf, hsettled⟩ := Migration.performAll_eq_map hapart hfiled hdemand
    (fun m hm => by
      obtain ⟨h₀, hh₀, hdeparts⟩ := h.departs hs (hpart m hm)
      exact ⟨h₀, hmem hh₀, hdeparts⟩)
    (hs.arrives.nodup_vms hpart hnodup)
  rw [hf] at hh'
  obtain ⟨h₀, hh₀, rfl⟩ := List.mem_map.1 hh'
  obtain ⟨m, hm, hd⟩ := hdest
  have hset := hsettled h₀ hh₀
  rw [hset.id] at hd
  obtain ⟨k', hk', hid, hhas⟩ := hs.arrives.mem_moves hm
  obtain ⟨h₁, hh₁, hbare, hgrown⟩ := hs.planned.origin k' hk'
  obtain rfl := List.inj_on_of_nodup_map hapart.ids (hmem hh₁) hh₀
    ((Host.id_of_bare hbare).symm.trans (hid.trans hd))
  have hcopy := hs.planned.fine k' hk'
  have hfits : k'.requested.fitsWithin k'.capacity = true := by
    refine hcopy.fits.resolve_left fun horiginal => ?_
    obtain rfl := List.inj_on_of_nodup_map hapart.ids horiginal hh₀ (hid.trans hd)
    obtain ⟨v, hv⟩ := SortedMap.mem_values_iff.1 hm
    have hnone := h.not_released (hapart.filter _) hh₁ hk' rfl hhas
    rw [(hs.arrives hv).1] at hnone
    exact absurd (hnone.symm.trans hv) (by simp)
  rw [hset.capacity, ← Host.capacity_of_bare hbare]
  refine Resources.fitsWithin_of_le (Host.requested_mono (fun {v w'} hw' => ?_)
    fun hw => (hcopy.records hw).2.2) hfits
  have hv : k'.Has v := by
    rcases (hset.has v).1 (by rw [Host.Has, hw']; rfl) with ⟨m', hm', rfl, hd'⟩ | ⟨hv, -⟩
    · refine hs.planned.has_of_receives hk' ?_
      rw [hid, hd, ← hd']
      exact hs.arrives.mem_moves (hpart m' hm')
    · exact hgrown v hv
  obtain ⟨w, hw⟩ := Option.isSome_iff_exists.1 hv
  exact ⟨w, hw, (hset.filed hw').2.trans (hcopy.records hw).2.1.symm⟩

end

/-- Under every norm and estimator a consolidation evacuates hosts, and where numbers are exact, any
part of it, carried out in any order, leaves its destinations within their capacity. -/
theorem consolidate_evacuates (k : Ranking α) {hosts : List (Host α)} (hfiled : Filed hosts)
    (hapart : Apart (fun _ => True) hosts) :
    Evacuates hosts (consolidate k hosts) ∧
      ∀ [AddCommMonoid α] [LinearOrder α] [Quantity.Exact α] [IsOrderedAddMonoid α],
        (∀ h ∈ hosts, ∀ {v w}, h.vms.get? v = some w → w.requested.Nonneg) →
          ∀ moves : List Migration, moves.Nodup →
            (∀ m ∈ moves, m ∈ (consolidate k hosts).moves) →
              ∀ h ∈ Migration.performAll moves hosts,
                (∃ m ∈ (consolidate k hosts).moves, m.destination = h.id) →
                  h.requested.fitsWithin h.capacity = true :=
  ⟨evacuates_consolidate k hfiled hapart, fun hnonneg _ hnodup hpart _ hh hdest =>
    fits_of_part k hfiled hapart hnonneg hnodup hpart hh hdest⟩

/-- Hosts are ranked by what their machines ask for. -/
def byRequest : Ranking ℚ := ⟨.l1, .ofScalar "requested" 1 Vm.requested fun _ _ => 0⟩

/-- A host with one machine. -/
def holding (id : HostId) (vm : VmId) (amount : ℚ) : Host ℚ :=
  (Host.new id (.ofFn fun _ => 4) 1).assign (.new vm (.ofFn fun _ => amount) 1)

/-- A host without machines. -/
def idling (id : HostId) : Host ℚ := Host.new id (.ofFn fun _ => 4) 1

theorem holding_get? (id : HostId) (vm : VmId) (amount : ℚ) (v : VmId) :
    (holding id vm amount).vms.get? v =
      if v = vm then some ((Vm.new vm (.ofFn fun _ => amount) 1).on id) else none := by
  rw [holding, Host.assign, SortedMap.get?_insert]
  rfl

/-- The machine of the third host has no room on the first one; it goes to the second one, and from
there on to the last one, which has none. -/
def chain : List (Host ℚ) :=
  [holding "a" "u" 4, holding "b" "v" 2, holding "c" "w" 1, idling "d"]

theorem records_chain : ∀ h ∈ chain, ∀ {v w}, h.vms.get? v = some w → w.id = v ∧
    w.requested.Nonneg ∧ [("u", "a"), ("v", "b"), ("w", "c")].lookup v = some h.id := by
  intro h hh v w hw
  simp only [chain, List.mem_cons, List.not_mem_nil, or_false] at hh
  rcases hh with rfl | rfl | rfl | rfl
  iterate 3
    rw [holding_get?] at hw
    split at hw
    · rename_i hv
      rw [← Option.some.inj hw, hv]
      exact ⟨rfl, fun r => by cases r <;> decide +kernel, rfl⟩
    · exact absurd hw (by simp)
  exact absurd hw (by simp [idling, Host.new])

theorem filed_chain : Filed chain := fun h hh _ _ hw => (records_chain h hh hw).1

theorem apart_chain : Apart (fun _ => True) chain :=
  .of_places (by decide) fun h hh _ hv => by
    obtain ⟨w, hw⟩ := Option.isSome_iff_exists.1 hv
    exact (records_chain h hh hw).2.2

theorem consolidate_evacuates_of_chain :
    (consolidate byRequest chain).moves = [⟨"v", some "b", "d"⟩, ⟨"w", some "c", "d"⟩] ∧
      Evacuates chain (consolidate byRequest chain) ∧
        ∀ h ∈ Migration.performAll [⟨"w", some "c", "d"⟩] chain, h.id = "d" →
          h.requested.fitsWithin h.capacity = true := by
  have hmoves : (consolidate byRequest chain).moves =
      [⟨"v", some "b", "d"⟩, ⟨"w", some "c", "d"⟩] := by cbv
  obtain ⟨hevacuates, hparts⟩ := consolidate_evacuates byRequest filed_chain apart_chain
  refine ⟨hmoves, hevacuates, fun h hh hid =>
    hparts (fun h hh _ _ hw => (records_chain h hh hw).2.1) _ (by simp) ?_ h hh ?_⟩
  · simp [hmoves]
  · exact ⟨⟨"v", some "b", "d"⟩, by simp [hmoves], hid.symm⟩

end Consolidation

end ClusterControl
