import ClusterControl.Proofs.Planning.Growth
import ClusterControl.Proofs.Resource.Exact

/-!
# Hosts that are filled

A planner hands out machines one after the other.  Each goes to a host that is open to it and can
take it; one that no open host can take is left out.  However the planner chooses among the hosts
that would do, what the hosts have in the end is fixed by where the machines were sent.

No machine asks for less than nothing, as vectors that are made from outside numbers are clamped; so
what is requested of a host only grows, and a host that has once refused a machine goes on doing so.

* `Host.Takes` is what happens to one host.  It gains the machines it takes (`Takes.gains`), what is
  requested of it grows (`Takes.requested_le`), and it is within its capacity once it has taken one
  (`Takes.fits`).
* `Fills` is what happens to all of them.  Every host takes what was sent to it (`Fills.takes`), and
  what was left out fits no open host in the end (`Fills.refused`).
-/

namespace ClusterControl

variable {α : Type}

/-! ## One host -/

namespace Host

/-- The host after machines came that it had not: each is recorded under its id as being here, and
nothing else has changed. -/
structure Gains (h : Host α) (vms : List (Vm α)) (h' : Host α) : Prop where
  bare : h'.bare = h.bare
  new : ∀ vm ∈ vms, h.vms.get? vm.id = none
  came : ∀ vm ∈ vms, h'.vms.get? vm.id = some (vm.on h.id)
  kept : ∀ {v}, v ∉ vms.map Vm.id → h'.vms.get? v = h.vms.get? v

theorem gains_nil (h : Host α) : h.Gains [] h :=
  ⟨rfl, by simp, by simp, fun _ => rfl⟩

/-- What a host with one machine more gains, it gains along with that machine. -/
theorem Gains.cons {h h' : Host α} {vm : Vm α} {rest : List (Vm α)} (hnew : h.vms.get? vm.id = none)
    (hid : vm.id ∉ rest.map Vm.id) (hrest : (h.assign vm).Gains rest h') :
    h.Gains (vm :: rest) h' := by
  have hother : ∀ {v}, v ≠ vm.id → (h.assign vm).vms.get? v = h.vms.get? v := fun hv => by
    rw [assign, SortedMap.get?_insert, if_neg hv]
  refine ⟨hrest.bare, fun w hw => ?_, fun w hw => ?_, fun {v} hv => ?_⟩
  · rcases List.mem_cons.1 hw with rfl | hw
    · exact hnew
    · have hne : w.id ≠ vm.id := fun heq => hid (heq ▸ List.mem_map_of_mem hw)
      rw [← hother hne]
      exact hrest.new w hw
  · rcases List.mem_cons.1 hw with rfl | hw
    · rw [hrest.kept hid, assign, SortedMap.get?_insert, if_pos rfl]
    · exact hrest.came w hw
  · rw [List.map_cons, List.mem_cons, not_or] at hv
    rw [hrest.kept hv.2, hother hv.1]

/-- What a host had, it still has. -/
theorem Gains.keeps {h h' : Host α} {vms : List (Vm α)} (hg : h.Gains vms h') {v : VmId} {w : Vm α}
    (hv : h.vms.get? v = some w) : h'.vms.get? v = some w := by
  rw [hg.kept, hv]
  rintro hmem
  obtain ⟨vm, hvm, rfl⟩ := List.mem_map.1 hmem
  rw [hg.new vm hvm] at hv
  exact absurd hv (by simp)

section

variable [AddCommMonoid α] [LinearOrder α]

/-- Machines that a host has not, no two of them with one id.  Neither they nor the machines on the
host ask for less than nothing. -/
structure Lacks (h : Host α) (vms : List (Vm α)) : Prop where
  distinct : (vms.map Vm.id).Nodup
  fresh : ∀ vm ∈ vms, ¬h.Has vm.id
  own : ∀ {v w}, h.vms.get? v = some w → w.requested.Nonneg
  nonneg : ∀ vm ∈ vms, vm.requested.Nonneg

/-- A host that has taken a machine still lacks the other ones. -/
theorem Lacks.assign {h : Host α} {vm : Vm α} {rest : List (Vm α)} (hl : h.Lacks (vm :: rest)) :
    (h.assign vm).Lacks rest := by
  have hdistinct := List.nodup_cons.1 hl.distinct
  refine ⟨hdistinct.2, fun w hw hhas => ?_, fun {v w} hw => ?_,
    fun w hw => hl.nonneg w (List.mem_cons_of_mem vm hw)⟩
  · rcases (h.has_assign vm w.id).1 hhas with heq | hhas
    · exact hdistinct.1 (heq ▸ List.mem_map_of_mem hw)
    · exact hl.fresh w (List.mem_cons_of_mem vm hw) hhas
  · rw [Host.assign, SortedMap.get?_insert] at hw
    split at hw
    · rw [← Option.some.inj hw]
      exact hl.nonneg vm List.mem_cons_self
    · exact hl.own hw

end

variable [Quantity α]

/-- A host takes machines one after the other, each when it can. -/
inductive Takes : Host α → List (Vm α) → Host α → Prop
  | stop (h : Host α) : Takes h [] h
  | more {h h' : Host α} {vm : Vm α} {rest : List (Vm α)} (hroom : h.canTake vm = true)
      (hrest : Takes (h.assign vm) rest h') : Takes h (vm :: rest) h'

theorem Takes.bare {h h' : Host α} {vms : List (Vm α)} (ht : h.Takes vms h') :
    h'.bare = h.bare := by
  induction ht with
  | stop => rfl
  | more _ _ ih => exact ih

variable [AddCommMonoid α] [LinearOrder α]

theorem Takes.gains {h h' : Host α} {vms : List (Vm α)} (ht : h.Takes vms h') (hl : h.Lacks vms) :
    h.Gains vms h' := by
  induction ht with
  | stop h => exact h.gains_nil
  | more _ _ ih =>
    refine .cons ?_ (List.nodup_cons.1 hl.distinct).1 (ih hl.assign)
    exact Option.not_isSome_iff_eq_none.1 (hl.fresh _ List.mem_cons_self)

variable [Quantity.Exact α] [IsOrderedAddMonoid α]

/-- A machine that a host has not adds to what is requested there. -/
theorem Lacks.requested_le_assign {h : Host α} {vm : Vm α} {rest : List (Vm α)}
    (hl : h.Lacks (vm :: rest)) (r : Resource) :
    h.requested.get r ≤ (h.assign vm).requested.get r := by
  refine requested_mono (fun {v w} hw => ⟨w, ?_, rfl⟩) (fun hw => hl.assign.own hw) r
  have hv : v ≠ vm.id := by
    rintro rfl
    exact hl.fresh vm List.mem_cons_self (by rw [Has, hw]; rfl)
  rw [Host.assign, SortedMap.get?_insert, if_neg hv, hw]

/-- What a host can take when more is requested there, it could take before. -/
theorem canTake_of_requested_le {h h' : Host α} {vm : Vm α} (hbare : h'.bare = h.bare)
    (hle : ∀ r, h.requested.get r ≤ h'.requested.get r) (htake : h'.canTake vm = true) :
    h.canTake vm = true := by
  rw [canTake, capacity_of_bare hbare] at htake
  refine Resources.fitsWithin_of_le (fun r => ?_) htake
  rw [Resources.get_add, Resources.get_add]
  exact add_le_add_left (hle r) _

theorem Takes.requested_le {h h' : Host α} {vms : List (Vm α)} (ht : h.Takes vms h')
    (hl : h.Lacks vms) (r : Resource) : h.requested.get r ≤ h'.requested.get r := by
  induction ht with
  | stop => exact le_refl _
  | more _ _ ih => exact (hl.requested_le_assign r).trans (ih hl.assign)

/-- A host that refuses a machine goes on refusing it. -/
theorem Takes.refuses {h h' : Host α} {vms : List (Vm α)} (ht : h.Takes vms h') (hl : h.Lacks vms)
    {vm : Vm α} (hfull : h.canTake vm = false) : h'.canTake vm = false := by
  rw [← Bool.not_eq_true] at hfull ⊢
  exact fun htake => hfull (canTake_of_requested_le ht.bare (ht.requested_le hl) htake)

/-- A host that has taken machines is within its capacity, whether it was so before or not. -/
theorem Takes.fits {h h' : Host α} {vms : List (Vm α)} (ht : h.Takes vms h') (hl : h.Lacks vms)
    (hsome : vms ≠ []) : h'.requested.fitsWithin h'.capacity = true := by
  induction ht with
  | stop => exact absurd rfl hsome
  | @more h h' vm rest hroom hrest ih =>
    by_cases hlast : rest = []
    · subst hlast
      cases hrest
      exact Resources.fitsWithin_of_le (requested_assign_le hl.own) hroom
    · exact ih hl.assign hlast

end Host

/-! ## All hosts -/

section

variable [AddCommMonoid α] [LinearOrder α]

/-- Machines that may be handed out: no two have one id, no open host has one of them, and no
machine asks for less than nothing. -/
structure Awaited (isOpen : Host α → Prop) (hosts : List (Host α)) (batch : List (Vm α)) :
    Prop where
  distinct : (batch.map Vm.id).Nodup
  fresh : ∀ k ∈ hosts, isOpen k.bare → ∀ vm ∈ batch, ¬k.Has vm.id
  own : ∀ k ∈ hosts, ∀ {v w}, k.vms.get? v = some w → w.requested.Nonneg
  nonneg : ∀ vm ∈ batch, vm.requested.Nonneg

namespace Awaited

variable {isOpen : Host α → Prop} {hosts : List (Host α)} {vm : Vm α} {batch : List (Vm α)}

/-- A host lacks what it may be given, which is nothing unless it is open. -/
theorem lacks (h : Awaited isOpen hosts batch) {k : Host α} (hk : k ∈ hosts) {vms : List (Vm α)}
    (hsub : vms.Sublist batch) (hopen : vms ≠ [] → isOpen k.bare) : k.Lacks vms where
  distinct := h.distinct.sublist (hsub.map Vm.id)
  fresh w hw := h.fresh k hk (hopen (List.ne_nil_of_mem hw)) w (hsub.mem hw)
  own := h.own k hk
  nonneg w hw := h.nonneg w (hsub.mem hw)

theorem leave (h : Awaited isOpen hosts (vm :: batch)) : Awaited isOpen hosts batch :=
  ⟨(List.nodup_cons.1 h.distinct).2,
    fun k hk hopen w hw => h.fresh k hk hopen w (List.mem_cons_of_mem vm hw), h.own,
    fun w hw => h.nonneg w (List.mem_cons_of_mem vm hw)⟩

theorem take (h : Awaited isOpen hosts (vm :: batch)) {i : Nat} {k : Host α}
    (hget : hosts[i]? = some k) (hopen : isOpen k.bare) :
    Awaited isOpen (hosts.set i (k.assign vm)) batch := by
  have hlacks := (h.lacks (List.mem_of_getElem? hget) (.refl _) fun _ => hopen).assign
  refine ⟨h.leave.distinct, fun k' hk' hopen' => ?_, fun k' hk' => ?_, h.leave.nonneg⟩
  · obtain hmem | rfl := List.mem_or_eq_of_mem_set hk'
    · exact h.leave.fresh k' hmem hopen'
    · exact hlacks.fresh
  · obtain hmem | rfl := List.mem_or_eq_of_mem_set hk'
    · exact h.own k' hmem
    · exact hlacks.own

end Awaited

end

variable [Quantity α]

/-- Machines are handed out one after the other: each goes to a host that is open and can take it,
or to none when no open host can.  Whether a host is open does not depend on its machines. -/
inductive Fills (isOpen : Host α → Prop) :
    List (Host α) → List (Vm α × Option HostId) → List (Host α) → Prop
  | stop (hosts : List (Host α)) : Fills isOpen hosts [] hosts
  | take {hosts after : List (Host α)} {rest : List (Vm α × Option HostId)} {i : Nat} {h : Host α}
      {vm : Vm α} (hget : hosts[i]? = some h) (hopen : isOpen h.bare)
      (hroom : h.canTake vm = true) (hrest : Fills isOpen (hosts.set i (h.assign vm)) rest after) :
      Fills isOpen hosts ((vm, some h.id) :: rest) after
  | leave {hosts after : List (Host α)} {rest : List (Vm α × Option HostId)} {vm : Vm α}
      (hfull : ∀ h ∈ hosts, isOpen h.bare → h.canTake vm = false)
      (hrest : Fills isOpen hosts rest after) : Fills isOpen hosts ((vm, none) :: rest) after

/-- The machines that were sent to a host. -/
def sentTo (choices : List (Vm α × Option HostId)) (host : HostId) : List (Vm α) :=
  (choices.filter fun x => x.2 == some host).map Prod.fst

omit [Quantity α] in
/-- Hosts with distinct ids are told apart by them. -/
theorem index_eq_of_id_eq {hosts : List (Host α)} (hids : (hosts.map Host.id).Nodup) {i n : Nat}
    {h k : Host α} (hi : hosts[i]? = some h) (hn : hosts[n]? = some k) (hid : h.id = k.id) :
    i = n := by
  have hlt : i < (hosts.map Host.id).length := by
    rw [List.length_map]
    exact (List.getElem?_eq_some_iff.1 hi).1
  refine (List.getElem?_inj hlt hids).1 ?_
  rw [List.getElem?_map, List.getElem?_map, hi, hn, Option.map_some, Option.map_some, hid]

omit [Quantity α] in
theorem sublist_sentTo (choices : List (Vm α × Option HostId)) (host : HostId) :
    (sentTo choices host).Sublist (choices.map Prod.fst) :=
  List.filter_sublist.map Prod.fst

omit [Quantity α] in
theorem mem_sentTo {choices : List (Vm α × Option HostId)} {host : HostId} {vm : Vm α}
    (hvm : (vm, some host) ∈ choices) : vm ∈ sentTo choices host :=
  List.mem_map.2 ⟨(vm, some host), List.mem_filter.2 ⟨hvm, beq_self_eq_true _⟩, rfl⟩

omit [Quantity α] in
/-- What was sent to a host, when something tells the host of each machine. -/
theorem sentTo_eq_filter {choices : List (Vm α × Option HostId)} {f : VmId → Option HostId}
    (hf : ∀ x ∈ choices, f x.1.id = x.2) (host : HostId) :
    sentTo choices host = (choices.map Prod.fst).filter fun vm => f vm.id == some host := by
  rw [List.filter_map]
  exact congrArg _ (List.filter_congr fun x hx => by rw [Function.comp_apply, hf x hx])

namespace Fills

variable {isOpen : Host α → Prop} {hosts after : List (Host α)}
  {choices : List (Vm α × Option HostId)}

theorem length_eq (h : Fills isOpen hosts choices after) : after.length = hosts.length := by
  induction h with
  | stop => rfl
  | take _ _ _ _ ih => rw [ih, List.length_set]
  | leave _ _ ih => exact ih

theorem exists_get (h : Fills isOpen hosts choices after) {n : Nat} {k' : Host α}
    (hk' : after[n]? = some k') : ∃ k, hosts[n]? = some k := by
  have hlt := (List.getElem?_eq_some_iff.1 hk').1
  rw [h.length_eq] at hlt
  exact ⟨hosts[n], List.getElem?_eq_getElem hlt⟩

/-- Every host takes machines that were sent to its id: all of them when it is the only one of that
id, and none unless it is open. -/
theorem takes (h : Fills isOpen hosts choices after) {n : Nat} {k k' : Host α}
    (hk : hosts[n]? = some k) (hk' : after[n]? = some k') : ∃ vms, k.Takes vms k' ∧
      vms.Sublist (sentTo choices k.id) ∧ (vms ≠ [] → isOpen k.bare) ∧
        ((hosts.map Host.id).Nodup → vms = sentTo choices k.id) := by
  induction h generalizing k with
  | stop hosts =>
    rw [hk] at hk'
    obtain rfl := Option.some.inj hk'
    exact ⟨[], .stop k, .slnil, fun hne => absurd rfl hne, fun _ => rfl⟩
  | @take hosts after rest i h vm hget hopen hroom _ ih =>
    by_cases hni : i = n
    · subst hni
      rw [hget] at hk
      obtain rfl := Option.some.inj hk
      have hlt : i < hosts.length := (List.getElem?_eq_some_iff.1 hget).1
      obtain ⟨vms, htakes, hsub, -, hall⟩ := ih (List.getElem?_set_self hlt) hk'
      have hsent : sentTo ((vm, some h.id) :: rest) h.id = vm :: sentTo rest h.id := by
        simp [sentTo]
      refine ⟨vm :: vms, .more hroom htakes, hsent ▸ hsub.cons_cons vm, fun _ => hopen,
        fun hids => ?_⟩
      rw [hsent, hall (by rwa [ids_set_assign hget])]
      rfl
    · obtain ⟨vms, htakes, hsub, hsome, hall⟩ :=
        ih (by rw [List.getElem?_set_ne hni, hk]) hk'
      refine ⟨vms, htakes, hsub.trans ?_, hsome, fun hids => ?_⟩
      · exact (List.Sublist.filter _ (List.sublist_cons_self _ rest)).map Prod.fst
      · have hne : h.id ≠ k.id := fun heq => hni (index_eq_of_id_eq hids hget hk heq)
        rw [hall (by rwa [ids_set_assign hget])]
        simp [sentTo, hne]
  | leave _ _ ih =>
    obtain ⟨vms, htakes, hsub, hsome, hall⟩ := ih hk hk'
    exact ⟨vms, htakes, hsub, hsome, fun hids => by rw [hall hids]; rfl⟩

/-- Machines are sent to listed hosts that are open. -/
theorem known (h : Fills isOpen hosts choices after) {vm : Vm α} {host : HostId}
    (hvm : (vm, some host) ∈ choices) : ∃ k ∈ hosts, k.id = host ∧ isOpen k.bare := by
  induction h with
  | stop => exact absurd hvm List.not_mem_nil
  | take hget hopen _ _ ih =>
    rcases List.mem_cons.1 hvm with heq | hlater
    · obtain ⟨-, hhost⟩ := Prod.mk.inj heq
      exact ⟨_, List.mem_of_getElem? hget, (Option.some.inj hhost).symm, hopen⟩
    · obtain ⟨k, hk, hid, hopen'⟩ := ih hlater
      obtain hmem | rfl := List.mem_or_eq_of_mem_set hk
      · exact ⟨k, hmem, hid, hopen'⟩
      · exact ⟨_, List.mem_of_getElem? hget, hid, hopen⟩
  | leave _ _ ih => exact ih ((List.mem_cons.1 hvm).resolve_left (by simp))

variable [AddCommMonoid α] [LinearOrder α]

/-- What comes later may still be handed out. -/
theorem awaited (h : Fills isOpen hosts choices after) {later : List (Vm α)}
    (hnew : Awaited isOpen hosts (choices.map Prod.fst ++ later)) : Awaited isOpen after later := by
  induction h with
  | stop => exact hnew
  | take hget hopen _ _ ih => exact ih (Awaited.take hnew hget hopen)
  | leave _ _ ih => exact ih (Awaited.leave hnew)

/-- Every host gains what was sent to it. -/
theorem gains (h : Fills isOpen hosts choices after)
    (hnew : Awaited isOpen hosts (choices.map Prod.fst)) (hids : (hosts.map Host.id).Nodup) :
    List.Forall₂ (fun k k' => k.Gains (sentTo choices k.id) k') hosts after := by
  refine List.forall₂_iff_get.2 ⟨h.length_eq.symm, fun n hn hn' => ?_⟩
  obtain ⟨vms, htakes, hsub, hopen, hall⟩ :=
    h.takes (List.getElem?_eq_getElem hn) (List.getElem?_eq_getElem hn')
  rw [List.get_eq_getElem, List.get_eq_getElem, ← hall hids]
  exact htakes.gains
    (hnew.lacks (List.getElem_mem hn) (hsub.trans (sublist_sentTo _ _)) hopen)

/-- A host keeps what it had. -/
theorem keeps (h : Fills isOpen hosts choices after)
    (hnew : Awaited isOpen hosts (choices.map Prod.fst)) {n : Nat} {k : Host α} {v : VmId}
    {w : Vm α} (hk : hosts[n]? = some k) (hv : k.vms.get? v = some w) :
    ∃ k', after[n]? = some k' ∧ k'.bare = k.bare ∧ k'.vms.get? v = some w := by
  have hlt : n < after.length := by
    rw [h.length_eq]
    exact (List.getElem?_eq_some_iff.1 hk).1
  obtain ⟨vms, htakes, hsub, hopen, -⟩ := h.takes hk (List.getElem?_eq_getElem hlt)
  have hgains := htakes.gains
    (hnew.lacks (List.mem_of_getElem? hk) (hsub.trans (sublist_sentTo _ _)) hopen)
  exact ⟨after[n], List.getElem?_eq_getElem hlt, hgains.bare, hgains.keeps hv⟩

variable [Quantity.Exact α] [IsOrderedAddMonoid α]

/-- A host that machines were sent to is within its capacity. -/
theorem fits (h : Fills isOpen hosts choices after)
    (hnew : Awaited isOpen hosts (choices.map Prod.fst)) (hids : (hosts.map Host.id).Nodup)
    {k' : Host α} (hk' : k' ∈ after) (hsent : sentTo choices k'.id ≠ []) :
    k'.requested.fitsWithin k'.capacity = true := by
  obtain ⟨n, hn'⟩ := List.mem_iff_getElem?.1 hk'
  obtain ⟨k, hn⟩ := h.exists_get hn'
  obtain ⟨vms, htakes, hsub, hopen, hall⟩ := h.takes hn hn'
  rw [Host.id_of_bare htakes.bare, ← hall hids] at hsent
  exact htakes.fits (hnew.lacks (List.mem_of_getElem? hn) (hsub.trans (sublist_sentTo _ _)) hopen)
    hsent

/-- A host that refuses a machine does so in the end. -/
theorem refuses (h : Fills isOpen hosts choices after)
    (hnew : Awaited isOpen hosts (choices.map Prod.fst)) {vm : Vm α} {n : Nat} {k k' : Host α}
    (hk : hosts[n]? = some k) (hk' : after[n]? = some k') (hfull : k.canTake vm = false) :
    k'.canTake vm = false := by
  obtain ⟨vms, htakes, hsub, hopen, -⟩ := h.takes hk hk'
  exact htakes.refuses
    (hnew.lacks (List.mem_of_getElem? hk) (hsub.trans (sublist_sentTo _ _)) hopen) hfull

/-- A machine that was left out fits no open host in the end. -/
theorem refused (h : Fills isOpen hosts choices after)
    (hnew : Awaited isOpen hosts (choices.map Prod.fst)) {vm : Vm α} (hvm : (vm, none) ∈ choices)
    {k' : Host α} (hk' : k' ∈ after) (hopen : isOpen k'.bare) : k'.canTake vm = false := by
  induction h with
  | stop => exact absurd hvm List.not_mem_nil
  | take hget hopen' _ _ ih =>
    have hrest := (List.mem_cons.1 hvm).resolve_left (by simp)
    exact ih (hnew.take hget hopen') hrest hk'
  | leave hfull hrest ih =>
    rcases List.mem_cons.1 hvm with heq | hlater
    · obtain rfl := (Prod.mk.inj heq).1
      obtain ⟨n, hn'⟩ := List.mem_iff_getElem?.1 hk'
      obtain ⟨k, hn⟩ := hrest.exists_get hn'
      refine hrest.refuses hnew.leave hn hn' (hfull k (List.mem_of_getElem? hn) ?_)
      obtain ⟨vms, htakes, -⟩ := hrest.takes hn hn'
      rwa [← htakes.bare]
    · exact ih hnew.leave hlater hk'

end Fills

end ClusterControl
