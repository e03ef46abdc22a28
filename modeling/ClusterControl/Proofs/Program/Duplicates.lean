import ClusterControl.Proofs.Program.Tallies

/-!
# What a submission does to machines on hosts

A submission refuses the ids that it finds taken, and it looks for that at the host that a record
names, not at the place where the record is.  Nothing here asks the maps of the store to agree.

* `Submission.count_refused` counts how often an id is refused.
* `Submission.Books` says what recording the chosen machines does to the store and to the tally;
  `Submission.leads_startShares` and `Submission.leads_recordUnassigned` say that a submission that
  runs alone does this and no more.
-/

namespace ClusterControl

variable {α : Type}

/-! ## Adding one machine to any store -/

namespace Store

theorem SameOf.refl (s : Store α) (v : VmId) : SameOf s s v := ⟨rfl, fun _ => rfl, rfl⟩

/-- Dropping the record a machine had before leaves the other machines on every host. -/
theorem recordOn_dropPrevious_of_ne (s : Store α) {vm v : VmId} (previous target : Option HostId)
    (hv : v ≠ vm) (id : HostId) :
    (s.dropPrevious vm previous target).recordOn id v = s.recordOn id v := by
  cases previous with
  | none => rfl
  | some p =>
    rw [dropPrevious]
    split
    · rfl
    · refine (recordOn_unassign s.hosts p vm s.index s.unassigned id v).trans ?_
      rw [if_neg fun h => hv h.2]

/-- Adding a machine changes nothing about another one. -/
theorem sameOf_addVm (s : Store α) {w : Vm α} {v : VmId} (hv : v ≠ w.id) :
    SameOf s (s.addVm w).2 v := by
  cases hhost : w.hostId with
  | none =>
    simp only [addVm, hhost]
    refine ⟨?_, fun id => recordOn_dropPrevious_of_ne _ _ _ hv id, ?_⟩
    · rw [index_dropPrevious, SortedMap.get?_erase, if_neg hv]
    · rw [unassigned_dropPrevious, SortedMap.get?_insert, if_neg hv]
  | some t =>
    cases hget : s.hosts.get? t with
    | none =>
      rw [addVm_unknown hhost hget]
      exact .refl s v
    | some h =>
      simp only [addVm, hhost, hget]
      refine ⟨?_, fun id => ?_, ?_⟩
      · rw [index_dropPrevious, SortedMap.get?_insert, if_neg hv]
      · rw [recordOn_dropPrevious_of_ne _ _ _ hv, recordOn_insert, Host.assign,
          SortedMap.get?_insert, if_neg hv]
        by_cases hid : id = t
        · rw [if_pos hid, hid, recordOn_of_get? hget]
        · rw [if_neg hid]
      · rw [unassigned_dropPrevious, SortedMap.get?_erase, if_neg hv]

/-- A machine without a host is always added. -/
theorem addVm_of_unassigned (s : Store α) {w : Vm α} (hhost : w.hostId = none) :
    (s.addVm w).1 = true := by
  simp only [addVm, hhost]

/-- On the host that the index named, a machine that is added has a record with a host, or none. -/
theorem isAssigned_of_addVm {s : Store α} {w u : Vm α} {p : HostId}
    (hindex : s.index.get? w.id = some p) (hadded : (s.addVm w).1 = true)
    (hu : (s.addVm w).2.recordOn p w.id = some u) : u.isAssigned = true := by
  cases hhost : w.hostId with
  | none =>
    simp only [addVm, hhost, hostOf, hindex, dropPrevious, modifyHost] at hu
    rw [if_neg (by simp)] at hu
    have hgone := (recordOn_unassign s.hosts p w.id (s.index.erase w.id)
      (s.unassigned.insert w.id w) p w.id).symm.trans hu
    rw [if_pos ⟨rfl, rfl⟩] at hgone
    exact absurd hgone (by simp)
  | some t =>
    cases hget : s.hosts.get? t with
    | none =>
      rw [addVm_unknown hhost hget] at hadded
      exact absurd hadded (by simp)
    | some h =>
      simp only [addVm, hhost, hget, hostOf, hindex, dropPrevious, modifyHost] at hu
      by_cases hp : t = p
      · rw [if_pos (by rw [hp]), recordOn_insert, if_pos hp.symm, Host.assign,
          SortedMap.get?_insert, if_pos rfl] at hu
        rw [← Option.some.inj hu]
        rfl
      · rw [if_neg fun heq => hp (Option.some.inj heq)] at hu
        have hgone := (recordOn_unassign (s.hosts.insert t (h.assign w)) p w.id
          (s.index.insert w.id t) (s.unassigned.erase w.id) p w.id).symm.trans hu
        rw [if_pos ⟨rfl, rfl⟩] at hgone
        exact absurd hgone (by simp)

end Store

namespace Submission

/-! ## Counting refusals -/

/-- A taken id is refused every time, and another one every time but the first. -/
theorem count_refused (s : Store α) {vms : List (Vm α)} {v : VmId} (hv : v ∈ vms.map Vm.id) :
    (refused s [] vms).count v + (if taken s v then 0 else 1) = (vms.map Vm.id).count v := by
  have hboth := (perm_chosen_refused s [] vms).count_eq v
  rw [List.count_append] at hboth
  cases htaken : taken s v with
  | true =>
    have hnone : v ∉ (chosen s [] vms).map Vm.id := by
      intro hmem
      obtain ⟨w, hw, rfl⟩ := List.mem_map.1 hmem
      rw [(of_mem_chosen hw).2.1] at htaken
      exact absurd htaken (by simp)
    rw [List.count_eq_zero_of_not_mem hnone] at hboth
    rw [if_pos rfl]
    omega
  | false =>
    have hone := (nodup_chosen s [] vms).count (a := v)
    rw [if_pos (mem_chosen_ids hv List.not_mem_nil htaken)] at hone
    rw [if_neg (by simp)]
    omega

/-- Ids that are not in the batch are not refused. -/
theorem count_refused_of_not_mem (s : Store α) {vms : List (Vm α)} {v : VmId}
    (hv : v ∉ vms.map Vm.id) : (refused s [] vms).count v = 0 := by
  have hboth := (perm_chosen_refused s [] vms).count_eq v
  rw [List.count_append, List.count_eq_zero_of_not_mem hv] at hboth
  omega

/-! ## Recording, whatever the store -/

/-- The ids a tally has an answer for. -/
def Tally.ids (t : Tally) : List VmId := t.placed.map PlacedVm.vm ++ t.failed.map FailedVm.vm

/-- The refused duplicates of a tally. -/
def Tally.duplicates (t : Tally) : List FailedVm := t.failed.filter fun f => f.code == .duplicateId

/-- From one store and tally to another the machines with the listed ids were recorded: each is
answered, none as a duplicate, and nothing else has changed.  Where the index had placed one, there
is no record without a host any more. -/
structure Books (s : Store α) (t : Tally) (ids : List VmId) (s' : Store α) (t' : Tally) : Prop where
  others : ∀ v, v ∉ ids → s.SameOf s' v
  supplanted : ∀ v ∈ ids, ∀ p u, s.index.get? v = some p → s'.recordOn p v = some u →
    u.isAssigned = true
  answered : t'.ids.Perm (t.ids ++ ids)
  duplicates : t'.duplicates = t.duplicates

theorem Books.refl (s : Store α) (t : Tally) : Books s t [] s t :=
  ⟨fun v _ => .refl s v, fun _ hv => absurd hv List.not_mem_nil, by simp, rfl⟩

/-- What was recorded first is left alone by what follows. -/
theorem Books.trans {s₀ s₁ s₂ : Store α} {t₀ t₁ t₂ : Tally} {ids ids' : List VmId}
    (h : Books s₀ t₀ ids s₁ t₁) (k : Books s₁ t₁ ids' s₂ t₂) (hnew : (ids ++ ids').Nodup) :
    Books s₀ t₀ (ids ++ ids') s₂ t₂ := by
  have hapart : ∀ {v}, v ∈ ids → v ∉ ids' := fun hv hv' =>
    (List.nodup_append.1 hnew).2.2 _ hv _ hv' rfl
  refine ⟨fun v hv => ?_, fun v hv p u hp hu => ?_, ?_, k.duplicates.trans h.duplicates⟩
  · rw [List.mem_append, not_or] at hv
    exact (h.others v hv.1).trans (k.others v hv.2)
  · obtain hv | hv := List.mem_append.1 hv
    · rw [(k.others v (hapart hv)).recordOn] at hu
      exact h.supplanted v hv p u hp hu
    · have hsame := h.others v fun hv' => hapart hv' hv
      exact k.supplanted v hv p u (hsame.index.trans hp) hu
  · rw [← List.append_assoc]
    exact k.answered.trans (h.answered.append_right ids')

/-- One machine is added, and answered. -/
theorem Books.one {s : Store α} {t t' : Tally} {w : Vm α} (hadded : (s.addVm w).1 = true)
    (hids : t'.ids.Perm (t.ids ++ [w.id])) (hduplicates : t'.duplicates = t.duplicates) :
    Books s t [w.id] (s.addVm w).2 t' := by
  refine ⟨fun v hv => s.sameOf_addVm (by simpa using hv), fun v hv p u hp hu => ?_, hids,
    hduplicates⟩
  obtain rfl := List.mem_singleton.1 hv
  exact Store.isAssigned_of_addVm hp hadded hu

theorem Tally.perm_ids_place (t : Tally) (v : VmId) (host : HostId) :
    (t.place v host).ids.Perm (t.ids ++ [v]) := by
  simp only [Tally.ids, Tally.place, List.map_append, List.map_cons, List.map_nil,
    List.append_assoc]
  exact List.perm_append_comm.append_left _

theorem Tally.ids_fail (t : Tally) (v : VmId) (code : VmErrorCode) :
    (t.fail v code).ids = t.ids ++ [v] := by
  simp [Tally.ids, Tally.fail]

theorem Tally.duplicates_fail (t : Tally) (v : VmId) {code : VmErrorCode}
    (hcode : code ≠ .duplicateId) : (t.fail v code).duplicates = t.duplicates := by
  simp [Tally.duplicates, Tally.fail, List.filter_append, hcode]

variable [Quantity α] {c : Settings α} {g : Scene α}

theorem leads_recordFailure (t : Tally) (vm : Vm α) {code : VmErrorCode}
    (hcode : code ≠ .duplicateId) : (recordFailure t vm code).Leads c g fun g' t' =>
      Books g.store t [vm.id] g'.store t' := by
  refine Program.leads_bind.2 (Program.leads_store.2 (Program.leads_bind.2
    (Program.leads_event.2 (Program.leads_pure.2 ?_))))
  exact Books.one (w := (Vm.new vm.id vm.requested 0).failed code)
    (Store.addVm_of_unassigned _ rfl) (by rw [Tally.ids_fail]; rfl) (t.duplicates_fail vm.id hcode)

/-- A machine whose host is gone by now is recorded as failed instead. -/
theorem leads_recordStart (t : Tally) (host : HostId) (vm : Vm α) :
    (recordStart t host vm).Leads c g fun g' t' => Books g.store t [vm.id] g'.store t' := by
  set record : Vm α := { vm with hostId := some host, status := .running } with hrecord
  refine Program.leads_bind.2 (Program.leads_store.2 ?_)
  cases hknown : g.store.hosts.get? host with
  | none =>
    have hrefused : g.store.addVm record = (false, g.store) := Store.addVm_unknown rfl hknown
    simp only [StoreRequest.apply, ← hrecord, hrefused]
    exact leads_recordFailure t vm (by simp)
  | some h =>
    have hadded : (g.store.addVm record).1 = true := by simp only [Store.addVm, hrecord, hknown]
    simp only [StoreRequest.apply, ← hrecord, hadded]
    refine Program.leads_bind.2 (Program.leads_event.2 (Program.leads_pure.2 ?_))
    exact Books.one hadded (t.perm_ids_place vm.id host) rfl

theorem leads_recordShare (host : HostId) (started : List VmId) (t : Tally) {vms : List (Vm α)}
    (hnew : (vms.map Vm.id).Nodup) : (recordShare host started t vms).Leads c g fun g' t' =>
      Books g.store t (vms.map Vm.id) g'.store t' := by
  induction vms generalizing g t with
  | nil => exact Program.leads_pure.2 (.refl g.store t)
  | cons vm rest ih =>
    have hone : (if started.contains vm.id then recordStart t host vm
        else recordFailure t vm .startFailed).Leads c g fun g' t' =>
          Books g.store t [vm.id] g'.store t' := by
      split
      · exact leads_recordStart t host vm
      · exact leads_recordFailure t vm (by simp)
    rw [Contract.recordShare_cons, Program.leads_bind]
    refine hone.mono fun g₁ t₁ hfirst => ?_
    exact (ih t₁ (List.nodup_cons.1 hnew).2).mono fun g₂ t₂ hrest => hfirst.trans hrest hnew

theorem leads_startShares (t : Tally) {shares : List (HostId × List (Vm α))}
    (hnew : ((shares.flatMap Prod.snd).map Vm.id).Nodup) :
    (startShares t shares).Leads c g fun g' t' =>
      Books g.store t ((shares.flatMap Prod.snd).map Vm.id) g'.store t' := by
  induction shares generalizing g t with
  | nil => exact Program.leads_pure.2 (.refl g.store t)
  | cons share rest ih =>
    obtain ⟨host, vms⟩ := share
    rw [List.flatMap_cons, List.map_append] at hnew ⊢
    obtain ⟨hvms, hrest, -⟩ := List.nodup_append.1 hnew
    have hshare : ∀ (g : Scene α) started,
        (recordShare host started t vms >>= fun t => startShares t rest).Leads c g fun g' t' =>
          Books g.store t (vms.map Vm.id ++ (rest.flatMap Prod.snd).map Vm.id) g'.store t' := by
      intro g started
      refine Program.leads_bind.2 ((leads_recordShare host started t hvms).mono ?_)
      intro g₁ t₁ hfirst
      exact (ih t₁ hrest).mono fun g₂ t₂ hmore => hfirst.trans hmore hnew
    rw [startShares]
    refine Program.leads_bind.2 (Program.leads_host.2 ?_)
    rintro (e | started)
    · exact Program.leads_bind.2 (Program.leads_pure.2 (hshare _ []))
    · exact Program.leads_bind.2 (Program.leads_pure.2 (hshare _ started))

theorem leads_recordUnassigned (t : Tally) {vms : List (Vm α)} (hnew : (vms.map Vm.id).Nodup) :
    (recordUnassigned t vms).Leads c g fun g' t' =>
      Books g.store t (vms.map Vm.id) g'.store t' := by
  induction vms generalizing g t with
  | nil => exact Program.leads_pure.2 (.refl g.store t)
  | cons vm rest ih =>
    refine Program.leads_bind.2 ((leads_recordFailure t vm (by simp)).mono fun g₁ t₁ hfirst => ?_)
    exact (ih t₁ (List.nodup_cons.1 hnew).2).mono fun g₂ t₂ hrest => hfirst.trans hrest hnew

end Submission

end ClusterControl
