import ClusterControl.Proofs.Planning.Batch
import ClusterControl.Proofs.Planning.Growth
import ClusterControl.Proofs.Program.Alone
import ClusterControl.Proofs.Program.Submissions
import ClusterControl.Proofs.Store.Entries
import ClusterControl.Proofs.Store.Traffic

/-!
# What a submission tallies

A submission that runs alone first sifts its batch, then records every machine that it has chosen
once: on the host that started it, or as failed.

* `Submission.leads_sift` says which machines are chosen and which ids are refused.
* `Submission.Recorded` ties the tally to the store.  Recording one more machine keeps it, and so
  does recording shares and what was left unassigned.
-/

namespace ClusterControl.Submission

variable {α : Type}

/-! ## Sifting -/

/-- The id is taken by a machine on a host. -/
def taken (s : Store α) (v : VmId) : Bool := (s.vm? v).any Vm.isAssigned

/-- The machines of a batch that are to be placed: the first one of each id that is not taken. -/
def chosen (s : Store α) (seen : List VmId) : List (Vm α) → List (Vm α)
  | [] => []
  | vm :: rest =>
    if seen.contains vm.id || taken s vm.id then chosen s (vm.id :: seen) rest
    else fresh vm :: chosen s (vm.id :: seen) rest

/-- The ids of a batch that are refused as duplicates, each as often as it is. -/
def refused (s : Store α) (seen : List VmId) : List (Vm α) → List VmId
  | [] => []
  | vm :: rest =>
    if seen.contains vm.id || taken s vm.id then vm.id :: refused s (vm.id :: seen) rest
    else refused s (vm.id :: seen) rest

/-- Every machine of a batch is chosen or refused. -/
theorem perm_chosen_refused (s : Store α) (seen : List VmId) (vms : List (Vm α)) :
    ((chosen s seen vms).map Vm.id ++ refused s seen vms).Perm (vms.map Vm.id) := by
  induction vms generalizing seen with
  | nil => exact .refl _
  | cons vm rest ih =>
    rw [chosen, refused]
    split
    · exact List.perm_middle.trans ((ih (vm.id :: seen)).cons vm.id)
    · exact (ih (vm.id :: seen)).cons vm.id

/-- A chosen machine is the first one of its id, which is not taken. -/
theorem of_mem_chosen {s : Store α} {seen : List VmId} {vms : List (Vm α)} {w : Vm α}
    (hw : w ∈ chosen s seen vms) : w.id ∉ seen ∧ taken s w.id = false ∧
      ∃ vm, vms.find? (fun x => x.id == w.id) = some vm ∧ w = fresh vm := by
  induction vms generalizing seen with
  | nil => exact absurd hw List.not_mem_nil
  | cons vm rest ih =>
    rw [chosen] at hw
    have hrest : w ∈ chosen s (vm.id :: seen) rest → w.id ∉ seen ∧ taken s w.id = false ∧
        ∃ x, (vm :: rest).find? (fun x => x.id == w.id) = some x ∧ w = fresh x := by
      intro hw
      obtain ⟨hseen, htaken, x, hfind, hx⟩ := ih hw
      rw [List.mem_cons, not_or] at hseen
      refine ⟨hseen.2, htaken, x, ?_, hx⟩
      rwa [List.find?_cons_of_neg (by simpa using Ne.symm hseen.1)]
    split at hw
    · exact hrest hw
    · rename_i hknown
      rw [Bool.or_eq_true, not_or, Bool.not_eq_true, Bool.not_eq_true] at hknown
      obtain rfl | hw := List.mem_cons.1 hw
      · refine ⟨fun (hseen : vm.id ∈ seen) => ?_, hknown.2, vm,
          List.find?_cons_of_pos (by simp [fresh]), rfl⟩
        rw [List.contains_iff_mem.2 hseen] at hknown
        exact absurd hknown.1 (by simp)
      · exact hrest hw

/-- An id that is not taken is the id of a chosen machine. -/
theorem mem_chosen_ids {s : Store α} {seen : List VmId} {vms : List (Vm α)} {v : VmId}
    (hv : v ∈ vms.map Vm.id) (hseen : v ∉ seen) (htaken : taken s v = false) :
    v ∈ (chosen s seen vms).map Vm.id := by
  induction vms generalizing seen with
  | nil => exact absurd hv List.not_mem_nil
  | cons vm rest ih =>
    rw [chosen]
    by_cases hvm : v = vm.id
    · subst hvm
      have hfree : ¬(seen.contains vm.id || taken s vm.id) = true := by
        rw [htaken, Bool.or_false, List.contains_iff_mem]
        exact hseen
      rw [if_neg hfree]
      exact List.mem_cons_self
    · have hin : v ∈ (chosen s (vm.id :: seen) rest).map Vm.id := by
        refine ih ((List.mem_cons.1 hv).resolve_left hvm) ?_
        rw [List.mem_cons, not_or]
        exact ⟨hvm, hseen⟩
      split
      · exact hin
      · exact List.mem_cons_of_mem _ hin

/-- Chosen machines have different ids. -/
theorem nodup_chosen (s : Store α) (seen : List VmId) (vms : List (Vm α)) :
    ((chosen s seen vms).map Vm.id).Nodup := by
  induction vms generalizing seen with
  | nil => exact List.nodup_nil
  | cons vm rest ih =>
    rw [chosen]
    split
    · exact ih _
    · refine List.nodup_cons.2 ⟨fun hmem => ?_, ih _⟩
      obtain ⟨w, hw, hid⟩ := List.mem_map.1 hmem
      exact (of_mem_chosen hw).1 (hid ▸ List.mem_cons_self)

/-- In a consistent store the index tells whether an id is taken. -/
theorem taken_eq_false_iff {s : Store α} (hs : s.Consistent) {v : VmId} :
    taken s v = false ↔ s.index.get? v = none := by
  rw [taken, Store.vm?, Store.hostOf]
  cases hindex : s.index.get? v with
  | none =>
    dsimp only
    cases hv : s.unassigned.get? v with
    | none => simp
    | some w => simp [Vm.isAssigned, (hs.off_host hv).2]
  | some id =>
    obtain ⟨w, hw⟩ := hs.placed.recordOn_of_index hindex
    have hrecord : ((s.hosts.get? id).bind fun h => h.vms.get? v) = some w := hw
    simp [hrecord, Vm.isAssigned, (hs.on_host hw).2]

/-- The chosen ids are those of the batch that are on no host. -/
theorem mem_chosen_iff {s : Store α} (hs : s.Consistent) {vms : List (Vm α)} {v : VmId} :
    v ∈ (chosen s [] vms).map Vm.id ↔ v ∈ vms.map Vm.id ∧ s.index.get? v = none := by
  constructor
  · intro hv
    obtain ⟨w, hw, rfl⟩ := List.mem_map.1 hv
    obtain ⟨-, htaken, vm, hfind, rfl⟩ := of_mem_chosen hw
    have hmem : vm.id ∈ vms.map Vm.id := List.mem_map_of_mem (List.mem_of_find?_eq_some hfind)
    exact ⟨hmem, (taken_eq_false_iff hs).1 htaken⟩
  · rintro ⟨hv, hindex⟩
    exact mem_chosen_ids hv List.not_mem_nil ((taken_eq_false_iff hs).2 hindex)

section

variable [Quantity α] {c : Settings α} {g : Scene α}

theorem leads_isPlaced {v : VmId} {Q : Scene α → Bool → Prop} :
    (isPlaced v).Leads c g Q ↔ Q g (taken g.store v) := by
  rw [isPlaced, Program.leads_bind, Program.leads_store, taken]
  cases hv : g.store.vm? v with
  | none =>
    simp only [StoreRequest.apply, hv]
    exact Program.leads_pure
  | some w =>
    simp only [StoreRequest.apply, hv]
    exact Program.leads_pure

/-- Sifting chooses machines and refuses ids, and changes nothing. -/
theorem leads_sift (seen : List VmId) (t : Tally) (vms : List (Vm α)) :
    (sift seen t vms).Leads c g fun g' r => g' = g ∧ r.1 = chosen g.store seen vms ∧
      r.2.placed = t.placed ∧
        r.2.failed = t.failed ++ (refused g.store seen vms).map (⟨·, .duplicateId⟩) := by
  induction vms generalizing seen t with
  | nil => exact Program.leads_pure.2 ⟨rfl, rfl, rfl, (List.append_nil _).symm⟩
  | cons vm rest ih =>
    have hknown : ∀ {Q : Scene α → Bool → Prop}, Q g (seen.contains vm.id || taken g.store vm.id) →
        (if seen.contains vm.id then pure true else isPlaced vm.id).Leads c g Q := by
      intro Q hQ
      split
      · rename_i hseen
        rw [hseen, Bool.true_or] at hQ
        exact Program.leads_pure.2 hQ
      · rename_i hseen
        rw [Bool.not_eq_true] at hseen
        rw [hseen, Bool.false_or] at hQ
        exact leads_isPlaced.2 hQ
    rw [Contract.sift_cons, Program.leads_bind]
    refine hknown ?_
    rw [chosen, refused]
    cases seen.contains vm.id || taken g.store vm.id with
    | true =>
      refine Program.leads_bind.2 (Program.leads_event.2 ((ih _ _).mono ?_))
      rintro g' r ⟨rfl, hchosen, hplaced, hfailed⟩
      refine ⟨rfl, hchosen, hplaced, ?_⟩
      rw [hfailed, Tally.fail, if_pos rfl, List.map_cons, List.append_assoc, List.singleton_append]
    | false =>
      refine Program.leads_bind.2 ((ih _ t).mono ?_)
      rintro g' r ⟨rfl, hchosen, hplaced, hfailed⟩
      exact Program.leads_pure.2 ⟨rfl, congrArg (fresh vm :: ·) hchosen, hplaced, hfailed⟩

end

/-! ## Recording -/

/-- What becomes of a chosen machine. -/
inductive Outcome
  | started (host : HostId)
  | failed (code : VmErrorCode)

namespace Outcome

/-- The machine as it is recorded. -/
def record (vm : Vm α) : Outcome → Vm α
  | started host => { vm with hostId := some host, status := .running }
  | failed code => (Vm.new vm.id vm.requested 0).failed code

def placed? (vm : VmId) : Outcome → Option PlacedVm
  | started host => some ⟨vm, host⟩
  | failed _ => none

def failed? (vm : VmId) : Outcome → Option FailedVm
  | started _ => none
  | failed code => some ⟨vm, code⟩

@[simp]
theorem id_record (vm : Vm α) (o : Outcome) : (o.record vm).id = vm.id := by
  cases o <;> rfl

/-- A record says where the machine has got to, wherever it was assigned. -/
theorem record_on (vm : Vm α) (host : HostId) (o : Outcome) :
    o.record (vm.on host) = o.record vm := by
  cases o <;> rfl

theorem placed?_eq_some_iff {v : VmId} {o : Outcome} {p : PlacedVm} :
    o.placed? v = some p ↔ v = p.vm ∧ o = .started p.host := by
  obtain ⟨vm, host⟩ := p
  cases o <;> simp [placed?]

theorem failed?_eq_some_iff {v : VmId} {o : Outcome} {f : FailedVm} :
    o.failed? v = some f ↔ v = f.vm ∧ o = .failed f.code := by
  obtain ⟨vm, code⟩ := f
  cases o <;> simp [failed?]

/-- Every machine is placed or failed. -/
theorem perm_ids (l : List (Vm α × Outcome)) :
    ((l.filterMap fun x => x.2.placed? x.1.id).map PlacedVm.vm ++
      (l.filterMap fun x => x.2.failed? x.1.id).map FailedVm.vm).Perm
        (l.map fun x => x.1.id) := by
  induction l with
  | nil => exact .refl _
  | cons x rest ih =>
    obtain ⟨vm, _ | _⟩ := x
    · exact ih.cons vm.id
    · exact List.perm_middle.trans (ih.cons vm.id)

end Outcome

/-- The machines on the list, and no others, have been recorded, and the tally says what became of
each. -/
structure Recorded (s₀ : Store α) (t₀ : Tally) (l : List (Vm α × Outcome)) (s : Store α)
    (t : Tally) : Prop where
  enters : s₀.Enters s (l.map fun x => x.2.record x.1)
  placed : t.placed = t₀.placed ++ l.filterMap fun x => x.2.placed? x.1.id
  failed : t.failed = t₀.failed ++ l.filterMap fun x => x.2.failed? x.1.id

/-- The recorded ids are those of the machines on the list. -/
theorem ids_records (l : List (Vm α × Outcome)) :
    (l.map fun x => x.2.record x.1).map Vm.id = l.map fun x => x.1.id := by
  simp [Function.comp_def]

variable {s₀ : Store α} {t₀ t : Tally} {l : List (Vm α × Outcome)}

theorem Recorded.start {s : Store α} (hs : s.Consistent) : Recorded s t [] s t :=
  ⟨.refl hs, (List.append_nil _).symm, (List.append_nil _).symm⟩

/-- The machines that were started are placed, if there were none before. -/
theorem Recorded.mem_placed {s : Store α} (h : Recorded s₀ t₀ l s t) (hplaced : t₀.placed = [])
    {p : PlacedVm} : p ∈ t.placed ↔ ∃ x ∈ l, x.1.id = p.vm ∧ x.2 = .started p.host := by
  rw [h.placed, hplaced, List.nil_append, List.mem_filterMap]
  simp only [Outcome.placed?_eq_some_iff]

/-- The store takes one more record. -/
theorem Recorded.enter {s : Store α} (h : Recorded s₀ t₀ l s t) {vm : Vm α}
    (hnew : vm.id ∉ l.map fun x => x.1.id) {o : Outcome}
    (hhost : ∀ host, o = .started host → (s₀.hosts.get? host).isSome = true) :
    (s.addVm (o.record vm)).1 = true ∧ s₀.Enters (s.addVm (o.record vm)).2
      ((l ++ [(vm, o)]).map fun x => x.2.record x.1) := by
  rw [List.map_append]
  refine h.enters.addVm (by rwa [ids_records, Outcome.id_record]) fun host hplace => hhost host ?_
  cases o with
  | started k => exact congrArg _ (Option.some.inj hplace)
  | failed code => cases hplace

variable [Quantity α] {c : Settings α} {g : Scene α}

/-- A machine that could not be brought up is recorded as failed. -/
theorem Recorded.leads_failure (h : Recorded s₀ t₀ l g.store t) {vm : Vm α}
    (hnew : vm.id ∉ l.map fun x => x.1.id) (code : VmErrorCode) :
    (recordFailure t vm code).Leads c g fun g' t' => ∃ s, g' = { g with store := s } ∧
      Recorded s₀ t₀ (l ++ [(vm, .failed code)]) s t' := by
  obtain ⟨-, henters⟩ := h.enter (o := .failed code) hnew (by simp)
  refine Program.leads_bind.2 (Program.leads_store.2 (Program.leads_bind.2 (Program.leads_event.2
    (Program.leads_pure.2 ⟨_, rfl, henters, ?_, ?_⟩))))
  · simp [Tally.fail, h.placed, Outcome.placed?]
  · simp [Tally.fail, h.failed, Outcome.failed?]

/-- A machine that a known host has started is recorded there. -/
theorem Recorded.leads_start (h : Recorded s₀ t₀ l g.store t) {vm : Vm α}
    (hnew : vm.id ∉ l.map fun x => x.1.id) {host : HostId}
    (hhost : (s₀.hosts.get? host).isSome = true) :
    (recordStart t host vm).Leads c g fun g' t' => ∃ s, g' = { g with store := s } ∧
      Recorded s₀ t₀ (l ++ [(vm, .started host)]) s t' := by
  obtain ⟨hadded, henters⟩ := h.enter (o := .started host) hnew fun k hk => by
    rwa [← Outcome.started.inj hk]
  refine Program.leads_bind.2 (Program.leads_store.2 ?_)
  have hanswer : ((StoreRequest.addVm { vm with hostId := some host, status := .running }).apply
      g.store).1 = .ok true := congrArg Except.ok hadded
  rw [hanswer]
  refine Program.leads_bind.2 (Program.leads_event.2 (Program.leads_pure.2
    ⟨_, rfl, henters, ?_, ?_⟩))
  · simp [Tally.place, h.placed, Outcome.placed?]
  · simp [Tally.place, h.failed, Outcome.failed?]

/-- The machines of a share are recorded, on their host or as failed. -/
theorem Recorded.leads_share (h : Recorded s₀ t₀ l g.store t) {host : HostId}
    (hhost : (s₀.hosts.get? host).isSome = true) (started : List VmId) {vms : List (Vm α)}
    (hnew : ((l.map fun x => x.1.id) ++ vms.map Vm.id).Nodup) :
    (recordShare host started t vms).Leads c g fun g' t' => ∃ s new,
      g' = { g with store := s } ∧ new.map Prod.fst = vms ∧
        (∀ x ∈ new, x.2 = .started host ∨ x.2 = .failed .startFailed) ∧
          Recorded s₀ t₀ (l ++ new) s t' := by
  induction vms generalizing g t l with
  | nil => exact Program.leads_pure.2 ⟨g.store, [], rfl, rfl, by simp, by rwa [List.append_nil]⟩
  | cons vm rest ih =>
    have hvm : vm.id ∉ l.map fun x => x.1.id := fun hmem =>
      (List.nodup_append.1 hnew).2.2 vm.id hmem vm.id List.mem_cons_self rfl
    have hone : (if started.contains vm.id then recordStart t host vm
        else recordFailure t vm .startFailed).Leads c g fun g' t' => ∃ s o,
          g' = { g with store := s } ∧ (o = .started host ∨ o = .failed .startFailed) ∧
            Recorded s₀ t₀ (l ++ [(vm, o)]) s t' := by
      split
      · refine (h.leads_start hvm hhost).mono ?_
        rintro g' t' ⟨s, rfl, h'⟩
        exact ⟨s, _, rfl, .inl rfl, h'⟩
      · refine (h.leads_failure hvm .startFailed).mono ?_
        rintro g' t' ⟨s, rfl, h'⟩
        exact ⟨s, _, rfl, .inr rfl, h'⟩
    rw [Contract.recordShare_cons, Program.leads_bind]
    refine hone.mono ?_
    rintro g' t' ⟨s, o, rfl, ho, h'⟩
    refine (ih (g := { g with store := s }) h' (by simpa using hnew)).mono ?_
    rintro g'' t'' ⟨s', new, rfl, rfl, hall, h''⟩
    refine ⟨s', (vm, o) :: new, rfl, rfl, ?_, by rwa [List.append_assoc] at h''⟩
    exact List.forall_mem_cons.2 ⟨ho, hall⟩

/-- A host is asked to start its share. -/
def startCall (share : HostId × List (Vm α)) : HostCall := .start share.1 (share.2.map Vm.id)

/-- Every host is asked once to start its share, and the machines of all shares are recorded. -/
theorem Recorded.leads_shares (h : Recorded s₀ t₀ l g.store t)
    {shares : List (HostId × List (Vm α))}
    (hhosts : ∀ share ∈ shares, (s₀.hosts.get? share.1).isSome = true)
    (hnew : ((l.map fun x => x.1.id) ++ (shares.flatMap Prod.snd).map Vm.id).Nodup) :
    (startShares t shares).Leads c g fun g' t' => ∃ s new,
      g' = { g with store := s, calls := g.calls ++ shares.map startCall } ∧
        new.map Prod.fst = shares.flatMap Prod.snd ∧
        (∀ x ∈ new, x.2 = .failed .startFailed ∨
          ∃ share ∈ shares, x.1 ∈ share.2 ∧ x.2 = .started share.1) ∧
          Recorded s₀ t₀ (l ++ new) s t' := by
  induction shares generalizing g t l with
  | nil => exact Program.leads_pure.2 ⟨g.store, [], by simp, rfl, by simp, by rwa [List.append_nil]⟩
  | cons share rest ih =>
    obtain ⟨host, vms⟩ := share
    rw [List.flatMap_cons, List.map_append, ← List.append_assoc] at hnew
    have hshare : ∀ ids, (recordShare host ids t vms >>= fun t => startShares t rest).Leads c
        { g with calls := g.calls ++ [startCall (host, vms)] } fun g' t' => ∃ s new,
          g' = { g with store := s, calls := g.calls ++ ((host, vms) :: rest).map startCall } ∧
            new.map Prod.fst = ((host, vms) :: rest).flatMap Prod.snd ∧
            (∀ x ∈ new, x.2 = .failed .startFailed ∨
              ∃ share ∈ (host, vms) :: rest, x.1 ∈ share.2 ∧ x.2 = .started share.1) ∧
              Recorded s₀ t₀ (l ++ new) s t' := by
      intro ids
      have hknown := hhosts (host, vms) List.mem_cons_self
      have hfirst := Recorded.leads_share (c := c)
        (g := { g with calls := g.calls ++ [startCall (host, vms)] }) h hknown ids
        (List.nodup_append.1 hnew).1
      refine Program.leads_bind.2 (hfirst.mono ?_)
      rintro g' t' ⟨s, new, rfl, rfl, hall, h'⟩
      have hrest := ih
        (g := { g with store := s, calls := g.calls ++ [startCall (host, new.map Prod.fst)] }) h'
        (fun share hshare => hhosts share (List.mem_cons_of_mem _ hshare))
        (by simpa [Function.comp_def] using hnew)
      refine hrest.mono ?_
      rintro g'' t'' ⟨s', more, rfl, hmore, hsome, h''⟩
      refine ⟨s', new ++ more, by simp, by simp [hmore], fun x hx => ?_, ?_⟩
      · obtain hx | hx := List.mem_append.1 hx
        · exact (hall x hx).symm.imp id fun hstarted =>
            ⟨_, List.mem_cons_self, List.mem_map_of_mem hx, hstarted⟩
        · refine (hsome x hx).imp id ?_
          rintro ⟨share, hshare, hin⟩
          exact ⟨share, List.mem_cons_of_mem _ hshare, hin⟩
      · rwa [List.append_assoc] at h''
    rw [startShares]
    refine Program.leads_bind.2 (Program.leads_host.2 ?_)
    rintro (e | ids)
    · exact Program.leads_bind.2 (Program.leads_pure.2 (hshare []))
    · exact Program.leads_bind.2 (Program.leads_pure.2 (hshare ids))

/-- The machines that fitted nowhere are recorded as failed. -/
theorem Recorded.leads_unassigned (h : Recorded s₀ t₀ l g.store t) {vms : List (Vm α)}
    (hnew : ((l.map fun x => x.1.id) ++ vms.map Vm.id).Nodup) :
    (recordUnassigned t vms).Leads c g fun g' t' => ∃ s, g' = { g with store := s } ∧
      Recorded s₀ t₀ (l ++ vms.map fun vm => (vm, .failed .notEnoughResources)) s t' := by
  induction vms generalizing g t l with
  | nil => exact Program.leads_pure.2 ⟨g.store, rfl, by rwa [List.map_nil, List.append_nil]⟩
  | cons vm rest ih =>
    have hvm : vm.id ∉ l.map fun x => x.1.id := fun hmem =>
      (List.nodup_append.1 hnew).2.2 vm.id hmem vm.id List.mem_cons_self rfl
    refine Program.leads_bind.2 ((h.leads_failure hvm .notEnoughResources).mono ?_)
    rintro g' t' ⟨s, rfl, h'⟩
    refine (ih (g := { g with store := s }) h' (by simpa using hnew)).mono ?_
    rintro g'' t'' ⟨s', rfl, h''⟩
    exact ⟨s', rfl, by rwa [List.append_assoc] at h''⟩

end ClusterControl.Submission
