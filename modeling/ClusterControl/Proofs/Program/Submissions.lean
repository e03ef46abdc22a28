import ClusterControl.Proofs.Planning.Batch
import ClusterControl.Proofs.Program.Requests

/-!
# Submissions under a contract

A submission sifts its batch, plans places for what is left of it, has the machines started and
records what became of each.  The sifting ensures what `Contract.Serves` asks for before a batch is
placed: ids that are different and on no host.
-/

namespace ClusterControl

variable {α : Type}

namespace Contract

/-- A machine is refused or chosen once it is known whether its id is taken. -/
theorem sift_cons (seen : List VmId) (t : Submission.Tally) (vm : Vm α) (rest : List (Vm α)) :
    Submission.sift seen t (vm :: rest) =
      (if seen.contains vm.id then pure true else Submission.isPlaced vm.id) >>= fun known =>
        if known then do
          Program.event (.vmUnplaced vm.id .duplicateId)
          Submission.sift (vm.id :: seen) (t.fail vm.id .duplicateId) rest
        else do
          let (chosen, t) ← Submission.sift (vm.id :: seen) t rest
          return (Submission.fresh vm :: chosen, t) := by
  rw [Submission.sift]
  dsimp only
  split <;> rfl

/-- The first machine of a share is recorded as started or as failed, then the rest. -/
theorem recordShare_cons (host : HostId) (started : List VmId) (t : Submission.Tally) (vm : Vm α)
    (rest : List (Vm α)) : Submission.recordShare host started t (vm :: rest) =
      (if started.contains vm.id then Submission.recordStart t host vm
        else Submission.recordFailure t vm .startFailed) >>= fun t =>
          Submission.recordShare host started t rest := by
  rw [Submission.recordShare]
  dsimp only
  split <;> rfl

variable [Quantity α] {C : Contract α} {c : Settings α} {j : Job α} {g : Standing α}

/-! ## Submissions -/

theorem meets_isPlaced {a : Activity} {p : ResolutionPhase} {last : Store α} (v : VmId) :
    C.Meets c j (Submission.isPlaced v) (.inside a p last) fun g known =>
      ∃ s, g = .inside a p s ∧ C.rely last s ∧ (known = false → C.Unplaced v s) := by
  refine meets_bind.2 (asks_read (fun _ => rfl) ?_ fun hlax e => ?_)
  · intro s hs hrely
    simp only [StoreRequest.apply]
    cases hv : s.vm? v with
    | none => exact ⟨s, rfl, hrely, fun _ => .inr ⟨s, hs, C.refl s, by simp [hv]⟩⟩
    | some found =>
      refine ⟨s, rfl, hrely, fun hnone => .inr ⟨s, hs, C.refl s, ?_⟩⟩
      rintro w hw
      rw [hv] at hw
      rw [← Option.some.inj hw, ← Option.isSome_eq_false_iff.trans Option.isNone_iff_eq_none]
      exact hnone
  · exact ⟨last, rfl, C.refl last, fun _ => .inl hlax⟩

/-- Sifting chooses machines of the batch with different ids, each on no host. -/
theorem meets_sift {a : Activity} {p : ResolutionPhase} (seen : List VmId) (t : Submission.Tally)
    (vms : List (Vm α)) (last : Store α) :
    C.Meets c j (Submission.sift seen t vms) (.inside a p last) fun g r =>
      ∃ s, g = .inside a p s ∧ C.rely last s ∧ (∀ vm ∈ r.1, vm ∈ vms.map Submission.fresh) ∧
        (r.1.map Vm.id).Nodup ∧ (∀ vm ∈ r.1, vm.id ∉ seen ∧ C.Unplaced vm.id s) := by
  induction vms generalizing seen t last with
  | nil => exact ⟨last, rfl, C.refl last, by simp, by simp, by simp⟩
  | cons vm rest ih =>
    have hknown : C.Meets c j (if seen.contains vm.id then pure true else Submission.isPlaced vm.id)
        (.inside a p last) fun g known => ∃ s, g = .inside a p s ∧ C.rely last s ∧
          (known = false → vm.id ∉ seen ∧ C.Unplaced vm.id s) := by
      split
      · exact ⟨last, rfl, C.refl last, by simp⟩
      · rename_i hseen
        refine (meets_isPlaced vm.id).mono ?_
        rintro g known ⟨s, rfl, hrely, hfree⟩
        exact ⟨s, rfl, hrely, fun hk => ⟨by simpa using hseen, hfree hk⟩⟩
    rw [sift_cons]
    refine meets_bind.2 (hknown.mono ?_)
    rintro g known ⟨s, rfl, hrely, hfree⟩
    cases known with
    | true =>
      refine meets_bind.2 (meets_event.2 ((ih _ _ s).mono ?_))
      rintro g r ⟨u, rfl, hsu, hfrom, hnodup, hnew⟩
      refine ⟨u, rfl, C.trans hrely hsu, fun w hw => ?_, hnodup, fun w hw => ?_⟩
      · exact List.mem_cons_of_mem _ (hfrom w hw)
      · exact ⟨fun h => (hnew w hw).1 (List.mem_cons_of_mem _ h), (hnew w hw).2⟩
    | false =>
      obtain ⟨hseen, hplace⟩ := hfree rfl
      refine meets_bind.2 ((ih (vm.id :: seen) t s).mono ?_)
      rintro g ⟨chosen, tally⟩ ⟨u, rfl, hsu, hfrom, hnodup, hnew⟩
      refine ⟨u, rfl, C.trans hrely hsu, ?_, ?_, ?_⟩
      · exact List.forall_mem_cons.2
          ⟨List.mem_cons_self, fun w hw => List.mem_cons_of_mem _ (hfrom w hw)⟩
      · refine List.nodup_cons.2 ⟨fun hmem => ?_, hnodup⟩
        obtain ⟨w, hw, hid⟩ := List.mem_map.1 hmem
        exact (hnew w hw).1 (by rw [hid]; exact List.mem_cons_self)
      · refine List.forall_mem_cons.2 ⟨⟨hseen, hplace.rely hsu⟩, fun w hw => ?_⟩
        exact ⟨fun h => (hnew w hw).1 (List.mem_cons_of_mem _ h), (hnew w hw).2⟩

section

variable {a : Activity} {p : ResolutionPhase} {W : StoreRequest α → Prop}

theorem Holds.meets_recordFailure
    (hfail : ∀ (vm : Vm α) code, W (.addVm ((Vm.new vm.id vm.requested 0).failed code)))
    (h : C.Holds a p W g) (t : Submission.Tally) (vm : Vm α) (code : VmErrorCode) :
    C.Meets c j (Submission.recordFailure t vm code) g fun g' _ => C.Holds a p W g' :=
  meets_bind.2 (h.asks (hfail vm code) fun _ _ h' => h')

theorem Holds.meets_recordShare
    (hfail : ∀ (vm : Vm α) code, W (.addVm ((Vm.new vm.id vm.requested 0).failed code)))
    {host : HostId} {vms : List (Vm α)}
    (hstart : ∀ vm ∈ vms, W (.addVm { vm with hostId := some host, status := .running }))
    (h : C.Holds a p W g) (started : List VmId) (t : Submission.Tally) :
    C.Meets c j (Submission.recordShare host started t vms) g fun g' _ => C.Holds a p W g' := by
  induction vms generalizing g t with
  | nil => exact h
  | cons vm rest ih =>
    have hone : C.Meets c j (if started.contains vm.id then Submission.recordStart t host vm
        else Submission.recordFailure t vm .startFailed) g fun g' _ => C.Holds a p W g' := by
      split
      · refine meets_bind.2 (h.asks (hstart vm List.mem_cons_self) ?_)
        rintro g' (e | _ | _) h'
        · exact h'.meets_recordFailure hfail t vm _
        · exact h'.meets_recordFailure hfail t vm _
        · exact h'
      · exact h.meets_recordFailure hfail t vm _
    rw [recordShare_cons]
    refine meets_bind.2 (hone.mono fun g' t' h' => ?_)
    exact ih (fun w hw => hstart w (List.mem_cons_of_mem _ hw)) h' t'

theorem Holds.meets_startShares
    (hfail : ∀ (vm : Vm α) code, W (.addVm ((Vm.new vm.id vm.requested 0).failed code)))
    {shares : List (HostId × List (Vm α))}
    (hstart : ∀ share ∈ shares, ∀ vm ∈ share.2,
      W (.addVm { vm with hostId := some share.1, status := .running }))
    (h : C.Holds a p W g) (t : Submission.Tally) :
    C.Meets c j (Submission.startShares t shares) g fun g' _ => C.Holds a p W g' := by
  induction shares generalizing g t with
  | nil => exact h
  | cons share rest ih =>
    obtain ⟨host, vms⟩ := share
    have hrest : ∀ share ∈ rest, ∀ vm ∈ share.2,
        W (.addVm { vm with hostId := some share.1, status := .running }) :=
      fun share hshare => hstart share (List.mem_cons_of_mem _ hshare)
    have hshare := hstart (host, vms) List.mem_cons_self
    refine meets_bind.2 ?_
    rintro (e | ids)
    · refine meets_bind.2 (meets_pure.2 (meets_bind.2 ?_))
      exact (h.meets_recordShare hfail hshare [] t).mono fun g' t' h' => ih hrest h' t'
    · refine meets_bind.2 (meets_pure.2 (meets_bind.2 ?_))
      exact (h.meets_recordShare hfail hshare ids t).mono fun g' t' h' => ih hrest h' t'

theorem Holds.meets_recordUnassigned
    (hfail : ∀ (vm : Vm α) code, W (.addVm ((Vm.new vm.id vm.requested 0).failed code)))
    (h : C.Holds a p W g) (t : Submission.Tally) (vms : List (Vm α)) :
    C.Meets c j (Submission.recordUnassigned t vms) g fun g' _ => C.Holds a p W g' := by
  induction vms generalizing g t with
  | nil => exact h
  | cons vm rest ih =>
    exact meets_bind.2 ((h.meets_recordFailure hfail t vm _).mono fun g' t' h' => ih h' t')

end

/-- A submission that holds the gate places its batch. -/
theorem Serves.meets_submission_run (hC : C.Serves c) (task : TaskId) {vms : List (Vm α)}
    (hvms : C.accepts vms) (s₀ : Store α) :
    C.Meets c j (Submission.run c.estimator.window task vms) (.inside .submitting .idle s₀)
      fun g _ => Inside .submitting g := by
  refine meets_bind.2 ((meets_sift [] .empty vms s₀).mono ?_)
  rintro g ⟨chosen, t⟩ ⟨s, rfl, -, hfrom, hnodup, hnew⟩
  have hcandidates : C.Meets c j (Submission.candidates c.estimator.window)
      (.inside .submitting .idle s) fun g hosts => ∃ u, g = .inside .submitting .idle u ∧
        (C.lax ∨ C.good u ∧ C.rely s u ∧ hosts = u.hostList c.estimator.window true false) := by
    refine meets_bind.2 (asks_read (fun _ => rfl) ?_ fun hlax e => ⟨s, rfl, .inl hlax⟩)
    exact fun u hu hsu => ⟨u, rfl, .inr ⟨hu, hsu, rfl⟩⟩
  refine meets_bind.2 (hcandidates.mono ?_)
  rintro g hosts ⟨u, rfl, hhosts⟩
  refine meets_bind.2 (meets_ask.2 fun plan hplan => ?_)
  have hholds : ∃ W : StoreRequest α → Prop, C.Holds .submitting .idle W
      (.inside .submitting .idle u) ∧
      (∀ (vm : Vm α) code, W (.addVm ((Vm.new vm.id vm.requested 0).failed code))) ∧
      ∀ a ∈ plan.assignments,
        W (.addVm { a.vm with hostId := some a.host, status := .running }) := by
    by_cases hlax : C.lax
    · exact ⟨fun _ => True, ⟨u, rfl, supports_of_lax hlax u _⟩, fun _ _ => trivial,
        fun _ _ => trivial⟩
    · obtain ⟨hu, hsu, rfl⟩ := hhosts.resolve_left hlax
      obtain ⟨cursor, rfl⟩ := hplan.resolve_left hlax
      have hplaced := hC.place cursor hu hvms hfrom hnodup
        fun vm hvm => (hnew vm hvm).2.rely hsu
      exact ⟨_, ⟨u, rfl, hplaced⟩, .failure, fun a ha => .start ha⟩
  obtain ⟨W, hW, hfail, hstart⟩ := hholds
  have hshares : ∀ share ∈ plan.byHost.entries, ∀ vm ∈ share.2,
      W (.addVm { vm with hostId := some share.1, status := .running }) :=
    fun share hshare vm hvm => hstart ⟨vm, share.1⟩ (PlacementPlan.mem_of_byHost hshare hvm)
  refine meets_bind.2 ((hW.meets_startShares hfail hshares t).mono fun g₁ t₁ h₁ => ?_)
  refine meets_bind.2 ((h₁.meets_recordUnassigned hfail t₁ _).mono fun g₂ t₂ h₂ => ?_)
  exact h₂.inside

/-- A submission that holds the gate gives it back in the end. -/
theorem Serves.meets_submission (hC : C.Serves c) (hgated : C.gated) (task : TaskId)
    {vms : List (Vm α)} (hvms : C.accepts vms) (s₀ : Store α) :
    C.Meets c j (Submission.finish c.estimator.window task vms) (.inside .submitting .idle s₀)
      fun g _ => g = .outside := by
  refine meets_bind.2 ((hC.meets_submission_run task hvms s₀).mono ?_)
  rintro g r ⟨s, rfl⟩
  exact ⟨hgated, rfl, rfl, rfl⟩

end Contract

end ClusterControl
