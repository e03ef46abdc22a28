import ClusterControl.Proofs.Program.Requests
import ClusterControl.Proofs.SortedMap

/-!
# Workflows under a contract

Every job keeps a contract once the contract supports what the workflows do.  Outside the gate that
is so request by request.  Behind the gate a workflow reads the store, plans by what it has read,
and commits the plan while others may go on outside; `Contract.Serves.body_migrate` and its like
say that it ends inside, and `Contract.Serves.free_program` that a job starts and ends outside.
-/

namespace ClusterControl

variable {α ρ : Type}

namespace Contract

variable [Quantity α] {C : Contract α} {c : Settings α} {j : Job α} {g : Standing α}

/-! ## Outside the gate -/

/-- The program never touches the gate, and keeps the contract outside it. -/
def Free (C : Contract α) (c : Settings α) (j : Job α) (p : Program α ρ) : Prop :=
  C.Meets c j p .outside fun g _ => g = .outside

theorem Serves.free_store (hC : C.Serves c) {q : StoreRequest α} (hq : Casual j q) :
    C.Free c j (Program.store q) :=
  meets_store.2 (hC.asks hq fun _ => rfl)

theorem Free.bind {σ : Type} {p : Program α ρ} {f : ρ → Program α σ} (hp : C.Free c j p)
    (hf : ∀ r, C.Free c j (f r)) : C.Free c j (p >>= f) := by
  refine meets_bind.2 (hp.mono ?_)
  rintro g r rfl
  exact hf r

theorem free_pure (r : ρ) : C.Free c j (pure r) := rfl

theorem Serves.free_forward (hC : C.Serves c) (vm : VmId) (action : VmAction) :
    C.Free c j (Control.forward vm action).run := by
  have hfollow : C.Tries c j (Control.follow vm action) .outside (fun g _ => g = .outside)
      fun g _ => g = .outside := by
    cases action with
    | migrate d => exact tries_pure.2 rfl
    | suspend =>
      refine tries_storeOrFail.2 (hC.asks (.setVmStatus ..) ?_)
      rintro (e | r) <;> rfl
    | resume | reboot =>
      refine tries_storeOrFail.2 (hC.asks (.setVmStatus ..) ?_)
      rintro (e | r) <;> rfl
    | shutdown | destroy =>
      refine tries_bind.2 (tries_storeOrFail.2 (hC.asks (.removeVm ..) ?_))
      rintro (e | r) <;> rfl
  have hlocate : C.Tries c j (Control.locate vm) .outside (fun g _ => g = .outside)
      fun g _ => g = .outside := by
    refine tries_bind.2 (tries_storeOrFail.2 (hC.asks (.findVm vm) ?_))
    rintro (e | _ | found)
    · rfl
    · rfl
    · cases hhost : found.hostId with
      | none => simp [hhost]
      | some host => simp [hhost]
  have hrun : C.Tries c j (Control.forward vm action) .outside (fun g _ => g = .outside)
      fun g _ => g = .outside := by
    refine tries_bind.2 (hlocate.mono ?_ fun _ _ h => h)
    rintro g ⟨found, host⟩ rfl
    refine tries_bind.2 (tries_hostOrFail.2 ?_)
    rintro (e | r)
    · rfl
    · exact hfollow
  refine Meets.mono hrun ?_
  rintro g (e | r) h <;> exact h

theorem Serves.free_wakeOne (hC : C.Serves c) (hj : j.WakesFreely) (host : HostId) :
    C.Free c j (Power.wakeOne host) := by
  refine (hC.free_store (.claim host)).bind ?_
  rintro (e | _ | _)
  · exact free_pure _
  · exact free_pure _
  · refine meets_bind.2 (meets_host.2 ?_)
    rintro (e | r)
    · refine (hC.free_store (.giveUp hj host)).bind ?_
      rintro (e | r)
      · exact free_pure _
      · exact rfl
    · exact rfl

theorem Serves.free_wakeAll (hC : C.Serves c) (hj : j.WakesFreely) (hosts : List HostId) :
    C.Free c j (Power.wakeAll hosts) := by
  induction hosts with
  | nil => exact free_pure _
  | cons host rest ih =>
    refine (hC.free_wakeOne hj host).bind fun awake => ih.bind fun failed => ?_
    exact free_pure _

theorem Serves.free_wake (hC : C.Serves c) (hj : j.WakesFreely) (hosts : List HostId) :
    C.Free c j (Power.wake hosts) := by
  refine (hC.free_wakeAll hj hosts).bind ?_
  rintro (_ | _) <;> exact free_pure _

theorem Serves.free_keep (hC : C.Serves c) (o : Observation α) :
    C.Free c j (Monitoring.keep o) := by
  cases o with
  | host host sample =>
    refine (hC.free_store (.addHostSample host sample)).bind ?_
    rintro (e | r)
    · exact free_pure _
    · refine Free.bind (p := Power.markActive host) (hC.free_store (.activate host)) ?_
      rintro (e | r) <;> exact free_pure _
  | vm vm sample => exact hC.free_store (.addVmSample vm sample)

theorem Serves.free_handle (hC : C.Serves c) (o : Observation α) :
    C.Free c j (Monitoring.handle o) := by
  refine (hC.free_keep o).bind ?_
  rintro (e | r)
  · exact free_pure _
  · exact rfl

theorem Serves.free_handleAll (hC : C.Serves c) (l : List (Observation α)) :
    C.Free c j (Monitoring.handleAll l) := by
  induction l with
  | nil => exact free_pure _
  | cons o rest ih =>
    exact (hC.free_handle o).bind fun _ => ih.bind fun _ => free_pure _

/-- A resolution on trial wakes hosts, but holds no gate. -/
theorem Serves.tries_relieve_trial (hC : C.Serves c) (hj : j.WakesFreely) (host : HostId)
    (state : LoadState) : C.Tries c j (Resolution.relieve c .trial host state) .outside
      (fun g _ => g = .outside) fun g _ => g = .outside := by
  unfold Resolution.relieve
  split
  · exact tries_throw.2 rfl
  refine tries_bind.2 (tries_storeOrAbandon.2 (hC.asks (.findHost host _) ?_))
  rintro (e | _ | source)
  · rfl
  · exact rfl
  refine tries_bind.2 (tries_lift.2 ?_)
  refine tries_bind.2 (tries_storeOrAbandon.2 (hC.asks (.listHosts ..) ?_))
  rintro (e | listed)
  · rfl
  rw [ends_ok]
  dsimp only
  split
  · exact tries_bind.2 (tries_throw.2 rfl)
  split
  · exact tries_bind.2 (tries_throw.2 rfl)
  have hwake : ∀ hosts, C.Tries c j (Resolution.wakeOrAbandon hosts) .outside
      (fun g _ => g = .outside) fun g _ => g = .outside := by
    intro hosts
    unfold Resolution.wakeOrAbandon
    split
    · exact tries_pure.2 rfl
    refine tries_mk.2 (meets_bind.2 ((hC.free_wake hj hosts).mono ?_))
    rintro g (failed | r) rfl <;> exact rfl
  refine tries_bind.2 ((hwake _).mono ?_ fun _ _ h => h)
  rintro g r rfl
  exact tries_bind.2 (tries_lift.2 (tries_bind.2 (tries_lift.2 fun report _ => rfl)))

theorem Serves.free_tryResolving (hC : C.Serves c) (hj : j.WakesFreely) (host : HostId)
    (state : LoadState) : C.Free c j (Job.tryResolving c host state) := by
  have hresolve : C.Free c j (Resolution.resolve c .trial host state) := by
    refine meets_bind.2 (meets_ask.2 (meets_bind.2 ?_))
    refine Meets.mono (hC.tries_relieve_trial hj host state) ?_
    rintro g (e | r) h <;> exact h
  refine hresolve.bind fun r => ?_
  exact fun phase => rfl

/-! ## Behind the gate -/

/-- A workflow behind the gate is refused, or runs and gives the gate back. -/
theorem Body.gated {a : Activity} {x : ExceptT WorkflowError (Program α) ρ} (hx : C.Body c j a x)
    (hgated : C.gated) : C.Free c j (Program.gated a x) := by
  refine meets_bind.2 (meets_ask.2 ⟨hgated, rfl, fun s hs => ?_⟩)
  refine meets_bind.2 (Meets.mono (hx s hs) ?_)
  rintro g (e | r) h
  · obtain ⟨⟨s', rfl⟩, -⟩ := h
    exact ⟨hgated, rfl, rfl, rfl⟩
  · obtain ⟨s', rfl⟩ := h
    exact ⟨hgated, rfl, rfl, rfl⟩

/-- Committing the outcomes of a report makes the requests that commit its migrations. -/
theorem Holds.meets_report {a : Activity} {p : ResolutionPhase} {W : StoreRequest α → Prop}
    {r : EnforcementReport} (h : C.Holds a p W g)
    (hmove : ∀ x ∈ r.results, W (.moveVm x.migration.vm x.migration.destination))
    (hmark : ∀ vm status code, W (.setVmStatus vm status code)) :
    C.Meets c j (Commit.report r) g fun g' _ => C.Holds a p W g' := by
  unfold Commit.report
  generalize r.results = results at hmove
  induction results generalizing g with
  | nil => exact h
  | cons x rest ih =>
    refine meets_bind.2 ?_
    have hone : C.Meets c j (Commit.result x) g fun g' _ => C.Holds a p W g' := by
      unfold Commit.result
      simp only [meets_bind, meets_count, meets_event]
      split
      · refine meets_bind.2 (h.asks (hmove x (by simp)) ?_)
        rintro g' (e | r) h'
        · exact h'
        · exact meets_bind.2 (h'.asks (hmark ..) fun g'' _ h'' => h'')
      · exact meets_bind.2 (h.asks (hmark ..) fun g' _ h' => h')
    exact hone.mono fun g' _ h' => ih h' fun y hy => hmove y (by simp [hy])

/-- A plan that is supported may be carried out and committed. -/
theorem meets_enforce_report {a : Activity} {p : ResolutionPhase} {s : Store α}
    {moves : List Migration} {r : EnforcementReport} (h : C.Supports s (Commits moves))
    (hr : C.lax ∨ ∀ x ∈ r.results, x.migration ∈ moves) :
    C.Meets c j (Commit.report r) (.inside a p s) fun g _ => ∃ s, g = .inside a p s := by
  rcases hr with hlax | hr
  · have hall : C.Holds a p (fun _ => True) (.inside a p s) := ⟨s, rfl, supports_of_lax hlax s _⟩
    refine (hall.meets_report (fun _ _ => trivial) fun _ _ _ => trivial).mono ?_
    rintro g - ⟨s', hg, -⟩
    exact ⟨s', hg⟩
  · have hholds : C.Holds a p (Commits moves) (.inside a p s) := ⟨s, rfl, h⟩
    refine (hholds.meets_report (fun x hx => .move (hr x hx)) .mark).mono ?_
    rintro g - ⟨s', hg, -⟩
    exact ⟨s', hg⟩

/-- The plan of one move lists that move, or nothing when it leads nowhere. -/
theorem mem_moves_add_empty {vm : VmId} {source : HostId} {d : HostId} {m : Migration}
    (hm : m ∈ (MigrationPlan.empty.add vm (some source) d).moves) : m = ⟨vm, some source, d⟩ := by
  obtain ⟨k, hk⟩ := SortedMap.mem_values_iff.1 hm
  have hstart : (MigrationPlan.empty.migrations.get? vm : Option Migration) = none := rfl
  simp only [MigrationPlan.add, hstart] at hk
  split at hk
  · rw [SortedMap.get?_erase] at hk
    split at hk <;> exact absurd hk (by simp [MigrationPlan.empty])
  · rw [SortedMap.get?_insert] at hk
    split at hk
    · exact (Option.some.inj hk).symm
    · exact absurd hk (by simp [MigrationPlan.empty])

/-- Moving a single machine. -/
theorem Serves.body_migrate (hC : C.Serves c) (vm : VmId) (d : HostId) :
    C.Body c j .migrating (Control.migrate vm d) := by
  intro s₀ _
  have hlocate : C.Tries c j (Control.locate vm) (.inside .migrating .idle s₀)
      (fun g x => ∃ s, g = .inside .migrating .idle s ∧ C.good s ∧ s.vm? vm = some x.1 ∧
        x.1.hostId = some x.2) fun g e => Inside .migrating g ∧ e ≠ .busy := by
    refine tries_bind.2 (tries_read (fun _ => rfl) ?_ fun _ => ⟨⟨_, rfl⟩, by simp⟩)
    intro s hs _
    simp only [StoreRequest.apply, ends_ok]
    cases hvm : s.vm? vm with
    | none => exact ⟨⟨_, rfl⟩, by simp⟩
    | some found =>
      cases hhost : found.hostId with
      | none =>
        simp only [hhost]
        exact tries_throw.2 ⟨⟨s, rfl⟩, by simp⟩
      | some host =>
        simp only [hhost]
        exact tries_pure.2 ⟨s, rfl, hs, hvm, hhost⟩
  refine tries_bind.2 (hlocate.mono ?_ fun _ _ h => h)
  rintro g ⟨found, source⟩ ⟨s, rfl, hs, hvm, hhost⟩
  refine tries_bind.2 (tries_read (fun _ => rfl) ?_ fun _ => ⟨⟨_, rfl⟩, by simp⟩)
  intro t ht hst
  simp only [StoreRequest.apply, ends_ok]
  cases htarget : t.host? d 0 with
  | none => exact ⟨⟨_, rfl⟩, by simp⟩
  | some target =>
    dsimp only
    split
    · exact tries_bind.2 (tries_throw.2 ⟨⟨t, rfl⟩, by simp⟩)
    · rename_i haccept
      rw [Bool.not_eq_true', Bool.not_eq_false] at haccept
      have hplan := hC.migrate hs hvm hhost ht hst htarget haccept
      refine tries_bind.2 (tries_lift.2 fun r hr => tries_bind.2 (tries_lift.2 ?_))
      refine (meets_enforce_report hplan ?_).mono ?_
      · refine hr.imp id fun hr x hx => ?_
        rw [mem_moves_add_empty (hr x hx)]
        exact List.mem_singleton.2 rfl
      · rintro g - ⟨u, rfl⟩
        split
        · exact tries_throw.2 ⟨⟨u, rfl⟩, by simp⟩
        · exact tries_pure.2 ⟨u, rfl⟩

/-- Waking hosts behind the gate, when taking a claim on a host or giving it up is something that
tasks put up with. -/
theorem meets_wakeAll_of_rely {a : Activity} {p : ResolutionPhase} (last : Store α)
    (hosts : List HostId)
    (hrely : ∀ {s host expected next}, C.good s →
      C.good ((StoreRequest.transition host expected next).apply s).2 ∧
        C.rely s ((StoreRequest.transition host expected next).apply s).2) :
    C.Meets c j (Power.wakeAll hosts) (.inside a p last) fun g _ =>
      ∃ s, g = .inside a p s ∧ C.rely last s := by
  have hasks : ∀ {last host expected next}
      {R : Standing α → Except StoreError Bool → Prop},
      (∀ s r, C.rely last s → R (.inside a p s) r) →
      C.Asks c j (.inside a p last) (.store (.transition host expected next)) R := by
    intro last host expected next R hR
    refine ⟨fun s hs hls => ?_, fun _ e => hR last _ (C.refl last)⟩
    exact ⟨(hrely hs).1, hR _ _ (C.trans hls (hrely hs).2)⟩
  have hone : ∀ last host, C.Meets c j (Power.wakeOne host) (.inside a p last) fun g _ =>
      ∃ s, g = .inside a p s ∧ C.rely last s := by
    intro last host
    refine meets_bind.2 (hasks ?_)
    rintro s (e | _ | _) hs
    · exact ⟨s, rfl, hs⟩
    · exact ⟨s, rfl, hs⟩
    refine meets_bind.2 (meets_host.2 ?_)
    rintro (e | r)
    · refine meets_bind.2 (hasks ?_)
      rintro t (e | r) ht <;> exact ⟨t, rfl, C.trans hs ht⟩
    · exact ⟨s, rfl, hs⟩
  induction hosts generalizing last with
  | nil => exact ⟨last, rfl, C.refl last⟩
  | cons host rest ih =>
    refine meets_bind.2 ((hone last host).mono ?_)
    rintro g awake ⟨s, rfl, hs⟩
    refine meets_bind.2 ((ih s).mono ?_)
    rintro g failed ⟨t, rfl, ht⟩
    exact ⟨t, rfl, C.trans hs ht⟩

/-- Waking the destinations of a plan behind the gate. -/
theorem Serves.tries_wakeOrAbandon (hC : C.Serves c) {a : Activity} {p : ResolutionPhase}
    {s : Store α} (hosts : List HostId) :
    C.Tries c j (Resolution.wakeOrAbandon hosts) (.inside a p s)
      (fun g _ => ∃ t, g = .inside a p t ∧ C.wakes hosts s t)
      fun g _ => ∃ t, g = .inside a p t := by
  unfold Resolution.wakeOrAbandon
  split
  · rename_i hnil
    rw [List.isEmpty_iff.1 hnil]
    exact tries_pure.2 ⟨s, rfl, C.wakes_nil s⟩
  · refine tries_mk.2 (meets_bind.2 (meets_bind.2 ((hC.wake hosts).mono ?_)))
    rintro g (_ | ⟨failed, rest⟩) ⟨t, rfl, hwoken⟩
    · exact ⟨t, rfl, hwoken rfl⟩
    · exact ⟨t, rfl⟩

/-- Relieving a host behind the gate: in the end the plan of the report is supported, and the report
is about that plan. -/
theorem Serves.tries_relieve (hC : C.Serves c) (host : HostId) (state : LoadState)
    (p₀ : ResolutionPhase) (s₀ : Store α) :
    C.Tries c j (Resolution.relieve c .own host state) (.inside .resolvingAnomaly p₀ s₀)
      (fun g r => ∃ p s moves, g = .inside .resolvingAnomaly p s ∧ C.Supports s (Commits moves) ∧
        (C.lax ∨ ∀ x ∈ r.enforcement.results, x.migration ∈ moves))
      fun g _ => ∃ p s, g = .inside .resolvingAnomaly p s := by
  unfold Resolution.relieve
  split
  · exact tries_throw.2 ⟨_, _, rfl⟩
  rename_i policy _
  refine tries_bind.2 (tries_storeOrAbandon.2 (asks_read (fun _ => rfl) ?_ fun _ _ => ⟨_, _, rfl⟩))
  intro s hs _
  simp only [StoreRequest.apply, ends_ok]
  cases hsource : s.host? host c.estimator.window with
  | none => exact tries_throw.2 ⟨_, _, rfl⟩
  | some source =>
    refine tries_bind.2 (tries_lift.2 ⟨rfl, ?_⟩)
    refine tries_bind.2 (tries_storeOrAbandon.2
      (asks_read (fun _ => rfl) ?_ fun _ _ => ⟨_, _, rfl⟩))
    intro t ht hst
    simp only [StoreRequest.apply, ends_ok]
    generalize hdest : List.filter (fun h : Host α => h.id != source.id) _ = destinations
    generalize hplan : (Relocation.relocate c.ranking policy source destinations).1 = plan
    split
    · exact tries_bind.2 (tries_throw.2 ⟨_, _, rfl⟩)
    split
    · exact tries_bind.2 (tries_throw.2 ⟨_, _, rfl⟩)
    refine tries_bind.2 ((hC.tries_wakeOrAbandon _).mono ?_ ?_)
    · rintro g - ⟨u, rfl, hwoken⟩
      refine tries_bind.2 (tries_lift.2 ⟨rfl, ?_⟩)
      refine tries_bind.2 (tries_lift.2 fun r hr => ?_)
      subst hplan
      exact ⟨_, u, _, rfl, hC.relocate hs hsource ht hst hdest.symm hwoken, hr⟩
    · rintro g - ⟨u, rfl⟩
      exact ⟨_, u, rfl⟩

/-- Resolving an anomaly. -/
theorem Serves.body_resolve (hC : C.Serves c) (host : HostId) (state : LoadState) :
    C.Body c j .resolvingAnomaly (ExceptT.mk do
      match ← Resolution.resolve c .own host state with
      | .ok r =>
        Resolution.conclude r
        return .ok r
      | .error e =>
        Resolution.abandon host state e
        return .error (.resolution e)) := by
  intro s₀ _
  refine tries_mk.2 (meets_bind.2 (meets_bind.2 (meets_ask.2 ⟨rfl, ?_⟩)))
  refine meets_bind.2 (Meets.mono (hC.tries_relieve host state .readyToResolve s₀) ?_)
  rintro g (e | r) h
  · obtain ⟨p, s, rfl⟩ := h
    exact ⟨rfl, ⟨s, rfl⟩, by simp⟩
  · obtain ⟨p, s, moves, rfl, hplan, hr⟩ := h
    refine ⟨rfl, meets_bind.2 ?_⟩
    unfold Resolution.conclude
    refine meets_bind.2 (meets_bind.2 ((meets_enforce_report hplan hr).mono ?_))
    rintro g - ⟨t, rfl⟩
    refine meets_bind.2 (meets_count.2 ?_)
    split
    · exact ⟨rfl, t, rfl⟩
    · exact ⟨rfl, t, rfl⟩

/-- Consolidating the cluster. -/
theorem Serves.body_reconfigure (hC : C.Serves c) :
    C.Body c j .reconfiguring (do
      let hosts ← Program.storeOrFail (.listHosts c.estimator.window true true)
      let plan := Consolidation.consolidate c.ranking hosts
      let r ← (Reconfiguration.enforce plan : Program α _)
      (Reconfiguration.conclude plan r : Program α Unit)
      return (⟨plan, r⟩ : ReconfigurationReport)) := by
  intro s₀ _
  refine tries_bind.2 (tries_read (fun _ => rfl) ?_ fun _ => ⟨⟨_, rfl⟩, by simp⟩)
  intro s hs _
  have hplan := hC.consolidate hs
  simp only [StoreRequest.apply, ends_ok]
  have henforce : ∀ plan : MigrationPlan, C.Meets c j (Reconfiguration.enforce plan)
      (.inside .reconfiguring .idle s) fun g r => g = .inside .reconfiguring .idle s ∧
        (C.lax ∨ ∀ x ∈ r.results, x.migration ∈ plan.moves) := by
    intro plan
    unfold Reconfiguration.enforce
    split
    · exact ⟨rfl, .inr (by simp [EnforcementReport.empty])⟩
    · exact fun r hr => ⟨rfl, hr⟩
  refine tries_bind.2 (tries_lift.2 ((henforce _).mono ?_))
  rintro g r ⟨rfl, hr⟩
  refine tries_bind.2 (tries_lift.2 (meets_bind.2 ((meets_enforce_report hplan hr).mono ?_)))
  rintro g - ⟨t, rfl⟩
  exact ⟨t, rfl⟩

theorem Holds.tries_powerDownAll {a : Activity} (action : PowerAction) {hosts all : List HostId}
    (hsub : ∀ h ∈ hosts, h ∈ all) (h : C.Holds a .idle (PowersDown all) g) :
    C.Tries c j (Power.powerDownAll action hosts) g
      (fun g' _ => C.Holds a .idle (PowersDown all) g')
      fun g' e => C.Holds a .idle (PowersDown all) g' ∧ e ≠ .busy := by
  induction hosts generalizing g with
  | nil => exact h
  | cons host rest ih =>
    have hin : host ∈ all := hsub host (by simp)
    have hone : C.Tries c j (Power.powerDownOne action host) g
        (fun g' _ => C.Holds a .idle (PowersDown all) g')
        fun g' e => C.Holds a .idle (PowersDown all) g' ∧ e ≠ .busy := by
      refine tries_bind.2 (tries_storeOrFail.2 (h.asks (.down hin) ?_))
      rintro g₁ (e | _ | _) h₁
      · exact ⟨h₁, by simp⟩
      · exact h₁
      · refine tries_bind.2 (tries_lift.2 ?_)
        rintro (e | r)
        · refine tries_bind.2 (tries_storeOrFail.2 (h₁.asks (.undo hin) ?_))
          rintro g₂ (e | r) h₂
          · exact ⟨h₂, by simp⟩
          · exact h₂
        · exact h₁
    refine tries_bind.2 (hone.mono ?_ fun _ _ h => h)
    intro g₁ down h₁
    refine tries_bind.2 ((ih (fun x hx => hsub x (by simp [hx])) h₁).mono ?_ fun _ _ h => h)
    exact fun g₂ others h₂ => h₂

/-- Powering idle hosts down. -/
theorem Serves.body_powerDown (hC : C.Serves c) (reserved : Nat) (action : PowerAction) :
    C.Body c j .powerManagement (do
      let hosts ← Program.storeOrFail (.listHosts 0 true false)
      Power.powerDownAll action (((hosts.filter Power.isIdle).drop reserved).map Host.id)) := by
  intro s₀ _
  refine tries_bind.2 (tries_read (fun _ => rfl) ?_ fun _ => ⟨⟨_, rfl⟩, by simp⟩)
  intro s hs _
  have hholds : C.Holds .powerManagement .idle (PowersDown ((((s.hostList 0 true false).filter
      Power.isIdle).drop reserved).map Host.id)) (.inside .powerManagement .idle s) :=
    ⟨s, rfl, hC.powerDown reserved hs⟩
  refine (hholds.tries_powerDownAll action fun _ h => h).mono ?_ ?_
  · exact fun g' _ h => h.inside
  · exact fun g' _ h => ⟨h.1.inside, h.2⟩

/-! ## Jobs -/

theorem free_announce (l : List (Detection.Anomaly α)) : C.Free c j (Detection.announce l) := by
  induction l with
  | nil => exact free_pure _
  | cons a rest ih => exact ih

theorem Serves.free_cycle (hC : C.Serves c) (hgated : C.gated) :
    C.Free c j (Detection.cycle c) := by
  have hfirst : ∀ l, C.Free c j (Detection.resolveFirst c l) := by
    intro l
    induction l with
    | nil => exact free_pure _
    | cons a rest ih =>
      refine ((hC.body_resolve a.host a.state).gated hgated).bind ?_
      rintro (e | r)
      · cases e with
        | busy => exact rfl
        | _ => exact ih
      · exact free_pure _
  refine (hC.free_store (.listHosts ..)).bind ?_
  rintro (e | hosts)
  · exact rfl
  · refine (free_announce _).bind fun _ => meets_bind.2 (meets_healthy.2 ?_)
    exact (hfirst _).bind fun _ => free_pure _

theorem Serves.free_saveEnergy (hC : C.Serves c) (hgated : C.gated) (reserved : Nat)
    (action : PowerAction) : C.Free c j (Power.saveEnergy reserved action) := by
  refine meets_bind.2 (meets_ask.2 ?_)
  rintro (_ | _)
  · refine ((hC.body_powerDown reserved action).gated hgated).bind ?_
    rintro (e | hosts)
    · cases e <;> exact rfl
    · exact rfl
  · exact rfl

theorem Serves.free_firing (hC : C.Serves c) (hgated : C.gated) : C.Free c j (Job.firing c) := by
  unfold Job.firing
  split
  · refine Free.bind ?_ fun _ => free_pure _
    refine (hC.body_reconfigure.gated hgated).bind ?_
    rintro (e | r)
    · cases e <;> exact rfl
    · exact rfl
  · exact free_pure _

/-- Every job but the rest of a submission starts and ends outside the gate. -/
theorem Serves.free_program (hC : C.Serves c) (hgated : C.gated)
    (hj : ∀ task vms, j ≠ .submission task vms) : C.Free c j (j.program c) := by
  cases j with
  | submission task vms => exact absurd rfl (hj task vms)
  | control vm action =>
    cases action with
    | migrate d => exact (hC.body_migrate vm d).gated hgated
    | _ => exact hC.free_forward vm _
  | resolve host state => exact (hC.body_resolve host state).gated hgated
  | reconfigure => exact hC.body_reconfigure.gated hgated
  | powerDown reserved action => exact (hC.body_powerDown reserved action).gated hgated
  | wake hosts => exact hC.free_wake (j := .wake hosts) trivial hosts
  | markActive host => exact hC.free_store (.activate host)
  | observe o => exact hC.free_handle o
  | observeAll l => exact hC.free_handleAll l
  | detect => exact hC.free_cycle hgated
  | saveEnergy => exact hC.free_saveEnergy hgated _ _
  | fire => exact hC.free_firing hgated
  | countHosts =>
    refine (hC.free_store (.listHosts ..)).bind ?_
    rintro (e | hosts) <;> exact free_pure _
  | tryPlan plan => exact fun r _ n => rfl
  | tryResolve host state =>
    exact hC.free_tryResolving (j := .tryResolve host state) trivial host state

end Contract

end ClusterControl
