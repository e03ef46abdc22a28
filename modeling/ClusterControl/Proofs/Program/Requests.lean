import ClusterControl.Proofs.Program.Contract

/-!
# What workflows ask for

The requests that workflows make outside the gate, and behind it to commit plans, to record
placements and to change power.  `Contract.Serves` says that a contract supports all of them; the
lemmas about single requests say what a task has to show before it makes one.
-/

namespace ClusterControl

variable {α ρ : Type}

/-! ## What workflows ask of the store -/

/-- The job wakes hosts without holding the gate. -/
def Job.WakesFreely : Job α → Prop
  | .wake _ => True
  | .tryResolve _ _ => True
  | _ => False

instance : DecidablePred (Job.WakesFreely : Job α → Prop)
  | .wake _ | .tryResolve .. => .isTrue trivial
  | .submission .. | .control .. | .resolve .. | .reconfigure | .powerDown .. | .markActive _
  | .observe _ | .observeAll _ | .detect | .saveEnergy | .fire | .countHosts | .tryPlan _ =>
    .isFalse id

/-- The requests that jobs make without holding the gate. -/
inductive Casual (j : Job α) : StoreRequest α → Prop
  | listHosts (entries : Nat) (excludePassive monitoring : Bool) :
    Casual j (.listHosts entries excludePassive monitoring)
  | findHost (host : HostId) (entries : Nat) : Casual j (.findHost host entries)
  | findVm (vm : VmId) : Casual j (.findVm vm)
  | setVmStatus (vm : VmId) (status : VmStatus) (code : Option VmErrorCode) :
    Casual j (.setVmStatus vm status code)
  | removeVm (vm : VmId) : Casual j (.removeVm vm)
  | addHostSample (host : HostId) (sample : Sample α) : Casual j (.addHostSample host sample)
  | addVmSample (vm : VmId) (sample : Sample α) : Casual j (.addVmSample vm sample)
  | activate (host : HostId) : Casual j (.transition host .wokenUp .active)
  | claim (host : HostId) : Casual j (.transition host .passive .wokenUp)
  | giveUp (h : j.WakesFreely) (host : HostId) : Casual j (.transition host .wokenUp .passive)

/-- The requests that commit migrations. -/
inductive Commits (moves : List Migration) : StoreRequest α → Prop
  | move {m : Migration} (h : m ∈ moves) : Commits moves (.moveVm m.vm m.destination)
  | mark (vm : VmId) (status : VmStatus) (code : Option VmErrorCode) :
    Commits moves (.setVmStatus vm status code)

/-- The requests that record what became of a batch. -/
inductive Records (plan : PlacementPlan α) : StoreRequest α → Prop
  | start {a : Assignment α} (h : a ∈ plan.assignments) :
    Records plan (.addVm { a.vm with hostId := some a.host, status := .running })
  | failure (vm : Vm α) (code : VmErrorCode) :
    Records plan (.addVm ((Vm.new vm.id vm.requested 0).failed code))

/-- The requests that power hosts down, and up again when a host does not go down. -/
inductive PowersDown (hosts : List HostId) : StoreRequest α → Prop
  | down {host : HostId} (h : host ∈ hosts) : PowersDown hosts (.transition host .active .passive)
  | undo {host : HostId} (h : host ∈ hosts) : PowersDown hosts (.transition host .passive .active)

namespace Contract

/-- The task holds the gate, and no resolution is under way. -/
def Inside (a : Activity) (g : Standing α) : Prop := ∃ s, g = .inside a .idle s

theorem Holds.inside {C : Contract α} {a : Activity} {W : StoreRequest α → Prop} {g : Standing α}
    (h : C.Holds a .idle W g) : Inside a g := by
  obtain ⟨s, hg, -⟩ := h
  exact ⟨s, hg⟩

/-- The machine was on no host at some time since the gate was taken. -/
def Unplaced (C : Contract α) (v : VmId) (s : Store α) : Prop :=
  C.lax ∨ ∃ t, C.good t ∧ C.rely t s ∧ ∀ w, t.vm? v = some w → w.hostId = none

theorem Unplaced.rely {C : Contract α} {v : VmId} {s t : Store α} (h : C.Unplaced v s)
    (hst : C.rely s t) : C.Unplaced v t := by
  rcases h with hlax | ⟨u, hu, hus, hv⟩
  · exact .inl hlax
  · exact .inr ⟨u, hu, C.trans hus hst, hv⟩

variable [Quantity α]

/-- The contract supports what every workflow does under the given settings. -/
structure Serves (C : Contract α) (c : Settings α) : Prop where
  casual : ∀ {j busy s q}, Casual j q → C.good s → C.admits j busy s q →
    C.good (q.apply s).2 ∧ (busy = true → C.rely s (q.apply s).2)
  wake : ∀ {j a p last} (hosts : List HostId), C.Meets c j (Power.wakeAll hosts) (.inside a p last)
    fun g failed => ∃ s, g = .inside a p s ∧ (failed = [] → C.wakes hosts last s)
  powerDown : ∀ {s} (reserved : Nat), C.good s → C.Supports s
    (PowersDown ((((s.hostList 0 true false).filter Power.isIdle).drop reserved).map Host.id))
  place : ∀ {s batch chosen} (cursor : Nat), C.good s → C.accepts batch →
    (∀ vm ∈ chosen, vm ∈ batch.map Submission.fresh) → (chosen.map Vm.id).Nodup →
    (∀ vm ∈ chosen, C.Unplaced vm.id s) → C.Supports s (Records
      (Placement.place c.placementPolicy cursor chosen
        (s.hostList c.estimator.window true false)).plan)
  migrate : ∀ {s t vm found source d target}, C.good s → s.vm? vm = some found →
    found.hostId = some source → C.good t → C.rely s t → t.host? d 0 = some target →
    Control.accepts target source found = true → C.Supports t (Commits [⟨vm, some source, d⟩])
  relocate : ∀ {s t u : Store α} {host policy source destinations},
    C.good s → s.host? host c.estimator.window = some source → C.good t → C.rely s t →
    destinations = (t.hostList c.estimator.window (!RelocationPolicy.includesPassive policy)
      true).filter (fun h => h.id != source.id) →
    C.wakes (Resolution.toWake (Relocation.relocate c.ranking policy source destinations).1
      destinations) t u →
    C.Supports u (Commits (Relocation.relocate c.ranking policy source destinations).1.moves)
  consolidate : ∀ {s}, C.good s → C.Supports s
    (Commits (Consolidation.consolidate c.ranking (s.hostList c.estimator.window true true)).moves)

/-- A workflow that is run behind the gate keeps the contract, and never fails for being busy. -/
def Body (C : Contract α) (c : Settings α) (j : Job α) (a : Activity)
    (x : ExceptT WorkflowError (Program α) ρ) : Prop :=
  ∀ s, C.good s → C.Tries c j x (.inside a .idle s) (fun g _ => Inside a g)
    fun g e => Inside a g ∧ e ≠ .busy

variable {C : Contract α} {c : Settings α} {j : Job α} {g : Standing α}

/-! ## Single requests -/

@[simp]
theorem meets_event {e : Event α} {Q : Standing α → Unit → Prop} :
    C.Meets c j (Program.event e) g Q ↔ Q g () := Iff.rfl

@[simp]
theorem meets_count {series : Series} {n : Nat} {Q : Standing α → Unit → Prop} :
    C.Meets c j (Program.count series n) g Q ↔ Q g () := Iff.rfl

@[simp]
theorem meets_healthy {part : String} {Q : Standing α → Unit → Prop} :
    C.Meets c j (Program.healthy part) g Q ↔ Q g () := Iff.rfl

@[simp]
theorem meets_host {q : HostRequest α} {Q : Standing α → Except ControlError q.Answer → Prop} :
    C.Meets c j (Program.host q) g Q ↔ ∀ r, Q g r := Iff.rfl

@[simp]
theorem meets_store {q : StoreRequest α} {Q : Standing α → Except StoreError q.Answer → Prop} :
    C.Meets c j (Program.store q) g Q ↔ C.Asks c j g (.store q) Q := Iff.rfl

@[simp]
theorem tries_storeOrFail {q : StoreRequest α} {Q : Standing α → q.Answer → Prop}
    {E : Standing α → WorkflowError → Prop} : C.Tries c j (Program.storeOrFail q) g Q E ↔
      C.Asks c j g (.store q) (Ends Q fun g' e => E g' (.store e)) := by
  unfold Program.storeOrFail
  rw [tries_mk, meets_bind, meets_store]
  constructor <;> refine fun h => h.mono ?_
  · rintro g' (e | a) h' <;> exact h'
  · rintro g' (e | a) h' <;> exact h'

@[simp]
theorem tries_storeOrAbandon {q : StoreRequest α} {Q : Standing α → q.Answer → Prop}
    {E : Standing α → ResolutionError → Prop} : C.Tries c j (Resolution.storeOrAbandon q) g Q E ↔
      C.Asks c j g (.store q) (Ends Q fun g' e => E g' (.store e)) := by
  unfold Resolution.storeOrAbandon
  rw [tries_mk, meets_bind, meets_store]
  constructor <;> refine fun h => h.mono ?_
  · rintro g' (e | a) h' <;> exact h'
  · rintro g' (e | a) h' <;> exact h'

@[simp]
theorem tries_hostOrFail {q : HostRequest α} {Q : Standing α → q.Answer → Prop}
    {E : Standing α → WorkflowError → Prop} : C.Tries c j (Program.hostOrFail q) g Q E ↔
      ∀ r, Ends Q (fun g' e => E g' (.control e)) g r := by
  unfold Program.hostOrFail
  rw [tries_mk, meets_bind, meets_host]
  refine forall_congr' ?_
  rintro (e | a) <;> exact Iff.rfl

/-- A task behind the gate reads the store as it finds it. -/
theorem asks_read {a : Activity} {p : ResolutionPhase} {last : Store α} {q : StoreRequest α}
    {R : Standing α → Except StoreError q.Answer → Prop} (hread : ∀ s, (q.apply s).2 = s)
    (hR : ∀ s, C.good s → C.rely last s → R (.inside a p s) (q.apply s).1)
    (hlax : C.lax → ∀ e, R (.inside a p last) (.error e)) :
    C.Asks c j (.inside a p last) (.store q) R := by
  refine ⟨fun s hs hrely => ?_, hlax⟩
  rw [hread]
  exact ⟨hs, hR s hs hrely⟩

/-- A workflow behind the gate reads the store as it finds it, and may fail where nothing is taken
for granted. -/
theorem tries_read {a : Activity} {p : ResolutionPhase} {last : Store α} {q : StoreRequest α}
    {Q : Standing α → q.Answer → Prop} {E : Standing α → WorkflowError → Prop}
    (hread : ∀ s, (q.apply s).2 = s)
    (hQ : ∀ s, C.good s → C.rely last s →
      Ends Q (fun g e => E g (.store e)) (.inside a p s) (q.apply s).1)
    (hE : ∀ e, E (.inside a p last) (.store e)) :
    C.Tries c j (Program.storeOrFail q) (.inside a p last) Q E :=
  tries_storeOrFail.2 (asks_read hread hQ fun _ e => hE e)

/-- A task outside the gate may ask what jobs ask there. -/
theorem Serves.asks (hC : C.Serves c) {q : StoreRequest α} (hq : Casual j q)
    {R : Standing α → Except StoreError q.Answer → Prop} (hR : ∀ r, R .outside r) :
    C.Asks c j .outside (.store q) R := by
  refine ⟨fun busy s hs hadmitted => ?_, fun _ e => hR _⟩
  obtain ⟨hgood, hrely⟩ := hC.casual hq hs hadmitted
  exact ⟨hgood, hrely, hR _⟩

end Contract

end ClusterControl
