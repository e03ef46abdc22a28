import ClusterControl.Proofs.Program.Power
import ClusterControl.Proofs.Program.Submissions

/-!
# Why programs move machines in the store

A machine is moved in the store when an engine has reported that its migration relocated it, and for
no other reason.

* `Program.Follows` says that a program moves machines only as `P` allows, if what it is told of
  relocated machines satisfies `P`.
* `Job.follows_program` says so of every job.
-/

namespace ClusterControl

variable {α ρ σ ε : Type}

/-- The migrations that a report lists as relocated satisfy `P`. -/
def EnforcementReport.Attests (P : Migration → Prop) (r : EnforcementReport) : Prop :=
  ∀ x ∈ r.results, x.outcome.isRelocated = true → P x.migration

theorem EnforcementReport.attests_empty {P : Migration → Prop} : empty.Attests P :=
  fun _ hx => absurd hx List.not_mem_nil

/-- A machine is moved in the store only for a migration that satisfies `P`; what else is asked for
may be answered in any way, as long as the reports of the controller's own engine attest `P`. -/
def Request.Follows (P : Migration → Prop) : (q : Request α) → (q.Answer → Prop) → Prop
  | .store (.moveVm vm d), R => (∃ m, P m ∧ m.vm = vm ∧ m.destination = d) ∧ ∀ r, R r
  | .enforce e _, R => ∀ r, (e = .own → r.Attests P) → R r
  | _, R => ∀ r, R r

/-- The program moves machines only for migrations that satisfy `P`, as long as the reports it gets
attest `P`, and its result satisfies `Q`. -/
def Program.Follows (P : Migration → Prop) : Program α ρ → (ρ → Prop) → Prop
  | .done r, Q => Q r
  | .call q next, Q => q.Follows P fun a => (next a).Follows P Q

/-- The request moves no machine in the store. -/
def StoreRequest.Leaves (q : StoreRequest α) : Prop := ∀ vm d, q ≠ .moveVm vm d

/-- What workflows ask outside the gate moves no machine. -/
theorem Casual.leaves {j : Job α} {q : StoreRequest α} (hq : Casual j q) : q.Leaves := by
  cases hq <;> exact fun _ _ => by simp

variable {P : Migration → Prop}

theorem Request.Follows.mono {q : Request α} {R R' : q.Answer → Prop} (h : q.Follows P R)
    (hR : ∀ a, R a → R' a) : q.Follows P R' := by
  cases q with
  | store sq =>
    cases sq with
    | moveVm vm d => exact ⟨h.1, fun r => hR r (h.2 r)⟩
    | _ => exact fun r => hR r (h r)
  | enforce e plan => exact fun r hr => hR r (h r hr)
  | _ => exact fun r => hR r (h r)

/-- A request that moves no machine may get any answer. -/
theorem Request.follows_of_leaves {q : Request α} (hq : ∀ sq, q = .store sq → sq.Leaves)
    {R : q.Answer → Prop} (h : ∀ a, R a) : q.Follows P R := by
  cases q with
  | store sq =>
    cases sq with
    | moveVm vm d => exact absurd rfl (hq _ rfl vm d)
    | _ => exact h
  | enforce e plan => exact fun r _ => h r
  | _ => exact h

namespace Program

theorem Follows.mono {p : Program α ρ} {Q Q' : ρ → Prop} (h : p.Follows P Q)
    (hQ : ∀ r, Q r → Q' r) : p.Follows P Q' := by
  induction p with
  | done r => exact hQ r h
  | call q next ih => exact Request.Follows.mono h fun a ha => ih a ha

theorem follows_bind {p : Program α ρ} {f : ρ → Program α σ} {Q : σ → Prop} :
    (p >>= f).Follows P Q ↔ p.Follows P fun r => (f r).Follows P Q := by
  induction p with
  | done r => exact Iff.rfl
  | call q next ih =>
    exact ⟨fun h => Request.Follows.mono h fun a ha => (ih a).1 ha,
      fun h => Request.Follows.mono h fun a ha => (ih a).2 ha⟩

/-- A workflow goes on after a result, and ends with an error. -/
theorem follows_run_bind {p : ExceptT ε (Program α) ρ} {f : ρ → ExceptT ε (Program α) σ}
    {Q : Except ε σ → Prop} : ((p >>= f).run : Program α (Except ε σ)).Follows P Q ↔
      (p.run : Program α (Except ε ρ)).Follows P fun r =>
        match r with
        | .ok a => ((f a).run : Program α (Except ε σ)).Follows P Q
        | .error err => Q (.error err) := by
  refine follows_bind.trans ⟨fun h => h.mono ?_, fun h => h.mono ?_⟩
  · rintro (err | a) h' <;> exact h'
  · rintro (err | a) h' <;> exact h'

/-- A program that never asks to move a machine follows whatever it is told. -/
theorem AsksOnly.follows {p : Program α ρ} (h : p.AsksOnly StoreRequest.Leaves) {Q : ρ → Prop}
    (hQ : ∀ r, Q r) : p.Follows P Q := by
  induction p with
  | done r => exact hQ r
  | call q next ih => exact Request.follows_of_leaves h.1 fun a => ih a (h.2 a)

/-- A workflow behind the gate follows what it follows there, and is refused otherwise. -/
theorem follows_gated (a : Activity) {body : ExceptT WorkflowError (Program α) ρ}
    {Q : Except WorkflowError ρ → Prop} (hbusy : Q (.error .busy))
    (h : (body.run : Program α (Except WorkflowError ρ)).Follows P Q) :
    (gated a body).Follows P Q := by
  refine follows_bind.2 ?_
  rintro (_ | _)
  · exact hbusy
  · exact follows_bind.2 (h.mono fun r hr _ => hr)

end Program

open Program

/-! ## Workflows that move no machine -/

theorem Power.leaves_wake (hosts : List HostId) :
    (Power.wake (α := α) hosts).AsksOnly StoreRequest.Leaves := by
  have hall : (Power.wakeAll hosts).AsksOnly (Job.wake (α := α) hosts).Tends :=
    Power.asksOnly_wakeAll hosts
  refine (hall.mono fun q hq => hq.1.leaves).bind ?_
  rintro (_ | _) <;> exact asksOnly_pure _

theorem Power.leaves_powerDownIdle (reserved : Nat) (action : PowerAction) :
    (Power.powerDownIdle (α := α) reserved action).AsksOnly StoreRequest.Leaves := by
  have hone : ∀ host, ((Power.powerDownOne (α := α) action host).run : Program α
      (Except WorkflowError Bool)).AsksOnly StoreRequest.Leaves := by
    intro host
    refine (asksOnly_storeOrFail fun _ _ => by simp).run_bind ?_
    rintro (_ | _)
    · exact asksOnly_pure _
    refine AsksOnly.run_bind ((asksOnly_ask (by simp)).bind fun _ => asksOnly_pure _) ?_
    rintro (err | _)
    · refine (asksOnly_storeOrFail fun _ _ => by simp).run_bind fun _ => ?_
      exact AsksOnly.run_bind ((asksOnly_ask (by simp)).bind fun _ => asksOnly_pure _)
        fun _ => asksOnly_pure _
    · refine AsksOnly.run_bind ((asksOnly_ask (by simp)).bind fun _ => asksOnly_pure _)
        fun _ => ?_
      exact AsksOnly.run_bind ((asksOnly_ask (by simp)).bind fun _ => asksOnly_pure _)
        fun _ => asksOnly_pure _
  have hall : ∀ hosts, ((Power.powerDownAll (α := α) action hosts).run : Program α
      (Except WorkflowError (List HostId))).AsksOnly StoreRequest.Leaves := by
    intro hosts
    induction hosts with
    | nil => exact asksOnly_pure _
    | cons host rest ih =>
      exact (hone host).run_bind fun _ => ih.run_bind fun _ => asksOnly_pure _
  exact asksOnly_gated .powerManagement
    ((asksOnly_storeOrFail fun _ _ => by simp).run_bind fun hosts => hall _)

theorem Power.leaves_saveEnergy (reserved : Nat) (action : PowerAction) :
    (Power.saveEnergy (α := α) reserved action).AsksOnly StoreRequest.Leaves := by
  refine (asksOnly_ask (by simp)).bind ?_
  rintro (_ | _)
  · refine (Power.leaves_powerDownIdle reserved action).bind fun r => ?_
    split <;> exact (asksOnly_ask (by simp)).bind fun _ => asksOnly_pure _
  · exact (asksOnly_ask (by simp)).bind fun _ => asksOnly_pure _

namespace Submission

theorem leaves_recordFailure (t : Tally) (vm : Vm α) (code : VmErrorCode) :
    (recordFailure t vm code).AsksOnly StoreRequest.Leaves :=
  (asksOnly_store fun _ _ => by simp).bind fun _ => (asksOnly_ask (by simp)).bind fun _ =>
    asksOnly_pure _

theorem leaves_recordStart (t : Tally) (host : HostId) (vm : Vm α) :
    (recordStart t host vm).AsksOnly StoreRequest.Leaves := by
  refine (asksOnly_store fun _ _ => by simp).bind fun r => ?_
  split
  · exact (asksOnly_ask (by simp)).bind fun _ => asksOnly_pure _
  · exact leaves_recordFailure t vm .startFailed

theorem leaves_sift (seen : List VmId) (t : Tally) (vms : List (Vm α)) :
    (sift seen t vms).AsksOnly StoreRequest.Leaves := by
  induction vms generalizing seen t with
  | nil => exact asksOnly_pure _
  | cons vm rest ih =>
    rw [Contract.sift_cons]
    refine AsksOnly.bind ?_ ?_
    · split
      · exact asksOnly_pure _
      · refine (asksOnly_store fun _ _ => by simp).bind fun r => ?_
        split <;> exact asksOnly_pure _
    · rintro (_ | _)
      · exact (ih _ _).bind fun _ => asksOnly_pure _
      · exact (asksOnly_ask (by simp)).bind fun _ => ih _ _

theorem leaves_recordShare (host : HostId) (started : List VmId) (t : Tally) (vms : List (Vm α)) :
    (recordShare host started t vms).AsksOnly StoreRequest.Leaves := by
  induction vms generalizing t with
  | nil => exact asksOnly_pure _
  | cons vm rest ih =>
    rw [Contract.recordShare_cons]
    refine AsksOnly.bind ?_ fun t => ih t
    split
    · exact leaves_recordStart t host vm
    · exact leaves_recordFailure t vm .startFailed

theorem leaves_startShares (t : Tally) (shares : List (HostId × List (Vm α))) :
    (startShares t shares).AsksOnly StoreRequest.Leaves := by
  induction shares generalizing t with
  | nil => exact asksOnly_pure _
  | cons share rest ih =>
    have hnext : ∀ started, (recordShare share.1 started t share.2 >>= fun t =>
        startShares t rest).AsksOnly StoreRequest.Leaves := fun started =>
      (leaves_recordShare share.1 started t share.2).bind fun t => ih t
    refine AsksOnly.bind (asksOnly_ask (by simp)) ?_
    rintro (err | ids)
    · exact hnext []
    · exact hnext ids

theorem leaves_recordUnassigned (t : Tally) (vms : List (Vm α)) :
    (recordUnassigned t vms).AsksOnly StoreRequest.Leaves := by
  induction vms generalizing t with
  | nil => exact asksOnly_pure _
  | cons vm rest ih => exact (leaves_recordFailure t vm .notEnoughResources).bind fun t => ih t

theorem leaves_finish (entries : Nat) (task : TaskId) (vms : List (Vm α)) :
    (finish entries task vms).AsksOnly StoreRequest.Leaves := by
  have hcandidates : (candidates entries : Program α (List (Host α))).AsksOnly
      StoreRequest.Leaves := by
    refine (asksOnly_store fun _ _ => by simp).bind ?_
    rintro (err | hosts) <;> exact asksOnly_pure _
  have hrun : (run entries task vms).AsksOnly StoreRequest.Leaves :=
    (leaves_sift [] .empty vms).bind fun _ => hcandidates.bind fun _ =>
      (asksOnly_ask (by simp)).bind fun plan => (leaves_startShares _ _).bind fun t =>
        (leaves_recordUnassigned t _).bind fun _ => (asksOnly_ask (by simp)).bind fun _ =>
          (asksOnly_ask (by simp)).bind fun _ => asksOnly_pure _
  exact hrun.bind fun _ => (asksOnly_ask (by simp)).bind fun _ => asksOnly_ask (by simp)

end Submission

namespace Control

theorem leaves_locate (vm : VmId) :
    ((locate vm).run : Program α (Except WorkflowError (Vm α × HostId))).AsksOnly
      StoreRequest.Leaves := by
  refine (asksOnly_storeOrFail fun _ _ => by simp).run_bind fun found => ?_
  split
  · exact asksOnly_pure _
  · split <;> exact asksOnly_pure _

theorem leaves_forward (vm : VmId) (action : VmAction) :
    ((forward vm action).run : Program α (Except WorkflowError Unit)).AsksOnly
      StoreRequest.Leaves := by
  refine (leaves_locate vm).run_bind fun found => AsksOnly.run_bind ?_ fun _ => ?_
  · refine (asksOnly_ask (by simp)).bind ?_
    rintro (err | _) <;> exact asksOnly_pure _
  · cases action with
    | migrate d => exact asksOnly_pure _
    | shutdown | destroy =>
      exact (asksOnly_storeOrFail fun _ _ => by simp).run_bind fun _ => asksOnly_pure _
    | suspend | resume | reboot => exact asksOnly_storeOrFail fun _ _ => by simp

end Control

/-! ## Workflows that commit outcomes -/

namespace Commit

/-- A machine moves only if its migration relocated it. -/
theorem follows_result {x : MigrationResult}
    (hx : x.outcome.isRelocated = true → P x.migration) :
    (result (α := α) x).Follows P fun _ => True := by
  refine follows_bind.2 fun _ => follows_bind.2 fun _ => ?_
  dsimp only
  split
  · rename_i hrelocated
    refine follows_bind.2 ⟨⟨x.migration, hx hrelocated, rfl, rfl⟩, ?_⟩
    rintro (err | _)
    · trivial
    · exact follows_bind.2 fun _ => trivial
  · exact follows_bind.2 fun _ => trivial

theorem follows_report {r : EnforcementReport} (hr : r.Attests P) :
    (report (α := α) r).Follows P fun _ => True := by
  unfold report
  unfold EnforcementReport.Attests at hr
  generalize r.results = l at hr
  induction l with
  | nil => trivial
  | cons x rest ih =>
    refine follows_bind.2 ((follows_result (hr x List.mem_cons_self)).mono fun _ _ => ?_)
    exact ih fun y hy => hr y (List.mem_cons_of_mem x hy)

end Commit

variable [Quantity α]

namespace Control

theorem follows_migrate (vm : VmId) (d : HostId) :
    ((migrate vm d).run : Program α (Except WorkflowError Unit)).Follows P fun _ => True := by
  refine follows_run_bind.2 ((leaves_locate vm).follows ?_)
  rintro (err | found)
  · trivial
  refine follows_run_bind.2 ((asksOnly_storeOrFail fun _ _ => by simp).follows ?_)
  rintro (err | target)
  · trivial
  dsimp only
  split
  · trivial
  split
  · trivial
  refine follows_run_bind.2 (follows_bind.2 fun r hr => ?_)
  refine follows_run_bind.2 (follows_bind.2 ((Commit.follows_report (hr rfl)).mono fun _ _ => ?_))
  dsimp only
  split <;> trivial

theorem follows_run (vm : VmId) (action : VmAction) :
    (run (α := α) vm action).Follows P fun _ => True := by
  cases action with
  | migrate d => exact follows_gated .migrating trivial (follows_migrate vm d)
  | _ => exact (leaves_forward vm _).follows fun _ => trivial

end Control

variable (c : Settings α)

namespace Reconfiguration

theorem follows_run : (run c).Follows P fun _ => True := by
  refine follows_gated .reconfiguring trivial (follows_run_bind.2 ?_)
  refine (asksOnly_storeOrFail fun _ _ => by simp).follows ?_
  rintro (err | hosts)
  · trivial
  have henforce : ∀ plan, (enforce plan : Program α _).Follows P fun r => r.Attests P := by
    intro plan
    unfold enforce
    split
    · exact EnforcementReport.attests_empty
    · exact fun r hr => hr rfl
  refine follows_run_bind.2 (follows_bind.2 ((henforce _).mono fun r hr => ?_))
  refine follows_run_bind.2 (follows_bind.2 (follows_bind.2 ?_))
  refine (Commit.follows_report hr).mono fun _ _ => ?_
  exact AsksOnly.follows (((asksOnly_ask (by simp)).bind fun _ => (asksOnly_ask (by simp)).bind
    fun _ => asksOnly_ask (by simp))) fun _ => trivial

theorem follows_fire : (fire c).Follows P fun _ => True := by
  refine follows_bind.2 ((follows_run c).mono fun r _ => ?_)
  split <;> exact fun _ => trivial

end Reconfiguration

namespace Resolution

/-- What comes of relieving a host: its report attests what the engine's report attests. -/
def Attests (P : Migration → Prop) (e : Engine) (r : Except ResolutionError ResolutionReport) :
    Prop := ∀ report, r = .ok report → e = .own → report.enforcement.Attests P

theorem follows_relieve (e : Engine) (host : HostId) (state : LoadState) :
    ((relieve c e host state).run : Program α _).Follows P (Attests P e) := by
  have herror : ∀ err, Attests P e (.error err) := fun err report h => absurd h (by simp)
  have hstore : ∀ {q : StoreRequest α}, q.Leaves →
      ((storeOrAbandon q).run : Program α (Except ResolutionError q.Answer)).AsksOnly
        StoreRequest.Leaves := by
    intro q hq
    refine (asksOnly_store hq).bind ?_
    rintro (err | a) <;> exact asksOnly_pure _
  unfold relieve
  split
  · exact herror _
  refine follows_run_bind.2 ((hstore fun _ _ => by simp).follows ?_)
  rintro (err | found)
  · exact herror _
  dsimp only
  split
  · exact herror _
  refine follows_run_bind.2 fun _ => ?_
  refine follows_run_bind.2 ((hstore fun _ _ => by simp).follows ?_)
  rintro (err | listed)
  · exact herror _
  dsimp only
  split
  · exact herror _
  split
  · exact herror _
  have hwake : ∀ hosts : List HostId, ((wakeOrAbandon hosts).run : Program α
      (Except ResolutionError Unit)).AsksOnly StoreRequest.Leaves := by
    intro hosts
    unfold wakeOrAbandon
    split
    · exact asksOnly_pure _
    · refine (Power.leaves_wake hosts).bind ?_
      rintro (err | _) <;> exact asksOnly_pure _
  refine follows_run_bind.2 ((hwake _).follows ?_)
  rintro (err | _)
  · exact herror _
  refine follows_run_bind.2 fun _ => follows_run_bind.2 (follows_bind.2 fun r hr => ?_)
  rintro _ ⟨⟩
  exact hr

theorem follows_resolve (e : Engine) (host : HostId) (state : LoadState) :
    (resolve c e host state).Follows P (Attests P e) :=
  follows_bind.2 fun _ => follows_bind.2 ((follows_relieve c e host state).mono
    fun _ hr => follows_bind.2 fun _ => hr)

theorem follows_run (host : HostId) (state : LoadState) :
    (run c host state).Follows P fun _ => True := by
  refine follows_gated .resolvingAnomaly trivial (follows_bind.2 ?_)
  refine (follows_resolve c .own host state).mono ?_
  rintro (err | r) hr
  · exact follows_bind.2 (AsksOnly.follows ((asksOnly_ask (by simp)).bind fun _ =>
      asksOnly_ask (by simp)) fun _ => trivial)
  refine follows_bind.2 (follows_bind.2 ?_)
  refine (Commit.follows_report (hr r rfl rfl)).mono fun _ _ => ?_
  refine AsksOnly.follows ((asksOnly_ask (by simp)).bind fun _ => ?_) fun _ => trivial
  dsimp only
  split
  · exact (asksOnly_ask (by simp)).bind fun _ => (asksOnly_ask (by simp)).bind fun _ =>
      asksOnly_ask (by simp)
  · exact (asksOnly_ask (by simp)).bind fun _ => asksOnly_ask (by simp)

end Resolution

theorem Detection.follows_cycle : (Detection.cycle c).Follows P fun _ => True := by
  have hannounce : ∀ l : List (Anomaly α), (announce l).AsksOnly StoreRequest.Leaves := by
    intro l
    induction l with
    | nil => exact asksOnly_pure _
    | cons a rest ih =>
      exact (asksOnly_ask (by simp)).bind fun _ => (asksOnly_ask (by simp)).bind fun _ => ih
  have hfirst : ∀ l, (resolveFirst c l).Follows P fun _ => True := by
    intro l
    induction l with
    | nil => trivial
    | cons a rest ih =>
      refine follows_bind.2 ((Resolution.follows_run c a.host a.state).mono fun r _ => ?_)
      split
      · trivial
      · exact fun _ => trivial
      · exact ih
  refine follows_bind.2 ?_
  rintro (err | hosts)
  · exact follows_bind.2 fun _ => trivial
  refine follows_bind.2 ((hannounce _).follows fun _ => follows_bind.2 fun _ => ?_)
  exact follows_bind.2 ((hfirst _).mono fun _ _ => trivial)

/-! ## Every job -/

/-- Whatever job is done, machines are moved in the store only for migrations that were reported as
relocated. -/
theorem Job.follows_program (j : Job α) : (j.program c).Follows P fun _ => True := by
  cases j with
  | submission task vms => exact (Submission.leaves_finish _ task vms).follows fun _ => trivial
  | control vm action => exact Control.follows_run vm action
  | resolve host state => exact Resolution.follows_run c host state
  | reconfigure => exact Reconfiguration.follows_run c
  | powerDown reserved action =>
    exact (Power.leaves_powerDownIdle reserved action).follows fun _ => trivial
  | wake hosts => exact (Power.leaves_wake hosts).follows fun _ => trivial
  | markActive host => exact fun _ => trivial
  | observe o =>
    exact ((Monitoring.asksOnly_handle (j := .observe o) o).mono fun q hq => hq.1.leaves).follows
      fun _ => trivial
  | observeAll l =>
    exact ((Monitoring.asksOnly_handleAll (j := .observeAll l) l).mono
      fun q hq => hq.1.leaves).follows fun _ => trivial
  | detect => exact Detection.follows_cycle c
  | saveEnergy => exact (Power.leaves_saveEnergy _ _).follows fun _ => trivial
  | fire =>
    unfold Job.program Job.firing
    dsimp only
    split
    · exact follows_bind.2 ((Reconfiguration.follows_fire c).mono fun _ _ => trivial)
    · trivial
  | countHosts =>
    refine follows_bind.2 ?_
    rintro (err | hosts) <;> trivial
  | tryPlan plan => exact follows_bind.2 fun r _ => follows_bind.2 fun _ => trivial
  | tryResolve host state =>
    exact follows_bind.2 ((Resolution.follows_resolve c .trial host state).mono
      fun _ _ => follows_bind.2 fun _ => trivial)

end ClusterControl
