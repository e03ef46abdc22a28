import ClusterControl.Settings
import ClusterControl.Workflow.Commit
import ClusterControl.Workflow.Power

/-!
# Resolution of anomalies

A host that is too busy or too idle is relieved: a plan is made from what the store says, passive
destinations of the plan are woken, and the plan is carried out.  The phase tells how far this has
come; whatever goes wrong, the phase is idle again and nothing was migrated.
-/

namespace ClusterControl.Resolution

variable {α : Type}

/-- Asks the store; its errors end the resolution. -/
def storeOrAbandon (q : StoreRequest α) : ExceptT ResolutionError (Program α) q.Answer :=
  ExceptT.mk do
    match ← Program.store q with
    | .ok a => return .ok a
    | .error e => return .error (.store e)

/-- Wakes the given hosts; if one cannot be woken, the resolution ends. -/
def wakeOrAbandon (hosts : List HostId) : ExceptT ResolutionError (Program α) Unit :=
  if hosts.isEmpty then return ()
  else ExceptT.mk do
    match ← Power.wake hosts with
    | .ok () => return .ok ()
    | .error failed => return .error (.wakeupFailed failed)

def setPhase (e : Engine) (p : ResolutionPhase) : ExceptT ResolutionError (Program α) Unit :=
  ExceptT.lift (Program.ask (.setPhase e p))

variable [Quantity α]

/-- The passive hosts among the destinations of a plan. -/
def toWake (plan : MigrationPlan) (hosts : List (Host α)) : List HostId :=
  plan.destinations.filter fun d => hosts.any fun h => h.id == d && h.isPassive

/-- Plans the relief of a host and carries it out. -/
def relieve (c : Settings α) (e : Engine) (host : HostId) (state : LoadState) :
    ExceptT ResolutionError (Program α) ResolutionReport := do
  match c.relocationPolicy state with
  | none => throw (.hostStable host state)
  | some policy =>
    match ← storeOrAbandon (.findHost host c.estimator.window) with
    | none => throw (.hostUnknown host)
    | some source =>
      setPhase e .resolving
      let listed ← storeOrAbandon (.listHosts c.estimator.window (!policy.includesPassive) true)
      let destinations := listed.filter fun h => h.id != source.id
      if destinations.isEmpty then throw (.noDestinationCandidates host)
      let plan := (Relocation.relocate c.ranking policy source destinations).1
      if plan.isEmpty then throw (.emptyPlan host)
      let woken := toWake plan destinations
      wakeOrAbandon woken
      setPhase e .enforcing
      let enforcement ← (Program.ask (.enforce e plan) : Program α _)
      return { host, state, plan, woken, enforcement }

/-- Relieves a host; a resolution that succeeds stays resolved until it is committed. -/
def resolve (c : Settings α) (e : Engine) (host : HostId) (state : LoadState) :
    Program α (Except ResolutionError ResolutionReport) := do
  Program.ask (.setPhase e .readyToResolve)
  let r ← (relieve c e host state).run
  Program.ask (.setPhase e (match r with
    | .ok _ => .resolved
    | .error _ => .idle))
  return r

/-- Commits a resolution and puts it on record. -/
def conclude (r : ResolutionReport) : Program α Unit := do
  Commit.report r.enforcement
  Program.count .resolutionsSucceeded 1
  if 0 < r.plan.hostsReleased ∧ r.enforcement.failed = 0 then
    Program.count .hostsReleased r.plan.hostsReleased
  Program.event (.anomalyResolved r.host r.state r.enforcement.size r.enforcement.failed)
  Program.ask (.setPhase .own .idle)

/-- Puts a resolution that was given up on record. -/
def abandon (host : HostId) (state : LoadState) (e : ResolutionError) : Program α Unit := do
  Program.count .resolutionsFailed 1
  Program.event (.resolutionFailed host state e.message)

/-- Resolves an anomaly with the cluster to itself. -/
def run (c : Settings α) (host : HostId) (state : LoadState) :
    Program α (Except WorkflowError ResolutionReport) :=
  Program.gated .resolvingAnomaly <| ExceptT.mk do
    match ← resolve c .own host state with
    | .ok r =>
      conclude r
      return .ok r
    | .error e =>
      abandon host state e
      return .error (.resolution e)

end ClusterControl.Resolution
