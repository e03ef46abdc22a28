import ClusterControl.Api.Request
import ClusterControl.Rehearsal.Cues

/-!
# Serving requests

Every request is answered at once, whatever workflow is under way.
-/

namespace ClusterControl.Rehearsal

/-- The status of the controller, if its store can tell. -/
def status (r : Rehearsal Float) : Except StoreError ControllerStatus × Rehearsal Float :=
  let (done, r) := r.perform .countHosts
  match done with
  | some ⟨.countHosts, .ok hosts⟩ => (.ok (r.controller.status hosts), r)
  | some ⟨.countHosts, .error e⟩ => (.error e, r)
  | _ => (.error (.backend "no answer"), r)

/-- Answers what is asked for. -/
def call (r : Rehearsal Float) : Api.Call → Api.Answer × Rehearsal Float
  | .health => (.ofHealth r.controller.health.summary, r)
  | .readiness => (.ofReadiness r.controller.health.readiness, r)
  | .metrics => (.ofMetrics r.controller.metrics.page, r)
  | .status =>
    let (s, r) := r.status
    (.ofStatus s, r)
  | .collect task =>
    let (found, r) := r.collect task
    (.ofCollected found, r)
  | .submit request =>
    let (accepted, r) := r.submit request.vms
    (.ofSubmission accepted, r)
  | .observe o =>
    let (taken, r) := r.publish o
    (.ofPublished taken, r)

/-- Serves a request. -/
def serve (r : Rehearsal Float) (q : Api.Request) : Api.Answer × Rehearsal Float :=
  match q.route with
  | .error code => (.bare code, r)
  | .ok c =>
    let (answer, r) := r.call c
    (if q.method == "HEAD" then answer.headOnly else answer, r)

end ClusterControl.Rehearsal
