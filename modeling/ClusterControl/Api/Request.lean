import ClusterControl.Codec.Reports
import ClusterControl.Json.Printer
import ClusterControl.Json.Reader
import ClusterControl.Network.MediaType
import ClusterControl.Network.Url
import ClusterControl.Workflow.Error

/-!
# Requests to the controller

Which requests the controller serves over HTTP.  A request for a path that is not there, with the
wrong method or with a body that cannot be read is refused with a status code.
-/

namespace ClusterControl.Api

/-- A request as it comes in. -/
structure Request where
  method : String
  /-- The path with whatever follows it. -/
  target : String
  contentType : Option String
  body : String
  deriving DecidableEq, Repr

/-- What can be asked for. -/
inductive Call
  | health
  | readiness
  | metrics
  | status
  | collect (task : TaskId)
  | submit (request : SubmissionRequest Float)
  | observe (o : Observation Float)

namespace Request

/-! ## Bodies -/

/-- The value of a JSON body; what follows it is passed over.  Errors of shape that count as errors
of syntax are told by the predicate. -/
def bodyAs {β : Type} (r : Request) (isSyntax : DecodeError → Bool) (d : Decoder β) : Except Nat β :=
  if !(r.contentType.bind Network.MediaType.parse?).any Network.MediaType.isJson then .error 415
  else
    match Json.readFirst r.body.toList with
    | none => .error 400
    | some (j, _) =>
      match d j with
      | .ok b => .ok b
      | .error e => .error (if isSyntax e then 400 else 422)

/-- The machines of a submission. -/
def submission (r : Request) : Except Nat (SubmissionRequest Float) :=
  r.bodyAs DecodeError.isSyntactic SubmissionRequest.decode

/-- An observation; its kind may stand anywhere, so its shape is looked at when all is read. -/
def observation (r : Request) : Except Nat (Observation Float) :=
  r.bodyAs (· == .tooDeep) Observation.decode

/-! ## Paths -/

/-- A call that is asked for with GET; HEAD asks for the same without its body. -/
def reading (r : Request) (c : Except Nat Call) : Except Nat Call :=
  if r.method == "GET" || r.method == "HEAD" then c else .error 405

/-- A call that is asked for with POST. -/
def posting (r : Request) (c : Except Nat Call) : Except Nat Call :=
  if r.method == "POST" then c else .error 405

/-- The text that a segment of a path stands for. -/
def segmentText (segment : List Char) : Except Nat String :=
  match String.fromUTF8? ⟨(Network.Url.percentDecode segment).toArray⟩ with
  | some text => .ok text
  | none => .error 400

/-- What a request asks for, or the code it is refused with. -/
def route (r : Request) : Except Nat Call :=
  match (Network.splitAtChar '/' (Network.Url.pathPart r.target.toList)).map String.ofList with
  | ["", "healthz"] => r.reading (.ok .health)
  | ["", "readyz"] => r.reading (.ok .readiness)
  | ["", "metrics"] => r.reading (.ok .metrics)
  | ["", "status"] => r.reading (.ok .status)
  | ["", "monitoring"] => r.posting (Call.observe <$> r.observation)
  | ["", "submissions"] => r.posting (Call.submit <$> r.submission)
  | ["", "submissions", task] =>
    if task.isEmpty then .error 404
    else r.reading (Call.collect <$> segmentText task.toList)
  | _ => .error 404

end Request

/-! ## Answers -/

/-- What is answered: a status code, and a body with its media type if there is one. -/
structure Answer where
  code : Nat
  contentType : Option String
  body : String
  deriving DecidableEq, Repr

namespace Answer

def bare (code : Nat) : Answer := ⟨code, none, ""⟩

def json (code : Nat) (j : Json) : Answer := ⟨code, some "application/json", j.compact⟩

/-- The health of all parts; only an unhealthy part makes it an error. -/
def ofHealth (s : Health.Summary) : Answer :=
  .json (if s.status == .unhealthy then 503 else 200) s.encode

def ofReadiness (r : Health.Readiness) : Answer := .json (if r.ready then 200 else 503) r.encode

def ofMetrics (page : String) : Answer := ⟨200, some "text/plain; charset=utf-8", page⟩

def ofStatus : Except StoreError ControllerStatus → Answer
  | .ok s => .json 200 s.encode
  | .error _ => .bare 500

/-- Accepted, or the controller is busy. -/
def ofSubmission : Except WorkflowError TaskId → Answer
  | .ok task => .json 202 (.object [("task_id", .string task)])
  | .error _ => .bare 409

/-- A response that was filed, or nothing under that name. -/
def ofCollected : Option SubmissionResponse → Answer
  | some r => .json 200 r.encode
  | none => .bare 404

/-- Taken in, or turned away. -/
def ofPublished (taken : Bool) : Answer := .bare (if taken then 202 else 503)

/-- The answer without its body. -/
def headOnly (a : Answer) : Answer := { a with body := "" }

end Answer

end ClusterControl.Api
