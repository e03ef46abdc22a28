import ClusterControl.Controller.State

/-!
# Transcripts

The requests to hosts, as they are shown after a rehearsal.  Migrations of one instant are handed
over side by side, and so are suspensions, so neighbours of these kinds are listed by their text.
-/

namespace ClusterControl.Rehearsal

/-- A request as it is shown. -/
structure TranscriptLine where
  time : Nat
  state : String
  call : HostCall
  deriving DecidableEq

namespace TranscriptLine

def ofRecord (c : CallRecord) : TranscriptLine :=
  ⟨c.time, c.activity.key ++ "/" ++ c.phase.key, c.call⟩

def text (l : TranscriptLine) : String := l.call.text

/-- Two requests are handed over side by side. -/
def isBeside (a b : TranscriptLine) : Bool :=
  a.time == b.time &&
    match a.call, b.call with
    | .migrate _, .migrate _ => true
    | .suspend .., .suspend .. => true
    | _, _ => false

/-- Puts a line in front of others, but behind those beside it that come first by their text. -/
def insert (l : TranscriptLine) : List TranscriptLine → List TranscriptLine
  | [] => [l]
  | k :: rest => if l.isBeside k && k.text < l.text then k :: insert l rest else l :: k :: rest

end TranscriptLine

/-- The requests on record, ready to be shown. -/
def transcript (calls : List CallRecord) : List TranscriptLine :=
  (calls.map TranscriptLine.ofRecord).foldr TranscriptLine.insert []

end ClusterControl.Rehearsal
