import ClusterControl.Network.Http

/-!
# Why a command fails
-/

namespace ClusterControl.CommandLine

/-- A cause, and what it concerns. -/
inductive Failure
  | unreadable (path : String)
  | unparsable (path : String)
  | snapshotUnreadable (path : String)
  | snapshotUnparsable (path : String)
  /-- No snapshot is named, and there are no preferences that name one. -/
  | noSnapshot (preferences : Option String)
  | unknownHost (host : String)
  | invalidUrl (text : String)
  /-- The address has no path that a name could be joined to. -/
  | invalidPath
  | unreachable (url : String)
  | refused (url : String) (answer : Network.Response)
  /-- The answer does not have the expected form. -/
  | unexpected (url : String)
  deriving DecidableEq, Repr

def Failure.message : Failure → String
  | unreadable path => "Failed to read " ++ path
  | unparsable path => "Failed to parse " ++ path
  | snapshotUnreadable path => "Failed to read snapshot " ++ path
  | snapshotUnparsable path => "Failed to parse snapshot " ++ path
  | noSnapshot preferences =>
    "No cluster snapshot given; pass --snapshot or set \"snapshot\" in "
      ++ preferences.getD "the clusterctl config"
  | unknownHost host => "Host " ++ host ++ " is not in the snapshot"
  | invalidUrl text => "Invalid controller URL: " ++ text
  | invalidPath => "Invalid path"
  | unreachable url => "Controller unreachable at " ++ url
  | refused url answer =>
    url ++ " returned " ++ Network.statusLine answer.code ++ ": " ++ answer.body
  | unexpected url => "Unexpected response from " ++ url

end ClusterControl.CommandLine
