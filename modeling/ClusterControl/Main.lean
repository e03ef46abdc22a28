import ClusterControl.CommandLine.Program
import Std.Async.DNS
import Std.Async.TCP
import Std.Async.Timer

/-!
# Entry point

Runs the program with the files, the variables and the network of the machine it is on.
-/

open ClusterControl Std.Async

/-- The variables that a run looks at. -/
def watchedVariables : List String :=
  ["CLICOLOR_FORCE", "CLUSTERCTL_API_URL", "CLUSTERCTL_CONFIG", "HOME"]

/-- What is found under a path. -/
def readState (path : String) : IO CommandLine.FileState := do
  try
    return .text (← IO.FS.readFile path)
  catch
    | .noFileOrDirectory .. => return .absent
    | _ => return .unreadable

def socketAddress (ip : Std.Net.IPAddr) (port : UInt16) : Std.Net.SocketAddress :=
  match ip with
  | .v4 addr => .v4 ⟨addr, port⟩
  | .v6 addr => .v6 ⟨addr, port⟩

/-- Receives until the other side is done. -/
partial def receiveAll (client : TCP.Socket.Client) (before : ByteArray) : Async ByteArray := do
  match ← client.recv? 65536 with
  | some bytes => receiveAll client (before ++ bytes)
  | none => return before

/-- Sends a request to a host and gives everything that comes back. -/
def exchange (ip : Std.Net.IPAddr) (port : UInt16) (request : String) : Async ByteArray := do
  let client ← TCP.Socket.Client.mk
  client.connect (socketAddress ip port)
  client.send request.toUTF8
  receiveAll client .empty

/-- Gives up after half a minute. -/
def givingUp (work : Async (Option ByteArray)) : Async (Option ByteArray) :=
  Async.race work (do
    sleep 30000
    return none)

/-- Fetches an address over plain text from the first address of its host that answers. -/
def fetchOver (url : Network.Url) : IO (Option Network.Response) := do
  match url.endpoint? with
  | none => return none
  | some (host, port) =>
    try
      let found ← (givingUp (do
        let ips ← DNS.getAddrInfo host (toString port)
        match ips[0]? with
        | some ip => some <$> exchange ip port.toUInt16 url.requestText
        | none => return none)).block
      return do Network.Response.parse? (← String.fromUTF8? (← found))
    catch _ => return none

def main (args : List String) : IO UInt32 := do
  let mut known := []
  for name in watchedVariables do
    if let some value ← IO.getEnv name then
      known := (name, value) :: known
  let environment := known
  let outcome ← CommandLine.run
    { setting? := fun name => environment.lookup name, read := readState, fetch := fetchOver } args
  (← IO.getStdout).putStr outcome.out
  (← IO.getStderr).putStr outcome.err
  return outcome.code.toUInt32
