import ClusterControl.Json.Decode
import ClusterControl.Rehearsal.Script

/-!
# JSON form of scripts

A script is an object that names what it changes of the script before it.
-/

namespace ClusterControl.Rehearsal

def Manner.decode : Decoder Manner := fun j => Manner.ofText <$> Decoder.string j

/-- How often a kind of request passes, and how often it then fails. -/
def Fault.decode (operation : StoreOperation) (reason : String) : Decoder Fault := fun j => do
  match ← Decoder.list Decoder.nat64 j with
  | [skip, count] => return { operation, skip, count, reason }
  | _ => .error (.tooShort 2)

/-- The faults of the kinds that are known, each under its name. -/
def Fault.decodeAll (names : List (String × StoreOperation)) (reason : String → String) :
    Decoder (List Fault) := fun j => do
  let given ← Decoder.map (fun j => .ok j) j
  (given.entries.filterMap fun e => (names.lookup e.1).map fun o => (e, o)).mapM fun f =>
    Fault.decode f.2 (reason f.1.1) f.1.2

/-- A script with what the object names put in place of its own; faults are read by the decoder. -/
def Script.decodeOver (s : Script) (faults : Decoder (List Fault)) : Decoder Script := fun j => do
  let names := fun (name : String) => Decoder.memberOr name (Decoder.list Decoder.string)
  return {
    standard := ← Decoder.memberOr "default" Manner.decode s.standard j
    migrations := ← Decoder.memberOr "migrations" (Decoder.map Manner.decode) s.migrations j
    unreachable := ← names "unreachable" s.unreachable j
    rejecting := ← names "rejecting" s.rejecting j
    suspendFails := ← names "suspend_fails" s.suspendFails j
    notStarted := ← names "not_started" s.notStarted j
    extraStarted := ← names "extra_started" s.extraStarted j
    startDelay := ← Decoder.memberOr "start_delay_ms" Decoder.nat64 s.startDelay j
    powerDelay := ← Decoder.memberOr "power_delay_ms" Decoder.nat64 s.powerDelay j
    faults := ← Decoder.memberOr "repo_fail" faults s.faults j }

end ClusterControl.Rehearsal
