import ClusterControl.Inventory.Host

/-!
# Demand estimation

An estimator turns the samples of a machine or host into one demand vector.  The built-in
estimators aggregate the latest samples of a window, each dimension on its own; an estimator that
only answers for one dimension of a host at a time is completed by `Estimator.ofScalar`.
-/

namespace ClusterControl

/-- How the samples of a window are combined. -/
inductive Aggregation
  | average
  | maximum
  deriving DecidableEq, Repr

namespace Aggregation

variable {α : Type} [Quantity α]

def name : Aggregation → String
  | average => "average"
  | maximum => "max"

/-- The aggregation a setting names, in any letter case; an unknown name means the average. -/
def ofName (name : String) : Aggregation :=
  match String.ofList (name.toList.map Char.toLower) with
  | "max" | "maximum" => maximum
  | _ => average

/-- Adds one sample's usage to what the earlier ones came to. -/
def step (a : Aggregation) (acc usage : Resources α) : Resources α :=
  match a with
  | average => acc.zipWith Quantity.add usage
  | maximum => acc.zipWith Quantity.max usage

/-- What the samples come to as one vector; no samples come to nothing. -/
def combine (a : Aggregation) (samples : List (Sample α)) : Resources α :=
  let acc := samples.foldl (fun acc s => a.step acc s.usage) Resources.zero
  match samples, a with
  | [], _ => Resources.zero
  | _, average => (acc.map fun x => Quantity.div x (Quantity.ofNat samples.length)).clamped
  | _, maximum => acc.clamped

end Aggregation

/-- Demand of machines and own usage of hosts. -/
structure Estimator (α : Type) where
  name : String
  /-- Number of most recent samples considered. -/
  window : Nat
  demand : Vm α → Resources α
  /-- What the host itself uses of one dimension. -/
  hostUsage : Host α → Resource → α
  /-- What the host itself uses. -/
  overhead : Host α → Resources α

namespace Estimator

variable {α : Type} [Quantity α]

/-- An estimator whose host overhead is built one dimension at a time, negative answers raised to
zero. -/
def ofScalar (name : String) (window : Nat) (demand : Vm α → Resources α)
    (hostUsage : Host α → Resource → α) : Estimator α :=
  { name, window, demand, hostUsage
    overhead := fun h =>
      Resource.all.foldl (fun v r => v.set r (hostUsage h r)) Resources.zero }

/-- The window an estimator uses when asked for `window` samples of histories of the given
capacity: never more than the capacity, unless that is zero, and never none. -/
def effectiveWindow (window historyCapacity : Nat) : Nat :=
  max 1 (if 0 < historyCapacity then min window historyCapacity else window)

/-- Aggregates the latest samples of a window. -/
def windowed (a : Aggregation) (window : Nat) : Estimator α :=
  { name := a.name, window
    demand := fun vm => a.combine (vm.history.latest window)
    hostUsage := fun h r => (a.combine (h.history.latest window)).get r
    overhead := fun h => a.combine (h.history.latest window) }

/-- The estimator that settings describe. -/
def ofName (name : String) (window historyCapacity : Nat) : Estimator α :=
  windowed (.ofName name) (effectiveWindow window historyCapacity)

/-- The machines' demands, summed in key order, plus the host's own usage. -/
def utilization (e : Estimator α) (h : Host α) : Resources α :=
  (Resources.sum (h.vms.values.map e.demand)).add (e.overhead h)

/-- The utilization as fractions of the host's capacity. -/
def normalized (e : Estimator α) (h : Host α) : Resources α :=
  (e.utilization h).divide h.capacity

end Estimator

end ClusterControl
