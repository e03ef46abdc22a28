import ClusterControl.Resource.Vector

/-!
# Norms

A norm collapses a vector to one load, so that machines and hosts can be ranked.  The cluster
chooses one norm by name.
-/

namespace ClusterControl

inductive Norm
  /-- Sum of absolute components. -/
  | l1
  /-- Euclidean length. -/
  | euclid
  /-- Largest absolute component. -/
  | max
  deriving DecidableEq, Repr

namespace Norm

variable {α : Type} [Quantity α]

def apply (n : Norm) (v : Resources α) : α :=
  match n with
  | l1 => Quantity.sum (v.toList.map Quantity.abs)
  | euclid => Quantity.root (Quantity.sum (v.toList.map fun a => Quantity.mul a a))
  | max => (v.toList.map Quantity.abs).foldl Quantity.max Quantity.zero

/-- The name under which the norm is reported. -/
def label : Norm → String
  | l1 => "L1"
  | euclid => "Euclid"
  | max => "Max"

/-- The norm a setting names, in any letter case; an unknown name means the sum. -/
def ofName (name : String) : Norm :=
  match String.ofList (name.toList.map Char.toLower) with
  | "l1" => l1
  | "euclid" | "euclidean" | "l2" => euclid
  | "max" | "linf" => max
  | _ => l1

end Norm

end ClusterControl
