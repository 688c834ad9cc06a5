import Interpose.Hierarchy.Basic

/-!
What it costs to pass an argument where a parameter of another kind is declared. Costs are natural numbers, so that no
total overflows.
-/

namespace Interpose.Hierarchy

/-- The cost of passing an argument of one kind to a parameter of another, if that is possible at all.
Nothing is cheaper than the same kind; objects cost one for each step to an ancestor. -/
def conversionCost? (h : Hierarchy) (argument parameter : Kind) : Option Nat :=
  if argument = parameter then some 0
  else
    match argument, parameter with
    | .primitive p, .primitive q => p.wideningSteps? q
    | .primitive p, .boxed q => if p = q then some 1 else none
    | .boxed p, .primitive q => (p.wideningSteps? q).map (· + 1)
    | .null, target => if target.isReference then some 1 else none
    | .object s, .object t => (h.ancestors s).findIdx? (· == t)
    | .primitive _, .any => some 2
    | .boxed _, .any | .string, .any | .object _, .any => some 1
    | _, _ => none

/-- The total cost of passing arguments to parameters, if there are as many and each can be passed. -/
def totalCost? (h : Hierarchy) : List Kind → List Kind → Option Nat
  | [], [] => some 0
  | a :: arguments, p :: parameters =>
    match h.conversionCost? a p, totalCost? h arguments parameters with
    | some cost, some rest => some (cost + rest)
    | _, _ => none
  | _, _ => none

end Interpose.Hierarchy
