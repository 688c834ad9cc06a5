import Interpose.Call.Decision
import Interpose.Hierarchy.Conversion
import Interpose.Registry.Binding

/-!
Overload selection: which of the methods that share a name takes a call.

Candidates come in groups, nearest first. A method whose parameter kinds are those of the arguments wins, from
the first group that has one. Failing that, and where arguments may be converted, the cheapest conversion wins,
and of equally cheap ones the first. A winner that its own group declares twice makes the call ambiguous.
-/

namespace Interpose

/-- What is asked of a candidate. -/
structure Criteria where
  method : MethodKey
  isStatic : Bool
  level : Nat
  /-- Whether arguments may be converted. -/
  loose : Bool

/-- The first of the items with the least cost, with its cost; items without a cost are left out. -/
def cheapest? {α : Type} (cost : α → Option Nat) : List α → Option (α × Nat)
  | [] => none
  | a :: rest =>
    match cost a, cheapest? cost rest with
    | none, best => best
    | some c, none => some (a, c)
    | some c, some (b, d) => if d < c then some (b, d) else some (a, c)

namespace Criteria

/-- Whether a method takes part: it has the name, is static or not as asked, and exists at the level. -/
def considers (c : Criteria) (m : Method) : Bool :=
  m.name == c.method.name && m.isStatic == c.isStatic && m.availableAt c.level

def candidates (c : Criteria) (groups : List CandidateGroup) : List (CandidateGroup × Method) :=
  groups.flatMap fun g => (g.2.filter c.considers).map (g, ·)

def identical? (c : Criteria) (groups : List CandidateGroup) : Option (CandidateGroup × Method) :=
  (c.candidates groups).find? fun candidate => candidate.2.params = c.method.params

/-- The first candidate that the arguments convert to at the least cost. -/
def converted? (c : Criteria) (h : Hierarchy) (groups : List CandidateGroup) :
    Option (CandidateGroup × Method) :=
  (cheapest? (fun candidate => h.totalCost? c.method.params candidate.2.params)
    (c.candidates groups)).map (·.1)

/-- The winning candidate. -/
def winner? (c : Criteria) (h : Hierarchy) (groups : List CandidateGroup) :
    Option (CandidateGroup × Method) :=
  match c.identical? groups with
  | some winner => some winner
  | none => if c.loose then c.converted? h groups else none

/-- The methods of a group that share the parameters of one of them and take part as well. -/
def rivals (c : Criteria) (group : CandidateGroup) (winner : Method) : List Target :=
  ((group.2.filter c.considers).filter (·.params = winner.params)).map (⟨group.1, ·⟩)

/-- Selects the target of a call, if any candidate takes it. -/
def select (c : Criteria) (h : Hierarchy) (groups : List CandidateGroup) (runtimeType : String) :
    Except Error (Option Target) :=
  match c.winner? h groups with
  | none => .ok none
  | some (group, winner) =>
    if 1 < (c.rivals group winner).length then
      .error (.ambiguous runtimeType c.method.name ((c.rivals group winner).map (·.text)))
    else .ok (some ⟨group.1, winner⟩)

end Criteria

end Interpose
