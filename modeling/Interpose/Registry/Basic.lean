import Interpose.Distinct
import Interpose.Hierarchy.Basic
import Interpose.Registry.Binding

/-!
Registries: at most one binding for each real type, and what changes when one registry replaces another.
-/

namespace Interpose

/-- The bindings in force, by real type. -/
structure Registry where
  bindings : KeyMap Binding
deriving DecidableEq

/-- The binding that a type falls under, and the types looked at to find it. -/
structure Lookup where
  binding? : Option Binding
  consulted : List String
deriving DecidableEq

namespace Registry

def empty : Registry := ⟨KeyMap.empty⟩

instance : Inhabited Registry := ⟨empty⟩

def get? (r : Registry) (real : String) : Option Binding := r.bindings.get? real

def contains (r : Registry) (real : String) : Bool := r.bindings.contains real

def size (r : Registry) : Nat := r.bindings.size

def inForce? (r : Registry) (level : Nat) (real : String) : Option Binding :=
  (r.get? real).filter (·.admits level)

def lookupAlong (r : Registry) (level : Nat) : List String → Lookup
  | [] => ⟨none, []⟩
  | typeId :: rest =>
    match r.inForce? level typeId with
    | some binding => ⟨some binding, [typeId]⟩
    | none =>
      let further := lookupAlong r level rest
      ⟨further.binding?, typeId :: further.consulted⟩

/-- The binding that a type falls under: its own or that of its nearest ancestor in force at the level. -/
def lookup (r : Registry) (h : Hierarchy) (level : Nat) (typeId : String) : Lookup :=
  r.lookupAlong level (h.ancestors typeId)

/-- The real types that two registries do not bind alike. -/
def changed (r previous : Registry) : KeySet :=
  KeySet.ofKeys ((r.bindings.keys ++ previous.bindings.keys).filter fun real =>
    r.get? real ≠ previous.get? real)

/-- The shadows in use with their parents, each id once, by real type and then from child to parent. -/
def shadows (r : Registry) : List ShadowLayer :=
  firstPerKey (·.id) (r.bindings.values.flatMap (·.shadow.chain))

end Registry

end Interpose
