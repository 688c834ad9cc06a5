import Interpose.Call.Overload

/-!
Bridges: the real methods of a type that calls on its objects can be passed on to.

Only the nearest declaration of a signature counts. If that one is final, private or without a body, the
signature is not in the bridge at all, even if a farther type declares it too.
-/

namespace Interpose

/-- The methods to which calls on the objects of a type can be passed on. -/
structure Bridge where
  real : String
  level : Nat
  /-- The bridged methods, nearest declaring type first and in declaration order. -/
  targets : List Target
deriving DecidableEq

namespace Bridge

def visible (h : Hierarchy) (level : Nat) (typeId : String) : List Target :=
  (h.lineage typeId).flatMap fun t =>
    (t.2.methods.filter fun m => !m.isStatic && m.availableAt level).map (⟨t.1, ·⟩)

/-- The bridge of a type that can be extended. -/
def synthesize (h : Hierarchy) (level : Nat) (typeId : String) : Except Error Bridge :=
  match h.require typeId with
  | .error e => .error e
  | .ok decl =>
    if decl.isFinal then
      .error (.misconfigured ("Type " ++ typeId ++ " is final and can not be proxied"))
    else
      .ok ⟨typeId, level, (firstPerKey (·.method.key) (visible h level typeId)).filter
        (·.method.isBridgeable)⟩

def size (b : Bridge) : Nat := b.targets.length

/-- Whether a bridge holds a method with the owner, the name and the parameters of a target. -/
def exposes (b : Bridge) (target : Target) : Bool :=
  b.targets.any fun t => t.owner == target.owner && t.method.key = target.method.key

def exposesName (b : Bridge) (name : String) : Bool :=
  b.targets.any (·.method.name == name)

/-- The bridged methods as candidates for a call; no two of them share a signature. -/
def groups (b : Bridge) : List CandidateGroup :=
  b.targets.map fun t => (t.owner, [t.method])

def describe (b : Bridge) : String :=
  Text.record "ProxyFactory"
    [("real_type", Text.quoted b.real), ("api_level", toString b.level),
      ("methods", Text.list (b.targets.map (·.text)))]

end Bridge

end Interpose
