import Interpose.Distinct
import Interpose.Error
import Interpose.Hierarchy.Decl
import Interpose.KeyMap

/-!
The closed set of types that calls are made on.

A type extends at most one other, so the ancestors of a type form a walk. `Hierarchy.ofList` accepts a list of
declarations if ids are distinct, parents are declared and not final, and no walk comes back to a type it has
visited. The outcome is part of the type: every `Hierarchy` is free of these faults.
-/

namespace Interpose

/-- The first `n` stops of the walk from a type to its parent and on. -/
def walk (parent? : String → Option String) : Nat → String → List String
  | 0, _ => []
  | n + 1, typeId =>
    typeId :: match parent? typeId with
      | none => []
      | some parent => walk parent? n parent

/-- The parent that a set of declarations gives to a type. -/
def parentIn (decls : KeyMap TypeDecl) (typeId : String) : Option String :=
  (decls.get? typeId).bind (·.parent)

/-- The walk from a type in a set of declarations; one step more than there are types is enough to tell
whether it ends. -/
def walkIn (decls : KeyMap TypeDecl) (typeId : String) : List String :=
  walk (parentIn decls) (decls.size + 1) typeId

/-- What is wrong with the parent of a declared type. -/
def parentFault? (decls : KeyMap TypeDecl) (typeId : String) (decl : TypeDecl) : Option Error :=
  match decl.parent with
  | none => none
  | some parent =>
    match decls.get? parent with
    | none =>
      some (.misconfigured ("Type " ++ typeId ++ " extends unknown type " ++ parent))
    | some above =>
      if above.isFinal then
        some (.misconfigured ("Type " ++ typeId ++ " extends final type " ++ parent))
      else if (walkIn decls typeId).Nodup then none
      else some (.misconfigured ("Type hierarchy of " ++ typeId ++ " contains a cycle"))

/-- A set of type declarations without faults. -/
structure Hierarchy where
  decls : KeyMap TypeDecl
  /-- No declared type has a fault in its parent. -/
  sound : ∀ e ∈ decls.entries, parentFault? decls e.1 e.2 = none

namespace Hierarchy

/-- Declarations by id, as long as no id comes twice. -/
def collect : List (String × TypeDecl) → KeyMap TypeDecl → Except Error (KeyMap TypeDecl)
  | [], decls => .ok decls
  | (typeId, decl) :: rest, decls =>
    if decls.contains typeId then
      .error (.misconfigured ("Type " ++ typeId ++ " is declared more than once"))
    else collect rest (decls.insert typeId decl)

/-- The hierarchy of a set of declarations, or the fault of the first type that has one. -/
def ofDecls (decls : KeyMap TypeDecl) : Except Error Hierarchy :=
  match h : decls.entries.findSome? fun e => parentFault? decls e.1 e.2 with
  | some fault => .error fault
  | none => .ok ⟨decls, by simpa using h⟩

def ofList (decls : List (String × TypeDecl)) : Except Error Hierarchy :=
  match collect decls KeyMap.empty with
  | .error fault => .error fault
  | .ok collected => ofDecls collected

def get? (h : Hierarchy) (typeId : String) : Option TypeDecl := h.decls.get? typeId

def contains (h : Hierarchy) (typeId : String) : Bool := h.decls.contains typeId

/-- The declaration of a type that has to be there. -/
def require (h : Hierarchy) (typeId : String) : Except Error TypeDecl :=
  match h.get? typeId with
  | some decl => .ok decl
  | none => .error (.typeNotFound typeId)

/-- The ids of all types, in order. -/
def ids (h : Hierarchy) : List String := h.decls.keys

def size (h : Hierarchy) : Nat := h.decls.size

def parent? (h : Hierarchy) (typeId : String) : Option String := parentIn h.decls typeId

/-- A type and its ancestors, nearest first. A type that is not declared has no ancestors but itself. -/
def ancestors (h : Hierarchy) (typeId : String) : List String := walkIn h.decls typeId

/-- Whether a type is another one or extends it, directly or not. -/
def isSubtype (h : Hierarchy) (typeId ancestor : String) : Bool :=
  (h.ancestors typeId).contains ancestor

/-- The declarations of a type and its ancestors with their ids, nearest first. -/
def lineage (h : Hierarchy) (typeId : String) : List (String × TypeDecl) :=
  (h.ancestors typeId).filterMap fun t => (h.get? t).map (t, ·)

/-- The fields of the objects of a type. Of fields that share a name the nearest declaration counts, and the
first one within a type. -/
def instanceFields (h : Hierarchy) (typeId : String) : Except Error (List Field) :=
  match h.require typeId with
  | .error e => .error e
  | .ok _ => .ok (firstPerKey (·.1) ((h.lineage typeId).flatMap (·.2.fields)))

end Hierarchy

end Interpose
