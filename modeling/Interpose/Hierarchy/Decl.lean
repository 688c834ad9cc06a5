import Interpose.Method

/-!
Type declarations: what one type declares by itself, without what it inherits.
-/

namespace Interpose

abbrev Field := String × Value

/-- What a type declares. The id of a type is kept beside its declaration. -/
structure TypeDecl where
  parent : Option String
  isFinal : Bool
  /-- Declared abstract. -/
  isAbstract : Bool
  /-- Declared as an interface, which is abstract as well. -/
  isInterface : Bool
  statics : List Field
  fields : List Field
  methods : List Method
deriving DecidableEq

namespace TypeDecl

/-- Whether no object can have exactly this type. -/
def hasNoInstances (d : TypeDecl) : Bool := d.isAbstract || d.isInterface

/-- The flags of a type as a sum of bits; an interface also carries the abstract bit. -/
def bits (d : TypeDecl) : Nat :=
  (if d.isFinal then 1 else 0) + (if d.isAbstract || d.isInterface then 2 else 0) +
    (if d.isInterface then 4 else 0)

/-- The methods of a name, in declaration order. -/
def named (d : TypeDecl) (name : String) : List Method :=
  d.methods.filter (·.name == name)

end TypeDecl

/-- The package of a type: its id up to the last dot, empty without a dot. -/
def packageOf (typeId : String) : String :=
  String.ofList ((typeId.toList.reverse.dropWhile (· ≠ '.')).drop 1).reverse

end Interpose
