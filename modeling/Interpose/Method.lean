import Interpose.Text.Quoted
import Interpose.Value

/-!
Method declarations: name, parameters, result, modifiers and the levels at which a method exists.

A declaration says whether it has a body but does not hold one. Bodies live in a table of code that is looked
up by the declaration's serial number, so declarations are plain data and can be compared.
-/

namespace Interpose

/-- A range of API levels, open where a bound is missing. -/
structure Window where
  min : Option Nat
  max : Option Nat
deriving DecidableEq, Repr

namespace Window

def unbounded : Window := ⟨none, none⟩

/-- Whether a level lies within the bounds, which both belong to the window. -/
def admits (w : Window) (level : Nat) : Bool :=
  w.min.all (· ≤ level) && w.max.all (level ≤ ·)

end Window

structure Modifiers where
  isStatic : Bool
  isFinal : Bool
  isAbstract : Bool
  isPrivate : Bool
  isNative : Bool
deriving DecidableEq

namespace Modifiers

def none : Modifiers := ⟨false, false, false, false, false⟩

def named (m : Modifiers) : List (Bool × String × Nat) :=
  [(m.isStatic, "STATIC", 1), (m.isFinal, "FINAL", 2), (m.isAbstract, "ABSTRACT", 4),
    (m.isPrivate, "PRIVATE", 8), (m.isNative, "NATIVE", 16)]

def bits (m : Modifiers) : Nat :=
  (m.named.filter (·.1)).foldl (fun total flag => total + flag.2.2) 0

def describe (m : Modifiers) : String :=
  let names := (m.named.filter (·.1)).map (·.2.1)
  "MethodModifiers(" ++ (if names.isEmpty then "0x0" else " | ".intercalate names) ++ ")"

end Modifiers

/-- What tells the methods of one type apart at a call: name and parameter kinds. -/
structure MethodKey where
  name : String
  params : List Kind
deriving DecidableEq

namespace MethodKey

def text (k : MethodKey) : String :=
  k.name ++ Kind.paramsText k.params

/-- The order of keys: by name, then by parameters. -/
def compare (a b : MethodKey) : Ordering :=
  (Ord.compare a.name b.name).then (Kind.compareLists a.params b.params)

def sort (keys : List MethodKey) : List MethodKey :=
  keys.mergeSort fun a b => compare a b != .gt

end MethodKey

structure Method where
  name : String
  params : List Kind
  returns : Kind
  modifiers : Modifiers
  window : Window
  hasBody : Bool
  /-- Identifies the declaration: no two declarations share a serial number. -/
  serial : Nat
deriving DecidableEq

namespace Method

def key (m : Method) : MethodKey := ⟨m.name, m.params⟩

/-- Whether a method belongs to its type and not to the objects of that type. -/
def isStatic (m : Method) : Bool := m.modifiers.isStatic

def availableAt (m : Method) (level : Nat) : Bool := m.window.admits level

/-- Whether a bridge may stand in for a method: it is overridable and has a body. -/
def isBridgeable (m : Method) : Bool :=
  m.modifiers = Modifiers.none && m.hasBody

def signature (m : Method) : String :=
  m.key.text ++ " -> " ++ m.returns.text

def describe (m : Method) : String :=
  Text.record "MethodDescriptor"
    [("signature", Text.quoted m.signature), ("modifiers", m.modifiers.describe),
      ("min_api", Text.option (m.window.min.map toString)),
      ("max_api", Text.option (m.window.max.map toString)),
      ("has_body", Text.bool m.hasBody)]

end Method

end Interpose
