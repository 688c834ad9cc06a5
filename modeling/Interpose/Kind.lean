import Interpose.Text.Layout

/-!
Kinds: the static shape of a value, as a method declares it for a parameter or as a call shows it for an
argument. Numeric primitives form a ladder along which values widen.
-/

namespace Interpose

inductive Primitive where
  | bool | char | i8 | i16 | i32 | i64 | f32 | f64
deriving DecidableEq, Repr

namespace Primitive

def name : Primitive → String
  | bool => "bool"
  | char => "char"
  | i8 => "i8"
  | i16 => "i16"
  | i32 => "i32"
  | i64 => "i64"
  | f32 => "f32"
  | f64 => "f64"

def position : Primitive → Nat
  | bool => 0
  | char => 1
  | i8 => 2
  | i16 => 3
  | i32 => 4
  | i64 => 5
  | f32 => 6
  | f64 => 7

def rung? : Primitive → Option Nat
  | bool | char => none
  | i8 => some 0
  | i16 => some 1
  | i32 => some 2
  | i64 => some 3
  | f32 => some 4
  | f64 => some 5

/-- The rung a primitive starts from: a character widens as if it stood one rung below `i32`. -/
def start? : Primitive → Option Nat
  | char => some 1
  | p => p.rung?

/-- The number of widening steps from one primitive to another, if that widens at all. -/
def wideningSteps? (source target : Primitive) : Option Nat :=
  if source = target then some 0
  else
    match source.start?, target.rung? with
    | some low, some high => if low < high then some (high - low) else none
    | _, _ => none

end Primitive

inductive Kind where
  | void
  /-- The null reference; arguments have this kind, parameters never declare it. -/
  | null
  | primitive (p : Primitive)
  | boxed (p : Primitive)
  | string
  | object (typeId : String)
  | any
deriving DecidableEq, Repr

namespace Kind

/-- Whether values of this kind are references, and so may be null. -/
def isReference : Kind → Bool
  | void | primitive _ => false
  | null | boxed _ | string | object _ | any => true

def text : Kind → String
  | void => "void"
  | null => "null"
  | primitive p => p.name
  | boxed p => "boxed<" ++ p.name ++ ">"
  | string => "string"
  | object typeId => typeId
  | any => "any"

def position : Kind → Nat
  | void => 0
  | null => 1
  | primitive _ => 2
  | boxed _ => 3
  | string => 4
  | object _ => 5
  | any => 6

/-- The order of kinds: by form, then by primitive or by type id. -/
def compare : Kind → Kind → Ordering
  | primitive p, primitive q => Ord.compare p.position q.position
  | boxed p, boxed q => Ord.compare p.position q.position
  | object s, object t => Ord.compare s t
  | a, b => Ord.compare a.position b.position

/-- The order of parameter lists: by the first kind that differs, a list before its extensions. -/
def compareLists : List Kind → List Kind → Ordering
  | [], [] => .eq
  | [], _ :: _ => .lt
  | _ :: _, [] => .gt
  | a :: as, b :: bs => (compare a b).then (compareLists as bs)

def paramsText (params : List Kind) : String :=
  Text.tuple (params.map text)

end Kind

end Interpose
