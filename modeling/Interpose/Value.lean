import Interpose.Decimal.Shortest
import Interpose.Kind

/-!
Values that calls carry as arguments and results.

Floating-point values are kept as bit patterns. Two notions of sameness live side by side: `=` tells every two
bit patterns apart, `sameAs` compares floats as numbers.
-/

namespace Interpose

/-- A handle to an object, valid for one generation of the memory that issued it. -/
structure ObjectHandle where
  id : Nat
  generation : Nat
deriving DecidableEq, Repr

def ObjectHandle.text (h : ObjectHandle) : String :=
  "#" ++ toString h.id ++ "@" ++ toString h.generation

inductive Value where
  | void
  | null
  | bool (b : Bool)
  | char (c : Char)
  | i8 (n : Int8)
  | i16 (n : Int16)
  | i32 (n : Int32)
  | i64 (n : Int64)
  /-- A 32-bit float, by its bit pattern. -/
  | f32 (bits : UInt32)
  /-- A 64-bit float, by its bit pattern. -/
  | f64 (bits : UInt64)
  | string (s : String)
  | boxed (inner : Value)
  | object (handle : ObjectHandle)
deriving DecidableEq

namespace Value

instance : Inhabited Value := ⟨void⟩

/-- Equality of values, with floats compared as numbers: no value equals a float that is not a number, and
the two zeros are equal. -/
def sameAs : Value → Value → Bool
  | f32 a, f32 b => Decimal.equal Decimal.single a.toNat b.toNat
  | f64 a, f64 b => Decimal.equal Decimal.double a.toNat b.toNat
  | boxed a, boxed b => sameAs a b
  | a, b => a = b

/-- The value that stands for a kind where nothing better is known: zero for primitives, null for
references. -/
def defaultFor : Kind → Value
  | .void => void
  | .primitive .bool => bool false
  | .primitive .char => char '\x00'
  | .primitive .i8 => i8 0
  | .primitive .i16 => i16 0
  | .primitive .i32 => i32 0
  | .primitive .i64 => i64 0
  | .primitive .f32 => f32 0
  | .primitive .f64 => f64 0
  | .null | .boxed _ | .string | .object _ | .any => null

def primitive? : Value → Option Primitive
  | bool _ => some .bool
  | char _ => some .char
  | i8 _ => some .i8
  | i16 _ => some .i16
  | i32 _ => some .i32
  | i64 _ => some .i64
  | f32 _ => some .f32
  | f64 _ => some .f64
  | void | null | string _ | boxed _ | object _ => none

/-- The kind of a value as far as it shows without a memory: an object may have any type. -/
def kind (v : Value) : Kind :=
  match v.primitive?, v with
  | some p, _ => .primitive p
  | none, void => .void
  | none, null => .null
  | none, string _ => .string
  | none, boxed inner => (inner.primitive?.map Kind.boxed).getD .any
  | none, _ => .any

def i32? : Value → Option Int32
  | i32 n => some n
  | _ => none

def i64? : Value → Option Int64
  | i64 n => some n
  | _ => none

def bool? : Value → Option Bool
  | bool b => some b
  | _ => none

def string? : Value → Option String
  | string s => some s
  | _ => none

def object? : Value → Option ObjectHandle
  | object h => some h
  | _ => none

def isNull : Value → Bool
  | null => true
  | _ => false

def text : Value → String
  | void => "void"
  | null => "null"
  | bool b => Text.bool b
  | char c => "'" ++ c.toString ++ "'"
  | i8 n => toString n.toInt ++ "i8"
  | i16 n => toString n.toInt ++ "i16"
  | i32 n => toString n.toInt
  | i64 n => toString n.toInt ++ "L"
  | f32 bits => Decimal.text Decimal.single bits.toNat ++ "f"
  | f64 bits => Decimal.text Decimal.double bits.toNat
  | string s => "\"" ++ s ++ "\""
  | boxed inner => "box(" ++ text inner ++ ")"
  | object h => h.text

end Value

end Interpose
