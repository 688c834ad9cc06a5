import Interpose.Method

/-!
Shadows: stand-in implementations of the methods of a real type.

A shadow may extend another shadow, so it is a chain of layers, each of which contributes methods of its own
and may have something to reset after every test.
-/

namespace Interpose

/-- What one shadow contributes by itself. -/
structure ShadowLayer where
  id : String
  /-- The type that the shadow stands in for unless it is bound to another one. -/
  implements : String
  /-- Whether calls that no shadow method takes go on to the real method. -/
  callsThrough : Bool
  /-- Whether the methods of parent shadows take part. -/
  inheritsMethods : Bool
  /-- Whether arguments may be converted to find a method. -/
  looseSignatures : Bool
  window : Window
  methods : List Method
  hasResetter : Bool
  /-- Identifies the shadow: no two shadows share a serial number. -/
  serial : Nat
deriving DecidableEq

/-- A shadow with the shadows it extends, nearest first. -/
structure Shadow where
  own : ShadowLayer
  parents : List ShadowLayer
deriving DecidableEq

namespace Shadow

def chain (s : Shadow) : List ShadowLayer := s.own :: s.parents

def id (s : Shadow) : String := s.own.id

def parent? (s : Shadow) : Option ShadowLayer := s.parents.head?

def extending (own : ShadowLayer) (parent : Shadow) : Shadow := ⟨own, parent.chain⟩

def alone (own : ShadowLayer) : Shadow := ⟨own, []⟩

def describe (s : Shadow) : String :=
  Text.record "ShadowType"
    [("id", Text.quoted s.own.id), ("implements", Text.quoted s.own.implements),
      ("parent", Text.option (s.parent?.map fun p => Text.quoted p.id)),
      ("call_through_by_default", Text.bool s.own.callsThrough),
      ("inherit_implementation_methods", Text.bool s.own.inheritsMethods),
      ("loose_signatures", Text.bool s.own.looseSignatures),
      ("methods", toString s.own.methods.length),
      ("has_resetter", Text.bool s.own.hasResetter)]

end Shadow

end Interpose
