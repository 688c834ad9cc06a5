import Interpose.Shadow

/-!
Bindings: a shadow put in place of a real type, with the policies that apply there.
-/

namespace Interpose

/-- A shadow bound to a real type. -/
structure Binding where
  real : String
  shadow : Shadow
  /-- Whether calls that no shadow method takes go on to the real method. -/
  callsThrough : Bool
  /-- Whether the methods of parent shadows take part. -/
  inheritsMethods : Bool
  /-- Whether arguments may be converted to find a shadow method. -/
  looseSignatures : Bool
  window : Window
deriving DecidableEq

abbrev CandidateGroup := String × List Method

namespace Binding

def bind (real : String) (shadow : Shadow) : Binding where
  real := real
  shadow := shadow
  callsThrough := shadow.own.callsThrough
  inheritsMethods := shadow.own.inheritsMethods
  looseSignatures := shadow.own.looseSignatures
  window := shadow.own.window

def ofShadow (shadow : Shadow) : Binding := bind shadow.own.implements shadow

def admits (b : Binding) (level : Nat) : Bool := b.window.admits level

/-- The layers whose methods may take a call, nearest first. -/
def activeLayers (b : Binding) : List ShadowLayer :=
  if b.inheritsMethods then b.shadow.chain else [b.shadow.own]

def groups (b : Binding) : List CandidateGroup :=
  b.activeLayers.map fun layer => (layer.id, layer.methods)

end Binding

end Interpose
