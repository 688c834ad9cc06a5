/-!
Reasons for which a call is not routed to any method.
-/

namespace Interpose

inductive Refusal where
  | noSuchMethod
  | notBridgeable
  | noImplementation
deriving DecidableEq, Repr

def Refusal.text : Refusal → String
  | noSuchMethod => "no such method"
  | notBridgeable => "method can not be called through"
  | noImplementation => "method has no implementation"

end Interpose
