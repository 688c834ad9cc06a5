import Interpose.Method
import Interpose.Refusal

/-!
Decisions: where a call goes.
-/

namespace Interpose

/-- A method together with the type or shadow that declares it. -/
structure Target where
  owner : String
  method : Method
deriving DecidableEq

def Target.text (t : Target) : String := t.owner ++ "::" ++ t.method.signature

inductive Decision where
  | shadow (target : Target)
  /-- To the real method; `bridged` says that the call passes the bridge of the runtime type. -/
  | through (target : Target) (bridged : Bool)
  /-- Nowhere: the call gives the default value of the kind that the real method returns. -/
  | noOp (returns : Kind)
  | refuse (reason : Refusal)
deriving DecidableEq

namespace Decision

def target? : Decision → Option Target
  | shadow target | through target _ => some target
  | noOp _ | refuse _ => none

def text : Decision → String
  | shadow target => "shadow " ++ target.text
  | through target true => "call-through " ++ target.text
  | through target false => "pass-through " ++ target.text
  | noOp returns => "no-op -> " ++ returns.text
  | refuse reason => "fail (" ++ reason.text ++ ")"

end Decision

end Interpose
