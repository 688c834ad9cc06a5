import Interpose.Method

/-!
Calls: who is called, what is asked for, and the shape under which a routing is remembered.
-/

namespace Interpose

inductive Receiver where
  | instance (handle : ObjectHandle)
  | type (typeId : String)
deriving DecidableEq

def Receiver.handle? : Receiver → Option ObjectHandle
  | .instance handle => some handle
  | .type _ => none

/-- Whether shadows take part in a call. -/
inductive Request where
  | normal
  | real
deriving DecidableEq, Repr

/-- The shape of a call: all that its routing depends on. -/
structure CallSite where
  runtimeType : String
  method : MethodKey
  isStatic : Bool
  request : Request
deriving DecidableEq

def CallSite.text (s : CallSite) : String :=
  s.runtimeType ++ (if s.isStatic then "::" else ".") ++ s.method.text ++
    match s.request with
    | .normal => ""
    | .real => " [original]"

/-- What a method body sees of the call that runs it. -/
structure Frame where
  receiver : Receiver
  runtimeType : String
  method : String
  arguments : List Value
deriving DecidableEq

end Interpose
