import Interpose.Call.Site

/-!
The expressions in which bodies, resetters and tasks are written.
-/

namespace Interpose.Script

/-- Facts about the memory that an expression can ask for. -/
inductive Fact where
  | generation
  | liveObjects
  | loadedTypes
  | isPristine
  | violations
  | pristineCheck
deriving DecidableEq, Repr

mutual

inductive Expr where
  | literal (value : Value)
  | argument (index : Nat)
  | argumentCount
  | this
  | runtimeType
  | methodName
  | assign (name : String) (value : Expr)
  | read (name : String)
  | sequence (parts : List Expr)
  | choose (condition ifTrue ifFalse : Expr)
  | equal (left right : Expr)
  | text (value : Expr)
  | addInt32 (value : Expr) (summand : Int32)
  | addInt64 (value : Expr) (summand : Int64)
  | getField (object : Expr) (field : String)
  | setField (object : Expr) (field : String) (value : Expr)
  | getStatic (typeId field : String)
  | setStatic (typeId field : String) (value : Expr)
  | getShadowStatic (shadowId key : String)
  | setShadowStatic (shadowId key : String) (value : Expr)
  | create (typeId : String)
  | call (receiver : ReceiverExpr) (method : String) (arguments : List Expr) (request : Request)
  | fail (typeId method message : String)
  | panic (payload : Option String)
  | attempt (value : Expr)
  | trace (value : Expr)
  /-- Takes the options one after another each time it is evaluated, the last one from then on. -/
  | nth (counter : String) (options : List Expr)
  | typeOf (object : Expr)
  | kindOf (value : Expr)
  | site (receiver : ReceiverExpr) (method : String) (arguments : List Expr) (request : Request)
  | resolve (receiver : ReceiverExpr) (method : String) (arguments : List Expr)
  /-- Calls a method by name by way of the bridge of a type. -/
  | callBridge (typeId : String) (object : Expr) (method : String) (arguments : List Expr)
  /-- Resolves a call and makes its target run by way of the bridge of a type. -/
  | callTarget (typeId : String) (object : Expr) (receiver : ReceiverExpr) (method : String)
      (arguments : List Expr)
  | fact (fact : Fact)
  | level
  | sandboxId
  | context

inductive ReceiverExpr where
  | type (typeId : String)
  | object (object : Expr)

end

end Interpose.Script
