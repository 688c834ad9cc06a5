import Interpose.Call.Dispatcher
import Interpose.Memory

/-!
Programs: what tasks, method bodies and resetters do, as trees of operations on the sandbox that runs them.

A program chooses an operation, receives its answer and goes on from there. It can end with a result or panic.
Failures of operations are answers like any other, so a program may pass them on or carry on.
-/

namespace Interpose

inductive Op where
  | create (typeId : String)
  | typeOf (handle : ObjectHandle)
  | kindOf (value : Value)
  | getField (handle : ObjectHandle) (field : String)
  | setField (handle : ObjectHandle) (field : String) (value : Value)
  | getStatic (typeId field : String)
  | setStatic (typeId field : String) (value : Value)
  | getShadowStatic (shadowId key : String)
  | setShadowStatic (shadowId key : String) (value : Value)
  /-- Makes a call. -/
  | call (receiver : Receiver) (method : String) (arguments : List Value) (request : Request)
  /-- Gives the shape of a call without making it. -/
  | site (receiver : Receiver) (method : String) (arguments : List Value) (request : Request)
  /-- Tells where a normal call would go without making it. -/
  | resolve (receiver : Receiver) (method : String) (arguments : List Value)
  /-- Gives the bridge of a type. -/
  | bridge (typeId : String)
  /-- Calls a method of a bridge by name. -/
  | callBridge (bridge : Bridge) (handle : ObjectHandle) (method : String) (arguments : List Value)
  /-- Calls a given target by way of a bridge. -/
  | callTarget (bridge : Bridge) (handle : ObjectHandle) (target : Target) (arguments : List Value)
  /-- Looks at the memory as it is now. -/
  | inspect
  /-- Looks at what the routing of calls depends on. -/
  | setting
  /-- Looks at the dispatcher with all that it remembers. -/
  | dispatcher
  /-- Puts a registry in force from within running code. -/
  | install (registry : Registry)
  /-- Tells where a call of a given shape would go. -/
  | resolveSite (site : CallSite)
  /-- Forgets all decisions and bridges. -/
  | forget
  | level
  | sandboxId
  /-- Traces a value. -/
  | trace (value : Value)
  /-- Records the value of a step of the task. -/
  | record (value : Value)
  /-- Draws from a named counter. -/
  | draw (counter : String)

def Op.Answer : Op → Type
  | create _ => Except Error ObjectHandle
  | typeOf _ => Except Error String
  | kindOf _ => Except Error Kind
  | getField .. | getStatic .. => Except Error Value
  | setField .. | setStatic .. => Except Error Unit
  | getShadowStatic .. => Option Value
  | setShadowStatic .. => Unit
  | call .. | callBridge .. | callTarget .. => Except Error Value
  | site .. => Except Error CallSite
  | resolve .. | resolveSite _ => Except Error Decision
  | bridge _ => Except Error Bridge
  | inspect => Memory
  | setting => Setting
  | dispatcher => Dispatcher
  | install _ => KeySet
  | forget => Unit
  | level | sandboxId | draw _ => Nat
  | trace _ | record _ => Unit

/-- A program with a result of type `α`. -/
inductive Program (α : Type) where
  | done (result : α)
  /-- Gives up at once; a payload that is not a text is kept as `none`. -/
  | panic (payload : Option String)
  | perform (op : Op) (next : op.Answer → Program α)

namespace Program

variable {α β : Type}

def bind : Program α → (α → Program β) → Program β
  | done result, f => f result
  | panic payload, _ => panic payload
  | perform op next, f => perform op fun answer => (next answer).bind f

instance : Monad Program where
  pure := done
  bind := bind

def ask (op : Op) : Program op.Answer := perform op done

end Program

/-- What all programs of a run are made of: the bodies of methods and the resetters of shadows, by serial
number, and how deep calls may nest. -/
structure Code where
  body : Nat → Frame → Program (Except Error Value)
  resetter : Nat → Program (Except Error Unit)
  depth : Nat

end Interpose
