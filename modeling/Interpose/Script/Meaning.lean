import Interpose.Execution.Program
import Interpose.Sandbox.Pristine
import Interpose.Script.Expr

/-!
The meaning of expressions as programs.

Parts are evaluated from left to right and the first error ends the evaluation. Variables live as long as one
run of a body, a resetter or a task; what was assigned before an error stays assigned.
-/

namespace Interpose.Script

abbrev Variables := Table String Value

def Step (α : Type) : Type := Variables → Program (Except Error α × Variables)

namespace Step

variable {α β : Type}

/-- A step that only gives a result. -/
def result (a : α) : Step α := fun vars => .done (.ok a, vars)

def fail (e : Error) : Step α := fun vars => .done (.error e, vars)

/-- One step and, unless it fails, another one. -/
def bind (s : Step α) (f : α → Step β) : Step β := fun vars =>
  (s vars).bind fun
    | (.ok a, vars') => f a vars'
    | (.error e, vars') => .done (.error e, vars')

instance : Monad Step where
  pure := result
  bind := bind

def ask (op : Op) : Step op.Answer := fun vars =>
  .perform op fun answer => .done (.ok answer, vars)

def ofExcept : Except Error α → Step α
  | .ok a => result a
  | .error e => fail e

/-- The value of a variable; one that is not set is void. -/
def lookup (name : String) : Step Value := fun vars =>
  .done (.ok ((vars.get? name).getD .void), vars)

def assign (name : String) (value : Value) : Step Value := fun vars =>
  .done (.ok value, vars.put name value)

def attempt (s : Step Value) : Step Value := fun vars =>
  (s vars).bind fun
    | (.ok value, vars') => .done (.ok value, vars')
    | (.error e, vars') => .done (.ok (.string (e.causeName ++ ": " ++ e.message)), vars')

def handle (value : Value) : Step ObjectHandle :=
  match value.object? with
  | some h => result h
  | none => fail (.invocation "script" "object" ("not an object: " ++ value.text))

def frame (frame? : Option Frame) : Step Frame :=
  match frame? with
  | some f => result f
  | none => fail (.invocation "script" "frame" "not in a call")

end Step

def countValue (n : Nat) : Value := .i64 (Int64.ofNat n)

/-- A fact about the memory as a value. -/
def Fact.value (m : Memory) : Fact → Value
  | generation => countValue m.generation
  | liveObjects => countValue m.liveObjects
  | loadedTypes => countValue m.loadedTypes
  | isPristine => .bool m.isPristine
  | violations =>
    .string (", ".intercalate (m.violations.mergeSort fun a b => a ≤ b))
  | pristineCheck =>
    match pristineReport? m with
    | some report => .string (pristineCheckName ++ ": " ++ report)
    | none => .void

def contextText (sandboxId level : Nat) : String :=
  Text.record "ExecutionContext"
    [("sandbox_id", toString sandboxId), ("api_level", toString level)]

mutual

/-- The value of an expression, in a body with the frame of the call that runs it. -/
def Expr.eval (frame? : Option Frame) : Expr → Step Value
  | .literal value => pure value
  | .argument index => do
    let frame ← Step.frame frame?
    match frame.arguments[index]? with
    | some value => pure value
    | none =>
      Step.fail (.invocation frame.runtimeType frame.method ("missing argument " ++ toString index))
  | .argumentCount => do
    let frame ← Step.frame frame?
    pure (countValue frame.arguments.length)
  | .this => do
    let frame ← Step.frame frame?
    match frame.receiver.handle? with
    | some handle => pure (.object handle)
    | none =>
      Step.fail (.invocation frame.runtimeType frame.method "static call has no receiver")
  | .runtimeType => do
    let frame ← Step.frame frame?
    pure (.string frame.runtimeType)
  | .methodName => do
    let frame ← Step.frame frame?
    pure (.string frame.method)
  | .assign name value => do
    let v ← value.eval frame?
    Step.assign name v
  | .read name => Step.lookup name
  | .sequence parts => evalSequence frame? parts .void
  | .choose condition ifTrue ifFalse => do
    let c ← condition.eval frame?
    if c = .bool true then ifTrue.eval frame? else ifFalse.eval frame?
  | .equal left right => do
    let l ← left.eval frame?
    let r ← right.eval frame?
    pure (.bool (l.sameAs r))
  | .text value => do
    let v ← value.eval frame?
    pure (.string v.text)
  | .addInt32 value summand => do
    let v ← value.eval frame?
    pure (.i32 (v.i32?.getD 0 + summand))
  | .addInt64 value summand => do
    let v ← value.eval frame?
    pure (.i64 (v.i64?.getD 0 + summand))
  | .getField object field => do
    let handle ← Step.handle (← object.eval frame?)
    Step.ofExcept (← Step.ask (.getField handle field))
  | .setField object field value => do
    let handle ← Step.handle (← object.eval frame?)
    let v ← value.eval frame?
    Step.ofExcept (← Step.ask (.setField handle field v))
    pure .void
  | .getStatic typeId field => do
    Step.ofExcept (← Step.ask (.getStatic typeId field))
  | .setStatic typeId field value => do
    let v ← value.eval frame?
    Step.ofExcept (← Step.ask (.setStatic typeId field v))
    pure .void
  | .getShadowStatic shadowId key => do
    let value? ← Step.ask (.getShadowStatic shadowId key)
    pure (Option.getD value? .void)
  | .setShadowStatic shadowId key value => do
    let v ← value.eval frame?
    Step.ask (.setShadowStatic shadowId key v)
    pure .void
  | .create typeId => do
    let handle ← Step.ofExcept (← Step.ask (.create typeId))
    pure (.object handle)
  | .call receiver method arguments request => do
    let r ← receiver.eval frame?
    let vs ← evalAll frame? arguments
    Step.ofExcept (← Step.ask (.call r method vs request))
  | .fail typeId method message => Step.fail (.invocation typeId method message)
  | .panic payload => fun _ => .panic payload
  | .attempt value => (value.eval frame?).attempt
  | .trace value => do
    let v ← value.eval frame?
    Step.ask (.trace v)
    pure v
  | .nth counter options => do
    let count ← Step.ask (.draw counter)
    evalNth frame? options count
  | .typeOf object => do
    let handle ← Step.handle (← object.eval frame?)
    let typeId ← Step.ofExcept (← Step.ask (.typeOf handle))
    pure (.string typeId)
  | .kindOf value => do
    let v ← value.eval frame?
    let kind ← Step.ofExcept (← Step.ask (.kindOf v))
    pure (.string kind.text)
  | .site receiver method arguments request => do
    let r ← receiver.eval frame?
    let vs ← evalAll frame? arguments
    let site ← Step.ofExcept (← Step.ask (.site r method vs request))
    pure (.string site.text)
  | .resolve receiver method arguments => do
    let r ← receiver.eval frame?
    let vs ← evalAll frame? arguments
    let decision ← Step.ofExcept (← Step.ask (.resolve r method vs))
    pure (.string decision.text)
  | .callBridge typeId object method arguments => do
    let handle ← Step.handle (← object.eval frame?)
    let vs ← evalAll frame? arguments
    let bridge ← Step.ofExcept (← Step.ask (.bridge typeId))
    Step.ofExcept (← Step.ask (.callBridge bridge handle method vs))
  | .callTarget typeId object receiver method arguments => do
    let handle ← Step.handle (← object.eval frame?)
    let r ← receiver.eval frame?
    let vs ← evalAll frame? arguments
    let decision ← Step.ofExcept (← Step.ask (.resolve r method vs))
    let bridge ← Step.ofExcept (← Step.ask (.bridge typeId))
    match decision.target? with
    | some target => Step.ofExcept (← Step.ask (.callTarget bridge handle target vs))
    | none => pure .void
  | .fact fact => do
    let memory ← Step.ask .inspect
    pure (fact.value memory)
  | .level => do
    let level ← Step.ask .level
    pure (countValue level)
  | .sandboxId => do
    let id ← Step.ask .sandboxId
    pure (countValue id)
  | .context => do
    let id ← Step.ask .sandboxId
    let level ← Step.ask .level
    pure (.string (contextText id level))

def ReceiverExpr.eval (frame? : Option Frame) : ReceiverExpr → Step Receiver
  | .type typeId => pure (.type typeId)
  | .object object => do
    let handle ← Step.handle (← object.eval frame?)
    pure (.instance handle)

def evalAll (frame? : Option Frame) : List Expr → Step (List Value)
  | [] => pure []
  | part :: rest => do
    let v ← part.eval frame?
    let vs ← evalAll frame? rest
    pure (v :: vs)

/-- The value of the last of several expressions; `last` if there is none. -/
def evalSequence (frame? : Option Frame) : List Expr → Value → Step Value
  | [], last => pure last
  | part :: rest, _ => do
    let v ← part.eval frame?
    evalSequence frame? rest v

/-- The value of the expression at an index, of the last one from there on. -/
def evalNth (frame? : Option Frame) : List Expr → Nat → Step Value
  | [], _ => pure .void
  | [part], _ => part.eval frame?
  | part :: _ :: _, 0 => part.eval frame?
  | _ :: rest, index + 1 => evalNth frame? rest index

end

/-- The value of the last of several expressions, each of which is put on record; `last` if there is none. -/
def evalRecorded : List Expr → Value → Step Value
  | [], last => pure last
  | part :: rest, _ => do
    let v ← part.eval none
    Step.ask (.record v)
    evalRecorded rest v

/-- The program of a step, with no variable set. -/
def Step.program {α : Type} (s : Step α) : Program (Except Error α) :=
  (s Table.empty).bind fun outcome => .done outcome.1

def body (e : Expr) (frame : Frame) : Program (Except Error Value) :=
  (e.eval (some frame)).program

/-- A resetter; its value is dropped. -/
def resetter (e : Expr) : Program (Except Error Unit) :=
  (e.eval none).program.bind fun answer => .done (answer.map fun _ => ())

/-- A task: its steps in order, up to the first error. -/
def task (steps : List Expr) : Program (Except Error Value) :=
  (evalRecorded steps .void).program

def callDepth : Nat := 100000

/-- The code of scripted bodies and resetters, by serial number. A declaration that has none fails. -/
def code (bodies resetters : Nat → Option Expr) : Code where
  body serial frame :=
    match bodies serial with
    | some e => body e frame
    | none => .done (.error (.refused frame.runtimeType frame.method .noImplementation))
  resetter serial :=
    match resetters serial with
    | some e => resetter e
    | none => .done (.ok ())
  depth := callDepth

end Interpose.Script
