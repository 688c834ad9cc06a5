import Interpose.Execution.Journal
import Interpose.Execution.Program

/-!
The machine: runs programs on the memory and the dispatcher of a sandbox.

Every method body that a call starts is one level deeper than the caller. Code whose calls nest deeper than
allowed is given up, which is told apart from every way in which a program itself can end.
-/

namespace Interpose

/-- What a running program can see and change. -/
structure Machine where
  sandboxId : Nat
  dispatcher : Dispatcher
  memory : Memory
  journal : Journal

inductive Outcome (α : Type) where
  | done (result : α)
  | panicked (payload : Option String)
  /-- Not at all: calls nest too deep, or a sandbox is waited for that nobody gives back. -/
  | unfinished
deriving DecidableEq

/-- Goes on from a result in the state that it came with; any other end stays the end. -/
def Outcome.andThen {α β σ : Type} (ended : Outcome α × σ) (next : α → σ → Outcome β × σ) :
    Outcome β × σ :=
  match ended with
  | (done result, s) => next result s
  | (panicked payload, s) => (panicked payload, s)
  | (unfinished, s) => (unfinished, s)

namespace Outcome

variable {α β γ σ : Type}

@[simp] theorem andThen_done (a : α) (s : σ) (next : α → σ → Outcome β × σ) :
    andThen (done a, s) next = next a s := rfl

@[simp] theorem andThen_panicked (payload : Option String) (s : σ) (next : α → σ → Outcome β × σ) :
    andThen (panicked payload, s) next = (panicked payload, s) := rfl

@[simp] theorem andThen_unfinished (s : σ) (next : α → σ → Outcome β × σ) :
    andThen (unfinished, s) next = (unfinished, s) := rfl

theorem andThen_assoc (ended : Outcome α × σ) (f : α → σ → Outcome β × σ)
    (g : β → σ → Outcome γ × σ) :
    andThen (andThen ended f) g = andThen ended fun a s => andThen (f a s) g := by
  obtain ⟨outcome, s⟩ := ended
  cases outcome <;> rfl

end Outcome

abbrev BodyRunner := Method → Frame → Machine → Outcome (Except Error Value) × Machine

namespace Machine

def hierarchy (m : Machine) : Hierarchy := m.dispatcher.setting.hierarchy

/-- Keeps the dispatcher and the events of a reply. -/
def absorb {α : Type} (m : Machine) (reply : Reply α) : Machine :=
  { m with dispatcher := reply.dispatcher, journal := m.journal.addEvents reply.events }

/-- The shape of a call. Arguments are looked at before the receiver. -/
def siteOf (m : Machine) (receiver : Receiver) (method : String) (arguments : List Value)
    (request : Request) : Except Error CallSite :=
  match m.memory.kindsOf arguments with
  | .error e => .error e
  | .ok kinds =>
    match receiver with
    | .instance handle =>
      (m.memory.typeOf handle).map fun typeId => ⟨typeId, ⟨method, kinds⟩, false, request⟩
    | .type typeId =>
      (m.hierarchy.require typeId).map fun _ => ⟨typeId, ⟨method, kinds⟩, true, request⟩

/-- Starts a method, which needs a body. -/
def start (run : BodyRunner) (method : Method) (frame : Frame) (m : Machine) :
    Outcome (Except Error Value) × Machine :=
  if method.hasBody then
    run method frame
      { m with journal := { m.journal with started := ⟨method.serial, frame⟩ :: m.journal.started } }
  else
    (.done (.error (.refused frame.runtimeType method.signature .noImplementation)), m)

/-- The runtime type of the object that a bridge is applied to, which has to fit the bridge. -/
def bridgedType (m : Machine) (bridge : Bridge) (handle : ObjectHandle) (method : String) :
    Except Error String :=
  match m.memory.typeOf handle with
  | .error e => .error e
  | .ok typeId =>
    if m.hierarchy.isSubtype typeId bridge.real then .ok typeId
    else
      .error (.invocation bridge.real method
        ("proxy target " ++ handle.text ++ " is a " ++ typeId))

/-- Calls a given target by way of a bridge, which has to expose it. -/
def callTarget (run : BodyRunner) (bridge : Bridge) (handle : ObjectHandle) (target : Target)
    (arguments : List Value) (m : Machine) : Outcome (Except Error Value) × Machine :=
  match m.bridgedType bridge handle target.method.name with
  | .error e => (.done (.error e), m)
  | .ok typeId =>
    if bridge.exposes target then
      start run target.method ⟨.instance handle, typeId, target.method.name, arguments⟩ m
    else (.done (.error (.refused typeId target.method.signature .notBridgeable)), m)

/-- Calls the method of a bridge that the arguments select. -/
def callBridge (run : BodyRunner) (bridge : Bridge) (handle : ObjectHandle) (method : String)
    (arguments : List Value) (m : Machine) : Outcome (Except Error Value) × Machine :=
  match m.bridgedType bridge handle method with
  | .error e => (.done (.error e), m)
  | .ok typeId =>
    match m.memory.kindsOf arguments with
    | .error e => (.done (.error e), m)
    | .ok kinds =>
      let criteria : Criteria := ⟨⟨method, kinds⟩, false, bridge.level, true⟩
      match criteria.select m.hierarchy bridge.groups typeId with
      | .error e => (.done (.error e), m)
      | .ok none =>
        (.done (.error (.refused typeId criteria.method.text .notBridgeable)), m)
      | .ok (some target) =>
        start run target.method ⟨.instance handle, typeId, target.method.name, arguments⟩ m

def carryOut (run : BodyRunner) (site : CallSite) (decision : Decision) (frame : Frame)
    (m : Machine) : Outcome (Except Error Value) × Machine :=
  match decision with
  | .shadow target | .through target false => start run target.method frame m
  | .through target true =>
    match frame.receiver with
    | .type _ =>
      (.done (.error (.invocation frame.runtimeType frame.method "static call has no receiver")), m)
    | .instance handle =>
      let reply := m.dispatcher.bridgeFor site.runtimeType
      match reply.answer with
      | .error e => (.done (.error e), m.absorb reply)
      | .ok bridge => callTarget run bridge handle target frame.arguments (m.absorb reply)
  | .noOp returns => (.done (.ok (.defaultFor returns)), m)
  | .refuse reason => (.done (.error (.refused site.runtimeType site.method.text reason)), m)

def call (run : BodyRunner) (receiver : Receiver) (method : String) (arguments : List Value)
    (request : Request) (m : Machine) : Outcome (Except Error Value) × Machine :=
  match m.siteOf receiver method arguments request with
  | .error e => (.done (.error e), m)
  | .ok site =>
    let reply := m.dispatcher.resolve site
    match reply.answer with
    | .error e => (.done (.error e), m.absorb reply)
    | .ok decision =>
      carryOut run site decision ⟨receiver, site.runtimeType, method, arguments⟩ (m.absorb reply)

/-- An answer that may come with a changed memory. -/
def withMemory {α β : Type} (m : Machine) (answer : Except Error α) (value : α → β)
    (memory : α → Memory) : Outcome (Except Error β) × Machine :=
  match answer with
  | .error e => (.done (.error e), m)
  | .ok a => (.done (.ok (value a)), { m with memory := memory a })

def perform (run : BodyRunner) : (op : Op) → Machine → Outcome op.Answer × Machine
  | .create typeId, m => m.withMemory (m.memory.create m.hierarchy typeId) (·.1) (·.2)
  | .typeOf handle, m => (.done (m.memory.typeOf handle), m)
  | .kindOf value, m => (.done (m.memory.kindOf value), m)
  | .getField handle field, m => (.done (m.memory.getField handle field), m)
  | .setField handle field value, m =>
    m.withMemory (m.memory.setField handle field value) (fun _ => ()) id
  | .getStatic typeId field, m => (.done (m.memory.getStatic m.hierarchy typeId field), m)
  | .setStatic typeId field value, m =>
    let (answer, memory) := m.memory.setStatic m.hierarchy typeId field value
    (.done answer, { m with memory := memory })
  | .getShadowStatic shadowId key, m => (.done (m.memory.shadowStatic? shadowId key), m)
  | .setShadowStatic shadowId key value, m =>
    (.done (), { m with memory := m.memory.setShadowStatic shadowId key value })
  | .call receiver method arguments request, m => call run receiver method arguments request m
  | .site receiver method arguments request, m =>
    (.done (m.siteOf receiver method arguments request), m)
  | .resolve receiver method arguments, m =>
    match m.siteOf receiver method arguments .normal with
    | .error e => (.done (.error e), m)
    | .ok site =>
      let reply := m.dispatcher.resolve site
      (.done reply.answer, m.absorb reply)
  | .bridge typeId, m =>
    let reply := m.dispatcher.bridgeFor typeId
    (.done reply.answer, m.absorb reply)
  | .callBridge bridge handle method arguments, m => callBridge run bridge handle method arguments m
  | .callTarget bridge handle target arguments, m => callTarget run bridge handle target arguments m
  | .inspect, m => (.done m.memory, m)
  | .setting, m => (.done m.dispatcher.setting, m)
  | .dispatcher, m => (.done m.dispatcher, m)
  | .install registry, m =>
    let (changed, dispatcher) := m.dispatcher.install registry
    (.done changed, { m with dispatcher := dispatcher })
  | .resolveSite site, m =>
    let reply := m.dispatcher.resolve site
    (.done reply.answer, m.absorb reply)
  | .forget, m => (.done (), { m with dispatcher := m.dispatcher.clear })
  | .level, m => (.done m.dispatcher.setting.level, m)
  | .sandboxId, m => (.done m.sandboxId, m)
  | .trace value, m =>
    (.done (), { m with journal := { m.journal with trace := m.journal.trace ++ [value] } })
  | .record value, m =>
    (.done (), { m with journal := { m.journal with record := m.journal.record ++ [value] } })
  | .draw counter, m =>
    let (count, journal) := m.journal.draw counter
    (.done count, { m with journal := journal })

end Machine

namespace Program

variable {α : Type}

/-- Runs a program, with a given way to run the bodies that its calls start. -/
def runWith (run : BodyRunner) : Program α → Machine → Outcome α × Machine
  | done result, m => (.done result, m)
  | panic payload, m => (.panicked payload, m)
  | perform op next, m =>
    Outcome.andThen (Machine.perform run op m) fun answer m => runWith run (next answer) m

/-- A program followed by another one runs as the one and then the other. -/
theorem runWith_bind {β : Type} (run : BodyRunner) (f : α → Program β) :
    ∀ (p : Program α) (m : Machine),
      (p.bind f).runWith run m = Outcome.andThen (p.runWith run m) fun a m => (f a).runWith run m
  | done _, _ => rfl
  | panic _, _ => rfl
  | perform op next, m => by
    simp only [bind, runWith, Outcome.andThen_assoc]
    congr
    funext answer m
    exact runWith_bind run f (next answer) m

end Program

namespace Code

/-- Runs the body of a method, with calls nested at most `depth` deep. -/
def runBody (code : Code) : Nat → BodyRunner
  | 0, _, _, m => (.unfinished, m)
  | depth + 1, method, frame, m => (code.body method.serial frame).runWith (code.runBody depth) m

def run {α : Type} (code : Code) (program : Program α) (m : Machine) : Outcome α × Machine :=
  program.runWith (code.runBody code.depth) m

end Code

end Interpose
