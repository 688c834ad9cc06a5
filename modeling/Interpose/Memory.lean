import Interpose.Hierarchy.Basic
import Interpose.Table

/-!
The memory of a sandbox: static fields of the declared types, static state of shadows, and objects.

The static fields that a hierarchy declares are loaded once and kept as a template, to which a reset returns.
A reset also opens a new generation of objects, so that handles from before it are told apart from new ones.
-/

namespace Interpose

structure StaticName where
  typeId : String
  field : String
deriving DecidableEq

structure ShadowStaticName where
  shadowId : String
  key : String
deriving DecidableEq

structure Instance where
  typeId : String
  fields : Table String Value
deriving DecidableEq

structure Heap where
  generation : Nat
  /-- The id issued last; ids start over with every generation. -/
  lastId : Nat
  objects : Table Nat Instance
deriving DecidableEq

namespace Heap

/-- The heap of a sandbox that was never reset. -/
def initial : Heap := ⟨0, 0, Table.empty⟩

/-- The object behind a handle. The generation of the handle is checked first. -/
def find (heap : Heap) (handle : ObjectHandle) : Except Error Instance :=
  if handle.generation ≠ heap.generation then
    .error (.staleHandle handle.id handle.generation heap.generation)
  else
    match heap.objects.get? handle.id with
    | some object => .ok object
    | none => .error (.invalidHandle handle.id)

/-- Adds an object under the next id. -/
def add (heap : Heap) (object : Instance) : ObjectHandle × Heap :=
  let id := heap.lastId + 1
  (⟨id, heap.generation⟩, { heap with lastId := id, objects := heap.objects.put id object })

/-- Drops all objects and opens the next generation. -/
def advance (heap : Heap) : Heap := ⟨heap.generation + 1, 0, Table.empty⟩

end Heap

structure Memory where
  template : Table StaticName Value
  loadedTypes : Nat
  statics : Table StaticName Value
  /-- Whether writing a static field was tried, in vain or not, since the statics were last equal to the template
  by construction. -/
  writeTried : Bool
  shadowStatics : Table ShadowStaticName Value
  heap : Heap
deriving DecidableEq

namespace Memory

def blank : Memory := ⟨Table.empty, 0, Table.empty, false, Table.empty, Heap.initial⟩

/-- The static fields that a hierarchy declares; of fields of one type that share a name the last one
counts. -/
def declaredStatics (h : Hierarchy) : Table StaticName Value :=
  Table.ofList (h.decls.entries.flatMap fun e =>
    e.2.statics.map fun field => (⟨e.1, field.1⟩, field.2))

def load (m : Memory) (h : Hierarchy) : Memory :=
  let template := declaredStatics h
  { m with template := template, loadedTypes := h.size, statics := template, writeTried := false }

def static? (m : Memory) (typeId field : String) : Option Value :=
  m.statics.get? ⟨typeId, field⟩

def shadowStatic? (m : Memory) (shadowId key : String) : Option Value :=
  m.shadowStatics.get? ⟨shadowId, key⟩

def setShadowStatic (m : Memory) (shadowId key : String) (value : Value) : Memory :=
  { m with shadowStatics := m.shadowStatics.put ⟨shadowId, key⟩ value }

def typeOf (m : Memory) (handle : ObjectHandle) : Except Error String :=
  (m.heap.find handle).map (·.typeId)

/-- The kind of a value; for an object, its type. -/
def kindOf (m : Memory) : Value → Except Error Kind
  | .object handle => (m.typeOf handle).map .object
  | value => .ok value.kind

/-- The kinds of several values; the first bad handle among them is the error. -/
def kindsOf (m : Memory) : List Value → Except Error (List Kind)
  | [] => .ok []
  | value :: rest =>
    match m.kindOf value with
    | .error e => .error e
    | .ok kind => (kindsOf m rest).map (kind :: ·)

def create (m : Memory) (h : Hierarchy) (typeId : String) : Except Error (ObjectHandle × Memory) :=
  match h.require typeId with
  | .error e => .error e
  | .ok decl =>
    if decl.hasNoInstances then
      .error (.invocation typeId "<init>" "abstract types can not be instantiated")
    else
      (h.instanceFields typeId).map fun fields =>
        let (handle, heap) := m.heap.add ⟨typeId, Table.ofList fields⟩
        (handle, { m with heap := heap })

def getField (m : Memory) (handle : ObjectHandle) (field : String) : Except Error Value :=
  match m.heap.find handle with
  | .error e => .error e
  | .ok object =>
    match object.fields.get? field with
    | some value => .ok value
    | none => .error (.fieldNotFound object.typeId field)

def setField (m : Memory) (handle : ObjectHandle) (field : String) (value : Value) :
    Except Error Memory :=
  match m.heap.find handle with
  | .error e => .error e
  | .ok object =>
    if object.fields.contains field then
      let changed : Instance := { object with fields := object.fields.put field value }
      .ok { m with heap := { m.heap with objects := m.heap.objects.put handle.id changed } }
    else .error (.fieldNotFound object.typeId field)

/-- Why a static field that is not there is missing. -/
def missingStatic (h : Hierarchy) (typeId field : String) : Error :=
  if h.contains typeId then .fieldNotFound typeId field else .typeNotFound typeId

/-- The value of a static field that a type itself has to declare. -/
def getStatic (m : Memory) (h : Hierarchy) (typeId field : String) : Except Error Value :=
  match m.static? typeId field with
  | some value => .ok value
  | none => .error (missingStatic h typeId field)

/-- Writes a static field that a type itself has to declare. In vain or not, a write was tried then. -/
def setStatic (m : Memory) (h : Hierarchy) (typeId field : String) (value : Value) :
    Except Error Unit × Memory :=
  if m.statics.contains ⟨typeId, field⟩ then
    (.ok (), { m with statics := m.statics.put ⟨typeId, field⟩ value, writeTried := true })
  else (.error (missingStatic h typeId field), { m with writeTried := true })

def generation (m : Memory) : Nat := m.heap.generation

def liveObjects (m : Memory) : Nat := m.heap.objects.size

/-- Returns to the declared state, in the next generation. -/
def reset (m : Memory) : Memory :=
  { m with
    statics := m.template
    writeTried := false
    shadowStatics := Table.empty
    heap := m.heap.advance }

/-- Forgets all that was loaded or made. The generation and the last id stay. -/
def clear (m : Memory) : Memory :=
  { m with
    template := Table.empty
    loadedTypes := 0
    statics := Table.empty
    writeTried := false
    shadowStatics := Table.empty
    heap := { m.heap with objects := Table.empty } }

/-- The static fields whose value is not the declared one. Floats are compared as numbers, so one that is not
a number differs even from itself; but nothing differs before the first try to write a static field. -/
def changedStatics (m : Memory) : List StaticName :=
  if m.writeTried then
    (m.template.entries.filter fun e =>
      match m.statics.get? e.1 with
      | some value => !value.sameAs e.2
      | none => true).map (·.1)
  else []

def violations (m : Memory) : List String :=
  (m.changedStatics.map fun name =>
      "static " ++ name.typeId ++ "." ++ name.field ++ " differs from its initial value") ++
    (if m.writeTried && m.statics.size ≠ m.template.size then
      ["static field set differs from the template"] else []) ++
    (if m.shadowStatics.size = 0 then []
      else [toString m.shadowStatics.size ++ " shadow statics survived"]) ++
    (if m.liveObjects = 0 then [] else [toString m.liveObjects ++ " objects survived"])

def isPristine (m : Memory) : Bool := m.violations.isEmpty

end Memory

end Interpose
