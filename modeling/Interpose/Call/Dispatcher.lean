import Interpose.Call.Resolution
import Interpose.Event
import Interpose.Table

/-!
The dispatcher: resolution with a memory.

Decisions are kept with the types that they depend on, bridges with the type that they stand for. When another
registry is installed, just the decisions and bridges go that depend on a type bound differently.
-/

namespace Interpose

/-- A decision and the types that were consulted for it. -/
structure CachedDecision where
  decision : Decision
  consulted : List String
deriving DecidableEq

structure CacheCounts where
  hits : Nat
  misses : Nat
  purged : Nat
deriving DecidableEq

structure Dispatcher where
  setting : Setting
  decisions : Table CallSite CachedDecision
  bridges : Table String Bridge
  counts : CacheCounts

/-- The answer of a dispatcher, the dispatcher afterwards, and the events on the way. -/
structure Reply (α : Type) where
  answer : α
  dispatcher : Dispatcher
  events : List Event

namespace Dispatcher

/-- A dispatcher without shadows that remembers nothing. -/
def new (hierarchy : Hierarchy) (rules : Rules) (level : Nat) : Dispatcher where
  setting := ⟨hierarchy, rules, level, Registry.empty⟩
  decisions := Table.empty
  bridges := Table.empty
  counts := ⟨0, 0, 0⟩

def registry (d : Dispatcher) : Registry := d.setting.registry

/-- Puts a registry in force and forgets what depends on a type that it binds differently. The answer is the
set of these types. -/
def install (d : Dispatcher) (registry : Registry) : KeySet × Dispatcher :=
  let changed := registry.changed d.registry
  let kept := d.decisions.filter fun _ cached => !cached.consulted.any changed.contains
  (changed,
    { setting := { d.setting with registry := registry }
      decisions := kept
      bridges := d.bridges.filter fun typeId _ => !changed.contains typeId
      counts := { d.counts with purged := d.counts.purged + (d.decisions.size - kept.size) } })

/-- The bridge of a type, built when it is first asked for. A failure is not remembered. -/
def bridgeFor (d : Dispatcher) (typeId : String) : Reply (Except Error Bridge) :=
  match d.bridges.get? typeId with
  | some bridge => ⟨.ok bridge, d, []⟩
  | none =>
    let events := [{ kind := .bridgeSynthesis, subject := typeId }]
    match Bridge.synthesize d.setting.hierarchy d.setting.level typeId with
    | .ok bridge => ⟨.ok bridge, { d with bridges := d.bridges.put typeId bridge }, events⟩
    | .error e => ⟨.error e, d, events⟩

/-- Where a call goes, worked out anew; bridges are remembered. -/
def compute (d : Dispatcher) (site : CallSite) : Reply (Except Error Decision) :=
  match d.setting.route site with
  | .error e => ⟨.error e, d, []⟩
  | .ok (.settled decision) => ⟨.ok decision, d, []⟩
  | .ok (.acrossBridge target) =>
    let reply := d.bridgeFor site.runtimeType
    ⟨reply.answer.map fun bridge => (Route.acrossBridge target).finish bridge,
      reply.dispatcher, reply.events⟩

/-- Remembers a decision that was worked out. -/
def remember (d : Dispatcher) (site : CallSite) (decision : Decision) : Dispatcher :=
  { d with
    decisions := d.decisions.put site ⟨decision, d.setting.consulted site⟩
    counts := { d.counts with misses := d.counts.misses + 1 } }

/-- Where a call goes. A decision is remembered, an error is not. -/
def resolve (d : Dispatcher) (site : CallSite) : Reply (Except Error Decision) :=
  match d.decisions.get? site with
  | some cached =>
    ⟨.ok cached.decision, { d with counts := { d.counts with hits := d.counts.hits + 1 } }, []⟩
  | none =>
    let reply := d.compute site
    match reply.answer with
    | .error e => ⟨.error e, reply.dispatcher, reply.events⟩
    | .ok decision => ⟨.ok decision, reply.dispatcher.remember site decision, reply.events⟩

def cached? (d : Dispatcher) (site : CallSite) : Option Decision :=
  (d.decisions.get? site).map (·.decision)

/-- Forgets all decisions and bridges; the counters go on. -/
def clear (d : Dispatcher) : Dispatcher :=
  { d with decisions := Table.empty, bridges := Table.empty }

def describe (d : Dispatcher) : String :=
  Text.record "Dispatcher"
    [("api_level", toString d.setting.level), ("registry_entries", toString d.registry.size),
      ("decisions", toString d.decisions.size), ("proxies", toString d.bridges.size)]

end Dispatcher

end Interpose
