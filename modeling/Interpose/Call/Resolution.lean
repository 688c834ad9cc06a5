import Interpose.Call.Bridge
import Interpose.Call.Site
import Interpose.Registry.Basic
import Interpose.Rules

/-!
Resolution: where a call goes, given the hierarchy, the interception rules, the level and the registry in
force. Nothing here is remembered between calls.

A type that is not intercepted, or that no binding in force applies to, passes its calls to the real method. On
a bound type a shadow method is tried first, unless the caller asks for the real method. Then, by the
binding's policy or on request, the call goes through the bridge of the runtime type; otherwise a real method,
if there is one, is replaced by a no-op.
-/

namespace Interpose

/-- All that the routing of calls depends on. -/
structure Setting where
  hierarchy : Hierarchy
  rules : Rules
  level : Nat
  registry : Registry

/-- A routing that is settled but for what the bridge of the runtime type holds. -/
inductive Route where
  | settled (decision : Decision)
  /-- To this target if the bridge exposes it. -/
  | acrossBridge (target : Target)
deriving DecidableEq

namespace Route

def finish (bridge : Bridge) : Route → Decision
  | settled decision => decision
  | acrossBridge target =>
    if bridge.exposes target then .through target true else .refuse .notBridgeable

end Route

namespace Setting

def realGroups (s : Setting) (typeId : String) : List CandidateGroup :=
  (s.hierarchy.lineage typeId).map fun t => (t.1, t.2.methods)

def criteria (s : Setting) (site : CallSite) (loose : Bool) : Criteria :=
  ⟨site.method, site.isStatic, s.level, loose⟩

def shadowTarget (s : Setting) (site : CallSite) (b : Binding) : Except Error (Option Target) :=
  (s.criteria site b.looseSignatures).select s.hierarchy b.groups site.runtimeType

def realTarget (s : Setting) (site : CallSite) : Except Error (Option Target) :=
  (s.criteria site true).select s.hierarchy (s.realGroups site.runtimeType) site.runtimeType

/-- A call straight to a real method, which needs a body. -/
def direct (target : Target) : Decision :=
  if target.method.hasBody then .through target false else .refuse .noImplementation

/-- A call on a type without shadow goes straight to the real method. -/
def passThrough (s : Setting) (site : CallSite) : Except Error Decision :=
  (s.realTarget site).map fun
    | some target => direct target
    | none => .refuse .noSuchMethod

/-- A call on a bound type that goes on to the real method: straight if it is static, across the bridge
otherwise. -/
def callThrough (s : Setting) (site : CallSite) : Option Target → Except Error Route
  | none => .ok (.settled (.refuse .noSuchMethod))
  | some target =>
    if site.isStatic then .ok (.settled (direct target))
    else
      (s.hierarchy.require site.runtimeType).map fun decl =>
        if decl.isFinal then .settled (.refuse .notBridgeable) else .acrossBridge target

def routeReal (s : Setting) (site : CallSite) (b : Binding) : Except Error Route :=
  match s.realTarget site with
  | .error e => .error e
  | .ok target? =>
    if b.callsThrough || site.request = .real then s.callThrough site target?
    else
      .ok (.settled (match target? with
        | some target => .noOp target.method.returns
        | none => .refuse .noSuchMethod))

def routeBound (s : Setting) (site : CallSite) (b : Binding) : Except Error Route :=
  if site.request = .normal then
    match s.shadowTarget site b with
    | .error e => .error e
    | .ok (some target) => .ok (.settled (.shadow target))
    | .ok none => s.routeReal site b
  else s.routeReal site b

/-- The binding that a call falls under, with the types consulted to find it. -/
def governing (s : Setting) (typeId : String) : Lookup :=
  if s.rules.intercepts typeId then s.registry.lookup s.hierarchy s.level typeId
  else ⟨none, [typeId]⟩

def route (s : Setting) (site : CallSite) : Except Error Route :=
  match (s.governing site.runtimeType).binding? with
  | some b => s.routeBound site b
  | none => (s.passThrough site).map .settled

def consulted (s : Setting) (site : CallSite) : List String :=
  (s.governing site.runtimeType).consulted

def decide (s : Setting) (site : CallSite) : Except Error Decision :=
  match s.route site with
  | .error e => .error e
  | .ok (.settled decision) => .ok decision
  | .ok (.acrossBridge target) =>
    (Bridge.synthesize s.hierarchy s.level site.runtimeType).map fun bridge =>
      (Route.acrossBridge target).finish bridge

end Setting

end Interpose
