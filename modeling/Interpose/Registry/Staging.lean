import Interpose.Registry.Basic

/-!
Staging: bindings are collected in three tiers and built into a registry, in which the last binding of the
highest tier wins.
-/

namespace Interpose

/-- The tiers that providers contribute to; the custom tier is the higher one. -/
inductive Tier where
  | base
  | custom
deriving DecidableEq, Repr

structure Provider where
  name : String
  tier : Tier
  bindings : List Binding
deriving DecidableEq

/-- Bindings waiting to be built into a registry, in the order they came. -/
structure Staging where
  baseTier : List Binding
  customTier : List Binding
  /-- Bindings of a single test, above both tiers of providers. -/
  testTier : List Binding

namespace Staging

def empty : Staging := ⟨[], [], []⟩

def addAt (s : Staging) (tier : Tier) (b : Binding) : Staging :=
  match tier with
  | .base => { s with baseTier := s.baseTier ++ [b] }
  | .custom => { s with customTier := s.customTier ++ [b] }

def addProvider (s : Staging) (p : Provider) : Staging :=
  p.bindings.foldl (fun s b => s.addAt p.tier b) s

def addLocal (s : Staging) (b : Binding) : Staging :=
  { s with testTier := s.testTier ++ [b] }

def addShadow (s : Staging) (shadow : Shadow) : Staging :=
  s.addLocal (.ofShadow shadow)

/-- The staged bindings, lowest tier first. -/
def all (s : Staging) : List Binding := s.baseTier ++ s.customTier ++ s.testTier

def size (s : Staging) : Nat := s.all.length

/-- The bindings that no later one of the same type overrides. -/
def winners (s : Staging) : KeyMap Binding :=
  KeyMap.ofList (s.all.map fun b => (b.real, b))

/-- Why a binding can not be in force in a hierarchy. -/
def fault? (h : Hierarchy) (b : Binding) : Option Error :=
  let emptyWindow? : Option Error :=
    match b.window.min, b.window.max with
    | some min, some max =>
      if max < min then
        some (.misconfigured ("Shadow " ++ b.shadow.id ++ " for " ++ b.real ++
          " has an empty API window (" ++ toString min ++ " > " ++ toString max ++ ")"))
      else none
    | _, _ => none
  let unreachable? : Option Error :=
    if b.callsThrough then
      match h.get? b.real with
      | none => some (.misconfigured ("Shadow " ++ b.shadow.id ++
          " requests call-through for unknown type " ++ b.real))
      | some decl =>
        if decl.isFinal then
          some (.misconfigured ("Shadow " ++ b.shadow.id ++
            " requests call-through for final type " ++ b.real ++ ", which can not be proxied"))
        else none
    else none
  emptyWindow?.or unreachable?

/-- The registry of the winning bindings, or the fault of the first one that has a fault. -/
def build (s : Staging) (h : Hierarchy) : Except Error Registry :=
  match s.winners.values.findSome? (fault? h) with
  | some fault => .error fault
  | none => .ok ⟨s.winners⟩

end Staging

end Interpose
