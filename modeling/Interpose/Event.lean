import Interpose.Text.Duration

/-!
Events that are worth timing, and a recorder that keeps them in order.
-/

namespace Interpose

inductive EventKind where
  | sandboxBuild
  | registrySwap
  | sandboxReset
  | registryBuild
  | bridgeSynthesis
deriving DecidableEq, Repr

def EventKind.name : EventKind → String
  | sandboxBuild => "sandbox-build"
  | registrySwap => "registry-swap"
  | sandboxReset => "sandbox-reset"
  | registryBuild => "registry-build"
  | bridgeSynthesis => "proxy-synthesis"

/-- A timed event; work that is not timed by a clock takes no time. -/
structure Event where
  kind : EventKind
  subject : String
  nanos : Nat := 0
deriving DecidableEq

def Event.text (e : Event) : String :=
  e.kind.name ++ " [" ++ e.subject ++ "] " ++ Text.duration e.nanos

/-- The recorded events, oldest first. -/
abbrev Recording := List Event

namespace Recording

def record (r : Recording) (e : Event) : Recording := r ++ [e]

def count (r : Recording) (kind : EventKind) : Nat :=
  (r.filter (·.kind = kind)).length

def total (r : Recording) (kind : EventKind) : Nat :=
  (r.filter (·.kind = kind)).foldl (fun total e => total + e.nanos) 0

end Recording

end Interpose
