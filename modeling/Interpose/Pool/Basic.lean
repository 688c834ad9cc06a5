import Interpose.Sandbox.Lifecycle
import Interpose.Testing.Settings

/-!
The pool: at most one sandbox for each key, lent to one user at a time.

Each operation is one step under the pool's lock. A user claims a key and is told to take the idle sandbox, to
build one, or to wait. Whenever more sandboxes are kept than wanted, idle ones are destroyed, the one released
first before the others; lent sandboxes and sandboxes in the making are not touched.
-/

namespace Interpose

/-- What the pool knows of a key. -/
inductive Slot where
  | building
  | leased
  /-- The sandbox waits for a user; `released` tells when it came back. -/
  | idle (sandbox : Sandbox) (released : Nat)

structure PoolCounts where
  built : Nat
  reused : Nat
  evicted : Nat
  discarded : Nat
  waits : Nat
deriving DecidableEq

structure Pool where
  /-- The number of sandboxes that may be kept while some are idle. -/
  max : Nat
  slots : Table SandboxKey Slot
  tick : Nat
  counts : PoolCounts

/-- What a user who claims a key is told. -/
inductive Claim where
  | build
  | reuse (sandbox : Sandbox)
  | wait

def Slot.idle? : Slot → Option (Sandbox × Nat)
  | building | leased => none
  | idle sandbox released => some (sandbox, released)

namespace Pool

def new (max : Nat) : Pool := ⟨max, Table.empty, 0, ⟨0, 0, 0, 0, 0⟩⟩

def claim (p : Pool) (key : SandboxKey) : Claim × Pool :=
  match p.slots.get? key with
  | none => (.build, { p with slots := p.slots.put key .building })
  | some (.idle sandbox _) =>
    (.reuse sandbox,
      { p with
        slots := p.slots.put key .leased
        counts := { p.counts with reused := p.counts.reused + 1 } })
  | some .building | some .leased =>
    (.wait, { p with counts := { p.counts with waits := p.counts.waits + 1 } })

/-- The key that was released first among the idle ones. -/
def oldest? (p : Pool) : Option SandboxKey :=
  (cheapest? (fun e => e.2.idle?.map (·.2)) p.slots.entries).map (·.1.1)

/-- Takes the idle sandbox of a key out of the pool, for lack of room. -/
def evictKey (p : Pool) (key : SandboxKey) : Pool :=
  { p with
    slots := p.slots.erase key
    counts := { p.counts with evicted := p.counts.evicted + 1 } }

def idleAt? (p : Pool) (key : SandboxKey) : Option Sandbox :=
  ((p.slots.get? key).bind (·.idle?)).map (·.1)

/-- Destroys idle sandboxes, at most so many, while there are too many sandboxes. The answer starts with the
destroyed sandboxes, in the order of their destruction. -/
def evictUpTo : Nat → Pool → List Sandbox × Pool
  | 0, p => ([], p)
  | n + 1, p =>
    if p.max < p.slots.size then
      match p.oldest? with
      | some key =>
        let (others, rest) := evictUpTo n (p.evictKey key)
        ((p.idleAt? key).toList.map (·.destroy) ++ others, rest)
      | none => ([], p)
    else ([], p)

/-- Destroys idle sandboxes until there are no more than wanted or none is idle. -/
def evict (p : Pool) : List Sandbox × Pool := evictUpTo p.slots.size p

/-- Enters a sandbox that was built; whoever built it has it. The answer starts with the sandboxes destroyed
to make room. -/
def finishBuild (p : Pool) (key : SandboxKey) : List Sandbox × Pool :=
  evict
    { p with
      slots := p.slots.put key .leased
      counts := { p.counts with built := p.counts.built + 1 } }

/-- Gives up building a sandbox. -/
def abandon (p : Pool) (key : SandboxKey) : Pool :=
  { p with slots := p.slots.erase key }

def isReusable (s : Sandbox) : Bool := !s.poisoned && s.stage.acceptsRegistry

/-- Takes a sandbox back. One that can not be used again is destroyed. The answer starts with the sandboxes
destroyed. -/
def putBack (p : Pool) (key : SandboxKey) (s : Sandbox) : List Sandbox × Pool :=
  if isReusable s then
    evict { p with slots := p.slots.put key (.idle s (p.tick + 1)), tick := p.tick + 1 }
  else
    ([s.destroy],
      { p with
        slots := p.slots.erase key
        counts := { p.counts with discarded := p.counts.discarded + 1 } })

/-- Resets a sandbox that comes back without having been reset. What goes wrong shows in the sandbox. -/
def tidy (code : Code) (s : Sandbox) (j : Journal) : Outcome Unit × Sandbox × Journal :=
  if s.stage.acceptsRegistry && !s.memory.isPristine then
    Outcome.andThen (s.reset code j) fun _ after => (.done (), after)
  else (.done (), s, j)

/-- Takes a sandbox back from its user. A panic on the way leaves the key lent for ever. -/
def release (code : Code) (p : Pool) (key : SandboxKey) (s : Sandbox) (j : Journal) :
    Outcome Unit × Pool × Journal :=
  match tidy code s j with
  | (.done _, s, j) => (.done (), (p.putBack key s).2, j)
  | (outcome, _, j) => (outcome, p, j)

/-- Destroys all idle sandboxes. The answer starts with them. -/
def clear (p : Pool) : List Sandbox × Pool :=
  (p.slots.values.filterMap fun slot => slot.idle?.map (·.1.destroy),
    { p with slots := p.slots.filter fun _ slot => slot.idle?.isNone })

def size (p : Pool) : Nat := p.slots.size

def idleCount (p : Pool) : Nat := (p.slots.values.filter (·.idle?.isSome)).length

def contains (p : Pool) (key : SandboxKey) : Bool := p.slots.contains key

def describe (p : Pool) : String :=
  Text.record "SandboxPool"
    [("config", Text.record "PoolConfig" [("max_sandboxes", toString p.max)]),
      ("sandboxes", toString p.size),
      ("stats", Text.record "PoolStats"
        [("built", toString p.counts.built), ("reused", toString p.counts.reused),
          ("evicted", toString p.counts.evicted), ("discarded", toString p.counts.discarded),
          ("waits", toString p.counts.waits)])]

/-- How a user who asks for a key fares. -/
inductive Grant where
  | granted (sandbox : Sandbox)
  | failed (error : Error)
  | waiting

abbrev Builder := Journal → Outcome (Except Error Sandbox) × Journal

/-- Asks for a key, building the sandbox if there is none. A build that fails or panics leaves nothing. -/
def acquire (p : Pool) (key : SandboxKey) (build : Builder) (j : Journal) :
    Outcome Grant × Pool × Journal :=
  match p.claim key with
  | (.wait, p) => (.done .waiting, p, j)
  | (.reuse s, p) => (.done (.granted s), p, j)
  | (.build, p) =>
    match build j with
    | (.done (.ok s), j) => (.done (.granted s), (p.finishBuild key).2, j)
    | (.done (.error e), j) => (.done (.failed e), p.abandon key, j)
    | (.panicked payload, j) => (.panicked payload, p.abandon key, j)
    | (.unfinished, j) => (.unfinished, p.abandon key, j)

end Pool

end Interpose
