import Interpose.Pool.Crew
import Interpose.Registry.Staging
import Interpose.Testing.Overrides

/-!
The harness: runs a test at each of the levels it asks for, every time in a sandbox of the pool.

The registry of a test holds what the providers bind and, above that, the shadows of the test itself. It depends
on nothing but the list of these shadows and is remembered by it until a provider is added.
-/

namespace Interpose

/-- How a test fared at one level. -/
structure TestOutcome where
  level : Nat
  sandbox : Option Nat
  record : List Value
  result : Except Error Value

structure Harness where
  hierarchy : Hierarchy
  settings : Settings
  providers : List Provider
  pool : Pool
  registries : Table (List Shadow) Registry
  checks : List LeakCheck
  journal : Journal

namespace Harness

/-- A harness with settings that fit together. -/
def new (hierarchy : Hierarchy) (settings : Settings) : Except Error Harness :=
  match settings.fault? with
  | some e => .error e
  | none =>
    .ok ⟨hierarchy, settings, [], .new settings.maxSandboxes, Table.empty, [], .empty⟩

/-- Adds a provider. Registries built without it are forgotten. -/
def withProvider (h : Harness) (p : Provider) : Harness :=
  { h with providers := h.providers ++ [p], registries := Table.empty }

def withCheck (h : Harness) (check : LeakCheck) : Harness :=
  { h with checks := h.checks ++ [check] }

def providerRules (h : Harness) : Rules :=
  (h.providers.flatMap (·.bindings)).foldl (fun r b => r.bindShadow b.shadow.id b.real) h.settings.rules

/-- The rules with the bindings of the providers and what a test includes and excludes. -/
def overriddenRules (h : Harness) (test : Overrides) : Rules :=
  test.excludedPackages.foldl Rules.excludePackage
    (test.includedTypes.foldl Rules.includeType h.providerRules)

/-- The interception rules of a test. The types that its own shadows implement are intercepted in any case. -/
def rulesFor (h : Harness) (test : Overrides) : Rules :=
  let rules := h.overriddenRules test
  ((test.shadows.map (·.own.implements)).filter fun real => !rules.intercepts real).foldl
    Rules.includeType rules

/-- The bindings of the providers, and above them the shadows of a test. -/
def staging (h : Harness) (shadows : List Shadow) : Staging :=
  shadows.foldl Staging.addShadow (h.providers.foldl Staging.addProvider Staging.empty)

/-- The registry of a test, built when its list of shadows is first met. A failure is not remembered. -/
def registryFor (h : Harness) (test : Overrides) : Except Error Registry × Harness :=
  match h.registries.get? test.shadows with
  | some registry => (.ok registry, h)
  | none =>
    let h := { h with
      journal := h.journal.addEvent .registryBuild (Overrides.shadowsText test.shadows) }
    match (h.staging test.shadows).build h.hierarchy with
    | .ok registry =>
      (.ok registry, { h with registries := h.registries.put test.shadows registry })
    | .error e => (.error e, h)

def lease (h : Harness) (key : SandboxKey) : Outcome Pool.Grant × Harness :=
  let build := BuildPlan.ready.builder key h.hierarchy h.settings.detectLeaks h.checks
  let (outcome, pool, j) := h.pool.acquire key build h.journal
  (outcome, { h with pool := pool, journal := j })

def giveBack (code : Code) (h : Harness) (key : SandboxKey) (s : Sandbox) : Outcome Unit × Harness :=
  let (outcome, pool, j) := h.pool.release code key s h.journal
  (outcome, { h with pool := pool, journal := j })

def runIn (code : Code) (registry : Registry) (task : Program (Except Error Value)) (s : Sandbox)
    (j : Journal) : Outcome (Except Error Value) × Sandbox × Journal :=
  let j := { j with record := [] }
  match s.install registry j with
  | (.error e, s, j) => (.done (.error e), s, j)
  | (.ok _, s, j) => s.execute code task j

/-- The sandbox that a grant gives, or the error that it failed with. The harness is the only user of its pool,
so nobody else would give back a key that is in use. -/
def grantedSandbox : Pool.Grant → Outcome (Except Error Sandbox)
  | .granted s => .done (.ok s)
  | .failed e => .done (.error e)
  | .waiting => .unfinished

/-- Gets a sandbox for a key, uses it and gives it back, even if the use panics. The answer starts with the id
of the sandbox. -/
def withSandbox {α : Type} (code : Code) (h : Harness) (key : SandboxKey)
    (use : Sandbox → Journal → Outcome α × Sandbox × Journal) :
    Outcome (Except Error (Nat × α)) × Harness :=
  Outcome.andThen (h.lease key) fun grant h =>
    Outcome.andThen (grantedSandbox grant, h) fun
      | .error e, h => (.done (.error e), h)
      | .ok s, h =>
        let (outcome, used, j) := use s h.journal
        let (returned, h) := { h with journal := j }.giveBack code key used
        Outcome.andThen (outcome, h) fun answer h =>
          Outcome.andThen (returned, h) fun _ h => (.done (.ok (s.id, answer)), h)

def runAt (code : Code) (h : Harness) (key : SandboxKey) (registry : Registry)
    (task : Program (Except Error Value)) : Outcome TestOutcome × Harness :=
  Outcome.andThen (h.withSandbox code key (runIn code registry task)) fun
    | .ok (id, result), h => (.done ⟨key.level, some id, h.journal.record, result⟩, h)
    | .error e, h => (.done ⟨key.level, none, [], .error e⟩, h)

def runLevels (code : Code) (rules : Rules) (registry : Registry)
    (task : Program (Except Error Value)) : List Nat → Harness → Outcome (List TestOutcome) × Harness
  | [], h => (.done [], h)
  | level :: rest, h =>
    Outcome.andThen (h.runAt code ⟨rules, level⟩ registry task) fun outcome h =>
      Outcome.andThen (runLevels code rules registry task rest h) fun outcomes h =>
        (.done (outcome :: outcomes), h)

/-- Runs a test at the levels it asks for. What goes wrong at a level shows in the outcome of that level. -/
def run (code : Code) (h : Harness) (test : Overrides) (task : Program (Except Error Value)) :
    Outcome (Except Error (List TestOutcome)) × Harness :=
  match test.levels.select h.settings.supportedLevels h.settings.defaultLevel with
  | .error e => (.done (.error e), h)
  | .ok levels =>
    match h.registryFor test with
    | (.error e, h) => (.done (.error e), h)
    | (.ok registry, h) =>
      Outcome.andThen (h.runLevels code (h.rulesFor test) registry task levels) fun outcomes h =>
        (.done (.ok outcomes), h)

def assemble (h : Harness) (key : SandboxKey) (id : Nat) : Sandbox :=
  .assemble id key h.hierarchy h.settings.detectLeaks h.checks

/-- The crew that prepares levels for a test without changes, at its end. -/
def prewarmed (code : Code) (h : Harness) (levels schedule : List Nat) : Crew :=
  (Crew.new h.pool h.journal (levels.map (⟨h.rulesFor .none, ·⟩))).complete code h.assemble schedule

/-- Builds sandboxes ahead of their use, each level by a worker of its own and all of them at the same time, in the
turns that a schedule gives them. All levels have to be supported. The answer is their number. -/
def prewarm (code : Code) (h : Harness) (levels : List Nat) (schedule : List Nat := []) :
    Outcome (Except Error Nat) × Harness :=
  match levels.find? fun level => !h.settings.supportedLevels.contains level with
  | some level =>
    (.done (.error (.misconfigured ("Can not prewarm unsupported API level " ++ toString level))), h)
  | none =>
    let crew := h.prewarmed code levels schedule
    Outcome.andThen (crew.answer, { h with pool := crew.pool, journal := crew.journal }) fun answer h =>
      (.done (answer.map fun _ => levels.length), h)

def clearPool (h : Harness) : Harness := { h with pool := h.pool.clear.2 }

def describe (h : Harness) : String :=
  Text.record "Harness"
    [("types", toString h.hierarchy.size), ("providers", toString h.providers.length),
      ("registries", toString h.registries.size), ("pool", h.pool.describe)]

end Harness

end Interpose
