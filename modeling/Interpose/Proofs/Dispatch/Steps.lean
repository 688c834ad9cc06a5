import Interpose.Call.Dispatcher
import Mathlib.Data.List.Induction

/-!
# Runs of a dispatcher

A run is a list of steps, taken one after another. A call is no step of its own: it resolves a site, may ask for
a bridge, and whatever its body does to the dispatcher are steps again.
-/

namespace Interpose.Dispatcher

/-- What can be asked of a dispatcher. -/
inductive Step where
  | install (registry : Registry)
  | resolve (site : CallSite)
  /-- Looks a decision up without resolving. -/
  | cached (site : CallSite)
  | bridgeFor (typeId : String)
  | clear
deriving DecidableEq

/-- The dispatcher after a step. -/
def step (d : Dispatcher) : Step → Dispatcher
  | .install registry => (d.install registry).2
  | .resolve site => (d.resolve site).dispatcher
  | .cached _ => d
  | .bridgeFor typeId => (d.bridgeFor typeId).dispatcher
  | .clear => d.clear

/-- The dispatcher after a run. -/
def after (d : Dispatcher) (steps : List Step) : Dispatcher := steps.foldl step d

/-- The registry that a run installs last. -/
def lastInstalled (steps : List Step) : Registry :=
  steps.foldl (fun registry => fun
    | .install r => r
    | _ => registry) Registry.empty

theorem after_append (d : Dispatcher) (steps more : List Step) :
    d.after (steps ++ more) = (d.after steps).after more := List.foldl_append

theorem after_concat (d : Dispatcher) (steps : List Step) (s : Step) :
    d.after (steps ++ [s]) = (d.after steps).step s := List.foldl_append

theorem lastInstalled_concat (steps : List Step) (s : Step) :
    lastInstalled (steps ++ [s]) =
      match s with
      | .install r => r
      | _ => lastInstalled steps := List.foldl_append

/-! ## Only an installation changes what routing depends on -/

@[simp] theorem install_setting (d : Dispatcher) (r : Registry) :
    (d.install r).2.setting = { d.setting with registry := r } := rfl

@[simp] theorem bridgeFor_setting (d : Dispatcher) (typeId : String) :
    (d.bridgeFor typeId).dispatcher.setting = d.setting := by
  unfold bridgeFor
  split
  · rfl
  · split <;> rfl

@[simp] theorem compute_setting (d : Dispatcher) (site : CallSite) :
    (d.compute site).dispatcher.setting = d.setting := by
  unfold compute
  split
  · rfl
  · rfl
  · exact bridgeFor_setting _ _

@[simp] theorem remember_setting (d : Dispatcher) (site : CallSite) (decision : Decision) :
    (d.remember site decision).setting = d.setting := rfl

@[simp] theorem resolve_setting (d : Dispatcher) (site : CallSite) :
    (d.resolve site).dispatcher.setting = d.setting := by
  unfold resolve
  split
  · rfl
  · simp only
    split
    · exact compute_setting d site
    · rw [remember_setting, compute_setting]

@[simp] theorem clear_setting (d : Dispatcher) : d.clear.setting = d.setting := rfl

/-- Nothing but the registry changes. -/
theorem step_setting (d : Dispatcher) (s : Step) :
    (d.step s).setting = { d.setting with registry := (d.step s).registry } := by
  cases s with
  | install r => rfl
  | resolve site => rw [registry, step, resolve_setting]
  | cached site => rfl
  | bridgeFor typeId => rw [registry, step, bridgeFor_setting]
  | clear => rfl

theorem after_setting (d : Dispatcher) (steps : List Step) :
    (d.after steps).setting = { d.setting with registry := (d.after steps).registry } := by
  induction steps generalizing d with
  | nil => rfl
  | cons s rest ih =>
    change ((d.step s).after rest).setting = { d.setting with registry := ((d.step s).after rest).registry }
    rw [ih, step_setting]

/-- After any run of a new dispatcher the registry in force is the one installed last, and nothing else of the
setting has changed. -/
theorem after_new_setting (h : Hierarchy) (rules : Rules) (level : Nat) (steps : List Step) :
    ((new h rules level).after steps).setting = ⟨h, rules, level, lastInstalled steps⟩ := by
  induction steps using List.reverseRecOn with
  | nil => rfl
  | append_singleton steps s ih =>
    rw [after_concat, lastInstalled_concat]
    cases s with
    | install r => rw [step, install_setting, ih]
    | resolve site => rw [step, resolve_setting, ih]
    | cached site => exact ih
    | bridgeFor typeId => rw [step, bridgeFor_setting, ih]
    | clear => rw [step, clear_setting, ih]

/-! ## Bridges do not touch decisions and counters -/

@[simp] theorem bridgeFor_decisions (d : Dispatcher) (typeId : String) :
    (d.bridgeFor typeId).dispatcher.decisions = d.decisions := by
  unfold bridgeFor
  split
  · rfl
  · split <;> rfl

@[simp] theorem bridgeFor_counts (d : Dispatcher) (typeId : String) :
    (d.bridgeFor typeId).dispatcher.counts = d.counts := by
  unfold bridgeFor
  split
  · rfl
  · split <;> rfl

@[simp] theorem compute_decisions (d : Dispatcher) (site : CallSite) :
    (d.compute site).dispatcher.decisions = d.decisions := by
  unfold compute
  split
  · rfl
  · rfl
  · exact bridgeFor_decisions _ _

@[simp] theorem compute_counts (d : Dispatcher) (site : CallSite) :
    (d.compute site).dispatcher.counts = d.counts := by
  unfold compute
  split
  · rfl
  · rfl
  · exact bridgeFor_counts _ _

end Interpose.Dispatcher

/-! ## A small world

A button inherits its only method from a view, and the view can be shadowed. Instances of the statements about
runs are about these types. -/

namespace Interpose.Sample

def draw : Method := ⟨"draw", [], .primitive .i32, .none, .unbounded, true, 0⟩

def view : TypeDecl where
  parent := none
  isFinal := false
  isAbstract := false
  isInterface := false
  statics := [("drawn", .i32 0)]
  fields := [("label", .string "")]
  methods := [draw]

def button : TypeDecl := { view with parent := some "View", statics := [], fields := [], methods := [] }

def hierarchy : Hierarchy := ⟨KeyMap.ofList [("Button", button), ("View", view)], by decide⟩

def shadowView : Shadow := .alone
  { id := "ShadowView"
    implements := "View"
    callsThrough := false
    inheritsMethods := true
    looseSignatures := false
    window := .unbounded
    methods := [{ draw with serial := 1 }]
    hasResetter := false
    serial := 0 }

def registry : Registry := ⟨KeyMap.ofList [("View", .ofShadow shadowView)]⟩

def drawButton : CallSite := ⟨"Button", ⟨"draw", []⟩, false, .normal⟩

end Interpose.Sample
