import Interpose.Proofs.Execution.Traces

/-!
# The registry in force

Of all that running code can do, one operation puts another registry in force. Where this is not performed, by the
program or by a body that it calls, the registry is the same at every moment and at the end.
-/

namespace Interpose

open Machine

/-- An operation keeps the registry unless it installs one or starts a body that does not keep it. -/
theorem Machine.registry_perform {run : BodyRunner} {op : Op} {m : Machine} (hop : ∀ registry, op ≠ .install registry)
    (hbody : ∀ method frame m', Starts op m method frame m' →
      (run method frame m').2.dispatcher.registry = m'.dispatcher.registry) :
    (perform run op m).2.dispatcher.registry = m.dispatcher.registry := by
  cases m.proceeds_perform op with
  | answered answer m' h _ hregistry =>
    rw [h]
    exact hregistry hop
  | body finish _ method frame m' hm _ h =>
    have hkept := hbody method frame (m'.began method frame) fun run => congrArg (·.2) (h run)
    rw [h]
    exact hkept.trans (congrArg Setting.registry hm.setting)

/-- The machine on which a body starts has the registry that was in force before. -/
theorem Machine.Starts.registry {op : Op} {m m' : Machine} {method : Method} {frame : Frame}
    (h : Starts op m method frame m') : m'.dispatcher.registry = m.dispatcher.registry := by
  have hopened := h.opened?_eq
  cases m.proceeds_perform op with
  | answered answer _ hanswered _ _ =>
    rw [opened?_of_answered hanswered] at hopened
    cases hopened
  | body finish hfinish method' frame' m₁ hm _ hbody =>
    rw [opened?_of_body hfinish hbody] at hopened
    obtain ⟨_, rfl⟩ := Prod.mk.inj (Option.some.inj hopened)
    exact congrArg Setting.registry hm.setting

/-! ## Whole runs -/

/-- A program installs no registry, and no body that it calls does. -/
def Code.InstallsNone {α : Type} (code : Code) (depth : Nat) (p : Program α) (m : Machine) : Prop :=
  ∀ registry m', ¬code.Performs depth p m (.install registry) m'

section Keeping

variable {code : Code} {α : Type} {depth : Nat} {m m' : Machine}

theorem Code.InstallsNone.op {op : Op} {next : op.Answer → Program α}
    (hnone : code.InstallsNone depth (.perform op next) m) (registry : Registry) : op ≠ .install registry := by
  rintro rfl
  exact hnone registry m .now

theorem Code.InstallsNone.later {op : Op} {next : op.Answer → Program α}
    (hnone : code.InstallsNone depth (.perform op next) m) {answer : op.Answer}
    (h : Machine.perform (code.runBody depth) op m = (.done answer, m')) :
    code.InstallsNone depth (next answer) m' :=
  fun registry at' hat => hnone registry at' (.later h hat)

theorem Code.InstallsNone.within {op : Op} {next : op.Answer → Program α}
    (hnone : code.InstallsNone (depth + 1) (.perform op next) m) {method : Method} {frame : Frame}
    (h : Starts op m method frame m') : code.InstallsNone depth (code.body method.serial frame) m' :=
  fun registry at' hat => hnone registry at' (.within h hat)

/-- The first operation keeps the registry if the bodies that may be called do. -/
theorem Code.InstallsNone.registry_perform {op : Op} {next : op.Answer → Program α}
    (hnone : code.InstallsNone depth (.perform op next) m)
    (hbodies : ∀ d, depth = d + 1 → ∀ (method : Method) (frame : Frame) (m : Machine),
      code.InstallsNone d (code.body method.serial frame) m →
        (code.runBody depth method frame m).2.dispatcher.registry = m.dispatcher.registry) :
    (Machine.perform (code.runBody depth) op m).2.dispatcher.registry = m.dispatcher.registry := by
  refine Machine.registry_perform hnone.op fun method frame m' hstarts => ?_
  cases depth with
  | zero => rfl
  | succ d => exact hbodies d rfl method frame m' (hnone.within hstarts)

theorem Program.registry_runWith {p : Program α}
    (hbodies : ∀ d, depth = d + 1 → ∀ (method : Method) (frame : Frame) (m : Machine),
      code.InstallsNone d (code.body method.serial frame) m →
        (code.runBody depth method frame m).2.dispatcher.registry = m.dispatcher.registry)
    (hnone : code.InstallsNone depth p m) :
    (p.runWith (code.runBody depth) m).2.dispatcher.registry = m.dispatcher.registry := by
  induction p generalizing m with
  | done result => rfl
  | panic payload => rfl
  | perform op next ih =>
    have hop := hnone.registry_perform hbodies
    refine Outcome.andThen_end (P := fun m' : Machine => m'.dispatcher.registry = m.dispatcher.registry) hop
      fun answer hanswer => ?_
    exact (ih answer (hnone.later (Prod.ext hanswer rfl))).trans hop

theorem Code.registry_runBody {d : Nat} (hd : depth = d + 1) {method : Method} {frame : Frame}
    (hnone : code.InstallsNone d (code.body method.serial frame) m) :
    (code.runBody depth method frame m).2.dispatcher.registry = m.dispatcher.registry := by
  induction d generalizing depth method frame m with
  | zero =>
    subst hd
    exact Program.registry_runWith (fun _ hd => by cases hd) hnone
  | succ d ih =>
    subst hd
    refine Program.registry_runWith (fun d' hd' method frame m hbody => ?_) hnone
    cases hd'
    exact ih rfl hbody

/-- Where nothing installs a registry, a run ends with the one that it started with. -/
theorem Code.registry_run {p : Program α} (hnone : code.InstallsNone code.depth p m) :
    (code.run p m).2.dispatcher.registry = m.dispatcher.registry :=
  Program.registry_runWith (fun _ hd _ _ _ hbody => code.registry_runBody hd hbody) hnone

/-- Where nothing installs a registry, the one at the start is in force at every moment on the way. -/
theorem Code.Performs.registry {p : Program α} {op : Op} (h : code.Performs depth p m op m')
    (hnone : code.InstallsNone depth p m) : m'.dispatcher.registry = m.dispatcher.registry := by
  induction h with
  | now => rfl
  | @later α depth op next m m₁ answer _ _ h _ ih =>
    have hop := hnone.registry_perform fun _ hd _ _ _ hbody => code.registry_runBody hd hbody
    rw [h] at hop
    exact (ih (hnone.later h)).trans hop
  | within h _ ih => exact (ih (hnone.within h)).trans h.registry

end Keeping

end Interpose
