import Interpose.Proofs.Sandbox.Readiness

/-!
# What a sandbox routes calls by

The dispatcher of a sandbox is made for the rules and the level of its key. Whatever is done with the sandbox, and
however that ends, only the registry changes, and nothing is remembered that would be decided otherwise now.
-/

namespace Interpose

namespace Sandbox

open Machine

variable {s s' : Sandbox} {j : Journal}

/-- The dispatcher decides by the key of the sandbox, and what it remembers is right. -/
structure Faithful (s : Sandbox) : Prop where
  sound : s.dispatcher.Sound
  setting : s.dispatcher.setting = ⟨s.hierarchy, s.key.rules, s.key.level, s.dispatcher.registry⟩

/-- Stage, memory and the like do not matter. -/
theorem Faithful.congr (hs : s.Faithful) (hdispatcher : s'.dispatcher = s.dispatcher) (hkey : s'.key = s.key) :
    s'.Faithful := by
  refine ⟨hdispatcher ▸ hs.sound, ?_⟩
  rw [hierarchy, hdispatcher, hkey]
  exact hs.setting

theorem Faithful.destroy (hs : s.Faithful) : s.destroy.Faithful := by
  unfold Sandbox.destroy
  split
  · exact hs
  · exact ⟨Dispatcher.sound_clear _, hs.setting⟩

theorem Faithful.poison (hs : s.Faithful) : s.poison.Faithful := by
  have hpoisoned : Faithful { s with poisoned := true } := hs.congr rfl rfl
  exact hpoisoned.destroy

/-- Running code may put another registry in force, and that is all. -/
theorem Faithful.of_reaches (hs : s.Faithful) {m : Machine} (h : Reaches (s.machine j) m)
    (hdispatcher : s'.dispatcher = m.dispatcher) (hkey : s'.key = s.key) : s'.Faithful := by
  have hsetting : m.dispatcher.setting = { s.dispatcher.setting with registry := m.dispatcher.registry } := h.setting
  refine ⟨hdispatcher ▸ h.sound hs.sound, ?_⟩
  rw [hierarchy, hdispatcher, hkey, hsetting, hs.setting]

theorem Faithful.resetMemory (hs : s.Faithful) (code : Code) (j : Journal) : (s.resetMemory code j).2.1.Faithful := by
  obtain ⟨_, m, memory, hreach, hafter, _⟩ := resetMemory_spec code s j
  rw [hafter]
  exact hs.of_reaches hreach rfl rfl

/-- Every operation keeps a sandbox faithful, however it ends. -/
theorem Faithful.step (hs : s.Faithful) (x : Step) : (s.step x).Faithful := by
  have hreset : ∀ {s₁ s' : Sandbox} {code : Code} {failures : List String} {j j' : Journal}, s₁.Faithful →
      s₁.resetMemory code j = (.done failures, s', j') → s'.Faithful := by
    intro s₁ s' code failures j j' hs₁ h
    have hafter := hs₁.resetMemory code j
    rwa [h] at hafter
  obtain ⟨op, j⟩ := x
  cases ha : s.accepts op with
  | false =>
    have hsame : s.step (op, j) = s := step_of_not_accepts ha
    rwa [hsame]
  | true =>
    cases op with
    | configure =>
      rw [Sandbox.step, apply_configure ha]
      exact hs.congr rfl rfl
    | install registry =>
      rw [Sandbox.step, apply_install ha]
      refine ⟨hs.sound.install registry, ?_⟩
      change (s.dispatcher.install registry).2.setting = _
      rw [Dispatcher.install_setting, hs.setting]
      rfl
    | execute code task =>
      have htask : (s.afterTask (s.taskRun code task j).2).Faithful :=
        hs.of_reaches (code.reaches_run task (s.machine { j with record := [] })) rfl rfl
      refine execute_end ha (fun _ => htask) (fun s' j' h _ => ?_) (fun failures s' j' h _ => ?_) fun _ => ?_
      · exact (hreset htask h).congr rfl rfl
      · exact (hreset htask h).poison
      · exact htask.resetMemory code _
    | reset code =>
      exact reset_end ha (fun s' j' h => hreset hs h) (fun failures s' j' h _ => (hreset hs h).poison) fun _ =>
        hs.resetMemory code j
    | destroy => exact hs.destroy

end Sandbox

end Interpose
