import Interpose.Proofs.Execution.Alike
import Interpose.Proofs.Sandbox.Operations

/-!
# Earlier tasks are invisible

A sandbox that was used before and can be used again differs from a new one in its generation and in what its
dispatcher remembers. The first is preset in the comparison, and the second is sound, so a program that does not
look at it has no way to tell the two sandboxes apart.
-/

namespace Interpose.Sandbox

open Machine

/-- What installations, tasks and resets make of a new sandbox. Every task and every reset comes to its end: it
may fail, and a task may panic, but resetters return. -/
inductive Used (id : Nat) (key : SandboxKey) (h : Hierarchy) : Sandbox → Prop
  | built (j : Journal) : Used id key h (build id key h j).1
  | install {s : Sandbox} (hs : Used id key h s) (r : Registry) (j : Journal) :
      Used id key h (s.install r j).2.1
  | execute {s : Sandbox} (hs : Used id key h s) {code : Code} {task : Program (Except Error Value)}
      {j : Journal} {result : Except Error Value} (hdone : (s.execute code task j).1 = .done result) :
      Used id key h (s.execute code task j).2.1
  | reset {s : Sandbox} (hs : Used id key h s) {code : Code} {j : Journal} {answer : Except Error Unit}
      (hdone : (s.reset code j).1 = .done answer) : Used id key h (s.reset code j).2.1

/-- What is known of a sandbox that can be used: it is as built but for its generation, its registry, and what
its dispatcher remembers. -/
structure Ready (id : Nat) (key : SandboxKey) (h : Hierarchy) (s : Sandbox) : Prop where
  id : s.id = id
  poisoned : s.poisoned = false
  stage : s.stage.acceptsRegistry = true
  detectLeaks : s.detectLeaks = true
  checks : s.checks = []
  setting : s.dispatcher.setting = ⟨h, key.rules, key.level, s.dispatcher.registry⟩
  sound : s.dispatcher.Sound
  memory : s.memory = (Memory.blank.load h).atGeneration s.memory.generation

theorem ready_build (id : Nat) (key : SandboxKey) (h : Hierarchy) (j : Journal) :
    Ready id key h (build id key h j).1 where
  id := rfl
  poisoned := rfl
  stage := rfl
  detectLeaks := rfl
  checks := rfl
  setting := rfl
  sound := Dispatcher.sound_new _ _ _
  memory := rfl

section Preservation

variable {id : Nat} {key : SandboxKey} {h : Hierarchy} {s : Sandbox}

theorem Ready.install_eq (hs : Ready id key h s) (r : Registry) (j : Journal) :
    s.install r j =
      (.ok (s.dispatcher.install r).1, { s with dispatcher := (s.dispatcher.install r).2, stage := .configured },
        j.addEvent .registrySwap (toString s.id)) := Sandbox.install_eq hs.poisoned hs.stage r j

theorem Ready.install (hs : Ready id key h s) (r : Registry) (j : Journal) :
    Ready id key h (s.install r j).2.1 := by
  rw [hs.install_eq]
  refine ⟨hs.id, hs.poisoned, rfl, hs.detectLeaks, hs.checks, ?_, hs.sound.install r, hs.memory⟩
  change { s.dispatcher.setting with registry := r } = _
  rw [hs.setting]
  rfl

/-- A memory that is reset is as loaded, if nobody touched the template. -/
theorem reset_eq_load {m : Memory} (ht : m.template = Memory.declaredStatics h) (hl : m.loadedTypes = h.size) :
    m.reset = (Memory.blank.load h).atGeneration m.reset.generation := by
  unfold Memory.reset
  rw [ht, hl]
  rfl

/-- Running code and resetting the memory afterwards leaves what is known. -/
theorem Ready.after_reset (hs : Ready id key h s) {j : Journal} {m : Machine} (hreach : Reaches (s.machine j) m)
    {stage : Stage} (hstage : stage.acceptsRegistry = true) (runs : Nat) :
    Ready id key h
      { s with stage := stage, runs := runs, dispatcher := m.dispatcher, memory := m.memory.reset } := by
  refine ⟨hs.id, hs.poisoned, hstage, hs.detectLeaks, hs.checks, ?_, hreach.sound hs.sound, ?_⟩
  · have hsetting : m.dispatcher.setting = { s.dispatcher.setting with registry := m.dispatcher.registry } :=
      hreach.setting
    rw [hsetting, hs.setting]
  · have htemplate : m.memory.template = s.memory.template := hreach.evolves.template
    have hloaded : m.memory.loadedTypes = s.memory.loadedTypes := hreach.evolves.loadedTypes
    apply reset_eq_load
    · rw [htemplate, hs.memory]
      rfl
    · rw [hloaded, hs.memory]
      rfl

theorem ready_of_accepted (hs : s.poisoned = true ∨ Ready id key h s) {operation : String}
    {allowed : Stage → Bool} (hr : s.rejection? operation allowed = none) : Ready id key h s := by
  cases hs with
  | inl hp =>
    rw [(rejection?_eq_none_iff.1 hr).1] at hp
    cases hp
  | inr hready => exact hready

/-- A used sandbox is poisoned or can be used again. -/
theorem Used.poisoned_or_ready (hs : Used id key h s) : s.poisoned = true ∨ Ready id key h s := by
  induction hs with
  | built j => exact .inr (ready_build id key h j)
  | @install s _ r j ih =>
    cases hr : s.rejection? "install_registry" Stage.acceptsRegistry with
    | some e =>
      have hsame : (s.install r j).2.1 = s := by simp only [Sandbox.install, hr]
      rwa [hsame]
    | none => exact .inr ((ready_of_accepted ih hr).install r j)
  | @execute s _ code task j result hdone ih =>
    cases hr : s.rejection? "execute" Stage.acceptsTask with
    | some e =>
      have hsame : (s.execute code task j).2.1 = s := by simp only [Sandbox.execute, hr]
      rwa [hsame]
    | none =>
      have hready := ready_of_accepted ih hr
      obtain ⟨_, m, hreach, hidle | hpoisoned | hactive⟩ := execute_spec hr code task j
      · right
        rw [hidle]
        exact hready.after_reset hreach rfl _
      · exact .inl hpoisoned
      · exact absurd hdone (hactive.2 result)
  | @reset s _ code j answer hdone ih =>
    cases hr : s.rejection? "reset" Stage.acceptsRegistry with
    | some e =>
      have hsame : (s.reset code j).2.1 = s := by simp only [Sandbox.reset, hr]
      rwa [hsame]
    | none =>
      have hready := ready_of_accepted ih hr
      obtain ⟨m, hreach, hafter | hpoisoned⟩ := reset_spec hr hdone
      · right
        rw [hafter]
        exact hready.after_reset hreach hready.stage _
      · exact .inl hpoisoned

end Preservation

/-! ## Two sandboxes that can be used -/

/-- The same sandbox with the generation of its objects set. -/
def atGeneration (s : Sandbox) (generation : Nat) : Sandbox :=
  { s with memory := s.memory.atGeneration generation }

theorem ready_atGeneration (id : Nat) (key : SandboxKey) (h : Hierarchy) (j : Journal) (generation : Nat) :
    Ready id key h ((build id key h j).1.atGeneration generation) :=
  ⟨rfl, rfl, rfl, rfl, rfl, rfl, Dispatcher.sound_new _ _ _, rfl⟩

section TwoSandboxes

variable {id : Nat} {key : SandboxKey} {h : Hierarchy} {s₁ s₂ : Sandbox}

/-- Sandboxes that can be used are alike in the same generation and with the same registry. -/
theorem Ready.alike (h₁ : Ready id key h s₁) (h₂ : Ready id key h s₂)
    (hgeneration : s₁.memory.generation = s₂.memory.generation)
    (hregistry : s₁.dispatcher.registry = s₂.dispatcher.registry) (j : Journal) :
    Alike (s₁.machine j) (s₂.machine j) where
  sandboxId := h₁.id.trans h₂.id.symm
  setting := by
    change s₁.dispatcher.setting = s₂.dispatcher.setting
    rw [h₁.setting, h₂.setting, hregistry]
  sound₁ := h₁.sound
  sound₂ := h₂.sound
  memory := by
    change s₁.memory = s₂.memory
    rw [h₁.memory, h₂.memory, hgeneration]
  journal := rfl

theorem Ready.alike_install (h₁ : Ready id key h s₁) (h₂ : Ready id key h s₂)
    (hgeneration : s₁.memory.generation = s₂.memory.generation) (r : Registry) (j₁ j₂ j : Journal) :
    Alike ((s₁.install r j₁).2.1.machine j) ((s₂.install r j₂).2.1.machine j) := by
  apply (h₁.install r j₁).alike (h₂.install r j₂)
  · rw [h₁.install_eq, h₂.install_eq]
    exact hgeneration
  · rw [h₁.install_eq, h₂.install_eq]
    rfl

/-- Resetters that do not look at what is remembered run alike. -/
theorem runResetters_alike {code : Code}
    (hcode : ∀ serial m m', ¬code.Performs code.depth (code.resetter serial) m .dispatcher m')
    (shadows : List ShadowLayer) {m₁ m₂ : Machine} (hm : Alike m₁ m₂) :
    EndAlike (runResetters code shadows m₁) (runResetters code shadows m₂) := by
  induction shadows generalizing m₁ m₂ with
  | nil => exact ⟨rfl, hm⟩
  | cons shadow rest ih =>
    unfold runResetters
    split
    · have hrun : EndAlike (code.run (code.resetter shadow.serial) m₁)
          (code.run (code.resetter shadow.serial) m₂) :=
        code.runWith_alike hm (hcode shadow.serial m₁)
      apply hrun.andThen
      intro answer _
      apply (ih hrun.2).andThen
      intro failures _
      exact ⟨rfl, (ih hrun.2).2⟩
    · exact ih hm

theorem findLeaks_own {s : Sandbox} (hdetect : s.detectLeaks = true) (hchecks : s.checks = []) (j : Journal) :
    s.findLeaks j = (.done (ownReport s.memory), j) := by
  rw [findLeaks, if_pos hdetect, hchecks]
  simp [askChecks]

/-- The reset of a sandbox without checks of its own answers what its resetters and the one check every sandbox
has report. -/
theorem resetMemory_answer (code : Code) {s : Sandbox} (hdetect : s.detectLeaks = true) (hchecks : s.checks = [])
    (j : Journal) :
    (s.resetMemory code j).1 =
      (Outcome.andThen (runResetters code s.dispatcher.registry.shadows (s.machine j)) fun failures m =>
        (.done (failures ++ ownReport m.memory.reset), m)).1 := by
  unfold resetMemory
  rcases runResetters code s.dispatcher.registry.shadows (s.machine j) with ⟨outcome, m⟩
  cases outcome with
  | done failures =>
    have hleaks : findLeaks { s.afterRun m with memory := m.memory.reset } m.journal =
        (.done (ownReport m.memory.reset), m.journal) :=
      findLeaks_own (s := { s.afterRun m with memory := m.memory.reset }) hdetect hchecks _
    simp only [afterRun, Outcome.andThen_done] at hleaks ⊢
    rw [hleaks]
    rfl
  | panicked payload => rfl
  | unfinished => rfl

theorem resetMemory_afterTask {code : Code} {s : Sandbox} {m : Machine} (hid : m.sandboxId = s.id)
    (hdetect : s.detectLeaks = true) (hchecks : s.checks = []) :
    ((s.afterTask m).resetMemory code m.journal).1 =
      (Outcome.andThen (runResetters code m.dispatcher.registry.shadows m) fun failures m =>
        (.done (failures ++ ownReport m.memory.reset), m)).1 := by
  have h := resetMemory_answer code (s := s.afterTask m) hdetect hchecks m.journal
  rw [machine_afterTask hid] at h
  exact h

/-- How an execution ends depends on the reset only through what that reports. -/
theorem finish_answer_congr {code : Code} {j₁ j₂ : Journal} (hid : s₁.id = s₂.id)
    (hreset : (s₁.resetMemory code j₁).1 = (s₂.resetMemory code j₂).1) (result : Except Error Value) :
    (s₁.finish code result j₁).1 = (s₂.finish code result j₂).1 := by
  obtain ⟨_, m₁, memory₁, _, hafter₁, _⟩ := resetMemory_spec code s₁ j₁
  obtain ⟨_, m₂, memory₂, _, hafter₂, _⟩ := resetMemory_spec code s₂ j₂
  unfold finish
  rcases h₁ : s₁.resetMemory code j₁ with ⟨outcome, s₁', j₁'⟩
  rcases h₂ : s₂.resetMemory code j₂ with ⟨outcome', s₂', j₂'⟩
  rw [h₁] at hreset hafter₁
  rw [h₂] at hreset hafter₂
  simp only at hreset hafter₁ hafter₂
  subst hreset hafter₁ hafter₂
  cases outcome with
  | done failures =>
    simp only [Outcome.andThen_done, leakOf]
    split
    · rfl
    · simp only [hid]
  | panicked payload => rfl
  | unfinished => rfl

/-- Executions in sandboxes that can be used end with the same answer if neither the task nor the resetters look
at what is remembered. -/
theorem execute_alike {code : Code} {task : Program (Except Error Value)} {j : Journal}
    (h₁ : Ready id key h s₁) (h₂ : Ready id key h s₂)
    (ha₁ : s₁.rejection? "execute" Stage.acceptsTask = none)
    (ha₂ : s₂.rejection? "execute" Stage.acceptsTask = none)
    (htask : EndAlike (s₁.taskRun code task j) (s₂.taskRun code task j))
    (hcode : ∀ serial m m', ¬code.Performs code.depth (code.resetter serial) m .dispatcher m') :
    (s₁.execute code task j).1 = (s₂.execute code task j).1 := by
  have hid₁ : (s₁.taskRun code task j).2.sandboxId = s₁.id := (code.reaches_run _ _).sandboxId
  have hid₂ : (s₂.taskRun code task j).2.sandboxId = s₂.id := (code.reaches_run _ _).sandboxId
  have hm : Alike (s₁.taskRun code task j).2 (s₂.taskRun code task j).2 := htask.2
  rw [execute_eq ha₁, execute_eq ha₂, htask.1]
  generalize (s₁.taskRun code task j).2 = m₁ at hm hid₁ ⊢
  generalize (s₂.taskRun code task j).2 = m₂ at hm hid₂ ⊢
  cases taskResult (s₂.taskRun code task j).1 with
  | done result =>
    have hid : (s₁.afterTask m₁).id = (s₂.afterTask m₂).id := h₁.id.trans h₂.id.symm
    have hregistry : m₁.dispatcher.registry = m₂.dispatcher.registry := congrArg Setting.registry hm.setting
    have hresetters := runResetters_alike hcode m₂.dispatcher.registry.shadows hm
    have hreset : ((s₁.afterTask m₁).resetMemory code m₁.journal).1 =
        ((s₂.afterTask m₂).resetMemory code m₂.journal).1 := by
      rw [resetMemory_afterTask hid₁ h₁.detectLeaks h₁.checks,
        resetMemory_afterTask hid₂ h₂.detectLeaks h₂.checks, hregistry]
      refine (hresetters.andThen fun failures _ => ⟨?_, hresetters.2⟩).1
      rw [hresetters.2.memory]
    exact finish_answer_congr hid hreset result
  | panicked payload => rfl
  | unfinished => rfl

end TwoSandboxes

/-! ## The main result -/

/-- Take a sandbox that was used and can be used again, and a new one whose generation is set to the same number.
Both accept any registry and then any task. If the task, in all bodies that it runs, does not look at what the
dispatcher remembers, it ends the same in both: with the same outcome, after the same bodies in the same order,
with the same values traced and recorded, and leaving the same memory to the reset. The answer of the whole
execution is the same too if the resetters do not look either. -/
theorem execute_as_in_new {id : Nat} {key : SandboxKey} {h : Hierarchy} {s : Sandbox} (hs : Used id key h s)
    (hpoisoned : s.poisoned = false) (r : Registry) (code : Code) (task : Program (Except Error Value))
    (j : Journal) :
    let used := (s.install r j).2.1
    let fresh := (((build id key h j).1.atGeneration s.memory.generation).install r j).2.1
    used.rejection? "execute" Stage.acceptsTask = none ∧ fresh.rejection? "execute" Stage.acceptsTask = none ∧
    ((∀ m, ¬code.Performs code.depth task (fresh.machine { j with record := [] }) .dispatcher m) →
      (used.taskRun code task j).1 = (fresh.taskRun code task j).1 ∧
      (used.taskRun code task j).2.journal.started = (fresh.taskRun code task j).2.journal.started ∧
      (used.taskRun code task j).2.journal.trace = (fresh.taskRun code task j).2.journal.trace ∧
      (used.taskRun code task j).2.journal.record = (fresh.taskRun code task j).2.journal.record ∧
      (used.taskRun code task j).2.memory = (fresh.taskRun code task j).2.memory ∧
      ((∀ serial m m', ¬code.Performs code.depth (code.resetter serial) m .dispatcher m') →
        (used.execute code task j).1 = (fresh.execute code task j).1)) := by
  intro used fresh
  have hready : Ready id key h s := by
    cases hs.poisoned_or_ready with
    | inl hp =>
      rw [hpoisoned] at hp
      cases hp
    | inr hready => exact hready
  have hnew := ready_atGeneration id key h j s.memory.generation
  have hused : used.rejection? "execute" Stage.acceptsTask = none := install_accepts_task hready.poisoned hready.stage r j
  have hfresh : fresh.rejection? "execute" Stage.acceptsTask = none := install_accepts_task hnew.poisoned hnew.stage r j
  refine ⟨hused, hfresh, fun htask => ?_⟩
  have halike : Alike (fresh.machine { j with record := [] }) (used.machine { j with record := [] }) :=
    hnew.alike_install hready rfl r j j _
  have hrun : EndAlike (fresh.taskRun code task j) (used.taskRun code task j) :=
    code.runWith_alike halike htask
  refine ⟨hrun.1.symm, hrun.2.started.symm, hrun.2.trace.symm, hrun.2.record.symm, hrun.2.memory.symm, ?_⟩
  intro hcode
  exact (execute_alike (hnew.install r j) (hready.install r j) hfresh hused hrun hcode).symm

/-- A sandbox in which a button was drawn, and its shadow taken out of force meanwhile, runs the same task with the
shadow again as a new sandbox does. -/
theorem execute_as_in_new_button :
    let built := (build 1 ⟨.none, 30⟩ Sample.hierarchy .empty).1
    let s := ((built.install Sample.registry .empty).2.1.execute Sample.code Sample.drawNew .empty).2.1
    let used := (s.install Sample.registry .empty).2.1
    let fresh := ((built.atGeneration s.memory.generation).install Sample.registry .empty).2.1
    s.memory.generation = 1 ∧
      (used.taskRun Sample.code Sample.drawNew .empty).2.journal.started.map (·.serial) = [0, 1] ∧
      (used.taskRun Sample.code Sample.drawNew .empty).1 = (fresh.taskRun Sample.code Sample.drawNew .empty).1 := by
  intro built s used fresh
  have hdone : ((built.install Sample.registry .empty).2.1.execute Sample.code Sample.drawNew .empty).1 =
      .done (.ok (.i32 7)) := by decide
  have hbuilt : Used 1 ⟨.none, 30⟩ Sample.hierarchy built := .built .empty
  have hs : Used 1 ⟨.none, 30⟩ Sample.hierarchy s := (hbuilt.install Sample.registry .empty).execute hdone
  have hpoisoned : s.poisoned = false := by decide
  have hsame := execute_as_in_new hs hpoisoned Sample.registry Sample.code Sample.drawNew .empty
  have htask := hsame.2.2 fun m =>
    Code.not_performs_of_avoids Sample.body_avoids_dispatcher Sample.drawNew_avoids_dispatcher
  exact ⟨by decide, by decide, htask.1⟩

end Interpose.Sandbox
