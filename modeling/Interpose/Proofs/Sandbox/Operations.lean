import Interpose.Proofs.Execution.Kept
import Interpose.Sandbox.Lifecycle

/-!
# What the operations of a sandbox do

Each operation is described by the moves of the machine that it runs code on. A reset that is gone through with
returns to the template in the next generation; one that is not leaves a sandbox that no task can start in.
-/

namespace Interpose.Sandbox

open Machine

theorem rejection?_eq_none_iff {s : Sandbox} {operation : String} {allowed : Stage → Bool} :
    s.rejection? operation allowed = none ↔
      s.poisoned = false ∧ s.stage ≠ .destroyed ∧ allowed s.stage = true := by
  unfold rejection?
  by_cases hp : s.poisoned = true
  · simp [hp]
  · by_cases hd : s.stage = .destroyed <;> by_cases ha : allowed s.stage = true <;> simp [hp, hd, ha]

/-- What accepts a registry is not rejected. -/
theorem rejection?_eq_none {s : Sandbox} (hp : s.poisoned = false) (hs : s.stage.acceptsRegistry = true)
    (operation : String) : s.rejection? operation Stage.acceptsRegistry = none := by
  refine rejection?_eq_none_iff.2 ⟨hp, fun hd => ?_, hs⟩
  rw [hd] at hs
  cases hs

theorem install_eq {s : Sandbox} (hp : s.poisoned = false) (hs : s.stage.acceptsRegistry = true) (r : Registry)
    (j : Journal) :
    s.install r j =
      (.ok (s.dispatcher.install r).1, { s with dispatcher := (s.dispatcher.install r).2, stage := .configured },
        j.addEvent .registrySwap (toString s.id)) := by
  unfold install
  simp only [rejection?_eq_none hp hs]

/-- A task may start once a registry is installed. -/
theorem install_accepts_task {s : Sandbox} (hp : s.poisoned = false) (hs : s.stage.acceptsRegistry = true)
    (r : Registry) (j : Journal) : (s.install r j).2.1.rejection? "execute" Stage.acceptsTask = none := by
  rw [install_eq hp hs]
  exact rejection?_eq_none_iff.2 ⟨hp, (fun h => by cases h), rfl⟩

theorem destroy_poisoned (s : Sandbox) : s.destroy.poisoned = s.poisoned := by
  unfold destroy
  split <;> rfl

theorem poison_poisoned (s : Sandbox) : s.poison.poisoned = true := destroy_poisoned _

/-! ## Resetters and leak checks -/

theorem reaches_runResetters (code : Code) (shadows : List ShadowLayer) (m : Machine) :
    Reaches m (runResetters code shadows m).2 := by
  induction shadows generalizing m with
  | nil => exact .refl
  | cons shadow rest ih =>
    unfold runResetters
    split
    · have hrun := code.reaches_run (code.resetter shadow.serial) m
      refine Outcome.andThen_end (P := Reaches m) hrun fun answer _ => ?_
      exact Outcome.andThen_end (P := Reaches m) (hrun.trans (ih _)) fun failures _ => hrun.trans (ih _)
    · exact ih m

theorem askChecks_nextSandbox (memory : Memory) (checks : List LeakCheck) (j : Journal) :
    (askChecks memory checks j).2.nextSandbox = j.nextSandbox := by
  induction checks generalizing j with
  | nil => rfl
  | cons check rest ih =>
    unfold askChecks
    refine Outcome.andThen_end (P := fun j' : Journal => j'.nextSandbox = j.nextSandbox) rfl fun report _ => ?_
    exact Outcome.andThen_end (P := fun j' : Journal => j'.nextSandbox = j.nextSandbox) (ih _) fun reports _ => ih _

theorem findLeaks_nextSandbox (s : Sandbox) (j : Journal) :
    (s.findLeaks j).2.nextSandbox = j.nextSandbox := by
  have hask := askChecks_nextSandbox s.memory s.checks j
  unfold findLeaks
  split
  · exact Outcome.andThen_end (P := fun j' : Journal => j'.nextSandbox = j.nextSandbox) hask fun reports _ => hask
  · rfl

/-! ## Resets -/

/-- A reset that is gone through with leaves the template in the next generation. -/
theorem resetMemory_spec (code : Code) (s : Sandbox) (j : Journal) :
    let r := s.resetMemory code j
    r.2.2.nextSandbox = j.nextSandbox ∧
      ∃ m memory, Reaches (s.machine j) m ∧
        r.2.1 = { s with dispatcher := m.dispatcher, memory := memory } ∧
        ∀ failures, r.1 = .done failures → memory = m.memory.reset := by
  intro r
  have hreach := reaches_runResetters code s.dispatcher.registry.shadows (s.machine j)
  have hnext := hreach.nextSandbox
  rcases hrun : runResetters code s.dispatcher.registry.shadows (s.machine j) with ⟨outcome, m⟩
  rw [hrun] at hreach hnext
  cases outcome with
  | done failures =>
    have hleaks := findLeaks_nextSandbox { s.afterRun m with memory := m.memory.reset } m.journal
    rcases hl : findLeaks { s.afterRun m with memory := m.memory.reset } m.journal with ⟨found, j'⟩
    rw [hl] at hleaks
    have hr : r = Outcome.andThen (found, { s.afterRun m with memory := m.memory.reset }, j')
        fun reports after => (.done (failures ++ reports), after.1,
          after.2.addEvent .sandboxReset (toString after.1.id)) := by
      simp only [r, resetMemory, hrun, Outcome.andThen_done]
      simp only [afterRun] at hl ⊢
      rw [hl]
    rw [hr]
    cases found <;> exact ⟨hleaks.trans hnext, m, m.memory.reset, hreach, rfl, fun _ _ => rfl⟩
  | panicked payload =>
    have hr : r = (.panicked payload, s.afterRun m, m.journal) := by
      simp only [r, resetMemory, hrun, Outcome.andThen_panicked]
    rw [hr]
    exact ⟨hnext, m, m.memory, hreach, rfl, fun _ h => by cases h⟩
  | unfinished =>
    have hr : r = (.unfinished, s.afterRun m, m.journal) := by
      simp only [r, resetMemory, hrun, Outcome.andThen_unfinished]
    rw [hr]
    exact ⟨hnext, m, m.memory, hreach, rfl, fun _ h => by cases h⟩

/-! ## Executions -/

/-- The task of an execution, up to the reset. -/
def taskRun (code : Code) (task : Program (Except Error Value)) (s : Sandbox) (j : Journal) :
    Outcome (Except Error Value) × Machine :=
  code.run task (s.machine { j with record := [] })

/-- A sandbox while the reset after a task goes on, and how the execution ends with it. -/
def finish (code : Code) (result : Except Error Value) (s : Sandbox) (j : Journal) :
    Outcome (Except Error Value) × Sandbox × Journal :=
  Outcome.andThen (s.resetMemory code j) fun failures after =>
    if failures.isEmpty then (.done result, { after.1 with stage := .idle }, after.2)
    else (.done (result.bind fun _ => .error (after.1.leakOf failures)), after.1.poison, after.2)

/-- The sandbox that a task leaves to the reset. -/
def afterTask (s : Sandbox) (m : Machine) : Sandbox :=
  { s with stage := .active, runs := s.runs + 1, dispatcher := m.dispatcher, memory := m.memory }

/-- An execution that is accepted is its task and then a reset. -/
theorem execute_eq {code : Code} {task : Program (Except Error Value)} {s : Sandbox} {j : Journal}
    (h : s.rejection? "execute" Stage.acceptsTask = none) :
    s.execute code task j =
      Outcome.andThen (taskResult (s.taskRun code task j).1, s.afterTask (s.taskRun code task j).2,
          (s.taskRun code task j).2.journal)
        fun result after => after.1.finish code result after.2 := by
  unfold execute
  simp only [h]
  rfl

theorem machine_afterTask {s : Sandbox} {m : Machine} (h : m.sandboxId = s.id) :
    (s.afterTask m).machine m.journal = m := by
  rw [machine, afterTask, ← h]

/-- The reset after a task leaves the sandbox idle and as declared, in the next generation, or poisons it. If it
does not come to its end the sandbox stays in the stage that it was in. -/
theorem finish_spec (code : Code) (result : Except Error Value) (s : Sandbox) (j : Journal) :
    let r := s.finish code result j
    r.2.2.nextSandbox = j.nextSandbox ∧
      ∃ m, Reaches (s.machine j) m ∧
        (r.2.1 = { s with stage := .idle, dispatcher := m.dispatcher, memory := m.memory.reset } ∨
          r.2.1.poisoned = true ∨ r.2.1.stage = s.stage ∧ ∀ answer, r.1 ≠ .done answer) := by
  intro r
  obtain ⟨hnext, m, memory, hreach, hafter, hmemory⟩ := resetMemory_spec code s j
  rcases hr : s.resetMemory code j with ⟨ended, s', j'⟩
  rw [hr] at hnext hafter hmemory
  simp only at hnext hafter hmemory
  cases ended with
  | done failures =>
    rw [hmemory failures rfl] at hafter
    by_cases hf : failures.isEmpty = true
    · have hfinish : r = (.done result, { s' with stage := .idle }, j') := by
        simp only [r, finish, hr, Outcome.andThen_done, if_pos hf]
      rw [hfinish]
      exact ⟨hnext, m, hreach, .inl (by rw [hafter])⟩
    · have hfinish : r = (.done (result.bind fun _ => .error (s'.leakOf failures)), s'.poison, j') := by
        simp only [r, finish, hr, Outcome.andThen_done, if_neg hf]
      rw [hfinish]
      exact ⟨hnext, m, hreach, .inr (.inl (poison_poisoned _))⟩
  | panicked payload =>
    have hfinish : r = (.panicked payload, s', j') := by
      simp only [r, finish, hr, Outcome.andThen_panicked]
    rw [hfinish]
    exact ⟨hnext, m, hreach, .inr (.inr ⟨by rw [hafter], fun _ h => by cases h⟩)⟩
  | unfinished =>
    have hfinish : r = (.unfinished, s', j') := by
      simp only [r, finish, hr, Outcome.andThen_unfinished]
    rw [hfinish]
    exact ⟨hnext, m, hreach, .inr (.inr ⟨by rw [hafter], fun _ h => by cases h⟩)⟩

/-- After an execution that is accepted, the sandbox is idle and as declared, in the next generation, or it is
poisoned. If the execution does not come to its end the sandbox is left as if the task were still running. -/
theorem execute_spec {s : Sandbox} (h : s.rejection? "execute" Stage.acceptsTask = none) (code : Code)
    (task : Program (Except Error Value)) (j : Journal) :
    let r := s.execute code task j
    r.2.2.nextSandbox = j.nextSandbox ∧
      ∃ m, Reaches (s.machine { j with record := [] }) m ∧
        (r.2.1 = { s with
            stage := .idle, runs := s.runs + 1, dispatcher := m.dispatcher, memory := m.memory.reset } ∨
          r.2.1.poisoned = true ∨ r.2.1.stage = .active ∧ ∀ answer, r.1 ≠ .done answer) := by
  intro r
  have hreach : Reaches (s.machine { j with record := [] }) (s.taskRun code task j).2 := code.reaches_run _ _
  have hnext : (s.taskRun code task j).2.journal.nextSandbox = j.nextSandbox := hreach.nextSandbox
  have hr : r = _ := execute_eq h
  cases hresult : taskResult (s.taskRun code task j).1 with
  | done result =>
    rw [hresult, Outcome.andThen_done] at hr
    obtain ⟨hfinish, m, hreset, hafter⟩ := finish_spec code result (s.afterTask (s.taskRun code task j).2)
      (s.taskRun code task j).2.journal
    rw [machine_afterTask hreach.sandboxId] at hreset
    rw [hr]
    exact ⟨hfinish.trans hnext, m, hreach.trans hreset, hafter⟩
  | panicked payload =>
    rw [hresult, Outcome.andThen_panicked] at hr
    rw [hr]
    exact ⟨hnext, _, hreach, .inr (.inr ⟨rfl, fun _ h => by cases h⟩)⟩
  | unfinished =>
    rw [hresult, Outcome.andThen_unfinished] at hr
    rw [hr]
    exact ⟨hnext, _, hreach, .inr (.inr ⟨rfl, fun _ h => by cases h⟩)⟩

/-- A reset that is accepted and comes to its end leaves the sandbox as declared, in the next generation, or
poisons it. -/
theorem reset_spec {code : Code} {s : Sandbox} {j : Journal} {answer : Except Error Unit}
    (h : s.rejection? "reset" Stage.acceptsRegistry = none) (hdone : (s.reset code j).1 = .done answer) :
    ∃ m, Reaches (s.machine j) m ∧
      ((s.reset code j).2.1 = { s with dispatcher := m.dispatcher, memory := m.memory.reset } ∨
        (s.reset code j).2.1.poisoned = true) := by
  obtain ⟨_, m, memory, hreach, hafter, hmemory⟩ := resetMemory_spec code s j
  rcases hr : s.resetMemory code j with ⟨ended, s', j'⟩
  rw [hr] at hafter hmemory
  simp only at hafter hmemory
  simp only [reset, h, hr] at hdone ⊢
  cases ended with
  | done failures =>
    rw [hmemory failures rfl] at hafter
    rw [Outcome.andThen_done]
    by_cases hf : failures.isEmpty = true
    · rw [if_pos hf]
      exact ⟨m, hreach, .inl hafter⟩
    · rw [if_neg hf]
      exact ⟨m, hreach, .inr (poison_poisoned _)⟩
  | panicked payload => cases hdone
  | unfinished => cases hdone

end Interpose.Sandbox
