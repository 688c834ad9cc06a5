import Interpose.Proofs.Sandbox.Operations

/-!
# Lives of a sandbox

A life is a list of operations, done one after another. The table of a sandbox's life says in which stages an
operation is accepted and where it leads. What is not accepted changes nothing. What is accepted and comes to its end
leads where the table says, or a leak was found and the sandbox is destroyed for good.
-/

namespace Interpose.Sandbox

open Machine

/-- What can be done with a sandbox. -/
inductive Operation where
  | configure
  | install (registry : Registry)
  | execute (code : Code) (task : Program (Except Error Value))
  | reset (code : Code)
  | destroy

namespace Operation

/-- What a refusal calls an operation. -/
def name : Operation → String
  | configure => "configure"
  | install _ => "install_registry"
  | execute .. => "execute"
  | reset _ => "reset"
  | destroy => "destroy"

/-- The stages that the table has an operation for. -/
def startsFrom : Operation → Stage → Bool
  | configure, stage => stage = .uninitialized
  | install _, stage | reset _, stage => stage = .configured || stage = .idle
  | execute .., stage => stage = .configured
  | destroy, _ => true

/-- The stage that an operation leads to by the table. -/
def leadsTo : Operation → Stage → Stage
  | configure, _ | install _, _ => .configured
  | execute .., _ => .idle
  | reset _, stage => stage
  | destroy, _ => .destroyed

def isExecute : Operation → Bool
  | execute .. => true
  | _ => false

def isReset : Operation → Bool
  | reset _ => true
  | _ => false

def isDestroy : Operation → Bool
  | destroy => true
  | _ => false

end Operation

/-- Whether an operation is accepted: the table has it, and a poisoned sandbox can only be destroyed. -/
def accepts (s : Sandbox) (op : Operation) : Bool :=
  op.startsFrom s.stage && (!s.poisoned || op.isDestroy)

/-- Why an operation is not accepted. -/
def refusal (s : Sandbox) (op : Operation) : Error :=
  if s.poisoned then .poisoned s.id else .invalidStage s.stage op.name

/-- Does an operation. Of its answer only an error is kept. -/
def apply (s : Sandbox) (op : Operation) (j : Journal) : Outcome (Except Error Unit) × Sandbox × Journal :=
  match op with
  | .configure => (.done (s.configure j).1, (s.configure j).2)
  | .install registry => (.done ((s.install registry j).1.map fun _ => ()), (s.install registry j).2)
  | .execute code task =>
    Outcome.andThen (s.execute code task j) fun result after => (.done (result.map fun _ => ()), after)
  | .reset code => s.reset code j
  | .destroy => (.done (.ok ()), s.destroy, j)

/-- An operation and the journal that it finds. -/
abbrev Step := Operation × Journal

/-- The sandbox after an operation, however that ended. -/
def step (s : Sandbox) (x : Step) : Sandbox := (s.apply x.1 x.2).2.1

/-- The sandbox after a life. -/
def after (s : Sandbox) (steps : List Step) : Sandbox := steps.foldl step s

/-- The operations of a life that were accepted, in order. -/
def accepted : Sandbox → List Step → List Operation
  | _, [] => []
  | s, x :: rest => (if s.accepts x.1 then [x.1] else []) ++ accepted (s.step x) rest

/-- The code of an operation comes to its end. A task may fail or panic; but the resetters and the leak checks of a
reset return. -/
def Ends (s : Sandbox) (x : Step) : Prop :=
  match x.1 with
  | .execute code task =>
    let run := s.taskRun code task x.2
    run.1 ≠ .unfinished ∧ ∃ failures, ((s.afterTask run.2).resetMemory code run.2.journal).1 = .done failures
  | .reset code => ∃ failures, (s.resetMemory code x.2).1 = .done failures
  | .configure | .install _ | .destroy => True

/-- The code of every operation of a life that is accepted comes to its end. -/
def Ending : Sandbox → List Step → Prop
  | _, [] => True
  | s, x :: rest => (s.accepts x.1 = true → s.Ends x) ∧ Ending (s.step x) rest

variable {s : Sandbox} {op : Operation} {j : Journal}

/-! ## What is not accepted -/

theorem rejection?_of_not_accepts (allowed : Stage → Bool) (hop : op.isDestroy = false)
    (hallowed : ∀ stage, op.startsFrom stage = allowed stage) (h : s.accepts op = false) :
    s.rejection? op.name allowed = some (s.refusal op) := by
  unfold rejection? refusal
  cases hp : s.poisoned with
  | true => rfl
  | false =>
    rw [accepts, hop, hp, hallowed] at h
    have hstage : allowed s.stage = false := by simpa using h
    simp only [hstage, Bool.not_false, Bool.or_true, if_true, Bool.false_eq_true, if_false]

theorem rejection?_of_accepts (op : Operation) {allowed : Stage → Bool} (hop : op.isDestroy = false)
    (hallowed : ∀ stage, op.startsFrom stage = allowed stage) (hdestroyed : allowed .destroyed = false)
    (h : s.accepts op = true) : s.rejection? op.name allowed = none := by
  rw [accepts, hop, hallowed] at h
  simp only [Bool.or_false, Bool.and_eq_true, Bool.not_eq_true'] at h
  refine rejection?_eq_none_iff.2 ⟨h.2, fun hd => ?_, h.1⟩
  rw [hd, hdestroyed] at h
  exact Bool.noConfusion h.1

/-- An operation that is not accepted is answered by an error and leaves the sandbox as it was. -/
theorem apply_of_not_accepts (h : s.accepts op = false) :
    (s.apply op j).1 = .done (.error (s.refusal op)) ∧ (s.apply op j).2.1 = s := by
  cases op with
  | configure =>
    have hr := rejection?_of_not_accepts (· = .uninitialized) rfl (fun _ => rfl) h
    simp only [apply, configure]
    rw [show s.rejection? "configure" _ = _ from hr]
    exact ⟨rfl, rfl⟩
  | install registry =>
    have hr := rejection?_of_not_accepts Stage.acceptsRegistry rfl (fun _ => rfl) h
    simp only [apply, install]
    rw [show s.rejection? "install_registry" _ = _ from hr]
    exact ⟨rfl, rfl⟩
  | execute code task =>
    have hr := rejection?_of_not_accepts Stage.acceptsTask rfl (fun _ => rfl) h
    simp only [apply, execute]
    rw [show s.rejection? "execute" _ = _ from hr]
    exact ⟨rfl, rfl⟩
  | reset code =>
    have hr := rejection?_of_not_accepts Stage.acceptsRegistry rfl (fun _ => rfl) h
    simp only [apply, reset]
    rw [show s.rejection? "reset" _ = _ from hr]
    exact ⟨rfl, rfl⟩
  | destroy =>
    have haccepts : s.accepts .destroy = true := by simp [accepts, Operation.startsFrom, Operation.isDestroy]
    rw [haccepts] at h
    cases h

theorem step_of_not_accepts {x : Step} (h : s.accepts x.1 = false) : s.step x = s :=
  (apply_of_not_accepts h).2

theorem Operation.eq_destroy (hop : op.isDestroy = true) : op = .destroy := by
  cases op with
  | destroy => rfl
  | configure | install | execute | reset => cases hop

theorem Operation.not_isDestroy (hop : op ≠ .destroy) : op.isDestroy = false :=
  Bool.eq_false_iff.2 fun h => hop (Operation.eq_destroy h)

/-- A destroyed sandbox accepts nothing but to be destroyed again. -/
theorem not_accepts_of_destroyed (hs : s.stage = .destroyed) (hop : op.isDestroy = false) :
    s.accepts op = false := by
  rw [accepts, hs]
  cases op with
  | destroy => cases hop
  | configure | install | execute | reset => rfl

/-- A destroyed sandbox stays just as it is. -/
theorem step_of_destroyed (hs : s.stage = .destroyed) (x : Step) : s.step x = s := by
  obtain ⟨op, j⟩ := x
  cases hop : op.isDestroy with
  | false => exact step_of_not_accepts (not_accepts_of_destroyed hs hop)
  | true =>
    rw [Operation.eq_destroy hop]
    change s.destroy = s
    rw [destroy, if_pos hs]

/-! ## What is accepted -/

theorem apply_configure (h : s.accepts .configure = true) :
    s.apply .configure j =
      (.done (.ok ()), { s with memory := s.memory.load s.hierarchy, stage := .configured },
        j.addEvent .sandboxBuild (toString s.id)) := by
  have hr : s.rejection? "configure" (· = .uninitialized) = none :=
    rejection?_of_accepts .configure rfl (fun _ => rfl) rfl h
  simp only [apply, configure, hr]

theorem apply_install {registry : Registry} (h : s.accepts (.install registry) = true) :
    s.apply (.install registry) j =
      (.done (.ok ()), { s with dispatcher := (s.dispatcher.install registry).2, stage := .configured },
        j.addEvent .registrySwap (toString s.id)) := by
  have hr : s.rejection? "install_registry" Stage.acceptsRegistry = none :=
    rejection?_of_accepts (.install registry) rfl (fun _ => rfl) rfl h
  simp only [apply, install, hr]
  rfl

theorem apply_reset {code : Code} (h : s.accepts (.reset code) = true) :
    s.apply (.reset code) j =
      Outcome.andThen (s.resetMemory code j) fun failures after =>
        if failures.isEmpty then (.done (.ok ()), after.1, after.2)
        else (.done (.error (after.1.leakOf failures)), after.1.poison, after.2) := by
  have hr : s.rejection? "reset" Stage.acceptsRegistry = none :=
    rejection?_of_accepts (.reset code) rfl (fun _ => rfl) rfl h
  simp only [apply, reset, hr]

theorem apply_execute {code : Code} {task : Program (Except Error Value)}
    (h : s.accepts (.execute code task) = true) :
    s.apply (.execute code task) j =
      Outcome.andThen
        (Outcome.andThen (taskResult (s.taskRun code task j).1, s.afterTask (s.taskRun code task j).2,
            (s.taskRun code task j).2.journal)
          fun result after => after.1.finish code result after.2)
        fun result after => (.done (result.map fun _ => ()), after) := by
  have hr : s.rejection? "execute" Stage.acceptsTask = none :=
    rejection?_of_accepts (.execute code task) rfl (fun _ => rfl) rfl h
  rw [apply, execute_eq hr]

/-- What an accepted operation that comes to its end makes of a sandbox. -/
structure Advances (s : Sandbox) (op : Operation) (s' : Sandbox) : Prop where
  id : s'.id = s.id
  checks : s'.checks = s.checks
  runs : s'.runs = s.runs + if op.isExecute then 1 else 0
  generation : s'.memory.generation = s.memory.generation + if op.isExecute || op.isReset then 1 else 0
  /-- It went as the table says, or a leak was found. -/
  stage : s'.poisoned = s.poisoned ∧ s'.stage = op.leadsTo s.stage ∨
    (op.isExecute || op.isReset) = true ∧ s'.poisoned = true ∧ s'.stage = .destroyed

theorem destroy_stage (s : Sandbox) : s.destroy.stage = .destroyed := by
  unfold destroy
  split
  · assumption
  · rfl

theorem destroy_runs (s : Sandbox) : s.destroy.runs = s.runs := by
  unfold destroy
  split <;> rfl

theorem destroy_generation (s : Sandbox) : s.destroy.memory.generation = s.memory.generation := by
  unfold destroy
  split <;> rfl

theorem destroy_id (s : Sandbox) : s.destroy.id = s.id := by
  unfold destroy
  split <;> rfl

theorem destroy_checks (s : Sandbox) : s.destroy.checks = s.checks := by
  unfold destroy
  split <;> rfl

/-- How a reset that comes to its end leaves a sandbox: it goes on in the given stage, or it is poisoned. -/
structure Resets (s s' : Sandbox) (stage : Stage) : Prop where
  id : s'.id = s.id
  checks : s'.checks = s.checks
  runs : s'.runs = s.runs
  generation : s'.memory.generation = s.memory.generation + 1
  stage : s'.poisoned = s.poisoned ∧ s'.stage = stage ∨ s'.poisoned = true ∧ s'.stage = .destroyed

section Resetting

variable {code : Code} {failures : List String} {s' : Sandbox} {j' : Journal}

/-- A reset that comes to its end opens the next generation and leaves the rest of the sandbox alone. -/
theorem resetMemory_of_done (h : s.resetMemory code j = (.done failures, s', j')) :
    ∃ d memory, s' = { s with dispatcher := d, memory := memory } ∧
      memory.generation = s.memory.generation + 1 := by
  obtain ⟨_, m, memory, hreach, hafter, hmemory⟩ := resetMemory_spec code s j
  rw [h] at hafter hmemory
  refine ⟨m.dispatcher, memory, hafter, ?_⟩
  have hgeneration : m.memory.generation = s.memory.generation := hreach.evolves.generation
  rw [hmemory failures rfl, ← hgeneration]
  rfl

theorem resets_of_clean (h : s.resetMemory code j = (.done failures, s', j')) (stage : Stage) :
    Resets s { s' with stage := stage } stage := by
  obtain ⟨d, memory, rfl, hgeneration⟩ := resetMemory_of_done h
  exact ⟨rfl, rfl, rfl, hgeneration, .inl ⟨rfl, rfl⟩⟩

theorem resets_of_leak (h : s.resetMemory code j = (.done failures, s', j')) (stage : Stage) :
    Resets s s'.poison stage := by
  obtain ⟨d, memory, rfl, hgeneration⟩ := resetMemory_of_done h
  exact ⟨destroy_id _, destroy_checks _, destroy_runs _, (destroy_generation _).trans hgeneration,
    .inr ⟨poison_poisoned _, destroy_stage _⟩⟩

end Resetting

theorem taskResult_of_ne_unfinished {outcome : Outcome (Except Error Value)} (h : outcome ≠ .unfinished) :
    ∃ result, taskResult outcome = .done result := by
  cases outcome with
  | done result => exact ⟨result, rfl⟩
  | panicked payload => exact ⟨_, rfl⟩
  | unfinished => exact absurd rfl h

theorem advances_execute {code : Code} {task : Program (Except Error Value)}
    (h : s.accepts (.execute code task) = true) (hends : s.Ends (.execute code task, j)) :
    (∃ answer, (s.apply (.execute code task) j).1 = .done answer) ∧
      s.Advances (.execute code task) (s.apply (.execute code task) j).2.1 := by
  obtain ⟨hrun, failures, hreset⟩ := hends
  obtain ⟨result, hresult⟩ := taskResult_of_ne_unfinished hrun
  have htask : (s.taskRun code task j).2.memory.generation = s.memory.generation :=
    (code.reaches_run task (s.machine { j with record := [] })).evolves.generation
  have hadvances : ∀ {s' : Sandbox}, Resets (s.afterTask (s.taskRun code task j).2) s' .idle →
      s.Advances (.execute code task) s' := fun hs =>
    ⟨hs.id, hs.checks, hs.runs, hs.generation.trans (congrArg (· + 1) htask), hs.stage.imp_right fun h => ⟨rfl, h⟩⟩
  rcases hm : (s.afterTask (s.taskRun code task j).2).resetMemory code (s.taskRun code task j).2.journal
    with ⟨outcome, after, j'⟩
  rw [hm] at hreset
  obtain rfl : outcome = .done failures := hreset
  simp only [apply_execute h, hresult, Outcome.andThen_done, finish, hm]
  by_cases hf : failures.isEmpty = true
  · rw [if_pos hf]
    exact ⟨⟨_, rfl⟩, hadvances (resets_of_clean hm .idle)⟩
  · rw [if_neg hf]
    exact ⟨⟨_, rfl⟩, hadvances (resets_of_leak hm .idle)⟩

theorem advances_reset {code : Code} (h : s.accepts (.reset code) = true) (hends : s.Ends (.reset code, j)) :
    (∃ answer, (s.apply (.reset code) j).1 = .done answer) ∧
      s.Advances (.reset code) (s.apply (.reset code) j).2.1 := by
  obtain ⟨failures, hreset⟩ := hends
  have hadvances : ∀ {s' : Sandbox}, Resets s s' s.stage → s.Advances (.reset code) s' := fun hs =>
    ⟨hs.id, hs.checks, hs.runs, hs.generation, hs.stage.imp_right fun h => ⟨rfl, h⟩⟩
  rcases hm : s.resetMemory code j with ⟨outcome, after, j'⟩
  rw [hm] at hreset
  obtain rfl : outcome = .done failures := hreset
  simp only [apply_reset h, hm, Outcome.andThen_done]
  by_cases hf : failures.isEmpty = true
  · rw [if_pos hf]
    obtain ⟨d, memory, rfl, _⟩ := resetMemory_of_done hm
    exact ⟨⟨_, rfl⟩, hadvances (resets_of_clean hm s.stage)⟩
  · rw [if_neg hf]
    exact ⟨⟨_, rfl⟩, hadvances (resets_of_leak hm s.stage)⟩

/-- An accepted operation whose code comes to its end is answered and goes as the table says, or finds a leak. -/
theorem advances_of_accepts (h : s.accepts op = true) (hends : s.Ends (op, j)) :
    (∃ answer, (s.apply op j).1 = .done answer) ∧ s.Advances op (s.apply op j).2.1 := by
  cases op with
  | configure =>
    rw [apply_configure h]
    exact ⟨⟨_, rfl⟩, rfl, rfl, rfl, rfl, .inl ⟨rfl, rfl⟩⟩
  | install registry =>
    rw [apply_install h]
    exact ⟨⟨_, rfl⟩, rfl, rfl, rfl, rfl, .inl ⟨rfl, rfl⟩⟩
  | execute code task => exact advances_execute h hends
  | reset code => exact advances_reset h hends
  | destroy =>
    exact ⟨⟨_, rfl⟩, destroy_id s, destroy_checks s, destroy_runs s, destroy_generation s,
      .inl ⟨destroy_poisoned s, destroy_stage s⟩⟩

end Interpose.Sandbox
