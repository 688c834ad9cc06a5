import Interpose.Proofs.Execution.Moments
import Interpose.Proofs.Sandbox.Lives

/-!
# The stages of a life

Between two operations no task is running, and a sandbox that leaked is destroyed. Both are kept by every accepted
operation whose code comes to its end, and from them follows what becomes of a sandbox over a whole life.
-/

namespace Interpose.Sandbox

open Machine

variable {s : Sandbox} {op : Operation} {j : Journal} {steps : List Step}

/-- What holds of a sandbox between two operations. -/
structure Resting (s : Sandbox) : Prop where
  inactive : s.stage ≠ .active
  destroyed : s.poisoned = true → s.stage = .destroyed

theorem Resting.advances (hs : s.Resting) {s' : Sandbox} (ha : s.accepts op = true) (h : s.Advances op s') :
    s'.Resting := by
  obtain ⟨hpoisoned, hstage⟩ | ⟨_, _, hstage⟩ := h.stage
  · constructor
    · rw [hstage]
      cases op with
      | reset code => exact hs.inactive
      | configure | install | execute | destroy => exact Stage.noConfusion
    · intro hp
      rw [hpoisoned] at hp
      -- A poisoned sandbox accepts nothing but to be destroyed.
      rw [accepts, hp] at ha
      cases op with
      | destroy => exact hstage
      | configure | install | execute | reset => simp [Operation.isDestroy] at ha
  · exact ⟨by rw [hstage]; exact Stage.noConfusion, fun _ => hstage⟩

theorem Resting.step (hs : s.Resting) {x : Step} (hends : s.accepts x.1 = true → s.Ends x) :
    (s.step x).Resting := by
  cases ha : s.accepts x.1 with
  | true => exact hs.advances ha (advances_of_accepts ha (hends ha)).2
  | false => rwa [step_of_not_accepts ha]

/-- How many executions of a life were accepted. -/
def executions (s : Sandbox) (steps : List Step) : Nat := (accepted s steps).countP Operation.isExecute

/-- How many resets of a life were accepted, besides those that end executions. -/
def resets (s : Sandbox) (steps : List Step) : Nat := (accepted s steps).countP Operation.isReset

/-- What a life adds up to. -/
structure Lived (s : Sandbox) (steps : List Step) (s' : Sandbox) : Prop where
  id : s'.id = s.id
  resting : s'.Resting
  runs : s'.runs = s.runs + executions s steps
  generation : s'.memory.generation = s.memory.generation + (executions s steps + resets s steps)

theorem Resting.lived (hs : s.Resting) (hends : Ending s steps) : Lived s steps (s.after steps) := by
  induction steps generalizing s with
  | nil => exact ⟨rfl, hs, rfl, rfl⟩
  | cons x rest ih =>
    have hrest := ih (hs.step hends.1) hends.2
    have hafter : s.after (x :: rest) = (s.step x).after rest := rfl
    rw [hafter]
    cases ha : s.accepts x.1 with
    | false =>
      have hsame := step_of_not_accepts ha
      have haccepted : accepted s (x :: rest) = accepted s rest := by
        rw [accepted, ha, hsame]
        rfl
      rw [hsame] at hrest ⊢
      refine ⟨hrest.id, hrest.resting, ?_, ?_⟩
      · rw [hrest.runs, executions, executions, haccepted]
      · rw [hrest.generation, executions, executions, resets, resets, haccepted]
    | true =>
      have hstep := (advances_of_accepts ha (hends.1 ha)).2
      have haccepted : accepted s (x :: rest) = x.1 :: accepted (s.step x) rest := by
        rw [accepted, ha]
        rfl
      refine ⟨hrest.id.trans hstep.id, hrest.resting, ?_, ?_⟩
      · have hruns : (s.step x).runs = _ := hstep.runs
        rw [hrest.runs, hruns, executions, executions, haccepted, List.countP_cons]
        omega
      · have hgeneration : (s.step x).memory.generation = _ := hstep.generation
        rw [hrest.generation, hgeneration, executions, executions, resets, resets, haccepted, List.countP_cons,
          List.countP_cons]
        cases x.1 <;> simp [Operation.isExecute, Operation.isReset] <;> omega

theorem after_of_destroyed (hs : s.stage = .destroyed) (more : List Step) : s.after more = s := by
  induction more with
  | nil => rfl
  | cons x rest ih =>
    have hafter : s.after (x :: rest) = (s.step x).after rest := rfl
    rw [hafter, step_of_destroyed hs, ih]

/-! ## Code that comes to its end -/

/-- The resetters of a body of code return, whatever they find. -/
def ResettersReturn (code : Code) : Prop :=
  ∀ serial m, ∃ answer, (code.run (code.resetter serial) m).1 = .done answer

/-- A leak check never panics. -/
def CheckReturns (check : LeakCheck) : Prop :=
  ∀ count memory payload, check.inspect count memory ≠ .panic payload

/-- The code of an operation returns: its resetters do, and its task at least panics. -/
def Operation.Returns : Operation → Prop
  | execute code task => ResettersReturn code ∧ ∀ m, (code.run task m).1 ≠ .unfinished
  | reset code => ResettersReturn code
  | configure | install _ | destroy => True

section Returning

variable {code : Code}

theorem andThen_returns {α β σ : Type} {ended : Outcome α × σ} {f : α → σ → Outcome β × σ}
    (h : ∃ a, ended.1 = .done a) (hf : ∀ a, ∃ b, (f a ended.2).1 = .done b) :
    ∃ b, (Outcome.andThen ended f).1 = .done b := by
  obtain ⟨outcome, s⟩ := ended
  obtain ⟨a, rfl⟩ := h
  exact hf a

theorem runResetters_returns (hcode : ResettersReturn code) (shadows : List ShadowLayer) (m : Machine) :
    ∃ failures, (runResetters code shadows m).1 = .done failures := by
  induction shadows generalizing m with
  | nil => exact ⟨[], rfl⟩
  | cons shadow rest ih =>
    unfold runResetters
    split
    · exact andThen_returns (hcode shadow.serial m) fun _ => andThen_returns (ih _) fun _ => ⟨_, rfl⟩
    · exact ih m

theorem reportOf_returns {check : LeakCheck} (hcheck : CheckReturns check) (count : Nat) (memory : Memory) :
    ∃ report, reportOf check (check.inspect count memory) = .done report := by
  cases hf : check.inspect count memory with
  | clean => exact ⟨_, rfl⟩
  | leak details => exact ⟨_, rfl⟩
  | panic payload => exact absurd hf (hcheck count memory payload)

theorem askChecks_returns {checks : List LeakCheck} (hchecks : ∀ check ∈ checks, CheckReturns check)
    (memory : Memory) (j : Journal) : ∃ reports, (askChecks memory checks j).1 = .done reports := by
  induction checks generalizing j with
  | nil => exact ⟨[], rfl⟩
  | cons check rest ih =>
    have hrest := ih fun check hc => hchecks check (List.mem_cons_of_mem _ hc)
    unfold askChecks
    exact andThen_returns (reportOf_returns (hchecks check List.mem_cons_self) _ memory) fun _ =>
      andThen_returns (hrest _) fun _ => ⟨_, rfl⟩

theorem findLeaks_returns (hchecks : ∀ check ∈ s.checks, CheckReturns check) (j : Journal) :
    ∃ reports, (s.findLeaks j).1 = .done reports := by
  unfold findLeaks
  split
  · exact andThen_returns (askChecks_returns hchecks s.memory j) fun _ => ⟨_, rfl⟩
  · exact ⟨[], rfl⟩

/-- A reset comes to its end if the resetters and the leak checks return. -/
theorem resetMemory_returns (hcode : ResettersReturn code) (hchecks : ∀ check ∈ s.checks, CheckReturns check)
    (j : Journal) : ∃ failures, (s.resetMemory code j).1 = .done failures := by
  let m := (runResetters code s.dispatcher.registry.shadows (s.machine j)).2
  have hrun := runResetters_returns hcode s.dispatcher.registry.shadows (s.machine j)
  have hleaks := findLeaks_returns (s := { s.afterRun m with memory := m.memory.reset }) hchecks m.journal
  unfold resetMemory
  refine andThen_returns hrun fun _ => ?_
  exact andThen_returns hleaks fun _ => ⟨_, rfl⟩

end Returning

theorem ends_of_returns {x : Step} (hchecks : ∀ check ∈ s.checks, CheckReturns check) (hx : x.1.Returns) :
    s.Ends x := by
  obtain ⟨op, j⟩ := x
  cases op with
  | execute code task =>
    obtain ⟨hcode, htask⟩ := hx
    exact ⟨htask _, resetMemory_returns (s := s.afterTask (s.taskRun code task j).2) hcode hchecks _⟩
  | reset code => exact resetMemory_returns hx hchecks j
  | configure | install | destroy => trivial

/-- If leak checks and the code of every operation return, a life is gone through with. -/
theorem ending_of_returns (hchecks : ∀ check ∈ s.checks, CheckReturns check) (hsteps : ∀ x ∈ steps, x.1.Returns) :
    Ending s steps := by
  induction steps generalizing s with
  | nil => trivial
  | cons x rest ih =>
    have hends : s.Ends x := ends_of_returns hchecks (hsteps x List.mem_cons_self)
    refine ⟨fun _ => hends, ih ?_ fun y hy => hsteps y (List.mem_cons_of_mem _ hy)⟩
    cases ha : s.accepts x.1 with
    | false => rwa [step_of_not_accepts ha]
    | true =>
      have hsame : (s.step x).checks = s.checks := (advances_of_accepts ha hends).2.checks
      rwa [hsame]

/-! ## The main result -/

/-- Take a new sandbox, with leak detection on or off and any leak checks, and any life of it in which the code of
every accepted operation comes to its end, as it does if resetters and leak checks return (`ending_of_returns`).
Afterwards no task is running. The runs are the accepted executions, and the generation is their number and that of
the accepted resets. A poisoned sandbox is destroyed and stays just as it is, whatever follows. An operation that the
table does not have, or any but destruction of a poisoned sandbox, leaves the whole sandbox as it was and is answered
by the error for poisoned sandboxes or else by the error that names the stage; in a sandbox destroyed without
poisoning this is every operation but destruction. An accepted operation whose code comes to its end is answered and
leads where the table says, or, if it ends in a reset, to a poisoned and destroyed sandbox. -/
theorem life_of_new (id : Nat) (key : SandboxKey) (h : Hierarchy) (detectLeaks : Bool) (checks : List LeakCheck)
    (steps : List Step) :
    let start : Sandbox := { new id key h with detectLeaks := detectLeaks, checks := checks }
    let s := start.after steps
    Ending start steps →
      s.stage ≠ .active ∧ s.runs = executions start steps ∧
      s.memory.generation = executions start steps + resets start steps ∧
      (s.poisoned = true → s.stage = .destroyed ∧ ∀ more, s.after more = s) ∧
      ∀ op j,
        (s.accepts op = false → (s.apply op j).1 = .done (.error (s.refusal op)) ∧ (s.apply op j).2.1 = s) ∧
        (s.stage = .destroyed → op.isDestroy = false → s.accepts op = false ∧
          s.refusal op = if s.poisoned then .poisoned id else .invalidStage .destroyed op.name) ∧
        (s.accepts op = true → s.Ends (op, j) → (∃ answer, (s.apply op j).1 = .done answer) ∧
          let s' := (s.apply op j).2.1
          (s'.poisoned = s.poisoned ∧ s'.stage = op.leadsTo s.stage ∨
            (op.isExecute || op.isReset) = true ∧ s'.poisoned = true ∧ s'.stage = .destroyed)) := by
  intro start s hends
  have hnew : start.Resting := ⟨Stage.noConfusion, fun h => by cases h⟩
  have hlived : Lived start steps s := hnew.lived hends
  refine ⟨hlived.resting.inactive, hlived.runs.trans (Nat.zero_add _), hlived.generation.trans (Nat.zero_add _),
    fun hp => ⟨hlived.resting.destroyed hp, after_of_destroyed (hlived.resting.destroyed hp)⟩,
    fun op j => ⟨apply_of_not_accepts, fun hd hop => ⟨not_accepts_of_destroyed hd hop, ?_⟩, fun ha hop => ?_⟩⟩
  · rw [refusal, hlived.id, hd]
    rfl
  · obtain ⟨hanswer, hadvances⟩ := advances_of_accepts ha hop
    exact ⟨hanswer, hadvances.stage⟩

/-- Two buttons are drawn, with one attempt between them that is refused, and the reset after that is found to leak by
a check that counts generations. The first drawing is accepted and answered. -/
theorem life_of_new_button :
    let check : LeakCheck := ⟨"third", 0, fun _ m => if m.generation = 3 then .leak "late" else .clean⟩
    let start : Sandbox := { new 1 ⟨.none, 30⟩ Sample.hierarchy with detectLeaks := true, checks := [check] }
    let draw : Operation := .execute Sample.code Sample.drawNew
    let life : List Step :=
      [(.configure, .empty), (draw, .empty), (draw, .empty), (.install Sample.registry, .empty), (draw, .empty),
        (.reset Sample.code, .empty)]
    let configured := start.after [(.configure, .empty)]
    let s := start.after life
    (s.runs = 2 ∧ s.memory.generation = 3 ∧ s.poisoned = true ∧ s.stage = .destroyed ∧
      (s.apply (.install Sample.registry) .empty).1 = .done (.error (.poisoned 1))) ∧
    configured.accepts draw = true ∧ ∃ answer, (configured.apply draw .empty).1 = .done answer := by
  intro check start draw life configured s
  refine ⟨?_, ?_⟩
  · have hends : Ending start life :=
      ⟨fun _ => trivial, fun _ => ⟨by decide, [], by decide⟩, fun h => absurd h (by decide), fun _ => trivial,
        fun _ => ⟨by decide, [], by decide⟩, fun _ => ⟨["third: late"], by decide⟩, trivial⟩
    obtain ⟨_, hruns, hgeneration, hforever, hnext⟩ :=
      life_of_new 1 ⟨.none, 30⟩ Sample.hierarchy true [check] life hends
    have hpoisoned : s.poisoned = true := by decide
    have hdestroyed := (hforever hpoisoned).1
    obtain ⟨hrefused, hrefusal, _⟩ := hnext (.install Sample.registry) .empty
    obtain ⟨hno, hwhy⟩ := hrefusal hdestroyed rfl
    have hexecutions : executions start life = 2 := by decide
    have hresets : resets start life = 1 := by decide
    refine ⟨hruns.trans hexecutions, ?_, hpoisoned, hdestroyed, ?_⟩
    · rw [hgeneration, hexecutions, hresets]
    · rw [(hrefused hno).1, hwhy, if_pos hpoisoned]
  · have hends : Ending start [(.configure, .empty)] := ⟨fun _ => trivial, trivial⟩
    obtain ⟨_, _, _, _, hnext⟩ :=
      life_of_new 1 ⟨.none, 30⟩ Sample.hierarchy true [check] [(.configure, .empty)] hends
    exact ⟨by decide, ((hnext draw .empty).2.2 (by decide) ⟨by decide, [], by decide⟩).1⟩

end Interpose.Sandbox
