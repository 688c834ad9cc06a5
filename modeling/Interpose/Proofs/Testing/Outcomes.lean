import Interpose.Proofs.Testing.Handles
import Interpose.Proofs.Testing.Usage

/-!
# The outcomes of a run

A run takes the chosen levels in ascending order and has one execution at each. What goes wrong in a task, and what a
reset finds, shows in the outcome of the level and nowhere else. The exception is a resetter or a leak check that
panics: nothing catches it on the way out of the run, and the levels that are left are not run.
-/

namespace Interpose

/-! ## The chosen levels -/

theorem mem_insertLevel {level l : Nat} {levels : List Nat} :
    l ∈ insertLevel level levels ↔ l = level ∨ l ∈ levels := by
  induction levels with
  | nil => simp [insertLevel]
  | cons first rest ih =>
    unfold insertLevel
    split
    · simp
    · split
      · rename_i heq
        simp [heq]
      · simp only [List.mem_cons, ih]
        exact or_left_comm

theorem pairwise_insertLevel {levels : List Nat} (h : levels.Pairwise (· < ·)) (level : Nat) :
    (insertLevel level levels).Pairwise (· < ·) := by
  induction levels with
  | nil => exact List.pairwise_singleton _ _
  | cons first rest ih =>
    have hrest := List.pairwise_cons.1 h
    unfold insertLevel
    split
    · rename_i hlt
      refine List.pairwise_cons.2 ⟨fun l hl => ?_, h⟩
      obtain rfl | hl := List.mem_cons.1 hl
      · exact hlt
      · exact Nat.lt_trans hlt (hrest.1 l hl)
    · split
      · exact h
      · refine List.pairwise_cons.2 ⟨fun l hl => ?_, ih hrest.2⟩
        obtain rfl | hl := mem_insertLevel.1 hl
        · omega
        · exact hrest.1 l hl

theorem mem_ascending {level : Nat} {levels : List Nat} : level ∈ ascending levels ↔ level ∈ levels := by
  induction levels with
  | nil => exact Iff.rfl
  | cons first rest ih => rw [ascending, mem_insertLevel, ih, List.mem_cons]

theorem pairwise_ascending (levels : List Nat) : (ascending levels).Pairwise (· < ·) := by
  induction levels with
  | nil => exact .nil
  | cons first rest ih => exact pairwise_insertLevel ih first

/-- A valid choice gives the candidates, each once, and there is at least one. -/
theorem LevelChoice.select_eq_ok {choice : LevelChoice} {supported levels : List Nat} {defaultLevel : Nat}
    (h : choice.select supported defaultLevel = .ok levels) :
    levels.Pairwise (· < ·) ∧ levels ≠ [] ∧
      ∃ chosen, choice.candidates supported defaultLevel = .ok chosen ∧ ∀ level, level ∈ levels ↔ level ∈ chosen := by
  unfold select at h
  split at h
  · cases h
  · rename_i chosen hchosen
    split at h
    · cases h
    · rename_i hsome
      obtain rfl : ascending chosen = levels := Except.ok.inj h
      refine ⟨pairwise_ascending chosen, fun hnone => hsome (by rw [hnone]; rfl), chosen, hchosen,
        fun level => mem_ascending⟩

/-! ## The main result -/

namespace Harness

variable {past : List Execution} {h : Harness}

/-- Take a harness with any history, any code and any test whose levels and registry are valid. The levels are those
that the test chooses, strictly ascending and at least one. A run has executions of the task at the first of these
levels, in this order, in sandboxes for these levels. It returns exactly if each of its executions comes to its end;
then there is one outcome for each level, which names the sandbox of the execution at the level and says how this
execution fared: by the error or panic of the task, or else by what its reset found, or else by the value of the task.
A run that panics does so with the payload of a resetter or a leak check in the last of its executions, the others
having come to their end. If resetters and leak checks return and no task goes on for ever, the run returns. -/
theorem run_returns_iff (hist : History h past) (code : Code) (test : Overrides)
    (task : Program (Except Error Value)) {levels : List Nat} {registry : Registry}
    (hlevels : test.levels.select h.settings.supportedLevels h.settings.defaultLevel = .ok levels)
    (hregistry : (h.registryFor test).1 = .ok registry) :
    let executions := h.executions code test task
    let answer := (h.run code test task).1
    (levels.Pairwise (· < ·) ∧ levels ≠ [] ∧
      ∃ chosen, test.levels.candidates h.settings.supportedLevels h.settings.defaultLevel = .ok chosen ∧
        ∀ level, level ∈ levels ↔ level ∈ chosen) ∧
    (∀ e ∈ executions, e.code = code ∧ e.registry = registry ∧ e.task = task) ∧
    executions.map (·.sandbox.key) <+: levels.map (⟨h.rulesFor test, ·⟩) ∧
    ((∃ result, answer = .done result) ↔ ∀ e ∈ executions, e.Ends) ∧
    (∀ result, answer = .done result → ∃ outcomes, result = .ok outcomes ∧
      outcomes.map (·.level) = levels ∧ List.Forall₂ Execution.Tells executions outcomes) ∧
    (∀ payload, answer = .panicked payload →
      ∃ before e, executions = before ++ [e] ∧ (∀ e' ∈ before, e'.Ends) ∧ e.Panics payload) ∧
    (Sandbox.ResettersReturn code → (∀ check ∈ h.checks, Sandbox.CheckReturns check) →
      (∀ e ∈ executions, e.taskRun.1 ≠ .unfinished) → ∃ outcomes, answer = .done (.ok outcomes)) := by
  intro executions answer
  obtain ⟨u, hu, rfl⟩ := hist.exists_used
  obtain ⟨_, hfor, hkeys, hconcludes⟩ := run_spec hu.books hu.history.tracks code test task hlevels hregistry
  refine ⟨LevelChoice.select_eq_ok hlevels, fun e he => ⟨(hfor e he).code, (hfor e he).registry, (hfor e he).task⟩,
    hkeys, hconcludes.done_iff, fun result hresult => hconcludes.outcomes hresult,
    fun payload hpanic => hconcludes.panics hpanic, fun hcode hchecks htasks => ?_⟩
  have hends : ∀ e ∈ executions, e.Ends := by
    intro e he
    obtain ⟨hsame, _, _, hkept⟩ := hfor e he
    exact Execution.ends_of_returns (hsame ▸ hcode) (fun check hc => hchecks check (hkept check hc)) (htasks e he)
  obtain ⟨result, hresult⟩ := hconcludes.done_iff.2 hends
  obtain ⟨outcomes, rfl, _⟩ := hconcludes.outcomes hresult
  exact ⟨outcomes, hresult⟩

end Harness

end Interpose

/-! ## A resetter that panics at one level -/

namespace Interpose.Sample

/-- The resetter of the small world panics at one level and returns at every other. -/
def panickyAt (level : Nat) : Code :=
  { code with
    resetter := fun _ => .perform .level fun current : Nat =>
      if current = level then .panic (some "boom") else .done (.ok ()) }

def cleaned : Shadow := .alone { shadowView.own with hasResetter := true }

/-- A test of its own shadow at both levels. -/
def bothLevels : Overrides := { Overrides.none with shadows := [cleaned], levels := .all }

/-- Panics at one level and names the level at every other. -/
def failAt (level : Nat) : Program (Except Error Value) :=
  .perform .level fun current : Nat =>
    if current = level then .panic (some "boom") else .done (.ok (.string (toString current)))

theorem history_harness : Harness.History harness [] := by
  have hnew : Harness.new hierarchy settings = .ok harness := rfl
  exact .new hnew

end Interpose.Sample

namespace Interpose.Harness

open Sample

/-- The panic of the resetter at the first level leaves the run, and there is no execution at the second one. -/
theorem run_panics_in_reset :
    History harness [] ∧
      bothLevels.levels.select harness.settings.supportedLevels harness.settings.defaultLevel = .ok [28, 30] ∧
      (∃ registry, (harness.registryFor bothLevels).1 = .ok registry) ∧
      (harness.run (panickyAt 28) bothLevels (failAt 0)).1 = .panicked (some "boom") ∧
      (harness.executions (panickyAt 28) bothLevels (failAt 0)).length = 1 :=
  ⟨history_harness, by decide, ⟨_, rfl⟩, by rfl, by decide⟩

/-- The panic of the task at the first level is in the outcome of this level, and the second level is run. -/
theorem run_returns_iff_two_levels :
    ∃ first second, harness.executions code bothLevels (failAt 28) = [first, second] ∧
      first.Ends ∧ first.Fares (.error (.taskPanicked "boom")) ∧ second.Ends ∧ second.Fares (.ok (.string "30")) := by
  obtain ⟨registry, hregistry⟩ : ∃ registry, (harness.registryFor bothLevels).1 = .ok registry := ⟨_, rfl⟩
  have hselect :
      bothLevels.levels.select harness.settings.supportedLevels harness.settings.defaultLevel = .ok [28, 30] := by
    decide
  have hrun : (harness.run code bothLevels (failAt 28)).1 =
      .done (.ok [⟨28, some 1, [], .error (.taskPanicked "boom")⟩, ⟨30, some 2, [], .ok (.string "30")⟩]) := by
    rfl
  obtain ⟨_, _, _, hreturns, houtcomes, _⟩ :=
    run_returns_iff history_harness code bothLevels (failAt 28) hselect hregistry
  have hends := hreturns.1 ⟨_, hrun⟩
  obtain ⟨outcomes, hanswer, _, htells⟩ := houtcomes _ hrun
  obtain rfl := Except.ok.inj hanswer
  revert hends htells
  generalize harness.executions code bothLevels (failAt 28) = executions
  intro hends htells
  cases htells with
  | @cons first _ _ _ hfirst hrest =>
    cases hrest with
    | @cons second _ _ _ hsecond hnil =>
      cases hnil
      exact ⟨first, second, rfl, hends first (by simp), hfirst.fares, hends second (by simp), hsecond.fares⟩

end Interpose.Harness
