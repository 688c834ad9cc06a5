import Interpose.Proofs.Sandbox.Events
import Interpose.Proofs.Sandbox.Lifecycle
import Interpose.Proofs.Sandbox.Readiness
import Interpose.Proofs.Testing.Tracking

/-!
# How an execution ends

A task that a harness runs has its registry installed, and a reset after it. An execution comes to its end unless
the task goes on for ever or the reset does not return, as with a resetter that panics: then whatever the execution is
a part of stops with it.
-/

namespace Interpose

namespace Execution

open Sandbox Machine

variable {e : Execution} {past : List Execution} {kind : EventKind}

/-- The sandbox that the task starts in, with the journal then. -/
def installed (e : Execution) : Sandbox × Journal := (e.sandbox.install e.registry { e.journal with record := [] }).2

/-- The reset after the task. -/
def resetRun (e : Execution) : Outcome (List String) × Sandbox × Journal :=
  (e.installed.1.afterTask e.taskRun.2).resetMemory e.code e.taskRun.2.journal

/-- What is done with the sandbox, up to its return. -/
def run (e : Execution) : Outcome (Except Error Value) × Sandbox × Journal :=
  Harness.runIn e.code e.registry e.task e.sandbox e.journal

/-- The task returns or panics, and the resetters and leak checks after it return. -/
def Ends (e : Execution) : Prop := e.taskRun.1 ≠ .unfinished ∧ ∃ failures, e.resetRun.1 = .done failures

def ended (e : Execution) : Bool := (taskResult e.taskRun.1).isDone && e.resetRun.1.isDone

/-- How an execution fares that comes to its end. An error of the task goes before what the reset found. -/
inductive Fares (e : Execution) : Except Error Value → Prop
  | failed {error : Error} (htask : taskResult e.taskRun.1 = .done (.error error)) : Fares e (.error error)
  | leaked {value : Value} {failures : List String} (htask : e.taskRun.1 = .done (.ok value))
      (hreset : e.resetRun.1 = .done failures) (hfound : failures ≠ []) :
      Fares e (.error (.leak e.sandbox.id ("; ".intercalate failures)))
  | passed {value : Value} (htask : e.taskRun.1 = .done (.ok value)) (hreset : e.resetRun.1 = .done []) :
      Fares e (.ok value)

/-- A resetter or a leak check panics in the reset after the task. -/
def Panics (e : Execution) (payload : Option String) : Prop :=
  e.taskRun.1 ≠ .unfinished ∧ e.resetRun.1 = .panicked payload

/-- How an execution ends whatever it is a part of. -/
inductive Stops {α : Type} (e : Execution) : Outcome α → Prop
  | panicked {payload : Option String} (h : e.Panics payload) : Stops e (.panicked payload)
  | unfinished (h : e.taskRun.1 = .unfinished ∨ e.resetRun.1 = .unfinished) : Stops e .unfinished

/-- A task has a result unless it goes on for ever. -/
theorem taskResult_cases (outcome : Outcome (Except Error Value)) :
    (outcome = .unfinished ∧ taskResult outcome = .unfinished) ∨
      outcome ≠ .unfinished ∧ ∃ result, taskResult outcome = .done result := by
  by_cases hnever : outcome = .unfinished
  · exact .inl ⟨hnever, by rw [hnever]; rfl⟩
  · exact .inr ⟨hnever, taskResult_of_ne_unfinished hnever⟩

theorem taskResult_eq_ok {outcome : Outcome (Except Error Value)} {value : Value}
    (h : taskResult outcome = .done (.ok value)) : outcome = .done (.ok value) := by
  cases outcome with
  | done result => exact h
  | panicked payload | unfinished => cases h

theorem ended_iff : e.ended = true ↔ e.Ends := by
  rw [ended, Bool.and_eq_true, Outcome.isDone_iff, Outcome.isDone_iff]
  refine and_congr_left fun _ => ⟨fun ⟨_, h⟩ hrun => ?_, taskResult_of_ne_unfinished⟩
  rw [hrun] at h
  cases h

theorem Stops.not_ends {α : Type} {answer : Outcome α} (h : e.Stops answer) : ¬e.Ends := by
  rintro ⟨hrun, failures, hdone⟩
  cases h with
  | panicked h =>
    rw [h.2] at hdone
    cases hdone
  | unfinished h =>
    obtain h | h := h
    · exact hrun h
    · rw [h] at hdone
      cases hdone

theorem Stops.andThen {α β σ : Type} {r : Outcome α × σ} (h : e.Stops r.1) (next : α → σ → Outcome β × σ) :
    e.Stops (Outcome.andThen r next).1 := by
  obtain ⟨answer, state⟩ := r
  cases h with
  | panicked h => exact .panicked h
  | unfinished h => exact .unfinished h

theorem Stops.ne_done {α : Type} {answer : Outcome α} (h : e.Stops answer) (result : α) : answer ≠ .done result := by
  rintro rfl
  cases h

theorem Stops.panics {α : Type} {answer : Outcome α} (h : e.Stops answer) {payload : Option String}
    (hpanic : answer = .panicked payload) : e.Panics payload := by
  subst hpanic
  cases h with
  | panicked h => exact h

theorem sameOwner_installed (e : Execution) : e.sandbox.SameOwner e.installed.1 :=
  sameOwner_step e.sandbox (.install e.registry, { e.journal with record := [] })

/-- An execution comes to its end if all that it runs returns, or panics in the task. -/
theorem ends_of_returns (hcode : ResettersReturn e.code) (hchecks : ∀ check ∈ e.sandbox.checks, CheckReturns check)
    (htask : e.taskRun.1 ≠ .unfinished) : e.Ends := by
  have hkept : (e.installed.1.afterTask e.taskRun.2).checks = e.sandbox.checks := e.sameOwner_installed.checks
  exact ⟨htask, resetMemory_returns hcode (hkept ▸ hchecks) _⟩

theorem run_eq (he : Untouched past e.sandbox) :
    e.run = Outcome.andThen (taskResult e.taskRun.1, e.installed.1.afterTask e.taskRun.2, e.taskRun.2.journal)
      fun result after => after.1.finish e.code result after.2 := by
  have hinstall := install_eq he.poisoned he.stage e.registry { e.journal with record := [] }
  have haccept := install_accepts_task he.poisoned he.stage e.registry { e.journal with record := [] }
  have hrun : e.run = e.installed.1.execute e.code e.task e.installed.2 := by
    simp only [run, installed, Harness.runIn, hinstall]
  rw [hrun]
  exact execute_eq haccept

/-- The sandbox accepts the registry and then the task. -/
theorem accepts (he : Untouched past e.sandbox) :
    e.sandbox.accepts (.install e.registry) = true ∧ e.installed.1.accepts (.execute e.code e.task) = true := by
  have hinstall := install_eq he.poisoned he.stage e.registry { e.journal with record := [] }
  refine ⟨?_, ?_⟩
  · rw [Sandbox.accepts, he.poisoned]
    exact Bool.and_eq_true_iff.2 ⟨he.stage, rfl⟩
  · rw [installed, hinstall, Sandbox.accepts, he.poisoned]
    rfl

theorem sameOwner_run (he : Untouched past e.sandbox) : e.sandbox.SameOwner e.run.2.1 := by
  have hexecute := sameOwner_step e.installed.1 (.execute e.code e.task, e.installed.2)
  rw [step, apply_execute (accepts he).2, Outcome.andThen_snd] at hexecute
  rw [run_eq he]
  exact e.sameOwner_installed.trans hexecute

theorem leakOf_resetRun {failures : List String} {s : Sandbox} {j : Journal}
    (h : e.resetRun = (.done failures, s, j)) (found : List String) :
    s.leakOf found = .leak e.sandbox.id ("; ".intercalate found) := by
  have hid := (sameOwner_resetMemory e.code (e.installed.1.afterTask e.taskRun.2) e.taskRun.2.journal).id
  have hreset : (e.installed.1.afterTask e.taskRun.2).resetMemory e.code e.taskRun.2.journal = _ := h
  rw [hreset] at hid
  rw [leakOf, ← e.sameOwner_installed.id]
  exact congrArg (Error.leak · _) hid

/-- How an execution ends. -/
theorem run_cases (he : Untouched past e.sandbox) :
    (e.Ends ∧ ∃ result, e.run.1 = .done result ∧ e.Fares result) ∨ e.Stops e.run.1 := by
  rw [run_eq he]
  obtain ⟨hnever, htask⟩ | ⟨hrun, result, htask⟩ := taskResult_cases e.taskRun.1
  · rw [htask]
    exact .inr (.unfinished (.inl hnever))
  · rw [htask, Outcome.andThen_done, finish]
    rcases hreset : e.resetRun with ⟨outcome, s, j⟩
    have hfirst : e.resetRun.1 = outcome := congrArg Prod.fst hreset
    have hmemory : (e.installed.1.afterTask e.taskRun.2).resetMemory e.code e.taskRun.2.journal = _ := hreset
    rw [hmemory]
    cases outcome with
    | panicked payload => exact .inr (.panicked ⟨hrun, hfirst⟩)
    | unfinished => exact .inr (.unfinished (.inr hfirst))
    | done failures =>
      refine .inl ⟨⟨hrun, failures, hfirst⟩, ?_⟩
      rw [Outcome.andThen_done]
      cases result with
      | error error =>
        refine ⟨.error error, ?_, .failed htask⟩
        split <;> rfl
      | ok value =>
        have hreturned := taskResult_eq_ok htask
        cases failures with
        | nil => exact ⟨.ok value, rfl, .passed hreturned hfirst⟩
        | cons failure rest =>
          refine ⟨.error (s.leakOf (failure :: rest)), rfl, ?_⟩
          rw [leakOf_resetRun hreset (failure :: rest)]
          exact .leaked hreturned hfirst (List.cons_ne_nil _ _)

/-- An execution reports the registry that is installed, and its reset exactly if it comes to its end. -/
theorem told_run (he : Untouched past e.sandbox) (hkind : kind ≠ .bridgeSynthesis) :
    e.run.2.2.told kind = e.journal.told kind + (if kind = .registrySwap then 1 else 0) +
      if kind = .sandboxReset ∧ e.ended = true then 1 else 0 := by
  have hinstall := install_eq he.poisoned he.stage e.registry { e.journal with record := [] }
  have hinstalled : e.installed.2.told kind = e.journal.told kind + if kind = .registrySwap then 1 else 0 := by
    rw [installed, hinstall]
    exact Journal.told_addEvent _ _ _ _
  have htask : e.taskRun.2.journal.told kind = e.installed.2.told kind :=
    Reaches.told (e.code.reaches_run e.task e.start) hkind
  have hreset := told_resetMemory e.code (e.installed.1.afterTask e.taskRun.2) e.taskRun.2.journal hkind
  rw [run_eq he, ← hinstalled, ← htask]
  obtain ⟨_, hresult⟩ | ⟨_, result, hresult⟩ := taskResult_cases e.taskRun.1
  · have hended : e.ended = false := by rw [ended, hresult, Outcome.isDone, Bool.false_and]
    rw [hresult, hended, if_neg fun h => Bool.false_ne_true h.2]
    rfl
  · have hjournal : ∀ s j, (Sandbox.finish e.code result s j).2.2 = (s.resetMemory e.code j).2.2 := by
      intro s j
      unfold finish
      rcases s.resetMemory e.code j with ⟨outcome, s', j'⟩
      cases outcome with
      | done failures =>
        rw [Outcome.andThen_done]
        split <;> rfl
      | panicked payload | unfinished => rfl
    have hended : e.ended = e.resetRun.1.isDone := by rw [ended, hresult, Outcome.isDone, Bool.true_and]
    rw [hresult, Outcome.andThen_done, hjournal, hended]
    exact hreset

end Execution

end Interpose
