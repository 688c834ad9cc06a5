import Interpose.Proofs.Testing.Outcomes
import Mathlib.Data.List.Forall2

/-!
# The accounts of a harness

Whatever a harness is used for, its pool is at rest between two calls, and the counters of the pool, the reported
events and the executions agree. They agree with the outcomes as well if every execution came to its end, as it does
unless a resetter or a leak check panics: such an execution is counted, and its run returns no outcome at all.
-/

namespace Interpose.Harness

variable {past : List Execution} {ahead cleared : Nat} {h : Harness} {u : Usage}

/-- A run returns an outcome for each execution, or none if one of them does not come to its end. -/
theorem length_returned (hb : Books past ahead cleared h) (ht : Tracks past h) (code : Code) (test : Overrides)
    (task : Program (Except Error Value)) :
    let executions := h.executions code test task
    let outcomes := returned (h.run code test task).1
    outcomes.length ≤ executions.countP Execution.ended ∧
      ((∀ e ∈ executions, e.Ends) → outcomes.length = executions.length) := by
  obtain ⟨_, hrun, hnone, _⟩ | ⟨_, _, hselect, hregistry⟩ := h.run_refused_or_given code test task
  · rw [hrun, hnone]
    exact ⟨Nat.le_refl _, fun _ => rfl⟩
  · obtain ⟨_, _, _, hconcludes⟩ := run_spec hb ht code test task hselect hregistry
    by_cases hends : ∀ e ∈ h.executions code test task, e.Ends
    · obtain ⟨result, hdone⟩ := hconcludes.done_iff.2 hends
      obtain ⟨outcomes, rfl, _, htells⟩ := hconcludes.outcomes hdone
      have hlength := htells.length_eq
      have hall : (h.executions code test task).countP Execution.ended = (h.executions code test task).length :=
        List.countP_eq_length.2 fun e he => Execution.ended_iff.2 (hends e he)
      rw [hdone]
      exact ⟨Nat.le_of_eq (hlength.symm.trans hall.symm), fun _ => hlength.symm⟩
    · have hnone : returned (h.run code test task).1 = [] := by
        cases hanswer : (h.run code test task).1 with
        | done result => exact absurd (hconcludes.done_iff.1 ⟨result, hanswer⟩) hends
        | panicked payload | unfinished => rfl
      rw [hnone]
      exact ⟨Nat.zero_le _, fun hall => absurd hall hends⟩

/-- There are no more outcomes than executions that came to their end, and there are as many if all did. -/
theorem Used.length_outcomes (hu : Used h u) :
    u.outcomes.length ≤ u.executions.countP Execution.ended ∧
      ((∀ e ∈ u.executions, e.Ends) → u.outcomes.length = u.executions.length) := by
  induction hu with
  | new hnew => exact ⟨Nat.le_refl _, fun _ => rfl⟩
  | withProvider _ p ih => exact ih
  | withCheck _ check ih => exact ih
  | prewarm _ code levels schedule ih => exact ih
  | clearPool _ ih => exact ih
  | run hu code test task ih =>
    obtain ⟨hle, heq⟩ := length_returned hu.books hu.history.tracks code test task
    refine ⟨?_, fun hends => ?_⟩
    · rw [List.length_append, List.countP_append]
      exact Nat.add_le_add ih.1 hle
    · rw [List.length_append, List.length_append, heq fun e he => hends e (List.mem_append_right _ he),
        ih.2 fun e he => hends e (List.mem_append_left _ he)]

/-- Take a harness that was used in any way. No slot of its pool is in use, and there are no more sandboxes than
wanted, all of them idle. Sandboxes built and reused make up the executions and the levels prepared ahead. The
sandboxes built were taken out for lack of room, discarded or cleared away, or they are idle, and each of them was
reported. The installations of registries that were reported are the executions, and the resets those that came to
their end; all executions came to their end exactly if there are as many outcomes. That is so if resetters and leak
checks return and no task goes on for ever. Every execution found a sandbox that accepted the registry and then the
task. Supported levels can be prepared ahead at any time: whatever turns the workers take who lease them, all of them
come to their end. -/
theorem accounts_balance (hu : Used h u) :
    let counts := h.pool.counts
    (∀ key slot, h.pool.slots.get? key = some slot → ∃ s released, slot = .idle s released) ∧
    h.pool.size = h.pool.idleCount ∧ h.pool.idleCount ≤ h.settings.maxSandboxes ∧
    counts.built + counts.reused = u.executions.length + u.ahead ∧
    counts.built = counts.evicted + counts.discarded + u.cleared + h.pool.size ∧
    h.journal.told .sandboxBuild = counts.built ∧
    h.journal.told .registrySwap = u.executions.length ∧
    h.journal.told .sandboxReset = u.executions.countP Execution.ended ∧
    (u.outcomes.length = u.executions.length ↔ ∀ e ∈ u.executions, e.Ends) ∧
    ((∀ e ∈ u.executions, Sandbox.ResettersReturn e.code ∧ (∀ check ∈ e.sandbox.checks, Sandbox.CheckReturns check) ∧
        e.taskRun.1 ≠ .unfinished) →
      h.journal.told .registrySwap = u.outcomes.length ∧ h.journal.told .sandboxReset = u.outcomes.length) ∧
    (∀ e ∈ u.executions, e.sandbox.accepts (.install e.registry) = true ∧
      e.installed.1.accepts (.execute e.code e.task) = true) ∧
    ∀ code levels schedule, (∀ level ∈ levels, level ∈ h.settings.supportedLevels) →
      (h.prewarm code levels schedule).1 = .done (.ok levels.length) := by
  intro counts
  have hbooks := hu.books
  have hsize := hbooks.atRest.size_eq
  obtain ⟨hle, heq⟩ := hu.length_outcomes
  refine ⟨fun key slot hslot => hbooks.atRest.slot hslot, hsize, ?_, hbooks.served, ?_, hbooks.builds, hbooks.swaps,
    hbooks.resets, ⟨fun hsame => ?_, heq⟩, fun hreturn => ?_, fun e he => ?_, fun code levels schedule hlevels => ?_⟩
  · have hmax := hbooks.max
    have hleased := hbooks.atRest.leased
    obtain hnone | hroom := hbooks.bounded <;> omega
  · have haccounted := hbooks.accounted
    have hleased := hbooks.atRest.leased
    unfold Pool.accounted at haccounted
    simp only [counts]
    omega
  · have hall : u.executions.countP Execution.ended = u.executions.length :=
      Nat.le_antisymm List.countP_le_length (hsame ▸ hle)
    exact fun e he => Execution.ended_iff.1 (List.countP_eq_length.1 hall e he)
  · have hends : ∀ e ∈ u.executions, e.Ends := fun e he => by
      obtain ⟨hcode, hchecks, htask⟩ := hreturn e he
      exact Execution.ends_of_returns hcode hchecks htask
    have hall : u.executions.countP Execution.ended = u.executions.length :=
      List.countP_eq_length.2 fun e he => Execution.ended_iff.2 (hends e he)
    rw [hbooks.swaps, hbooks.resets, hall, heq hends]
    exact ⟨rfl, rfl⟩
  · obtain ⟨i, hi⟩ := List.getElem?_of_mem he
    exact Execution.accepts (hu.history.tracks.recorded i e hi)
  · exact hbooks.prewarm_answer hu.history.tracks code hlevels schedule

end Interpose.Harness

/-! ## A leak check that panics -/

namespace Interpose.Sample

/-- A leak check that panics each time. -/
def panicky : LeakCheck := ⟨"watch", 0, fun _ _ => .panic (some "boom")⟩

def watched : Harness := harness.withCheck panicky

theorem resettersReturn_code : Sandbox.ResettersReturn code := fun _ _ => ⟨.ok (), rfl⟩

/-- The harness of the small world after three workers prepared two levels ahead, the last of whom finds its level in
the hands of the first, and after both levels were run, with a task that panics at one of them. -/
def busy : Harness := ((harness.prewarm code [28, 30, 28] [0, 2, 1, 0, 1]).2.run code bothLevels (failAt 28)).2

end Interpose.Sample

namespace Interpose.Harness

open Sample

/-- The execution is reported to begin and not to be reset, its run returns no outcome, and a sandbox is discarded. -/
theorem accounts_off_after_panic :
    ∃ h u, Used h u ∧ (∀ e ∈ u.executions, Sandbox.ResettersReturn e.code) ∧ u.cleared = 0 ∧
      h.journal.told .registrySwap = 1 ∧ h.journal.told .sandboxReset = 0 ∧ u.outcomes.length = 0 ∧
      h.pool.counts.built + h.pool.counts.reused = 1 ∧ u.ahead = 0 := by
  have hnew : Harness.new Sample.hierarchy Sample.settings = .ok harness := rfl
  have hused := ((Used.new hnew).withCheck panicky).run code (atLevel 28) (failAt 0)
  refine ⟨_, _, hused, fun e he => ?_, rfl, by decide, by decide, by decide, by decide, rfl⟩
  have hselect : (atLevel 28).levels.select watched.settings.supportedLevels watched.settings.defaultLevel =
      .ok [28] := by decide
  obtain ⟨registry, hregistry⟩ : ∃ registry, (watched.registryFor (atLevel 28)).1 = .ok registry := ⟨_, rfl⟩
  have hbooks := ((Used.new hnew).withCheck panicky).books
  have htracks := ((Used.new hnew).withCheck panicky).history.tracks
  obtain ⟨_, hfor, _⟩ := run_spec hbooks htracks code (atLevel 28) (failAt 0) hselect hregistry
  rw [(hfor e he).code]
  exact resettersReturn_code

/-- One worker waits until another gives back the sandbox that both want. Two sandboxes are built ahead and used again,
and every execution comes to its end. -/
theorem accounts_balance_two_levels :
    ∃ u, Used busy u ∧ busy.pool.counts.waits = 1 ∧ busy.pool.counts.built = 2 ∧ busy.pool.counts.reused = 3 ∧
      busy.pool.size = 2 ∧ u.ahead = 3 ∧ u.executions.length = 2 ∧ (∀ e ∈ u.executions, e.Ends) ∧
      busy.journal.told .sandboxReset = 2 ∧
      (busy.prewarm code [30, 30] [1, 0, 0]).1 = .done (.ok 2) := by
  have hnew : Harness.new Sample.hierarchy Sample.settings = .ok harness := rfl
  have hused : Used busy _ :=
    ((Used.new hnew).prewarm code [28, 30, 28] [0, 2, 1, 0, 1]).run code bothLevels (failAt 28)
  obtain ⟨_, _, _, hserved, hbuilt, _, _, hresets, hends, _, _, hahead⟩ := accounts_balance hused
  have hcounts : busy.pool.counts = ⟨2, 3, 0, 0, 1⟩ := by decide
  rw [hcounts] at hserved hbuilt
  refine ⟨_, hused, by rw [hcounts], by rw [hcounts], by rw [hcounts], ?_, rfl, ?_, hends.1 (by decide), ?_, ?_⟩
  · exact (hbuilt.trans (Nat.zero_add _)).symm
  · exact (Nat.add_right_cancel hserved).symm
  · rw [hresets]
    decide
  · exact hahead code [30, 30] [1, 0, 0] (by decide)

end Interpose.Harness
