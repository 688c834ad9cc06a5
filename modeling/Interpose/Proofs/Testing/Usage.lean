import Interpose.Proofs.Testing.Turns

/-!
# What a harness was used for

A history with all that is counted of it, and the books of the harness in every such history.
-/

namespace Interpose.Harness

variable {past : List Execution} {h : Harness}

/-- What a harness was used for: the executions of its runs, the outcomes that the runs returned, how many levels were
prepared ahead, and how many sandboxes were cleared away. -/
structure Usage where
  executions : List Execution
  outcomes : List TestOutcome
  ahead : Nat
  cleared : Nat

/-- The outcomes that a run returns, which are none if it fails or does not return. -/
def returned : Outcome (Except Error (List TestOutcome)) → List TestOutcome
  | .done (.ok outcomes) => outcomes
  | _ => []

/-- A history with all that is counted of it. -/
inductive Used : Harness → Usage → Prop
  | new {hierarchy : Hierarchy} {settings : Settings} {h : Harness} (hnew : Harness.new hierarchy settings = .ok h) :
      Used h ⟨[], [], 0, 0⟩
  | withProvider {h : Harness} {u : Usage} (hu : Used h u) (p : Provider) : Used (h.withProvider p) u
  | withCheck {h : Harness} {u : Usage} (hu : Used h u) (check : LeakCheck) : Used (h.withCheck check) u
  | run {h : Harness} {u : Usage} (hu : Used h u) (code : Code) (test : Overrides)
      (task : Program (Except Error Value)) :
      Used (h.run code test task).2 { u with
        executions := u.executions ++ h.executions code test task
        outcomes := u.outcomes ++ returned (h.run code test task).1 }
  | prewarm {h : Harness} {u : Usage} (hu : Used h u) (code : Code) (levels schedule : List Nat) :
      Used (h.prewarm code levels schedule).2 { u with ahead := u.ahead + h.preparedAhead levels }
  | clearPool {h : Harness} {u : Usage} (hu : Used h u) :
      Used h.clearPool { u with cleared := u.cleared + h.pool.clear.1.length }

theorem Used.history {u : Usage} (hu : Used h u) : History h u.executions := by
  induction hu with
  | new hnew => exact .new hnew
  | withProvider _ p ih => exact ih.withProvider p
  | withCheck _ check ih => exact ih.withCheck check
  | run _ code test task ih => exact ih.run code test task
  | prewarm _ code levels schedule ih => exact ih.prewarm code levels schedule
  | clearPool _ ih => exact ih.clearPool

theorem History.exists_used (hist : History h past) : ∃ u, Used h u ∧ u.executions = past := by
  induction hist with
  | new hnew => exact ⟨_, .new hnew, rfl⟩
  | withProvider _ p ih =>
    obtain ⟨u, hu, rfl⟩ := ih
    exact ⟨_, hu.withProvider p, rfl⟩
  | withCheck _ check ih =>
    obtain ⟨u, hu, rfl⟩ := ih
    exact ⟨_, hu.withCheck check, rfl⟩
  | run _ code test task ih =>
    obtain ⟨u, hu, rfl⟩ := ih
    exact ⟨_, hu.run code test task, rfl⟩
  | prewarm _ code levels schedule ih =>
    obtain ⟨u, hu, rfl⟩ := ih
    exact ⟨_, hu.prewarm code levels schedule, rfl⟩
  | clearPool _ ih =>
    obtain ⟨u, hu, rfl⟩ := ih
    exact ⟨_, hu.clearPool, rfl⟩

theorem books_new {hierarchy : Hierarchy} {settings : Settings} (hnew : Harness.new hierarchy settings = .ok h) :
    Books [] 0 0 h := by
  obtain ⟨_, rfl⟩ := new_eq_ok hnew
  exact ⟨rfl, ⟨rfl, rfl⟩, .inl rfl, rfl, rfl, rfl, rfl, rfl, fun _ _ hs => by cases hs⟩

theorem Books.withProvider {ahead cleared : Nat} (hb : Books past ahead cleared h) (p : Provider) :
    Books past ahead cleared (h.withProvider p) :=
  ⟨hb.max, hb.atRest, hb.bounded, hb.served, hb.accounted, hb.builds, hb.swaps, hb.resets, hb.idle⟩

theorem Books.withCheck {ahead cleared : Nat} (hb : Books past ahead cleared h) (check : LeakCheck) :
    Books past ahead cleared (h.withCheck check) := by
  refine ⟨hb.max, hb.atRest, hb.bounded, hb.served, hb.accounted, hb.builds, hb.swaps, hb.resets, fun key s hs => ?_⟩
  obtain ⟨hkey, hchecks⟩ := hb.idle key s hs
  exact ⟨hkey, fun c hc => List.mem_append_left _ (hchecks c hc)⟩

/-- The books are kept in every history. -/
theorem Used.books {u : Usage} (hu : Used h u) : Books u.executions u.ahead u.cleared h := by
  induction hu with
  | new hnew => exact books_new hnew
  | withProvider _ p ih => exact ih.withProvider p
  | withCheck _ check ih => exact ih.withCheck check
  | run hu code test task ih => exact ih.run hu.history.tracks code test task
  | prewarm hu code levels schedule ih => exact ih.prewarm hu.history.tracks code levels schedule
  | clearPool _ ih => exact ih.clearPool

end Interpose.Harness
