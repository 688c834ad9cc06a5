import Interpose.Proofs.Pool.Rounds
import Interpose.Proofs.Testing.Endings

/-!
# One level after the other

Between two levels of a run no slot of the pool is in use, so a sandbox is got for every level, and it finds its way
back however its execution ends. What a level does to the pool and to the reported events is therefore known from its
execution alone, and so are the books of a harness: they are kept by every level that is run or prepared ahead.
-/

namespace Interpose

/-! ## Leases -/

namespace Harness

open Sandbox

variable {past : List Execution} {ahead cleared : Nat} {h : Harness} {key : SandboxKey} {s : Sandbox}

/-- What is known once a sandbox was got for a key. -/
structure Serves (h : Harness) (key : SandboxKey) (s : Sandbox) : Prop where
  granted : (h.lease key).1 = .done (.granted s)
  lends : h.pool.Lends key (h.lease key).2.pool
  /-- A sandbox that is built is reported. -/
  builds : (h.lease key).2.journal.told .sandboxBuild + h.pool.counts.built =
    h.journal.told .sandboxBuild + (h.lease key).2.pool.counts.built
  told : ∀ kind, kind ≠ .sandboxBuild → (h.lease key).2.journal.told kind = h.journal.told kind
  origin : h.pool.idleAt? key = some s ∨ s.key = key ∧ s.checks = h.checks

theorem told_builder (key : SandboxKey) (hierarchy : Hierarchy) (detectLeaks : Bool) (checks : List LeakCheck)
    (j : Journal) :
    ∃ s j', BuildPlan.ready.builder key hierarchy detectLeaks checks j = (.done (.ok s), j') ∧ s.key = key ∧
      s.checks = checks ∧
      ∀ kind, j'.told kind = j.told kind + if kind = .sandboxBuild then 1 else 0 := by
  exact ⟨_, _, builder_ready_eq key hierarchy detectLeaks checks j, rfl, rfl, fun kind => Journal.told_addEvent _ _ _ _⟩

/-- A pool at rest makes nobody wait. -/
theorem exists_serves (hp : h.pool.AtRest) (key : SandboxKey) : ∃ s, h.Serves key s := by
  obtain ⟨s, j, hbuild, hkey, hchecks, htold⟩ :=
    told_builder key h.hierarchy h.settings.detectLeaks h.checks h.journal
  have hclaims := h.pool.claims_claim key
  rcases hc : h.pool.claim key with ⟨claim, p⟩
  rw [hc] at hclaims
  cases hclaims with
  | wait hslot =>
    obtain hslot | hslot := hslot
    · obtain ⟨_, _, hidle⟩ := hp.slot hslot
      cases hidle
    · obtain ⟨_, _, hidle⟩ := hp.slot hslot
      cases hidle
  | @reuse s' _ _ hreuse =>
    have hlease : h.lease key = (.done (.granted s'), { h with pool := p }) := by
      simp only [lease, Pool.acquire, hc]
    have hbuilt : p.counts.built = h.pool.counts.built := hreuse.built
    refine ⟨s', ?_, ?_, ?_, ?_, .inl (Pool.claim_reuse (by rw [hc]))⟩
    all_goals rw [hlease]
    · exact Pool.lends_of_reuse hreuse
    · rw [hbuilt]
    · exact fun _ _ => rfl
  | build hclaim =>
    have hlease : h.lease key =
        (.done (.granted s), { h with pool := (p.finishBuild key).2, journal := j }) := by
      simp only [lease, Pool.acquire, hc, hbuild]
    obtain ⟨hlends, hbuilt⟩ := Pool.lends_of_build hclaim
    refine ⟨s, ?_, ?_, ?_, ?_, .inr ⟨hkey, hchecks⟩⟩
    all_goals rw [hlease]
    · exact hlends
    · have hone := htold .sandboxBuild
      rw [if_pos rfl] at hone
      have hbuilt' : (p.finishBuild key).2.counts.built = h.pool.counts.built + 1 := hbuilt
      simp only
      omega
    · intro kind hkind
      exact (htold kind).trans (by rw [if_neg hkind]; rfl)

/-- The harness after a sandbox that it got for a key was used and came back. -/
def afterUse (h : Harness) (key : SandboxKey) (used : Sandbox) (j : Journal) : Harness :=
  { (h.lease key).2 with journal := j, pool := ((h.lease key).2.pool.putBack key used).2 }

/-- What is done with a sandbox is answered, and the sandbox comes back. -/
theorem withSandbox_eq {α : Type} {code : Code} {use : Sandbox → Journal → Outcome α × Sandbox × Journal}
    (hs : h.Serves key s) (hused : Untouched past (use s (h.lease key).2.journal).2.1 ∨
      (use s (h.lease key).2.journal).2.1.poisoned = true ∨ (use s (h.lease key).2.journal).2.1.stage = .active) :
    h.withSandbox code key use =
      Outcome.andThen
        ((use s (h.lease key).2.journal).1,
          h.afterUse key (use s (h.lease key).2.journal).2.1 (use s (h.lease key).2.journal).2.2)
        fun answer h => (.done (.ok (s.id, answer)), h) := by
  have hgranted := hs.granted
  unfold withSandbox afterUse
  rcases hlease : h.lease key with ⟨outcome, h'⟩
  rw [hlease] at hgranted hused
  obtain rfl : outcome = .done (.granted s) := hgranted
  simp only [Outcome.andThen_done, grantedSandbox] at hused ⊢
  rcases huse : use s h'.journal with ⟨ended, used, j⟩
  rw [huse] at hused
  rw [giveBack_eq hused]
  cases ended <;> rfl

/-! ## Books -/

/-- The books of a harness between runs, given the executions so far, how many levels were prepared ahead and how many
sandboxes were cleared away. -/
structure Books (past : List Execution) (ahead cleared : Nat) (h : Harness) : Prop where
  max : h.pool.max = h.settings.maxSandboxes
  atRest : h.pool.AtRest
  bounded : h.pool.Bounded
  served : h.pool.counts.built + h.pool.counts.reused = past.length + ahead
  accounted : h.pool.counts.built = h.pool.accounted + cleared
  builds : h.journal.told .sandboxBuild = h.pool.counts.built
  swaps : h.journal.told .registrySwap = past.length
  resets : h.journal.told .sandboxReset = past.countP Execution.ended
  idle : ∀ key s, h.pool.idleAt? key = some s → s.key = key ∧ ∀ check ∈ s.checks, check ∈ h.checks

theorem Books.served_by (hb : Books past ahead cleared h) (hs : h.Serves key s) :
    s.key = key ∧ ∀ check ∈ s.checks, check ∈ h.checks := by
  obtain hidle | ⟨hkey, hchecks⟩ := hs.origin
  · exact hb.idle key s hidle
  · exact ⟨hkey, fun check h => hchecks ▸ h⟩

/-- A sandbox that is got, used and given back is booked as one lease, which was an execution or a level prepared
ahead. -/
theorem Books.afterUse (hb : Books past ahead cleared h) (hs : h.Serves key s) {used : Sandbox} {j : Journal}
    (howner : s.SameOwner used) {executions : List Execution} {levels : Nat} (hone : executions.length + levels = 1)
    (hbuilds : j.told .sandboxBuild = (h.lease key).2.journal.told .sandboxBuild)
    (hswaps : j.told .registrySwap = (h.lease key).2.journal.told .registrySwap + executions.length)
    (hresets : j.told .sandboxReset =
      (h.lease key).2.journal.told .sandboxReset + executions.countP Execution.ended) :
    Books (past ++ executions) (ahead + levels) cleared (h.afterUse key used j) := by
  have hlends := hs.lends
  have hback := Pool.takesBack_putBack hlends.slot used
  have hbuilding := hb.atRest.building
  have hleased := hb.atRest.leased
  constructor
  · exact hback.max.trans (hlends.max.trans hb.max)
  · have hsame := hback.building.trans hlends.building
    have hless := hback.leased
    have hmore := hlends.leased
    exact ⟨hsame.trans hbuilding, by rw [Harness.afterUse]; simp only; omega⟩
  · exact hback.bounded (hlends.bounded hb.bounded)
  · have hserved := hb.served
    have hmore := hlends.served
    have hbuilt := hback.built
    have hreused := hback.reused
    rw [List.length_append]
    simp only [Harness.afterUse]
    omega
  · have haccounted := hb.accounted
    have hmore := hlends.accounted
    have hbuilt := hback.built
    have hsame := hback.accounted
    simp only [Harness.afterUse]
    omega
  · have hreported := hb.builds
    have hmore := hs.builds
    have hbuilt := hback.built
    simp only [Harness.afterUse]
    omega
  · have hreported := hb.swaps
    have hsame := hs.told .registrySwap EventKind.noConfusion
    rw [List.length_append]
    simp only [Harness.afterUse]
    omega
  · have hreported := hb.resets
    have hsame := hs.told .sandboxReset EventKind.noConfusion
    rw [List.countP_append]
    simp only [Harness.afterUse]
    omega
  · intro k s' hs'
    obtain ⟨rfl, rfl, _⟩ | hwaits := Pool.idleAt?_putBack hs'
    · obtain ⟨hkey, hchecks⟩ := hb.served_by hs
      rw [howner.key, howner.checks]
      exact ⟨hkey, hchecks⟩
    · exact hb.idle k s' (idleAt?_lease hwaits).2

/-! ## Levels -/

end Harness

/-- An outcome names the sandbox of an execution and says how it fared. -/
structure Execution.Tells (e : Execution) (outcome : TestOutcome) : Prop where
  sandbox : outcome.sandbox = some e.sandbox.id
  fares : e.Fares outcome.result

/-- An execution of a task for a harness. -/
structure Execution.For (e : Execution) (h : Harness) (code : Code) (registry : Registry)
    (task : Program (Except Error Value)) : Prop where
  code : e.code = code
  registry : e.registry = registry
  task : e.task = task
  checks : ∀ check ∈ e.sandbox.checks, check ∈ h.checks

/-- How the executions at some levels end: all of them come to their end and there is an outcome of each, or the last
one stops. -/
def Concludes {α : Type} (levels : List Nat) (give : List TestOutcome → α) (executions : List Execution)
    (answer : Outcome α) : Prop :=
  (∃ outcomes, answer = .done (give outcomes) ∧ outcomes.map (·.level) = levels ∧ (∀ e ∈ executions, e.Ends) ∧
    List.Forall₂ Execution.Tells executions outcomes) ∨
  ∃ before e, executions = before ++ [e] ∧ (∀ e' ∈ before, e'.Ends) ∧ e.Stops answer

namespace Concludes

variable {α : Type} {give : List TestOutcome → α} {levels : List Nat} {executions : List Execution}
variable {answer : Outcome α} {e : Execution} {outcome : TestOutcome}

theorem cons {r : Outcome (List TestOutcome) × Harness} (h : Concludes levels id executions r.1) (hends : e.Ends)
    (htells : e.Tells outcome) :
    Concludes (outcome.level :: levels) id (e :: executions)
      (Outcome.andThen r fun outcomes h => (.done (outcome :: outcomes), h)).1 := by
  obtain ⟨outcomes, hanswer, hlevels, hall, hrest⟩ | ⟨before, e', hsplit, hbefore, hstops⟩ := h
  · obtain ⟨answer, state⟩ := r
    obtain rfl : answer = .done outcomes := hanswer
    refine .inl ⟨outcome :: outcomes, rfl, ?_, List.forall_mem_cons.2 ⟨hends, hall⟩, .cons htells hrest⟩
    rw [List.map_cons, hlevels]
  · refine .inr ⟨e :: before, e', ?_, List.forall_mem_cons.2 ⟨hends, hbefore⟩, hstops.andThen _⟩
    rw [hsplit, List.cons_append]

theorem ok {r : Outcome (List TestOutcome) × Harness} (h : Concludes levels id executions r.1) :
    Concludes levels (Except.ok (ε := Error)) executions
      (Outcome.andThen r fun outcomes h => (.done (.ok outcomes), h)).1 := by
  obtain ⟨outcomes, hanswer, hlevels⟩ | ⟨before, e', hsplit, hbefore, hstops⟩ := h
  · obtain ⟨answer, state⟩ := r
    obtain rfl : answer = .done outcomes := hanswer
    exact .inl ⟨outcomes, rfl, hlevels⟩
  · exact .inr ⟨before, e', hsplit, hbefore, hstops.andThen _⟩

theorem done_iff (h : Concludes levels give executions answer) :
    (∃ result, answer = .done result) ↔ ∀ e ∈ executions, e.Ends := by
  obtain ⟨outcomes, hanswer, _, hall, _⟩ | ⟨before, e, hsplit, _, hstops⟩ := h
  · exact iff_of_true ⟨_, hanswer⟩ hall
  · refine iff_of_false (fun ⟨result, hresult⟩ => hstops.ne_done result hresult) fun hall => ?_
    exact hstops.not_ends (hall e (hsplit ▸ List.mem_append_cons_self))

theorem outcomes (h : Concludes levels give executions answer) {result : α} (hdone : answer = .done result) :
    ∃ outcomes, result = give outcomes ∧ outcomes.map (·.level) = levels ∧
      List.Forall₂ Execution.Tells executions outcomes := by
  obtain ⟨outcomes, hanswer, hlevels, _, htells⟩ | ⟨_, _, _, _, hstops⟩ := h
  · exact ⟨outcomes, Outcome.done.inj (hdone.symm.trans hanswer), hlevels, htells⟩
  · exact absurd hdone (hstops.ne_done result)

theorem panics (h : Concludes levels give executions answer) {payload : Option String}
    (hpanic : answer = .panicked payload) :
    ∃ before e, executions = before ++ [e] ∧ (∀ e' ∈ before, e'.Ends) ∧ e.Panics payload := by
  obtain ⟨_, hanswer, _⟩ | ⟨before, e, hsplit, hbefore, hstops⟩ := h
  · cases hanswer.symm.trans hpanic
  · exact ⟨before, e, hsplit, hbefore, hstops.panics hpanic⟩

end Concludes

namespace Harness

variable {past : List Execution} {ahead cleared : Nat} {h : Harness}

theorem runAt_spec (hb : Books past ahead cleared h) (ht : Tracks past h) (code : Code) (key : SandboxKey)
    (registry : Registry) (task : Program (Except Error Value)) :
    ∃ e, h.executionAt code key registry task = [e] ∧ e.For h code registry task ∧ e.sandbox.key = key ∧
      Books (past ++ [e]) ahead cleared (h.runAt code key registry task).2 ∧
      (h.runAt code key registry task).2.checks = h.checks ∧
      ((e.Ends ∧ ∃ outcome, (h.runAt code key registry task).1 = .done outcome ∧ outcome.level = key.level ∧
        e.Tells outcome) ∨ e.Stops (h.runAt code key registry task).1) := by
  obtain ⟨s, hs⟩ := exists_serves hb.atRest key
  obtain ⟨hkey, hchecks⟩ := hb.served_by hs
  let e : Execution := ⟨code, registry, task, s, (h.lease key).2.journal⟩
  have huntouched : Untouched past e.sandbox := (ht.lent hs.granted).untouched
  have hused : Untouched (past ++ [e]) e.run.2.1 ∨ e.run.2.1.poisoned = true ∨ e.run.2.1.stage = .active := by
    have hspec := (runIn_spec huntouched rfl code registry task (h.lease key).2.journal).2
    exact hspec.imp_left And.right
  have hexecution : h.executionAt code key registry task = [e] := by
    have hgranted := hs.granted
    simp only [executionAt, e]
    rcases hlease : h.lease key with ⟨outcome, h'⟩
    rw [hlease] at hgranted
    obtain rfl : outcome = .done (.granted s) := hgranted
    rfl
  have hrun : h.runAt code key registry task =
      Outcome.andThen (e.run.1, h.afterUse key e.run.2.1 e.run.2.2) fun result h =>
        (.done ⟨key.level, some s.id, h.journal.record, result⟩, h) := by
    unfold runAt
    rw [withSandbox_eq hs hused, Outcome.andThen_assoc]
    rfl
  have htold := fun (kind : EventKind) (hkind : kind ≠ .bridgeSynthesis) => e.told_run huntouched hkind
  have hbooks : Books (past ++ [e]) (ahead + 0) cleared (h.afterUse key e.run.2.1 e.run.2.2) := by
    refine hb.afterUse hs (e.sameOwner_run huntouched) rfl ?_ ?_ ?_
    · exact htold .sandboxBuild EventKind.noConfusion
    · exact htold .registrySwap EventKind.noConfusion
    · have hreset := htold .sandboxReset EventKind.noConfusion
      simp only [true_and] at hreset
      rw [List.countP_singleton]
      exact hreset
  have hafter : (h.runAt code key registry task).2 = h.afterUse key e.run.2.1 e.run.2.2 := by
    rw [hrun]
    cases e.run.1 <;> rfl
  refine ⟨e, hexecution, ⟨rfl, rfl, rfl, hchecks⟩, hkey, ?_, ?_, ?_⟩
  · rw [hafter]
    exact hbooks
  · rw [hafter]
    rfl
  · rw [hrun]
    obtain ⟨hends, result, hresult, hfares⟩ | hstops := e.run_cases huntouched
    · rw [hresult]
      exact .inl ⟨hends, _, rfl, rfl, rfl, hfares⟩
    · exact .inr (Execution.Stops.andThen (r := (e.run.1, h.afterUse key e.run.2.1 e.run.2.2)) hstops _)

/-- A run takes the levels one after the other, up to the first whose execution does not come to its end. -/
theorem runLevels_spec (hb : Books past ahead cleared h) (ht : Tracks past h) (code : Code) (rules : Rules)
    (registry : Registry) (task : Program (Except Error Value)) (levels : List Nat) :
    let executions := levelExecutions code rules registry task levels h
    let r := h.runLevels code rules registry task levels
    Books (past ++ executions) ahead cleared r.2 ∧
      (∀ e ∈ executions, e.For h code registry task) ∧
      executions.map (·.sandbox.key) <+: levels.map (⟨rules, ·⟩) ∧
      Concludes levels id executions r.1 := by
  induction levels generalizing past h with
  | nil =>
    refine ⟨?_, fun _ he => (by cases he), List.prefix_rfl, .inl ⟨[], rfl, rfl, fun _ he => (by cases he), .nil⟩⟩
    simpa [levelExecutions, Harness.runLevels] using hb
  | cons level rest ih =>
    obtain ⟨e, hexecution, hfor, hkey, hbooks, hchecks, hended⟩ := runAt_spec hb ht code ⟨rules, level⟩ registry task
    have htracks := ht.runAt code ⟨rules, level⟩ registry task
    rw [hexecution] at htracks
    unfold levelExecutions Harness.runLevels
    rw [hexecution]
    rcases hr : h.runAt code ⟨rules, level⟩ registry task with ⟨answer, h'⟩
    rw [hr] at hbooks hchecks hended htracks
    obtain ⟨hends, outcome, hanswer, hlevel, htells⟩ | hstops := hended
    · obtain rfl : answer = .done outcome := hanswer
      obtain ⟨hbooks', hfor', hkeys', hconcludes⟩ := ih hbooks htracks
      simp only [Outcome.andThen_done, List.singleton_append]
      rw [List.append_assoc, List.singleton_append] at hbooks'
      refine ⟨?_, List.forall_mem_cons.2 ⟨hfor, fun e' he' => ?_⟩, ?_, ?_⟩
      · rwa [Outcome.andThen_snd]
      · obtain ⟨hcode, hregistry, htask, hchecks'⟩ := hfor' e' he'
        exact ⟨hcode, hregistry, htask, fun check hc => hchecks ▸ hchecks' check hc⟩
      · rw [List.map_cons, List.map_cons, hkey]
        exact List.prefix_cons_inj _ |>.2 hkeys'
      · obtain rfl : outcome.level = level := hlevel
        exact hconcludes.cons hends htells
    · have hcut : e.Stops answer := hstops
      have hkeys : [e].map (·.sandbox.key) <+: (level :: rest).map (⟨rules, ·⟩) := by
        rw [List.map_cons, List.map_cons, hkey]
        exact List.prefix_cons_inj _ |>.2 List.nil_prefix
      have hone : ∀ e' ∈ [e], e'.For h code registry task := List.forall_mem_singleton.2 hfor
      cases hcut with
      | panicked h => exact ⟨hbooks, hone, hkeys, .inr ⟨[], e, rfl, fun _ he => (by cases he), .panicked h⟩⟩
      | unfinished h => exact ⟨hbooks, hone, hkeys, .inr ⟨[], e, rfl, fun _ he => (by cases he), .unfinished h⟩⟩

/-! ## Runs -/

/-- Looking for a registry reports nothing but that it is built, and changes neither pool nor leak checks. -/
theorem Books.registryFor (hb : Books past ahead cleared h) (test : Overrides) :
    Books past ahead cleared (h.registryFor test).2 ∧ (h.registryFor test).2.checks = h.checks := by
  have hreported : ∀ registries, Books past ahead cleared
      { h with
        journal := h.journal.addEvent .registryBuild (Overrides.shadowsText test.shadows)
        registries := registries } := fun _ =>
    ⟨hb.max, hb.atRest, hb.bounded, hb.served, hb.accounted, (Journal.told_addEvent _ _ _ _).trans hb.builds,
      (Journal.told_addEvent _ _ _ _).trans hb.swaps, (Journal.told_addEvent _ _ _ _).trans hb.resets, hb.idle⟩
  unfold Harness.registryFor
  split
  · exact ⟨hb, rfl⟩
  · simp only
    split
    · exact ⟨hreported _, rfl⟩
    · exact ⟨hreported _, rfl⟩

theorem run_of_select_error (code : Code) {test : Overrides} (task : Program (Except Error Value)) {e : Error}
    (hselect : test.levels.select h.settings.supportedLevels h.settings.defaultLevel = .error e) :
    h.run code test task = (.done (.error e), h) ∧ h.executions code test task = [] := by
  simp only [Harness.run, executions, hselect, and_self]

theorem run_of_registry_error (code : Code) {test : Overrides} (task : Program (Except Error Value))
    {levels : List Nat} {e : Error}
    (hselect : test.levels.select h.settings.supportedLevels h.settings.defaultLevel = .ok levels)
    (hregistry : (h.registryFor test).1 = .error e) :
    h.run code test task = (.done (.error e), (h.registryFor test).2) ∧ h.executions code test task = [] := by
  simp only [Harness.run, executions, hselect]
  rcases hanswer : h.registryFor test with ⟨answer, h'⟩
  rw [hanswer] at hregistry
  obtain rfl : answer = .error e := hregistry
  exact ⟨rfl, rfl⟩

/-- A run is refused before there is any execution, or its levels are chosen and it is given a registry. -/
theorem run_refused_or_given (h : Harness) (code : Code) (test : Overrides) (task : Program (Except Error Value)) :
    (∃ e, (h.run code test task).1 = .done (.error e) ∧ h.executions code test task = [] ∧
      ((h.run code test task).2 = h ∨ (h.run code test task).2 = (h.registryFor test).2)) ∨
    ∃ levels registry, test.levels.select h.settings.supportedLevels h.settings.defaultLevel = .ok levels ∧
      (h.registryFor test).1 = .ok registry := by
  cases hselect : test.levels.select h.settings.supportedLevels h.settings.defaultLevel with
  | error e =>
    obtain ⟨hrun, hnone⟩ := run_of_select_error code task hselect
    rw [hrun]
    exact .inl ⟨e, rfl, hnone, .inl rfl⟩
  | ok levels =>
    cases hregistry : (h.registryFor test).1 with
    | error e =>
      obtain ⟨hrun, hnone⟩ := run_of_registry_error code task hselect hregistry
      rw [hrun]
      exact .inl ⟨e, rfl, hnone, .inr rfl⟩
    | ok registry => exact .inr ⟨levels, registry, rfl, rfl⟩

/-- A run of a test whose levels and registry are valid goes through the levels. -/
theorem run_spec (hb : Books past ahead cleared h) (ht : Tracks past h) (code : Code) (test : Overrides)
    (task : Program (Except Error Value)) {levels : List Nat} {registry : Registry}
    (hselect : test.levels.select h.settings.supportedLevels h.settings.defaultLevel = .ok levels)
    (hregistry : (h.registryFor test).1 = .ok registry) :
    let executions := h.executions code test task
    let r := h.run code test task
    Books (past ++ executions) ahead cleared r.2 ∧
      (∀ e ∈ executions, e.For h code registry task) ∧
      executions.map (·.sandbox.key) <+: levels.map (⟨h.rulesFor test, ·⟩) ∧
      Concludes levels Except.ok executions r.1 := by
  obtain ⟨hbooks, hchecks⟩ := hb.registryFor test
  have htracks := ht.registryFor test
  have hrules : (h.registryFor test).2.rulesFor test = h.rulesFor test := by
    unfold Harness.registryFor
    split
    · rfl
    · simp only
      split <;> rfl
  simp only [Harness.run, Harness.executions, hselect]
  rcases hanswer : h.registryFor test with ⟨answer, h'⟩
  rw [hanswer] at hbooks hchecks htracks hrules hregistry
  obtain rfl : answer = .ok registry := hregistry
  obtain ⟨hbooks', hfor, hkeys, hconcludes⟩ :=
    runLevels_spec hbooks htracks code (h'.rulesFor test) registry task levels
  refine ⟨?_, fun e he => ?_, ?_, hconcludes.ok⟩
  · simp only
    rwa [Outcome.andThen_snd]
  · obtain ⟨hcode, hregistry, htask, hchecks'⟩ := hfor e he
    exact ⟨hcode, hregistry, htask, fun check hc => hchecks ▸ hchecks' check hc⟩
  · rw [← hrules]
    exact hkeys

theorem Books.run (hb : Books past ahead cleared h) (ht : Tracks past h) (code : Code) (test : Overrides)
    (task : Program (Except Error Value)) :
    Books (past ++ h.executions code test task) ahead cleared (h.run code test task).2 := by
  obtain ⟨_, _, hnone, hsame | hasked⟩ | ⟨_, _, hselect, hregistry⟩ := h.run_refused_or_given code test task
  · rw [hnone, hsame, List.append_nil]
    exact hb
  · rw [hnone, hasked, List.append_nil]
    exact (hb.registryFor test).1
  · exact (run_spec hb ht code test task hselect hregistry).1

/-! ## Levels prepared ahead -/

/-- A pool at rest is one that no worker uses yet. -/
theorem Books.balanced (hb : Books past ahead cleared h) :
    (Crew.unused h.pool h.journal (past.length + ahead) cleared).Balanced h.pool.max where
  max := rfl
  building key := Nat.le_zero.1 (hb.atRest.building ▸ h.pool.tallyAt_le_tally Slot.isBuilding key)
  leased key := Nat.le_zero.1 (hb.atRest.leased ▸ h.pool.tallyAt_le_tally Slot.isLeased key)
  outstanding := hb.atRest.leased
  granted := hb.served
  accounts := by
    have haccounted := hb.accounted
    have hleased := hb.atRest.leased
    unfold Pool.accounted at haccounted
    simp only [Crew.unused, List.length_nil]
    omega

/-- What is known of a sandbox that waits, by the key that it waits under. -/
structure Fits (past : List Execution) (h : Harness) (key : SandboxKey) (s : Sandbox) : Prop where
  untouched : Untouched past s
  key : s.key = key
  checks : ∀ check ∈ s.checks, check ∈ h.checks

/-- Whatever turns its workers take, a crew comes to its end, and each level is booked as one lease. -/
theorem Books.prewarmed (hb : Books past ahead cleared h) (ht : Tracks past h) (code : Code)
    (levels schedule : List Nat) :
    let crew := h.prewarmed code levels schedule
    crew.answer = .done (.ok ()) ∧
      Books past (ahead + levels.length) cleared { h with pool := crew.pool, journal := crew.journal } := by
  intro crew
  let start := Crew.new h.pool h.journal (h.keysAhead levels)
  have hidle : ∀ key s, h.pool.idleAt? key = some s → Fits past h key s := fun key s hs =>
    ⟨(ht.waiting key s hs).1, (hb.idle key s hs).1, (hb.idle key s hs).2⟩
  have hsmooth : Crew.Smooth code h.assemble (Fits past h) := smooth_assemble past h code fun _ _ hs => hs.untouched
  have hlasts : Crew.Lasts code h.assemble (h.keysAhead levels) h.journal.nextSandbox (Fits past h) := by
    refine hsmooth.lasts fun _ hid hs => ?_
    obtain ⟨huntouched, hkey, hchecks⟩ := ht.configured hid hs
    exact ⟨huntouched, hkey, fun check hcheck => hchecks ▸ hcheck⟩
  have hkeeps : Crew.Keeps h.assemble (h.keysAhead levels) h.journal.nextSandbox (Fits past h) start :=
    keeps_new hidle levels
  have hfresh : ∀ w ∈ start.workers, w.progress = .fresh := by
    intro w hw
    obtain ⟨_, _, rfl⟩ := List.mem_map.1 hw
    rfl
  have horderly : Crew.Orderly h.assemble (h.keysAhead levels) h.journal.nextSandbox (Fits past h)
      (past.length + ahead) cleared h.pool.max start :=
    ⟨hkeeps, fun w hw => by rw [hfresh w hw]; rfl, _, Crew.shows_new h.pool h.journal _ _ _, hb.balanced, hb.bounded⟩
  have hreports : Crew.Reports h.journal start := by
    have hready : start.workers.countP (·.progress.isReady) = 0 := by
      rw [List.countP_eq_zero]
      intro w hw
      rw [hfresh w hw]
      exact Bool.false_ne_true
    refine ⟨?_, fun _ _ => rfl⟩
    rw [hready]
    exact hb.builds
  obtain ⟨hend, hfinished, hanswer⟩ := horderly.complete hlasts hsmooth
    (fun key id => assemble_eq key h.hierarchy h.settings.detectLeaks h.checks id) schedule
  have hreported : Crew.Reports h.journal crew := hreports.run hkeeps hlasts hsmooth _
  obtain ⟨hmax, hrest, hbounded, hserved, haccounted⟩ := hend.atRest hfinished
  have hlength : crew.workers.length = levels.length := by
    have hsame : crew.workers.length = start.workers.length := Crew.length_run ..
    rw [hsame]
    simp [start, Crew.new, keysAhead]
  have hentered : crew.workers.countP (·.progress.isReady) = 0 := by
    rw [List.countP_eq_zero]
    intro w hw
    rw [hfinished w hw]
    exact Bool.false_ne_true
  have hbuilds := hreported.builds
  rw [hentered] at hbuilds
  refine ⟨hanswer, hmax.trans hb.max, hrest, hbounded, ?_, haccounted, hbuilds, ?_, ?_, fun key s hs => ?_⟩
  · rw [← Nat.add_assoc, ← hlength]
    exact hserved
  · exact (hreported.others _ EventKind.noConfusion).trans hb.swaps
  · exact (hreported.others _ EventKind.noConfusion).trans hb.resets
  · have hfits := hend.keeps.idle key s hs
    exact ⟨hfits.key, hfits.checks⟩

/-- The levels that are prepared ahead: all, or none if one of them is not supported. -/
def preparedAhead (h : Harness) (levels : List Nat) : Nat :=
  if levels.all h.settings.supportedLevels.contains then levels.length else 0

theorem all_supported_iff {levels : List Nat} : levels.all h.settings.supportedLevels.contains = true ↔
    ∀ level ∈ levels, level ∈ h.settings.supportedLevels := by simp

theorem Books.prewarm (hb : Books past ahead cleared h) (ht : Tracks past h) (code : Code)
    (levels schedule : List Nat) :
    Books past (ahead + h.preparedAhead levels) cleared (h.prewarm code levels schedule).2 := by
  unfold preparedAhead
  obtain ⟨hunsupported, hsame⟩ | ⟨hsupported, hcrew⟩ := h.prewarm_cases code levels schedule
  · rw [hsame, if_neg (mt all_supported_iff.1 hunsupported)]
    exact hb
  · rw [hcrew, Outcome.andThen_snd, if_pos (all_supported_iff.2 hsupported)]
    exact (hb.prewarmed ht code levels schedule).2

/-- Preparing supported levels ahead comes to its end and is answered with their number, whatever turns the workers
take. -/
theorem Books.prewarm_answer (hb : Books past ahead cleared h) (ht : Tracks past h) (code : Code) {levels : List Nat}
    (hlevels : ∀ level ∈ levels, level ∈ h.settings.supportedLevels) (schedule : List Nat) :
    (h.prewarm code levels schedule).1 = .done (.ok levels.length) := by
  obtain ⟨hunsupported, _⟩ | ⟨_, hcrew⟩ := h.prewarm_cases code levels schedule
  · exact absurd hlevels hunsupported
  · rw [hcrew, (hb.prewarmed ht code levels schedule).1]
    rfl

theorem Books.clearPool (hb : Books past ahead cleared h) :
    Books past ahead (cleared + h.pool.clear.1.length) h.clearPool := by
  obtain ⟨hthin, hcounts, hnone, hlength⟩ := h.pool.clear_spec
  have hbuilding := hthin.inUse _ Traffic.inUse_isBuilding
  have hleased := hthin.inUse _ Traffic.inUse_isLeased
  have hcounted : h.clearPool.pool.counts = h.pool.counts := hcounts
  refine ⟨hthin.max.trans hb.max, ⟨hbuilding.trans hb.atRest.building, hleased.trans hb.atRest.leased⟩, .inl hnone,
    ?_, ?_, ?_, hb.swaps, hb.resets, fun key s hs => ?_⟩
  · rw [hcounted]
    exact hb.served
  · have haccounted := hb.accounted
    have hsame : h.clearPool.pool.accounted + h.pool.idleCount = h.pool.accounted := by
      unfold Pool.accounted
      rw [hcounted]
      have hnone' : h.clearPool.pool.idleCount = 0 := hnone
      have hleased' : h.clearPool.pool.tally Slot.isLeased = h.pool.tally Slot.isLeased := hleased
      omega
    rw [hcounted]
    omega
  · rw [hcounted]
    exact hb.builds
  · have hgone := Pool.idleAt?_clear h.pool key
    rw [show h.clearPool.pool = h.pool.clear.2 from rfl, hgone] at hs
    cases hs

end Harness

end Interpose
