import Interpose.Proofs.Pool.Traffic
import Interpose.Proofs.Sandbox.Routing
import Interpose.Proofs.Testing.Registries

/-!
# What is true of the sandboxes of a harness

A harness builds sandboxes, puts them to operations of their lives and keeps them in a pool until they are wanted
again. So what is true of a sandbox that was built, and stays true whatever operation it is put to, is true of every
sandbox that an execution is given, however the executions before it ended.
-/

namespace Interpose

/-- What is true of the sandboxes that are built in a hierarchy and stays true whatever is done with them. -/
structure Sandbox.Lasting (hierarchy : Hierarchy) (P : Sandbox → Prop) : Prop where
  built : ∀ {key : SandboxKey} {detectLeaks : Bool} {checks : List LeakCheck} {j j' : Journal} {s : Sandbox},
    BuildPlan.ready.builder key hierarchy detectLeaks checks j = (.done (.ok s), j') → P s
  step : ∀ {s : Sandbox} (x : Sandbox.Step), P s → P (s.step x)

namespace Harness

variable {P : Sandbox → Prop} {h h' : Harness} {s : Sandbox} {past : List Execution}

/-- Something is true of every sandbox that waits in the pool. -/
def AllIdle (P : Sandbox → Prop) (h : Harness) : Prop := ∀ key s, h.pool.idleAt? key = some s → P s

theorem AllIdle.mono (ha : h.AllIdle P)
    (hpool : ∀ key s, h'.pool.idleAt? key = some s → h.pool.idleAt? key = some s) : h'.AllIdle P :=
  fun key s hs => ha key s (hpool key s hs)

theorem AllIdle.lease (ha : h.AllIdle P) (key : SandboxKey) : (h.lease key).2.AllIdle P :=
  ha.mono fun _ _ hs => (idleAt?_lease hs).2

/-- A sandbox that is got waited in the pool or was built. -/
theorem AllIdle.granted (ha : h.AllIdle P) (hP : Sandbox.Lasting h.hierarchy P) {key : SandboxKey}
    (hs : (h.lease key).1 = .done (.granted s)) : P s := by
  unfold Harness.lease Pool.acquire at hs
  rcases hc : h.pool.claim key with ⟨claim, p⟩
  rw [hc] at hs
  cases claim with
  | wait => cases hs
  | reuse s' =>
    cases hs
    exact ha key s (Pool.claim_reuse (by rw [hc]))
  | build =>
    rcases hb : BuildPlan.ready.builder key h.hierarchy h.settings.detectLeaks h.checks h.journal with ⟨outcome, j⟩
    simp only [hb] at hs
    cases outcome with
    | done answer =>
      cases answer with
      | ok made =>
        cases hs
        exact hP.built hb
      | error e => cases hs
    | panicked payload => cases hs
    | unfinished => cases hs

theorem AllIdle.giveBack (ha : h.AllIdle P) (hP : Sandbox.Lasting h.hierarchy P) (hs : P s) (code : Code)
    (key : SandboxKey) : (h.giveBack code key s).2.AllIdle P := by
  have htidy : ∀ j, P (Pool.tidy code s j).2.1 := by
    intro j
    obtain hsame | hreset := Pool.tidy_sandbox code s j
    · rwa [hsame]
    · rw [hreset]
      exact hP.step _ hs
  intro k s' hs'
  unfold Harness.giveBack Pool.release at hs'
  rcases ht : Pool.tidy code s h.journal with ⟨outcome, tidied, j⟩
  rw [ht] at hs'
  cases outcome with
  | done _ =>
    obtain ⟨_, rfl, _⟩ | hwaits := Pool.idleAt?_putBack hs'
    · have htidied := htidy h.journal
      rwa [ht] at htidied
    · exact ha k s' hwaits
  | panicked payload => exact ha k s' hs'
  | unfinished => exact ha k s' hs'

theorem AllIdle.withSandbox {α : Type} (ha : h.AllIdle P) (hP : Sandbox.Lasting h.hierarchy P) (code : Code)
    (key : SandboxKey) {use : Sandbox → Journal → Outcome α × Sandbox × Journal}
    (huse : ∀ s j, P s → P (use s j).2.1) : (h.withSandbox code key use).2.AllIdle P := by
  rw [withSandbox_end]
  split
  · rename_i s hs
    have hused := huse s (h.lease key).2.journal (ha.granted hP hs)
    have hlent : AllIdle P { (h.lease key).2 with journal := (use s (h.lease key).2.journal).2.2 } := ha.lease key
    exact hlent.giveBack hP hused code key
  · exact ha.lease key

/-! ## Runs -/

/-- A task is run by two operations: its registry is installed, and then it is executed. -/
theorem lasting_runIn (hP : Sandbox.Lasting h.hierarchy P) (hs : P s) (code : Code) (registry : Registry)
    (task : Program (Except Error Value)) (j : Journal) : P (runIn code registry task s j).2.1 := by
  have hinstalled : P (s.install registry { j with record := [] }).2.1 :=
    hP.step (.install registry, { j with record := [] }) hs
  rcases hi : s.install registry { j with record := [] } with ⟨answer, s', j'⟩
  rw [hi] at hinstalled
  cases answer with
  | error e =>
    simp only [runIn, hi]
    exact hinstalled
  | ok changed =>
    have hexecuted := hP.step (.execute code task, j') hinstalled
    rw [Sandbox.step, Sandbox.apply, Outcome.andThen_snd] at hexecuted
    simp only [runIn, hi]
    exact hexecuted

theorem AllIdle.runAt (ha : h.AllIdle P) (hP : Sandbox.Lasting h.hierarchy P) (code : Code) (key : SandboxKey)
    (registry : Registry) (task : Program (Except Error Value)) :
    (h.runAt code key registry task).2.AllIdle P ∧
      ∀ e ∈ h.executionAt code key registry task, P e.sandbox := by
  refine ⟨?_, fun e he => ?_⟩
  · rw [runAt_end]
    exact ha.withSandbox hP code key fun s j hs => lasting_runIn hP hs code registry task j
  · unfold executionAt at he
    rcases hl : h.lease key with ⟨outcome, h'⟩
    rw [hl] at he
    cases outcome with
    | done grant =>
      cases grant with
      | granted s =>
        obtain rfl := List.mem_singleton.1 he
        exact ha.granted hP (by rw [hl])
      | failed e' => cases he
      | waiting => cases he
    | panicked payload => cases he
    | unfinished => cases he

theorem AllIdle.runLevels (ha : h.AllIdle P) (hP : Sandbox.Lasting h.hierarchy P) (code : Code) (rules : Rules)
    (registry : Registry) (task : Program (Except Error Value)) (levels : List Nat) :
    (h.runLevels code rules registry task levels).2.AllIdle P ∧
      ∀ e ∈ levelExecutions code rules registry task levels h, P e.sandbox := by
  induction levels generalizing h with
  | nil => exact ⟨ha, fun _ he => by cases he⟩
  | cons level rest ih =>
    obtain ⟨hidle, hone⟩ := ha.runAt hP code ⟨rules, level⟩ registry task
    have hsame := (h.sameSetup_runAt code ⟨rules, level⟩ registry task).hierarchy
    unfold Harness.runLevels levelExecutions
    rcases hr : h.runAt code ⟨rules, level⟩ registry task with ⟨outcome, h'⟩
    rw [hr] at hidle hsame
    cases outcome with
    | done answer =>
      obtain ⟨hrest, hothers⟩ := ih hidle (hsame ▸ hP)
      refine ⟨?_, List.forall_mem_append.2 ⟨hone, hothers⟩⟩
      rwa [Outcome.andThen_done, Outcome.andThen_snd]
    | panicked payload => exact ⟨hidle, by simpa using hone⟩
    | unfinished => exact ⟨hidle, by simpa using hone⟩

/-- To look for a registry changes neither the hierarchy nor the pool. -/
theorem registryFor_keeps (h : Harness) (test : Overrides) :
    (h.registryFor test).2.hierarchy = h.hierarchy ∧ (h.registryFor test).2.pool = h.pool := by
  unfold Harness.registryFor
  split
  · exact ⟨rfl, rfl⟩
  · simp only
    split <;> exact ⟨rfl, rfl⟩

theorem AllIdle.run (ha : h.AllIdle P) (hP : Sandbox.Lasting h.hierarchy P) (code : Code) (test : Overrides)
    (task : Program (Except Error Value)) :
    (h.run code test task).2.AllIdle P ∧ ∀ e ∈ h.executions code test task, P e.sandbox := by
  unfold Harness.run executions
  cases test.levels.select h.settings.supportedLevels h.settings.defaultLevel with
  | error e => exact ⟨ha, fun _ he => by cases he⟩
  | ok levels =>
    obtain ⟨hhierarchy, hpool⟩ := h.registryFor_keeps test
    simp only
    rcases hf : h.registryFor test with ⟨answer, h'⟩
    rw [hf] at hhierarchy hpool
    have hidle : h'.AllIdle P := ha.mono fun key s hs => hpool ▸ hs
    cases answer with
    | error e => exact ⟨hidle, fun _ he => by cases he⟩
    | ok registry =>
      obtain ⟨hlevels, hall⟩ :=
        hidle.runLevels (hhierarchy ▸ hP) code (h'.rulesFor test) registry task levels
      refine ⟨?_, hall⟩
      simp only
      rwa [Outcome.andThen_snd]

/-! ## Histories -/

theorem hierarchy_run (h : Harness) (code : Code) (test : Overrides) (task : Program (Except Error Value)) :
    (h.run code test task).2.hierarchy = h.hierarchy := by
  unfold Harness.run
  split
  · rfl
  · have hsame := (h.registryFor_keeps test).1
    split
    · rename_i hanswer
      rwa [hanswer] at hsame
    · rename_i registry h' hanswer
      rw [hanswer] at hsame
      rw [Outcome.andThen_snd]
      exact (sameSetup_runLevels code (h'.rulesFor test) registry task _ h').hierarchy.trans hsame

theorem AllIdle.prewarm (ha : h.AllIdle P) (hP : Sandbox.Lasting h.hierarchy P) (code : Code)
    (levels schedule : List Nat) : (h.prewarm code levels schedule).2.AllIdle P := by
  obtain hsame | ⟨_, hcrew⟩ := h.prewarm_keeps code levels schedule
  · rw [hsame]
    exact ha
  rw [hcrew]
  refine (keeps_prewarmed (Q := fun _ => P) ha code levels schedule ⟨fun {key id j s j'} _ _ hs => ?_, ?_⟩).idle
  · -- What is configured under an id is what building it for the pool would give.
    rw [Harness.assemble, configure_assemble] at hs
    cases hs
    exact hP.built (builder_ready_eq key h.hierarchy h.settings.detectLeaks h.checks { j with nextSandbox := id })
  · intro key s j s' j' hs htidy
    have hafter := Pool.tidy_sandbox code s j
    rw [htidy] at hafter
    obtain (rfl : s' = s) | (rfl : s' = s.step (.reset code, j)) := hafter
    · exact hs
    · exact hP.step _ hs

/-- In every history, what lasts is true of the sandboxes that wait and of those that the executions were given. -/
theorem History.lasting (hist : History h past) (hP : Sandbox.Lasting h.hierarchy P) :
    h.AllIdle P ∧ ∀ e ∈ past, P e.sandbox := by
  induction hist with
  | new hnew =>
    refine ⟨?_, fun _ he => by cases he⟩
    obtain ⟨_, rfl⟩ := new_eq_ok hnew
    exact fun _ _ hs => by cases hs
  | withProvider _ p ih => exact ih hP
  | withCheck _ check ih => exact ih hP
  | @run h past _ code test task ih =>
    rw [hierarchy_run] at hP
    obtain ⟨hidle, hpast⟩ := ih hP
    obtain ⟨hafter, hall⟩ := hidle.run hP code test task
    exact ⟨hafter, List.forall_mem_append.2 ⟨hpast, hall⟩⟩
  | @prewarm h past _ code levels schedule ih =>
    rw [(sameSetup_prewarm code h levels schedule).hierarchy] at hP
    obtain ⟨hidle, hpast⟩ := ih hP
    exact ⟨hidle.prewarm hP code levels schedule, hpast⟩
  | @clearPool h past _ ih =>
    obtain ⟨hidle, hpast⟩ := ih hP
    refine ⟨fun key s hs => ?_, hpast⟩
    change h.pool.clear.2.idleAt? key = some s at hs
    rw [Pool.idleAt?_clear] at hs
    cases hs

end Harness

/-! ## Sandboxes route calls by their keys -/

/-- A sandbox of a hierarchy decides by its key. -/
theorem Sandbox.lasting_faithful (hierarchy : Hierarchy) :
    Lasting hierarchy fun s => s.Faithful ∧ s.hierarchy = hierarchy where
  built {key detectLeaks checks j j' s} hbuilt := by
    rw [Harness.builder_ready_eq] at hbuilt
    cases hbuilt
    exact ⟨⟨Dispatcher.sound_new hierarchy key.rules key.level, rfl⟩, rfl⟩
  step x hs := ⟨hs.1.step x, (sameOwner_step _ x).hierarchy.trans hs.2⟩

end Interpose
