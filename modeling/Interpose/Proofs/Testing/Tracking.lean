import Interpose.Proofs.Pool.CrewEnds
import Interpose.Proofs.Testing.Executions

/-!
# How a harness keeps its sandboxes

Between runs, each sandbox that waits in the pool is as declared and in the generation that counts its uses so
far, no sandbox waits under two keys, and no id was used that is still to be given out. These facts are kept by
whatever a harness does, and through them each execution finds the sandbox that it leases in a generation that
counts the uses of this sandbox before.
-/

namespace Interpose

/-- How many executions used the sandbox of an id. -/
def uses (past : List Execution) (id : Nat) : Nat := past.countP fun e => e.sandbox.id = id

theorem uses_concat (past : List Execution) (e : Execution) (id : Nat) :
    uses (past ++ [e]) id = uses past id + if e.sandbox.id = id then 1 else 0 := by
  unfold uses
  rw [List.countP_append, List.countP_singleton]
  simp

/-- A sandbox as an execution finds it. -/
structure Untouched (past : List Execution) (s : Sandbox) : Prop where
  poisoned : s.poisoned = false
  stage : s.stage.acceptsRegistry = true
  pristine : s.memory.isPristine = true
  heap : s.memory.heap = ⟨uses past s.id, 0, Table.empty⟩

/-- Executions in other sandboxes do not count. -/
theorem Untouched.concat {past : List Execution} {s : Sandbox} (hs : Untouched past s) {e : Execution}
    (he : e.sandbox.id ≠ s.id) : Untouched (past ++ [e]) s := by
  refine ⟨hs.poisoned, hs.stage, hs.pristine, ?_⟩
  rw [uses_concat, if_neg he]
  exact hs.heap

namespace Harness

open Machine

/-- Only settings without a fault make a harness, and a new one has nothing else yet. -/
theorem new_eq_ok {hierarchy : Hierarchy} {settings : Settings} {h : Harness}
    (hnew : Harness.new hierarchy settings = .ok h) : settings.fault? = none ∧
      h = ⟨hierarchy, settings, [], .new settings.maxSandboxes, Table.empty, [], .empty⟩ := by
  unfold Harness.new at hnew
  split at hnew
  · cases hnew
  · rename_i hnone
    cases hnew
    exact ⟨hnone, rfl⟩

/-- A run in a sandbox leaves it as the next execution is to find it, or beyond use. -/
theorem runIn_spec {past : List Execution} {s : Sandbox} (hs : Untouched past s) {e : Execution}
    (he : e.sandbox = s) (code : Code) (registry : Registry) (task : Program (Except Error Value))
    (j : Journal) :
    let r := runIn code registry task s j
    r.2.2.nextSandbox = j.nextSandbox ∧
      (r.2.1.id = s.id ∧ Untouched (past ++ [e]) r.2.1 ∨ r.2.1.poisoned = true ∨ r.2.1.stage = .active) := by
  have hinstall := Sandbox.install_eq hs.poisoned hs.stage registry { j with record := [] }
  have haccept := Sandbox.install_accepts_task hs.poisoned hs.stage registry { j with record := [] }
  intro r
  have hr : r = (s.install registry { j with record := [] }).2.1.execute code task
      (s.install registry { j with record := [] }).2.2 := by
    simp only [r, runIn, hinstall]
  obtain ⟨hnext, m, hreach, hidle | hpoisoned | hactive⟩ :=
    Sandbox.execute_spec haccept code task (s.install registry { j with record := [] }).2.2
  · rw [← hr] at hidle hnext
    rw [hinstall] at hidle hnext hreach
    refine ⟨hnext, .inl ⟨by rw [hidle], ?_⟩⟩
    have hgeneration : m.memory.generation = s.memory.generation := hreach.evolves.generation
    rw [hidle]
    refine ⟨hs.poisoned, rfl, Memory.isPristine_reset _, ?_⟩
    change (⟨m.memory.generation + 1, 0, Table.empty⟩ : Heap) = ⟨uses (past ++ [e]) s.id, 0, Table.empty⟩
    rw [hgeneration, Memory.generation, hs.heap, uses_concat, he, if_pos rfl]
  · rw [← hr] at hpoisoned hnext
    rw [hinstall] at hnext
    exact ⟨hnext, .inr (.inl hpoisoned)⟩
  · rw [← hr] at hactive hnext
    rw [hinstall] at hnext
    exact ⟨hnext, .inr (.inr hactive.1)⟩

/-- What is known of a harness between runs, given the executions so far. -/
structure Tracks (past : List Execution) (h : Harness) : Prop where
  recorded : ∀ i e, past[i]? = some e → Untouched (past.take i) e.sandbox
  issued : ∀ e ∈ past, e.sandbox.id < h.journal.nextSandbox
  waiting : ∀ key s, h.pool.idleAt? key = some s → Untouched past s ∧ s.id < h.journal.nextSandbox
  once : ∀ key key' s s', h.pool.idleAt? key = some s → h.pool.idleAt? key' = some s' → s.id = s'.id →
    key = key'

/-- What is known while a sandbox is out of the pool. -/
structure Lent (past : List Execution) (h : Harness) (s : Sandbox) : Prop where
  tracks : Tracks past h
  untouched : Untouched past s
  issued : s.id < h.journal.nextSandbox
  alone : ∀ key s', h.pool.idleAt? key = some s' → s'.id ≠ s.id

section Tracking

variable {past : List Execution} {h h' : Harness} {s : Sandbox}

/-- Sandboxes may leave the pool, and ids may be given out. -/
theorem Tracks.mono (ht : Tracks past h)
    (hpool : ∀ key s, h'.pool.idleAt? key = some s → h.pool.idleAt? key = some s)
    (hnext : h.journal.nextSandbox ≤ h'.journal.nextSandbox) : Tracks past h' where
  recorded := ht.recorded
  issued e he := Nat.lt_of_lt_of_le (ht.issued e he) hnext
  waiting key s hs := by
    obtain ⟨huntouched, hissued⟩ := ht.waiting key s (hpool key s hs)
    exact ⟨huntouched, Nat.lt_of_lt_of_le hissued hnext⟩
  once key key' s s' hs hs' := ht.once key key' s s' (hpool key s hs) (hpool key' s' hs')

/-- An execution in the sandbox that is out of the pool is noted. -/
theorem Lent.tracks_concat (hl : Lent past h s) {e : Execution} (he : e.sandbox = s) :
    Tracks (past ++ [e]) h where
  recorded i e' hi := by
    by_cases hlt : i < past.length
    · rw [List.getElem?_append_left hlt] at hi
      rw [List.take_append_of_le_length (Nat.le_of_lt hlt)]
      exact hl.tracks.recorded i e' hi
    · rw [List.getElem?_append_right (Nat.le_of_not_lt hlt)] at hi
      obtain ⟨hzero, rfl⟩ : i - past.length = 0 ∧ e = e' := by
        cases hk : i - past.length with
        | zero =>
          rw [hk] at hi
          exact ⟨rfl, Option.some.inj hi⟩
        | succ k =>
          rw [hk] at hi
          cases hi
      have hi' : i = past.length := by omega
      rw [hi', List.take_left, he]
      exact hl.untouched
  issued e' hmem := by
    rw [List.mem_append, List.mem_singleton] at hmem
    obtain hpast | rfl := hmem
    · exact hl.tracks.issued e' hpast
    · rw [he]
      exact hl.issued
  waiting key s' hs' := by
    obtain ⟨huntouched, hissued⟩ := hl.tracks.waiting key s' hs'
    refine ⟨huntouched.concat ?_, hissued⟩
    rw [he]
    exact (hl.alone key s' hs').symm
  once := hl.tracks.once

/-! ## Leases -/

theorem assemble_eq (key : SandboxKey) (hierarchy : Hierarchy) (detectLeaks : Bool) (checks : List LeakCheck)
    (id : Nat) : Sandbox.assemble id key hierarchy detectLeaks checks =
      { Sandbox.new id key hierarchy with detectLeaks := detectLeaks, checks := checks } := by
  have hfold : ∀ s : Sandbox, checks.foldl Sandbox.withCheck s = { s with checks := s.checks ++ checks } := by
    induction checks with
    | nil => simp
    | cons check rest ih =>
      intro s
      rw [List.foldl_cons, ih]
      simp [Sandbox.withCheck]
  rw [Sandbox.assemble, hfold]
  rfl

/-- A sandbox that was put together can be configured. -/
theorem configure_assemble (key : SandboxKey) (hierarchy : Hierarchy) (detectLeaks : Bool) (checks : List LeakCheck)
    (id : Nat) (j : Journal) :
    (Sandbox.assemble id key hierarchy detectLeaks checks).configure j =
      (.ok (),
        { Sandbox.new id key hierarchy with
          detectLeaks := detectLeaks, checks := checks
          memory := Memory.blank.load hierarchy, stage := .configured },
        j.addEvent .sandboxBuild (toString id)) := by
  rw [assemble_eq]
  rfl

theorem builder_ready_eq (key : SandboxKey) (hierarchy : Hierarchy) (detectLeaks : Bool) (checks : List LeakCheck)
    (j : Journal) :
    BuildPlan.ready.builder key hierarchy detectLeaks checks j =
      (.done (.ok
        { Sandbox.new j.nextSandbox key hierarchy with
          detectLeaks := detectLeaks, checks := checks
          memory := Memory.blank.load hierarchy, stage := .configured }),
        j.takeSandboxId.2.addEvent .sandboxBuild (toString j.nextSandbox)) := by
  have hconfigure := configure_assemble key hierarchy detectLeaks checks j.nextSandbox j.takeSandboxId.2
  simp only [BuildPlan.builder, Journal.takeSandboxId] at hconfigure ⊢
  rw [hconfigure]

/-- A sandbox that is built for the pool gets an id of its own. -/
theorem builder_ready (key : SandboxKey) (hierarchy : Hierarchy) (detectLeaks : Bool) (checks : List LeakCheck)
    (j : Journal) :
    ∃ s j', BuildPlan.ready.builder key hierarchy detectLeaks checks j = (.done (.ok s), j') ∧
      s.id = j.nextSandbox ∧ s.poisoned = false ∧ s.stage = .configured ∧
      s.memory = Memory.blank.load hierarchy ∧ j'.nextSandbox = j.nextSandbox + 1 := by
  exact ⟨_, _, builder_ready_eq key hierarchy detectLeaks checks j, rfl, rfl, rfl, rfl, rfl⟩

/-- An id that is still to be given out was not used. -/
theorem Tracks.uses_eq_zero (ht : Tracks past h) {id : Nat} (hid : h.journal.nextSandbox ≤ id) : uses past id = 0 := by
  rw [uses, List.countP_eq_zero]
  intro e he
  have hlt := ht.issued e he
  simp only [decide_eq_true_eq]
  omega

/-- How asking for a key ends: with the sandbox that waits under it, with a new one, or with waiting. -/
theorem lease_cases (h : Harness) (key : SandboxKey) :
    (∃ s, h.pool.idleAt? key = some s ∧ (h.lease key).1 = .done (.granted s) ∧
      (h.lease key).2.journal.nextSandbox = h.journal.nextSandbox) ∨
    (∃ s, (h.lease key).1 = .done (.granted s) ∧ s.id = h.journal.nextSandbox ∧ s.poisoned = false ∧
      s.stage = .configured ∧ s.memory = Memory.blank.load h.hierarchy ∧
      (h.lease key).2.journal.nextSandbox = h.journal.nextSandbox + 1) ∨
    (h.lease key).1 = .done .waiting ∧ (h.lease key).2.journal.nextSandbox = h.journal.nextSandbox := by
  obtain ⟨s, j', hbuild, hid, hpoisoned, hstage, hmemory, hnext⟩ :=
    builder_ready key h.hierarchy h.settings.detectLeaks h.checks h.journal
  unfold lease Pool.acquire
  rcases hc : h.pool.claim key with ⟨claim, p⟩
  cases claim with
  | wait => exact .inr (.inr ⟨rfl, rfl⟩)
  | reuse s => exact .inl ⟨s, Pool.claim_reuse (by rw [hc]), rfl, rfl⟩
  | build =>
    simp only [hbuild]
    exact .inr (.inl ⟨s, rfl, hid, hpoisoned, hstage, hmemory, hnext⟩)

theorem idleAt?_lease {key k : SandboxKey} (hs : (h.lease key).2.pool.idleAt? k = some s) :
    k ≠ key ∧ h.pool.idleAt? k = some s := Pool.idleAt?_acquire hs

/-- Asking for a key keeps what is known, however it ends. -/
theorem Tracks.lease (ht : Tracks past h) (key : SandboxKey) : Tracks past (h.lease key).2 := by
  apply ht.mono fun k s hs => (idleAt?_lease hs).2
  obtain ⟨_, _, _, hnext⟩ | ⟨_, _, _, _, _, _, hnext⟩ | ⟨_, hnext⟩ := lease_cases h key <;> omega

/-- A sandbox that is got is as an execution is to find it, and nobody else has it. -/
theorem Tracks.lent (ht : Tracks past h) {key : SandboxKey} (hs : (h.lease key).1 = .done (.granted s)) :
    Lent past (h.lease key).2 s := by
  obtain ⟨s', hidle, hgranted, hnext⟩ | ⟨s', hgranted, hid, hpoisoned, hstage, hmemory, hnext⟩ | ⟨hwait, _⟩ :=
    lease_cases h key
  · rw [hgranted] at hs
    cases hs
    obtain ⟨huntouched, hissued⟩ := ht.waiting key s hidle
    refine ⟨ht.lease key, huntouched, by omega, fun k s' hs' heq => ?_⟩
    obtain ⟨hk, hwaits⟩ := idleAt?_lease hs'
    exact hk (ht.once k key s' s hwaits hidle heq)
  · rw [hgranted] at hs
    cases hs
    refine ⟨ht.lease key, ⟨hpoisoned, by rw [hstage]; rfl, ?_, ?_⟩, by omega, fun k s' hs' heq => ?_⟩
    · rw [hmemory]
      exact Memory.isPristine_of_heap_empty rfl rfl rfl
    · rw [hmemory, hid, ht.uses_eq_zero (Nat.le_refl _)]
      rfl
    · have hlt := (ht.waiting k s' (idleAt?_lease hs').2).2
      omega
  · rw [hwait] at hs
    cases hs

/-! ## Returns -/

/-- A sandbox comes back as the next execution is to find it, or beyond use. -/
theorem giveBack_eq {code : Code} {key : SandboxKey}
    (hs : Untouched past s ∨ s.poisoned = true ∨ s.stage = .active) :
    h.giveBack code key s = (.done (), { h with pool := (h.pool.putBack key s).2 }) := by
  have htidy : Pool.tidy code s h.journal = (.done (), s, h.journal) := by
    apply Pool.tidy_eq_self
    intro hpoisoned hstage
    obtain huntouched | hp | ha := hs
    · exact huntouched.pristine
    · rw [hp] at hpoisoned
      cases hpoisoned
    · rw [ha] at hstage
      cases hstage
  rw [giveBack, Pool.release_eq_putBack htidy]

/-- A sandbox that comes back as the next execution is to find it waits again. -/
theorem Tracks.giveBack (ht : Tracks past h) (huntouched : Untouched past s)
    (hissued : s.id < h.journal.nextSandbox) (halone : ∀ key s', h.pool.idleAt? key = some s' → s'.id ≠ s.id)
    (code : Code) (key : SandboxKey) : Tracks past (h.giveBack code key s).2 := by
  rw [giveBack_eq (.inl huntouched)]
  refine ⟨ht.recorded, ht.issued, fun k s' hs' => ?_, fun k k' s₁ s₂ hs₁ hs₂ heq => ?_⟩
  · obtain ⟨_, rfl, _⟩ | hwaits := Pool.idleAt?_putBack hs'
    · exact ⟨huntouched, hissued⟩
    · exact ht.waiting k s' hwaits
  · obtain ⟨rfl, rfl, _⟩ | hwaits₁ := Pool.idleAt?_putBack hs₁
    · obtain ⟨rfl, _, _⟩ | hwaits₂ := Pool.idleAt?_putBack hs₂
      · rfl
      · exact absurd heq.symm (halone _ _ hwaits₂)
    · obtain ⟨rfl, rfl, _⟩ | hwaits₂ := Pool.idleAt?_putBack hs₂
      · exact absurd heq (halone _ _ hwaits₁)
      · exact ht.once k k' s₁ s₂ hwaits₁ hwaits₂ heq

/-- One that is beyond use does not. -/
theorem Tracks.giveBack_unusable (ht : Tracks past h) (hs : s.poisoned = true ∨ s.stage = .active) (code : Code)
    (key : SandboxKey) : Tracks past (h.giveBack code key s).2 := by
  have hunusable : Untouched past s ∨ s.poisoned = true ∨ s.stage = .active := .inr hs
  rw [giveBack_eq hunusable]
  refine ht.mono (fun k s' hs' => ?_) (Nat.le_refl _)
  obtain ⟨_, _, hreusable⟩ | hwaits := Pool.idleAt?_putBack hs'
  · unfold Pool.isReusable at hreusable
    obtain hp | ha := hs
    · rw [hp] at hreusable
      cases hreusable
    · rw [ha, Bool.and_eq_true] at hreusable
      cases hreusable.2
  · exact hwaits

/-! ## Runs -/

/-- The harness after a sandbox was used: the sandbox is given back, if one was got. -/
theorem withSandbox_end {α : Type} (code : Code) (h : Harness) (key : SandboxKey)
    (use : Sandbox → Journal → Outcome α × Sandbox × Journal) :
    (h.withSandbox code key use).2 =
      match (h.lease key).1 with
      | .done (.granted s) =>
        let used := use s (h.lease key).2.journal
        ({ (h.lease key).2 with journal := used.2.2 }.giveBack code key used.2.1).2
      | _ => (h.lease key).2 := by
  unfold withSandbox
  rcases h.lease key with ⟨outcome, h'⟩
  cases outcome with
  | panicked payload => rfl
  | unfinished => rfl
  | done grant =>
    cases grant with
    | failed e => rfl
    | waiting => rfl
    | granted s =>
      simp only [Outcome.andThen_done, grantedSandbox]
      rcases use s h'.journal with ⟨ended, used, j⟩
      rcases giveBack code { h' with journal := j } key used with ⟨returned, h''⟩
      cases ended <;> cases returned <;> rfl

theorem runAt_end (code : Code) (h : Harness) (key : SandboxKey) (registry : Registry)
    (task : Program (Except Error Value)) :
    (h.runAt code key registry task).2 = (h.withSandbox code key (runIn code registry task)).2 := by
  unfold runAt
  rcases h.withSandbox code key (runIn code registry task) with ⟨outcome, h'⟩
  cases outcome with
  | done answer => cases answer <;> rfl
  | panicked payload => rfl
  | unfinished => rfl

/-- A run at one level notes its execution, if it gets a sandbox. -/
theorem Tracks.runAt (ht : Tracks past h) (code : Code) (key : SandboxKey) (registry : Registry)
    (task : Program (Except Error Value)) :
    Tracks (past ++ h.executionAt code key registry task) (h.runAt code key registry task).2 := by
  rw [runAt_end, withSandbox_end, executionAt]
  have hlease := ht.lease key
  have hlent : ∀ s, (h.lease key).1 = .done (.granted s) → Lent past (h.lease key).2 s := fun _ => ht.lent
  rcases hr : h.lease key with ⟨outcome, h'⟩
  rw [hr] at hlease hlent
  cases outcome with
  | panicked payload => simpa using hlease
  | unfinished => simpa using hlease
  | done grant =>
    cases grant with
    | failed e => simpa using hlease
    | waiting => simpa using hlease
    | granted s =>
      have hl : Lent past h' s := hlent s rfl
      have hnoted := hl.tracks_concat (e := ⟨code, registry, task, s, h'.journal⟩) rfl
      obtain ⟨hnext, hused⟩ :=
        runIn_spec hl.untouched (e := ⟨code, registry, task, s, h'.journal⟩) rfl code registry task h'.journal
      have hafter : Tracks (past ++ [⟨code, registry, task, s, h'.journal⟩])
          { h' with journal := (runIn code registry task s h'.journal).2.2 } :=
        hnoted.mono (fun _ _ hs => hs) (Nat.le_of_eq hnext.symm)
      obtain ⟨hid, huntouched⟩ | hunusable := hused
      · refine hafter.giveBack huntouched ?_ ?_ code key
        · rw [hid, hnext]
          exact hl.issued
        · rw [hid]
          exact hl.alone
      · exact hafter.giveBack_unusable hunusable code key

theorem Tracks.runLevels (ht : Tracks past h) (code : Code) (rules : Rules) (registry : Registry)
    (task : Program (Except Error Value)) (levels : List Nat) :
    Tracks (past ++ levelExecutions code rules registry task levels h)
      (runLevels code rules registry task levels h).2 := by
  induction levels generalizing past h with
  | nil => simpa [levelExecutions, Harness.runLevels] using ht
  | cons level rest ih =>
    have hone := ht.runAt code ⟨rules, level⟩ registry task
    unfold levelExecutions Harness.runLevels
    rcases hr : h.runAt code ⟨rules, level⟩ registry task with ⟨outcome, h'⟩
    rw [hr] at hone
    cases outcome with
    | done answer =>
      have hrest := ih hone
      rw [List.append_assoc] at hrest
      rw [Outcome.andThen_done]
      rcases hrr : Harness.runLevels code rules registry task rest h' with ⟨outcome', h''⟩
      rw [hrr] at hrest
      cases outcome' <;> exact hrest
    | panicked payload => simpa using hone
    | unfinished => simpa using hone

/-- Looking for a registry changes neither the pool nor the ids to be given out. -/
theorem Tracks.registryFor (ht : Tracks past h) (test : Overrides) : Tracks past (h.registryFor test).2 := by
  have hsame : (h.registryFor test).2.pool = h.pool ∧
      (h.registryFor test).2.journal.nextSandbox = h.journal.nextSandbox := by
    unfold Harness.registryFor
    split
    · exact ⟨rfl, rfl⟩
    · simp only
      split <;> exact ⟨rfl, rfl⟩
  apply ht.mono
  · rw [hsame.1]
    exact fun _ _ hs => hs
  · exact Nat.le_of_eq hsame.2.symm

theorem Tracks.run (ht : Tracks past h) (code : Code) (test : Overrides) (task : Program (Except Error Value)) :
    Tracks (past ++ h.executions code test task) (h.run code test task).2 := by
  unfold executions Harness.run
  cases test.levels.select h.settings.supportedLevels h.settings.defaultLevel with
  | error e => simpa using ht
  | ok levels =>
    have hregistry := ht.registryFor test
    simp only
    rcases hf : h.registryFor test with ⟨answer, h'⟩
    rw [hf] at hregistry
    cases answer with
    | error e => simpa using hregistry
    | ok registry =>
      have hlevels := hregistry.runLevels code (h'.rulesFor test) registry task levels
      simp only
      rcases hr : h'.runLevels code (h'.rulesFor test) registry task levels with ⟨outcome, h''⟩
      rw [hr] at hlevels
      cases outcome <;> exact hlevels

/-! ## Sandboxes built ahead -/

/-- The keys of sandboxes that are built ahead. -/
def keysAhead (h : Harness) (levels : List Nat) : List SandboxKey := levels.map (⟨h.rulesFor .none, ·⟩)

/-- Sandboxes are prepared ahead for supported levels only, and then the pool and the journal are what the crew left. -/
theorem prewarm_cases (h : Harness) (code : Code) (levels schedule : List Nat) :
    (¬(∀ level ∈ levels, level ∈ h.settings.supportedLevels) ∧ (h.prewarm code levels schedule).2 = h) ∨
    (∀ level ∈ levels, level ∈ h.settings.supportedLevels) ∧
      let crew := h.prewarmed code levels schedule
      h.prewarm code levels schedule =
        Outcome.andThen (crew.answer, { h with pool := crew.pool, journal := crew.journal }) fun answer h =>
          (.done (answer.map fun _ => levels.length), h) := by
  unfold Harness.prewarm
  cases hfind : levels.find? fun level => !h.settings.supportedLevels.contains level with
  | some level =>
    refine .inl ⟨fun hall => ?_, rfl⟩
    have hunsupported := List.find?_some hfind
    have hsupported := hall level (List.mem_of_find?_eq_some hfind)
    simp [hsupported] at hunsupported
  | none =>
    refine .inr ⟨fun level hlevel => ?_, rfl⟩
    simpa using List.find?_eq_none.1 hfind level hlevel

theorem prewarm_keeps (h : Harness) (code : Code) (levels schedule : List Nat) :
    let c := h.prewarmed code levels schedule
    (h.prewarm code levels schedule).2 = h ∨ (∀ level ∈ levels, level ∈ h.settings.supportedLevels) ∧
      (h.prewarm code levels schedule).2 = { h with pool := c.pool, journal := c.journal } := by
  obtain ⟨_, hsame⟩ | ⟨hall, hcrew⟩ := h.prewarm_cases code levels schedule
  · exact .inl hsame
  · rw [hcrew, Outcome.andThen_snd]
    exact .inr ⟨hall, rfl⟩

section Ahead

variable {Q : SandboxKey → Sandbox → Prop} (hidle : ∀ key s, h.pool.idleAt? key = some s → Q key s)
include hidle

theorem keeps_new (levels : List Nat) : Crew.Keeps h.assemble (h.keysAhead levels) h.journal.nextSandbox Q
    (Crew.new h.pool h.journal (h.keysAhead levels)) := by
  refine ⟨Nat.le_refl _, hidle, fun w hw => ?_⟩
  obtain ⟨key, hkey, rfl⟩ := List.mem_map.1 hw
  exact ⟨hkey, trivial⟩

/-- What is true of the sandboxes that wait and of all that are built ahead is true while this goes on. -/
theorem keeps_prewarmed (code : Code) (levels schedule : List Nat)
    (hQ : Crew.Lasts code h.assemble (h.keysAhead levels) h.journal.nextSandbox Q) :
    Crew.Keeps h.assemble (h.keysAhead levels) h.journal.nextSandbox Q (h.prewarmed code levels schedule) :=
  (keeps_new hidle levels).run hQ _

end Ahead

/-- New sandboxes can be configured, and one that an execution may find is ready to be put back. -/
theorem smooth_assemble (past : List Execution) (h : Harness) (code : Code) {Q : SandboxKey → Sandbox → Prop}
    (hQ : ∀ key s, Q key s → Untouched past s) : Crew.Smooth code h.assemble Q where
  builds key id j := ⟨_, configure_assemble key h.hierarchy h.settings.detectLeaks h.checks id j⟩
  still hs _ := Pool.tidy_eq_self fun _ _ => (hQ _ _ hs).pristine

/-- A sandbox is as an execution is to find it once it is configured under a new id. -/
theorem Tracks.configured (ht : Tracks past h) {key : SandboxKey} {id : Nat} {j j' : Journal}
    (hid : h.journal.nextSandbox ≤ id) (hs : (h.assemble key id).configure j = (.ok (), s, j')) :
    Untouched past s ∧ s.key = key ∧ s.checks = h.checks := by
  rw [Harness.assemble, configure_assemble] at hs
  cases hs
  refine ⟨⟨rfl, rfl, Memory.isPristine_of_heap_empty rfl rfl rfl, ?_⟩, rfl, rfl⟩
  change (⟨0, 0, Table.empty⟩ : Heap) = ⟨uses past id, 0, Table.empty⟩
  rw [ht.uses_eq_zero hid]

theorem Tracks.prewarm (ht : Tracks past h) (code : Code) (levels schedule : List Nat) :
    Tracks past (h.prewarm code levels schedule).2 := by
  obtain hsame | ⟨_, hcrew⟩ := h.prewarm_keeps code levels schedule
  · rw [hsame]
    exact ht
  have hsmooth : Crew.Smooth code h.assemble fun _ s => Untouched past s :=
    smooth_assemble past h code fun _ _ hs => hs
  have hkeeps := keeps_prewarmed (Q := fun _ s => Untouched past s) (fun key s hs => (ht.waiting key s hs).1) code
    levels schedule (hsmooth.lasts fun _ hid hs => (ht.configured hid hs).1)
  obtain ⟨turns, hturns⟩ : ∃ turns, h.prewarmed code levels schedule =
      (Crew.new h.pool h.journal (h.keysAhead levels)).run code h.assemble turns := ⟨_, rfl⟩
  have hapart := Crew.apart_run code
    (fun key id => assemble_eq key h.hierarchy h.settings.detectLeaks h.checks id)
    (⟨ht.once, fun key s hs => (ht.waiting key s hs).2⟩ : h.pool.Apart h.journal.nextSandbox) (h.keysAhead levels) turns
  rw [hcrew, hturns]
  rw [hturns] at hkeeps
  exact ⟨ht.recorded, fun e he => Nat.lt_of_lt_of_le (ht.issued e he) hkeeps.issued,
    fun key s hs => ⟨hkeeps.idle key s hs, hapart.issued key s hs⟩, hapart.once⟩

/-- A pool that was cleared keeps no sandbox. -/
theorem Tracks.clearPool (ht : Tracks past h) : Tracks past h.clearPool := by
  refine ht.mono (fun key s hs => ?_) (Nat.le_refl _)
  change h.pool.clear.2.idleAt? key = some s at hs
  rw [Pool.idleAt?_clear] at hs
  cases hs

/-- What is known holds in every history. -/
theorem History.tracks (hist : History h past) : Tracks past h := by
  induction hist with
  | @new hierarchy settings h hnew =>
    have hpool : ∀ key s, h.pool.idleAt? key ≠ some s := by
      obtain ⟨_, rfl⟩ := new_eq_ok hnew
      intro key s hs
      cases hs
    exact ⟨fun i e hi => by simp at hi, fun e he => by simp at he, fun key s hs => absurd hs (hpool key s),
      fun key _ s _ hs => absurd hs (hpool key s)⟩
  | withProvider _ p ih => exact ⟨ih.recorded, ih.issued, ih.waiting, ih.once⟩
  | withCheck _ check ih => exact ⟨ih.recorded, ih.issued, ih.waiting, ih.once⟩
  | run _ code test task ih => exact ih.run code test task
  | prewarm _ code levels schedule ih => exact ih.prewarm code levels schedule
  | clearPool _ ih => exact ih.clearPool

end Tracking

end Harness

end Interpose
