import Interpose.Proofs.Registry.Building
import Interpose.Proofs.Testing.Tracking

/-!
# The registries of a harness

Running tests and preparing sandboxes leave alone what registries are built of, and a provider that is added makes the
harness forget them. So a registry that is remembered is what building it anew would give, and each of its entries was
bound by a provider or by a shadow of the test.
-/

namespace Interpose

namespace Harness

variable {h h' h'' : Harness}

/-- Two harnesses of the same providers, rules and leak checks that remember the same registries. -/
structure SameSetup (h h' : Harness) : Prop where
  hierarchy : h'.hierarchy = h.hierarchy
  settings : h'.settings = h.settings
  providers : h'.providers = h.providers
  registries : h'.registries = h.registries
  checks : h'.checks = h.checks

theorem SameSetup.refl (h : Harness) : h.SameSetup h := ⟨rfl, rfl, rfl, rfl, rfl⟩

theorem SameSetup.trans (hs : h.SameSetup h') (hs' : h'.SameSetup h'') : h.SameSetup h'' :=
  ⟨hs'.hierarchy.trans hs.hierarchy, hs'.settings.trans hs.settings, hs'.providers.trans hs.providers,
    hs'.registries.trans hs.registries, hs'.checks.trans hs.checks⟩

theorem sameSetup_lease (h : Harness) (key : SandboxKey) : h.SameSetup (h.lease key).2 := ⟨rfl, rfl, rfl, rfl, rfl⟩

theorem sameSetup_giveBack (code : Code) (h : Harness) (key : SandboxKey) (s : Sandbox) :
    h.SameSetup (h.giveBack code key s).2 := ⟨rfl, rfl, rfl, rfl, rfl⟩

theorem sameSetup_withSandbox {α : Type} (code : Code) (h : Harness) (key : SandboxKey)
    (use : Sandbox → Journal → Outcome α × Sandbox × Journal) : h.SameSetup (h.withSandbox code key use).2 := by
  rw [withSandbox_end]
  have hlease := h.sameSetup_lease key
  split
  · have hused : ∀ j, (h.lease key).2.SameSetup { (h.lease key).2 with journal := j } := fun _ =>
      ⟨rfl, rfl, rfl, rfl, rfl⟩
    exact (hlease.trans (hused _)).trans (sameSetup_giveBack ..)
  · exact hlease

theorem sameSetup_runAt (code : Code) (h : Harness) (key : SandboxKey) (registry : Registry)
    (task : Program (Except Error Value)) : h.SameSetup (h.runAt code key registry task).2 := by
  rw [runAt_end]
  exact sameSetup_withSandbox ..

theorem sameSetup_runLevels (code : Code) (rules : Rules) (registry : Registry)
    (task : Program (Except Error Value)) (levels : List Nat) (h : Harness) :
    h.SameSetup (h.runLevels code rules registry task levels).2 := by
  induction levels generalizing h with
  | nil => exact .refl h
  | cons level rest ih =>
    have hone := h.sameSetup_runAt code ⟨rules, level⟩ registry task
    unfold Harness.runLevels
    refine Outcome.andThen_end (P := h.SameSetup) hone fun outcome _ => ?_
    exact Outcome.andThen_end (P := h.SameSetup) (hone.trans (ih _)) fun outcomes _ => hone.trans (ih _)

/-- What a run does after its levels were chosen and its registry was got leaves all of this alone. -/
theorem sameSetup_run (code : Code) (h : Harness) (test : Overrides) (task : Program (Except Error Value))
    {levels : List Nat}
    (hselect : test.levels.select h.settings.supportedLevels h.settings.defaultLevel = .ok levels) :
    (h.registryFor test).2.SameSetup (h.run code test task).2 := by
  simp only [Harness.run, hselect]
  rcases h.registryFor test with ⟨answer, h'⟩
  cases answer with
  | error e => exact .refl h'
  | ok registry =>
    have hlevels := sameSetup_runLevels code (h'.rulesFor test) registry task levels h'
    exact Outcome.andThen_end (P := h'.SameSetup) hlevels fun _ _ => hlevels

theorem sameSetup_prewarm (code : Code) (h : Harness) (levels schedule : List Nat) :
    h.SameSetup (h.prewarm code levels schedule).2 := by
  obtain hsame | ⟨_, hcrew⟩ := h.prewarm_keeps code levels schedule
  · rw [hsame]
    exact .refl h
  · rw [hcrew]
    exact ⟨rfl, rfl, rfl, rfl, rfl⟩

/-! ## What is remembered -/

/-- Every registry that is remembered is what building it now would give. -/
def Remembers (h : Harness) : Prop :=
  ∀ shadows registry, h.registries.get? shadows = some registry →
    (h.staging shadows).build h.hierarchy = .ok registry

theorem staging_congr (hp : h'.providers = h.providers) (shadows : List Shadow) :
    h'.staging shadows = h.staging shadows := by
  rw [staging, staging, hp]

theorem Remembers.of_sameSetup (hr : h.Remembers) (hs : h.SameSetup h') : h'.Remembers := by
  intro shadows registry hget
  rw [hs.registries] at hget
  rw [staging_congr hs.providers, hs.hierarchy]
  exact hr shadows registry hget

/-- The registry of a test is what building it gives, remembered or not. -/
theorem Remembers.registryFor_eq (hr : h.Remembers) (test : Overrides) :
    (h.registryFor test).1 = (h.staging test.shadows).build h.hierarchy := by
  unfold registryFor
  split
  · rename_i registry hget
    exact (hr _ _ hget).symm
  · simp only
    split
    · rename_i registry hbuild
      exact hbuild.symm
    · rename_i e hbuild
      exact hbuild.symm

theorem Remembers.registryFor (hr : h.Remembers) (test : Overrides) : (h.registryFor test).2.Remembers := by
  unfold Harness.registryFor
  split
  · exact hr
  · simp only
    split
    · rename_i built hbuild
      intro shadows registry hget
      simp only [Table.get?_put] at hget
      split at hget
      · rename_i hshadows
        obtain rfl := Option.some.inj hget
        rw [hshadows]
        exact hbuild
      · exact hr shadows registry hget
    · exact hr

theorem Remembers.run (hr : h.Remembers) (code : Code) (test : Overrides) (task : Program (Except Error Value)) :
    (h.run code test task).2.Remembers := by
  cases hselect : test.levels.select h.settings.supportedLevels h.settings.defaultLevel with
  | error e =>
    simp only [Harness.run, hselect]
    exact hr
  | ok levels => exact (hr.registryFor test).of_sameSetup (sameSetup_run code h test task hselect)

theorem Remembers.prewarm (hr : h.Remembers) (code : Code) (levels schedule : List Nat) :
    (h.prewarm code levels schedule).2.Remembers := hr.of_sameSetup (sameSetup_prewarm code h levels schedule)

theorem History.remembers {past : List Execution} (hist : History h past) : h.Remembers := by
  induction hist with
  | new hnew =>
    obtain ⟨_, rfl⟩ := new_eq_ok hnew
    exact fun _ _ hget => by cases hget
  | withProvider _ p _ => exact fun _ _ hget => by cases hget
  | withCheck _ check ih => exact ih
  | run _ code test task ih => exact ih.run code test task
  | prewarm _ code levels schedule ih => exact ih.prewarm code levels schedule
  | clearPool _ ih => exact ih

end Harness

/-! ## Where the entries come from -/

namespace Staging

theorem mem_all_addAt {s : Staging} {tier : Tier} {b c : Binding} : c ∈ (s.addAt tier b).all ↔ c ∈ s.all ∨ c = b := by
  cases tier with
  | base => simp [addAt, all, or_comm, or_left_comm]
  | custom => simp [addAt, all, or_comm, or_left_comm]

theorem mem_all_addProvider {s : Staging} {p : Provider} {c : Binding} :
    c ∈ (s.addProvider p).all ↔ c ∈ s.all ∨ c ∈ p.bindings := by
  unfold addProvider
  induction p.bindings generalizing s with
  | nil => simp
  | cons b rest ih => rw [List.foldl_cons, ih, mem_all_addAt, List.mem_cons, or_assoc]

/-- The shadows of a test come after all that was staged before. -/
theorem all_foldl_addShadow (shadows : List Shadow) (s : Staging) :
    (shadows.foldl addShadow s).all = s.all ++ shadows.map .ofShadow := by
  induction shadows generalizing s with
  | nil => exact (List.append_nil _).symm
  | cons shadow rest ih =>
    rw [List.foldl_cons, ih]
    simp [addShadow, addLocal, all, List.append_assoc]

/-- The entry of a type in a registry was staged for this type. -/
theorem mem_all_of_build {s : Staging} {hierarchy : Hierarchy} {registry : Registry} {real : String} {b : Binding}
    (hbuild : s.build hierarchy = .ok registry) (hget : registry.get? real = some b) : b ∈ s.all ∧ b.real = real := by
  obtain ⟨before, after, hall, hreal, _⟩ := (get?_of_build hbuild).1 hget
  exact ⟨hall ▸ List.mem_append_cons_self, hreal⟩

end Staging

namespace Harness

/-- The bindings of the providers, in the order in which they were added. -/
def provided (h : Harness) : List Binding := h.providers.flatMap (·.bindings)

theorem mem_all_staging {h : Harness} {shadows : List Shadow} {c : Binding} :
    c ∈ (h.staging shadows).all ↔ c ∈ h.provided ∨ ∃ shadow ∈ shadows, c = .ofShadow shadow := by
  have hproviders : ∀ (providers : List Provider) (s : Staging),
      c ∈ (providers.foldl Staging.addProvider s).all ↔ c ∈ s.all ∨ c ∈ providers.flatMap (·.bindings) := by
    intro providers
    induction providers with
    | nil => simp
    | cons p rest ih =>
      intro s
      rw [List.foldl_cons, ih, Staging.mem_all_addProvider, List.flatMap_cons, List.mem_append, or_assoc]
  rw [staging, Staging.all_foldl_addShadow, List.mem_append, hproviders, List.mem_map]
  simp [Staging.empty, Staging.all, provided, eq_comm]

/-- Every entry in the registry of a test is for its own type, and was bound by a provider or is a shadow of the
test. -/
theorem Remembers.entry {h : Harness} (hr : h.Remembers) {test : Overrides} {registry : Registry}
    (hregistry : (h.registryFor test).1 = .ok registry) {real : String} {b : Binding}
    (hget : registry.get? real = some b) :
    b.real = real ∧ (b ∈ h.provided ∨ ∃ shadow ∈ test.shadows, b = .ofShadow shadow) := by
  rw [hr.registryFor_eq] at hregistry
  obtain ⟨hstaged, hreal⟩ := Staging.mem_all_of_build hregistry hget
  exact ⟨hreal, mem_all_staging.1 hstaged⟩

end Harness

end Interpose
