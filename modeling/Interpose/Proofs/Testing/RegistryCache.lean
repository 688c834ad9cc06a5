import Interpose.Proofs.Registry.Tiers
import Interpose.Proofs.Testing.Handles
import Interpose.Proofs.Testing.Registries
import Interpose.Proofs.Testing.Turns
import Mathlib.Data.List.Dedup
import Mathlib.Data.List.DropRight

/-!
# Registries are remembered by the shadows of a test

A harness remembers the registries that it built since a provider was last added, each by the list of shadows that it was
built for. Nobody can tell, except by the time it takes: what a test gets is what would be built from scratch, and what is
remembered is given out again as it is.
-/

namespace Interpose.Harness

/-- What a harness is used for. -/
inductive Step where
  | withProvider (p : Provider)
  | withCheck (check : LeakCheck)
  | registryFor (test : Overrides)
  | run (code : Code) (test : Overrides) (task : Program (Except Error Value))
  | prewarm (code : Code) (levels schedule : List Nat)
  | clearPool

def step (h : Harness) : Step → Harness
  | .withProvider p => h.withProvider p
  | .withCheck check => h.withCheck check
  | .registryFor test => (h.registryFor test).2
  | .run code test task => (h.run code test task).2
  | .prewarm code levels schedule => (h.prewarm code levels schedule).2
  | .clearPool => h.clearPool

def after (h : Harness) (steps : List Step) : Harness := steps.foldl step h

theorem after_append (h : Harness) (steps later : List Step) : h.after (steps ++ later) = (h.after steps).after later :=
  List.foldl_append

theorem after_concat (h : Harness) (steps : List Step) (s : Step) : h.after (steps ++ [s]) = (h.after steps).step s :=
  List.foldl_append

namespace Step

/-- The provider that a step adds. -/
def provider? : Step → Option Provider
  | .withProvider p => some p
  | _ => none

/-- The shadows that a step asks a registry for. A run does so once its levels are chosen. -/
def shadows? (settings : Settings) : Step → Option (List Shadow)
  | .registryFor test => some test.shadows
  | .run _ test _ =>
    if (test.levels.select settings.supportedLevels settings.defaultLevel).isOk then some test.shadows else none
  | _ => none

theorem provider?_of_shadows? {s : Step} {settings : Settings} {shadows : List Shadow}
    (h : s.shadows? settings = some shadows) : s.provider? = none := by
  cases s with
  | withProvider p => cases h
  | _ => rfl

end Step

/-- The lists of shadows that registries were asked for since a provider was last added. -/
def asked (settings : Settings) (steps : List Step) : List (List Shadow) :=
  (steps.rtakeWhile fun s => s.provider?.isNone).filterMap (Step.shadows? settings)

/-- The registry that is built from scratch: of all providers, and above them some shadows in order. -/
def fresh (hierarchy : Hierarchy) (providers : List Provider) (shadows : List Shadow) : Except Error Registry :=
  (Staging.empty.after (providers.map .provider ++ shadows.map .shadow)).build hierarchy

variable {h h' : Harness} {steps : List Step} {hierarchy : Hierarchy} {settings : Settings} {shadows : List Shadow}
  {registry : Registry}

theorem build_staging (h : Harness) (shadows : List Shadow) :
    (h.staging shadows).build h.hierarchy = fresh h.hierarchy h.providers shadows := by
  rw [fresh, Staging.after, List.foldl_append, List.foldl_map, List.foldl_map]
  rfl

/-! ## One step -/

/-- Two harnesses that remember the same registries, built of the same. -/
structure SameRegistries (h h' : Harness) : Prop where
  hierarchy : h'.hierarchy = h.hierarchy
  settings : h'.settings = h.settings
  providers : h'.providers = h.providers
  registries : h'.registries = h.registries

theorem SameSetup.sameRegistries (hs : h.SameSetup h') : h.SameRegistries h' :=
  ⟨hs.hierarchy, hs.settings, hs.providers, hs.registries⟩

/-- A step adds a provider, or asks for a registry and leaves it at that, or does not touch the registries. -/
theorem step_cases (h : Harness) (s : Step) :
    (∃ p, s = .withProvider p) ∨
    s.provider? = none ∧ s.shadows? h.settings = none ∧ h.SameRegistries (h.step s) ∨
    s.provider? = none ∧ ∃ test, s.shadows? h.settings = some test.shadows ∧
      (h.registryFor test).2.SameRegistries (h.step s) := by
  cases s with
  | withProvider p => exact .inl ⟨p, rfl⟩
  | withCheck check => exact .inr (.inl ⟨rfl, rfl, rfl, rfl, rfl, rfl⟩)
  | registryFor test => exact .inr (.inr ⟨rfl, test, rfl, rfl, rfl, rfl, rfl⟩)
  | run code test task =>
    cases hselect : test.levels.select h.settings.supportedLevels h.settings.defaultLevel with
    | error e =>
      refine .inr (.inl ⟨rfl, by simp only [Step.shadows?, hselect]; rfl, ?_⟩)
      rw [step, (run_of_select_error code task hselect).1]
      exact ⟨rfl, rfl, rfl, rfl⟩
    | ok levels =>
      refine .inr (.inr ⟨rfl, test, by simp only [Step.shadows?, hselect]; rfl, ?_⟩)
      exact (sameSetup_run code h test task hselect).sameRegistries
  | prewarm code levels schedule =>
    exact .inr (.inl ⟨rfl, rfl, (sameSetup_prewarm code h levels schedule).sameRegistries⟩)
  | clearPool => exact .inr (.inl ⟨rfl, rfl, rfl, rfl, rfl, rfl⟩)

/-- A registry is remembered and given out as it is, without a report, or it is built and remembered, or it can not be
built and nothing is remembered. -/
theorem registryFor_cases (h : Harness) (test : Overrides) :
    (∃ known, h.registries.get? test.shadows = some known ∧ h.registryFor test = (.ok known, h)) ∨
    (∃ built, h.registries.get? test.shadows = none ∧ fresh h.hierarchy h.providers test.shadows = .ok built ∧
      (h.registryFor test).2.registries = h.registries.put test.shadows built) ∨
    ∃ e, fresh h.hierarchy h.providers test.shadows = .error e ∧ (h.registryFor test).2.registries = h.registries := by
  unfold Harness.registryFor
  cases hget : h.registries.get? test.shadows with
  | some known => exact .inl ⟨known, rfl, rfl⟩
  | none =>
    refine .inr ?_
    simp only
    split
    · rename_i built hbuild
      exact .inl ⟨built, trivial, (build_staging h _).symm.trans hbuild, rfl⟩
    · rename_i e hbuild
      exact .inr ⟨e, (build_staging h _).symm.trans hbuild, rfl⟩

/-- A registry that was asked for is remembered beside those from before, if it can be built. -/
theorem Remembers.get?_registryFor (hr : h.Remembers) (test : Overrides) :
    (h.registryFor test).2.registries.get? shadows = some registry ↔
      h.registries.get? shadows = some registry ∨
        shadows = test.shadows ∧ fresh h.hierarchy h.providers shadows = .ok registry := by
  obtain ⟨known, hget, hsame⟩ | ⟨built, hnone, hfresh, hput⟩ | ⟨e, hfails, hsame⟩ := h.registryFor_cases test
  · rw [hsame]
    refine ⟨.inl, ?_⟩
    rintro (hknown | ⟨rfl, hfresh⟩)
    · exact hknown
    · -- What is remembered for these shadows is what building them gives.
      have hbuilt := hr _ _ hget
      rw [build_staging, hfresh] at hbuilt
      cases hbuilt
      exact hget
  · rw [hput, Table.get?_put]
    by_cases hshadows : shadows = test.shadows
    · simp [hshadows, hnone, hfresh]
    · simp [hshadows]
  · rw [hsame]
    refine ⟨.inl, ?_⟩
    rintro (hknown | ⟨rfl, hfresh⟩)
    · exact hknown
    · cases hfails.symm.trans hfresh

theorem registryFor_setup (h : Harness) (test : Overrides) :
    (h.registryFor test).2.hierarchy = h.hierarchy ∧ (h.registryFor test).2.settings = h.settings ∧
      (h.registryFor test).2.providers = h.providers := by
  unfold Harness.registryFor
  split
  · exact ⟨rfl, rfl, rfl⟩
  · simp only
    split <;> exact ⟨rfl, rfl, rfl⟩

/-! ## Whole lives -/

/-- What is known of a harness after some steps: what it builds registries of, and which ones it remembers. -/
structure Knows (hierarchy : Hierarchy) (settings : Settings) (steps : List Step) (h : Harness) : Prop where
  sameHierarchy : h.hierarchy = hierarchy
  sameSettings : h.settings = settings
  providers : h.providers = steps.filterMap Step.provider?
  remembered : ∀ shadows registry, h.registries.get? shadows = some registry ↔
    shadows ∈ asked settings steps ∧ fresh hierarchy (steps.filterMap Step.provider?) shadows = .ok registry

theorem Knows.remembers (hk : Knows hierarchy settings steps h) : h.Remembers := by
  intro shadows registry hget
  rw [build_staging, hk.sameHierarchy, hk.providers]
  exact ((hk.remembered shadows registry).1 hget).2

theorem asked_concat_withProvider (settings : Settings) (steps : List Step) (p : Provider) :
    asked settings (steps ++ [.withProvider p]) = [] := by
  rw [asked, List.rtakeWhile_concat_neg _ _ _ (by simp [Step.provider?])]
  rfl

theorem providers_concat {s : Step} (hs : s.provider? = none) (steps : List Step) :
    (steps ++ [s]).filterMap Step.provider? = steps.filterMap Step.provider? := by
  simp [hs]

theorem asked_concat {s : Step} (hs : s.provider? = none) (settings : Settings) (steps : List Step) :
    asked settings (steps ++ [s]) = asked settings steps ++ (s.shadows? settings).toList := by
  rw [asked, List.rtakeWhile_concat_pos _ _ _ (by simp [hs]), List.filterMap_append]
  rfl

theorem Knows.step (hk : Knows hierarchy settings steps h) (s : Step) :
    Knows hierarchy settings (steps ++ [s]) (h.step s) := by
  obtain ⟨p, rfl⟩ | ⟨hprovider, hnone, hsame⟩ | ⟨hprovider, test, hshadows, hsame⟩ := h.step_cases s
  · refine ⟨hk.sameHierarchy, hk.sameSettings, ?_, fun shadows registry => ?_⟩
    · rw [List.filterMap_append, ← hk.providers]
      rfl
    · rw [asked_concat_withProvider]
      exact ⟨fun hget => (by cases hget), fun hasked => (by cases hasked.1)⟩
  · rw [hk.sameSettings] at hnone
    refine ⟨hsame.hierarchy.trans hk.sameHierarchy, hsame.settings.trans hk.sameSettings, ?_, fun shadows registry => ?_⟩
    · rw [providers_concat hprovider, hsame.providers, hk.providers]
    · rw [providers_concat hprovider, hsame.registries, asked_concat hprovider, hnone, Option.toList_none, List.append_nil]
      exact hk.remembered shadows registry
  · obtain ⟨hhierarchy, hsettings, hproviders⟩ := h.registryFor_setup test
    rw [hk.sameSettings] at hshadows
    refine ⟨(hsame.hierarchy.trans hhierarchy).trans hk.sameHierarchy,
      (hsame.settings.trans hsettings).trans hk.sameSettings, ?_, fun shadows registry => ?_⟩
    · rw [providers_concat hprovider, hsame.providers, hproviders, hk.providers]
    · rw [providers_concat hprovider, hsame.registries, asked_concat hprovider, hshadows, Option.toList_some,
        hk.remembers.get?_registryFor, hk.remembered, hk.sameHierarchy, hk.providers, List.mem_append, List.mem_singleton,
        or_and_right]

theorem knows_after (hnew : Harness.new hierarchy settings = .ok h) (steps : List Step) :
    Knows hierarchy settings steps (h.after steps) := by
  -- From the right: what is asked for is said by what the last step adds or forgets.
  induction steps using List.reverseRecOn with
  | nil =>
    obtain ⟨_, rfl⟩ := new_eq_ok hnew
    exact ⟨rfl, rfl, rfl, fun _ _ => ⟨fun hget => (by cases hget), fun hasked => (by cases hasked.1)⟩⟩
  | append_singleton steps s ih =>
    rw [after_concat]
    exact ih.step s

/-- As long as no provider is added, what is remembered stays. -/
theorem Knows.get?_after (hk : Knows hierarchy settings steps h) {later : List Step}
    (hlater : ∀ s ∈ later, s.provider? = none) (hget : h.registries.get? shadows = some registry) :
    (h.after later).registries.get? shadows = some registry := by
  induction later generalizing h steps with
  | nil => exact hget
  | cons s rest ih =>
    obtain ⟨hs, hrest⟩ := List.forall_mem_cons.1 hlater
    obtain ⟨hasked, hfresh⟩ := (hk.remembered shadows registry).1 hget
    refine ih (hk.step s) hrest (((hk.step s).remembered shadows registry).2 ?_)
    rw [asked_concat hs, providers_concat hs]
    exact ⟨List.mem_append_left _ hasked, hfresh⟩

/-- Those lists of shadows are remembered for which a registry was built. -/
theorem Knows.mem_keys_iff (hk : Knows hierarchy settings steps h) :
    shadows ∈ h.registries.keys ↔ shadows ∈ (asked settings steps).filter fun shadows =>
      (fresh hierarchy (steps.filterMap Step.provider?) shadows).isOk := by
  rw [List.mem_filter, ← not_iff_not, ← Table.get?_eq_none_iff, Option.eq_none_iff_forall_ne_some]
  simp only [ne_eq, hk.remembered]
  cases hfresh : fresh hierarchy (steps.filterMap Step.provider?) shadows <;> simp [Except.isOk, Except.toBool]

theorem Knows.size (hk : Knows hierarchy settings steps h) :
    h.registries.size = ((asked settings steps).filter fun shadows =>
      (fresh hierarchy (steps.filterMap Step.provider?) shadows).isOk).dedup.length := by
  rw [← Table.length_keys]
  refine ((List.perm_ext_iff_of_nodup h.registries.distinct (List.nodup_dedup _)).2 fun shadows => ?_).length_eq
  rw [List.mem_dedup]
  exact hk.mem_keys_iff

theorem registry_of_mem_levelExecutions {code : Code} {rules : Rules} {task : Program (Except Error Value)}
    {levels : List Nat} {e : Execution} (he : e ∈ levelExecutions code rules registry task levels h) :
    e.registry = registry := by
  induction levels generalizing h with
  | nil => cases he
  | cons level rest ih =>
    obtain hfirst | hlater := List.mem_append.1 he
    · unfold executionAt at hfirst
      split at hfirst
      · rw [List.mem_singleton] at hfirst
        rw [hfirst]
      · cases hfirst
    · split at hlater
      · exact ih hlater
      · cases hlater

/-- All executions of a run have the registry in force that the run asked for. -/
theorem registry_of_mem_executions {code : Code} {test : Overrides} {task : Program (Except Error Value)}
    {e : Execution} (hregistry : (h.registryFor test).1 = .ok registry) (he : e ∈ h.executions code test task) :
    e.registry = registry := by
  unfold executions at he
  split at he
  · cases he
  · split at he
    · cases he
    · rename_i given h' hanswer
      rw [hanswer] at hregistry
      cases hregistry
      exact registry_of_mem_levelExecutions he

/-- Take a new harness after any steps. What a test gets is the registry that would be built from scratch of all providers
and the shadows of the test in order, or the error of that attempt; a run whose levels can be chosen fails with this error,
and else has this registry in force in all its executions. If a step asks for a registry and it can be built, then after
any further steps that add no provider a test with the same shadows is given this registry as it is remembered, and nothing
is built or reported or changed. The harness remembers as many registries as there are different lists of shadows for which
one was built since a provider was last added. -/
theorem registry_cache_transparent {hierarchy : Hierarchy} {settings : Settings} {h : Harness}
    (hnew : Harness.new hierarchy settings = .ok h) (steps : List Step) :
    let now := h.after steps
    let built := fresh hierarchy (steps.filterMap Step.provider?)
    (∀ test, (now.registryFor test).1 = built test.shadows) ∧
    (∀ code test task levels, test.levels.select settings.supportedLevels settings.defaultLevel = .ok levels →
      (∀ e, built test.shadows = .error e → (now.run code test task).1 = .done (.error e)) ∧
      ∀ registry, built test.shadows = .ok registry → ∀ e ∈ now.executions code test task, e.registry = registry) ∧
    (∀ s shadows registry, s.shadows? settings = some shadows → built shadows = .ok registry →
      ∀ later test, (∀ l ∈ later, l.provider? = none) → test.shadows = shadows →
        let afterwards := (now.step s).after later
        afterwards.registries.get? shadows = some registry ∧
          afterwards.registryFor test = (.ok registry, afterwards)) ∧
    now.registries.size =
      ((asked settings steps).filter fun shadows => (built shadows).isOk).dedup.length := by
  intro now built
  have hk : Knows hierarchy settings steps now := knows_after hnew steps
  have hfresh : ∀ test, (now.registryFor test).1 = built test.shadows := by
    intro test
    rw [hk.remembers.registryFor_eq, build_staging, hk.sameHierarchy, hk.providers]
  refine ⟨hfresh, fun code test task levels hselect => ?_,
    fun s shadows registry hasks hbuilt later test hlater htest => ?_, hk.size⟩
  · rw [← hk.sameSettings] at hselect
    refine ⟨fun e herror => ?_, fun registry hbuilt e he => ?_⟩
    · rw [(run_of_registry_error code task hselect ((hfresh test).trans herror)).1]
    · exact registry_of_mem_executions ((hfresh test).trans hbuilt) he
  · intro afterwards
    have hprovider : s.provider? = none := Step.provider?_of_shadows? hasks
    have hnext : (now.step s).registries.get? shadows = some registry := by
      rw [(hk.step s).remembered, providers_concat hprovider, asked_concat hprovider, hasks]
      exact ⟨List.mem_append_right _ (List.mem_singleton_self _), hbuilt⟩
    have hstays : afterwards.registries.get? shadows = some registry := (hk.step s).get?_after hlater hnext
    refine ⟨hstays, ?_⟩
    simp only [registryFor, htest, hstays]

end Interpose.Harness

namespace Interpose

namespace Sample

/-- Another shadow of the same id. -/
def namesake : Shadow := .alone { shadowView.own with serial := 7 }

/-- A shadow that calls through to a type that nobody declared. -/
def ghost : Shadow := .alone { shadowView.own with implements := "Ghost", callsThrough := true }

def askFor (shadows : List Shadow) : Harness.Step := .registryFor { Overrides.none with shadows := shadows }

/-- The shadows that registries are asked for: one of them can not be built, and another one is asked for twice. -/
def askings : List (List Shadow) := [[shadowView], [namesake], [ghost], [shadowView]]

/-- Binds a shadow of views to buttons. -/
def outfitting : Provider := ⟨"outfitting", .base, [.bind "Button" shadowView]⟩

/-- A registry is asked for before the provider is added, and others afterwards. -/
def providedAskings : List Harness.Step :=
  askFor [shadowView] :: .withProvider outfitting :: askings.map askFor

end Sample

/-- Shadows that share an id have registries of their own, which are remembered beside a failure; a test is given the one
of its shadow again, at whatever level it runs. It has the binding of the provider. What was remembered before the provider
was added had no such binding, and is forgotten. -/
theorem Harness.registry_cache_transparent_namesakes :
    ∃ h registry, h = Sample.harness.after Sample.providedAskings ∧ h.registries.size = 2 ∧
      registry.get? "View" = some (.ofShadow Sample.namesake) ∧
      registry.get? "Button" = some (.bind "Button" Sample.shadowView) ∧
      h.registryFor { Sample.atLevel 30 with shadows := [Sample.namesake] } = (.ok registry, h) ∧
      (Sample.harness.after (Sample.providedAskings.take 1)).registries.size = 1 ∧
      (Sample.harness.after (Sample.providedAskings.take 2)).registries.size = 0 ∧
      ∃ before after,
        ((Sample.harness.after (Sample.providedAskings.take 1)).registryFor
          { Overrides.none with shadows := [Sample.shadowView] }).1 = .ok before ∧ before.get? "Button" = none ∧
        (h.registryFor { Overrides.none with shadows := [Sample.shadowView] }).1 = .ok after ∧
        after.get? "Button" = some (.bind "Button" Sample.shadowView) := by
  have hnew : Harness.new Sample.hierarchy Sample.settings = .ok Sample.harness := rfl
  obtain ⟨registry, hbuilt⟩ : ∃ registry,
      fresh Sample.hierarchy [Sample.outfitting] [Sample.namesake] = .ok registry := ⟨_, rfl⟩
  obtain ⟨hgiven, _, _, hsize⟩ := registry_cache_transparent hnew Sample.providedAskings
  obtain ⟨hgivenFirst, _, _, hsizeFirst⟩ := registry_cache_transparent hnew (Sample.providedAskings.take 1)
  obtain ⟨_, _, _, hsizeForgotten⟩ := registry_cache_transparent hnew (Sample.providedAskings.take 2)
  obtain ⟨_, _, hshared, _⟩ := registry_cache_transparent hnew (Sample.providedAskings.take 3)
  have hagain := (hshared (Sample.askFor [Sample.namesake]) [Sample.namesake] registry rfl hbuilt
    [Sample.askFor [Sample.ghost], Sample.askFor [Sample.shadowView]]
    { Sample.atLevel 30 with shadows := [Sample.namesake] } (by decide) rfl).2
  refine ⟨_, registry, rfl, hsize.trans (by decide), ?_, ?_, hagain, hsizeFirst.trans (by decide),
    hsizeForgotten.trans (by decide), _, _, hgivenFirst _, by decide, hgiven _, by decide⟩
  · cases hbuilt
    decide
  · cases hbuilt
    decide

end Interpose
