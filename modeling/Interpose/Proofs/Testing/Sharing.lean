import Interpose.Proofs.Testing.ChosenLevels
import Interpose.Proofs.Testing.Interception

/-!
# Tests that share sandboxes

A test has its sandboxes by its rules, and of its shadows the rules only see the types that would not be intercepted
without them. So tests share a sandbox at each level exactly if they say the same about what is included and excluded,
in whatever order and however often, and shadow the same of these types.
-/

namespace Interpose

theorem KeySet.foldl_add_congr {keys keys' : List String} (hsame : ∀ key, key ∈ keys ↔ key ∈ keys') (s : KeySet) :
    keys.foldl add s = keys'.foldl add s := by
  refine ext_contains fun key => ?_
  simp only [contains_foldl_add, hsame]

/-- A test without its own shadows. -/
def Overrides.unshadowed (test : Overrides) : Overrides := { test with shadows := [] }

/-- Two tests include the same types and exclude the same packages, in whatever order and however often, and with
whatever dots at the end of a package. -/
structure Overrides.SameScope (test test' : Overrides) : Prop where
  included : ∀ typeId, typeId ∈ test.includedTypes ↔ typeId ∈ test'.includedTypes
  excluded : ∀ package,
    package ∈ test.excludedPackages.map trimPackage ↔ package ∈ test'.excludedPackages.map trimPackage

namespace Harness

variable {h h' : Harness} {hierarchy : Hierarchy} {settings : Settings} {test test' : Overrides} {real : String}

/-- A test has a shadow of a type that would not be intercepted without the shadows of the test. -/
structure Uncovers (h : Harness) (test : Overrides) (real : String) : Prop where
  shadowed : ∃ shadow ∈ test.shadows, shadow.own.implements = real
  passed : (h.rulesFor test.unshadowed).intercepts real = false

/-- Two tests say the same to the rules of a harness. -/
structure Alike (h : Harness) (test test' : Overrides) : Prop where
  scope : test.SameScope test'
  uncovered : ∀ real, h.Uncovers test real ↔ h.Uncovers test' real

/-! ## Rules -/

theorem overriddenRules_congr (hs : test.SameScope test') : h.overriddenRules test = h.overriddenRules test' := by
  rw [overriddenRules_eq, overriddenRules_eq, KeySet.foldl_add_congr hs.included, KeySet.foldl_add_congr hs.excluded]

/-- The types that a test uncovers, as often as it has shadows of them. -/
def uncovered (h : Harness) (test : Overrides) : List String :=
  (test.shadows.map (·.own.implements)).filter fun real => !(h.overriddenRules test).intercepts real

theorem uncovers_iff : h.Uncovers test real ↔ real ∈ h.uncovered test := by
  rw [uncovered, List.mem_filter, List.mem_map, Bool.not_eq_true']
  exact ⟨fun hu => ⟨hu.shadowed, hu.passed⟩, fun hu => ⟨hu.1, hu.2⟩⟩

/-- What a test uncovers is neither bound by a provider nor intercepted for another reason. -/
theorem uncovers_iff_no_reason : h.Uncovers test real ↔
    (∃ shadow ∈ test.shadows, shadow.own.implements = real) ∧ (∀ b, h.Standing b → b.real ≠ real) ∧
      ¬h.InterceptsAnyway test.unshadowed real := by
  have hpassed : (h.rulesFor test.unshadowed).intercepts real = false ↔
      (∀ b, h.Standing b → b.real ≠ real) ∧ ¬h.InterceptsAnyway test.unshadowed real := by
    rw [← Bool.not_eq_true, rulesFor_intercepts_iff, not_or]
    refine and_congr_left fun _ => ⟨fun hnone b hb hreal => hnone ⟨b, hb, hreal⟩, ?_⟩
    rintro hnone ⟨b, hb, hreal⟩
    exact hnone b hb hreal
  exact ⟨fun hu => ⟨hu.shadowed, hpassed.1 hu.passed⟩, fun hu => ⟨hu.1, hpassed.2 hu.2⟩⟩

/-- The shadows of a test only make a difference to the types that are included. -/
theorem rulesFor_eq_with (h : Harness) (test : Overrides) :
    h.rulesFor test = { h.overriddenRules test with includedTypes := (h.rulesFor test).includedTypes } := by
  rw [rulesFor, Rules.foldl_includeType]

/-- Of the shadows of a test the rules see those that uncover a type. -/
theorem contains_includedTypes_rulesFor : (h.rulesFor test).includedTypes.contains real = true ↔
    h.Uncovers test real ∨ (h.overriddenRules test).includedTypes.contains real = true := by
  have hincluded : h.rulesFor test = (h.uncovered test).foldl Rules.includeType (h.overriddenRules test) := rfl
  rw [hincluded, Rules.foldl_includeType, KeySet.contains_foldl_add, Bool.or_eq_true, decide_eq_true_eq, uncovers_iff]

theorem Alike.rulesFor_eq (ha : h.Alike test test') : h.rulesFor test = h.rulesFor test' := by
  have hincluded : (h.rulesFor test).includedTypes = (h.rulesFor test').includedTypes := by
    refine KeySet.ext_contains fun real => Bool.eq_iff_iff.2 ?_
    rw [contains_includedTypes_rulesFor, contains_includedTypes_rulesFor, ha.uncovered, overriddenRules_congr ha.scope]
  rw [rulesFor_eq_with, hincluded, overriddenRules_congr ha.scope]
  exact (h.rulesFor_eq_with test').symm

/-- A type that is uncovered is included for no other reason. -/
theorem Uncovers.of_rulesFor_eq (hs : test.SameScope test') (hrules : h.rulesFor test = h.rulesFor test')
    (hu : h.Uncovers test real) : h.Uncovers test' real := by
  have hincluded := contains_includedTypes_rulesFor.2 (.inl hu)
  rw [hrules, contains_includedTypes_rulesFor] at hincluded
  obtain huncovers | hbefore := hincluded
  · exact huncovers
  · rw [← overriddenRules_congr hs] at hbefore
    have hpassed : (h.overriddenRules test).intercepts real = false := hu.passed
    rw [Rules.intercepts_iff.2 (.inl (.inl hbefore))] at hpassed
    cases hpassed

theorem alike_iff (hs : test.SameScope test') : h.Alike test test' ↔ h.rulesFor test = h.rulesFor test' := by
  constructor
  · exact Alike.rulesFor_eq
  · intro hrules
    have hs' : test'.SameScope test := ⟨fun _ => (hs.included _).symm, fun _ => (hs.excluded _).symm⟩
    exact ⟨hs, fun real => ⟨.of_rulesFor_eq hs hrules, .of_rulesFor_eq hs' hrules.symm⟩⟩

theorem rulesFor_of_setup (hsettings : h'.settings = h.settings) (hproviders : h'.providers = h.providers)
    (test : Overrides) : h'.rulesFor test = h.rulesFor test := by
  simp only [rulesFor, overriddenRules, providerRules, hsettings, hproviders]

/-- The rules of a test stay the same as long as no provider is added. -/
theorem rulesFor_after (hnew : Harness.new hierarchy settings = .ok h) (steps : List Step) {later : List Step}
    (hlater : ∀ s ∈ later, s.provider? = none) (test : Overrides) :
    ((h.after steps).after later).rulesFor test = (h.after steps).rulesFor test := by
  have hk := knows_after hnew steps
  have hk' := knows_after hnew (steps ++ later)
  have hnone : later.filterMap Step.provider? = [] := List.filterMap_eq_nil_iff.2 hlater
  rw [← after_append]
  refine rulesFor_of_setup (hk'.sameSettings.trans hk.sameSettings.symm) ?_ test
  rw [hk'.providers, hk.providers, List.filterMap_append, hnone, List.append_nil]

/-! ## The main result -/

/-- Take a new harness after any steps, and two tests that include the same types, exclude the same packages and have
shadows of the same types among those that are not intercepted without them, which are those that no binding of a
provider stands for and nothing else is a reason to intercept. They have the same rules, and as long as no provider is
added, all executions of both at one level are in sandboxes of the same key. Tests that include and exclude the same have
the same rules in no other case. The type of each shadow of a test is intercepted. -/
theorem alike_tests_share_keys (hnew : Harness.new hierarchy settings = .ok h) (steps : List Step) :
    let now := h.after steps
    (∀ test test', now.Alike test test' → now.rulesFor test = now.rulesFor test' ∧
      ∀ later, (∀ s ∈ later, s.provider? = none) → ∀ code code' task task',
        ∀ e ∈ now.executions code test task, ∀ e' ∈ (now.after later).executions code' test' task',
          e.sandbox.key.level = e'.sandbox.key.level → e.sandbox.key = e'.sandbox.key) ∧
    (∀ test real, now.Uncovers test real ↔
      (∃ shadow ∈ test.shadows, shadow.own.implements = real) ∧ (∀ b, now.Standing b → b.real ≠ real) ∧
        ¬now.InterceptsAnyway test.unshadowed real) ∧
    (∀ test test', test.SameScope test' → now.rulesFor test = now.rulesFor test' → now.Alike test test') ∧
    ∀ test, ∀ shadow ∈ test.shadows, (now.rulesFor test).intercepts shadow.own.implements = true := by
  intro now
  refine ⟨fun test test' ha => ⟨ha.rulesFor_eq, fun later hlater code code' task task' e he e' he' hlevel => ?_⟩,
    fun test real => uncovers_iff_no_reason, fun test test' hs => (alike_iff hs).2, fun test shadow hmem => ?_⟩
  · obtain ⟨_, _, _, hb, ht⟩ := exists_books_after hnew steps
    obtain ⟨_, _, _, hb', ht'⟩ := exists_books_after hnew (steps ++ later)
    rw [after_append] at hb' ht'
    obtain ⟨_, _, level, _, hkey⟩ := key_of_mem_executions hb ht he
    obtain ⟨_, _, level', _, hkey'⟩ := key_of_mem_executions hb' ht' he'
    rw [rulesFor_after hnew steps hlater, ← ha.rulesFor_eq] at hkey'
    rw [hkey, hkey'] at hlevel ⊢
    exact congrArg (SandboxKey.mk _) hlevel
  · exact rulesFor_intercepts_iff.2 (.inr (.shadowed hmem rfl))

end Harness

/-! ## Overrides listed in another way -/

namespace Sample

/-- A test that shadows views, which are excluded. -/
def listed : Overrides :=
  { Overrides.none with
    shadows := [shadowView], includedTypes := ["Dial", "Knob"], excludedPackages := ["plain", "bare."] }

/-- A test that says the same in another order and partly twice, and shadows buttons, which are intercepted anyway. -/
def relisted : Overrides :=
  { Overrides.none with
    shadows := [.alone { shadowView.own with implements := "Button", serial := 1 }, namesake, shadowView]
    includedTypes := ["Knob", "Dial", "Knob"], excludedPackages := ["bare", "plain..", "plain"] }

def unprovided : Harness := ⟨hierarchy, excluding, [], .new 8, Table.empty, [], .empty⟩

theorem alike_relisted : unprovided.Alike listed relisted := by
  refine ⟨⟨fun typeId => ?_, fun package => ?_⟩, fun real => ?_⟩
  · simp only [listed, relisted, List.mem_cons, List.not_mem_nil, or_false]
    tauto
  · have hlisted : listed.excludedPackages.map trimPackage = ["plain", "bare"] := by decide
    have hrelisted : relisted.excludedPackages.map trimPackage = ["bare", "plain", "plain"] := by decide
    rw [hlisted, hrelisted]
    simp only [List.mem_cons, List.not_mem_nil, or_false, or_self]
    exact or_comm
  · have hlisted : unprovided.uncovered listed = ["View"] := by decide
    have hrelisted : unprovided.uncovered relisted = ["View", "View"] := by decide
    rw [Harness.uncovers_iff, Harness.uncovers_iff, hlisted, hrelisted]
    simp only [List.mem_cons, List.not_mem_nil, or_false, or_self]

/-- A view is made in the first test and then in the second one. -/
def viewListed : Execution := (unprovided.executions code listed (makeAndAsk "View"))[0]

def listedRun : Harness.Step := .run code listed (makeAndAsk "View")

def viewRelisted : Execution := ((unprovided.after [listedRun]).executions code relisted (makeAndAsk "View"))[0]

end Sample

/-- Both tests have the same rules, and the second one runs in the sandbox of the first one. -/
theorem Harness.alike_tests_share_keys_relisted :
    Harness.new Sample.hierarchy Sample.excluding = .ok Sample.unprovided ∧
      Sample.unprovided.Alike Sample.listed Sample.relisted ∧
      Sample.unprovided.rulesFor Sample.listed = Sample.unprovided.rulesFor Sample.relisted ∧
      Sample.viewListed.sandbox.key = Sample.viewRelisted.sandbox.key ∧
      Sample.viewListed.sandbox.id = Sample.viewRelisted.sandbox.id := by
  have hnew : Harness.new Sample.hierarchy Sample.excluding = .ok Sample.unprovided := rfl
  obtain ⟨hshares, _⟩ := alike_tests_share_keys hnew []
  obtain ⟨hrules, hkeys⟩ := hshares _ _ Sample.alike_relisted
  have hlater : ∀ s ∈ [Sample.listedRun], s.provider? = none := List.forall_mem_singleton.2 rfl
  exact ⟨hnew, Sample.alike_relisted, hrules, hkeys _ hlater _ _ _ _ Sample.viewListed (List.getElem_mem _)
    Sample.viewRelisted (List.getElem_mem _) (by decide), by decide⟩

end Interpose
