import Interpose.Proofs.Dispatch.RealCalls
import Interpose.Proofs.Rules.DecisionOrder
import Interpose.Proofs.Testing.Handles
import Interpose.Proofs.Testing.Registries

/-!
# Which bindings are intercepted

The rules of a test keep for each shadow id the one type that it was bound to last, while the registry keeps for each
type the one shadow that was bound to it last. So a type that a provider binds is sure to be intercepted only if its
shadow id is not bound to another type later; otherwise it takes its chance with the exclusions, and where these win its
entry in the registry is there for nothing.
-/

namespace Interpose

namespace Rules

variable {r : Rules} {real : String}

theorem foldl_includeType (types : List String) (r : Rules) :
    types.foldl includeType r = { r with includedTypes := types.foldl KeySet.add r.includedTypes } := by
  induction types generalizing r with
  | nil => rfl
  | cons typeId rest ih => rw [List.foldl_cons, ih, List.foldl_cons, includeType]

theorem foldl_bindShadow (bindings : List Binding) (r : Rules) :
    bindings.foldl (fun r b => r.bindShadow b.shadow.id b.real) r =
      { r with
        boundShadows := (bindings.map fun b => (b.shadow.id, b.real)).foldl (fun m e => m.insert e.1 e.2)
          r.boundShadows } := by
  induction bindings generalizing r with
  | nil => rfl
  | cons b rest ih => rw [List.foldl_cons, ih, List.map_cons, List.foldl_cons, bindShadow]

/-- To include further types makes no difference to the others. -/
theorem intercepts_foldl_includeType {types : List String} :
    (types.foldl includeType r).intercepts real = true ↔ real ∈ types ∨ r.intercepts real = true := by
  rw [foldl_includeType, intercepts_iff, intercepts_iff, KeySet.contains_foldl_add, Bool.or_eq_true,
    decide_eq_true_eq]
  simp only [or_assoc]

end Rules

namespace Harness

variable {past : List Execution} {h : Harness} {test : Overrides} {real : String} {b : Binding}

/-- A binding of a provider whose shadow id no provider binds again later. -/
def Standing (h : Harness) (b : Binding) : Prop :=
  ∃ before after, h.provided = before ++ b :: after ∧ ∀ c ∈ after, c.shadow.id ≠ b.shadow.id

/-- Why a type is intercepted in a test, the bindings of the providers apart. -/
inductive InterceptsAnyway (h : Harness) (test : Overrides) (real : String) : Prop
  /-- A shadow is bound to it beforehand, whose id no provider binds. -/
  | bound {id : String} (hbound : h.settings.rules.boundShadows.get? id = some real)
      (hkept : ∀ b ∈ h.provided, b.shadow.id ≠ id)
  | included (hincluded : h.settings.rules.includedTypes.contains real = true ∨ real ∈ test.includedTypes)
  /-- The test has a shadow of its own that implements it. -/
  | shadowed {shadow : Shadow} (hmem : shadow ∈ test.shadows) (himplements : shadow.own.implements = real)
  /-- It is not excluded, and it lies in the packages to instrument if there are such. -/
  | admitted (htypes : h.settings.rules.excludedTypes.contains real = false)
      (hpackages : ∀ package, package ∈ h.settings.rules.excludedPackages.keys ∨
        package ∈ test.excludedPackages.map trimPackage → liesIn real package = false)
      (hinstrumented : h.settings.rules.instrumentedPackages.isEmpty = true ∨
        ∃ package ∈ h.settings.rules.instrumentedPackages.keys, liesIn real package = true)

theorem overriddenRules_eq (h : Harness) (test : Overrides) :
    h.overriddenRules test =
      { h.settings.rules with
        boundShadows := (h.provided.map fun b => (b.shadow.id, b.real)).foldl (fun m e => m.insert e.1 e.2)
          h.settings.rules.boundShadows
        includedTypes := test.includedTypes.foldl KeySet.add h.settings.rules.includedTypes
        excludedPackages := (test.excludedPackages.map trimPackage).foldl KeySet.add
          h.settings.rules.excludedPackages } := by
  rw [overriddenRules, providerRules, Rules.foldl_excludePackage, Rules.foldl_includeType, Rules.foldl_bindShadow,
    provided]

/-- A shadow id is bound to what a provider bound it to last, or else to what it was bound to beforehand. -/
theorem boundShadows_iff :
    (∃ id, (h.overriddenRules test).boundShadows.get? id = some real) ↔
      (∃ b, h.Standing b ∧ b.real = real) ∨
        ∃ id, h.settings.rules.boundShadows.get? id = some real ∧ ∀ b ∈ h.provided, b.shadow.id ≠ id := by
  rw [overriddenRules_eq]
  simp only [KeyMap.get?_foldl_insert, exists_or]
  refine or_congr ⟨?_, ?_⟩ ⟨?_, ?_⟩
  · rintro ⟨id, before, after, hsplit, hafter⟩
    obtain ⟨before', rest, hprovided, hbefore, hrest⟩ := List.map_eq_append_iff.1 hsplit
    obtain ⟨b, after', rfl, hb, hafter'⟩ := List.map_eq_cons_iff.1 hrest
    obtain ⟨rfl, rfl⟩ := Prod.mk.inj hb
    refine ⟨b, ⟨before', after', hprovided, fun c hc => ?_⟩, rfl⟩
    exact hafter (c.shadow.id, c.real) (hafter' ▸ List.mem_map_of_mem (f := fun b => (b.shadow.id, b.real)) hc)
  · rintro ⟨b, ⟨before, after, hprovided, hafter⟩, rfl⟩
    refine ⟨b.shadow.id, before.map fun b => (b.shadow.id, b.real), after.map fun b => (b.shadow.id, b.real), ?_, ?_⟩
    · rw [hprovided, List.map_append, List.map_cons]
    · intro e he
      obtain ⟨c, hc, rfl⟩ := List.mem_map.1 he
      exact hafter c hc
  · rintro ⟨id, hnone, hbound⟩
    exact ⟨id, hbound, fun b hb => hnone _ (List.mem_map_of_mem (f := fun b => (b.shadow.id, b.real)) hb)⟩
  · rintro ⟨id, hbound, hnone⟩
    refine ⟨id, fun e he => ?_, hbound⟩
    obtain ⟨b, hb, rfl⟩ := List.mem_map.1 he
    exact hnone b hb

theorem Standing.mem (hb : h.Standing b) : b ∈ h.provided := by
  obtain ⟨_, _, hsplit, _⟩ := hb
  exact hsplit ▸ List.mem_append_cons_self

/-- Of the bindings of one shadow id the last one stands. -/
theorem exists_standing (hb : b ∈ h.provided) : ∃ c, h.Standing c ∧ c.shadow.id = b.shadow.id := by
  obtain ⟨before, c, after, hsplit, hid, hafter⟩ :=
    exists_last (p := fun c : Binding => c.shadow.id = b.shadow.id) ⟨b, hb, rfl⟩
  exact ⟨c, ⟨before, after, hsplit, fun d hd => hid ▸ hafter d hd⟩, hid⟩

theorem overriddenRules_intercepts_iff :
    (h.overriddenRules test).intercepts real = true ↔
      (h.settings.rules.includedTypes.contains real = true ∨ real ∈ test.includedTypes) ∨
      (∃ id, (h.overriddenRules test).boundShadows.get? id = some real) ∨
      h.settings.rules.excludedTypes.contains real = false ∧
        (∀ package, package ∈ h.settings.rules.excludedPackages.keys ∨
          package ∈ test.excludedPackages.map trimPackage → liesIn real package = false) ∧
        (h.settings.rules.instrumentedPackages.isEmpty = true ∨
          ∃ package ∈ h.settings.rules.instrumentedPackages.keys, liesIn real package = true) := by
  have hincluded : (h.overriddenRules test).includedTypes.contains real = true ↔
      h.settings.rules.includedTypes.contains real = true ∨ real ∈ test.includedTypes := by
    rw [overriddenRules_eq, KeySet.contains_foldl_add, Bool.or_eq_true, decide_eq_true_eq, or_comm]
  have hpackages : ∀ package, package ∈ (h.overriddenRules test).excludedPackages.keys ↔
      package ∈ h.settings.rules.excludedPackages.keys ∨ package ∈ test.excludedPackages.map trimPackage := by
    intro package
    rw [overriddenRules_eq, KeySet.mem_keys_foldl_add, or_comm]
  have htypes : (h.overriddenRules test).excludedTypes = h.settings.rules.excludedTypes := by
    rw [overriddenRules_eq]
  have hinstrumented : (h.overriddenRules test).instrumentedPackages = h.settings.rules.instrumentedPackages := by
    rw [overriddenRules_eq]
  rw [Rules.intercepts_iff, hincluded, htypes, hinstrumented, or_assoc]
  simp only [hpackages]

/-- A type is intercepted in a test exactly if it has a binding of a provider that stands, or anyway. -/
theorem rulesFor_intercepts_iff :
    (h.rulesFor test).intercepts real = true ↔
      (∃ b, h.Standing b ∧ b.real = real) ∨ h.InterceptsAnyway test real := by
  have hown : real ∈ (test.shadows.map (·.own.implements)).filter
        (fun real => !(h.overriddenRules test).intercepts real) ↔
      (∃ shadow ∈ test.shadows, shadow.own.implements = real) ∧ ¬(h.overriddenRules test).intercepts real = true := by
    rw [List.mem_filter, List.mem_map, Bool.not_eq_true', Bool.not_eq_true]
  rw [rulesFor, Rules.intercepts_foldl_includeType, hown]
  constructor
  · rintro (⟨⟨shadow, hmem, himplements⟩, _⟩ | hrules)
    · exact .inr (.shadowed hmem himplements)
    · obtain hincluded | hbound | ⟨htypes, hpackages, hinstrumented⟩ := overriddenRules_intercepts_iff.1 hrules
      · exact .inr (.included hincluded)
      · obtain hstanding | ⟨id, hbound, hkept⟩ := boundShadows_iff.1 hbound
        · exact .inl hstanding
        · exact .inr (.bound hbound hkept)
      · exact .inr (.admitted htypes hpackages hinstrumented)
  · intro hreason
    by_cases hrules : (h.overriddenRules test).intercepts real = true
    · exact .inr hrules
    · refine .inl ⟨?_, hrules⟩
      -- Nothing but a shadow of the test is left as the reason.
      have hnot := fun hyes => hrules (overriddenRules_intercepts_iff.2 hyes)
      obtain hstanding | ⟨hbound, hkept⟩ | hincluded | ⟨hmem, himplements⟩ | ⟨htypes, hpackages, hinstrumented⟩ :=
        hreason
      · exact absurd (.inr (.inl (boundShadows_iff.2 (.inl hstanding)))) hnot
      · exact absurd (.inr (.inl (boundShadows_iff.2 (.inr ⟨_, hbound, hkept⟩)))) hnot
      · exact absurd (.inl hincluded) hnot
      · exact ⟨_, hmem, himplements⟩
      · exact absurd (.inr (.inr ⟨htypes, hpackages, hinstrumented⟩)) hnot

/-! ## The main result -/

/-- Take any harness and any test. A type is intercepted exactly if a provider binds it with a shadow id that no provider
binds later, or for a reason that has nothing to do with providers. So all types that providers bind are intercepted if
none of their shadow ids is bound to two types. Let the harness have any history and the registry of the test be valid.
Then every entry of the registry is for its own type and was bound by a provider or is a shadow of the test. If the type
is intercepted, the entry governs the calls on it at the levels that it admits; if not, such calls go as if nothing were
bound. -/
theorem provider_binding_intercepted_iff (h : Harness) (test : Overrides) :
    let rules := h.rulesFor test
    (∀ real, rules.intercepts real = true ↔
      (∃ b, h.Standing b ∧ b.real = real) ∨ h.InterceptsAnyway test real) ∧
    (∀ b ∈ h.provided, (∀ c ∈ h.provided, c.shadow.id = b.shadow.id → c.real = b.real) →
      rules.intercepts b.real = true) ∧
    ∀ past, History h past → ∀ registry, (h.registryFor test).1 = .ok registry →
      ∀ real b, registry.get? real = some b →
        b.real = real ∧ (b ∈ h.provided ∨ ∃ shadow ∈ test.shadows, b = .ofShadow shadow) ∧
        ∀ level,
          let s : Setting := ⟨h.hierarchy, rules, level, registry⟩
          (rules.intercepts real = true → b.admits level = true → (s.governing real).binding? = some b) ∧
          (rules.intercepts real = false → ∀ site, site.runtimeType = real → s.decide site = s.passThrough site) := by
  intro rules
  refine ⟨fun real => rulesFor_intercepts_iff, fun b hb hsame => ?_, fun past hist registry hregistry real b hget => ?_⟩
  · obtain ⟨c, hstanding, hid⟩ := exists_standing hb
    exact rulesFor_intercepts_iff.2 (.inl ⟨c, hstanding, hsame c hstanding.mem hid⟩)
  · obtain ⟨hreal, horigin⟩ := hist.remembers.entry hregistry hget
    refine ⟨hreal, horigin, fun level => ?_⟩
    intro s
    refine ⟨fun hintercepted hadmits => ?_, fun hpassed site hsite => ?_⟩
    · have hgoverning : s.governing real = registry.lookup h.hierarchy level real := if_pos hintercepted
      have hforce : registry.inForce? level real = some b := by
        rw [Registry.inForce?, hget, Option.filter_some, if_pos hadmits]
      rw [hgoverning, Registry.lookup, Hierarchy.ancestors, walkIn, walk, Registry.lookupAlong, hforce]
    · exact Setting.decide_of_not_intercepted (by rw [hsite]; exact hpassed)

end Harness

end Interpose

/-! ## One shadow for two types -/

namespace Interpose.Sample

/-- Binds the shadow to the type it is for, and then to another one. -/
def rebinding : Provider := ⟨"rebinding", .base, [.ofShadow shadowView, .bind "Button" shadowView]⟩

/-- The settings of the small world with views excluded. -/
def excluding : Settings := { settings with rules := Rules.none.excludeType "View" }

def rebound : Harness := Harness.withProvider ⟨hierarchy, excluding, [], .new 8, Table.empty, [], .empty⟩ rebinding

theorem history_rebound : Harness.History rebound [] := by
  have hnew : Harness.new hierarchy excluding = .ok ⟨hierarchy, excluding, [], .new 8, Table.empty, [], .empty⟩ := rfl
  exact (Harness.History.new hnew).withProvider rebinding

end Interpose.Sample

namespace Interpose.Harness

open Sample

/-- The provider binds the type of views, which is not intercepted, so its entry in the registry is there for
nothing. -/
theorem provider_binding_passed_through :
    History rebound [] ∧ .ofShadow shadowView ∈ rebound.provided ∧
      (rebound.rulesFor .none).intercepts (Binding.ofShadow shadowView).real = false ∧
      ∃ registry, (rebound.registryFor .none).1 = .ok registry ∧
        registry.get? (Binding.ofShadow shadowView).real = some (.ofShadow shadowView) :=
  ⟨history_rebound, by decide, by decide, _, rfl, by decide⟩

/-- The type that the shadow was bound to last is intercepted though its supertype is not. -/
theorem provider_binding_intercepted_iff_rebound :
    (rebound.rulesFor .none).intercepts "Button" = true ∧
      ∃ registry, (rebound.registryFor .none).1 = .ok registry ∧
        ∀ level site, site.runtimeType = "View" →
          Setting.decide ⟨Sample.hierarchy, rebound.rulesFor .none, level, registry⟩ site =
            Setting.passThrough ⟨Sample.hierarchy, rebound.rulesFor .none, level, registry⟩ site := by
  obtain ⟨registry, hregistry, hget⟩ : ∃ registry, (rebound.registryFor .none).1 = .ok registry ∧
      registry.get? "View" = some (.ofShadow shadowView) := ⟨_, rfl, by decide⟩
  obtain ⟨hintercepts, _, hentries⟩ := provider_binding_intercepted_iff rebound .none
  have hstanding : rebound.Standing (.bind "Button" shadowView) := ⟨[.ofShadow shadowView], [], rfl, by simp⟩
  refine ⟨(hintercepts "Button").2 (.inl ⟨_, hstanding, rfl⟩), registry, hregistry, fun level site hsite => ?_⟩
  exact ((hentries [] history_rebound registry hregistry "View" _ hget).2.2 level).2 (by decide) site hsite

end Interpose.Harness
