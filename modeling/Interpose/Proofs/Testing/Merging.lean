import Interpose.Proofs.Testing.ChosenLevels

/-!
# Nested tests

The changes of nested tests are merged into those of a single one. It makes no difference in which order the nestings
are merged, and a test without changes adds none. An inner test goes before an outer one: its shadows have the entries
of their types, and its levels are chosen unless it leaves them open. Below all of the tests are the providers.
-/

namespace Interpose

namespace Overrides

variable {outer inner : Overrides} {real : String}

/-! ## Merging -/

@[simp] theorem none_merge (test : Overrides) : none.merge test = test := by
  cases test with
  | mk _ levels => cases levels <;> rfl

@[simp] theorem merge_none (test : Overrides) : test.merge none = test := by
  simp only [merge, none, List.append_nil, if_pos]

theorem merge_assoc (a b c : Overrides) : (a.merge b).merge c = a.merge (b.merge c) := by
  simp only [merge, List.append_assoc]
  -- What is left are the levels, which are those of the innermost test that has some of its own.
  by_cases hc : c.levels = .default
  · simp only [if_pos hc]
  · simp only [if_neg hc]

instance : Std.Associative merge := ⟨merge_assoc⟩

theorem mergeAll_eq_foldl (tests : List Overrides) : mergeAll tests = tests.foldl merge none := by
  cases tests with
  | nil => rfl
  | cons first rest => rw [List.foldl_cons, none_merge, mergeAll]

theorem mergeAll_singleton (test : Overrides) : mergeAll [test] = test := rfl

theorem mergeAll_append (outer inner : List Overrides) :
    mergeAll (outer ++ inner) = (mergeAll outer).merge (mergeAll inner) := by
  have hjoined : inner.foldl merge ((mergeAll outer).merge none) = (mergeAll outer).merge (inner.foldl merge none) :=
    List.foldl_assoc
  rw [mergeAll_eq_foldl, List.foldl_append, ← mergeAll_eq_foldl, mergeAll_eq_foldl inner, ← hjoined, merge_none]

/-! ## What goes first -/

/-- The last shadow of a test for a type. -/
def lastShadow? (test : Overrides) (real : String) : Option Shadow :=
  (test.shadows.filter fun s => decide (s.own.implements = real)).getLast?

theorem lastShadow?_merge :
    (outer.merge inner).lastShadow? real = (inner.lastShadow? real).or (outer.lastShadow? real) := by
  rw [lastShadow?, merge, List.filter_append, List.getLast?_append]
  rfl

theorem lastShadow?_mergeAll (tests : List Overrides) (real : String) :
    (mergeAll tests).lastShadow? real = tests.reverse.findSome? (·.lastShadow? real) := by
  induction tests using List.reverseRecOn with
  | nil => rfl
  | append_singleton tests test ih =>
    rw [mergeAll_append, lastShadow?_merge, ih, List.reverse_append, List.findSome?_append, List.reverse_singleton,
      List.findSome?_singleton, mergeAll_singleton]

/-- The choice of levels of the innermost test that does not leave it open. -/
def innermostLevels (tests : List Overrides) : LevelChoice :=
  ((tests.reverse.map (·.levels)).find? fun choice => decide (choice ≠ .default)).getD .default

theorem levels_mergeAll (tests : List Overrides) : (mergeAll tests).levels = innermostLevels tests := by
  induction tests using List.reverseRecOn with
  | nil => rfl
  | append_singleton tests test ih =>
    rw [mergeAll_append, mergeAll_singleton, innermostLevels, List.reverse_append, List.reverse_singleton,
      List.singleton_append, List.map_cons]
    by_cases hopen : test.levels = .default
    · rw [List.find?_cons_of_neg (by simp [hopen]), merge, if_pos hopen, ih, innermostLevels]
    · rw [List.find?_cons_of_pos (by simp [hopen]), merge, if_neg hopen, Option.getD_some]

end Overrides

namespace Staging

theorem lastFor_shadows (test : Overrides) (real : String) :
    lastFor real (test.shadows.map .ofShadow) = (test.lastShadow? real).map .ofShadow := by
  rw [lastFor, List.filter_map, List.getLast?_map]
  rfl

/-- Shadows that are added override all that was staged. -/
theorem winner?_append_shadows (calls : List Call) (shadows : List Shadow) (real : String) :
    winner? (calls ++ shadows.map .shadow) real =
      (lastFor real (shadows.map .ofShadow)).or (winner? calls real) := by
  have hshadows : (shadows.map Call.shadow).flatMap Call.forTest = shadows.map .ofShadow := by
    rw [List.flatMap_map, List.map_eq_flatMap]
    rfl
  have htiers : ∀ tier, (shadows.map Call.shadow).flatMap (Call.inTier tier) = [] := by
    intro tier
    rw [List.flatMap_map]
    exact List.flatMap_eq_nil_iff.2 fun _ _ => rfl
  simp only [winner?, List.flatMap_append, hshadows, htiers, List.append_nil, lastFor_append, Option.or_assoc]

end Staging

namespace Harness

variable {h : Harness} {steps : List Step} {hierarchy : Hierarchy} {settings : Settings} {registry : Registry}

/-- Each type has the last shadow of the test for it, or else what wins among the bindings of the providers. -/
theorem Knows.get?_of_registryFor (hk : Knows hierarchy settings steps h) {test : Overrides}
    (hregistry : (h.registryFor test).1 = .ok registry) (real : String) :
    registry.get? real = ((test.lastShadow? real).map .ofShadow).or
      (Staging.winner? ((steps.filterMap Step.provider?).map .provider) real) := by
  rw [hk.remembers.registryFor_eq, build_staging, hk.providers] at hregistry
  obtain ⟨rfl, _⟩ := Staging.build_eq_ok hregistry
  rw [← Staging.lastFor_shadows, ← Staging.winner?_append_shadows]
  exact Staging.get?_winners_after _ real

/-! ## The main result -/

/-- Merging is associative, and a test without changes is an identity on both sides, where shadows are told apart by
their serial numbers; so a chain of nested tests may be merged in parts. Take a new harness after any steps. If the
registry of an inner test within an outer one can be built, each type has the last shadow of the inner test for it, or
else the last one of the outer test, or else the winner among the bindings of the providers. The levels that are
selected are those of the inner test unless it selects the default, and then those of the outer test, and a run that
returns has outcomes at just these levels. Likewise each test of a chain goes before those that it is nested in. -/
theorem merging_respects_nesting :
    ((∀ a b c : Overrides, (a.merge b).merge c = a.merge (b.merge c)) ∧
      (∀ a : Overrides, Overrides.none.merge a = a ∧ a.merge .none = a) ∧
      ∀ outer inner, Overrides.mergeAll (outer ++ inner) = (Overrides.mergeAll outer).merge (.mergeAll inner)) ∧
    ∀ hierarchy settings h, Harness.new hierarchy settings = .ok h → ∀ steps,
      let now := h.after steps
      let provided := Staging.winner? ((steps.filterMap Step.provider?).map .provider)
      let selected := fun choice : LevelChoice => choice.select settings.supportedLevels settings.defaultLevel
      (∀ outer inner, let both := Overrides.merge outer inner
        (∀ registry, (now.registryFor both).1 = .ok registry → ∀ real, registry.get? real =
          (((inner.lastShadow? real).or (outer.lastShadow? real)).map .ofShadow).or (provided real)) ∧
        (inner.levels ≠ .default → selected both.levels = selected inner.levels) ∧
        (inner.levels = .default → selected both.levels = selected outer.levels) ∧
        ∀ code task outcomes, (now.run code both task).1 = .done (.ok outcomes) →
          selected both.levels = .ok (outcomes.map (·.level))) ∧
      ∀ tests, let all := Overrides.mergeAll tests
        (∀ registry, (now.registryFor all).1 = .ok registry → ∀ real, registry.get? real =
          ((tests.reverse.findSome? (·.lastShadow? real)).map .ofShadow).or (provided real)) ∧
        selected all.levels = selected (Overrides.innermostLevels tests) := by
  refine ⟨⟨Overrides.merge_assoc, fun a => ⟨a.none_merge, a.merge_none⟩, Overrides.mergeAll_append⟩, ?_⟩
  intro hierarchy settings h hnew steps now provided selected
  have hk : Knows hierarchy settings steps now := knows_after hnew steps
  obtain ⟨_, _, _, hb, ht⟩ := exists_books_after hnew steps
  refine ⟨fun outer inner => ⟨fun registry hregistry real => ?_, fun hown => ?_, fun hopen => ?_,
    fun code task outcomes hrun => ?_⟩, fun tests => ⟨fun registry hregistry real => ?_, ?_⟩⟩
  · rw [hk.get?_of_registryFor hregistry, Overrides.lastShadow?_merge]
  · rw [Overrides.merge, if_neg hown]
  · rw [Overrides.merge, if_pos hopen]
  · have hselect := select_of_run hb ht hrun
    rwa [hk.sameSettings] at hselect
  · rw [hk.get?_of_registryFor hregistry, Overrides.lastShadow?_mergeAll]
  · rw [Overrides.levels_mergeAll]

end Harness

/-! ## A method within a class -/

namespace Sample

def dial : Shadow := .alone { shadowView.own with implements := "Dial", serial := 9 }

/-- Shadows views and dials at both levels. -/
def classChanges : Overrides := { bothLevels with shadows := [cleaned, dial] }

/-- Shadows views in another way at one level. -/
def methodChanges : Overrides := { atLevel 30 with shadows := [namesake] }

/-- Binds views and buttons to one shadow. -/
def provideViews : Harness.Step := .withProvider ⟨"views", .custom, [.ofShadow shadowView, .bind "Button" shadowView]⟩

end Sample

/-- Views have the shadow of the method, dials the one of the class and buttons the one of the provider, and the
outcomes are at the level of the method. -/
theorem Harness.merging_respects_nesting_method :
    let now := Sample.harness.after [Sample.provideViews]
    let both := Sample.classChanges.merge Sample.methodChanges
    (∃ registry, (now.registryFor both).1 = .ok registry ∧
      registry.get? "View" = some (.ofShadow Sample.namesake) ∧ registry.get? "Dial" = some (.ofShadow Sample.dial) ∧
      registry.get? "Button" = some (.bind "Button" Sample.shadowView)) ∧
    ∃ outcomes, (now.run Sample.code both (Sample.makeAndAsk "View")).1 = .done (.ok outcomes) ∧
      Sample.methodChanges.levels.select [28, 30] 28 = .ok (outcomes.map (·.level)) := by
  intro now both
  have hnew : Harness.new Sample.hierarchy Sample.settings = .ok Sample.harness := rfl
  obtain ⟨_, hharness⟩ := merging_respects_nesting
  obtain ⟨hpairs, _⟩ := hharness _ _ _ hnew [Sample.provideViews]
  obtain ⟨hentries, hown, _, hlevels⟩ := hpairs Sample.classChanges Sample.methodChanges
  obtain ⟨registry, hregistry⟩ : ∃ registry, (now.registryFor both).1 = .ok registry := ⟨_, rfl⟩
  obtain ⟨outcomes, hrun⟩ :
      ∃ outcomes, (now.run Sample.code both (Sample.makeAndAsk "View")).1 = .done (.ok outcomes) := ⟨_, rfl⟩
  have hget := hentries registry hregistry
  refine ⟨⟨registry, hregistry, (hget "View").trans (by decide), (hget "Dial").trans (by decide),
    (hget "Button").trans (by decide)⟩, outcomes, hrun, ?_⟩
  exact (hown (by decide)).symm.trans (hlevels _ _ outcomes hrun)

end Interpose
