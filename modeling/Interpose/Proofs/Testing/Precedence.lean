import Interpose.Proofs.Dispatch.ExactMatch
import Interpose.Proofs.Execution.Crossing
import Interpose.Proofs.Execution.InForce
import Interpose.Proofs.Testing.Interception
import Interpose.Proofs.Testing.Outcomes
import Interpose.Proofs.Testing.Sandboxes

/-!
# The shadows of a test go first

A shadow of a test takes the calls that it matches, whatever is excluded and whatever providers bind. Its type is
intercepted in any case, the entry of the type in the registry is the shadow's, and the registry is in force in each
execution of the test, in a sandbox whose dispatcher remembers nothing of other registries that would be wrong now.
-/

namespace Interpose

/-! ## The registry of a test -/

/-- A shadow of a test that no later one of the test replaces. -/
def Overrides.Standing (test : Overrides) (s : Shadow) : Prop :=
  ∃ before after, test.shadows = before ++ s :: after ∧ ∀ s' ∈ after, s'.own.implements ≠ s.own.implements

namespace Harness

variable {past : List Execution} {h : Harness} {test : Overrides} {registry : Registry} {s : Shadow}

/-- A shadow that stands has the entry of its type, whoever else binds the type. -/
theorem Remembers.get?_of_standing (hr : h.Remembers) (hregistry : (h.registryFor test).1 = .ok registry)
    (hs : test.Standing s) : registry.get? s.own.implements = some (.ofShadow s) := by
  obtain ⟨before, after, hshadows, hlater⟩ := hs
  rw [hr.registryFor_eq] at hregistry
  refine (Staging.get?_of_build hregistry).2
    ⟨(h.providers.foldl Staging.addProvider Staging.empty).all ++ before.map .ofShadow, after.map .ofShadow, ?_, rfl,
      fun c hc => ?_⟩
  · rw [staging, Staging.all_foldl_addShadow, hshadows, List.map_append, List.map_cons, List.append_assoc]
  · obtain ⟨s', hs', rfl⟩ := List.mem_map.1 hc
    exact hlater s' hs'

theorem intercepts_of_standing (h : Harness) (hs : test.Standing s) :
    (h.rulesFor test).intercepts s.own.implements = true := by
  obtain ⟨before, after, hshadows, _⟩ := hs
  exact rulesFor_intercepts_iff.2 (.inr (.shadowed (hshadows ▸ List.mem_append_cons_self) rfl))

/-- At a level that such a shadow admits, a normal call on its type goes to its nearest exact match. -/
theorem Remembers.decide_of_standing (hr : h.Remembers) (hregistry : (h.registryFor test).1 = .ok registry)
    (hs : test.Standing s) {level : Nat} (hadmits : s.own.window.admits level = true) {site : CallSite}
    {layer : ShadowLayer} {method : Method} (htype : site.runtimeType = s.own.implements)
    (hnormal : site.request = .normal) (hm : (Binding.ofShadow s).Matches site level layer method) :
    Setting.decide ⟨h.hierarchy, h.rulesFor test, level, registry⟩ site = .ok (.shadow ⟨layer.id, method⟩) := by
  have hforce : registry.inForce? level site.runtimeType = some (.ofShadow s) := by
    rw [Registry.inForce?_eq_some_iff, htype]
    exact ⟨hr.get?_of_standing hregistry hs, hadmits⟩
  refine Setting.decide_of_matches ?_ (Registry.lookup_of_inForce? _ hforce) hnormal hm
  rw [htype]
  exact h.intercepts_of_standing hs

end Harness

/-! ## The registry that an execution has in force -/

/-- Where resetters install no registry, the one that they start with is in force at every moment. -/
theorem ResettersPerform.registry {code : Code} {shadows : List ShadowLayer} {m m' : Machine} {op : Op}
    (h : ResettersPerform code shadows m op m')
    (hnone : ∀ registry at', ¬ResettersPerform code shadows m (.install registry) at') :
    m'.dispatcher.registry = m.dispatcher.registry := by
  induction h with
  | here hr h => exact h.registry fun registry at' hat => hnone registry at' (.here hr hat)
  | @next shadow rest m m₁ _ _ answer hr hdone _ ih =>
    have hkept : (code.run (code.resetter shadow.serial) m).2.dispatcher.registry = m.dispatcher.registry :=
      code.registry_run fun registry at' hat => hnone registry at' (.here hr hat)
    rw [hdone] at hkept
    exact (ih fun registry at' hat => hnone registry at' (.next hr hdone hat)).trans hkept
  | skip hr _ ih => exact ih fun registry at' hat => hnone registry at' (.skip hr hat)

namespace Execution

variable {e : Execution} {past : List Execution} {op : Op} {m : Machine}

/-- Nothing that runs in an execution puts another registry in force. -/
def InstallsNone (e : Execution) : Prop := ∀ registry m, ¬e.Performs (.install registry) m

theorem start_dispatcher (hs : Untouched past e.sandbox) :
    e.start.dispatcher = (e.sandbox.dispatcher.install e.registry).2 := by
  unfold start
  rw [Sandbox.install_eq hs.poisoned hs.stage]
  rfl

/-- Where nothing installs another, the registry of the execution is in force at every moment. -/
theorem Performs.registry (h : e.Performs op m) (hnone : e.InstallsNone) (hs : Untouched past e.sandbox) :
    m.dispatcher.registry = e.registry := by
  have hstart : e.start.dispatcher.registry = e.registry := by
    rw [start_dispatcher hs]
    rfl
  cases h with
  | task h => exact (h.registry fun registry at' hat => hnone registry at' (.task hat)).trans hstart
  | resetter hended h =>
    have htask : e.taskRun.2.dispatcher.registry = e.start.dispatcher.registry :=
      e.code.registry_run fun registry at' hat => hnone registry at' (.task hat)
    have hreset := h.registry fun registry at' hat => hnone registry at' (.resetter hended hat)
    exact hreset.trans (htask.trans hstart)

/-- At every moment the dispatcher decides by the key of the sandbox, and what it remembers is right. -/
theorem Performs.setting (h : e.Performs op m) (hs : Untouched past e.sandbox) (hfaithful : e.sandbox.Faithful) :
    m.dispatcher.Sound ∧ m.dispatcher.setting =
      ⟨e.sandbox.hierarchy, e.sandbox.key.rules, e.sandbox.key.level, m.dispatcher.registry⟩ := by
  have hsetting := h.reaches.setting
  refine ⟨h.reaches.sound ?_, ?_⟩
  · rw [start_dispatcher hs]
    exact hfaithful.sound.install _
  · rw [hsetting, start_dispatcher hs, Dispatcher.install_setting, hfaithful.setting]

end Execution

/-- A call that is decided to go to a shadow method comes to running it. -/
theorem Machine.call_arrives_at_shadow {m : Machine} {site : CallSite} {target : Target} {receiver : Receiver}
    {method : String} {arguments : List Value} {request : Request}
    (hanswer : (m.dispatcher.resolve site).answer = .ok (.shadow target))
    (hsite : m.siteOf receiver method arguments request = .ok site) (hbody : target.method.hasBody = true) :
    m.Arrives target.method ⟨receiver, site.runtimeType, method, arguments⟩ fun run =>
      call run receiver method arguments request m := by
  refine ⟨_, still_resolve m site, fun run => ?_⟩
  unfold call
  simp only [hsite, hanswer]
  exact start_of_hasBody hbody run _ _

/-! ## The main result -/

namespace Harness

variable {past : List Execution} {h : Harness}

theorem History.exists_untouched (hist : History h past) {e : Execution} (he : e ∈ past) :
    ∃ before, Untouched before e.sandbox := by
  obtain ⟨i, hi⟩ := List.mem_iff_getElem?.1 he
  exact ⟨_, hist.tracks.recorded i e hi⟩

/-- Take a harness with any history, providers and rules, any test whose levels and registry are valid, and a shadow of
this test that no later one of the test replaces. There is an execution at each of the chosen levels, up to the last
one if the run returns, with the registry of the test in force at every moment unless running code installs another.
At a level that the shadow admits, take a normal call on the type that the shadow implements, with an exact match in the
shadow or in the parents that it inherits methods from, which is the only one in the nearest layer that has any. The
call is decided to go to this match, whatever is excluded and whoever else binds the type or its ancestors; so it is
resolved at every moment of the execution at this level at which the registry is in force, whatever the sandbox was
used for before; and making the call then comes to running the body of the method once. -/
theorem local_shadow_takes_effect (hist : History h past) (code : Code) (test : Overrides)
    (task : Program (Except Error Value)) {levels : List Nat} {registry : Registry}
    (hlevels : test.levels.select h.settings.supportedLevels h.settings.defaultLevel = .ok levels)
    (hregistry : (h.registryFor test).1 = .ok registry) {s : Shadow} (hs : test.Standing s) :
    let executions := h.executions code test task
    let keys := levels.map fun level => (⟨h.rulesFor test, level⟩ : SandboxKey)
    executions.map (·.sandbox.key) <+: keys ∧
    ((∃ result, (h.run code test task).1 = .done result) → executions.map (·.sandbox.key) = keys) ∧
    (∀ e ∈ executions, e.start.dispatcher.registry = registry ∧
      (e.InstallsNone → ∀ op m, e.Performs op m → m.dispatcher.registry = registry)) ∧
    ∀ level, s.own.window.admits level = true → ∀ site layer method, site.runtimeType = s.own.implements →
      site.request = .normal → (Binding.ofShadow s).Matches site level layer method →
        Setting.decide ⟨h.hierarchy, h.rulesFor test, level, registry⟩ site = .ok (.shadow ⟨layer.id, method⟩) ∧
        ∀ e ∈ executions, e.sandbox.key.level = level →
          ∀ op m, e.Performs op m → m.dispatcher.registry = registry →
            (m.dispatcher.resolve site).answer = .ok (.shadow ⟨layer.id, method⟩) ∧
            ∀ receiver arguments, m.siteOf receiver site.method.name arguments .normal = .ok site →
              method.hasBody = true →
                m.Arrives method ⟨receiver, s.own.implements, site.method.name, arguments⟩ fun run =>
                  Machine.call run receiver site.method.name arguments .normal m := by
  intro executions keys
  obtain ⟨u, hu, rfl⟩ := hist.exists_used
  obtain ⟨_, hfor, hkeys, hconcludes⟩ := run_spec hu.books hu.history.tracks code test task hlevels hregistry
  have hafter := hist.run code test task
  have huntouched : ∀ e ∈ executions, ∃ before, Untouched before e.sandbox := fun e he =>
    hafter.exists_untouched (List.mem_append_right _ he)
  have hfaithful : ∀ e ∈ executions, e.sandbox.Faithful ∧ e.sandbox.hierarchy = h.hierarchy := by
    intro e he
    have hlasts := (hafter.lasting (Sandbox.lasting_faithful _)).2 e (List.mem_append_right _ he)
    rwa [hierarchy_run] at hlasts
  refine ⟨hkeys, fun ⟨result, hresult⟩ => hkeys.eq_of_length ?_, fun e he => ⟨?_, fun hnone op m hm => ?_⟩, ?_⟩
  · obtain ⟨outcomes, _, houtcomes, htells⟩ := hconcludes.outcomes hresult
    rw [List.length_map, List.length_map, htells.length_eq, ← houtcomes, List.length_map]
  · obtain ⟨before, hbefore⟩ := huntouched e he
    rw [Execution.start_dispatcher hbefore]
    exact (hfor e he).registry
  · obtain ⟨before, hbefore⟩ := huntouched e he
    exact (hm.registry hnone hbefore).trans (hfor e he).registry
  · intro level hadmits site layer method htype hnormal hmatches
    have hdecided := hist.remembers.decide_of_standing hregistry hs hadmits htype hnormal hmatches
    refine ⟨hdecided, fun e he hlevel op m hm hforce => ?_⟩
    obtain ⟨before, hbefore⟩ := huntouched e he
    obtain ⟨hown, hhierarchy⟩ := hfaithful e he
    obtain ⟨hsound, hsetting⟩ := hm.setting hbefore hown
    obtain ⟨level', _, hkey⟩ := List.mem_map.1 (hkeys.subset (List.mem_map_of_mem he))
    rw [hhierarchy, hlevel, hforce, ← hkey] at hsetting
    have hanswer : (m.dispatcher.resolve site).answer = .ok (.shadow ⟨layer.id, method⟩) := by
      rw [hsound.resolve_answer, hsetting]
      exact hdecided
    refine ⟨hanswer, fun receiver arguments hsite hbody => ?_⟩
    rw [← htype]
    exact Machine.call_arrives_at_shadow hanswer hsite hbody

end Harness

end Interpose

/-! ## Against a provider, an exclusion and an earlier test -/

namespace Interpose.Sample

/-- A shadow of views that is not the one of the provider. -/
def ownView : Shadow :=
  .alone { shadowView.own with id := "OwnView", methods := [{ draw with serial := 2 }], serial := 1 }

/-- A test that brings the shadow of the provider. -/
def once : Overrides := { Overrides.none with shadows := [shadowView] }

/-- A test that brings the shadow of the provider and then its own. -/
def twice : Overrides := { Overrides.none with shadows := [shadowView, ownView] }

/-- Makes a view and draws it. -/
def drawView : Program (Except Error Value) :=
  .perform (.create "View") fun
    | .ok handle => .ask (.call (.instance handle) "draw" [] .normal)
    | .error e => .done (.error e)

/-- The harness after views were drawn with the shadow of the provider. -/
def reboundAfter : Harness := (rebound.run code once drawView).2

/-- The execution in which a view is drawn again, though views are excluded and a provider binds them. -/
def viewDrawn : Execution := (reboundAfter.executions code twice drawView)[0]

/-- The moment at which it is drawn. -/
def viewReady : Machine := (Machine.perform (code.runBody code.depth) (.create "View") viewDrawn.start).2

theorem viewDrawn_performs : viewDrawn.Performs (.call (.instance ⟨1, 1⟩) "draw" [] .normal) viewReady := by
  have htask : viewDrawn.task = drawView := rfl
  have hcreate : Machine.perform (viewDrawn.code.runBody viewDrawn.code.depth) (.create "View") viewDrawn.start =
      (.done (.ok ⟨1, 1⟩), viewReady) := rfl
  refine .task ?_
  rw [htask]
  exact .later hcreate .now

end Interpose.Sample

namespace Interpose.Harness

open Sample

/-- In the sandbox of the earlier test, the call runs the method of the test's own shadow. -/
theorem local_shadow_takes_effect_rebound :
    viewDrawn ∈ reboundAfter.executions code twice drawView ∧ viewDrawn.sandbox.runs = 1 ∧
      viewDrawn.Performs (.call (.instance ⟨1, 1⟩) "draw" [] .normal) viewReady ∧
      viewReady.Arrives { draw with serial := 2 } ⟨.instance ⟨1, 1⟩, "View", "draw", []⟩ fun run =>
        Machine.call run (.instance ⟨1, 1⟩) "draw" [] .normal viewReady := by
  obtain ⟨registry, hregistry⟩ : ∃ registry, (reboundAfter.registryFor twice).1 = .ok registry := ⟨_, rfl⟩
  have hselect :
      twice.levels.select reboundAfter.settings.supportedLevels reboundAfter.settings.defaultLevel = .ok [28] := by
    decide
  have hstanding : twice.Standing ownView := ⟨[shadowView], [], rfl, fun _ hs => by cases hs⟩
  have hmem : viewDrawn ∈ reboundAfter.executions code twice drawView := List.getElem_mem _
  obtain ⟨_, _, hforce, htakes⟩ := local_shadow_takes_effect (history_rebound.run code once drawView) code twice
    drawView hselect hregistry hstanding
  have hmatches : (Binding.ofShadow ownView).Matches ⟨"View", ⟨"draw", []⟩, false, .normal⟩ 28 ownView.own
      { draw with serial := 2 } :=
    ⟨⟨rfl, rfl, rfl, by decide⟩, ⟨[], [], rfl, fun _ hl => by cases hl⟩, ⟨[], [], rfl, fun _ hm => by cases hm⟩⟩
  obtain ⟨_, hrouted⟩ := htakes 28 (by decide) ⟨"View", ⟨"draw", []⟩, false, .normal⟩ ownView.own _ rfl rfl hmatches
  have hregistered : viewReady.dispatcher.registry = registry := (hforce viewDrawn hmem).1
  obtain ⟨_, harrives⟩ := hrouted viewDrawn hmem (by decide) _ viewReady viewDrawn_performs hregistered
  exact ⟨hmem, by decide, viewDrawn_performs, harrives (.instance ⟨1, 1⟩) [] (by decide) rfl⟩

end Interpose.Harness
