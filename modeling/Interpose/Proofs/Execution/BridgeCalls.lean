import Interpose.Proofs.Dispatch.Winners
import Interpose.Proofs.Execution.Crossing

/-!
# A call by way of a bridge beside a call for the real method

The dispatcher looks for the real method among all declarations and asks afterwards whether the bridge of the type holds
it, while a call by way of the bridge looks among the bridged methods alone. If the winner among all declarations may be
bridged, both find it. Otherwise the dispatcher refuses the call, and the bridge runs a method of other parameters, if
the arguments convert to them. Of a method that is declared twice the bridge holds the first declaration, where the
dispatcher reports an ambiguity.
-/

namespace Interpose

/-! ## The winner among all declarations -/

namespace Criteria

variable {c : Criteria} {h : Hierarchy} {groups : List CandidateGroup}

/-- The method of a contender, with the id of its group. -/
def Contender.target (x : c.Contender groups) : Target := ⟨x.group.1, x.method⟩

theorem best?_of_wins {x : c.Contender groups} (hwins : x.Wins h) : c.best? h (targetsOf groups) = some x.target := by
  rw [← winner?_map, winner?_eq_some_iff.2 ⟨x, hwins, rfl, rfl⟩]
  rfl

section Best

variable {targets : List Target} {target : Target} (hbest : c.best? h targets = some target)
include hbest

theorem mem_of_best? : target ∈ targets := by
  obtain ⟨_, hcheapest⟩ := best?_eq_some_iff.1 hbest
  exact hcheapest.mem

theorem name_of_best? : target.method.name = c.method.name := by
  obtain ⟨_, hcheapest⟩ := best?_eq_some_iff.1 hbest
  have hconsiders := considers_of_rank?_eq_some hcheapest.cost_eq
  simp only [considers, Bool.and_eq_true, beq_iff_eq] at hconsiders
  exact hconsiders.1.1

/-- Where some of the targets take a call, there is a winner among all of them. -/
theorem exists_wins_of_best? (hsub : targets ⊆ targetsOf groups) : ∃ x : c.Contender groups, x.Wins h := by
  obtain ⟨rank, hcheapest⟩ := best?_eq_some_iff.1 hbest
  by_contra hnone
  have hempty : c.best? h (targetsOf groups) = none := by
    rw [← winner?_map, winner?_eq_none_iff.2 hnone]
    rfl
  have hcost := cheapest?_eq_none_iff.1 (Option.map_eq_none_iff.1 hempty) target (hsub hcheapest.mem)
  exact absurd (hcheapest.cost_eq.symm.trans hcost) (Option.some_ne_none rank)

end Best

end Criteria

namespace Bridge

variable {s : Setting} {typeId : String} {bridge : Bridge} {target : Target} {c : Criteria}
  {x : c.Contender (s.realGroups typeId)}

theorem nearest_of_mem_targets {h : Hierarchy} {level : Nat} (hb : synthesize h level typeId = .ok bridge)
    (ht : target ∈ bridge.targets) : target ∈ firstPerKey (·.method.key) (visible h level typeId) := by
  rw [synthesize_eq_ok hb] at ht
  exact List.mem_of_mem_filter ht

theorem targets_subset (hb : synthesize s.hierarchy s.level typeId = .ok bridge) :
    bridge.targets ⊆ targetsOf (s.realGroups typeId) := by
  intro target ht
  have hvisible := mem_of_mem_firstPerKey (nearest_of_mem_targets hb ht)
  rw [visible_eq_filter] at hvisible
  exact List.mem_of_mem_filter hvisible

/-- The bridge selects the winner among all declarations if that one may be bridged. -/
theorem best?_of_wins (hb : synthesize s.hierarchy s.level typeId = .ok bridge) (hstatic : c.isStatic = false)
    (hlevel : c.level = s.level) (hwins : x.Wins s.hierarchy) (hx : x.method.isBridgeable = true) :
    c.best? s.hierarchy bridge.targets = some x.target := by
  have hbest := Criteria.best?_of_wins hwins
  obtain ⟨_, hnearest⟩ := cheapestIn_nearest hstatic hlevel hbest
  exact best?_targets hb hstatic hlevel hbest ((exposes_nearest hb hnearest.mem).trans hx)

/-- If the winner among all declarations may not be bridged, what the bridge selects has other parameters: no farther
declaration of the winner's signature is in the bridge. -/
theorem params_ne_of_wins (hb : synthesize s.hierarchy s.level typeId = .ok bridge) (hstatic : c.isStatic = false)
    (hlevel : c.level = s.level) (hwins : x.Wins s.hierarchy) (hx : x.method.isBridgeable = false)
    (hbest : c.best? s.hierarchy bridge.targets = some target) : target.method.params ≠ x.method.params := by
  intro hparams
  obtain ⟨_, hnearest⟩ := cheapestIn_nearest hstatic hlevel (Criteria.best?_of_wins hwins)
  have hmem := Criteria.mem_of_best? hbest
  have hname : target.method.name = x.method.name := (Criteria.name_of_best? hbest).trans x.name_eq.symm
  have hkey : target.method.key = x.target.method.key := congrArg₂ MethodKey.mk hname hparams
  have heq : target = x.target :=
    List.inj_on_of_nodup_map (nodup_keys_firstPerKey _) (nearest_of_mem_targets hb hmem) hnearest.mem hkey
  have hbridgeable := isBridgeable_of_mem_targets hb hmem
  rw [heq] at hbridgeable
  exact Bool.eq_false_iff.1 hx hbridgeable

/-- A type that has a bridge is declared and may be extended. -/
theorem extensible_of_synthesize {h : Hierarchy} {level : Nat} (hb : synthesize h level typeId = .ok bridge) :
    ∃ decl, h.require typeId = .ok decl ∧ decl.isFinal = false := by
  unfold synthesize at hb
  split at hb
  · cases hb
  · rename_i decl hdecl
    split at hb
    · cases hb
    · rename_i hfinal
      exact ⟨decl, hdecl, Bool.eq_false_iff.2 hfinal⟩

end Bridge

/-! ## What the dispatcher decides -/

namespace Setting

variable {s : Setting} {site : CallSite} {decl : TypeDecl} {b : Binding}
  {x : (s.criteria site true).Contender (s.realGroups site.runtimeType)}

theorem decide_of_repeated (hr : site.request = .real) (hwins : x.Wins s.hierarchy) (hx : x.Repeated) :
    s.decide site = .error (x.ambiguity site.runtimeType) :=
  ((serves_decide_of_real hr).error_iff _).2 (Criteria.select_of_repeated hwins hx _)

theorem goesOn_of_wins (hr : site.request = .real) (hstatic : site.isStatic = false)
    (hgoverned : (s.governing site.runtimeType).binding? = some b) (hwins : x.Wins s.hierarchy) (hx : ¬x.Repeated) :
    s.GoesOn site b x.target := by
  have hintercepted : s.rules.intercepts site.runtimeType = true := by
    by_contra hi
    rw [governing, if_neg hi] at hgoverned
    cases hgoverned
  rw [governing, if_pos hintercepted] at hgoverned
  refine ⟨hstatic, hintercepted, hgoverned, fun hnormal => ?_, .inr hr, Criteria.select_of_wins hwins hx _⟩
  rw [hr] at hnormal
  cases hnormal

section Extensible

variable (hr : site.request = .real) (hstatic : site.isStatic = false)
  (hdecl : s.hierarchy.require site.runtimeType = .ok decl) (hfinal : decl.isFinal = false)
  (hwins : x.Wins s.hierarchy)
include hr hstatic hdecl hfinal hwins

/-- How a call on an object that asks for the real method is decided where the type may be extended and the winner is
declared once. -/
theorem decide_of_wins (hx : ¬x.Repeated) :
    s.decide site =
      .ok (if (s.governing site.runtimeType).binding?.isNone then direct x.target
        else if x.method.isBridgeable then .through x.target true else .refuse .notBridgeable) := by
  cases hgoverned : (s.governing site.runtimeType).binding? with
  | none =>
    have hselected : s.realTarget site = .ok (some x.target) := Criteria.select_of_wins hwins hx _
    rw [decide_of_unbound hgoverned, passThrough, hselected]
    rfl
  | some b =>
    rw [(goesOn_of_wins hr hstatic hgoverned hwins hx).decision hdecl, hfinal]
    rfl

/-- When such a call goes across the bridge, and to which method. -/
theorem decide_across_iff (other : Target) :
    s.decide site = .ok (.through other true) ↔
      (s.governing site.runtimeType).binding?.isSome = true ∧ ¬x.Repeated ∧ x.method.isBridgeable = true ∧
        other = x.target := by
  by_cases hx : x.Repeated
  · rw [decide_of_repeated hr hwins hx]
    exact iff_of_false (fun h => by cases h) fun h => h.2.1 hx
  rw [decide_of_wins hr hstatic hdecl hfinal hwins hx, Except.ok.injEq]
  cases (s.governing site.runtimeType).binding? with
  | none => exact iff_of_false (direct_ne x.target other) fun h => Bool.false_ne_true h.1
  | some b =>
    cases hbridgeable : x.method.isBridgeable with
    | true =>
      constructor
      · intro hthrough
        cases hthrough
        exact ⟨rfl, hx, rfl, rfl⟩
      · rintro ⟨_, _, _, rfl⟩
        rfl
    | false => exact iff_of_false Decision.noConfusion fun h => Bool.false_ne_true h.2.2.1

end Extensible

end Setting

/-! ## Both calls -/

namespace Sample

/-- Draws at a position that may be wide. -/
def drawWide : Method := ⟨"draw", [.primitive .i64], .primitive .i32, .none, .unbounded, true, 2⟩

def drawNarrow : Method :=
  { drawWide with params := [.primitive .i32], modifiers := { Modifiers.none with isFinal := true }, serial := 3 }

/-- A view draws at wide positions, and a button has a method of its own for narrow ones, which is final. -/
def narrowing : Hierarchy :=
  ⟨KeyMap.ofList [("Button", { button with methods := [drawNarrow] }), ("View", { view with methods := [drawWide] })],
    by decide⟩

/-- A machine with a button, after views were shadowed. -/
def narrowed : Machine :=
  let d := (Dispatcher.new narrowing .none 30).after [.install registry]
  let memory := (code.run (.ask (.create "Button")) ⟨1, d, Memory.blank.load narrowing, .empty⟩).2.memory
  ⟨1, d, memory, .empty⟩

end Sample

namespace Machine

variable {m : Machine} {handle : ObjectHandle} {method : String} {arguments : List Value} {request : Request}
  {site : CallSite} {bridge : Bridge} {target : Target}

theorem modes_of_siteOf_instance (h : m.siteOf (.instance handle) method arguments request = .ok site) :
    site.isStatic = false ∧ site.request = request := modes_of_siteOf h

/-- What the bridge of the object's type selects is run, with the frame of the call. -/
theorem callByBridge_arrives (hsound : m.dispatcher.Sound)
    (hsite : m.siteOf (.instance handle) method arguments request = .ok site)
    (hanswer : (m.dispatcher.bridgeFor site.runtimeType).answer = .ok bridge)
    (hselect : (⟨site.method, false, bridge.level, true⟩ : Criteria).select m.hierarchy bridge.groups
      site.runtimeType = .ok (some target)) :
    m.Arrives target.method ⟨.instance handle, site.runtimeType, method, arguments⟩ fun run =>
      (Program.callByBridge site.runtimeType handle method arguments).runWith run m := by
  have hb := (hsound.bridgeFor_answer site.runtimeType).symm.trans hanswer
  have hbest := Except.ok.inj ((Bridge.select_groups _ _ _ _).symm.trans hselect)
  have hbody := Method.hasBody_of_isBridgeable (Bridge.isBridgeable_of_mem_targets hb (Criteria.mem_of_best? hbest))
  have hname : target.method.name = method := (Criteria.name_of_best? hbest).trans (siteOf_instance_eq_ok hsite).2.2
  refine ⟨_, still_bridgeFor m site.runtimeType, fun run => ?_⟩
  have hcall := callBridge_of_bridge_selects hsite hb hselect hbody run
  rw [hname] at hcall
  exact (Program.runWith_callByBridge hanswer run handle method arguments).trans hcall

/-- Take any machine whose dispatcher went through any run, and a call by way of the bridge of the object's type for
which the bridge selects a method. That method is run. For the same call the dispatcher, asked for the real method,
starts from the winner among all declarations of the type and its ancestors. The bridge selected this winner if it may
be bridged, and a method of other parameters if not. The dispatcher reports an ambiguity if the winner is declared
twice. Otherwise it goes straight to the winner on a type that falls under no binding, and on a bound type it goes
across the bridge to the winner or refuses one that may not be bridged. So it goes across the bridge just where the
type is bound and the winner is declared once and may be bridged, and then to the method that the bridge selected. -/
theorem bridge_call_beside_real_call (h : Hierarchy) (rules : Rules) (level : Nat) (steps : List Dispatcher.Step)
    (id : Nat) (memory : Memory) (j : Journal) (handle : ObjectHandle) (method : String) (arguments : List Value)
    (site : CallSite) (bridge : Bridge) (target : Target) :
    let m : Machine := ⟨id, (Dispatcher.new h rules level).after steps, memory, j⟩
    let s : Setting := ⟨h, rules, level, Dispatcher.lastInstalled steps⟩
    let answer := (m.dispatcher.resolve site).answer
    let binding? := (s.governing site.runtimeType).binding?
    m.siteOf (.instance handle) method arguments .real = .ok site →
    (m.dispatcher.bridgeFor site.runtimeType).answer = .ok bridge →
    (⟨site.method, false, bridge.level, true⟩ : Criteria).select h bridge.groups site.runtimeType = .ok (some target) →
    (m.Arrives target.method ⟨.instance handle, site.runtimeType, method, arguments⟩ fun run =>
      (Program.callByBridge site.runtimeType handle method arguments).runWith run m) ∧
    ∃ x : (s.criteria site true).Contender (s.realGroups site.runtimeType), x.Wins h ∧
      (x.method.isBridgeable = true → target = x.target) ∧
      (x.method.isBridgeable = false → target.method.params ≠ x.method.params) ∧
      (x.Repeated → answer = .error (x.ambiguity site.runtimeType)) ∧
      (¬x.Repeated → answer =
        .ok (if binding?.isNone then Setting.direct x.target
          else if x.method.isBridgeable then .through x.target true else .refuse .notBridgeable)) ∧
      ∀ other, answer = .ok (.through other true) ↔
        binding?.isSome = true ∧ ¬x.Repeated ∧ x.method.isBridgeable = true ∧ other = target := by
  intro m s answer binding? hsite hanswer hselect
  have hsound : m.dispatcher.Sound := (Dispatcher.sound_new h rules level).after steps
  have hsetting : m.dispatcher.setting = s := Dispatcher.after_new_setting h rules level steps
  have hhierarchy : m.hierarchy = h := congrArg Setting.hierarchy hsetting
  have hb : Bridge.synthesize s.hierarchy s.level site.runtimeType = .ok bridge := by
    rw [← hsetting, ← hsound.bridgeFor_answer]
    exact hanswer
  obtain ⟨decl, hdecl, hfinal⟩ := Bridge.extensible_of_synthesize hb
  obtain ⟨hstatic, hreal⟩ := modes_of_siteOf_instance hsite
  have hdecided : answer = s.decide site := Dispatcher.resolve_after h rules level steps site
  have hcriteria : (⟨site.method, false, bridge.level, true⟩ : Criteria) = s.criteria site true := by
    rw [Bridge.synthesize_eq_ok hb, Setting.criteria, hstatic]
  have hbest : (s.criteria site true).best? s.hierarchy bridge.targets = some target := by
    rw [hcriteria, Bridge.select_groups] at hselect
    exact Except.ok.inj hselect
  obtain ⟨x, hwins⟩ := Criteria.exists_wins_of_best? hbest (Bridge.targets_subset hb)
  have hsame : x.method.isBridgeable = true → target = x.target := fun hx =>
    Option.some.inj (hbest.symm.trans (Bridge.best?_of_wins hb hstatic rfl hwins hx))
  refine ⟨callByBridge_arrives hsound hsite hanswer (hhierarchy ▸ hselect), x, hwins, hsame,
    fun hx => Bridge.params_ne_of_wins hb hstatic rfl hwins hx hbest,
    fun hx => hdecided.trans (Setting.decide_of_repeated hreal hwins hx),
    fun hx => hdecided.trans (Setting.decide_of_wins hreal hstatic hdecl hfinal hwins hx), fun other => ?_⟩
  rw [hdecided, Setting.decide_across_iff hreal hstatic hdecl hfinal hwins other]
  refine and_congr_right fun _ => and_congr_right fun _ => and_congr_right fun hbridgeable => ?_
  rw [hsame hbridgeable]

/-- At a wide position the method of the view wins and is run, and the dispatcher goes to it across the bridge. -/
theorem bridge_call_beside_real_call_wide :
    let site : CallSite := ⟨"Button", ⟨"draw", [.primitive .i64]⟩, false, .real⟩
    let s : Setting := ⟨Sample.narrowing, .none, 30, Sample.registry⟩
    (Sample.narrowed.Arrives Sample.drawWide ⟨.instance ⟨1, 0⟩, "Button", "draw", [.i64 5]⟩ fun run =>
      (Program.callByBridge "Button" ⟨1, 0⟩ "draw" [.i64 5]).runWith run Sample.narrowed) ∧
    (Sample.narrowed.dispatcher.resolve site).answer = .ok (.through ⟨"View", Sample.drawWide⟩ true) ∧
    ∃ x : (s.criteria site true).Contender (s.realGroups "Button"),
      x.Wins Sample.narrowing ∧ ¬x.Repeated ∧ x.target = ⟨"View", Sample.drawWide⟩ := by
  intro site s
  obtain ⟨harrives, x, hwins, hsame, _, _, _, hthrough⟩ := bridge_call_beside_real_call Sample.narrowing .none 30
    [.install Sample.registry] 1 Sample.narrowed.memory .empty ⟨1, 0⟩ "draw" [.i64 5] site
    ⟨"Button", 30, [⟨"View", Sample.drawWide⟩]⟩ ⟨"View", Sample.drawWide⟩ (by decide) (by decide) (by decide)
  have hacross : (Sample.narrowed.dispatcher.resolve site).answer = .ok (.through ⟨"View", Sample.drawWide⟩ true) := by
    decide
  obtain ⟨_, hsingle, hbridgeable, _⟩ := (hthrough _).1 hacross
  exact ⟨harrives, hacross, x, hwins, hsingle, (hsame hbridgeable).symm⟩

/-- At a narrow position the bridge of buttons runs the method of the view for wide ones, while the dispatcher refuses
the final method of the button. -/
theorem bridge_runs_refused_call :
    let site : CallSite := ⟨"Button", ⟨"draw", [.primitive .i32]⟩, false, .real⟩
    let byBridge := Sample.code.run (.callByBridge "Button" ⟨1, 0⟩ "draw" [.i32 5]) Sample.narrowed
    (Sample.narrowed.dispatcher.setting.governing "Button").binding?.isSome = true ∧
    Sample.narrowed.siteOf (.instance ⟨1, 0⟩) "draw" [.i32 5] .real = .ok site ∧
    byBridge.1 = .done (.ok (.i32 7)) ∧
    byBridge.2.journal.started.head?.map (·.serial) = some Sample.drawWide.serial ∧
    (Sample.narrowed.dispatcher.resolve site).answer = .ok (.refuse .notBridgeable) := by
  intro site byBridge
  refine ⟨?_, ?_, ?_, ?_, ?_⟩
  all_goals decide

end Machine

end Interpose
