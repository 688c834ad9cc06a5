import Interpose.Proofs.Dispatch.Holdings
import Interpose.Proofs.Dispatch.Origins
import Interpose.Proofs.Dispatch.Transparency
import Interpose.Proofs.Execution.Crossing

/-!
# Which targets a bridge lets through

A bridge is asked for a target by owner and signature, and runs the body of the target that it was given. A real method
that was selected for an object is the only one of its owner, signature and modes, so if it is let through the bridge
holds it. That is all that keeps other bodies out: a static method of the same owner and signature as a bridged one is
let through as well, and so is a method of a shadow that bears the name of the type.
-/

namespace Interpose

/-- A real method selected for an object, if exposed by the bridge of any type, is in that bridge. -/
theorem Setting.mem_targets_of_selected {s : Setting} {site : CallSite} {target : Target} {typeId : String}
    {bridge : Bridge} (hstatic : site.isStatic = false) (ht : s.realTarget site = .ok (some target))
    (hb : Bridge.synthesize s.hierarchy s.level typeId = .ok bridge) (he : bridge.exposes target = true) :
    target ∈ bridge.targets := by
  obtain ⟨x, hx, howner, hkey⟩ := (Bridge.exposes_iff hb).1 he
  obtain ⟨w, _, hsingle, rfl⟩ := Criteria.exists_wins_of_select ht
  -- Both are declared by one type, where the selected one has no rival.
  obtain ⟨⟨owner, decl⟩, hlineage, hgroup⟩ := List.mem_map.1 (List.mem_of_getElem? w.group_at)
  have hdecl : s.hierarchy.get? w.group.1 = some decl := by
    rw [← hgroup]
    exact (Hierarchy.mem_lineage_iff.1 hlineage).2
  obtain ⟨decl', hdecl', hplace⟩ := hx.made
  have hsame : decl' = decl := by
    rw [howner, hdecl] at hdecl'
    exact (Option.some.inj hdecl').symm
  have hmem : x.method ∈ w.group.2 := by
    rw [← hgroup, ← hsame]
    exact List.mem_of_getElem? hplace
  have hname : x.method.name = w.method.name := congrArg MethodKey.name hkey
  have hconsiders : (s.criteria site true).considers x.method = true := by
    have hstatic' : (s.criteria site true).isStatic = false := hstatic
    have hlevel : x.method.availableAt (s.criteria site true).level = true := hx.available
    rw [Criteria.considers, hname, w.name_eq, hx.isInstance, hstatic', hlevel]
    simp
  have hmethod : x.method = w.method := w.eq_of_not_repeated hsingle hmem hconsiders (congrArg MethodKey.params hkey)
  refine (Bridge.mem_targets_iff hb).2 ⟨x, hx, ?_⟩
  rw [Declaration.target, howner, hmethod]

theorem Bridge.exposes_of_mem {bridge : Bridge} {target : Target} (h : target ∈ bridge.targets) :
    bridge.exposes target = true :=
  List.any_eq_true.2 ⟨target, h, by simp⟩

namespace Setting.Origin

variable {s : Setting} {site : CallSite} {decision : Decision} {target : Target}

/-- What is not the method of a shadow was selected among the real methods. -/
theorem selected (ho : s.Origin site decision) (htarget : decision.target? = some target)
    (hshadow : decision ≠ .shadow target) : s.realTarget site = .ok (some target) := by
  cases ho with
  | shadow _ _ =>
    cases htarget
    exact absurd rfl hshadow
  | straight ht _ =>
    cases htarget
    exact ht
  | across _ ht _ _ =>
    cases htarget
    exact ht
  | noOp _ => cases htarget
  | refuse _ => cases htarget

/-- A target is static as the call is. -/
theorem isStatic_eq (ho : s.Origin site decision) (htarget : decision.target? = some target) :
    target.method.isStatic = site.isStatic := by
  cases ho with
  | shadow _ ht =>
    cases htarget
    exact Criteria.isStatic_of_select ht
  | straight ht _ =>
    cases htarget
    exact Criteria.isStatic_of_select ht
  | across _ ht _ _ =>
    cases htarget
    exact Criteria.isStatic_of_select ht
  | noOp _ => cases htarget
  | refuse _ => cases htarget

end Setting.Origin

namespace Machine

variable {m : Machine} {bridge : Bridge} {handle : ObjectHandle} {target : Target} {runtimeType : String}

/-- What it takes for a bridge to run a target on an object: the object fits the bridge, the bridge exposes the target,
and the target has a body. -/
structure Admits (m : Machine) (bridge : Bridge) (handle : ObjectHandle) (target : Target) (runtimeType : String) :
    Prop where
  typed : m.memory.typeOf handle = .ok runtimeType
  fits : m.hierarchy.isSubtype runtimeType bridge.real = true
  exposed : bridge.exposes target = true
  hasBody : target.method.hasBody = true

theorem bridgedType_eq_ok_iff {method : String} : m.bridgedType bridge handle method = .ok runtimeType ↔
    m.memory.typeOf handle = .ok runtimeType ∧ m.hierarchy.isSubtype runtimeType bridge.real = true := by
  unfold bridgedType
  cases m.memory.typeOf handle with
  | error e => exact iff_of_false (fun h => by cases h) fun h => by cases h.1
  | ok typeId =>
    simp only
    split
    · rename_i hfits
      exact ⟨fun h => ⟨h, Except.ok.inj h ▸ hfits⟩, And.left⟩
    · rename_i hno
      refine iff_of_false (fun h => by cases h) ?_
      rintro ⟨h, hfits⟩
      exact hno (Except.ok.inj h ▸ hfits)

/-- An admitted target is run, whatever body it has. -/
theorem Admits.arrives (ha : m.Admits bridge handle target runtimeType) (arguments : List Value) :
    m.Arrives target.method ⟨.instance handle, runtimeType, target.method.name, arguments⟩ fun run =>
      callTarget run bridge handle target arguments m := by
  have hfits : m.bridgedType bridge handle target.method.name = .ok runtimeType :=
    bridgedType_eq_ok_iff.2 ⟨ha.typed, ha.fits⟩
  refine ⟨m, .refl m, fun run => ?_⟩
  unfold callTarget
  simp only [hfits, ha.exposed, if_true, start_of_hasBody ha.hasBody]

/-- A target that is not admitted is answered with an error at once. -/
theorem callTarget_of_not_admits (hno : ¬∃ runtimeType, m.Admits bridge handle target runtimeType)
    (arguments : List Value) :
    ∃ e, ∀ run, callTarget run bridge handle target arguments m = (.done (.error e), m) := by
  unfold callTarget
  cases hfits : m.bridgedType bridge handle target.method.name with
  | error e => exact ⟨e, fun _ => rfl⟩
  | ok runtimeType =>
    cases he : bridge.exposes target with
    | false => exact ⟨_, fun _ => rfl⟩
    | true =>
      cases hbody : target.method.hasBody with
      | false =>
        refine ⟨.refused runtimeType target.method.signature .noImplementation, fun run => ?_⟩
        simp only [start, hbody, if_true, Bool.false_eq_true, if_false]
      | true =>
        obtain ⟨htyped, hsubtype⟩ := bridgedType_eq_ok_iff.1 hfits
        exact absurd ⟨runtimeType, htyped, hsubtype, he, hbody⟩ hno

/-- Take any target that a dispatcher yields after any run, and the bridge of any type. The bridge exposes the target
exactly if it holds a method of its owner and signature. A real method for objects is therefore exposed exactly if the
bridge holds it, while a static method and one that may not be bridged are never held. To call the target by way of the
bridge runs its body once if the object fits the bridge and the target is exposed and has a body, and is answered with
an error at once if not. So where the target is a real method for objects no body runs but one that the bridge holds. -/
theorem yielded_target_by_bridge (h : Hierarchy) (rules : Rules) (level : Nat) (steps : List Dispatcher.Step)
    (site : CallSite) (decision : Decision) (target : Target) (typeId : String) (bridge : Bridge) :
    (((Dispatcher.new h rules level).after steps).resolve site).answer = .ok decision →
    decision.target? = some target →
    Bridge.synthesize h level typeId = .ok bridge →
    (bridge.exposes target = true ↔ ∃ x : Declaration, x.Bridged h level typeId ∧ x.owner = target.owner ∧
      x.method.key = target.method.key) ∧
    (target ∈ bridge.targets ↔ ∃ x : Declaration, x.Bridged h level typeId ∧ x.target = target) ∧
    (site.isStatic = false → decision ≠ .shadow target → (bridge.exposes target = true ↔ target ∈ bridge.targets)) ∧
    (site.isStatic = true → target ∉ bridge.targets) ∧
    (target.method.isBridgeable = false → target ∉ bridge.targets) ∧
    ∀ (m : Machine) (handle : ObjectHandle) (arguments : List Value),
      (∀ runtimeType, m.Admits bridge handle target runtimeType →
        (m.Arrives target.method ⟨.instance handle, runtimeType, target.method.name, arguments⟩ fun run =>
          callTarget run bridge handle target arguments m) ∧
        (site.isStatic = false → decision ≠ .shadow target →
          ∃ x : Declaration, x.Bridged h level typeId ∧ x.target = target)) ∧
      ((¬∃ runtimeType, m.Admits bridge handle target runtimeType) →
        ∃ e, ∀ run, callTarget run bridge handle target arguments m = (.done (.error e), m)) := by
  intro hanswer htarget hb
  let s : Setting := ⟨h, rules, level, Dispatcher.lastInstalled steps⟩
  have horigin : s.Origin site decision :=
    Setting.origin_decide ((Dispatcher.resolve_after h rules level steps site).symm.trans hanswer)
  have hbridgeable : target ∈ bridge.targets → target.method.isBridgeable = true := Bridge.isBridgeable_of_mem_targets hb
  have hheld : site.isStatic = false → decision ≠ .shadow target →
      (bridge.exposes target = true ↔ target ∈ bridge.targets) := fun hstatic hshadow =>
    ⟨Setting.mem_targets_of_selected (s := s) hstatic (horigin.selected htarget hshadow) hb, Bridge.exposes_of_mem⟩
  refine ⟨Bridge.exposes_iff hb, Bridge.mem_targets_iff hb, hheld, fun hstatic hmem => ?_, fun hno hmem => ?_,
    fun m handle arguments => ⟨fun runtimeType ha => ⟨ha.arrives arguments, fun hstatic hshadow => ?_⟩,
      fun hno => callTarget_of_not_admits hno arguments⟩⟩
  · have hinstance := (Method.isBridgeable_iff.1 (hbridgeable hmem)).1
    rw [horigin.isStatic_eq htarget, hstatic] at hinstance
    cases hinstance
  · rw [hbridgeable hmem] at hno
    cases hno
  · exact (Bridge.mem_targets_iff hb).1 ((hheld hstatic hshadow).1 ha.exposed)

end Machine

/-! ## A static method beside one for objects -/

namespace Sample

def drawStatic : Method := { draw with modifiers := { Modifiers.none with isStatic := true }, serial := 8 }

/-- A view has two methods of one name and no parameters: a static one, and one for objects. -/
def doubled : Hierarchy := ⟨KeyMap.ofList [("View", { view with methods := [drawStatic, draw] })], by decide⟩

/-- A machine with a view, where nothing is shadowed. -/
def doubledMachine : Machine :=
  let d := Dispatcher.new doubled .none 30
  ⟨1, d, (code.run (.ask (.create "View")) ⟨1, d, Memory.blank.load doubled, .empty⟩).2.memory, .empty⟩

end Sample

namespace Machine

/-- The method of views for objects, selected for a view, is in the bridge of views and is run by it. -/
theorem yielded_target_by_bridge_view :
    let target : Target := ⟨"View", Sample.draw⟩
    let bridge : Bridge := ⟨"View", 30, [target]⟩
    (Sample.doubledMachine.dispatcher.resolve ⟨"View", ⟨"draw", []⟩, false, .normal⟩).answer =
      .ok (.through target false) ∧
    target ∈ bridge.targets ∧
    Sample.doubledMachine.Arrives Sample.draw ⟨.instance ⟨1, 0⟩, "View", "draw", []⟩ fun run =>
      callTarget run bridge ⟨1, 0⟩ target [] Sample.doubledMachine := by
  intro target bridge
  have hanswer : (Sample.doubledMachine.dispatcher.resolve ⟨"View", ⟨"draw", []⟩, false, .normal⟩).answer =
      .ok (.through target false) := by decide
  have hadmits : Sample.doubledMachine.Admits bridge ⟨1, 0⟩ target "View" := ⟨by decide, by decide, by decide, rfl⟩
  obtain ⟨_, hmem, _, _, _, hcall⟩ := yielded_target_by_bridge Sample.doubled .none 30 [] _ _ target "View" bridge
    hanswer rfl (by decide)
  obtain ⟨harrives, hheld⟩ := (hcall Sample.doubledMachine ⟨1, 0⟩ []).1 "View" hadmits
  exact ⟨hanswer, hmem.2 (hheld rfl Decision.noConfusion), harrives⟩

/-- The static method of views, which is not in the bridge of views, is exposed by it and run by it on a view. -/
theorem bridge_runs_static_method :
    let target : Target := ⟨"View", Sample.drawStatic⟩
    let bridge : Bridge := ⟨"View", 30, [⟨"View", Sample.draw⟩]⟩
    let call : Program (Except Error Value) := .ask (.callTarget bridge ⟨1, 0⟩ target [])
    let byBridge := Sample.code.run call Sample.doubledMachine
    (Sample.doubledMachine.dispatcher.resolve ⟨"View", ⟨"draw", []⟩, true, .normal⟩).answer =
      .ok (.through target false) ∧
    Bridge.synthesize Sample.doubled 30 "View" = .ok bridge ∧
    bridge.exposes target = true ∧ target ∉ bridge.targets ∧
    byBridge.1 = .done (.ok (.i32 7)) ∧
    byBridge.2.journal.started.head?.map (·.serial) = some Sample.drawStatic.serial := by
  intro target bridge call byBridge
  refine ⟨?_, ?_, ?_, ?_, ?_, ?_⟩
  all_goals decide

end Machine

end Interpose
