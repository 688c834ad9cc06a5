import Interpose.Proofs.Dispatch.Exposure
import Interpose.Proofs.Execution.CallThrough

/-!
# A call across the bridge arrives

Once a call on an object is decided to go across the bridge of its type, nothing stands in its way any more. The
bridge can be had, the object fits it, and it exposes the method, so the body of that method runs, with the frame
of the call.
-/

namespace Interpose

theorem Method.hasBody_of_isBridgeable {method : Method} (h : method.isBridgeable = true) : method.hasBody = true := by
  simp only [isBridgeable, Bool.and_eq_true] at h
  exact h.2

namespace Machine

/-- What comes to running the body of a method once, on a frame, with nothing before it but that the dispatcher
remembers more, and nothing after it. It is told for any way to run bodies. -/
def Arrives (m : Machine) (method : Method) (frame : Frame)
    (comes : BodyRunner → Outcome (Except Error Value) × Machine) : Prop :=
  ∃ m', m.Still m' ∧ ∀ run, comes run = run method frame (m'.began method frame)

variable {m : Machine} {s : Setting} {site : CallSite} {b : Binding} {target : Target} {decl : TypeDecl}
  {handle : ObjectHandle}

/-- Whichever registry is in force by then, to carry out a decision to go across the bridge is to run the method. -/
theorem carryOut_arrives (hg : s.GoesOn site b target) (hdecl : s.hierarchy.require site.runtimeType = .ok decl)
    (hfinal : decl.isFinal = false) (hbridgeable : target.method.isBridgeable = true) (hsound : m.dispatcher.Sound)
    (hhierarchy : m.hierarchy = s.hierarchy) (hlevel : m.dispatcher.setting.level = s.level)
    (htype : m.memory.typeOf handle = .ok site.runtimeType) (arguments : List Value) :
    let frame : Frame := ⟨.instance handle, site.runtimeType, site.method.name, arguments⟩
    m.Arrives target.method frame fun run => carryOut run site (.through target true) frame m := by
  intro frame
  obtain ⟨bridge, hb⟩ := Bridge.exists_synthesize s.level hdecl hfinal
  have he : bridge.exposes target = true := by
    rw [Setting.exposes_selected hg.isInstance hg.selected hb]
    exact hbridgeable
  rw [← hhierarchy, ← hlevel] at hb
  refine ⟨_, still_bridgeFor m site.runtimeType, fun run => ?_⟩
  have hcarried := carryOut_across hsound htype hb he (Method.hasBody_of_isBridgeable hbridgeable) run
    site.method.name arguments
  rw [Setting.name_of_realTarget hg.selected] at hcarried
  exact hcarried

/-- A call that is decided to go across the bridge comes to running the method. -/
theorem call_arrives (hg : s.GoesOn site b target) (hdecl : s.hierarchy.require site.runtimeType = .ok decl)
    (hfinal : decl.isFinal = false) (hbridgeable : target.method.isBridgeable = true) (hsound : m.dispatcher.Sound)
    (hsetting : m.dispatcher.setting = s) {method : String} {arguments : List Value}
    (hsite : m.siteOf (.instance handle) method arguments site.request = .ok site) :
    m.Arrives target.method ⟨.instance handle, site.runtimeType, method, arguments⟩ fun run =>
      call run (.instance handle) method arguments site.request m := by
  obtain ⟨_, htype, rfl⟩ := siteOf_instance_eq_ok hsite
  have hanswer : (m.dispatcher.resolve site).answer = .ok (.through target true) := by
    rw [hsound.resolve_answer, hsetting, hg.decision hdecl, hfinal, hbridgeable]
    rfl
  have hresolved : (m.absorb (m.dispatcher.resolve site)).dispatcher.setting = s :=
    (Dispatcher.resolve_setting _ _).trans hsetting
  obtain ⟨m', hstill, hcarried⟩ := carryOut_arrives hg hdecl hfinal hbridgeable (hsound.resolve site)
    (congrArg Setting.hierarchy hresolved) (congrArg Setting.level hresolved) htype arguments
  refine ⟨m', (still_resolve m site).trans hstill, fun run => ?_⟩
  unfold call
  simp only [hsite, hanswer]
  exact hcarried run

/-- Take any dispatcher after any run and a call on an object of an intercepted type that falls under a binding,
where no shadow method takes the call, the policy or the caller asks for the real method, and the type and its
ancestors select one. The call is decided to go across the bridge to that method exactly if the runtime type is not
final and the method is bridgeable, and is refused as not bridgeable otherwise. If it goes across, then whenever
this is carried out on an object of that type, whatever registries were installed meanwhile, and likewise in the
call itself, the body of the method runs once, with the receiver, the runtime type, the name and the arguments of
the call, and what it comes to is what the call comes to. -/
theorem call_through_exact (h : Hierarchy) (rules : Rules) (level : Nat) (steps : List Dispatcher.Step)
    (site : CallSite) (b : Binding) (target : Target)
    (hg : Setting.GoesOn ⟨h, rules, level, Dispatcher.lastInstalled steps⟩ site b target) :
    let d := (Dispatcher.new h rules level).after steps
    ∃ decl, h.require site.runtimeType = .ok decl ∧
      (d.resolve site).answer =
        .ok (if !decl.isFinal && target.method.isBridgeable then .through target true
          else .refuse .notBridgeable) ∧
      (decl.isFinal = false → target.method.isBridgeable = true →
        ∀ (m : Machine) (handle : ObjectHandle) (arguments : List Value),
          let frame : Frame := ⟨.instance handle, site.runtimeType, site.method.name, arguments⟩
          (∀ more, m.dispatcher = (Dispatcher.new h rules level).after more →
            m.memory.typeOf handle = .ok site.runtimeType →
            m.Arrives target.method frame fun run => carryOut run site (.through target true) frame m) ∧
          (m.dispatcher = d → m.siteOf (.instance handle) site.method.name arguments site.request = .ok site →
            m.Arrives target.method frame fun run =>
              call run (.instance handle) site.method.name arguments site.request m)) := by
  intro d
  obtain ⟨decl, hdecl⟩ := Setting.declared_of_realTarget hg.selected
  have hsound : ∀ {m : Machine} {more : List Dispatcher.Step},
      m.dispatcher = (Dispatcher.new h rules level).after more →
        m.dispatcher.Sound ∧ m.dispatcher.setting = ⟨h, rules, level, Dispatcher.lastInstalled more⟩ := by
    intro m more hm
    rw [hm]
    exact ⟨(Dispatcher.sound_new h rules level).after more, Dispatcher.after_new_setting h rules level more⟩
  refine ⟨decl, hdecl, ?_, fun hfinal hbridgeable m handle arguments => ⟨fun more hm htype => ?_, fun hm hsite => ?_⟩⟩
  · rw [Dispatcher.resolve_after]
    exact hg.decision hdecl
  · obtain ⟨hsound, hsetting⟩ := hsound hm
    have hhierarchy : m.hierarchy = h := congrArg Setting.hierarchy hsetting
    have hlevel : m.dispatcher.setting.level = level := congrArg Setting.level hsetting
    exact carryOut_arrives hg hdecl hfinal hbridgeable hsound hhierarchy hlevel htype arguments
  · obtain ⟨hsound, hsetting⟩ := hsound hm
    exact call_arrives hg hdecl hfinal hbridgeable hsound hsetting hsite

/-- A button whose view is shadowed, asked for the real method: the call goes across the bridge of buttons to the
method of the view, and runs it on the button. -/
theorem call_through_exact_button :
    let d := (Dispatcher.new Sample.hierarchy .none 30).after [.install Sample.registry]
    let site : CallSite := { Sample.drawButton with request := .real }
    let memory := (Sample.code.run (.ask (.create "Button"))
      ⟨1, d, Memory.blank.load Sample.hierarchy, .empty⟩).2.memory
    let m : Machine := ⟨1, d, memory, .empty⟩
    (d.resolve site).answer = .ok (.through ⟨"View", Sample.draw⟩ true) ∧
    m.Arrives Sample.draw ⟨.instance ⟨1, 0⟩, "Button", "draw", []⟩ fun run =>
      call run (.instance ⟨1, 0⟩) "draw" [] .real m := by
  intro d site memory m
  obtain ⟨decl, hdecl, hanswer, harrives⟩ := call_through_exact Sample.hierarchy .none 30
    [.install Sample.registry] site (.ofShadow Sample.shadowView) ⟨"View", Sample.draw⟩
    ⟨rfl, by decide, by decide, Request.noConfusion, .inr rfl, by decide⟩
  have hbutton : Sample.hierarchy.require "Button" = .ok Sample.button := by rfl
  cases hbutton.symm.trans hdecl
  refine ⟨hanswer, ?_⟩
  exact (harrives rfl (by decide) m ⟨1, 0⟩ []).2 rfl (by decide)

end Machine

end Interpose
