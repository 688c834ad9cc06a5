import Interpose.Proofs.Dispatch.Bridges
import Interpose.Proofs.Execution.Calls
import Interpose.Proofs.Hierarchy.Walks

/-!
# Two ways to the real method

A call that goes across the bridge of the runtime type and a call made by way of that bridge start the same body
with the same frame. The machines that they start it on differ only in what the dispatcher has come to remember
on the way, so a body that does not look at that ends alike, and one that does can tell which way it was started.
-/

namespace Interpose

namespace Machine

variable {m m₁ m₂ : Machine}

theorem Alike.began (hm : Alike m₁ m₂) (method : Method) (frame : Frame) :
    Alike (m₁.began method frame) (m₂.began method frame) :=
  hm.withJournal (congrArg (fun j => { j with started := ⟨method.serial, frame⟩ :: j.started }) hm.journal)

/-- What the shape of a call on an object says: the arguments have kinds, and the object has the runtime type. -/
theorem siteOf_instance_eq_ok {handle : ObjectHandle} {method : String} {arguments : List Value} {request : Request}
    {site : CallSite} (h : m.siteOf (.instance handle) method arguments request = .ok site) :
    m.memory.kindsOf arguments = .ok site.method.params ∧ m.memory.typeOf handle = .ok site.runtimeType ∧
      site.method.name = method := by
  cases hkinds : m.memory.kindsOf arguments with
  | error e =>
    simp only [siteOf, hkinds] at h
    cases h
  | ok kinds =>
    cases htype : m.memory.typeOf handle with
    | error e =>
      simp only [siteOf, hkinds, htype] at h
      cases h
    | ok typeId =>
      simp only [siteOf, hkinds, htype] at h
      cases h
      exact ⟨rfl, rfl, rfl⟩

/-- A call is static unless it has an object, and asks for what was asked. -/
theorem modes_of_siteOf {receiver : Receiver} {method : String} {arguments : List Value} {request : Request}
    {site : CallSite} (h : m.siteOf receiver method arguments request = .ok site) :
    site.isStatic = receiver.handle?.isNone ∧ site.request = request := by
  unfold siteOf at h
  split at h
  · cases h
  · cases receiver with
    | «instance» handle =>
      obtain ⟨_, _, rfl⟩ := exists_of_map_eq_ok h
      exact ⟨rfl, rfl⟩
    | type typeId =>
      obtain ⟨_, _, rfl⟩ := exists_of_map_eq_ok h
      exact ⟨rfl, rfl⟩

/-- An object of the type that a bridge stands for fits the bridge. -/
theorem bridgedType_self {bridge : Bridge} {handle : ObjectHandle}
    (htype : m.memory.typeOf handle = .ok bridge.real) (method : String) :
    m.bridgedType bridge handle method = .ok bridge.real := by
  unfold bridgedType
  rw [htype]
  simp only [m.hierarchy.isSubtype_self, if_true]

section Routes

variable {bridge : Bridge} {handle : ObjectHandle} {target : Target} {method : String} {arguments : List Value}

theorem callTarget_of_exposes (arguments : List Value) (htype : m.memory.typeOf handle = .ok bridge.real)
    (he : bridge.exposes target = true) (hbody : target.method.hasBody = true) (run : BodyRunner) :
    callTarget run bridge handle target arguments m =
      let frame : Frame := ⟨.instance handle, bridge.real, target.method.name, arguments⟩
      run target.method frame (m.began target.method frame) := by
  unfold callTarget
  rw [bridgedType_self htype]
  simp only [he, if_true, start_of_hasBody hbody]

theorem callBridge_of_select {kinds : List Kind} (htype : m.memory.typeOf handle = .ok bridge.real)
    (hkinds : m.memory.kindsOf arguments = .ok kinds)
    (hselect : (⟨⟨method, kinds⟩, false, bridge.level, true⟩ : Criteria).select m.hierarchy bridge.groups bridge.real =
      .ok (some target)) (hbody : target.method.hasBody = true) (run : BodyRunner) :
    callBridge run bridge handle method arguments m =
      let frame : Frame := ⟨.instance handle, bridge.real, target.method.name, arguments⟩
      run target.method frame (m.began target.method frame) := by
  unfold callBridge
  rw [bridgedType_self htype, hkinds]
  simp only [hselect, start_of_hasBody hbody]

end Routes

/-! ## A call across the bridge -/

section Through

variable {handle : ObjectHandle} {method : String} {arguments : List Value} {request : Request} {site : CallSite}
  {target : Target} {bridge : Bridge}

/-- To carry out a decision to go across the bridge is to run the method, on an object of the runtime type. -/
theorem carryOut_across (hsound : m.dispatcher.Sound) (htype : m.memory.typeOf handle = .ok site.runtimeType)
    (hb : Bridge.synthesize m.hierarchy m.dispatcher.setting.level site.runtimeType = .ok bridge)
    (he : bridge.exposes target = true) (hbody : target.method.hasBody = true) (run : BodyRunner) (caller : String)
    (arguments : List Value) :
    let frame : Frame := ⟨.instance handle, site.runtimeType, target.method.name, arguments⟩
    carryOut run site (.through target true) ⟨.instance handle, site.runtimeType, caller, arguments⟩ m =
      run target.method frame ((m.absorb (m.dispatcher.bridgeFor site.runtimeType)).began target.method frame) := by
  intro frame
  have hreal : bridge.real = site.runtimeType := by rw [Bridge.synthesize_eq_ok hb]
  have hanswer : (m.dispatcher.bridgeFor site.runtimeType).answer = .ok bridge := (hsound.bridgeFor_answer _).trans hb
  simp only [carryOut, hanswer]
  have htype' : (m.absorb (m.dispatcher.bridgeFor site.runtimeType)).memory.typeOf handle = .ok bridge.real := by
    rw [hreal]
    exact htype
  have hcall := callTarget_of_exposes arguments htype' he hbody run
  rw [hreal] at hcall
  exact hcall

theorem call_of_through (hsound : m.dispatcher.Sound)
    (hsite : m.siteOf (.instance handle) method arguments request = .ok site)
    (hthrough : (m.dispatcher.resolve site).answer = .ok (.through target true))
    (hb : Bridge.synthesize m.hierarchy m.dispatcher.setting.level site.runtimeType = .ok bridge)
    (he : bridge.exposes target = true) (hbody : target.method.hasBody = true) (run : BodyRunner) :
    let frame : Frame := ⟨.instance handle, site.runtimeType, target.method.name, arguments⟩
    let resolved := m.absorb (m.dispatcher.resolve site)
    call run (.instance handle) method arguments request m =
      run target.method frame
        ((resolved.absorb (resolved.dispatcher.bridgeFor site.runtimeType)).began target.method frame) := by
  intro frame resolved
  have hsetting : resolved.dispatcher.setting = m.dispatcher.setting := Dispatcher.resolve_setting _ _
  have hb' : Bridge.synthesize resolved.hierarchy resolved.dispatcher.setting.level site.runtimeType = .ok bridge := by
    rw [hierarchy, hsetting]
    exact hb
  have htype : resolved.memory.typeOf handle = .ok site.runtimeType := (siteOf_instance_eq_ok hsite).2.1
  unfold call
  simp only [hsite, hthrough]
  exact carryOut_across (hsound.resolve site) htype hb' he hbody run method arguments

theorem callBridge_of_bridge_selects
    (hsite : m.siteOf (.instance handle) method arguments request = .ok site)
    (hb : Bridge.synthesize m.hierarchy m.dispatcher.setting.level site.runtimeType = .ok bridge)
    (hselect : (⟨site.method, false, bridge.level, true⟩ : Criteria).select m.hierarchy bridge.groups
      site.runtimeType = .ok (some target)) (hbody : target.method.hasBody = true) (run : BodyRunner) :
    let frame : Frame := ⟨.instance handle, site.runtimeType, target.method.name, arguments⟩
    let asked := m.absorb (m.dispatcher.bridgeFor site.runtimeType)
    callBridge run bridge handle method arguments asked =
      run target.method frame (asked.began target.method frame) := by
  intro frame asked
  obtain ⟨hkinds, htype, hname⟩ := siteOf_instance_eq_ok hsite
  have hreal : bridge.real = site.runtimeType := by rw [Bridge.synthesize_eq_ok hb]
  have hhierarchy : asked.hierarchy = m.hierarchy :=
    congrArg Setting.hierarchy (Dispatcher.bridgeFor_setting m.dispatcher site.runtimeType)
  have hkey : (⟨method, site.method.params⟩ : MethodKey) = site.method := by rw [← hname]
  have htype' : asked.memory.typeOf handle = .ok bridge.real := by
    rw [hreal]
    exact htype
  have hkinds' : asked.memory.kindsOf arguments = .ok site.method.params := hkinds
  have hselect' : (⟨⟨method, site.method.params⟩, false, bridge.level, true⟩ : Criteria).select asked.hierarchy
      bridge.groups bridge.real = .ok (some target) := by
    rw [hreal, hhierarchy, hkey]
    exact hselect
  have hcall := callBridge_of_select htype' hkinds' hselect' hbody run
  rw [hreal] at hcall
  exact hcall

end Through

end Machine

/-- Asks for the bridge of a type and calls a method of an object by way of it. -/
def Program.callByBridge (typeId : String) (handle : ObjectHandle) (method : String) (arguments : List Value) :
    Program (Except Error Value) :=
  .perform (.bridge typeId) fun
    | .ok bridge => .ask (.callBridge bridge handle method arguments)
    | .error e => .done (.error e)

theorem Program.runWith_ask (run : BodyRunner) (op : Op) (m : Machine) :
    (Program.ask op).runWith run m = Machine.perform run op m := by
  unfold ask runWith
  rcases Machine.perform run op m with ⟨outcome, m'⟩
  cases outcome <;> rfl

theorem Program.runWith_callByBridge {typeId : String} {m : Machine} {bridge : Bridge}
    (hanswer : (m.dispatcher.bridgeFor typeId).answer = .ok bridge) (run : BodyRunner) (handle : ObjectHandle)
    (method : String) (arguments : List Value) :
    (callByBridge typeId handle method arguments).runWith run m =
      Machine.callBridge run bridge handle method arguments (m.absorb (m.dispatcher.bridgeFor typeId)) := by
  unfold callByBridge runWith
  simp only [Machine.perform]
  rw [hanswer]
  exact runWith_ask run (.callBridge bridge handle method arguments) _

/-- A body that does not look at what is remembered runs alike on machines that are alike. -/
theorem Code.runBody_alike (code : Code) {depth : Nat} {method : Method} {frame : Frame} {m₁ m₂ : Machine}
    (hm : Machine.Alike m₁ m₂)
    (hp : ∀ d, depth = d + 1 → ∀ m, ¬code.Performs d (code.body method.serial frame) m₁ .dispatcher m) :
    Machine.EndAlike (code.runBody depth method frame m₁) (code.runBody depth method frame m₂) := by
  cases depth with
  | zero => exact ⟨rfl, hm⟩
  | succ d => exact code.runWith_alike hm (hp d rfl)

/-! ## Both ways -/

namespace Machine

section Both

variable {m m₁ m₂ : Machine} {handle : ObjectHandle} {method : String} {arguments : List Value} {request : Request}
  {site : CallSite} {target : Target} {bridge : Bridge} {frame : Frame}

theorem alike_after_resolve (hsound : m.dispatcher.Sound) (site : CallSite) :
    Alike (m.absorb (m.dispatcher.resolve site)) m :=
  ⟨rfl, Dispatcher.resolve_setting _ _, hsound.resolve site, hsound, rfl, rfl⟩

/-- If the dispatcher sends a call across the bridge, the bridge selects the same declaration, and both ways run its
body on machines that are alike. -/
theorem exists_routes (hsound : m.dispatcher.Sound)
    (hsite : m.siteOf (.instance handle) method arguments request = .ok site)
    (hthrough : (m.dispatcher.resolve site).answer = .ok (.through target true)) :
    let frame : Frame := ⟨.instance handle, site.runtimeType, method, arguments⟩
    ∃ bridge, (m.dispatcher.bridgeFor site.runtimeType).answer = .ok bridge ∧
      (⟨site.method, false, bridge.level, true⟩ : Criteria).select m.hierarchy bridge.groups site.runtimeType =
        .ok (some target) ∧
      ∃ m₁ m₂, Alike m₁ m₂ ∧
        (∀ run, call run (.instance handle) method arguments request m = run target.method frame m₁) ∧
        ∀ run, callBridge run bridge handle method arguments (m.absorb (m.dispatcher.bridgeFor site.runtimeType)) =
          run target.method frame m₂ := by
  intro frame
  obtain ⟨_, _, hname⟩ := siteOf_instance_eq_ok hsite
  have hdecide : m.dispatcher.setting.decide site = .ok (.through target true) := by
    rw [← hsound.resolve_answer, hthrough]
  obtain ⟨bridge, hb, he, htarget, hbridgeable, hselect⟩ := Setting.bridge_selects hdecide
  have hbody : target.method.hasBody = true := by
    simp only [Method.isBridgeable, Bool.and_eq_true] at hbridgeable
    exact hbridgeable.2
  have hframe : (⟨.instance handle, site.runtimeType, target.method.name, arguments⟩ : Frame) = frame := by
    rw [htarget, hname]
  have hcall := call_of_through hsound hsite hthrough hb he hbody
  have hbridge := callBridge_of_bridge_selects hsite hb hselect hbody
  rw [hframe] at hcall hbridge
  have halike := (alike_after_resolve hsound site).absorb_bridgeFor site.runtimeType
  exact ⟨bridge, (hsound.bridgeFor_answer _).trans hb, hselect, _, _, halike.began target.method frame, hcall, hbridge⟩

/-- Two ways that come down to one body on machines that are alike end alike, if the body does not look at what is
remembered. -/
theorem endAlike_of_routes {code : Code} (halike : Alike m₁ m₂)
    (hanswer : (m.dispatcher.bridgeFor site.runtimeType).answer = .ok bridge)
    (hcall : ∀ run, call run (.instance handle) method arguments request m = run target.method frame m₁)
    (hbridge : ∀ run, callBridge run bridge handle method arguments
      (m.absorb (m.dispatcher.bridgeFor site.runtimeType)) = run target.method frame m₂)
    (hquiet : ∀ m', ¬code.Performs code.depth (.ask (.call (.instance handle) method arguments request)) m
      .dispatcher m') :
    let byCall : Outcome (Except Error Value) × Machine :=
      code.run (.ask (.call (.instance handle) method arguments request)) m
    EndAlike byCall (code.run (.callByBridge site.runtimeType handle method arguments) m) := by
  intro byCall
  have hbodies : EndAlike (code.runBody code.depth target.method frame m₁)
      (code.runBody code.depth target.method frame m₂) := by
    apply code.runBody_alike halike
    intro d hd m' hperforms
    have hstarts : Starts (.call (.instance handle) method arguments request) m target.method frame m₁ :=
      fun run => congrArg (·.2) (hcall run)
    apply hquiet m'
    rw [hd]
    exact .within hstarts hperforms
  have hbyCall : byCall = code.runBody code.depth target.method frame m₁ :=
    (Program.runWith_ask _ _ m).trans (hcall _)
  have hbyBridge : code.run (.callByBridge site.runtimeType handle method arguments) m =
      code.runBody code.depth target.method frame m₂ :=
    (Program.runWith_callByBridge hanswer _ handle method arguments).trans (hbridge _)
  rw [hbyCall, hbyBridge]
  exact hbodies

end Both

/-! ## The main result -/

/-- Take any machine whose dispatcher went through any run, and a call on an object that the dispatcher sends
across the bridge, by policy or on request. The bridge of the object's type can be had; for the same name and
arguments it selects the same declaration; and the call through the dispatcher and the call by way of the bridge
both come down to running the body of that declaration, with one frame, on machines that are alike: they differ in
nothing but what their dispatchers remember. Unless the body or one that it calls looks at just that, as the
counters of a dispatcher allow, both ways end with the same outcome, the same memory, the same bodies started and
the same values traced, recorded and drawn. -/
theorem call_through_as_bridge_call (h : Hierarchy) (rules : Rules) (level : Nat) (steps : List Dispatcher.Step)
    (id : Nat) (memory : Memory) (j : Journal) (code : Code) (handle : ObjectHandle) (method : String)
    (arguments : List Value) (request : Request) (site : CallSite) (target : Target) :
    let m : Machine := ⟨id, (Dispatcher.new h rules level).after steps, memory, j⟩
    m.siteOf (.instance handle) method arguments request = .ok site →
    (m.dispatcher.resolve site).answer = .ok (.through target true) →
    let frame : Frame := ⟨.instance handle, site.runtimeType, method, arguments⟩
    memory.typeOf handle = .ok site.runtimeType ∧
    ∃ bridge, (m.dispatcher.bridgeFor site.runtimeType).answer = .ok bridge ∧
      (⟨site.method, false, bridge.level, true⟩ : Criteria).select h bridge.groups site.runtimeType =
        .ok (some target) ∧
      (∃ m₁ m₂, Alike m₁ m₂ ∧
        (∀ run, call run (.instance handle) method arguments request m = run target.method frame m₁) ∧
        ∀ run, callBridge run bridge handle method arguments (m.absorb (m.dispatcher.bridgeFor site.runtimeType)) =
          run target.method frame m₂) ∧
      ((∀ m', ¬code.Performs code.depth (.ask (.call (.instance handle) method arguments request)) m .dispatcher m') →
        let byCall : Outcome (Except Error Value) × Machine :=
          code.run (.ask (.call (.instance handle) method arguments request)) m
        let byBridge := code.run (.callByBridge site.runtimeType handle method arguments) m
        byCall.1 = byBridge.1 ∧ byCall.2.memory = byBridge.2.memory ∧
          byCall.2.journal.quiet = byBridge.2.journal.quiet) := by
  intro m hsite hthrough frame
  have hsound : m.dispatcher.Sound := (Dispatcher.sound_new h rules level).after steps
  have hhierarchy : m.hierarchy = h :=
    congrArg Setting.hierarchy (Dispatcher.after_new_setting h rules level steps)
  obtain ⟨bridge, hanswer, hselect, m₁, m₂, halike, hcall, hbridge⟩ := exists_routes hsound hsite hthrough
  rw [hhierarchy] at hselect
  refine ⟨(siteOf_instance_eq_ok hsite).2.1, bridge, hanswer, hselect, ⟨m₁, m₂, halike, hcall, hbridge⟩,
    fun hquiet => ?_⟩
  have hends := endAlike_of_routes halike hanswer hcall hbridge hquiet
  exact ⟨hends.1, hends.2.memory, hends.2.journal⟩

/-- A button whose view is shadowed, asked for the real method: the call goes across the bridge and ends with what
the bridge gives. -/
theorem call_through_as_bridge_call_button :
    let d := (Dispatcher.new Sample.hierarchy .none 30).after [.install Sample.registry]
    let memory := (Sample.code.run (.ask (.create "Button"))
      ⟨1, d, Memory.blank.load Sample.hierarchy, .empty⟩).2.memory
    let m : Machine := ⟨1, d, memory, .empty⟩
    let byCall : Outcome (Except Error Value) × Machine :=
      Sample.code.run (.ask (.call (.instance ⟨1, 0⟩) "draw" [] .real)) m
    let byBridge := Sample.code.run (.callByBridge "Button" ⟨1, 0⟩ "draw" []) m
    byCall.1 = .done (.ok (.i32 7)) ∧ byBridge.1 = byCall.1 ∧ byBridge.2.memory = byCall.2.memory := by
  intro d memory m byCall byBridge
  obtain ⟨_, _, _, _, _, hends⟩ := call_through_as_bridge_call Sample.hierarchy .none 30 [.install Sample.registry] 1
    memory .empty Sample.code ⟨1, 0⟩ "draw" [] .real ⟨"Button", ⟨"draw", []⟩, false, .real⟩ ⟨"View", Sample.draw⟩
    (by decide) (by decide)
  obtain ⟨houtcome, hmemory, _⟩ := hends fun m' =>
    Code.not_performs_of_avoids Sample.body_avoids_dispatcher ⟨Op.noConfusion, fun _ => trivial⟩
  refine ⟨by decide, houtcome.symm, ?_⟩
  -- The two sides are the same terms; unfolding them would run both ways.
  with_reducible exact hmemory.symm

end Machine

/-! ## Bodies that tell the ways apart -/

namespace Sample

/-- Every body tells how many decisions the dispatcher has worked out. -/
def counting : Code :=
  { code with body := fun _ _ => .perform .dispatcher fun d => .done (.ok (.i32 (Int32.ofNat d.counts.misses))) }

/-- Every body tells how often it was drawn before. -/
def drawing : Code :=
  { code with body := fun _ _ => .perform (.draw "drawn") fun count => .done (.ok (.i32 (Int32.ofNat count))) }

end Sample

namespace Machine

/-- The call through the dispatcher is decided, the call by way of the bridge is not, and a body that counts decisions
can tell. A counter that outlives the sandboxes tells the ways apart if the one is gone after the other, though it be on
an equal sandbox. -/
theorem call_through_told_apart :
    let d := (Dispatcher.new Sample.hierarchy .none 30).after [.install Sample.registry]
    let memory := (Sample.code.run (.ask (.create "Button"))
      ⟨1, d, Memory.blank.load Sample.hierarchy, .empty⟩).2.memory
    let m : Machine := ⟨1, d, memory, .empty⟩
    let call : Program (Except Error Value) := .ask (.call (.instance ⟨1, 0⟩) "draw" [] .real)
    let bridgeCall := Program.callByBridge "Button" ⟨1, 0⟩ "draw" []
    m.siteOf (.instance ⟨1, 0⟩) "draw" [] .real = .ok { Sample.drawButton with request := .real } ∧
      (m.dispatcher.resolve { Sample.drawButton with request := .real }).answer =
        .ok (.through ⟨"View", Sample.draw⟩ true) ∧
      (Sample.counting.run call m).1 = .done (.ok (.i32 1)) ∧
      (Sample.counting.run bridgeCall m).1 = .done (.ok (.i32 0)) ∧
      (Sample.drawing.run call m).1 = .done (.ok (.i32 0)) ∧
      (Sample.drawing.run bridgeCall { m with journal := (Sample.drawing.run call m).2.journal }).1 =
        .done (.ok (.i32 1)) := by
  decide

end Machine

end Interpose
