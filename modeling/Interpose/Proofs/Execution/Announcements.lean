import Interpose.Proofs.Dispatch.Origins
import Interpose.Proofs.Dispatch.Transparency
import Interpose.Proofs.Execution.Crossing

/-!
# A call does what was announced

Where a normal call would go can be asked without making it. The answer is worked out, or found in the memory of the
dispatcher; and so it is once more when the call is made. Both come to the same: a refusal and a no-op are answered at
once, and a target has its body run, once, on the frame of the call. Bodies that hand on the answer of a call of their
own may stand between a call and the body that answers it, however many: the answer comes through as it is.
-/

namespace Interpose

/-- Programs that come down to others: after operations of their own, and by handing on the answer of a call whose body
does. Calls may nest so deep as given on either side. -/
inductive Code.HandsOn (code : Code) : Nat → Program (Except Error Value) → Machine →
    Nat → Program (Except Error Value) → Machine → Prop
  | here {depth : Nat} {p : Program (Except Error Value)} {m : Machine} : HandsOn code depth p m depth p m
  /-- After the answer of the first operation. -/
  | later {depth depth' : Nat} {op : Op} {next : op.Answer → Program (Except Error Value)}
      {q : Program (Except Error Value)} {m m₁ m' : Machine} {answer : op.Answer}
      (h : Machine.perform (code.runBody depth) op m = (.done answer, m₁))
      (rest : HandsOn code depth (next answer) m₁ depth' q m') :
      HandsOn code depth (.perform op next) m depth' q m'
  /-- In the body of a call whose answer is handed on. -/
  | within {depth depth' : Nat} {receiver : Receiver} {method : String} {arguments : List Value} {request : Request}
      {callee : Method} {frame : Frame} {q : Program (Except Error Value)} {m m₁ m' : Machine}
      (h : ∀ run, Machine.call run receiver method arguments request m = run callee frame (m₁.began callee frame))
      (rest : HandsOn code depth (code.body callee.serial frame) (m₁.began callee frame) depth' q m') :
      HandsOn code (depth + 1) (.ask (.call receiver method arguments request)) m depth' q m'

/-- A program ends as the one that it comes down to, with the same answer on the same machine. -/
theorem Code.HandsOn.runWith_eq {code : Code} {depth depth' : Nat} {p q : Program (Except Error Value)}
    {m m' : Machine} (h : code.HandsOn depth p m depth' q m') :
    p.runWith (code.runBody depth) m = q.runWith (code.runBody depth') m' := by
  induction h with
  | here => rfl
  | later h _ ih =>
    rw [Program.runWith, h]
    exact ih
  | within h _ ih => exact (Program.runWith_ask _ _ _).trans ((h _).trans ih)

/-! ## What a no-op answers -/

namespace Value

/-- A primitive value that is zero; of the two zeros of a float type, the one without a sign. -/
def isZero : Value → Bool
  | bool b => !b
  | char c => c.toNat = 0
  | i8 n => n.toInt = 0
  | i16 n => n.toInt = 0
  | i32 n => n.toInt = 0
  | i64 n => n.toInt = 0
  | f32 bits => bits.toNat = 0
  | f64 bits => bits.toNat = 0
  | void | null | string _ | boxed _ | object _ => false

/-- The default value of a kind: no value for no result, null for every reference, and for a primitive the value of this
very primitive that is zero. -/
inductive DefaultOf : Kind → Value → Prop
  | void : DefaultOf .void .void
  | null {kind : Kind} (h : kind.isReference = true) : DefaultOf kind .null
  | zero {p : Primitive} {v : Value} (hprimitive : v.primitive? = some p) (hzero : v.isZero = true) :
      DefaultOf (.primitive p) v

theorem defaultOf_defaultFor (kind : Kind) : DefaultOf kind (defaultFor kind) := by
  cases kind with
  | void => exact .void
  | primitive p => cases p <;> exact .zero rfl rfl
  | null | boxed _ | string | object _ | any => exact .null rfl

theorem eq_defaultFor_of_isZero {v : Value} {p : Primitive} (hprimitive : v.primitive? = some p)
    (hzero : v.isZero = true) : v = defaultFor (.primitive p) := by
  cases v <;> cases hprimitive <;> simp only [isZero, Bool.not_eq_true', decide_eq_true_eq] at hzero
  case bool.refl => exact congrArg bool hzero
  case char.refl => exact congrArg char (Char.toNat_inj.1 hzero)
  case i8.refl => exact congrArg i8 (Int8.toInt_inj.1 hzero)
  case i16.refl => exact congrArg i16 (Int16.toInt_inj.1 hzero)
  case i32.refl => exact congrArg i32 (Int32.toInt_inj.1 hzero)
  case i64.refl => exact congrArg i64 (Int64.toInt_inj.1 hzero)
  case f32.refl => exact congrArg f32 (UInt32.toNat_inj.1 hzero)
  case f64.refl => exact congrArg f64 (UInt64.toNat_inj.1 hzero)

/-- A kind has one default value. -/
theorem defaultOf_iff {kind : Kind} {v : Value} : DefaultOf kind v ↔ v = defaultFor kind := by
  constructor
  · intro h
    cases h with
    | void => rfl
    | zero hprimitive hzero => exact eq_defaultFor_of_isZero hprimitive hzero
    | null href =>
      cases kind with
      | void | primitive p => cases href
      | null | boxed _ | string | object _ | any => rfl
  · rintro rfl
    exact defaultOf_defaultFor kind

end Value

namespace Machine

/-- What comes to an answer at once, with nothing before it but that the dispatcher remembers more: the memory is as it
was and no body was started. It is told for any way to run bodies. -/
def Answers (m : Machine) (answer : Except Error Value)
    (comes : BodyRunner → Outcome (Except Error Value) × Machine) : Prop :=
  ∃ m', m.Still m' ∧ ∀ run, comes run = (.done answer, m')

/-- What a call comes to if it does what a decision says. -/
inductive Fulfils (m : Machine) (site : CallSite) (frame : Frame)
    (comes : BodyRunner → Outcome (Except Error Value) × Machine) : Decision → Prop
  /-- The default value of what the real method returns that the call would go to if nothing were shadowed. -/
  | noOp {target : Target} (hreal : m.dispatcher.setting.realTarget site = .ok (some target))
      (hunshadowed : ((Dispatcher.new m.hierarchy m.dispatcher.setting.rules m.dispatcher.setting.level).resolve site).answer =
        .ok (Setting.direct target))
      {value : Value} (hdefault : Value.DefaultOf target.method.returns value) (h : m.Answers (.ok value) comes) :
      Fulfils m site frame comes (.noOp target.method.returns)
  | refuse {reason : Refusal} (h : m.Answers (.error (.refused site.runtimeType site.method.text reason)) comes) :
      Fulfils m site frame comes (.refuse reason)
  | body {decision : Decision} {target : Target} (htarget : decision.target? = some target)
      (hbody : target.method.hasBody = true) (h : m.Arrives target.method frame comes) :
      Fulfils m site frame comes decision
  | noBody {decision : Decision} {target : Target} (htarget : decision.target? = some target)
      (hbody : target.method.hasBody = false)
      (h : m.Answers (.error (.refused site.runtimeType target.method.signature .noImplementation)) comes) :
      Fulfils m site frame comes decision

/-- The call, made on this machine, does what was announced of it. -/
inductive Follows (m : Machine) (receiver : Receiver) (method : String) (arguments : List Value) :
    Except Error Decision → Prop
  | failed {e : Error} (h : m.Answers (.error e) fun run => call run receiver method arguments .normal m) :
      Follows m receiver method arguments (.error e)
  | decided {site : CallSite} {decision : Decision} (hsite : m.siteOf receiver method arguments .normal = .ok site)
      (h : m.Fulfils site ⟨receiver, site.runtimeType, method, arguments⟩
        (fun run => call run receiver method arguments .normal m) decision) :
      Follows m receiver method arguments (.ok decision)

end Machine

/-! ## Carrying a decision out -/

theorem Registry.binding?_lookupAlong_empty (level : Nat) (types : List String) :
    (Registry.empty.lookupAlong level types).binding? = none := by
  induction types with
  | nil => rfl
  | cons typeId rest ih => exact ih

/-- Where nothing is shadowed, the real method that a call selects is the one that it goes to. -/
theorem Dispatcher.new_resolve_answer {s : Setting} {site : CallSite} {target : Target}
    (ht : s.realTarget site = .ok (some target)) :
    ((Dispatcher.new s.hierarchy s.rules s.level).resolve site).answer = .ok (Setting.direct target) := by
  have hunbound : (Setting.governing ⟨s.hierarchy, s.rules, s.level, Registry.empty⟩ site.runtimeType).binding? = none := by
    unfold Setting.governing
    split
    · exact Registry.binding?_lookupAlong_empty _ _
    · rfl
  have hsame : Setting.realTarget ⟨s.hierarchy, s.rules, s.level, Registry.empty⟩ site = .ok (some target) := ht
  rw [(Dispatcher.sound_new _ _ _).resolve_answer]
  refine (Setting.decide_of_unbound hunbound).trans ?_
  rw [Setting.passThrough, hsame]
  rfl

namespace Machine

variable {m m' : Machine} {site : CallSite} {frame : Frame} {decision : Decision} {target : Target} {receiver : Receiver}
  {method : String} {arguments : List Value} {request : Request}
  {comes : BodyRunner → Outcome (Except Error Value) × Machine}

theorem Still.siteOf (hm : m.Still m') (receiver : Receiver) (method : String) (arguments : List Value)
    (request : Request) :
    m'.siteOf receiver method arguments request = m.siteOf receiver method arguments request := by
  unfold Machine.siteOf
  rw [hm.memory, hm.hierarchy]

theorem answers_self (m : Machine) (answer : Except Error Value) : m.Answers answer fun _ => (.done answer, m) :=
  ⟨m, .refl m, fun _ => rfl⟩

theorem Answers.of_still {answer : Except Error Value} (hm : m.Still m') (h : m'.Answers answer comes) :
    m.Answers answer comes := by
  obtain ⟨after, hstill, hcomes⟩ := h
  exact ⟨after, hm.trans hstill, hcomes⟩

theorem Arrives.of_still {callee : Method} (hm : m.Still m') (h : m'.Arrives callee frame comes) :
    m.Arrives callee frame comes := by
  obtain ⟨after, hstill, hcomes⟩ := h
  exact ⟨after, hm.trans hstill, hcomes⟩

theorem Fulfils.of_still (hm : m.Still m') (h : m'.Fulfils site frame comes decision) :
    m.Fulfils site frame comes decision := by
  cases h with
  | noOp hreal hunshadowed hdefault h =>
    rw [hm.setting] at hreal
    rw [hm.hierarchy, hm.setting] at hunshadowed
    exact .noOp hreal hunshadowed hdefault (h.of_still hm)
  | refuse h => exact .refuse (h.of_still hm)
  | body htarget hbody h => exact .body htarget hbody (h.of_still hm)
  | noBody htarget hbody h => exact .noBody htarget hbody (h.of_still hm)

/-- A no-op answers with the default value of its kind. -/
theorem Fulfils.exists_default {kind : Kind} (h : m.Fulfils site frame comes (.noOp kind)) :
    ∃ value, Value.DefaultOf kind value ∧ m.Answers (.ok value) comes := by
  generalize hdecision : Decision.noOp kind = decision at h
  cases h with
  | noOp _ _ hdefault h =>
    rw [Decision.noOp.inj hdecision]
    exact ⟨_, hdefault, h⟩
  | refuse _ => cases hdecision
  | body htarget _ _ | noBody htarget _ _ =>
    subst hdecision
    cases htarget

/-- To start a target is to run its body, or to refuse the call for want of one. -/
theorem fulfils_start (htarget : decision.target? = some target) (htype : frame.runtimeType = site.runtimeType) :
    m.Fulfils site frame (fun run => start run target.method frame m) decision := by
  cases hbody : target.method.hasBody with
  | true =>
    refine .body htarget hbody ⟨m, .refl m, fun run => ?_⟩
    exact start_of_hasBody hbody run frame m
  | false =>
    refine .noBody htarget hbody ⟨m, .refl m, fun run => ?_⟩
    simp only [start, hbody, htype, Bool.false_eq_true, if_false]

/-- A decision that has an origin can be carried out as it says. -/
theorem fulfils_carryOut (hsound : m.dispatcher.Sound) (ho : m.dispatcher.setting.Origin site decision)
    (hsite : m.siteOf receiver method arguments request = .ok site) :
    let frame : Frame := ⟨receiver, site.runtimeType, method, arguments⟩
    m.Fulfils site frame (fun run => carryOut run site decision frame m) decision := by
  intro frame
  cases ho with
  | shadow _ _ => exact fulfils_start rfl rfl
  | straight _ _ => exact fulfils_start rfl rfl
  | @across target bridge hstatic ht hb he =>
    cases receiver with
    | type typeId =>
      rw [(modes_of_siteOf hsite).1] at hstatic
      cases hstatic
    | «instance» handle =>
      obtain ⟨_, htype, hname⟩ := siteOf_instance_eq_ok hsite
      have hbody : target.method.hasBody = true :=
        Method.hasBody_of_isBridgeable ((Setting.exposes_selected hstatic ht hb).symm.trans he)
      have hcalled : target.method.name = method := (Setting.name_of_realTarget ht).trans hname
      refine .body rfl hbody ⟨_, still_bridgeFor m site.runtimeType, fun run => ?_⟩
      have hcarried := carryOut_across hsound htype hb he hbody run method arguments
      rw [hcalled] at hcarried
      exact hcarried
  | noOp ht => exact .noOp ht (Dispatcher.new_resolve_answer ht) (Value.defaultOf_defaultFor _) (answers_self m _)
  | refuse reason => exact .refuse (answers_self m _)

/-- A call does what the setting decides for its shape. -/
theorem fulfils_call (hsound : m.dispatcher.Sound)
    (hsite : m.siteOf receiver method arguments request = .ok site)
    (hdecision : m.dispatcher.setting.decide site = .ok decision) :
    m.Fulfils site ⟨receiver, site.runtimeType, method, arguments⟩
      (fun run => call run receiver method arguments request m) decision := by
  have hanswer : (m.dispatcher.resolve site).answer = .ok decision := (hsound.resolve_answer site).trans hdecision
  have hstill : m.Still (m.absorb (m.dispatcher.resolve site)) := still_resolve m site
  have horigin : (m.absorb (m.dispatcher.resolve site)).dispatcher.setting.Origin site decision := by
    rw [hstill.setting]
    exact Setting.origin_decide hdecision
  have hsite' : (m.absorb (m.dispatcher.resolve site)).siteOf receiver method arguments request = .ok site := by
    rw [hstill.siteOf]
    exact hsite
  have hcarried := (fulfils_carryOut (hsound.resolve site) horigin hsite').of_still hstill
  unfold call
  simp only [hsite, hanswer]
  exact hcarried

/-! ## Announcements -/

/-- What there is to announce of a normal call: why its shape can not be made out, or what is decided for it. -/
def announcement (m : Machine) (receiver : Receiver) (method : String) (arguments : List Value) :
    Except Error Decision :=
  match m.siteOf receiver method arguments .normal with
  | .error e => .error e
  | .ok site => m.dispatcher.setting.decide site

theorem Still.announcement (hm : m.Still m') (receiver : Receiver) (method : String) (arguments : List Value) :
    m'.announcement receiver method arguments = m.announcement receiver method arguments := by
  unfold Machine.announcement
  rw [hm.siteOf, hm.setting]

/-- To ask is answered with the announcement, and leaves the machine still and its dispatcher sound. -/
theorem perform_resolve (hsound : m.dispatcher.Sound) (receiver : Receiver) (method : String) (arguments : List Value) :
    ∃ after, m.Still after ∧ after.dispatcher.Sound ∧ ∀ run,
      perform run (.resolve receiver method arguments) m = (.done (m.announcement receiver method arguments), after) := by
  cases hsite : m.siteOf receiver method arguments .normal with
  | error e =>
    refine ⟨m, .refl m, hsound, fun run => ?_⟩
    simp only [perform, announcement, hsite]
  | ok site =>
    refine ⟨_, still_resolve m site, hsound.resolve site, fun run => ?_⟩
    simp only [perform, announcement, hsite, hsound.resolve_answer]

theorem follows_announcement (hsound : m.dispatcher.Sound) (receiver : Receiver) (method : String)
    (arguments : List Value) : m.Follows receiver method arguments (m.announcement receiver method arguments) := by
  unfold announcement
  cases hsite : m.siteOf receiver method arguments .normal with
  | error e =>
    refine .failed ⟨m, .refl m, fun run => ?_⟩
    simp only [call, hsite]
  | ok site =>
    change m.Follows receiver method arguments (m.dispatcher.setting.decide site)
    cases hdecision : m.dispatcher.setting.decide site with
    | error e =>
      refine .failed ⟨_, still_resolve m site, fun run => ?_⟩
      simp only [call, hsite, hsound.resolve_answer, hdecision]
    | ok decision => exact .decided hsite (fulfils_call hsound hsite hdecision)

/-- Take any machine whose dispatcher went through any run. To ask where a normal call would go is answered at once, and
what fails in making out the shape of the call is the answer. The call does what was announced, whether it is made
without asking or after it: an error is answered as it is, a no-op with the default value of what the real method
returns that the call would go to if nothing were shadowed, and a refusal with its reason; and a target has its body
run, once, on the receiver, the runtime type, the name and the arguments of the call, or is refused for want of a body.
Whatever is answered at once leaves the memory as it was and starts no body. And a call ends as the body does that the
answer comes from, however many bodies hand it on. -/
theorem call_as_announced (h : Hierarchy) (rules : Rules) (level : Nat) (steps : List Dispatcher.Step) (id : Nat)
    (memory : Memory) (j : Journal) (receiver : Receiver) (method : String) (arguments : List Value) :
    let m : Machine := ⟨id, (Dispatcher.new h rules level).after steps, memory, j⟩
    ∃ (announced : Except Error Decision) (after : Machine), m.Still after ∧
      (∀ run, perform run (.resolve receiver method arguments) m = (.done announced, after)) ∧
      (∀ e, m.siteOf receiver method arguments .normal = .error e → announced = .error e) ∧
      m.Follows receiver method arguments announced ∧ after.Follows receiver method arguments announced ∧
      ∀ (m' : Machine) (code : Code) (depth depth' : Nat) (innermost : Program (Except Error Value)) (inside : Machine),
        code.HandsOn depth (.ask (.call receiver method arguments .normal)) m' depth' innermost inside →
          call (code.runBody depth) receiver method arguments .normal m' =
            innermost.runWith (code.runBody depth') inside := by
  intro m
  have hsound : m.dispatcher.Sound := (Dispatcher.sound_new h rules level).after steps
  obtain ⟨after, hstill, hsound', hasked⟩ := perform_resolve hsound receiver method arguments
  have hafter := follows_announcement hsound' receiver method arguments
  rw [hstill.announcement] at hafter
  refine ⟨m.announcement receiver method arguments, after, hstill, hasked, fun e he => ?_,
    follows_announcement hsound receiver method arguments, hafter, fun m' code depth _ _ _ hands => ?_⟩
  · simp only [announcement, he]
  · exact (Program.runWith_ask (code.runBody depth) (.call receiver method arguments .normal) m').symm.trans
      hands.runWith_eq

end Machine

/-! ## A shadow's method that hands on -/

namespace Sample

def drawShadowed : Method := { draw with serial := 1 }

/-- A machine with a button, whose view is shadowed. -/
def shadowed : Machine :=
  let d := (Dispatcher.new hierarchy .none 30).after [.install registry]
  ⟨1, d, (code.run (.ask (.create "Button")) ⟨1, d, Memory.blank.load hierarchy, .empty⟩).2.memory, .empty⟩

/-- The view is bound to a shadow without methods. -/
def mute : Registry := ⟨KeyMap.ofList [("View", .ofShadow (.alone { shadowView.own with methods := [] }))]⟩

def muted : Machine := { shadowed with dispatcher := (Dispatcher.new hierarchy .none 30).after [.install mute] }

/-- To draw the button comes down to the real method: the method of the shadow takes the registry out of force and hands
on what a call of its own comes to. -/
theorem handsOn_draw :
    ∃ inside, code.HandsOn 2 (.ask (.call (.instance ⟨1, 0⟩) "draw" [] .normal)) shadowed 0 (.done (.ok (.i32 7)))
      inside := by
  let frame : Frame := ⟨.instance ⟨1, 0⟩, "Button", "draw", []⟩
  let resolved (m : Machine) : Machine := m.absorb (m.dispatcher.resolve drawButton)
  let inShadow : Machine := (resolved shadowed).began drawShadowed frame
  let unshadowed : Machine := { inShadow with dispatcher := (inShadow.dispatcher.install .empty).2 }
  have hshadow : ∀ run, Machine.call run (.instance ⟨1, 0⟩) "draw" [] .normal shadowed =
      run drawShadowed frame ((resolved shadowed).began drawShadowed frame) := fun _ => rfl
  have hinstall : ∀ run, Machine.perform run (.install .empty) inShadow =
      (.done (inShadow.dispatcher.install .empty).1, unshadowed) := fun _ => rfl
  have hreal : ∀ run, Machine.call run (.instance ⟨1, 0⟩) "draw" [] .normal unshadowed =
      run draw frame ((resolved unshadowed).began draw frame) := fun _ => rfl
  exact ⟨_, .within hshadow (.later (hinstall _) (.within hreal .here))⟩

end Sample

namespace Machine

/-- To draw the button is announced to go to the method of the shadow, and does, and ends as the real method does. Where
the shadow has no method for it, nothing is announced to be done, and the answer is zero. -/
theorem call_as_announced_shadowed :
    (∃ after, (∀ run, perform run (.resolve (.instance ⟨1, 0⟩) "draw" []) Sample.shadowed =
        (.done (.ok (.shadow ⟨"ShadowView", Sample.drawShadowed⟩)), after)) ∧
      after.Arrives Sample.drawShadowed ⟨.instance ⟨1, 0⟩, "Button", "draw", []⟩ (fun run =>
        call run (.instance ⟨1, 0⟩) "draw" [] .normal after) ∧
      (call (Sample.code.runBody 2) (.instance ⟨1, 0⟩) "draw" [] .normal Sample.shadowed).1 = .done (.ok (.i32 7))) ∧
    ∃ after, (∀ run, perform run (.resolve (.instance ⟨1, 0⟩) "draw" []) Sample.muted =
        (.done (.ok (.noOp (.primitive .i32))), after)) ∧
      after.Answers (.ok (.i32 0)) fun run => call run (.instance ⟨1, 0⟩) "draw" [] .normal after := by
  constructor
  · obtain ⟨announced, after, hstill, hasked, _, _, hfollows, hhanded⟩ := call_as_announced Sample.hierarchy .none 30
      [.install Sample.registry] 1 Sample.shadowed.memory .empty (.instance ⟨1, 0⟩) "draw" []
    have hannounced : announced = .ok (.shadow ⟨"ShadowView", Sample.drawShadowed⟩) := by
      have hfirst := congrArg Prod.fst (hasked fun _ _ m => (.unfinished, m))
      exact (Outcome.done.inj hfirst).symm
    subst hannounced
    refine ⟨after, hasked, ?_, ?_⟩
    · cases hfollows with
      | decided hsite h =>
        rw [hstill.siteOf] at hsite
        cases hsite
        cases h with
        | body htarget _ h =>
          cases htarget
          exact h
        | noBody htarget hbody _ =>
          cases htarget
          cases hbody
    · obtain ⟨_, hands⟩ := Sample.handsOn_draw
      rw [hhanded _ _ _ _ _ _ hands]
      rfl
  · obtain ⟨announced, after, _, hasked, _, _, hfollows, _⟩ := call_as_announced Sample.hierarchy .none 30
      [.install Sample.mute] 1 Sample.shadowed.memory .empty (.instance ⟨1, 0⟩) "draw" []
    have hannounced : announced = .ok (.noOp (.primitive .i32)) := by
      have hfirst := congrArg Prod.fst (hasked fun _ _ m => (.unfinished, m))
      exact (Outcome.done.inj hfirst).symm
    subst hannounced
    refine ⟨after, hasked, ?_⟩
    cases hfollows with
    | decided _ h =>
      obtain ⟨value, hdefault, hanswers⟩ := h.exists_default
      obtain rfl : value = .i32 0 := Value.defaultOf_iff.1 hdefault
      exact hanswers

end Machine

end Interpose
