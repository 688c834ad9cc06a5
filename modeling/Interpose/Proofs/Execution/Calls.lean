import Interpose.Proofs.Execution.Alike

/-!
# What a call comes down to

A call answers at once or starts one body. Before the body starts the dispatcher may come to remember more, and
that is all that happens: the memory is what it was. The body that a call starts can be read off the journal,
where it was entered last.
-/

namespace Interpose

namespace Machine

variable {m m' m₁ m₂ : Machine}

/-- Nothing happened but that the dispatcher remembers something else, and events of this. -/
structure Still (m m' : Machine) : Prop where
  sandboxId : m'.sandboxId = m.sandboxId
  setting : m'.dispatcher.setting = m.dispatcher.setting
  memory : m'.memory = m.memory
  journal : m'.journal.quiet = m.journal.quiet

namespace Still

theorem refl (m : Machine) : m.Still m := ⟨rfl, rfl, rfl, rfl⟩

theorem trans (h : m.Still m₁) (h' : m₁.Still m₂) : m.Still m₂ where
  sandboxId := h'.sandboxId.trans h.sandboxId
  setting := h'.setting.trans h.setting
  memory := h'.memory.trans h.memory
  journal := h'.journal.trans h.journal

theorem hierarchy (h : m.Still m') : m'.hierarchy = m.hierarchy := congrArg Setting.hierarchy h.setting

end Still

theorem still_resolve (m : Machine) (site : CallSite) : m.Still (m.absorb (m.dispatcher.resolve site)) :=
  ⟨rfl, Dispatcher.resolve_setting _ _, rfl, rfl⟩

theorem still_bridgeFor (m : Machine) (typeId : String) : m.Still (m.absorb (m.dispatcher.bridgeFor typeId)) :=
  ⟨rfl, Dispatcher.bridgeFor_setting _ _, rfl, rfl⟩

/-- The machine on which a body starts to run. -/
def began (m : Machine) (method : Method) (frame : Frame) : Machine :=
  { m with journal := { m.journal with started := ⟨method.serial, frame⟩ :: m.journal.started } }

theorem start_of_hasBody {method : Method} (hb : method.hasBody = true) (run : BodyRunner) (frame : Frame)
    (m : Machine) : start run method frame m = run method frame (m.began method frame) := by
  rw [start, if_pos hb]
  rfl

/-- A call: it ends with an answer at once, or as a body does. -/
inductive Comes (m : Machine) (f : BodyRunner → Outcome (Except Error Value) × Machine) : Prop
  | answered {answer : Except Error Value} {m' : Machine} (hm : m.Still m') (h : ∀ run, f run = (.done answer, m'))
  | body {method : Method} {frame : Frame} {m' : Machine} (hm : m.Still m')
      (h : ∀ run, f run = run method frame (m'.began method frame))

theorem Comes.of_still {f : BodyRunner → Outcome (Except Error Value) × Machine} (hm : m.Still m')
    (h : Comes m' f) : Comes m f := by
  cases h with
  | answered hm' h => exact .answered (hm.trans hm') h
  | body hm' h => exact .body (hm.trans hm') h

theorem comes_answered (m : Machine) (answer : Except Error Value) : Comes m fun _ => (.done answer, m) :=
  .answered (.refl m) fun _ => rfl

theorem comes_start (method : Method) (frame : Frame) (m : Machine) :
    Comes m fun run => start run method frame m := by
  unfold start
  split
  · exact .body (.refl m) fun _ => rfl
  · exact comes_answered m _

theorem comes_callTarget (bridge : Bridge) (handle : ObjectHandle) (target : Target) (arguments : List Value)
    (m : Machine) : Comes m fun run => callTarget run bridge handle target arguments m := by
  unfold callTarget
  split
  · exact comes_answered m _
  · split
    · exact comes_start _ _ _
    · exact comes_answered m _

theorem comes_callBridge (bridge : Bridge) (handle : ObjectHandle) (method : String) (arguments : List Value)
    (m : Machine) : Comes m fun run => callBridge run bridge handle method arguments m := by
  unfold callBridge
  split
  · exact comes_answered m _
  · split
    · exact comes_answered m _
    · simp only
      split
      · exact comes_answered m _
      · exact comes_answered m _
      · exact comes_start _ _ _

theorem comes_carryOut (site : CallSite) (decision : Decision) (frame : Frame) (m : Machine) :
    Comes m fun run => carryOut run site decision frame m := by
  unfold carryOut
  split
  · exact comes_start _ _ _
  · exact comes_start _ _ _
  · split
    · exact comes_answered m _
    · apply Comes.of_still (still_bridgeFor m site.runtimeType)
      simp only
      split
      · exact comes_answered _ _
      · exact comes_callTarget _ _ _ _ _
  · exact comes_answered m _
  · exact comes_answered m _

theorem comes_call (receiver : Receiver) (method : String) (arguments : List Value) (request : Request)
    (m : Machine) : Comes m fun run => call run receiver method arguments request m := by
  unfold call
  split
  · exact comes_answered m _
  · rename_i site _
    apply Comes.of_still (still_resolve m site)
    simp only
    split
    · exact comes_answered _ _
    · exact comes_carryOut _ _ _ _

end Machine

end Interpose
