import Interpose.Execution.Machine
import Interpose.Proofs.Dispatch.Steps
import Mathlib.Logic.Relation

/-!
# What running code does to a machine

However a program branches and however deep its calls nest, it changes the machine by a sequence of moves, each
of which is one of a dozen. What every move keeps is therefore kept by every run. Nothing is said here of the
answers that the program receives on the way.
-/

namespace Interpose

/-- What holds where a run may stop and is kept by what follows holds at the end. -/
theorem Outcome.andThen_end {α β σ : Type} {P : σ → Prop} {ended : Outcome α × σ}
    {next : α → σ → Outcome β × σ} (h : P ended.2) (hnext : ∀ a, ended.1 = .done a → P (next a ended.2).2) :
    P (andThen ended next).2 := by
  obtain ⟨outcome, s⟩ := ended
  cases outcome with
  | done a => exact hnext a rfl
  | panicked payload => exact h
  | unfinished => exact h

/-- The events that a step of a dispatcher gives rise to. -/
def Dispatcher.eventsOf (d : Dispatcher) : Dispatcher.Step → List Event
  | .resolve site => (d.resolve site).events
  | .bridgeFor typeId => (d.bridgeFor typeId).events
  | .install _ | .cached _ | .clear => []

theorem Journal.addEvents_nil (j : Journal) : j.addEvents [] = j := by
  simp [Journal.addEvents]

namespace Machine

/-- One thing that running code does to the machine it runs on. -/
inductive Moves : Machine → Machine → Prop
  | dispatch (m : Machine) (s : Dispatcher.Step) :
      Moves m { m with
        dispatcher := m.dispatcher.step s
        journal := m.journal.addEvents (m.dispatcher.eventsOf s) }
  | create {m : Machine} {typeId : String} {handle : ObjectHandle} {memory : Memory}
      (h : m.memory.create m.hierarchy typeId = .ok (handle, memory)) :
      Moves m { m with memory := memory }
  | setField {m : Machine} {handle : ObjectHandle} {field : String} {value : Value} {memory : Memory}
      (h : m.memory.setField handle field value = .ok memory) :
      Moves m { m with memory := memory }
  | setStatic (m : Machine) (typeId field : String) (value : Value) :
      Moves m { m with memory := (m.memory.setStatic m.hierarchy typeId field value).2 }
  | setShadowStatic (m : Machine) (shadowId key : String) (value : Value) :
      Moves m { m with memory := m.memory.setShadowStatic shadowId key value }
  | start (m : Machine) (body : Started) :
      Moves m { m with journal := { m.journal with started := body :: m.journal.started } }
  | trace (m : Machine) (value : Value) :
      Moves m { m with journal := { m.journal with trace := m.journal.trace ++ [value] } }
  | record (m : Machine) (value : Value) :
      Moves m { m with journal := { m.journal with record := m.journal.record ++ [value] } }
  | draw (m : Machine) (counter : String) :
      Moves m { m with journal := (m.journal.draw counter).2 }

/-- A sequence of moves. -/
abbrev Reaches : Machine → Machine → Prop := Relation.ReflTransGen Moves

theorem Moves.reaches {m m' : Machine} (h : Moves m m') : Reaches m m' := .single h

/-- What an operation comes down to: moves, and then either an outcome or the run of one body, whose outcome is
passed on. The way to run bodies is left open. -/
inductive Unfolds {α : Type} (m : Machine) (f : BodyRunner → Outcome α × Machine) : Prop
  | ended {outcome : Outcome α} {m' : Machine} (hm : Reaches m m') (h : ∀ run, f run = (outcome, m'))
  | body (finish : Outcome (Except Error Value) → Outcome α) {method : Method} {frame : Frame} {m' : Machine}
      (hm : Reaches m m') (h : ∀ run, f run = (finish (run method frame m').1, (run method frame m').2))

section Unfolding

variable {α : Type}

theorem unfolds_ended (m : Machine) (outcome : Outcome α) : Unfolds m fun _ => (outcome, m) :=
  .ended .refl fun _ => rfl

/-- A move with an outcome. -/
theorem Moves.unfolds {m m' : Machine} (h : Moves m m') (outcome : Outcome α) :
    Unfolds m fun _ => (outcome, m') := .ended h.reaches fun _ => rfl

theorem Unfolds.of_reaches {m m' : Machine} {f : BodyRunner → Outcome α × Machine} (hm : Reaches m m')
    (h : Unfolds m' f) : Unfolds m f := by
  cases h with
  | ended hm' h => exact .ended (hm.trans hm') h
  | body finish hm' h => exact .body finish (hm.trans hm') h

/-! ## One operation -/

theorem reaches_bridgeFor (m : Machine) (typeId : String) :
    Reaches m (m.absorb (m.dispatcher.bridgeFor typeId)) :=
  (Moves.dispatch m (.bridgeFor typeId)).reaches

theorem reaches_resolve (m : Machine) (site : CallSite) :
    Reaches m (m.absorb (m.dispatcher.resolve site)) :=
  (Moves.dispatch m (.resolve site)).reaches

theorem unfolds_withMemory {β : Type} {m : Machine} {answer : Except Error α} {value : α → β}
    {memory : α → Memory} (h : ∀ a, answer = .ok a → Moves m { m with memory := memory a }) :
    Unfolds m fun _ => m.withMemory answer value memory := by
  cases answer with
  | error e => exact unfolds_ended m _
  | ok a => exact (h a rfl).unfolds _

theorem unfolds_start (method : Method) (frame : Frame) (m : Machine) :
    Unfolds m fun run => start run method frame m := by
  unfold start
  split
  · exact .body id (Moves.start m ⟨method.serial, frame⟩).reaches fun _ => rfl
  · exact unfolds_ended m _

theorem unfolds_callTarget (bridge : Bridge) (handle : ObjectHandle) (target : Target)
    (arguments : List Value) (m : Machine) :
    Unfolds m fun run => callTarget run bridge handle target arguments m := by
  unfold callTarget
  split
  · exact unfolds_ended m _
  · split
    · exact unfolds_start _ _ _
    · exact unfolds_ended m _

theorem unfolds_callBridge (bridge : Bridge) (handle : ObjectHandle) (method : String)
    (arguments : List Value) (m : Machine) :
    Unfolds m fun run => callBridge run bridge handle method arguments m := by
  unfold callBridge
  split
  · exact unfolds_ended m _
  · split
    · exact unfolds_ended m _
    · simp only
      split
      · exact unfolds_ended m _
      · exact unfolds_ended m _
      · exact unfolds_start _ _ _

theorem unfolds_carryOut (site : CallSite) (decision : Decision) (frame : Frame) (m : Machine) :
    Unfolds m fun run => carryOut run site decision frame m := by
  unfold carryOut
  split
  · exact unfolds_start _ _ _
  · exact unfolds_start _ _ _
  · split
    · exact unfolds_ended m _
    · apply Unfolds.of_reaches (reaches_bridgeFor m site.runtimeType)
      simp only
      split
      · exact unfolds_ended _ _
      · exact unfolds_callTarget _ _ _ _ _
  · exact unfolds_ended m _
  · exact unfolds_ended m _

theorem unfolds_call (receiver : Receiver) (method : String) (arguments : List Value) (request : Request)
    (m : Machine) : Unfolds m fun run => call run receiver method arguments request m := by
  unfold call
  split
  · exact unfolds_ended m _
  · rename_i site _
    apply Unfolds.of_reaches (reaches_resolve m site)
    simp only
    split
    · exact unfolds_ended _ _
    · exact unfolds_carryOut _ _ _ _

theorem unfolds_perform (op : Op) (m : Machine) : Unfolds m fun run => perform run op m := by
  cases op with
  | create typeId => exact unfolds_withMemory fun _ h => .create h
  | setField handle field value => exact unfolds_withMemory fun _ h => .setField h
  | setStatic typeId field value => exact (Moves.setStatic m typeId field value).unfolds _
  | setShadowStatic shadowId key value => exact (Moves.setShadowStatic m shadowId key value).unfolds _
  | call receiver method arguments request => exact unfolds_call _ _ _ _ _
  | callBridge bridge handle method arguments => exact unfolds_callBridge _ _ _ _ _
  | callTarget bridge handle target arguments => exact unfolds_callTarget _ _ _ _ _
  | resolve receiver method arguments =>
    simp only [perform]
    split
    · exact unfolds_ended m _
    · exact .ended (reaches_resolve _ _) fun _ => rfl
  | resolveSite site => exact .ended (reaches_resolve _ _) fun _ => rfl
  | bridge typeId => exact .ended (reaches_bridgeFor _ _) fun _ => rfl
  | install registry =>
    have h := Moves.dispatch m (.install registry)
    rw [Dispatcher.eventsOf, Journal.addEvents_nil] at h
    exact h.unfolds _
  | forget =>
    have h := Moves.dispatch m .clear
    rw [Dispatcher.eventsOf, Journal.addEvents_nil] at h
    exact h.unfolds _
  | trace value => exact (Moves.trace m value).unfolds _
  | record value => exact (Moves.record m value).unfolds _
  | draw counter => exact (Moves.draw m counter).unfolds _
  | typeOf _ | kindOf _ | getField _ _ | getStatic _ _ | getShadowStatic _ _ | site _ _ _ _ | inspect
  | setting | dispatcher | level | sandboxId => exact unfolds_ended m _

end Unfolding

section Bodies

/-- Bodies are run by moves. -/
def MovesOnly (run : BodyRunner) : Prop := ∀ method frame m, Reaches m (run method frame m).2

variable {run : BodyRunner}

theorem reaches_perform (hrun : MovesOnly run) (op : Op) (m : Machine) : Reaches m (perform run op m).2 := by
  cases unfolds_perform op m with
  | ended hm h =>
    rw [h]
    exact hm
  | body finish hm h =>
    rw [h]
    exact hm.trans (hrun _ _ _)

theorem reaches_of_perform (hrun : MovesOnly run) {op : Op} {m m' : Machine} {outcome : Outcome op.Answer}
    (h : perform run op m = (outcome, m')) : Reaches m m' := by
  have hop := reaches_perform hrun op m
  rwa [h] at hop

end Bodies

end Machine

/-! ## Whole runs -/

open Machine

theorem Program.reaches_runWith {run : BodyRunner} (hrun : MovesOnly run) {α : Type} (p : Program α)
    (m : Machine) : Reaches m (p.runWith run m).2 := by
  induction p generalizing m with
  | done result => exact .refl
  | panic payload => exact .refl
  | perform op next ih =>
    have hop := reaches_perform hrun op m
    exact Outcome.andThen_end (P := Reaches m) hop fun answer _ => hop.trans (ih answer _)

theorem Code.movesOnly_runBody (code : Code) (depth : Nat) : MovesOnly (code.runBody depth) := by
  induction depth with
  | zero => exact fun _ _ _ => .refl
  | succ depth ih => exact fun method frame m => Program.reaches_runWith ih _ m

/-- Running a program amounts to moves. -/
theorem Code.reaches_run (code : Code) {α : Type} (p : Program α) (m : Machine) :
    Reaches m (code.run p m).2 :=
  Program.reaches_runWith (code.movesOnly_runBody code.depth) p m

theorem Code.reaches_of_run {code : Code} {α : Type} {p : Program α} {m m' : Machine} {outcome : Outcome α}
    (h : code.run p m = (outcome, m')) : Reaches m m' := by
  have hrun := code.reaches_run p m
  rwa [h] at hrun

/-! ## What all moves keep -/

/-- What the dispatcher goes through is a run of its steps. -/
theorem Machine.Reaches.exists_steps {m m' : Machine} (h : Reaches m m') :
    ∃ steps, m'.dispatcher = m.dispatcher.after steps := by
  induction h with
  | refl => exact ⟨[], rfl⟩
  | tail _ hmove ih =>
    obtain ⟨steps, hsteps⟩ := ih
    cases hmove with
    | dispatch s => exact ⟨steps ++ [s], by rw [Dispatcher.after_concat, ← hsteps]⟩
    | create | setField | setStatic | setShadowStatic | start | trace | record | draw =>
      exact ⟨steps, hsteps⟩

theorem Machine.Reaches.sandboxId {m m' : Machine} (h : Reaches m m') : m'.sandboxId = m.sandboxId := by
  induction h with
  | refl => rfl
  | tail _ hmove ih =>
    rw [← ih]
    cases hmove <;> rfl

end Interpose
