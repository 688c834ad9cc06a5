import Interpose.Proofs.Execution.Moves

/-!
# The moments of a run

A run is more than its end: what holds while a body runs that another body called has to be stated of the
machine as it is then. The moments of a run are the operations that it performs, those of the bodies its calls
start included, each with the machine that it is performed on.
-/

namespace Interpose

namespace Machine

/-- Performing an operation comes down to running this body on this machine, whichever way bodies are run. -/
def Starts (op : Op) (m : Machine) (method : Method) (frame : Frame) (m' : Machine) : Prop :=
  ∀ run, (perform run op m).2 = (run method frame m').2

/-- What happens before a body starts amounts to moves. -/
theorem Starts.reaches {op : Op} {m m' : Machine} {method : Method} {frame : Frame}
    (h : Starts op m method frame m') : Reaches m m' := by
  -- With bodies that are given up at once, the machine afterwards is the one before the body.
  have hidle : MovesOnly fun _ _ m => (.unfinished, m) := fun _ _ _ => .refl
  have hop := reaches_perform hidle op m
  rwa [h] at hop

end Machine

open Machine

/-- The operations that a program performs, or a body that it calls, directly or not. Calls may nest so deep
as given. -/
inductive Code.Performs (code : Code) : {α : Type} → Nat → Program α → Machine → Op → Machine → Prop
  | now {α : Type} {depth : Nat} {op : Op} {next : op.Answer → Program α} {m : Machine} :
      Performs code depth (.perform op next) m op m
  /-- After the answer of the first operation. -/
  | later {α : Type} {depth : Nat} {op : Op} {next : op.Answer → Program α} {m m' : Machine}
      {answer : op.Answer} {op' : Op} {at' : Machine}
      (h : Machine.perform (code.runBody depth) op m = (.done answer, m'))
      (rest : Performs code depth (next answer) m' op' at') :
      Performs code depth (.perform op next) m op' at'
  /-- In the body that the first operation starts. -/
  | within {α : Type} {depth : Nat} {op : Op} {next : op.Answer → Program α} {m m' : Machine}
      {method : Method} {frame : Frame} {op' : Op} {at' : Machine}
      (h : Starts op m method frame m')
      (rest : Performs code depth (code.body method.serial frame) m' op' at') :
      Performs code (depth + 1) (.perform op next) m op' at'

/-- A moment of a run is reached by moves. -/
theorem Code.Performs.reaches {code : Code} {α : Type} {depth : Nat} {p : Program α} {m m' : Machine}
    {op : Op} (h : code.Performs depth p m op m') : Reaches m m' := by
  induction h with
  | now => exact .refl
  | later h _ ih => exact (reaches_of_perform (code.movesOnly_runBody _) h).trans ih
  | within h _ ih => exact h.reaches.trans ih

/-- An operation stands nowhere in a program. -/
def Program.Avoids {α : Type} (op : Op) : Program α → Prop
  | done _ | panic _ => True
  | perform op' next => op' ≠ op ∧ ∀ answer, (next answer).Avoids op

/-- An operation that stands in no program is not performed. -/
theorem Code.not_performs_of_avoids {code : Code} {op : Op}
    (hbody : ∀ serial frame, (code.body serial frame).Avoids op) {α : Type} {depth : Nat} {p : Program α}
    {m m' : Machine} (hp : p.Avoids op) : ¬code.Performs depth p m op m' := by
  intro h
  induction h with
  | now => exact hp.1 rfl
  | later _ _ ih => exact ih hbody (hp.2 _)
  | within _ _ ih => exact ih hbody (hbody _ _)

end Interpose

/-! ## Code for the small world -/

namespace Interpose.Sample

/-- The shadow's method takes the registry out of force and calls again, which gets through to the real
method. -/
def code : Code where
  body serial frame :=
    if serial = 1 then
      .perform (.install .empty) fun _ => .ask (.call frame.receiver frame.method frame.arguments .normal)
    else .done (.ok (.i32 7))
  resetter _ := .done (.ok ())
  depth := 2

/-- Makes a button and draws it. -/
def drawNew : Program (Except Error Value) :=
  .perform (.create "Button") fun
    | .ok handle => .ask (.call (.instance handle) "draw" [] .normal)
    | .error e => .done (.error e)

theorem body_avoids_dispatcher (serial : Nat) (frame : Frame) : (code.body serial frame).Avoids .dispatcher := by
  unfold code
  simp only
  split
  · exact ⟨Op.noConfusion, fun _ => ⟨Op.noConfusion, fun _ => trivial⟩⟩
  · trivial

theorem drawNew_avoids_dispatcher : drawNew.Avoids .dispatcher := by
  refine ⟨Op.noConfusion, fun answer => ?_⟩
  cases answer with
  | ok handle => exact ⟨Op.noConfusion, fun _ => trivial⟩
  | error e => trivial

end Interpose.Sample
