import Interpose.Proofs.Execution.Calls

/-!
# The operations of a run, in order

A run performs operations one after another, those of a called body between the call and what follows it. Listed
in this order, each with the machine that it is performed on, they account for the memory: what an operation finds
is what the operations before it left, and a call itself leaves the memory as it is.
-/

namespace Interpose

/-- An operation and the machine that it is performed on. -/
structure Moment where
  op : Op
  machine : Machine

namespace Machine

/-- The body that an operation starts, if it starts one, and the machine that it starts on. It is found by having
bodies given up at once: the machine is then left as the body would find it. -/
def opened? (m : Machine) (op : Op) : Option (Started × Machine) :=
  match perform (fun _ _ m => (.unfinished, m)) op m with
  | (.unfinished, m') => m'.journal.started.head?.map (·, m')
  | _ => none

end Machine

/-- The operations of a program, given those of the bodies that it calls. -/
def Program.moments {α : Type} (run : BodyRunner) (inside : Started → Machine → List Moment) :
    Program α → Machine → List Moment
  | done _, _ | panic _, _ => []
  | perform op next, m =>
    ⟨op, m⟩ :: ((m.opened? op).elim [] fun opened => inside opened.1 opened.2) ++
      match Machine.perform run op m with
      | (.done answer, m') => moments run inside (next answer) m'
      | _ => []

namespace Code

/-- The operations of a body, with calls nested at most `depth` deep. -/
def bodyMoments (code : Code) : Nat → Started → Machine → List Moment
  | 0, _, _ => []
  | depth + 1, body, m =>
    (code.body body.serial body.frame).moments (code.runBody depth) (code.bodyMoments depth) m

/-- The operations that running a program performs, in order. -/
def moments {α : Type} (code : Code) (p : Program α) (m : Machine) : List Moment :=
  p.moments (code.runBody code.depth) (code.bodyMoments code.depth) m

end Code

/-- What an operation does to the memory by itself. What a called body does is left to its own operations. -/
def Memory.does (m : Memory) (h : Hierarchy) : Op → Memory
  | .create typeId =>
    match m.create h typeId with
    | .ok made => made.2
    | .error _ => m
  | .setField handle field value =>
    match m.setField handle field value with
    | .ok changed => changed
    | .error _ => m
  | .setStatic typeId field value => (m.setStatic h typeId field value).2
  | .setShadowStatic shadowId key value => m.setShadowStatic shadowId key value
  | _ => m

/-- What a list of operations, each on a machine with the memory that the ones before it left, makes of a memory. -/
inductive Memory.Traced : Memory → List Moment → Memory → Prop
  | nil (m : Memory) : Traced m [] m
  | cons {x : Moment} {rest : List Moment} {m' : Memory}
      (h : Traced (x.machine.memory.does x.machine.hierarchy x.op) rest m') : Traced x.machine.memory (x :: rest) m'

namespace Memory.Traced

variable {m m₁ m₂ : Memory} {past rest : List Moment} {x : Moment}

theorem append (h : Traced m past m₁) (h' : Traced m₁ rest m₂) : Traced m (past ++ rest) m₂ := by
  induction h with
  | nil => exact h'
  | cons _ ih => exact .cons (ih h')

/-- What an operation in the list finds is what the ones before it left. -/
theorem split (h : Traced m (past ++ x :: rest) m₂) :
    Traced m past x.machine.memory ∧ Traced (x.machine.memory.does x.machine.hierarchy x.op) rest m₂ := by
  induction past generalizing m with
  | nil =>
    cases h with
    | cons h => exact ⟨.nil _, h⟩
  | cons y past ih =>
    cases h with
    | cons h => exact ⟨.cons (ih h).1, (ih h).2⟩

end Memory.Traced

/-! ## One operation -/

namespace Machine

variable {m : Machine} {op : Op}

/-- An operation answers at once and does to the memory what it does by itself; or it starts a body, which finds the
memory as it was, and ends as the body does. One operation puts another registry in force. -/
inductive Proceeds (m : Machine) (op : Op) : Prop
  | answered (answer : op.Answer) (m' : Machine) (h : ∀ run, perform run op m = (.done answer, m'))
      (hmemory : m'.memory = m.memory.does m.hierarchy op)
      (hregistry : (∀ registry, op ≠ .install registry) → m'.dispatcher.registry = m.dispatcher.registry)
  | body (finish : Outcome (Except Error Value) → Outcome op.Answer) (hfinish : finish .unfinished = .unfinished)
      (method : Method) (frame : Frame) (m' : Machine) (hm : m.Still m')
      (hself : m.memory.does m.hierarchy op = m.memory)
      (h : ∀ run, perform run op m = (finish (run method frame (m'.began method frame)).1,
        (run method frame (m'.began method frame)).2))

theorem proceeds_of_comes (op : Op) {f : BodyRunner → Outcome (Except Error Value) × Machine} (h : Comes m f)
    (hself : m.memory.does m.hierarchy op = m.memory) (finish : Outcome (Except Error Value) → Outcome op.Answer)
    (hdone : ∀ answer, ∃ answer', finish (.done answer) = .done answer') (hfinish : finish .unfinished = .unfinished)
    (hop : ∀ run, perform run op m = (finish (f run).1, (f run).2)) : Proceeds m op := by
  cases h with
  | @answered answer m' hm h =>
    obtain ⟨answer', ha⟩ := hdone answer
    have hregistry : m'.dispatcher.registry = m.dispatcher.registry := congrArg Setting.registry hm.setting
    refine .answered answer' m' (fun run => ?_) (hm.memory.trans hself.symm) fun _ => hregistry
    rw [hop, h, ha]
  | @body method frame m' hm h =>
    refine .body finish hfinish method frame m' hm hself fun run => ?_
    rw [hop, h]

/-- Every operation proceeds in one of the two ways. -/
theorem proceeds_perform (op : Op) (m : Machine) : Proceeds m op := by
  cases op with
  | create typeId =>
    cases hc : m.memory.create m.hierarchy typeId with
    | error e =>
      refine .answered (.error e) m (fun run => ?_) ?_ fun _ => rfl
      · simp only [perform, withMemory, hc]
        rfl
      · simp only [Memory.does, hc]
    | ok made =>
      refine .answered (.ok made.1) { m with memory := made.2 } (fun run => ?_) ?_ fun _ => rfl
      · simp only [perform, withMemory, hc]
        rfl
      · simp only [Memory.does, hc]
  | setField handle field value =>
    cases hs : m.memory.setField handle field value with
    | error e =>
      refine .answered (.error e) m (fun run => ?_) ?_ fun _ => rfl
      · simp only [perform, withMemory, hs]
        rfl
      · simp only [Memory.does, hs]
    | ok memory =>
      refine .answered (.ok ()) { m with memory := memory } (fun run => ?_) ?_ fun _ => rfl
      · simp only [perform, withMemory, hs]
        rfl
      · simp only [Memory.does, hs]
  | call receiver method arguments request =>
    exact proceeds_of_comes (.call receiver method arguments request)
      (comes_call receiver method arguments request m) rfl id (fun answer => ⟨answer, rfl⟩) rfl fun _ => rfl
  | callBridge bridge handle method arguments =>
    exact proceeds_of_comes (.callBridge bridge handle method arguments)
      (comes_callBridge bridge handle method arguments m) rfl id (fun answer => ⟨answer, rfl⟩) rfl fun _ => rfl
  | callTarget bridge handle target arguments =>
    exact proceeds_of_comes (.callTarget bridge handle target arguments)
      (comes_callTarget bridge handle target arguments m) rfl id (fun answer => ⟨answer, rfl⟩) rfl fun _ => rfl
  | resolve receiver method arguments =>
    cases hsite : m.siteOf receiver method arguments .normal with
    | error e =>
      refine .answered (.error e) m (fun run => ?_) rfl fun _ => rfl
      simp only [perform, hsite]
    | ok site =>
      have hregistry := congrArg Setting.registry (m.still_resolve site).setting
      refine .answered (m.dispatcher.resolve site).answer (m.absorb (m.dispatcher.resolve site)) (fun run => ?_) rfl
        fun _ => hregistry
      simp only [perform, hsite]
  | resolveSite site =>
    exact .answered _ _ (fun _ => rfl) rfl fun _ => congrArg Setting.registry (m.still_resolve site).setting
  | bridge typeId =>
    exact .answered _ _ (fun _ => rfl) rfl fun _ => congrArg Setting.registry (m.still_bridgeFor typeId).setting
  | install registry => exact .answered _ _ (fun _ => rfl) rfl fun hop => absurd rfl (hop registry)
  | _ => exact .answered _ _ (fun _ => rfl) rfl fun _ => rfl

/-- An operation that answers at once opens no body; one that does not opens the body that it runs. -/
theorem opened?_of_answered {answer : op.Answer} {m' : Machine} (h : ∀ run, perform run op m = (.done answer, m')) :
    m.opened? op = none := by
  rw [opened?, h]

theorem opened?_of_body {finish : Outcome (Except Error Value) → Outcome op.Answer}
    (hfinish : finish .unfinished = .unfinished) {method : Method} {frame : Frame} {m' : Machine}
    (h : ∀ run, perform run op m = (finish (run method frame (m'.began method frame)).1,
      (run method frame (m'.began method frame)).2)) :
    m.opened? op = some (⟨method.serial, frame⟩, m'.began method frame) := by
  rw [opened?, h]
  simp only [hfinish]
  rfl

end Machine

/-! ## Whole runs -/

/-- The operations of a program account for the memory if those of the bodies that it calls do. -/
theorem Program.traced_runWith {run : BodyRunner} {inside : Started → Machine → List Moment}
    (hbodies : ∀ method frame (m : Machine),
      m.memory.Traced (inside ⟨method.serial, frame⟩ m) (run method frame m).2.memory)
    {α : Type} (p : Program α) (m : Machine) :
    m.memory.Traced (p.moments run inside m) (p.runWith run m).2.memory := by
  induction p generalizing m with
  | done result => exact .nil _
  | panic payload => exact .nil _
  | perform op next ih =>
    unfold moments runWith
    apply Memory.Traced.cons (x := ⟨op, m⟩)
    cases m.proceeds_perform op with
    | answered answer m' h hmemory _ =>
      rw [Machine.opened?_of_answered h, h, ← hmemory]
      exact ih answer m'
    | body finish hfinish method frame m' hm hself h =>
      rw [Machine.opened?_of_body hfinish h, h, hself, ← hm.memory]
      apply (hbodies method frame (m'.began method frame)).append
      cases finish (run method frame (m'.began method frame)).1 with
      | done answer => exact ih answer _
      | panicked payload => exact .nil _
      | unfinished => exact .nil _

theorem Code.traced_runBody (code : Code) (depth : Nat) (method : Method) (frame : Frame) (m : Machine) :
    m.memory.Traced (code.bodyMoments depth ⟨method.serial, frame⟩ m) (code.runBody depth method frame m).2.memory := by
  induction depth generalizing method frame m with
  | zero => exact .nil _
  | succ depth ih => exact Program.traced_runWith ih (code.body method.serial frame) m

/-- The operations of a run, in order, account for the memory. -/
theorem Code.traced_run (code : Code) {α : Type} (p : Program α) (m : Machine) :
    m.memory.Traced (code.moments p m) (code.run p m).2.memory :=
  Program.traced_runWith (code.traced_runBody code.depth) p m

/-! ## The moments of a run are those listed -/

/-- An operation that starts a body opens it. -/
theorem Machine.Starts.opened?_eq {op : Op} {m m' : Machine} {method : Method} {frame : Frame}
    (h : Starts op m method frame m') : m.opened? op = some (⟨method.serial, frame⟩, m') := by
  cases m.proceeds_perform op with
  | answered answer end_ hanswered _ _ =>
    -- The answer does not depend on how bodies are run, but a body could leave any machine.
    have hother := h fun _ _ m => (.unfinished, { m with sandboxId := end_.sandboxId + 1 })
    rw [hanswered] at hother
    exact absurd (congrArg Machine.sandboxId hother) (Nat.ne_of_lt (Nat.lt_succ_self _))
  | body finish hfinish method' frame' m₁ _ _ hbody =>
    have hmachine := h fun _ _ m => (.unfinished, m)
    have hentry := h fun method frame m =>
      (.unfinished, { m with journal := { m.journal with started := [⟨method.serial, frame⟩] } })
    rw [hbody] at hmachine hentry
    have hmachine' : m₁.began method' frame' = m' := hmachine
    have hstarted := congrArg (fun m => m.journal.started) hentry
    simp only [List.cons.injEq, and_true] at hstarted
    rw [Machine.opened?_of_body hfinish hbody, hstarted, hmachine']

theorem Program.mem_moments_of_performs {code : Code} {α : Type} {depth : Nat} {p : Program α} {m m' : Machine}
    {op : Op} (h : code.Performs depth p m op m') :
    ⟨op, m'⟩ ∈ p.moments (code.runBody depth) (code.bodyMoments depth) m := by
  induction h with
  | now =>
    unfold moments
    exact List.mem_append_left _ List.mem_cons_self
  | later h _ ih =>
    unfold moments
    rw [h]
    exact List.mem_append_right _ ih
  | within h _ ih =>
    unfold moments
    rw [h.opened?_eq]
    exact List.mem_append_left _ (List.mem_cons_of_mem _ ih)

theorem Program.performs_of_mem_moments {code : Code} {depth : Nat}
    (hbodies : ∀ d, depth = d + 1 → ∀ (method : Method) (frame : Frame) (m : Machine) (x : Moment),
      x ∈ code.bodyMoments depth ⟨method.serial, frame⟩ m →
        code.Performs d (code.body method.serial frame) m x.op x.machine)
    {α : Type} {p : Program α} {m : Machine} {x : Moment}
    (h : x ∈ p.moments (code.runBody depth) (code.bodyMoments depth) m) : code.Performs depth p m x.op x.machine := by
  induction p generalizing m with
  | done | panic => cases h
  | perform op next ih =>
    unfold moments at h
    rcases List.mem_append.1 h with h | h
    · rcases List.mem_cons.1 h with rfl | h
      · exact .now
      · cases m.proceeds_perform op with
        | answered _ _ hanswered _ _ =>
          rw [Machine.opened?_of_answered hanswered] at h
          cases h
        | body finish hfinish method frame m₁ _ _ hbody =>
          rw [Machine.opened?_of_body hfinish hbody] at h
          have hstarts : Machine.Starts op m method frame (m₁.began method frame) :=
            fun run => congrArg (·.2) (hbody run)
          cases depth with
          | zero => cases h
          | succ d => exact .within hstarts (hbodies d rfl method frame _ x h)
    · rcases hop : Machine.perform (code.runBody depth) op m with ⟨outcome, m₁⟩
      rw [hop] at h
      cases outcome with
      | done answer => exact .later hop (ih answer h)
      | panicked | unfinished => cases h

theorem Code.performs_of_mem_bodyMoments (code : Code) {depth d : Nat} (hd : depth = d + 1) (method : Method)
    (frame : Frame) (m : Machine) (x : Moment) (h : x ∈ code.bodyMoments depth ⟨method.serial, frame⟩ m) :
    code.Performs d (code.body method.serial frame) m x.op x.machine := by
  induction d generalizing depth method frame m x with
  | zero =>
    subst hd
    refine Program.performs_of_mem_moments (fun d hd => ?_) h
    cases hd
  | succ d ih =>
    subst hd
    refine Program.performs_of_mem_moments (fun d' hd' method frame m x hx => ?_) h
    cases hd'
    exact ih rfl method frame m x hx

/-- The operations listed for a run are those that it performs. -/
theorem Code.mem_moments_iff {code : Code} {α : Type} {p : Program α} {m : Machine} {x : Moment} :
    x ∈ code.moments p m ↔ code.Performs code.depth p m x.op x.machine := by
  refine ⟨fun h => ?_, fun h => Program.mem_moments_of_performs h⟩
  exact Program.performs_of_mem_moments (fun _ hd => code.performs_of_mem_bodyMoments hd) h

end Interpose
