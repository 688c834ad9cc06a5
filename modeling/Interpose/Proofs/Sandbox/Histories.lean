import Interpose.Proofs.Execution.Traces
import Interpose.Proofs.Sandbox.Lives

/-!
# What a life does to the memory

A history lists what the memory of a sandbox went through: it was loaded, operations were performed on it by tasks,
by the bodies that they call and by resetters, and it was reset. The history of a life accounts for the memory: each
operation finds what the entries before it made of the memory that the life began with. Whether tasks fail, panic or
leak makes no difference to that, and a reset that a panic cuts short before the memory is reset is none.
-/

namespace Interpose

/-- What only rewords a result leaves the state alone. -/
theorem Outcome.andThen_snd {α β σ : Type} (ended : Outcome α × σ) (f : α → β) :
    (andThen ended fun a s => (done (f a), s)).2 = ended.2 := by
  obtain ⟨outcome, s⟩ := ended
  cases outcome <;> rfl

namespace Sandbox

open Machine

/-! ## Resetters are one program -/

/-- Runs the resetters of shadows one after another. -/
def resetAll (code : Code) : List ShadowLayer → Program (List String)
  | [] => .done []
  | shadow :: rest =>
    if shadow.hasResetter then
      (code.resetter shadow.serial).bind fun answer =>
        (resetAll code rest).bind fun failures => .done (resetterFailure shadow answer ++ failures)
    else resetAll code rest

theorem runResetters_eq_run (code : Code) (shadows : List ShadowLayer) (m : Machine) :
    runResetters code shadows m = code.run (resetAll code shadows) m := by
  induction shadows generalizing m with
  | nil => rfl
  | cons shadow rest ih =>
    unfold runResetters resetAll
    split
    · unfold Code.run
      simp only [Program.runWith_bind, ih]
      rfl
    · exact ih m

end Sandbox

/-! ## Histories -/

/-- One thing that happened to a memory. -/
inductive Entry where
  | loaded (h : Hierarchy)
  | moment (x : Moment)
  /-- It was reset, and cleared as well if a leak was found then. -/
  | reset (leaked : Bool)

def Entry.isReset : Entry → Bool
  | reset _ => true
  | _ => false

def Entry.moment? : Entry → Option Moment
  | .moment x => some x
  | _ => none

/-- A history around one of its moments. -/
theorem Entry.exists_split {history : List Entry} {i : Nat} {x : Moment} (h : history[i]?.bind moment? = some x) :
    ∃ past rest, history = past ++ .moment x :: rest ∧ past = history.take i := by
  obtain ⟨e, he, hx⟩ := Option.bind_eq_some_iff.1 h
  obtain ⟨hi, rfl⟩ := List.getElem?_eq_some_iff.1 he
  have hmoment : history[i] = .moment x := by
    cases hentry : history[i] with
    | loaded | reset =>
      rw [hentry] at hx
      cases hx
    | moment y =>
      rw [hentry] at hx
      cases hx
      rfl
  refine ⟨history.take i, history.drop (i + 1), ?_, rfl⟩
  rw [← hmoment, List.getElem_cons_drop, List.take_append_drop]

namespace Memory

/-- What an entry makes of a memory. -/
def meets (m : Memory) : Entry → Memory
  | .loaded h => m.load h
  | .moment x => m.does x.machine.hierarchy x.op
  | .reset false => m.reset
  | .reset true => m.reset.clear

/-- A history from one memory to another. An operation in it finds the memory that the entries before it left. -/
inductive Follows : Memory → List Entry → Memory → Prop
  | nil (m : Memory) : Follows m [] m
  | cons {m m' : Memory} {e : Entry} {rest : List Entry} (hfinds : ∀ x, e = .moment x → x.machine.memory = m)
      (h : Follows (m.meets e) rest m') : Follows m (e :: rest) m'

variable {m m₁ m₂ : Memory} {past rest : List Entry} {x : Moment}

theorem Follows.append (h : Follows m past m₁) (h' : Follows m₁ rest m₂) : Follows m (past ++ rest) m₂ := by
  induction h with
  | nil => exact h'
  | cons hfinds _ ih => exact .cons hfinds (ih h')

theorem Follows.split (h : Follows m (past ++ .moment x :: rest) m₂) : Follows m past x.machine.memory := by
  induction past generalizing m with
  | nil =>
    cases h with
    | cons hfinds _ =>
      rw [hfinds x rfl]
      exact .nil m
  | cons e past ih =>
    cases h with
    | cons hfinds h => exact .cons hfinds (ih h)

/-- The operations of a run are a history. -/
theorem Traced.follows {moments : List Moment} (h : Traced m moments m₁) : Follows m (moments.map .moment) m₁ := by
  induction h with
  | nil => exact .nil _
  | cons _ ih =>
    refine .cons (fun x hx => ?_) ih
    cases hx
    rfl

theorem follows_reset (m : Memory) (leaked : Bool) : Follows m [.reset leaked] (m.meets (.reset leaked)) :=
  .cons (fun _ h => by cases h) (.nil _)

end Memory

namespace Sandbox

open Machine Memory

variable {s : Sandbox} {j : Journal} {steps : List Step}

/-! ## The history of a reset -/

/-- Whether a reset found a leak, after which the sandbox is poisoned. -/
def leaks (code : Code) (s : Sandbox) (j : Journal) : Bool :=
  match (s.resetMemory code j).1 with
  | .done failures => !failures.isEmpty
  | _ => false

def resetHistory (code : Code) (s : Sandbox) (j : Journal) : List Entry :=
  let resetters := resetAll code s.dispatcher.registry.shadows
  (code.moments resetters (s.machine j)).map .moment ++
    match (code.run resetters (s.machine j)).1 with
    | .done _ => [.reset (s.leaks code j)]
    | _ => []

/-- The memory is reset exactly if the resetters return. If not, the reset finds no leak either. -/
theorem resetMemory_memory (code : Code) (s : Sandbox) (j : Journal) :
    let ended := code.run (resetAll code s.dispatcher.registry.shadows) (s.machine j)
    (∃ failures, ended.1 = .done failures ∧ (s.resetMemory code j).2.1.memory = ended.2.memory.reset) ∨
      (∀ failures, ended.1 ≠ .done failures) ∧ s.leaks code j = false ∧
        (s.resetMemory code j).2.1.memory = ended.2.memory := by
  intro ended
  have hrun : runResetters code s.dispatcher.registry.shadows (s.machine j) = ended := runResetters_eq_run ..
  obtain ⟨outcome, m⟩ := ended
  cases outcome with
  | done failures =>
    refine .inl ⟨failures, rfl, ?_⟩
    unfold resetMemory
    simp only [hrun, Outcome.andThen_done]
    exact Outcome.andThen_end (P := fun after : Sandbox × Journal => after.1.memory = m.memory.reset) rfl
      fun _ _ => rfl
  | panicked payload =>
    have hr : s.resetMemory code j = (.panicked payload, s.afterRun m, m.journal) := by
      simp only [resetMemory, hrun, Outcome.andThen_panicked]
    refine .inr ⟨fun _ h => (by cases h), ?_, ?_⟩
    · rw [leaks, hr]
    · rw [hr]
      rfl
  | unfinished =>
    have hr : s.resetMemory code j = (.unfinished, s.afterRun m, m.journal) := by
      simp only [resetMemory, hrun, Outcome.andThen_unfinished]
    refine .inr ⟨fun _ h => (by cases h), ?_, ?_⟩
    · rw [leaks, hr]
    · rw [hr]
      rfl

theorem follows_resetHistory (code : Code) (s : Sandbox) (j : Journal) :
    Follows s.memory (s.resetHistory code j)
      (if s.leaks code j then (s.resetMemory code j).2.1.memory.clear else (s.resetMemory code j).2.1.memory) := by
  have htraced := (code.traced_run (resetAll code s.dispatcher.registry.shadows) (s.machine j)).follows
  unfold resetHistory
  apply htraced.append
  obtain ⟨failures, hdone, hmemory⟩ | ⟨hnot, hleaks, hmemory⟩ := resetMemory_memory code s j
  · rw [hdone, hmemory]
    cases hleaks : s.leaks code j with
    | true => exact follows_reset _ true
    | false => exact follows_reset _ false
  · rw [hleaks, hmemory]
    split
    · rename_i failures hdone
      exact absurd hdone (hnot failures)
    · exact .nil _

/-! ## The history of a life -/

/-- The history of an operation. -/
def historyOf (s : Sandbox) (x : Step) : List Entry :=
  if s.accepts x.1 then
    match x.1 with
    | .configure => [.loaded s.hierarchy]
    | .execute code task =>
      let run := s.taskRun code task x.2
      (code.moments task (s.machine { x.2 with record := [] })).map .moment ++
        match run.1 with
        | .unfinished => []
        | _ => (s.afterTask run.2).resetHistory code run.2.journal
    | .reset code => s.resetHistory code x.2
    | .install _ | .destroy => []
  else []

/-- The history of an execution whose task comes to its end. -/
theorem historyOf_of_taskEnds {code : Code} {task : Program (Except Error Value)}
    (ha : s.accepts (.execute code task) = true) (hrun : (s.taskRun code task j).1 ≠ .unfinished) :
    s.historyOf (.execute code task, j) =
      (code.moments task (s.machine { j with record := [] })).map .moment ++
        (s.afterTask (s.taskRun code task j).2).resetHistory code (s.taskRun code task j).2.journal := by
  rw [historyOf, ha, if_pos rfl]
  cases hend : (s.taskRun code task j).1 with
  | unfinished => exact absurd hend hrun
  | done result => simp only [hend]
  | panicked payload => simp only [hend]

/-- The history of a life. -/
def history : Sandbox → List Step → List Entry
  | _, [] => []
  | s, x :: rest => s.historyOf x ++ history (s.step x) rest

theorem poison_memory (h : s.stage ≠ .destroyed) : s.poison.memory = s.memory.clear := by
  rw [poison, destroy, if_neg h]

theorem leaks_of_done {code : Code} {failures : List String} {s' : Sandbox} {j' : Journal}
    (h : s.resetMemory code j = (.done failures, s', j')) : s.leaks code j = !failures.isEmpty := by
  rw [leaks, h]

theorem resetMemory_stage (code : Code) (s : Sandbox) (j : Journal) :
    (s.resetMemory code j).2.1.stage = s.stage := by
  obtain ⟨_, m, memory, _, hafter, _⟩ := resetMemory_spec code s j
  rw [hafter]

theorem stage_of_resetMemory {code : Code} {s' : Sandbox} {j' : Journal} {outcome : Outcome (List String)}
    (h : s.resetMemory code j = (outcome, s', j')) : s'.stage = s.stage := by
  have hstage := resetMemory_stage code s j
  rwa [h] at hstage

/-- What a reset and the poisoning that may follow make of the memory, in whatever stage a sandbox without leak goes
on. -/
theorem settled_memory {α : Type} (code : Code) (j : Journal) (hs : s.stage ≠ .destroyed) (settle : Sandbox → Sandbox)
    (hsettle : ∀ s', (settle s').memory = s'.memory) (clean : Outcome α) (leak : List String → Sandbox → Outcome α) :
    (Outcome.andThen (s.resetMemory code j) fun failures after =>
      if failures.isEmpty then (clean, settle after.1, after.2)
      else (leak failures after.1, after.1.poison, after.2)).2.1.memory =
      if s.leaks code j then (s.resetMemory code j).2.1.memory.clear else (s.resetMemory code j).2.1.memory := by
  rcases hr : s.resetMemory code j with ⟨outcome, s', j'⟩
  cases outcome with
  | done failures =>
    rw [Outcome.andThen_done, leaks_of_done hr]
    by_cases hf : failures.isEmpty = true
    · rw [if_pos hf, hf]
      exact hsettle s'
    · have hnot : s'.stage ≠ .destroyed := fun h => hs ((stage_of_resetMemory hr).symm.trans h)
      rw [if_neg hf, Bool.eq_false_iff.2 hf]
      exact poison_memory hnot
  | panicked payload =>
    rw [leaks, hr]
    rfl
  | unfinished =>
    rw [leaks, hr]
    rfl

theorem stage_ne_destroyed {op : Operation} (hop : op.isDestroy = false) (h : s.accepts op = true) :
    s.stage ≠ .destroyed := by
  intro hs
  rw [not_accepts_of_destroyed hs hop] at h
  cases h

/-- The reset after a task accounts for the memory, whatever the task answered. -/
theorem follows_finish (code : Code) (hs : s.stage ≠ .destroyed) (result : Except Error Value) (j : Journal) :
    Follows s.memory (s.resetHistory code j) (s.finish code result j).2.1.memory := by
  have hafter := settled_memory code j hs (fun s' => { s' with stage := .idle }) (fun _ => rfl) (.done result)
    fun failures s' => .done (result.bind fun _ => .error (s'.leakOf failures))
  rw [finish, hafter]
  exact follows_resetHistory code s j

theorem follows_of_accepts_reset {code : Code} (ha : s.accepts (.reset code) = true) :
    Follows s.memory (s.historyOf (.reset code, j)) (s.step (.reset code, j)).memory := by
  have hafter : (s.step (.reset code, j)).memory =
      if s.leaks code j then (s.resetMemory code j).2.1.memory.clear else (s.resetMemory code j).2.1.memory := by
    rw [step, apply_reset ha]
    exact settled_memory code j (stage_ne_destroyed rfl ha) (fun s' => s') (fun _ => rfl)
      (.done (.ok ()) : Outcome (Except Error Unit)) fun failures s' => .done (.error (s'.leakOf failures))
  rw [historyOf, ha, if_pos rfl, hafter]
  exact follows_resetHistory code s j

theorem follows_of_accepts_execute {code : Code} {task : Program (Except Error Value)}
    (ha : s.accepts (.execute code task) = true) :
    Follows s.memory (s.historyOf (.execute code task, j)) (s.step (.execute code task, j)).memory := by
  have htask := (code.traced_run task (s.machine { j with record := [] })).follows
  have hreset := follows_finish code (s := s.afterTask (s.taskRun code task j).2) Stage.noConfusion
  rw [historyOf, ha, if_pos rfl, step, apply_execute ha, Outcome.andThen_snd]
  apply htask.append
  cases hrun : (s.taskRun code task j).1 with
  | done result => exact hreset result _
  | panicked payload => exact hreset _ _
  | unfinished => exact .nil _

/-- The history of an operation other than destruction accounts for the memory that it leaves. -/
theorem follows_historyOf {x : Step} (hop : x.1.isDestroy = false) :
    Follows s.memory (s.historyOf x) (s.step x).memory := by
  obtain ⟨op, j⟩ := x
  cases ha : s.accepts op with
  | false =>
    have hsame : s.step (op, j) = s := (apply_of_not_accepts ha).2
    rw [historyOf, ha, hsame]
    exact .nil _
  | true =>
    cases op with
    | destroy => cases hop
    | configure =>
      rw [historyOf, ha, if_pos rfl, step, apply_configure ha]
      exact .cons (fun _ h => by cases h) (.nil _)
    | install registry =>
      rw [historyOf, ha, if_pos rfl, step, apply_install ha]
      exact .nil _
    | reset code => exact follows_of_accepts_reset ha
    | execute code task => exact follows_of_accepts_execute ha

/-- The history of a life without destruction accounts for the memory that it leaves. -/
theorem follows_history (hops : ∀ x ∈ steps, x.1.isDestroy = false) :
    Follows s.memory (history s steps) (s.after steps).memory := by
  induction steps generalizing s with
  | nil => exact .nil _
  | cons x rest ih =>
    have hrest : ∀ y ∈ rest, y.1.isDestroy = false := fun y hy => hops y (List.mem_cons_of_mem _ hy)
    exact (follows_historyOf (hops x List.mem_cons_self)).append (ih hrest)

theorem historyOf_destroy (s : Sandbox) (j : Journal) : s.historyOf (.destroy, j) = [] := by
  unfold historyOf
  split <;> rfl

/-- Nothing happens to a destroyed sandbox. -/
theorem history_of_destroyed (hs : s.stage = .destroyed) (steps : List Step) : history s steps = [] := by
  induction steps with
  | nil => rfl
  | cons x rest ih =>
    have hof : s.historyOf x = [] := by
      obtain ⟨op, j⟩ := x
      cases hop : op.isDestroy with
      | false =>
        rw [historyOf, not_accepts_of_destroyed hs hop]
        rfl
      | true =>
        rw [Operation.eq_destroy hop]
        exact historyOf_destroy s j
    rw [history, hof, step_of_destroyed hs, ih]
    rfl

/-- The history of any life accounts for what every operation in it finds. -/
theorem exists_follows_history (s : Sandbox) (steps : List Step) : ∃ m, Follows s.memory (history s steps) m := by
  induction steps generalizing s with
  | nil => exact ⟨_, .nil _⟩
  | cons x rest ih =>
    cases hop : x.1.isDestroy with
    | false =>
      obtain ⟨m, hrest⟩ := ih (s.step x)
      exact ⟨m, (follows_historyOf hop).append hrest⟩
    | true =>
      obtain ⟨op, j⟩ := x
      obtain rfl : op = .destroy := Operation.eq_destroy hop
      have hdestroyed : (s.step (.destroy, j)).stage = .destroyed := destroy_stage s
      rw [history, historyOf_destroy, history_of_destroyed hdestroyed]
      exact ⟨_, .nil _⟩

end Sandbox

end Interpose
