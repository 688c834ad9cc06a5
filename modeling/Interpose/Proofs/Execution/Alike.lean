import Interpose.Proofs.Dispatch.Soundness
import Interpose.Proofs.Execution.Moments

/-!
# Runs that differ in what is remembered

Two machines may be alike but for what their dispatchers remember. A program that never looks at that gets the
same answers on both, starts the same bodies, and leaves machines that are alike again. Operations are treated
one by one; a call either ends at once on both machines or waits for the same body on both.
-/

namespace Interpose

/-- The journal but for its events. -/
def Journal.quiet (j : Journal) : Journal := { j with events := [] }

namespace Machine

/-- Machines that differ in nothing but what their dispatchers, both sound, remember and in the events that
this gives rise to. -/
structure Alike (m₁ m₂ : Machine) : Prop where
  sandboxId : m₁.sandboxId = m₂.sandboxId
  setting : m₁.dispatcher.setting = m₂.dispatcher.setting
  sound₁ : m₁.dispatcher.Sound
  sound₂ : m₂.dispatcher.Sound
  memory : m₁.memory = m₂.memory
  journal : m₁.journal.quiet = m₂.journal.quiet

/-- Runs that end with the same outcome on machines that are alike. -/
def EndAlike {α : Type} (ended₁ ended₂ : Outcome α × Machine) : Prop :=
  ended₁.1 = ended₂.1 ∧ Alike ended₁.2 ended₂.2

namespace Alike

variable {m₁ m₂ : Machine}

theorem hierarchy (hm : Alike m₁ m₂) : m₁.hierarchy = m₂.hierarchy := by
  rw [Machine.hierarchy, hm.setting, Machine.hierarchy]

theorem siteOf (hm : Alike m₁ m₂) (receiver : Receiver) (method : String) (arguments : List Value)
    (request : Request) :
    m₁.siteOf receiver method arguments request = m₂.siteOf receiver method arguments request := by
  unfold Machine.siteOf
  rw [hm.memory, hm.hierarchy]

theorem bridgedType (hm : Alike m₁ m₂) (bridge : Bridge) (handle : ObjectHandle) (method : String) :
    m₁.bridgedType bridge handle method = m₂.bridgedType bridge handle method := by
  unfold Machine.bridgedType
  rw [hm.memory, hm.hierarchy]

theorem resolve_answer (hm : Alike m₁ m₂) (site : CallSite) :
    (m₁.dispatcher.resolve site).answer = (m₂.dispatcher.resolve site).answer := by
  rw [hm.sound₁.resolve_answer, hm.sound₂.resolve_answer, hm.setting]

theorem bridgeFor_answer (hm : Alike m₁ m₂) (typeId : String) :
    (m₁.dispatcher.bridgeFor typeId).answer = (m₂.dispatcher.bridgeFor typeId).answer := by
  rw [hm.sound₁.bridgeFor_answer, hm.sound₂.bridgeFor_answer, hm.setting]

/-! ## Changes that keep machines alike -/

theorem absorb (hm : Alike m₁ m₂) {α : Type} {reply₁ reply₂ : Reply α}
    (hsetting : reply₁.dispatcher.setting = reply₂.dispatcher.setting)
    (h₁ : reply₁.dispatcher.Sound) (h₂ : reply₂.dispatcher.Sound) :
    Alike (m₁.absorb reply₁) (m₂.absorb reply₂) where
  sandboxId := hm.sandboxId
  setting := hsetting
  sound₁ := h₁
  sound₂ := h₂
  memory := hm.memory
  journal := hm.journal

theorem absorb_resolve (hm : Alike m₁ m₂) (site : CallSite) :
    Alike (m₁.absorb (m₁.dispatcher.resolve site)) (m₂.absorb (m₂.dispatcher.resolve site)) := by
  apply hm.absorb
  · rw [Dispatcher.resolve_setting, Dispatcher.resolve_setting, hm.setting]
  · exact hm.sound₁.resolve site
  · exact hm.sound₂.resolve site

theorem absorb_bridgeFor (hm : Alike m₁ m₂) (typeId : String) :
    Alike (m₁.absorb (m₁.dispatcher.bridgeFor typeId)) (m₂.absorb (m₂.dispatcher.bridgeFor typeId)) := by
  apply hm.absorb
  · rw [Dispatcher.bridgeFor_setting, Dispatcher.bridgeFor_setting, hm.setting]
  · exact hm.sound₁.bridgeFor typeId
  · exact hm.sound₂.bridgeFor typeId

theorem withDispatcher (hm : Alike m₁ m₂) {d₁ d₂ : Dispatcher} (hsetting : d₁.setting = d₂.setting)
    (h₁ : d₁.Sound) (h₂ : d₂.Sound) :
    Alike { m₁ with dispatcher := d₁ } { m₂ with dispatcher := d₂ } :=
  ⟨hm.sandboxId, hsetting, h₁, h₂, hm.memory, hm.journal⟩

theorem withMemory (hm : Alike m₁ m₂) {memory₁ memory₂ : Memory} (h : memory₁ = memory₂) :
    Alike { m₁ with memory := memory₁ } { m₂ with memory := memory₂ } :=
  ⟨hm.sandboxId, hm.setting, hm.sound₁, hm.sound₂, h, hm.journal⟩

theorem withJournal (hm : Alike m₁ m₂) {j₁ j₂ : Journal} (h : j₁.quiet = j₂.quiet) :
    Alike { m₁ with journal := j₁ } { m₂ with journal := j₂ } :=
  ⟨hm.sandboxId, hm.setting, hm.sound₁, hm.sound₂, hm.memory, h⟩

theorem draw (hm : Alike m₁ m₂) (counter : String) :
    (m₁.journal.draw counter).1 = (m₂.journal.draw counter).1 ∧
      (m₁.journal.draw counter).2.quiet = (m₂.journal.draw counter).2.quiet := by
  have h : m₁.journal.quiet.draw counter = m₂.journal.quiet.draw counter := by rw [hm.journal]
  exact ⟨congrArg (·.1) h, congrArg (·.2) h⟩

theorem trace (hm : Alike m₁ m₂) : m₁.journal.trace = m₂.journal.trace := by
  have h : m₁.journal.quiet.trace = m₂.journal.quiet.trace := by rw [hm.journal]
  exact h

theorem record (hm : Alike m₁ m₂) : m₁.journal.record = m₂.journal.record := by
  have h : m₁.journal.quiet.record = m₂.journal.quiet.record := by rw [hm.journal]
  exact h

theorem started (hm : Alike m₁ m₂) : m₁.journal.started = m₂.journal.started := by
  have h : m₁.journal.quiet.started = m₂.journal.quiet.started := by rw [hm.journal]
  exact h

end Alike

/-! ## Calls -/

/-- Two computations that take a way of running bodies. Both end at once with the same outcome on machines that
are alike, or both run the same body on machines that are alike and end as this body does. -/
inductive Abreast {α : Type} (f₁ f₂ : BodyRunner → Outcome α × Machine) : Prop
  | ended {outcome : Outcome α} {m₁ m₂ : Machine} (hm : Alike m₁ m₂) (h₁ : ∀ run, f₁ run = (outcome, m₁))
      (h₂ : ∀ run, f₂ run = (outcome, m₂))
  | body (finish : Outcome (Except Error Value) → Outcome α) {method : Method} {frame : Frame}
      {m₁ m₂ : Machine} (hm : Alike m₁ m₂)
      (h₁ : ∀ run, f₁ run = (finish (run method frame m₁).1, (run method frame m₁).2))
      (h₂ : ∀ run, f₂ run = (finish (run method frame m₂).1, (run method frame m₂).2))

section Calls

variable {m₁ m₂ : Machine}

theorem abreast_ended {α : Type} (hm : Alike m₁ m₂) (outcome : Outcome α) :
    Abreast (fun _ => (outcome, m₁)) fun _ => (outcome, m₂) :=
  .ended hm (fun _ => rfl) fun _ => rfl

theorem abreast_start (hm : Alike m₁ m₂) (method : Method) (frame : Frame) :
    Abreast (fun run => start run method frame m₁) fun run => start run method frame m₂ := by
  unfold start
  split
  · have hj : Alike
        { m₁ with journal := { m₁.journal with started := ⟨method.serial, frame⟩ :: m₁.journal.started } }
        { m₂ with journal := { m₂.journal with started := ⟨method.serial, frame⟩ :: m₂.journal.started } } := by
      apply hm.withJournal
      have h := congrArg (fun j => { j with started := ⟨method.serial, frame⟩ :: j.started }) hm.journal
      exact h
    exact .body id hj (fun _ => rfl) fun _ => rfl
  · exact abreast_ended hm _

theorem abreast_callTarget (hm : Alike m₁ m₂) (bridge : Bridge) (handle : ObjectHandle) (target : Target)
    (arguments : List Value) :
    Abreast (fun run => callTarget run bridge handle target arguments m₁)
      fun run => callTarget run bridge handle target arguments m₂ := by
  unfold callTarget
  rw [hm.bridgedType]
  split
  · exact abreast_ended hm _
  · split
    · exact abreast_start hm _ _
    · exact abreast_ended hm _

theorem abreast_callBridge (hm : Alike m₁ m₂) (bridge : Bridge) (handle : ObjectHandle) (method : String)
    (arguments : List Value) :
    Abreast (fun run => callBridge run bridge handle method arguments m₁)
      fun run => callBridge run bridge handle method arguments m₂ := by
  unfold callBridge
  rw [hm.bridgedType, hm.memory, hm.hierarchy]
  split
  · exact abreast_ended hm _
  · split
    · exact abreast_ended hm _
    · simp only
      split
      · exact abreast_ended hm _
      · exact abreast_ended hm _
      · exact abreast_start hm _ _

theorem abreast_carryOut (hm : Alike m₁ m₂) (site : CallSite) (decision : Decision) (frame : Frame) :
    Abreast (fun run => carryOut run site decision frame m₁)
      fun run => carryOut run site decision frame m₂ := by
  unfold carryOut
  split
  · exact abreast_start hm _ _
  · exact abreast_start hm _ _
  · split
    · exact abreast_ended hm _
    · simp only
      rw [hm.bridgeFor_answer]
      split
      · exact abreast_ended (hm.absorb_bridgeFor _) _
      · exact abreast_callTarget (hm.absorb_bridgeFor _) _ _ _ _
  · exact abreast_ended hm _
  · exact abreast_ended hm _

theorem abreast_call (hm : Alike m₁ m₂) (receiver : Receiver) (method : String) (arguments : List Value)
    (request : Request) :
    Abreast (fun run => call run receiver method arguments request m₁)
      fun run => call run receiver method arguments request m₂ := by
  unfold call
  rw [hm.siteOf]
  split
  · exact abreast_ended hm _
  · simp only
    rw [hm.resolve_answer]
    split
    · exact abreast_ended (hm.absorb_resolve _) _
    · exact abreast_carryOut (hm.absorb_resolve _) _ _ _

end Calls

/-! ## Operations -/

theorem abreast_withMemory {m₁ m₂ : Machine} (hm : Alike m₁ m₂) {α β : Type} (answer : Except Error α)
    (value : α → β) (memory : α → Memory) :
    Abreast (fun _ => m₁.withMemory answer value memory) fun _ => m₂.withMemory answer value memory := by
  cases answer with
  | error e => exact abreast_ended hm _
  | ok a => exact abreast_ended (hm.withMemory rfl) _

/-- Every operation but the look at what is remembered. -/
theorem abreast_perform {m₁ m₂ : Machine} (hm : Alike m₁ m₂) {op : Op} (hop : op ≠ .dispatcher) :
    Abreast (fun run => perform run op m₁) fun run => perform run op m₂ := by
  cases op with
  | dispatcher => exact absurd rfl hop
  | create typeId =>
    simp only [perform]
    rw [hm.memory, hm.hierarchy]
    exact abreast_withMemory hm _ _ _
  | setField handle field value =>
    simp only [perform]
    rw [hm.memory]
    exact abreast_withMemory hm _ _ _
  | setStatic typeId field value =>
    simp only [perform]
    rw [hm.memory, hm.hierarchy]
    exact abreast_ended (hm.withMemory rfl) _
  | setShadowStatic shadowId key value =>
    simp only [perform]
    rw [hm.memory]
    exact abreast_ended (hm.withMemory rfl) _
  | typeOf _ | kindOf _ | getField _ _ | getShadowStatic _ _ | inspect =>
    simp only [perform]
    rw [hm.memory]
    exact abreast_ended hm _
  | getStatic typeId field =>
    simp only [perform]
    rw [hm.memory, hm.hierarchy]
    exact abreast_ended hm _
  | call receiver method arguments request => exact abreast_call hm _ _ _ _
  | callBridge bridge handle method arguments => exact abreast_callBridge hm _ _ _ _
  | callTarget bridge handle target arguments => exact abreast_callTarget hm _ _ _ _
  | site receiver method arguments request =>
    simp only [perform]
    rw [hm.siteOf]
    exact abreast_ended hm _
  | resolve receiver method arguments =>
    simp only [perform]
    rw [hm.siteOf]
    split
    · exact abreast_ended hm _
    · rw [hm.resolve_answer]
      exact abreast_ended (hm.absorb_resolve _) _
  | resolveSite site =>
    simp only [perform]
    rw [hm.resolve_answer]
    exact abreast_ended (hm.absorb_resolve _) _
  | bridge typeId =>
    simp only [perform]
    rw [hm.bridgeFor_answer]
    exact abreast_ended (hm.absorb_bridgeFor _) _
  | setting | level =>
    simp only [perform]
    rw [hm.setting]
    exact abreast_ended hm _
  | sandboxId =>
    simp only [perform]
    rw [hm.sandboxId]
    exact abreast_ended hm _
  | install registry =>
    have hchanged : (m₁.dispatcher.install registry).1 = (m₂.dispatcher.install registry).1 := by
      rw [Dispatcher.install, Dispatcher.install, Dispatcher.registry, Dispatcher.registry, hm.setting]
    simp only [perform]
    rw [hchanged]
    refine abreast_ended (hm.withDispatcher ?_ (hm.sound₁.install _) (hm.sound₂.install _)) _
    rw [Dispatcher.install_setting, Dispatcher.install_setting, hm.setting]
  | forget =>
    refine abreast_ended (hm.withDispatcher ?_ (Dispatcher.sound_clear _) (Dispatcher.sound_clear _)) _
    rw [Dispatcher.clear_setting, Dispatcher.clear_setting, hm.setting]
  | trace value =>
    simp only [perform]
    refine abreast_ended (hm.withJournal ?_) _
    rw [hm.trace]
    exact congrArg (fun j => { j with trace := m₂.journal.trace ++ [value] }) hm.journal
  | record value =>
    simp only [perform]
    refine abreast_ended (hm.withJournal ?_) _
    rw [hm.record]
    exact congrArg (fun j => { j with record := m₂.journal.record ++ [value] }) hm.journal
  | draw counter =>
    simp only [perform]
    rw [(hm.draw counter).1]
    exact abreast_ended (hm.withJournal (hm.draw counter).2) _

end Machine

/-! ## Whole runs -/

open Machine

/-- What follows an outcome goes on alike after runs that end alike. -/
theorem Machine.EndAlike.andThen {α β : Type} {ended₁ ended₂ : Outcome α × Machine}
    (h : EndAlike ended₁ ended₂) {next₁ next₂ : α → Machine → Outcome β × Machine}
    (hnext : ∀ a, ended₁.1 = .done a → EndAlike (next₁ a ended₁.2) (next₂ a ended₂.2)) :
    EndAlike (Outcome.andThen ended₁ next₁) (Outcome.andThen ended₂ next₂) := by
  obtain ⟨outcome, m₁⟩ := ended₁
  obtain ⟨outcome', m₂⟩ := ended₂
  obtain ⟨rfl, hm⟩ := h
  cases outcome with
  | done a => exact hnext a rfl
  | panicked payload => exact ⟨rfl, hm⟩
  | unfinished => exact ⟨rfl, hm⟩

/-- An operation ends alike if the body that it starts does. -/
theorem Machine.perform_alike {run : BodyRunner} {op : Op} {m₁ m₂ : Machine} (hm : Alike m₁ m₂)
    (hop : op ≠ .dispatcher)
    (hbody : ∀ method frame m₁' m₂', Starts op m₁ method frame m₁' → Alike m₁' m₂' →
      EndAlike (run method frame m₁') (run method frame m₂')) :
    EndAlike (perform run op m₁) (perform run op m₂) := by
  cases abreast_perform hm hop with
  | ended hm' h₁ h₂ =>
    rw [h₁, h₂]
    exact ⟨rfl, hm'⟩
  | body finish hm' h₁ h₂ =>
    have hstarts : Starts op m₁ _ _ _ := fun run => congrArg (·.2) (h₁ run)
    have hends := hbody _ _ _ _ hstarts hm'
    rw [h₁, h₂]
    exact ⟨congrArg finish hends.1, hends.2⟩

/-- A program runs alike if the bodies that it may call, one level deeper, do. -/
theorem Code.runWith_alike_of_bodies (code : Code) {depth : Nat}
    (hbodies : ∀ method frame m₁ m₂, Alike m₁ m₂ →
      (∀ d m, depth = d + 1 → ¬code.Performs d (code.body method.serial frame) m₁ .dispatcher m) →
      EndAlike (code.runBody depth method frame m₁) (code.runBody depth method frame m₂))
    {α : Type} {p : Program α} {m₁ m₂ : Machine} (hm : Alike m₁ m₂)
    (hp : ∀ m, ¬code.Performs depth p m₁ .dispatcher m) :
    EndAlike (p.runWith (code.runBody depth) m₁) (p.runWith (code.runBody depth) m₂) := by
  induction p generalizing m₁ m₂ with
  | done result => exact ⟨rfl, hm⟩
  | panic payload => exact ⟨rfl, hm⟩
  | perform op next ih =>
    have hop : op ≠ .dispatcher := by
      rintro rfl
      exact hp _ .now
    have hperform : EndAlike (Machine.perform (code.runBody depth) op m₁)
        (Machine.perform (code.runBody depth) op m₂) := by
      apply perform_alike hm hop
      intro method frame m₁' m₂' hstarts hm'
      apply hbodies _ _ _ _ hm'
      rintro d m rfl hbody
      exact hp m (.within hstarts hbody)
    apply hperform.andThen
    intro answer hanswer
    exact ih answer hperform.2 fun m hm => hp m (.later (Prod.ext hanswer rfl) hm)

/-- A program that does not look at what is remembered, in no body that it calls either, runs alike on machines
that are alike. The induction is on how deep calls may nest. -/
theorem Code.runWith_alike (code : Code) {depth : Nat} {α : Type} {p : Program α} {m₁ m₂ : Machine}
    (hm : Alike m₁ m₂) (hp : ∀ m, ¬code.Performs depth p m₁ .dispatcher m) :
    EndAlike (p.runWith (code.runBody depth) m₁) (p.runWith (code.runBody depth) m₂) := by
  induction depth generalizing α p m₁ m₂ with
  | zero =>
    refine code.runWith_alike_of_bodies (fun method frame m₁ m₂ hm _ => ?_) hm hp
    exact ⟨rfl, hm⟩
  | succ depth ih =>
    refine code.runWith_alike_of_bodies (fun method frame m₁ m₂ hm hbody => ?_) hm hp
    exact ih hm fun m => hbody depth m rfl

end Interpose
