import Interpose.Proofs.Sandbox.Lives

/-!
# Which events a sandbox reports

Running code reports nothing but the synthesis of bridges. So how often the other events were reported is settled by
the operations of a sandbox: a reset is reported exactly if it comes to its end, and an execution has one reset.
-/

namespace Interpose

/-- How many events of a kind were reported. -/
def Journal.told (j : Journal) (kind : EventKind) : Nat := Recording.count j.events kind

namespace Journal

variable {kind : EventKind}

theorem told_addEvents (j : Journal) (events : List Event) (kind : EventKind) :
    (j.addEvents events).told kind = j.told kind + Recording.count events kind := by
  unfold told addEvents Recording.count
  rw [List.filter_append, List.length_append]

theorem told_addEvent (j : Journal) (reported kind : EventKind) (subject : String) :
    (j.addEvent reported subject).told kind = j.told kind + if kind = reported then 1 else 0 := by
  rw [addEvent, told_addEvents]
  congr 1
  by_cases hkind : kind = reported
  · simp [Recording.count, hkind]
  · simp [Recording.count, hkind, Ne.symm hkind]

end Journal

namespace Dispatcher

variable {kind : EventKind}

theorem count_events_bridgeFor (d : Dispatcher) (typeId : String) (hkind : kind ≠ .bridgeSynthesis) :
    Recording.count (d.bridgeFor typeId).events kind = 0 := by
  have hone : Recording.count [{ kind := .bridgeSynthesis, subject := typeId }] kind = 0 := by
    simp [Recording.count, hkind.symm]
  unfold bridgeFor
  split
  · rfl
  · split <;> exact hone

theorem count_events_resolve (d : Dispatcher) (site : CallSite) (hkind : kind ≠ .bridgeSynthesis) :
    Recording.count (d.resolve site).events kind = 0 := by
  have hcompute : Recording.count (d.compute site).events kind = 0 := by
    unfold compute
    split
    · rfl
    · rfl
    · exact d.count_events_bridgeFor _ hkind
  unfold resolve
  split
  · rfl
  · simp only
    split <;> exact hcompute

theorem count_eventsOf (d : Dispatcher) (s : Step) (hkind : kind ≠ .bridgeSynthesis) :
    Recording.count (d.eventsOf s) kind = 0 := by
  cases s with
  | resolve site => exact d.count_events_resolve site hkind
  | bridgeFor typeId => exact d.count_events_bridgeFor typeId hkind
  | install | cached | clear => rfl

end Dispatcher

namespace Machine

variable {m m' : Machine} {kind : EventKind}

theorem Moves.told (h : Moves m m') (hkind : kind ≠ .bridgeSynthesis) :
    m'.journal.told kind = m.journal.told kind := by
  cases h with
  | dispatch s => exact (Journal.told_addEvents _ _ _).trans (congrArg _ (Dispatcher.count_eventsOf _ s hkind))
  | create | setField | setStatic | setShadowStatic | start | trace | record | draw => rfl

/-- Running code reports nothing but the synthesis of bridges. -/
theorem Reaches.told (h : Reaches m m') (hkind : kind ≠ .bridgeSynthesis) :
    m'.journal.told kind = m.journal.told kind := by
  induction h with
  | refl => rfl
  | tail _ hmove ih => exact (hmove.told hkind).trans ih

end Machine

/-- The run came to its end. -/
def Outcome.isDone {α : Type} : Outcome α → Bool
  | done _ => true
  | panicked _ | unfinished => false

theorem Outcome.isDone_iff {α : Type} {outcome : Outcome α} :
    outcome.isDone = true ↔ ∃ result, outcome = .done result := by
  cases outcome with
  | done result => exact iff_of_true rfl ⟨result, rfl⟩
  | panicked payload | unfinished => exact iff_of_false Bool.false_ne_true (by rintro ⟨_, ⟨⟩⟩)

namespace Sandbox

open Machine

variable {kind : EventKind}

theorem askChecks_events (memory : Memory) (checks : List LeakCheck) (j : Journal) :
    (askChecks memory checks j).2.events = j.events := by
  induction checks generalizing j with
  | nil => rfl
  | cons check rest ih =>
    unfold askChecks
    refine Outcome.andThen_end (P := fun j' : Journal => j'.events = j.events) rfl fun report _ => ?_
    exact Outcome.andThen_end (P := fun j' : Journal => j'.events = j.events) (ih _) fun reports _ => ih _

theorem findLeaks_events (s : Sandbox) (j : Journal) : (s.findLeaks j).2.events = j.events := by
  have hask := askChecks_events s.memory s.checks j
  unfold findLeaks
  split
  · exact Outcome.andThen_end (P := fun j' : Journal => j'.events = j.events) hask fun reports _ => hask
  · rfl

/-- A reset reports itself exactly if it comes to its end, and bridges apart nothing else. -/
theorem told_resetMemory (code : Code) (s : Sandbox) (j : Journal) (hkind : kind ≠ .bridgeSynthesis) :
    (s.resetMemory code j).2.2.told kind =
      j.told kind + if kind = .sandboxReset ∧ (s.resetMemory code j).1.isDone = true then 1 else 0 := by
  have hresetters := (reaches_runResetters code s.dispatcher.registry.shadows (s.machine j)).told hkind
  rcases hrun : runResetters code s.dispatcher.registry.shadows (s.machine j) with ⟨outcome, m⟩
  rw [hrun] at hresetters
  have hcut : m.journal.told kind = j.told kind + if kind = .sandboxReset ∧ false = true then 1 else 0 := by
    rw [if_neg fun h => Bool.false_ne_true h.2]
    exact hresetters
  cases outcome with
  | panicked payload =>
    have hreset : s.resetMemory code j = (.panicked payload, s.afterRun m, m.journal) := by
      simp only [resetMemory, hrun, Outcome.andThen_panicked]
    rw [hreset]
    exact hcut
  | unfinished =>
    have hreset : s.resetMemory code j = (.unfinished, s.afterRun m, m.journal) := by
      simp only [resetMemory, hrun, Outcome.andThen_unfinished]
    rw [hreset]
    exact hcut
  | done failures =>
    have hevents := findLeaks_events { s.afterRun m with memory := m.memory.reset } m.journal
    rcases hl : findLeaks { s.afterRun m with memory := m.memory.reset } m.journal with ⟨found, j'⟩
    rw [hl] at hevents
    have htold : j'.told kind = m.journal.told kind := congrArg (Recording.count · kind) hevents
    have hreset : s.resetMemory code j = Outcome.andThen (found, { s.afterRun m with memory := m.memory.reset }, j')
        fun reports after => (.done (failures ++ reports), after.1,
          after.2.addEvent .sandboxReset (toString after.1.id)) := by
      simp only [resetMemory, hrun, Outcome.andThen_done]
      simp only [afterRun] at hl ⊢
      rw [hl]
    rw [hreset]
    cases found with
    | panicked payload => exact htold.trans hcut
    | unfinished => exact htold.trans hcut
    | done reports =>
      simp only [Outcome.andThen_done, Journal.told_addEvent, Outcome.isDone, and_true]
      rw [htold, hresetters]
      rfl

end Sandbox

end Interpose
