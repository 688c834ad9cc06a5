import Interpose.Proofs.Sandbox.Histories

/-!
# How a sandbox gets ready for use

A sandbox accepts a registry after it was configured, after a registry was installed and after a reset without a leak.
A reset that was asked for keeps the stage of its sandbox while the resetters run; so when a resetter panics the
sandbox accepts a registry as before, in the memory as the resetters left it.
-/

namespace Interpose

namespace Memory

theorem evolves_does (m : Memory) (h : Hierarchy) (op : Op) : m.Evolves (m.does h op) := by
  cases op with
  | create typeId =>
    cases hc : m.create h typeId with
    | error e =>
      simp only [does, hc]
      exact .refl m
    | ok made =>
      obtain ⟨_, object, hm⟩ := create_eq_ok hc
      simp only [does, hc, hm]
      exact evolves_add m object
  | setField handle field value =>
    cases hs : m.setField handle field value with
    | error e =>
      simp only [does, hs]
      exact .refl m
    | ok changed =>
      obtain ⟨old, object, hold, hm⟩ := setField_eq_ok hs
      simp only [does, hs, hm]
      exact evolves_put hold object
  | setStatic typeId field value => exact evolves_setStatic m h typeId field value
  | setShadowStatic shadowId key value => exact ⟨rfl, rfl, rfl, Nat.le_refl _, id⟩
  | _ => exact .refl m

theorem Traced.evolves {m m' : Memory} {moments : List Moment} (h : Traced m moments m') : m.Evolves m' := by
  induction h with
  | nil m => exact .refl m
  | cons _ ih => exact (evolves_does _ _ _).trans ih

/-- A history of operations. -/
theorem traced_of_follows {m m' : Memory} {moments : List Moment}
    (hf : Follows m (moments.map .moment) m') : Traced m moments m' := by
  induction moments generalizing m with
  | nil =>
    cases hf
    exact .nil _
  | cons x rest ih =>
    cases hf with
    | cons hfinds h =>
      have hx := hfinds x rfl
      subst hx
      exact .cons (ih h)

/-- A history of operations that ends with a reset. -/
theorem exists_traced_of_follows_reset {m m' : Memory} {moments : List Moment}
    (hf : Follows m (moments.map .moment ++ [.reset false]) m') :
    ∃ before, Traced m moments before ∧ m' = before.reset := by
  induction moments generalizing m with
  | nil =>
    cases hf with
    | cons _ h =>
      cases h
      exact ⟨m, .nil _, rfl⟩
  | cons x rest ih =>
    cases hf with
    | cons hfinds h =>
      have hx := hfinds x rfl
      subst hx
      obtain ⟨before, htraced, hm'⟩ := ih h
      exact ⟨before, .cons htraced, hm'⟩

end Memory

namespace Sandbox

open Machine Memory

variable {s s' : Sandbox} {op : Operation} {x : Step} {j : Journal}

/-! ## What stays with a sandbox for life -/

/-- Two states of one sandbox. -/
structure SameOwner (s s' : Sandbox) : Prop where
  id : s'.id = s.id
  hierarchy : s'.hierarchy = s.hierarchy
  key : s'.key = s.key
  checks : s'.checks = s.checks

theorem SameOwner.refl (s : Sandbox) : s.SameOwner s := ⟨rfl, rfl, rfl, rfl⟩

theorem SameOwner.trans {s₁ s₂ s₃ : Sandbox} (h : s₁.SameOwner s₂) (h' : s₂.SameOwner s₃) : s₁.SameOwner s₃ :=
  ⟨h'.id.trans h.id, h'.hierarchy.trans h.hierarchy, h'.key.trans h.key, h'.checks.trans h.checks⟩

theorem sameOwner_destroy (s : Sandbox) : s.SameOwner s.destroy := by
  unfold destroy
  split
  · exact .refl s
  · exact ⟨rfl, rfl, rfl, rfl⟩

theorem sameOwner_poison (s : Sandbox) : s.SameOwner s.poison := by
  obtain ⟨hid, hhierarchy, hkey, hchecks⟩ := sameOwner_destroy { s with poisoned := true }
  exact ⟨hid, hhierarchy, hkey, hchecks⟩

theorem sameOwner_of_reaches {m : Machine} (h : Reaches (s.machine j) m) (stage : Stage) (runs : Nat)
    (memory : Memory) :
    s.SameOwner { s with stage := stage, runs := runs, dispatcher := m.dispatcher, memory := memory } := by
  have hsetting : m.dispatcher.setting = { s.dispatcher.setting with registry := m.dispatcher.registry } := h.setting
  refine ⟨rfl, ?_, rfl, rfl⟩
  change m.dispatcher.setting.hierarchy = s.hierarchy
  rw [hsetting]
  rfl

theorem sameOwner_resetMemory (code : Code) (s : Sandbox) (j : Journal) :
    s.SameOwner (s.resetMemory code j).2.1 := by
  obtain ⟨_, m, memory, hreach, hafter, _⟩ := resetMemory_spec code s j
  rw [hafter]
  exact sameOwner_of_reaches hreach s.stage s.runs memory

/-! ## How a reset goes on -/

/-- What holds of a sandbox after a reset and what follows it: the sandbox goes on in some way if there was no leak, it
is poisoned if there was one, and it stays as it is if the reset does not come to its end. -/
theorem settled_end {α : Type} {P : Sandbox → Prop} {code : Code} (settle : Sandbox → Sandbox) (clean : Outcome α)
    (leak : List String → Sandbox → Outcome α)
    (hclean : ∀ s' j', s.resetMemory code j = (.done [], s', j') → P (settle s'))
    (hleak : ∀ failures s' j', s.resetMemory code j = (.done failures, s', j') → failures ≠ [] → P s'.poison)
    (hcut : (∀ failures, (s.resetMemory code j).1 ≠ .done failures) → P (s.resetMemory code j).2.1) :
    P (Outcome.andThen (s.resetMemory code j) fun failures after =>
      if failures.isEmpty then (clean, settle after.1, after.2)
      else (leak failures after.1, after.1.poison, after.2)).2.1 := by
  rcases hr : s.resetMemory code j with ⟨outcome, s', j'⟩
  rw [hr] at hcut
  cases outcome with
  | done failures =>
    rw [Outcome.andThen_done]
    cases failures with
    | nil => exact hclean s' j' hr
    | cons failure rest => exact hleak _ s' j' hr (List.cons_ne_nil _ _)
  | panicked payload => exact hcut fun _ h => by cases h
  | unfinished => exact hcut fun _ h => by cases h

/-- A reset that was asked for goes on so. -/
theorem reset_end {P : Sandbox → Prop} {code : Code} (ha : s.accepts (.reset code) = true)
    (hclean : ∀ s' j', s.resetMemory code j = (.done [], s', j') → P s')
    (hleak : ∀ failures s' j', s.resetMemory code j = (.done failures, s', j') → failures ≠ [] → P s'.poison)
    (hcut : (∀ failures, (s.resetMemory code j).1 ≠ .done failures) → P (s.resetMemory code j).2.1) :
    P (s.step (.reset code, j)) := by
  rw [step, apply_reset ha]
  exact settled_end (fun s' => s') (.done (.ok ()) : Outcome (Except Error Unit))
    (fun failures s' => .done (.error (s'.leakOf failures))) hclean hleak hcut

/-- And so does the reset at the end of an execution, unless the task does not come to its end. -/
theorem execute_end {P : Sandbox → Prop} {code : Code} {task : Program (Except Error Value)}
    (ha : s.accepts (.execute code task) = true)
    (hunfinished : (s.taskRun code task j).1 = .unfinished → P (s.afterTask (s.taskRun code task j).2))
    (hclean : ∀ s' j', (s.afterTask (s.taskRun code task j).2).resetMemory code (s.taskRun code task j).2.journal =
      (.done [], s', j') → (s.taskRun code task j).1 ≠ .unfinished → P { s' with stage := .idle })
    (hleak : ∀ failures s' j',
      (s.afterTask (s.taskRun code task j).2).resetMemory code (s.taskRun code task j).2.journal =
        (.done failures, s', j') → failures ≠ [] → P s'.poison)
    (hcut : (∀ failures,
        ((s.afterTask (s.taskRun code task j).2).resetMemory code (s.taskRun code task j).2.journal).1 ≠
          .done failures) →
      P ((s.afterTask (s.taskRun code task j).2).resetMemory code (s.taskRun code task j).2.journal).2.1) :
    P (s.step (.execute code task, j)) := by
  have hfinish : (s.taskRun code task j).1 ≠ .unfinished → ∀ result,
      P ((s.afterTask (s.taskRun code task j).2).finish code result (s.taskRun code task j).2.journal).2.1 :=
    fun hrun result => settled_end (fun s' => { s' with stage := .idle }) (.done result)
      (fun failures s' => .done (result.bind fun _ => .error (s'.leakOf failures)))
      (fun s' j' h => hclean s' j' h hrun) hleak hcut
  rw [step, apply_execute ha, Outcome.andThen_snd]
  cases hrun : (s.taskRun code task j).1 with
  | done result => exact hfinish (fun h => by rw [hrun] at h; cases h) result
  | panicked payload => exact hfinish (fun h => by rw [hrun] at h; cases h) _
  | unfinished => exact hunfinished hrun

/-- An operation, however it ends, leaves the sandbox to its owner. -/
theorem sameOwner_step (s : Sandbox) (x : Step) : s.SameOwner (s.step x) := by
  have hreset : ∀ {s₁ s' : Sandbox} {code : Code} {failures : List String} {j j' : Journal},
      s₁.resetMemory code j = (.done failures, s', j') → s₁.SameOwner s' := by
    intro s₁ s' code failures j j' h
    have hsame := sameOwner_resetMemory code s₁ j
    rwa [h] at hsame
  obtain ⟨op, j⟩ := x
  cases ha : s.accepts op with
  | false =>
    have hsame : s.step (op, j) = s := step_of_not_accepts ha
    rw [hsame]
    exact .refl s
  | true =>
    cases op with
    | configure =>
      rw [step, apply_configure ha]
      exact ⟨rfl, rfl, rfl, rfl⟩
    | install registry =>
      rw [step, apply_install ha]
      exact ⟨rfl, rfl, rfl, rfl⟩
    | execute code task =>
      have htask : s.SameOwner (s.afterTask (s.taskRun code task j).2) :=
        sameOwner_of_reaches (code.reaches_run task (s.machine { j with record := [] })) _ _ _
      refine execute_end ha (fun _ => htask) (fun s' j' h _ => ?_) (fun failures s' j' h _ => ?_) fun _ => ?_
      · obtain ⟨hid, hhierarchy, hkey, hchecks⟩ := htask.trans (hreset h)
        exact ⟨hid, hhierarchy, hkey, hchecks⟩
      · exact htask.trans ((hreset h).trans (sameOwner_poison s'))
      · exact htask.trans (sameOwner_resetMemory code _ _)
    | reset code =>
      exact reset_end ha (fun s' j' h => hreset h) (fun failures s' j' h _ => (hreset h).trans (sameOwner_poison s'))
        fun _ => sameOwner_resetMemory code s j
    | destroy => exact sameOwner_destroy s

/-! ## Resets that are cut short -/

/-- The operations of the resetters that a reset runs. -/
def resetting (code : Code) (s : Sandbox) (j : Journal) : List Moment :=
  code.moments (resetAll code s.dispatcher.registry.shadows) (s.machine j)

/-- A reset that is asked for and accepted, but whose resetters do not return, since one of them panics. -/
def CutShort (s : Sandbox) (x : Step) : Prop :=
  s.accepts x.1 = true ∧ ∃ code, x.1 = .reset code ∧
    ∀ failures, (runResetters code s.dispatcher.registry.shadows (s.machine x.2)).1 ≠ .done failures

/-- The history of a reset ends with the reset exactly if the resetters return. -/
theorem resetHistory_cases (code : Code) (s : Sandbox) (j : Journal) :
    s.resetHistory code j = (resetting code s j).map .moment ++ [.reset (s.leaks code j)] ∨
      (∀ failures, (runResetters code s.dispatcher.registry.shadows (s.machine j)).1 ≠ .done failures) ∧
        s.resetHistory code j = (resetting code s j).map .moment := by
  rw [runResetters_eq_run]
  unfold resetHistory resetting
  simp only
  cases (code.run (resetAll code s.dispatcher.registry.shadows) (s.machine j)).1 with
  | done failures => exact .inl rfl
  | panicked payload => exact .inr ⟨fun _ h => (by cases h), List.append_nil _⟩
  | unfinished => exact .inr ⟨fun _ h => (by cases h), List.append_nil _⟩

theorem resetMemory_of_cutShort {code : Code}
    (h : ∀ failures, (runResetters code s.dispatcher.registry.shadows (s.machine j)).1 ≠ .done failures)
    (failures : List String) : (s.resetMemory code j).1 ≠ .done failures := by
  unfold resetMemory
  rcases hrun : runResetters code s.dispatcher.registry.shadows (s.machine j) with ⟨outcome, m⟩
  rw [hrun] at h
  cases outcome with
  | done failures => exact absurd rfl (h failures)
  | panicked payload => exact fun h => by cases h
  | unfinished => exact fun h => by cases h

theorem leaks_of_not_done {code : Code} (h : ∀ failures, (s.resetMemory code j).1 ≠ .done failures) :
    s.leaks code j = false := by
  unfold leaks
  split
  · rename_i failures hdone
    exact absurd hdone (h failures)
  · rfl

theorem not_acceptsRegistry_poison (s : Sandbox) : s.poison.stage.acceptsRegistry = false := by
  have hstage : s.poison.stage = .destroyed := destroy_stage _
  rw [hstage]
  rfl

/-- After a reset that was asked for, a sandbox that accepts a registry was reset without a leak, or the reset was cut
short. -/
theorem historyOf_reset {code : Code} (ha : s.accepts (.reset code) = true)
    (hready : (s.step (.reset code, j)).stage.acceptsRegistry = true) :
    s.historyOf (.reset code, j) = (resetting code s j).map .moment ++ [.reset false] ∨
      s.CutShort (.reset code, j) ∧ s.historyOf (.reset code, j) = (resetting code s j).map .moment := by
  have hleaks : s.leaks code j = false := by
    refine reset_end (P := fun s' => s'.stage.acceptsRegistry = true → s.leaks code j = false) ha
      (fun s' j' h _ => ?_) (fun failures s' j' h _ hs' => ?_) (fun h _ => leaks_of_not_done h) hready
    · rw [leaks_of_done h]
      rfl
    · rw [not_acceptsRegistry_poison] at hs'
      cases hs'
  have hhistory : s.historyOf (.reset code, j) = s.resetHistory code j := by rw [historyOf, ha, if_pos rfl]
  rw [hhistory]
  obtain h | ⟨hcut, h⟩ := resetHistory_cases code s j
  · rw [hleaks] at h
    exact .inl h
  · exact .inr ⟨⟨ha, code, rfl, hcut⟩, h⟩

/-- After an execution, a sandbox that accepts a registry was reset without a leak. -/
theorem historyOf_execute {code : Code} {task : Program (Except Error Value)}
    (ha : s.accepts (.execute code task) = true)
    (hready : (s.step (.execute code task, j)).stage.acceptsRegistry = true) :
    ∃ moments : List Moment,
      s.historyOf (.execute code task, j) = moments.map Entry.moment ++ [Entry.reset false] := by
  have hended : (s.taskRun code task j).1 ≠ .unfinished ∧ ∃ s' j',
      (s.afterTask (s.taskRun code task j).2).resetMemory code (s.taskRun code task j).2.journal =
        (.done [], s', j') := by
    refine execute_end (P := fun s' => s'.stage.acceptsRegistry = true → _) ha (fun _ hs' => ?_)
      (fun s' j' h hrun _ => ⟨hrun, s', j', h⟩) (fun failures s' j' h _ hs' => ?_) (fun h hs' => ?_) hready
    · cases hs'
    · rw [not_acceptsRegistry_poison] at hs'
      cases hs'
    · rw [resetMemory_stage] at hs'
      cases hs'
  obtain ⟨hrun, s', j', hreset⟩ := hended
  rw [historyOf_of_taskEnds ha hrun]
  obtain h | ⟨hcut, _⟩ := resetHistory_cases code (s.afterTask (s.taskRun code task j).2)
    (s.taskRun code task j).2.journal
  · rw [h, leaks_of_done hreset, ← List.append_assoc, ← List.map_append]
    exact ⟨_, rfl⟩
  · exact absurd (congrArg Prod.fst hreset) (resetMemory_of_cutShort hcut [])

theorem historyOf_of_not_accepts (ha : s.accepts x.1 = false) : s.historyOf x = [] := by
  rw [historyOf, ha]
  rfl

/-- What accepts a task or a reset accepts a registry. -/
theorem ready_of_accepts (hop : op.isExecute = true ∨ op.isReset = true) (ha : s.accepts op = true) :
    s.stage.acceptsRegistry = true := by
  rw [accepts, Bool.and_eq_true] at ha
  obtain ⟨hstage, _⟩ := ha
  cases op with
  | execute code task =>
    have hconfigured : s.stage = .configured := of_decide_eq_true hstage
    rw [hconfigured]
    rfl
  | reset code => exact hstage
  | configure | install | destroy => cases hop <;> contradiction

/-- An accepted operation leaves no sandbox as it was made. -/
theorem stage_step_ne_uninitialized (ha : s.accepts op = true) : (s.step (op, j)).stage ≠ .uninitialized := by
  have hpoison : ∀ s' : Sandbox, s'.poison.stage ≠ .uninitialized := by
    intro s' h
    rw [poison, destroy_stage] at h
    cases h
  cases op with
  | configure =>
    rw [step, apply_configure ha]
    exact Stage.noConfusion
  | install registry =>
    rw [step, apply_install ha]
    exact Stage.noConfusion
  | execute code task =>
    refine execute_end (P := fun s' => s'.stage ≠ .uninitialized) ha (fun _ => Stage.noConfusion)
      (fun _ _ _ _ => Stage.noConfusion) (fun _ s' _ _ _ => hpoison s') fun _ => ?_
    rw [resetMemory_stage]
    exact Stage.noConfusion
  | reset code =>
    have hs : s.stage ≠ .uninitialized := by
      intro hs
      have hready := ready_of_accepts (.inr rfl) ha
      rw [hs] at hready
      cases hready
    refine reset_end (P := fun s' => s'.stage ≠ .uninitialized) ha (fun s' j' h => ?_)
      (fun _ s' _ _ _ => hpoison s') fun _ => ?_
    · rwa [stage_of_resetMemory h]
    · rwa [resetMemory_stage]
  | destroy =>
    have hdestroyed : (s.step (.destroy, j)).stage = .destroyed := destroy_stage s
    rw [hdestroyed]
    exact Stage.noConfusion

theorem step_of_uninitialized (hnew : (s.step x).stage = .uninitialized) : s.step x = s := by
  cases ha : s.accepts x.1 with
  | false => exact step_of_not_accepts ha
  | true => exact absurd hnew (stage_step_ne_uninitialized ha)

/-! ## How a sandbox comes to accept a registry -/

/-- How an operation leaves a sandbox that accepts a registry. -/
inductive Readied (s : Sandbox) (x : Step) : Prop
  /-- It was refused, or it installed a registry. -/
  | kept (hready : s.stage.acceptsRegistry = true) (hmemory : (s.step x).memory = s.memory)
      (hhistory : s.historyOf x = [])
  /-- It configured the sandbox. -/
  | loaded (hnew : s.stage = .uninitialized) (hmemory : (s.step x).memory = s.memory.load s.hierarchy)
      (hhistory : s.historyOf x = [.loaded s.hierarchy])
  /-- It ended with a reset without a leak. -/
  | reset {moments : List Moment} {before : Memory} (hready : s.stage.acceptsRegistry = true)
      (htraced : Traced s.memory moments before) (hmemory : (s.step x).memory = before.reset)
      (hhistory : s.historyOf x = moments.map Entry.moment ++ [.reset false])
  /-- It was a reset that was cut short. -/
  | cutShort {code : Code} (hop : x.1 = .reset code) (hcut : s.CutShort x)
      (hready : s.stage.acceptsRegistry = true) (htraced : Traced s.memory (resetting code s x.2) (s.step x).memory)
      (hhistory : s.historyOf x = (resetting code s x.2).map Entry.moment)

/-- An operation leaves a sandbox that accepts a registry in one of these ways. -/
theorem readied_step (hready : (s.step x).stage.acceptsRegistry = true) : s.Readied x := by
  obtain ⟨op, j⟩ := x
  cases ha : s.accepts op with
  | false =>
    have hsame : s.step (op, j) = s := step_of_not_accepts ha
    rw [hsame] at hready
    exact .kept hready (by rw [hsame]) (historyOf_of_not_accepts ha)
  | true =>
    cases op with
    | configure =>
      have hnew : s.stage = .uninitialized := by
        rw [accepts, Bool.and_eq_true] at ha
        exact of_decide_eq_true ha.1
      refine .loaded hnew ?_ (by rw [historyOf, ha, if_pos rfl])
      rw [step, apply_configure ha]
    | install registry =>
      have hbefore : s.stage.acceptsRegistry = true := by
        rw [accepts, Bool.and_eq_true] at ha
        exact ha.1
      refine .kept hbefore ?_ (by rw [historyOf, ha, if_pos rfl])
      rw [step, apply_install ha]
    | execute code task =>
      have hfollows := follows_historyOf (s := s) (x := (.execute code task, j)) rfl
      obtain ⟨moments, hhistory⟩ := historyOf_execute ha hready
      rw [hhistory] at hfollows
      obtain ⟨before, htraced, hmemory⟩ := exists_traced_of_follows_reset hfollows
      exact .reset (ready_of_accepts (.inl rfl) ha) htraced hmemory hhistory
    | reset code =>
      have hfollows := follows_historyOf (s := s) (x := (.reset code, j)) rfl
      have hbefore := ready_of_accepts (.inr rfl) ha
      obtain hhistory | ⟨hcut, hhistory⟩ := historyOf_reset ha hready
      · rw [hhistory] at hfollows
        obtain ⟨before, htraced, hmemory⟩ := exists_traced_of_follows_reset hfollows
        exact .reset hbefore htraced hmemory hhistory
      · rw [hhistory] at hfollows
        exact .cutShort rfl hcut hbefore (traced_of_follows hfollows) hhistory
    | destroy =>
      have hdestroyed : (s.step (.destroy, j)).stage = .destroyed := destroy_stage s
      rw [hdestroyed] at hready
      cases hready

/-- A reset that is cut short leaves the stage of the sandbox, which stays unpoisoned if it was. -/
theorem step_of_cutShort (hcut : s.CutShort x) :
    (s.step x).stage = s.stage ∧ (s.step x).poisoned = s.poisoned ∧ s.stage.acceptsRegistry = true := by
  obtain ⟨op, j⟩ := x
  obtain ⟨ha, code, hop, hcut⟩ := hcut
  obtain rfl : op = .reset code := hop
  have hnot := resetMemory_of_cutShort hcut
  refine reset_end (P := fun s' => s'.stage = s.stage ∧ s'.poisoned = s.poisoned ∧ _) ha (fun s' j' h => ?_)
    (fun failures s' j' h _ => ?_) fun _ => ?_
  · exact absurd (congrArg Prod.fst h) (hnot [])
  · exact absurd (congrArg Prod.fst h) (hnot failures)
  · obtain ⟨_, m, memory, _, hafter, _⟩ := resetMemory_spec code s j
    rw [hafter]
    exact ⟨rfl, rfl, ready_of_accepts (.inr rfl) ha⟩

end Sandbox

end Interpose
