import Interpose.Proofs.Testing.Outcomes
import Interpose.Proofs.Testing.RegistryCache
import Interpose.Proofs.Testing.Sandboxes

/-!
# The levels that tests run at

A choice of levels stands for some of them, in whatever order and however often they are given. It is refused if it
stands for none, or if it wants one that is not supported. A harness checks its settings once and the choice of every
test, and so nothing of it is at another level: no execution, no outcome, and no sandbox that was prepared ahead.
-/

namespace Interpose

theorem Window.admits_iff {w : Window} {level : Nat} : w.admits level = true ↔
    (∀ min, w.min = some min → min ≤ level) ∧ ∀ max, w.max = some max → level ≤ max := by
  rw [admits, Bool.and_eq_true, Option.all_eq_true, Option.all_eq_true]
  simp only [decide_eq_true_eq]

/-! ## Choices -/

namespace LevelChoice

variable {choice : LevelChoice} {supported levels chosen : List Nat} {defaultLevel level : Nat}

/-- The levels that a choice stands for. -/
def StandsFor (choice : LevelChoice) (supported : List Nat) (defaultLevel level : Nat) : Prop :=
  match choice with
  | default => level = defaultLevel
  | all => level ∈ supported
  | exact wanted => level ∈ wanted
  | range window =>
    level ∈ supported ∧ (∀ min, window.min = some min → min ≤ level) ∧ ∀ max, window.max = some max → level ≤ max

/-- Whether all levels that a choice names are supported. -/
def NamesSupported (choice : LevelChoice) (supported : List Nat) : Prop :=
  ∀ wanted, choice = exact wanted → ∀ level ∈ wanted, level ∈ supported

theorem mem_candidates (hchosen : choice.candidates supported defaultLevel = .ok chosen) :
    level ∈ chosen ↔ choice.StandsFor supported defaultLevel level := by
  cases choice with
  | default =>
    cases hchosen
    exact List.mem_singleton
  | all =>
    cases hchosen
    exact Iff.rfl
  | exact wanted =>
    unfold candidates at hchosen
    simp only at hchosen
    split at hchosen
    · cases hchosen
    · cases hchosen
      exact Iff.rfl
  | range window =>
    cases hchosen
    rw [List.mem_filter, Window.admits_iff]
    exact Iff.rfl

/-- The only reason not to have candidates is to want a level that is not supported. -/
theorem exists_candidates_iff :
    (∃ chosen, choice.candidates supported defaultLevel = .ok chosen) ↔ choice.NamesSupported supported := by
  cases choice with
  | default | all | range => exact iff_of_true ⟨_, rfl⟩ fun _ heq => (by cases heq)
  | exact wanted =>
    have hnames : (exact wanted).NamesSupported supported ↔ ∀ level ∈ wanted, level ∈ supported :=
      ⟨fun h => h wanted rfl, fun h _ heq => exact.inj heq ▸ h⟩
    rw [hnames, candidates]
    cases hfind : wanted.find? fun level => !supported.contains level with
    | some level =>
      refine iff_of_false (fun ⟨_, hchosen⟩ => by cases hchosen) fun hall => ?_
      have hsupported := hall level (List.mem_of_find?_eq_some hfind)
      have hunsupported := List.find?_some hfind
      rw [List.contains_iff_mem.2 hsupported] at hunsupported
      cases hunsupported
    | none =>
      refine iff_of_true ⟨wanted, rfl⟩ fun level hmem => ?_
      simpa using List.find?_eq_none.1 hfind level hmem

/-- Choosing fails only for want of candidates. -/
theorem exists_select_iff :
    (∃ levels, choice.select supported defaultLevel = .ok levels) ↔
      (∃ level, choice.StandsFor supported defaultLevel level) ∧ choice.NamesSupported supported := by
  have hcandidates :
      (∃ chosen, choice.candidates supported defaultLevel = .ok chosen) ↔ choice.NamesSupported supported :=
    exists_candidates_iff
  rw [← hcandidates]
  constructor
  · rintro ⟨levels, hselect⟩
    obtain ⟨_, hsome, chosen, hchosen, hsame⟩ := select_eq_ok hselect
    obtain ⟨level, hlevel⟩ := List.exists_mem_of_ne_nil levels hsome
    exact ⟨⟨level, (mem_candidates hchosen).1 ((hsame level).1 hlevel)⟩, chosen, hchosen⟩
  · rintro ⟨⟨level, hstands⟩, chosen, hchosen⟩
    have hlevel : level ∈ ascending chosen := mem_ascending.2 ((mem_candidates hchosen).2 hstands)
    have hsome : ¬(ascending chosen).isEmpty = true := fun hnone =>
      List.ne_nil_of_mem hlevel (List.isEmpty_iff.1 hnone)
    exact ⟨ascending chosen, by simp only [select, hchosen, if_neg hsome]⟩

theorem mem_select (hselect : choice.select supported defaultLevel = .ok levels) :
    level ∈ levels ↔ choice.StandsFor supported defaultLevel level := by
  obtain ⟨_, _, chosen, hchosen, hsame⟩ := select_eq_ok hselect
  rw [hsame, mem_candidates hchosen]

/-- Where the default level is supported, all that is chosen is. -/
theorem supported_of_select (hdefault : defaultLevel ∈ supported)
    (hselect : choice.select supported defaultLevel = .ok levels) (hlevel : level ∈ levels) : level ∈ supported := by
  have hnames := (exists_select_iff.1 ⟨levels, hselect⟩).2
  have hstands := (mem_select hselect).1 hlevel
  cases choice with
  | default =>
    obtain rfl : level = defaultLevel := hstands
    exact hdefault
  | all => exact hstands
  | exact wanted => exact hnames wanted rfl level hstands
  | range window => exact hstands.1

end LevelChoice

namespace Settings

variable {s : Settings}

theorem default_mem_of_fault? (hfault : s.fault? = none) : s.defaultLevel ∈ s.supportedLevels := by
  unfold fault? at hfault
  split at hfault
  · cases hfault
  · split at hfault
    · cases hfault
    · rename_i hsupported
      simpa using hsupported

theorem exists_new (hfault : s.fault? = none) (hierarchy : Hierarchy) : ∃ h, Harness.new hierarchy s = .ok h := by
  rw [Harness.new, hfault]
  exact ⟨_, rfl⟩

end Settings

namespace Harness

variable {past : List Execution} {ahead cleared : Nat} {h h' : Harness} {hierarchy : Hierarchy} {settings : Settings}
  {test : Overrides} {code : Code} {task : Program (Except Error Value)}

/-! ## Runs after any steps -/

/-- Whatever a harness is used for, its books are kept. -/
theorem Books.step (hb : Books past ahead cleared h) (ht : Tracks past h) (s : Step) :
    ∃ past ahead cleared, Books past ahead cleared (h.step s) ∧ Tracks past (h.step s) := by
  cases s with
  | withProvider p => exact ⟨_, _, _, hb.withProvider p, ht.mono (fun _ _ hs => hs) (Nat.le_refl _)⟩
  | withCheck check => exact ⟨_, _, _, hb.withCheck check, ht.mono (fun _ _ hs => hs) (Nat.le_refl _)⟩
  | registryFor test => exact ⟨_, _, _, (hb.registryFor test).1, ht.registryFor test⟩
  | run code test task => exact ⟨_, _, _, hb.run ht code test task, ht.run code test task⟩
  | prewarm code levels schedule =>
    exact ⟨_, _, _, hb.prewarm ht code levels schedule, ht.prewarm code levels schedule⟩
  | clearPool => exact ⟨_, _, _, hb.clearPool, ht.clearPool⟩

theorem exists_books_after (hnew : Harness.new hierarchy settings = .ok h) (steps : List Step) :
    ∃ past ahead cleared, Books past ahead cleared (h.after steps) ∧ Tracks past (h.after steps) := by
  induction steps using List.reverseRecOn with
  | nil => exact ⟨[], 0, 0, books_new hnew, (History.new hnew).tracks⟩
  | append_singleton steps s ih =>
    obtain ⟨_, _, _, hb, ht⟩ := ih
    rw [after_concat]
    exact hb.step ht s

/-- Each execution of a run is in a sandbox for the rules of the test at one of the chosen levels. -/
theorem key_of_mem_executions (hb : Books past ahead cleared h) (ht : Tracks past h) {e : Execution}
    (he : e ∈ h.executions code test task) :
    ∃ levels, test.levels.select h.settings.supportedLevels h.settings.defaultLevel = .ok levels ∧
      ∃ level ∈ levels, e.sandbox.key = ⟨h.rulesFor test, level⟩ := by
  obtain ⟨_, _, hnone, _⟩ | ⟨levels, _, hselect, hregistry⟩ := h.run_refused_or_given code test task
  · rw [hnone] at he
    cases he
  · obtain ⟨_, _, hkeys, _⟩ := run_spec hb ht code test task hselect hregistry
    obtain ⟨level, hlevel, hkey⟩ := List.mem_map.1 (hkeys.subset (List.mem_map_of_mem he))
    exact ⟨levels, hselect, level, hlevel, hkey.symm⟩

/-- A run that returns outcomes has one for each of the chosen levels. -/
theorem select_of_run (hb : Books past ahead cleared h) (ht : Tracks past h) {outcomes : List TestOutcome}
    (hrun : (h.run code test task).1 = .done (.ok outcomes)) :
    test.levels.select h.settings.supportedLevels h.settings.defaultLevel = .ok (outcomes.map (·.level)) := by
  obtain ⟨_, herror, _⟩ | ⟨_, _, hselect, hregistry⟩ := h.run_refused_or_given code test task
  · rw [herror] at hrun
    cases hrun
  · obtain ⟨_, _, _, hconcludes⟩ := run_spec hb ht code test task hselect hregistry
    obtain ⟨_, hgiven, hlevels, _⟩ := hconcludes.outcomes hrun
    obtain rfl := Except.ok.inj hgiven
    rw [hselect, hlevels]

/-! ## The sandboxes that are kept -/

/-- Every sandbox that waits in the pool is for such a key. -/
def KeepsOnly (P : SandboxKey → Prop) (h : Harness) : Prop := ∀ key s, h.pool.idleAt? key = some s → P key

section Keeping

variable {P : SandboxKey → Prop}

theorem KeepsOnly.of_pool (hk : h.KeepsOnly P) (hpool : h'.pool = h.pool) : h'.KeepsOnly P := by
  intro key s hs
  rw [hpool] at hs
  exact hk key s hs

theorem KeepsOnly.withSandbox {α : Type} (hk : h.KeepsOnly P) (code : Code) {key : SandboxKey} (hkey : P key)
    (use : Sandbox → Journal → Outcome α × Sandbox × Journal) : (h.withSandbox code key use).2.KeepsOnly P := by
  have hlease : (h.lease key).2.KeepsOnly P := fun k s hs => hk k s (idleAt?_lease hs).2
  rw [withSandbox_end]
  split
  · intro k s hs
    simp only [Harness.giveBack, Pool.release] at hs
    split at hs
    · -- What comes back waits under the key that it was got for.
      obtain ⟨rfl, _⟩ | hwaits := Pool.idleAt?_putBack hs
      · exact hkey
      · exact hlease k s hwaits
    · exact hlease k s hs
  · exact hlease

theorem KeepsOnly.runLevels (hk : h.KeepsOnly P) (code : Code) {rules : Rules} {levels : List Nat}
    (hlevels : ∀ level ∈ levels, P ⟨rules, level⟩) (registry : Registry) (task : Program (Except Error Value)) :
    (h.runLevels code rules registry task levels).2.KeepsOnly P := by
  induction levels generalizing h with
  | nil => exact hk
  | cons level rest ih =>
    obtain ⟨hlevel, hrest⟩ := List.forall_mem_cons.1 hlevels
    have hone : (h.runAt code ⟨rules, level⟩ registry task).2.KeepsOnly P := by
      rw [runAt_end]
      exact hk.withSandbox code hlevel _
    unfold Harness.runLevels
    refine Outcome.andThen_end (P := KeepsOnly P) hone fun outcome _ => ?_
    exact Outcome.andThen_end (P := KeepsOnly P) (ih hone hrest) fun _ _ => ih hone hrest

/-- Runs are at chosen levels, which are supported. -/
theorem KeepsOnly.run (hk : h.KeepsOnly fun key => key.level ∈ h.settings.supportedLevels)
    (hdefault : h.settings.defaultLevel ∈ h.settings.supportedLevels) (code : Code) (test : Overrides)
    (task : Program (Except Error Value)) :
    (h.run code test task).2.KeepsOnly fun key => key.level ∈ h.settings.supportedLevels := by
  unfold Harness.run
  cases hselect : test.levels.select h.settings.supportedLevels h.settings.defaultLevel with
  | error e => exact hk
  | ok levels =>
    have hasked := hk.of_pool (h.registryFor_keeps test).2
    simp only
    rcases hf : h.registryFor test with ⟨answer, h'⟩
    rw [hf] at hasked
    cases answer with
    | error e => exact hasked
    | ok registry =>
      simp only
      rw [Outcome.andThen_snd]
      exact hasked.runLevels code (fun _ => LevelChoice.supported_of_select hdefault hselect) registry task

/-- And what is prepared ahead is refused as a whole if a level is not supported. -/
theorem KeepsOnly.prewarm (hk : h.KeepsOnly fun key => key.level ∈ h.settings.supportedLevels) (code : Code)
    (levels schedule : List Nat) :
    (h.prewarm code levels schedule).2.KeepsOnly fun key => key.level ∈ h.settings.supportedLevels := by
  obtain hsame | ⟨hsupported, hcrew⟩ := h.prewarm_keeps code levels schedule
  · rw [hsame]
    exact hk
  rw [hcrew]
  refine (keeps_prewarmed (Q := fun key _ => key.level ∈ h.settings.supportedLevels) hk code levels schedule
    ⟨fun hkey _ _ => ?_, fun hs _ => hs⟩).idle
  obtain ⟨level, hlevel, rfl⟩ := List.mem_map.1 hkey
  exact hsupported level hlevel

/-- Sandboxes are kept for supported levels only, whatever a harness is used for. -/
theorem KeepsOnly.step (hk : h.KeepsOnly fun key => key.level ∈ h.settings.supportedLevels)
    (hdefault : h.settings.defaultLevel ∈ h.settings.supportedLevels) (s : Step) :
    (h.step s).KeepsOnly fun key => key.level ∈ h.settings.supportedLevels := by
  cases s with
  | withProvider p => exact hk
  | withCheck check => exact hk
  | registryFor test => exact hk.of_pool (h.registryFor_keeps test).2
  | run code test task => exact hk.run hdefault code test task
  | prewarm code levels schedule => exact hk.prewarm code levels schedule
  | clearPool =>
    intro key s hs
    change h.pool.clear.2.idleAt? key = some s at hs
    rw [Pool.idleAt?_clear] at hs
    cases hs

theorem keepsOnly_after (hnew : Harness.new hierarchy settings = .ok h) (steps : List Step) :
    (h.after steps).KeepsOnly fun key => key.level ∈ settings.supportedLevels := by
  induction steps using List.reverseRecOn with
  | nil =>
    obtain ⟨_, rfl⟩ := new_eq_ok hnew
    exact fun _ _ hs => by cases hs
  | append_singleton steps s ih =>
    have hsettings : (h.after steps).settings = settings := (knows_after hnew steps).sameSettings
    have hdefault := Settings.default_mem_of_fault? (new_eq_ok hnew).1
    rw [← hsettings] at ih hdefault ⊢
    rw [after_concat]
    exact ih.step hdefault s

end Keeping

/-- Between runs there is a sandbox in the pool only where one waits. -/
theorem Books.exists_idle (hb : Books past ahead cleared h) {key : SandboxKey} (hkey : h.pool.contains key = true) :
    ∃ s, h.pool.idleAt? key = some s := by
  obtain ⟨slot, hslot⟩ := Option.isSome_iff_exists.1 hkey
  obtain ⟨s, released, rfl⟩ := hb.atRest.slot hslot
  exact ⟨s, by rw [Pool.idleAt?, hslot]; rfl⟩

end Harness

/-! ## The main result -/

/-- Take any choice of levels, and any list of supported ones. Choosing succeeds exactly if the choice stands for a level
and all levels that it names are supported; the levels are then strictly ascending, and they are just those that the
choice stands for. So for settings without a fault the default and all levels can always be chosen, a harness can be
made, and it is at supported levels only: whatever it is used for, the sandboxes in its pool, the executions of its
runs and the outcomes that these return are at levels that are supported. -/
theorem LevelChoice.select_exactly :
    (∀ (choice : LevelChoice) supported defaultLevel,
      ((∃ levels, choice.select supported defaultLevel = .ok levels) ↔
        (∃ level, choice.StandsFor supported defaultLevel level) ∧ choice.NamesSupported supported) ∧
      ∀ levels, choice.select supported defaultLevel = .ok levels →
        levels.Pairwise (· < ·) ∧ ∀ level, level ∈ levels ↔ choice.StandsFor supported defaultLevel level) ∧
    ∀ settings : Settings, settings.fault? = none →
      (∀ choice, choice = default ∨ choice = all →
        ∃ levels, choice.select settings.supportedLevels settings.defaultLevel = .ok levels) ∧
      ∀ hierarchy, ∃ h, Harness.new hierarchy settings = .ok h ∧ ∀ steps,
        let now := h.after steps
        (∀ key, now.pool.contains key = true → key.level ∈ settings.supportedLevels) ∧
        ∀ code test task,
          (∀ e ∈ now.executions code test task, e.sandbox.key.level ∈ settings.supportedLevels) ∧
          ∀ outcomes, (now.run code test task).1 = .done (.ok outcomes) →
            ∀ outcome ∈ outcomes, outcome.level ∈ settings.supportedLevels := by
  refine ⟨fun choice supported defaultLevel => ⟨exists_select_iff, fun levels hselect => ?_⟩,
    fun settings hfault => ⟨fun choice hchoice => ?_, fun hierarchy => ?_⟩⟩
  · exact ⟨(select_eq_ok hselect).1, fun level => mem_select hselect⟩
  · have hdefault := Settings.default_mem_of_fault? hfault
    rw [exists_select_iff]
    obtain rfl | rfl := hchoice
    · exact ⟨⟨settings.defaultLevel, rfl⟩, fun _ heq => by cases heq⟩
    · exact ⟨⟨settings.defaultLevel, hdefault⟩, fun _ heq => by cases heq⟩
  · obtain ⟨h, hnew⟩ := Settings.exists_new hfault hierarchy
    refine ⟨h, hnew, fun steps => ?_⟩
    intro now
    have hdefault := Settings.default_mem_of_fault? hfault
    have hsettings : now.settings = settings := (Harness.knows_after hnew steps).sameSettings
    obtain ⟨_, _, _, hb, ht⟩ := Harness.exists_books_after hnew steps
    refine ⟨fun key hkey => ?_, fun code test task => ⟨fun e he => ?_, fun outcomes hrun outcome hmem => ?_⟩⟩
    · obtain ⟨s, hs⟩ := hb.exists_idle hkey
      exact Harness.keepsOnly_after hnew steps key s hs
    · obtain ⟨levels, hselect, level, hlevel, hkey⟩ := Harness.key_of_mem_executions hb ht he
      rw [hsettings] at hselect
      rw [hkey]
      exact supported_of_select hdefault hselect hlevel
    · have hselect := Harness.select_of_run hb ht hrun
      rw [hsettings] at hselect
      exact supported_of_select hdefault hselect (List.mem_map_of_mem hmem)

/-! ## Levels out of order -/

namespace Sample

/-- Settings that give the levels in no order and one of them twice. -/
def shuffled : Settings := { settings with supportedLevels := [30, 28, 30, 21], defaultLevel := 28 }

end Sample

/-- From one level on, two of the levels are chosen, each once, and a list is refused for the one level of it that is not
supported. A run at all levels has executions at supported levels, after one of them was prepared ahead. -/
theorem LevelChoice.select_exactly_shuffled :
    (∃ levels, (range ⟨some 28, none⟩).select [30, 28, 30, 21] 28 = .ok levels ∧ levels.Pairwise (· < ·) ∧
      30 ∈ levels ∧ 21 ∉ levels) ∧
    (¬∃ levels, (exact [28, 29]).select [30, 28, 30, 21] 28 = .ok levels) ∧
    ∃ h e, Harness.new Sample.hierarchy Sample.shuffled = .ok h ∧
      e ∈ (h.after [.prewarm Sample.code [30] []]).executions Sample.code Sample.bothLevels (Sample.failAt 28) ∧
      e.sandbox.key.level ∈ [30, 28, 30, 21] := by
  obtain ⟨hchosen, hharness⟩ := select_exactly
  have hrange : (range ⟨some 28, none⟩).select [30, 28, 30, 21] 28 = .ok [28, 30] := by decide
  obtain ⟨_, hexactly⟩ := hchosen (range ⟨some 28, none⟩) [30, 28, 30, 21] 28
  obtain ⟨hascending, hmem⟩ := hexactly _ hrange
  refine ⟨⟨_, hrange, hascending, (hmem 30).2 ⟨by decide, by decide, by decide⟩, fun hlow => ?_⟩, fun hselect => ?_, ?_⟩
  · exact absurd (((hmem 21).1 hlow).2.1 28 rfl) (by decide)
  · obtain ⟨hiff, _⟩ := hchosen (exact [28, 29]) [30, 28, 30, 21] 28
    exact absurd ((hiff.1 hselect).2 _ rfl 29 (by decide)) (by decide)
  · obtain ⟨_, hmade⟩ := hharness Sample.shuffled (by decide)
    obtain ⟨h, hnew, hat⟩ := hmade Sample.hierarchy
    obtain ⟨_, hruns⟩ := hat [.prewarm Sample.code [30] []]
    obtain ⟨hsupported, _⟩ := hruns Sample.code Sample.bothLevels (Sample.failAt 28)
    obtain ⟨e, he⟩ : ∃ e, e ∈ (h.after [.prewarm Sample.code [30] []]).executions Sample.code Sample.bothLevels
        (Sample.failAt 28) := by
      obtain rfl := Except.ok.inj hnew
      exact List.exists_mem_of_ne_nil _ (List.ne_nil_of_length_pos (by decide))
    exact ⟨h, e, hnew, he, hsupported e he⟩

end Interpose
