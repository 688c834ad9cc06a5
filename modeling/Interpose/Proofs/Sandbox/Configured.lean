import Interpose.Proofs.Sandbox.Cleanliness
import Interpose.Proofs.Sandbox.Fitness

/-!
# The memory of a configured sandbox

From when it is configured until it is destroyed, the memory of a sandbox is what its hierarchy declares, changed by the
operations since the last reset and by nothing else. This holds between the operations of its life, after panics too,
and at every moment inside them, so also while a body runs that another body called. Running code never leaves the
hierarchy of its sandbox.
-/

namespace Interpose

/-- Running code has the hierarchy that it was started with. -/
theorem Code.hierarchy_of_mem_moments {code : Code} {α : Type} {p : Program α} {m : Machine} {x : Moment}
    (hx : x ∈ code.moments p m) : x.machine.hierarchy = m.hierarchy := by
  have hsetting := (Code.mem_moments_iff.1 hx).reaches.setting
  unfold Machine.hierarchy
  rw [hsetting]

/-- A moment of a history that is moments and then no moment. -/
theorem Entry.split_moments {moments : List Moment} {ends past rest : List Entry} {x : Moment}
    (h : moments.map Entry.moment ++ ends = past ++ .moment x :: rest) (hends : ∀ y, .moment y ∉ ends) :
    ∃ before after, moments = before ++ x :: after ∧ past = before.map .moment := by
  obtain ⟨others, _, hothers⟩ | ⟨others, hmoments, hothers⟩ := List.append_eq_append_iff.1 h
  · exact absurd (hothers ▸ List.mem_append_cons_self) (hends x)
  · cases others with
    | nil => exact absurd ((List.nil_append ends ▸ hothers) ▸ List.mem_cons_self) (hends x)
    | cons first others =>
      obtain ⟨rfl, _⟩ := List.cons.inj hothers
      obtain ⟨before, others', rfl, rfl, hrest⟩ := List.map_eq_append_iff.1 hmoments
      obtain ⟨x', after, rfl, hx, _⟩ := List.map_eq_cons_iff.1 hrest
      obtain rfl : x' = x := Entry.moment.inj hx
      exact ⟨before, after, rfl, rfl⟩

namespace Memory

variable {h : Hierarchy} {m m' : Memory} {moments later : List Moment}

/-- The memory of a configured sandbox, with what was done to it since it was last loaded or reset. -/
structure Configured (h : Hierarchy) (moments : List Moment) (m : Memory) : Prop where
  residue : m.HasResidue h moments
  hierarchy : ∀ x ∈ moments, x.machine.hierarchy = h

theorem configured_declared (h : Hierarchy) (generation : Nat) : (declared h generation).Configured h [] :=
  ⟨.nil _, fun _ hx => by cases hx⟩

theorem Configured.append (hm : m.Configured h moments) (htraced : Traced m later m')
    (hlater : ∀ x ∈ later, x.machine.hierarchy = h) : m'.Configured h (moments ++ later) := by
  refine ⟨hm.residue.append htraced, fun x hx => ?_⟩
  obtain hpast | hnew := List.mem_append.1 hx
  · exact hm.hierarchy x hpast
  · exact hlater x hnew

theorem Configured.reset (hm : m.Configured h moments) : m.reset.Configured h [] :=
  ⟨hm.residue.reset, fun _ hx => by cases hx⟩

theorem Configured.eq_declared (hm : m.Configured h []) : m = declared h m.generation := traced_nil_iff.1 hm.residue

theorem fits_declared (h : Hierarchy) (generation : Nat) : (declared h generation).Fits h :=
  ⟨rfl, rfl, fun _ => rfl, Heap.numbered_of_empty rfl rfl⟩

theorem Configured.fits (hm : m.Configured h moments) : m.Fits h := (fits_declared h m.generation).traced hm.residue

/-- What the last operation made of what the ones before it left. -/
theorem Configured.concat {x : Moment} (hm : m.Configured h (moments ++ [x])) :
    x.machine.memory.Configured h moments ∧ x.machine.hierarchy = h ∧ m = x.machine.memory.does h x.op := by
  have hx : x.machine.hierarchy = h := hm.hierarchy x (List.mem_append_right _ (List.mem_singleton_self x))
  obtain ⟨hpast, hlast⟩ := Traced.split hm.residue
  have hm' := traced_nil_iff.1 hlast
  have hgeneration : m.generation = x.machine.memory.generation := by
    rw [hm']
    exact (evolves_does _ _ _).generation
  rw [hgeneration] at hpast
  rw [hx] at hm'
  exact ⟨⟨hpast, fun y hy => hm.hierarchy y (List.mem_append_left _ hy)⟩, hx, hm'⟩

/-- The value that operations of a sort wrote last. -/
def lastWritten (write? : Op → Option Value) (moments : List Moment) : Option Value :=
  (moments.filterMap fun x => write? x.op).getLast?

theorem lastWritten_nil (write? : Op → Option Value) : lastWritten write? [] = none := rfl

theorem lastWritten_concat (write? : Op → Option Value) (moments : List Moment) (x : Moment) :
    lastWritten write? (moments ++ [x]) = (write? x.op).or (lastWritten write? moments) := by
  unfold lastWritten
  rw [List.filterMap_append, List.getLast?_append]
  cases hx : write? x.op <;> simp [hx]

end Memory

namespace Sandbox

open Machine Memory

variable {h : Hierarchy} {s : Sandbox} {x : Step} {moments : List Moment} {steps : List Step}

/-! ## What an operation adds to the history -/

/-- The history of an operation on a sandbox that was configured before: what running code did, and then at most one
reset. -/
structure Adds (s : Sandbox) (x : Step) (moments : List Moment) (ends : List Entry) : Prop where
  history : s.historyOf x = moments.map .moment ++ ends
  hierarchy : ∀ y ∈ moments, y.machine.hierarchy = s.hierarchy
  ends : ends = [] ∨ ∃ leaked, ends = [.reset leaked] ∧ (leaked = true → (s.step x).stage = .destroyed)

theorem Adds.no_moment {ends : List Entry} (hadds : s.Adds x moments ends) (y : Moment) : .moment y ∉ ends := by
  obtain rfl | ⟨leaked, rfl, _⟩ := hadds.ends
  · exact List.not_mem_nil
  · intro hmem
    cases List.mem_singleton.1 hmem

theorem adds_nothing (hhistory : s.historyOf x = []) : s.Adds x [] [] :=
  ⟨hhistory, (fun _ hy => by cases hy), .inl rfl⟩

theorem hierarchy_of_mem_resetting {code : Code} {j : Journal} {y : Moment} (hy : y ∈ resetting code s j) :
    y.machine.hierarchy = s.hierarchy :=
  Code.hierarchy_of_mem_moments hy

/-- What a reset adds that is asked for. -/
theorem exists_adds_reset {code : Code} {j : Journal} (ha : s.accepts (.reset code) = true) :
    ∃ moments ends, s.Adds (.reset code, j) moments ends := by
  have hhistory : s.historyOf (.reset code, j) = s.resetHistory code j := by rw [historyOf, ha, if_pos rfl]
  have hclean : (s.step (.reset code, j)).stage = .destroyed ∨ s.leaks code j = false := by
    refine reset_end (P := fun s' => s'.stage = .destroyed ∨ s.leaks code j = false) ha (fun s' j' hr => ?_)
      (fun _ s' _ _ _ => .inl (destroy_stage _)) fun hcut => .inr (leaks_of_not_done hcut)
    exact .inr (leaks_of_done hr)
  have hleaks (hleaks : s.leaks code j = true) : (s.step (.reset code, j)).stage = .destroyed :=
    hclean.resolve_right fun hnone => Bool.false_ne_true (hnone.symm.trans hleaks)
  obtain hreset | ⟨_, hreset⟩ := resetHistory_cases code s j
  · exact ⟨_, _, hhistory.trans hreset, fun y => hierarchy_of_mem_resetting, .inr ⟨_, rfl, hleaks⟩⟩
  · exact ⟨_, [], by rw [hhistory, hreset, List.append_nil], fun y => hierarchy_of_mem_resetting, .inl rfl⟩

/-- What an execution adds: its task, and the reset unless the task does not come to its end. -/
theorem exists_adds_execute {code : Code} {task : Program (Except Error Value)} {j : Journal}
    (ha : s.accepts (.execute code task) = true) :
    ∃ moments ends, s.Adds (.execute code task, j) moments ends := by
  have htask : ∀ y ∈ code.moments task (s.machine { j with record := [] }), y.machine.hierarchy = s.hierarchy :=
    fun y => Code.hierarchy_of_mem_moments
  have hafter : (s.afterTask (s.taskRun code task j).2).hierarchy = s.hierarchy :=
    (sameOwner_of_reaches (code.reaches_run task (s.machine { j with record := [] })) .active (s.runs + 1) _).hierarchy
  by_cases hrun : (s.taskRun code task j).1 = .unfinished
  · refine ⟨_, [], ?_, htask, .inl rfl⟩
    rw [historyOf, ha, if_pos rfl]
    simp only [hrun]
  · have hhistory := historyOf_of_taskEnds ha hrun
    have hmoments : ∀ y ∈ code.moments task (s.machine { j with record := [] }) ++
        resetting code (s.afterTask (s.taskRun code task j).2) (s.taskRun code task j).2.journal,
        y.machine.hierarchy = s.hierarchy := by
      intro y hy
      obtain hy | hy := List.mem_append.1 hy
      · exact htask y hy
      · exact (hierarchy_of_mem_resetting hy).trans hafter
    have hclean : (s.step (.execute code task, j)).stage = .destroyed ∨
        (s.afterTask (s.taskRun code task j).2).leaks code (s.taskRun code task j).2.journal = false := by
      refine execute_end (P := fun s' => s'.stage = .destroyed ∨ _ = false) ha (fun hnot => absurd hnot hrun)
        (fun s' j' hr _ => .inr (leaks_of_done hr)) (fun _ s' _ _ _ => .inl (destroy_stage _))
        fun hcut => .inr (leaks_of_not_done hcut)
    have hleaks (hleaks : (s.afterTask (s.taskRun code task j).2).leaks code (s.taskRun code task j).2.journal = true) :
        (s.step (.execute code task, j)).stage = .destroyed :=
      hclean.resolve_right fun hnone => Bool.false_ne_true (hnone.symm.trans hleaks)
    obtain hreset | ⟨_, hreset⟩ := resetHistory_cases code (s.afterTask (s.taskRun code task j).2)
      (s.taskRun code task j).2.journal
    · refine ⟨_, _, ?_, hmoments, .inr ⟨_, rfl, hleaks⟩⟩
      rw [hhistory, hreset, List.map_append, List.append_assoc]
    · refine ⟨_, [], ?_, hmoments, .inl rfl⟩
      rw [hhistory, hreset, List.map_append, List.append_nil]

theorem exists_adds (hs : s.stage ≠ .uninitialized) (x : Step) : ∃ moments ends, s.Adds x moments ends := by
  obtain ⟨op, j⟩ := x
  cases ha : s.accepts op with
  | false => exact ⟨[], [], adds_nothing (historyOf_of_not_accepts ha)⟩
  | true =>
    cases op with
    | configure =>
      rw [accepts, Bool.and_eq_true] at ha
      exact absurd (of_decide_eq_true ha.1) hs
    | install registry => exact ⟨[], [], adds_nothing (by rw [historyOf, ha, if_pos rfl])⟩
    | execute code task => exact exists_adds_execute ha
    | reset code => exact exists_adds_reset ha
    | destroy => exact ⟨[], [], adds_nothing (historyOf_destroy s j)⟩

/-! ## Between operations -/

/-- Where a sandbox stands, given what was done to its memory since it was last loaded or reset. -/
structure Holds (h : Hierarchy) (moments : List Moment) (s : Sandbox) : Prop where
  hierarchy : s.hierarchy = h
  /-- It is configured once, in the memory that it was made with. -/
  blank : s.stage = .uninitialized → s.memory = .blank
  memory : s.stage ≠ .uninitialized → s.stage ≠ .destroyed → s.memory.Configured h moments
  cleared : s.stage = .destroyed → ∃ m : Memory, s.memory = m.clear

/-- What ends the life of a sandbox clears its memory. -/
theorem cleared_step (hs : s.stage ≠ .destroyed) (hgone : (s.step x).stage = .destroyed) :
    ∃ m : Memory, (s.step x).memory = m.clear := by
  have hpoison : ∀ s' : Sandbox, s'.stage ≠ .destroyed → ∃ m : Memory, s'.poison.memory = m.clear :=
    fun s' hs' => ⟨s'.memory, poison_memory hs'⟩
  obtain ⟨op, j⟩ := x
  cases ha : s.accepts op with
  | false =>
    have hsame : s.step (op, j) = s := step_of_not_accepts ha
    exact absurd (hsame ▸ hgone) hs
  | true =>
    cases op with
    | configure =>
      rw [step, apply_configure ha] at hgone
      cases hgone
    | install registry =>
      rw [step, apply_install ha] at hgone
      cases hgone
    | execute code task =>
      refine execute_end (P := fun s' => s'.stage = .destroyed → ∃ m : Memory, s'.memory = m.clear) ha
        (fun _ hend => by cases hend) (fun _ _ _ _ hend => by cases hend)
        (fun _ s' _ hr _ _ => hpoison s' fun hend => ?_) (fun _ hend => ?_) hgone
      · cases (stage_of_resetMemory hr).symm.trans hend
      · cases (resetMemory_stage _ _ _).symm.trans hend
    | reset code =>
      refine reset_end (P := fun s' => s'.stage = .destroyed → ∃ m : Memory, s'.memory = m.clear) ha
        (fun s' _ hr hend => absurd ((stage_of_resetMemory hr).symm.trans hend) hs)
        (fun _ s' _ hr _ _ => hpoison s' fun hend => hs ((stage_of_resetMemory hr).symm.trans hend))
        (fun _ hend => absurd ((resetMemory_stage _ _ _).symm.trans hend) hs) hgone
    | destroy =>
      have hdestroy : s.step (.destroy, j) = s.destroy := rfl
      rw [hdestroy, destroy, if_neg hs]
      exact ⟨s.memory, rfl⟩

/-- A new sandbox can be configured or destroyed, and nothing else. -/
theorem step_of_new (hnew : s.stage = .uninitialized) (x : Step) :
    s.historyOf x = [] ∧ (s.step x = s ∨ (s.step x).stage = .destroyed) ∨
      s.historyOf x = [.loaded s.hierarchy] ∧ (s.step x).memory = s.memory.load s.hierarchy := by
  obtain ⟨op, j⟩ := x
  cases ha : s.accepts op with
  | false => exact .inl ⟨historyOf_of_not_accepts ha, .inl (step_of_not_accepts ha)⟩
  | true =>
    cases op with
    | configure =>
      refine .inr ⟨by rw [historyOf, ha, if_pos rfl], ?_⟩
      rw [step, apply_configure ha]
    | destroy => exact .inl ⟨historyOf_destroy s j, .inr (destroy_stage s)⟩
    | install | execute | reset =>
      rw [accepts, hnew] at ha
      cases ha

/-- What an operation makes of the memory, where it leaves the sandbox configured. -/
theorem Holds.memory_step (hs : s.Holds h moments) (hold : (s.step x).stage ≠ .uninitialized)
    (hlives : (s.step x).stage ≠ .destroyed) :
    (s.step x).memory.Configured h ((s.historyOf x).foldl Entry.residue moments) := by
  by_cases hnew : s.stage = .uninitialized
  · obtain ⟨_, hsame | hdestroyed⟩ | ⟨hhistory, hmemory⟩ := step_of_new hnew x
    · exact absurd (hsame.symm ▸ hnew) hold
    · exact absurd hdestroyed hlives
    · rw [hmemory, hhistory, hs.hierarchy, hs.blank hnew]
      exact configured_declared h 0
  · have hbefore : s.stage ≠ .destroyed := by
      intro hdestroyed
      rw [step_of_destroyed hdestroyed] at hlives
      exact hlives hdestroyed
    have hop : x.1 ≠ .destroy := by
      obtain ⟨op, j⟩ := x
      rintro rfl
      exact hlives (destroy_stage s)
    have hfollows := follows_historyOf (s := s) (Operation.not_isDestroy hop)
    obtain ⟨added, ends, hadds⟩ := exists_adds hnew x
    have hadded : ∀ y ∈ added, y.machine.hierarchy = h := fun y hy => (hadds.hierarchy y hy).trans hs.hierarchy
    rw [hadds.history] at hfollows ⊢
    obtain rfl | ⟨leaked, rfl, hleaked⟩ := hadds.ends
    · rw [List.append_nil] at hfollows ⊢
      rw [foldl_residue_moments]
      exact (hs.memory hnew hbefore).append (traced_of_follows hfollows) hadded
    · cases leaked with
      | true => exact absurd (hleaked rfl) hlives
      | false =>
        rw [foldl_residue_reset]
        obtain ⟨before, htraced, hmemory⟩ := exists_traced_of_follows_reset hfollows
        rw [hmemory]
        exact ((hs.memory hnew hbefore).append htraced hadded).reset

theorem Holds.step (hs : s.Holds h moments) (x : Step) :
    (s.step x).Holds h ((s.historyOf x).foldl Entry.residue moments) := by
  refine ⟨(sameOwner_step s x).hierarchy.trans hs.hierarchy, fun hnew => ?_, hs.memory_step, fun hgone => ?_⟩
  · have hsame := step_of_uninitialized hnew
    rw [hsame] at hnew ⊢
    exact hs.blank hnew
  · by_cases hbefore : s.stage = .destroyed
    · rw [step_of_destroyed hbefore]
      exact hs.cleared hbefore
    · exact cleared_step hbefore hgone

theorem Holds.after (hs : s.Holds h moments) (steps : List Step) :
    (s.after steps).Holds h ((history s steps).foldl Entry.residue moments) := by
  induction steps generalizing s moments with
  | nil => exact hs
  | cons x rest ih =>
    rw [history, List.foldl_append]
    exact ih (hs.step x)

theorem holds_new (id : Nat) (key : SandboxKey) (h : Hierarchy) (detectLeaks : Bool) (checks : List LeakCheck) :
    Holds h [] { new id key h with detectLeaks := detectLeaks, checks := checks } :=
  ⟨rfl, fun _ => rfl, fun hold => absurd rfl hold, fun hgone => by cases hgone⟩

/-! ## At the moments of a life -/

/-- A moment of a life is a moment of one of its operations. -/
theorem exists_step_of_moment {past rest : List Entry} {y : Moment}
    (hy : history s steps = past ++ .moment y :: rest) :
    ∃ before x after within rest', steps = before ++ x :: after ∧ past = history s before ++ within ∧
      (s.after before).historyOf x = within ++ .moment y :: rest' := by
  induction steps generalizing s past with
  | nil => exact absurd hy.symm (List.append_ne_nil_of_right_ne_nil _ (List.cons_ne_nil _ _))
  | cons x steps ih =>
    rw [history] at hy
    obtain ⟨others, rfl, hothers⟩ | ⟨others, hhistory, hothers⟩ := List.append_eq_append_iff.1 hy
    · obtain ⟨before, x', after, within, rest', rfl, rfl, hwithin⟩ := ih hothers
      exact ⟨x :: before, x', after, within, rest', rfl, by rw [history, List.append_assoc], hwithin⟩
    · cases others with
      | nil =>
        have hlater : history (s.step x) steps = [] ++ .moment y :: rest := hothers.symm
        obtain ⟨before, x', after, within, rest', rfl, hnil, hwithin⟩ := ih hlater
        refine ⟨x :: before, x', after, within, rest', rfl, ?_, hwithin⟩
        rw [List.append_nil] at hhistory
        rw [history, List.append_assoc, ← hnil, List.append_nil, hhistory]
      | cons first others =>
        obtain ⟨rfl, _⟩ := List.cons.inj hothers
        exact ⟨[], x, steps, past, others, rfl, rfl, hhistory⟩

/-- A moment of an operation on a sandbox. -/
theorem Holds.at_moment (hs : s.Holds h moments) {within rest : List Entry} {y : Moment}
    (hy : s.historyOf x = within ++ .moment y :: rest) :
    y.machine.hierarchy = h ∧ y.machine.memory.Configured h (within.foldl Entry.residue moments) := by
  have hne : s.historyOf x ≠ [] := by
    rw [hy]
    exact List.append_ne_nil_of_right_ne_nil _ (List.cons_ne_nil _ _)
  have hlives : s.stage ≠ .destroyed := by
    intro hdestroyed
    have hnone := history_of_destroyed hdestroyed [x]
    rw [history, List.append_eq_nil_iff] at hnone
    exact hne hnone.1
  have hop : x.1 ≠ .destroy := by
    obtain ⟨op, j⟩ := x
    rintro rfl
    exact hne (historyOf_destroy s j)
  have hnew : s.stage ≠ .uninitialized := by
    intro hnew
    obtain ⟨hnone, _⟩ | ⟨hloaded, _⟩ := step_of_new hnew x
    · exact hne hnone
    · have hmem : Entry.moment y ∈ s.historyOf x := hy ▸ List.mem_append_cons_self
      rw [hloaded] at hmem
      cases List.mem_singleton.1 hmem
  obtain ⟨added, ends, hadds⟩ := exists_adds hnew x
  have hfollows := follows_historyOf (s := s) (Operation.not_isDestroy hop)
  rw [hy] at hfollows
  obtain ⟨before, after, rfl, rfl⟩ := Entry.split_moments (hadds.history.symm.trans hy) hadds.no_moment
  have hadded : ∀ z ∈ before ++ y :: after, z.machine.hierarchy = h :=
    fun z hz => (hadds.hierarchy z hz).trans hs.hierarchy
  rw [foldl_residue_moments]
  exact ⟨hadded y List.mem_append_cons_self, (hs.memory hnew hlives).append (traced_of_follows hfollows.split)
    fun z hz => hadded z (List.mem_append_left _ hz)⟩

/-- At every moment of the life of a new sandbox it works on a memory that is configured. -/
theorem configured_at_moment {id : Nat} {key : SandboxKey} {detectLeaks : Bool} {checks : List LeakCheck}
    {past rest : List Entry} {y : Moment}
    (hy : history { new id key h with detectLeaks := detectLeaks, checks := checks } steps =
      past ++ .moment y :: rest) :
    y.machine.hierarchy = h ∧ y.machine.memory.Configured h (residueOf past) := by
  obtain ⟨before, x, after, within, rest', rfl, rfl, hwithin⟩ := exists_step_of_moment hy
  rw [residueOf, List.foldl_append]
  exact ((holds_new id key h detectLeaks checks).after before).at_moment hwithin

/-- So it does between operations, from when it was configured until it is destroyed. -/
theorem configured_after {id : Nat} {key : SandboxKey} {detectLeaks : Bool} {checks : List LeakCheck} :
    let start : Sandbox := { new id key h with detectLeaks := detectLeaks, checks := checks }
    let s := start.after steps
    s.stage ≠ .uninitialized → s.stage ≠ .destroyed →
      s.hierarchy = h ∧ s.memory.Configured h (residueOf (history start steps)) := by
  intro start s hold hlives
  have hs := (holds_new id key h detectLeaks checks).after steps
  exact ⟨hs.hierarchy, hs.memory hold hlives⟩

/-- Before and after that there are no objects. -/
theorem no_objects_after {id : Nat} {key : SandboxKey} {detectLeaks : Bool} {checks : List LeakCheck} :
    let start : Sandbox := { new id key h with detectLeaks := detectLeaks, checks := checks }
    let s := start.after steps
    s.stage = .uninitialized ∨ s.stage = .destroyed → s.memory.heap.objects = Table.empty := by
  intro start s hstage
  have hs := (holds_new id key h detectLeaks checks).after steps
  obtain hnew | hgone := hstage
  · have hmemory : s.memory = .blank := hs.blank hnew
    rw [hmemory]
    rfl
  · obtain ⟨m, hmemory⟩ := hs.cleared hgone
    have hcleared : s.memory = m.clear := hmemory
    rw [hcleared]
    rfl

end Sandbox

end Interpose
