import Interpose.Proofs.Sandbox.Readiness

/-!
# Which sandboxes are clean

A sandbox that accepts a registry has the memory that its hierarchy declares, whatever tasks and resetters did before,
with one exception. The residue of a history is what was done to the memory since it was last loaded or reset. It
accounts for the memory, and all of it is what resetters did in resets that a panic cut short: that is still there for
the next task to find, and nothing else is.
-/

namespace Interpose

/-! ## Memories with a residue -/

namespace Memory

/-- What a hierarchy declares, in a given generation: every static field has its first value, and there is neither
static state of shadows nor any object. -/
def declared (h : Hierarchy) (generation : Nat) : Memory where
  template := declaredStatics h
  loadedTypes := h.size
  statics := declaredStatics h
  writeTried := false
  shadowStatics := Table.empty
  heap := ⟨generation, 0, Table.empty⟩

theorem load_blank (h : Hierarchy) : blank.load h = declared h 0 := rfl

theorem traced_nil_iff {m m' : Memory} : Traced m [] m' ↔ m' = m := by
  constructor
  · intro h
    cases h
    rfl
  · rintro rfl
    exact .nil _

/-- A memory is what a list of operations made of what was declared. -/
def HasResidue (m : Memory) (h : Hierarchy) (residue : List Moment) : Prop :=
  Traced (declared h m.generation) residue m

variable {m m' : Memory} {h : Hierarchy} {residue moments : List Moment}

theorem HasResidue.append (hm : m.HasResidue h residue) (hmoments : Traced m moments m') :
    m'.HasResidue h (residue ++ moments) := by
  have hgeneration : m'.generation = m.generation := hmoments.evolves.generation
  unfold HasResidue
  rw [hgeneration]
  exact Traced.append hm hmoments

/-- A reset returns to what was declared. -/
theorem HasResidue.reset (hm : m.HasResidue h residue) : m.reset.HasResidue h [] := by
  have htemplate : m.template = declaredStatics h := (Traced.evolves hm).template
  have hloaded : m.loadedTypes = h.size := (Traced.evolves hm).loadedTypes
  refine traced_nil_iff.2 ?_
  unfold Memory.reset
  rw [htemplate, hloaded]
  rfl

end Memory

/-! ## The residue of a history -/

/-- What is left to be cleaned up, given what was left before. -/
def Entry.residue (past : List Moment) : Entry → List Moment
  | .moment x => past ++ [x]
  | .loaded _ | .reset _ => []

/-- The operations of a history since the memory was last loaded or reset. -/
def residueOf (history : List Entry) : List Moment := history.foldl Entry.residue []

theorem foldl_residue_moments (past moments : List Moment) :
    (moments.map Entry.moment).foldl Entry.residue past = past ++ moments := by
  induction moments generalizing past with
  | nil => simp
  | cons x rest ih =>
    rw [List.map_cons, List.foldl_cons, ih]
    simp [Entry.residue]

theorem foldl_residue_reset (past : List Moment) (history : List Entry) (leaked : Bool) :
    (history ++ [Entry.reset leaked]).foldl Entry.residue past = [] := by
  rw [List.foldl_append]
  rfl

namespace Sandbox

open Machine Memory

variable {h : Hierarchy} {s : Sandbox} {x : Step} {residue : List Moment} {steps : List Step}

/-! ## What a life leaves -/

/-- Where a sandbox stands, given what is left to be cleaned up in its memory. -/
structure Stands (h : Hierarchy) (residue : List Moment) (s : Sandbox) : Prop where
  hierarchy : s.hierarchy = h
  /-- It is configured once, in the memory that it was made with. -/
  blank : s.stage = .uninitialized → s.memory = .blank
  memory : s.stage.acceptsRegistry = true → s.memory.HasResidue h residue

theorem Stands.memory_step (hs : s.Stands h residue) (hstep : s.Readied x) :
    (s.step x).memory.HasResidue h ((s.historyOf x).foldl Entry.residue residue) := by
  cases hstep with
  | kept hready hmemory hhistory =>
    rw [hmemory, hhistory]
    exact hs.memory hready
  | loaded hnew hmemory hhistory =>
    rw [hmemory, hhistory, hs.hierarchy, hs.blank hnew]
    exact traced_nil_iff.2 (load_blank h)
  | reset hready htraced hmemory hhistory =>
    rw [hmemory, hhistory, foldl_residue_reset]
    exact ((hs.memory hready).append htraced).reset
  | cutShort _ _ hready htraced hhistory =>
    rw [hhistory, foldl_residue_moments]
    exact (hs.memory hready).append htraced

theorem Stands.step (hs : s.Stands h residue) (x : Step) :
    (s.step x).Stands h ((s.historyOf x).foldl Entry.residue residue) := by
  refine ⟨(sameOwner_step s x).hierarchy.trans hs.hierarchy, fun hnew => ?_,
    fun hready => hs.memory_step (readied_step hready)⟩
  have hsame := step_of_uninitialized hnew
  rw [hsame] at hnew ⊢
  exact hs.blank hnew

/-- The residue of a life accounts for the memory of a sandbox that accepts a registry. -/
theorem Stands.after (hs : s.Stands h residue) (steps : List Step) :
    (s.after steps).Stands h ((history s steps).foldl Entry.residue residue) := by
  induction steps generalizing s residue with
  | nil => exact hs
  | cons x rest ih =>
    rw [history, List.foldl_append]
    exact ih (hs.step x)

/-! ## Where a residue comes from -/

/-- What an operation leaves to be cleaned up in a sandbox that accepts a registry was there before, in a sandbox that
accepted one, or it is from resetters of a reset that was cut short. -/
theorem mem_residue_step {moment : Moment} (hstep : s.Readied x)
    (hmem : moment ∈ (s.historyOf x).foldl Entry.residue residue) :
    (s.stage.acceptsRegistry = true ∧ moment ∈ residue) ∨
      ∃ code, x.1 = .reset code ∧ s.CutShort x ∧ moment ∈ resetting code s x.2 := by
  cases hstep with
  | kept hready _ hhistory =>
    rw [hhistory] at hmem
    exact .inl ⟨hready, hmem⟩
  | loaded _ _ hhistory =>
    rw [hhistory] at hmem
    cases hmem
  | reset _ _ _ hhistory =>
    rw [hhistory, foldl_residue_reset] at hmem
    cases hmem
  | cutShort hop hcut hready _ hhistory =>
    rw [hhistory, foldl_residue_moments] at hmem
    cases List.mem_append.1 hmem with
    | inl hpast => exact .inl ⟨hready, hpast⟩
    | inr hnew => exact .inr ⟨_, hop, hcut, hnew⟩

theorem history_append (s : Sandbox) (past rest : List Step) :
    history s (past ++ rest) = history s past ++ history (s.after past) rest := by
  induction past generalizing s with
  | nil => rfl
  | cons x past ih =>
    rw [List.cons_append, history, ih, history, List.append_assoc]
    rfl

theorem after_append (s : Sandbox) (past rest : List Step) : s.after (past ++ rest) = (s.after past).after rest :=
  List.foldl_append

/-- A moment of a life at which resetters did something in a reset that was cut short. -/
def LeftBehind (s : Sandbox) (steps : List Step) (moment : Moment) : Prop :=
  ∃ past code j rest, steps = past ++ (.reset code, j) :: rest ∧ (s.after past).CutShort (.reset code, j) ∧
    moment ∈ resetting code (s.after past) j

theorem LeftBehind.append {moment : Moment} (hleft : s.LeftBehind steps moment) (more : List Step) :
    s.LeftBehind (steps ++ more) moment := by
  obtain ⟨past, code, j, rest, rfl, hcut, hmem⟩ := hleft
  exact ⟨past, code, j, rest ++ more, by rw [List.append_assoc, List.cons_append], hcut, hmem⟩

/-- The induction is on the life from its end, since only the last operation tells whether the sandbox accepts a
registry. -/
theorem leftBehind_of_mem_residue {moment : Moment} (hready : (s.after steps).stage.acceptsRegistry = true)
    (hmem : moment ∈ residueOf (history s steps)) : s.LeftBehind steps moment := by
  induction steps using List.reverseRecOn with
  | nil => cases hmem
  | append_singleton past x ih =>
    have hlast : history (s.after past) [x] = (s.after past).historyOf x := List.append_nil _
    rw [residueOf, history_append, List.foldl_append, hlast] at hmem
    rw [after_append] at hready
    obtain ⟨hbefore, hpast⟩ | ⟨code, hx, hcut, hnew⟩ := mem_residue_step (readied_step hready) hmem
    · exact (ih hbefore hpast).append [x]
    · obtain ⟨op, j⟩ := x
      obtain rfl : op = .reset code := hx
      exact ⟨past, code, j, [], rfl, hcut, hnew⟩

/-! ## The main result -/

/-- Take a new sandbox, with leak detection on or off and any leak checks, and any life of it, in which tasks, bodies
and resetters may fail or panic. If it accepts a registry afterwards, its memory is what the operations since it was
last loaded or reset made of what the hierarchy declares. All of these operations were performed by resetters, in
resets that were asked for and that a panic cut short. So the memory is as declared, up to the generation, if no reset
was cut short. One that is cut short leaves the sandbox as ready for use as it was. -/
theorem ready_memory (id : Nat) (key : SandboxKey) (h : Hierarchy) (detectLeaks : Bool) (checks : List LeakCheck)
    (steps : List Step) :
    let start : Sandbox := { new id key h with detectLeaks := detectLeaks, checks := checks }
    let s := start.after steps
    (s.stage.acceptsRegistry = true →
      Traced (declared h s.memory.generation) (residueOf (history start steps)) s.memory ∧
      (∀ moment ∈ residueOf (history start steps), start.LeftBehind steps moment) ∧
      ((∀ past x rest, steps = past ++ x :: rest → ¬(start.after past).CutShort x) →
        s.memory = declared h s.memory.generation)) ∧
    ∀ x, s.CutShort x → (s.step x).stage = s.stage ∧ (s.step x).poisoned = s.poisoned ∧
      s.stage.acceptsRegistry = true := by
  intro start s
  have hstart : start.Stands h [] := ⟨rfl, fun _ => rfl, fun hready => by cases hready⟩
  refine ⟨fun hready => ?_, fun x => step_of_cutShort⟩
  have htraced : s.memory.HasResidue h (residueOf (history start steps)) := (hstart.after steps).memory hready
  have hleft : ∀ moment ∈ residueOf (history start steps), start.LeftBehind steps moment :=
    fun moment => leftBehind_of_mem_residue hready
  refine ⟨htraced, hleft, fun huncut => ?_⟩
  have hnone : residueOf (history start steps) = [] := by
    refine List.eq_nil_iff_forall_not_mem.2 fun moment hmem => ?_
    obtain ⟨past, code, j, rest, hsteps, hcut, _⟩ := hleft moment hmem
    exact huncut past (.reset code, j) rest hsteps hcut
  rw [HasResidue, hnone] at htraced
  exact traced_nil_iff.1 htraced

end Sandbox

end Interpose

/-! ## A resetter that panics -/

namespace Interpose.Sample

/-- The resetter of the small world writes a static field and then panics. -/
def halfReset : Code :=
  { code with
    resetter := fun _ => .perform (.setStatic "View" "drawn" (.i32 5)) fun _ => .panic (some "half way") }

def resettable : Registry :=
  ⟨KeyMap.ofList [("View", .ofShadow (.alone { shadowView.own with hasResetter := true }))]⟩

def unused : Sandbox := .new 1 ⟨.none, 30⟩ hierarchy

/-- A life that ends with a reset that is cut short. -/
def cutLife : List Sandbox.Step := [(.configure, .empty), (.install resettable, .empty), (.reset halfReset, .empty)]

end Interpose.Sample

namespace Interpose.Sandbox

open Memory

/-- The sandbox is configured and not poisoned, and its memory is not as declared. -/
theorem ready_memory_not_declared :
    (Sample.unused.after Sample.cutLife).stage = .configured ∧
      (Sample.unused.after Sample.cutLife).poisoned = false ∧
      (Sample.unused.after Sample.cutLife).memory.static? "View" "drawn" = some (.i32 5) ∧
      ∀ generation, (Sample.unused.after Sample.cutLife).memory ≠ declared Sample.hierarchy generation := by
  refine ⟨by decide, by decide, by decide, fun generation h => ?_⟩
  have hstatic : (Sample.unused.after Sample.cutLife).memory.static? "View" "drawn" = some (.i32 5) := by decide
  have hdeclared : (declared Sample.hierarchy generation).static? "View" "drawn" = some (.i32 0) := rfl
  rw [h, hdeclared] at hstatic
  cases hstatic

/-- The one write that is left behind is the resetter's. The task that follows finds it, and leaves the memory as
declared. -/
theorem ready_memory_button :
    let draw : Step := (.execute Sample.code Sample.drawNew, .empty)
    let s := Sample.unused.after Sample.cutLife
    let next := Sample.unused.after (Sample.cutLife ++ [draw])
    (∃ moment, residueOf (history Sample.unused Sample.cutLife) = [moment] ∧
      Sample.unused.LeftBehind Sample.cutLife moment) ∧
    s.accepts draw.1 = true ∧ next.stage = .idle ∧ next.memory = declared Sample.hierarchy 1 := by
  intro draw s next
  have hlength : (residueOf (history Sample.unused Sample.cutLife)).length = 1 := by decide
  obtain ⟨hready, _⟩ := ready_memory 1 ⟨.none, 30⟩ Sample.hierarchy true [] Sample.cutLife
  obtain ⟨_, hleft, _⟩ := hready (by decide)
  obtain ⟨hnext, _⟩ := ready_memory 1 ⟨.none, 30⟩ Sample.hierarchy true [] (Sample.cutLife ++ [draw])
  obtain ⟨htraced, _, _⟩ := hnext (by decide)
  have hnone : residueOf (history Sample.unused (Sample.cutLife ++ [draw])) = [] :=
    List.eq_nil_of_length_eq_zero (by decide)
  have hgeneration : next.memory.generation = 1 := by decide
  refine ⟨?_, by decide, by decide, ?_⟩
  · obtain ⟨moment, hmoment⟩ := List.length_eq_one_iff.1 hlength
    exact ⟨moment, hmoment, hleft moment (hmoment ▸ List.mem_singleton_self moment)⟩
  · have hmemory := traced_nil_iff.1 (hnone ▸ htraced)
    rw [← hgeneration]
    exact hmemory

end Interpose.Sandbox
