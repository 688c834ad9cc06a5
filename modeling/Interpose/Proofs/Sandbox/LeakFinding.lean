import Interpose.Proofs.Hierarchy.Fields
import Interpose.Proofs.Sandbox.Resetting
import Interpose.Proofs.Sandbox.Statics

/-!
# What the leak check of every sandbox finds

The check compares a memory with the template only after a write was tried. If no declared value is a float that is not
a number, that makes no difference: it finds exactly the static fields that differ, the static state of shadows and the
objects. Such a float differs from itself, but not even then does a reset leave anything to be found, since no write was
tried since. So what poisons a sandbox is always a resetter or a check that was added.
-/

namespace Interpose

namespace Value

/-- Whether a value is a float that is not a number, bare or boxed. -/
def hasNaN : Value → Bool
  | f32 bits => Decimal.isNaN Decimal.single bits.toNat
  | f64 bits => Decimal.isNaN Decimal.double bits.toNat
  | boxed inner => inner.hasNaN
  | _ => false

/-- These are the values that differ from themselves. -/
theorem sameAs_self (v : Value) : v.sameAs v = !v.hasNaN := by
  induction v with
  | f32 bits => simp [sameAs, hasNaN, Decimal.equal]
  | f64 bits => simp [sameAs, hasNaN, Decimal.equal]
  | boxed inner ih => rw [sameAs, hasNaN, ih]
  | _ => simp [sameAs, hasNaN]

end Value

namespace Memory

variable {m : Memory} {h : Hierarchy} {name : StaticName}

/-! ## Soundness and completeness -/

/-- What the check says of a static field. -/
def differs (name : StaticName) : String :=
  "static " ++ name.typeId ++ "." ++ name.field ++ " differs from its initial value"

theorem nodup_changedStatics (m : Memory) : m.changedStatics.Nodup := by
  unfold changedStatics
  split
  · exact List.Nodup.sublist (List.filter_sublist.map _) m.template.distinct
  · exact List.nodup_nil

/-- Where no write was tried the check takes the static fields to be as declared, and they are. -/
theorem Fits.mem_changedStatics_iff (hm : m.Fits h)
    (hnan : ∀ name initial, (declaredStatics h).get? name = some initial → initial.hasNaN = false) :
    name ∈ m.changedStatics ↔ ∃ initial now, (declaredStatics h).get? name = some initial ∧
      m.statics.get? name = some now ∧ now.sameAs initial = false := by
  rw [← hm.template] at hnan ⊢
  cases hw : m.writeTried with
  | false =>
    rw [changedStatics, hw, hm.unwritten hw, if_neg Bool.false_ne_true]
    refine iff_of_false List.not_mem_nil ?_
    rintro ⟨initial, now, hinitial, hnow, hdiffers⟩
    obtain rfl : initial = now := Option.some.inj (hinitial.symm.trans hnow)
    rw [Value.sameAs_self, hnan name initial hinitial] at hdiffers
    cases hdiffers
  | true =>
    rw [changedStatics, if_pos hw, List.mem_map]
    constructor
    · rintro ⟨⟨name, initial⟩, he, rfl⟩
      obtain ⟨hmem, hdiffers⟩ := List.mem_filter.1 he
      have hinitial := Table.get?_eq_some_iff.2 hmem
      obtain ⟨now, hnow⟩ : ∃ now, m.statics.get? name = some now := by
        rw [← Table.mem_keys_iff, hm.names]
        exact Table.mem_keys_iff.2 ⟨initial, hinitial⟩
      refine ⟨initial, now, hinitial, hnow, ?_⟩
      simpa [hnow] using hdiffers
    · rintro ⟨initial, now, hinitial, hnow, hdiffers⟩
      refine ⟨(name, initial), List.mem_filter.2 ⟨Table.get?_eq_some_iff.1 hinitial, ?_⟩, rfl⟩
      simp [hnow, hdiffers]

/-- The names of the static fields never differ from those in the template. -/
theorem Fits.violations_eq (hm : m.Fits h) : m.violations =
    m.changedStatics.map differs ++
      (if m.shadowStatics.size = 0 then [] else [toString m.shadowStatics.size ++ " shadow statics survived"]) ++
      (if m.liveObjects = 0 then [] else [toString m.liveObjects ++ " objects survived"]) := by
  have hsize : m.statics.size = m.template.size := by rw [← Table.length_keys, hm.names, Table.length_keys]
  have hnames : (m.writeTried && decide (m.statics.size ≠ m.template.size)) = false := by simp [hsize]
  rw [violations, hnames, if_neg Bool.false_ne_true, List.append_nil]
  rfl

/-- The check reports exactly what is not as a hierarchy declares it. -/
structure ReportsExactly (h : Hierarchy) (m : Memory) : Prop where
  nil_iff : m.violations = [] ↔
    (∀ typeId field initial, h.DeclaresStatic typeId field initial →
      ∃ now, m.static? typeId field = some now ∧ now.sameAs initial = true) ∧
    (∀ shadowId key, m.shadowStatic? shadowId key = none) ∧ m.heap.objects = Table.empty
  /-- There is one entry for each static field that differs, and at most one each for all that shadows keep and for all
  objects. -/
  entries : ∃ names : List StaticName, names.Nodup ∧
    (∀ typeId field, ⟨typeId, field⟩ ∈ names ↔ ∃ initial now, h.DeclaresStatic typeId field initial ∧
      m.static? typeId field = some now ∧ now.sameAs initial = false) ∧
    m.violations = names.map differs ++
      (if m.shadowStatics.size = 0 then [] else [toString m.shadowStatics.size ++ " shadow statics survived"]) ++
      (if m.liveObjects = 0 then [] else [toString m.liveObjects ++ " objects survived"])

/-- No declared static field starts as a float that is not a number. -/
def FreeOfNaN (h : Hierarchy) : Prop :=
  ∀ typeId field initial, h.DeclaresStatic typeId field initial → initial.hasNaN = false

theorem freeOfNaN_of_forall (hall : ∀ e ∈ h.decls.entries, ∀ field ∈ e.2.statics, field.2.hasNaN = false) :
    FreeOfNaN h := by
  rintro typeId field initial ⟨decl, before, after, hdecl, hstatics, _⟩
  have hmem : (typeId, decl) ∈ h.decls.entries := KeyMap.get?_eq_some_iff.1 hdecl
  exact hall _ hmem (field, initial) (hstatics ▸ List.mem_append_cons_self)

theorem Fits.reportsExactly (hm : m.Fits h) (hnan : FreeOfNaN h) : m.ReportsExactly h := by
  have hchanged (typeId field : String) : ⟨typeId, field⟩ ∈ m.changedStatics ↔ ∃ initial now,
      h.DeclaresStatic typeId field initial ∧ m.static? typeId field = some now ∧ now.sameAs initial = false := by
    simp only [← get?_declaredStatics_eq_some_iff]
    exact hm.mem_changedStatics_iff fun name initial hinitial =>
      hnan _ _ _ (get?_declaredStatics_eq_some_iff.1 hinitial)
  refine ⟨?_, m.changedStatics, m.nodup_changedStatics, hchanged, hm.violations_eq⟩
  have hnone : m.changedStatics = [] ↔ ∀ typeId field initial, h.DeclaresStatic typeId field initial →
      ∃ now, m.static? typeId field = some now ∧ now.sameAs initial = true := by
    rw [List.eq_nil_iff_forall_not_mem]
    constructor
    · intro hnone typeId field initial hdeclares
      have hinitial := get?_declaredStatics_eq_some_iff.2 hdeclares
      rw [← hm.template] at hinitial
      obtain ⟨now, hnow⟩ : ∃ now, m.statics.get? ⟨typeId, field⟩ = some now := by
        rw [← Table.mem_keys_iff, hm.names]
        exact Table.mem_keys_iff.2 ⟨initial, hinitial⟩
      refine ⟨now, hnow, Bool.not_eq_false _ ▸ fun hdiffers => ?_⟩
      exact hnone _ ((hchanged typeId field).2 ⟨initial, now, hdeclares, hnow, hdiffers⟩)
    · rintro hsame ⟨typeId, field⟩ hmem
      obtain ⟨initial, now, hdeclares, hnow, hdiffers⟩ := (hchanged typeId field).1 hmem
      obtain ⟨now', hnow', hsame'⟩ := hsame typeId field initial hdeclares
      obtain rfl : now = now' := Option.some.inj (hnow.symm.trans hnow')
      exact Bool.false_ne_true (hdiffers.symm.trans hsame')
  have hshadow : m.shadowStatics.size = 0 ↔ ∀ shadowId key, m.shadowStatic? shadowId key = none := by
    rw [Table.size_eq_zero_iff, Table.eq_empty_iff]
    exact ⟨fun hempty shadowId key => hempty ⟨shadowId, key⟩, fun hempty name => hempty name.shadowId name.key⟩
  have hlive : m.liveObjects = 0 ↔ m.heap.objects = Table.empty := Table.size_eq_zero_iff
  rw [hm.violations_eq, List.append_eq_nil_iff, List.append_eq_nil_iff, List.map_eq_nil_iff, hnone, ← hshadow, ← hlive]
  simp [and_assoc]

/-- Right after a reset there is nothing to report, whatever the memory was and whatever is declared. -/
theorem violations_reset (m : Memory) : m.reset.violations = [] := List.isEmpty_iff.1 m.isPristine_reset

end Memory

/-- A rate that is declared as not a number is reported once a write was tried, in vain even, until the next reset. -/
example :
    let rates : Hierarchy :=
      ⟨KeyMap.ofList [("Rate", { Sample.view with statics := [("now", .boxed (.f64 0x7ff8000000000000))] })], by decide⟩
    let tried := ((Memory.declared rates 0).setStatic rates "Rate" "then" .null).2
    (Memory.declared rates 0).violations = [] ∧
      tried.violations = ["static Rate.now differs from its initial value"] ∧ tried.reset.violations = [] := by
  decide

/-! ## What poisons a sandbox -/

namespace Sandbox

variable {s s' : Sandbox} {code : Code} {j j' : Journal} {x : Step} {steps : List Step}

/-- In a reset a resetter fails. -/
def FailsIn (s : Sandbox) (code : Code) (j : Journal) : Prop :=
  ∃ answers m e, Returned code s.dispatcher.registry.resetting (s.machine j) answers m ∧ .error e ∈ answers

/-- In the reset that an operation comes to a resetter fails. -/
def ResetterFails (s : Sandbox) : Step → Prop
  | (.reset code, j) => s.FailsIn code j
  | (.execute code task, j) =>
    (s.afterTask (s.taskRun code task j).2).FailsIn code (s.taskRun code task j).2.journal
  | _ => False

/-- A leak check that was added finds a leak in some memory that was just reset. -/
def AddedCheckFinds (checks : List LeakCheck) : Prop :=
  ∃ check ∈ checks, ∃ count memory details, check.inspect count (Memory.reset memory) = .leak details

theorem exists_check_of_mem_findings {memory : Memory} {checks : List LeakCheck} {f : Finding}
    (hf : f ∈ findings memory checks j) : ∃ check ∈ checks, ∃ count, check.inspect count memory = f := by
  induction checks generalizing j with
  | nil => cases hf
  | cons check rest ih =>
    obtain rfl | hf := List.mem_cons.1 hf
    · exact ⟨check, List.mem_cons_self, _, rfl⟩
    · obtain ⟨other, hother, hfinds⟩ := ih hf
      exact ⟨other, List.mem_cons_of_mem _ hother, hfinds⟩

/-- All that a reset collects comes from resetters and from the checks that were added. -/
theorem failures_of_resetMemory {failures : List String} (h : s.resetMemory code j = (.done failures, s', j')) :
    ∃ answers m, Returned code s.dispatcher.registry.resetting (s.machine j) answers m ∧
      failures = s.failures answers m := by
  obtain ⟨answers, m, hanswers, _⟩ := returned_of_resetMemory h
  refine ⟨answers, m, hanswers, ?_⟩
  by_cases hcalm : ∀ f ∈ s.found m, f.panics = false
  · have hdone := resetMemory_of_calm hanswers hcalm
    rw [h] at hdone
    exact Outcome.done.inj (congrArg Prod.fst hdone)
  · obtain ⟨before, payload, after, hfound, hbefore⟩ := exists_first_panic hcalm
    have hpanics := resetMemory_of_panic hanswers hfound hbefore
    rw [h] at hpanics
    cases congrArg Prod.fst hpanics

theorem blame_of_resetMemory {failures : List String} (h : s.resetMemory code j = (.done failures, s', j'))
    (hsome : failures ≠ []) : s.FailsIn code j ∨ AddedCheckFinds s.checks := by
  obtain ⟨answers, m, hanswers, rfl⟩ := failures_of_resetMemory h
  rw [Ne, failures_eq_nil_iff hanswers, not_and_or] at hsome
  obtain hresetter | hcheck := hsome
  · push Not at hresetter
    obtain ⟨answer, hmem, hne⟩ := hresetter
    cases answer with
    | ok => exact absurd rfl hne
    | error e => exact .inl ⟨answers, m, e, hanswers, hmem⟩
  · push Not at hcheck
    obtain ⟨f, hmem, hne⟩ := hcheck
    cases f with
    | clean | panic => exact absurd rfl hne
    | leak details =>
      obtain ⟨check, hadded, count, hfinds⟩ := exists_check_of_mem_findings hmem
      refine .inr ⟨check, ?_, count, m.memory, details, hfinds⟩
      unfold enabled at hadded
      split at hadded
      · exact hadded
      · cases hadded

theorem resetMemory_poisoned (code : Code) (s : Sandbox) (j : Journal) :
    (s.resetMemory code j).2.1.poisoned = s.poisoned := by
  obtain ⟨_, m, memory, _, hafter, _⟩ := resetMemory_spec code s j
  rw [hafter]

/-- An operation poisons a sandbox only if its reset collected something. -/
theorem blame_of_poisoned (hs : s.poisoned = false) (hp : (s.step x).poisoned = true) :
    s.ResetterFails x ∨ AddedCheckFinds s.checks := by
  have hsound : ∀ {s' : Sandbox}, s'.poisoned = s.poisoned → s'.poisoned = true →
      s.ResetterFails x ∨ AddedCheckFinds s.checks :=
    fun hsame hpoisoned => absurd (hs.symm.trans (hsame.symm.trans hpoisoned)) Bool.false_ne_true
  obtain ⟨op, j⟩ := x
  cases ha : s.accepts op with
  | false =>
    have hsame : s.step (op, j) = s := step_of_not_accepts ha
    exact hsound (congrArg _ hsame) hp
  | true =>
    cases op with
    | configure =>
      rw [step, apply_configure ha] at hp
      exact hsound rfl hp
    | install registry =>
      rw [step, apply_install ha] at hp
      exact hsound rfl hp
    | execute code task =>
      refine execute_end (P := fun s' => s'.poisoned = true → s.ResetterFails (.execute code task, j) ∨ _) ha
        (fun _ => hsound rfl) (fun s' _ hr _ => ?_) (fun _ _ _ hr hsome _ => blame_of_resetMemory hr hsome)
        (fun _ => hsound (resetMemory_poisoned _ _ _)) hp
      obtain ⟨_, m, _, rfl⟩ := returned_of_resetMemory hr
      exact hsound rfl
    | reset code =>
      refine reset_end (P := fun s' => s'.poisoned = true → s.ResetterFails (.reset code, j) ∨ _) ha
        (fun s' _ hr => ?_) (fun _ _ _ hr hsome _ => blame_of_resetMemory hr hsome)
        (fun _ => hsound (resetMemory_poisoned _ _ _)) hp
      obtain ⟨_, m, _, rfl⟩ := returned_of_resetMemory hr
      exact hsound rfl
    | destroy => exact hsound (destroy_poisoned s) hp

/-- In a life that poisons a sandbox some operation is to blame, or a check that was added. -/
theorem blame_of_poisoned_after (hs : s.poisoned = false) (hp : (s.after steps).poisoned = true) :
    (∃ past x rest, steps = past ++ x :: rest ∧ (s.after past).ResetterFails x) ∨ AddedCheckFinds s.checks := by
  induction steps generalizing s with
  | nil => exact absurd (hs.symm.trans hp) Bool.false_ne_true
  | cons x rest ih =>
    cases hstep : (s.step x).poisoned with
    | true =>
      obtain hfails | hfinds := blame_of_poisoned hs hstep
      · exact .inl ⟨[], x, rest, rfl, hfails⟩
      · exact .inr hfinds
    | false =>
      obtain ⟨past, y, rest', rfl, hfails⟩ | hfinds := ih hstep hp
      · exact .inl ⟨x :: past, y, rest', rfl, hfails⟩
      · exact .inr ((sameOwner_step s x).checks ▸ hfinds)

/-! ## The main result -/

/-- Take a new sandbox, with leak detection on or off and any leak checks, and any life of it, in which tasks, bodies
and resetters do what they like and may fail or panic. If no declared static field starts as a float that is not a
number, then at every moment of the life and between its operations the check of the sandbox reports exactly what is not
as declared: nothing if all static fields are the same as declared and there is neither static state of shadows nor any
object, and else one entry for each static field that differs. Whatever is declared, there is nothing to report right
after a reset. So if the sandbox was poisoned a resetter failed, or a leak was found by a check that was added. -/
theorem leaks_reported_exactly (id : Nat) (key : SandboxKey) (h : Hierarchy) (detectLeaks : Bool)
    (checks : List LeakCheck) (steps : List Step) :
    let start : Sandbox := { new id key h with detectLeaks := detectLeaks, checks := checks }
    let s := start.after steps
    (Memory.FreeOfNaN h →
      (∀ past x rest, history start steps = past ++ .moment x :: rest → x.machine.memory.ReportsExactly h) ∧
      (s.stage ≠ .uninitialized → s.stage ≠ .destroyed → s.memory.ReportsExactly h)) ∧
    (∀ m : Memory, pristineReport? m.reset = none) ∧
    (s.poisoned = true →
      (∃ past x rest, steps = past ++ x :: rest ∧ (start.after past).ResetterFails x) ∨ AddedCheckFinds checks) := by
  intro start s
  refine ⟨fun hnan => ⟨fun past x rest hx => ?_, fun hold hlives => ?_⟩, fun m => ?_, blame_of_poisoned_after rfl⟩
  · exact (configured_at_moment hx).2.fits.reportsExactly hnan
  · exact (configured_after hold hlives).2.fits.reportsExactly hnan
  · rw [pristineReport?, m.violations_reset]
    rfl

/-- While the number of the counter is written it is reported, and after the task nothing is. If a resetter fails the
sandbox is poisoned, and that is the reason. -/
theorem leaks_reported_exactly_counter :
    let start : Sandbox := { new 1 ⟨.none, 30⟩ Sample.counters with detectLeaks := true, checks := [] }
    let life : List Step := [(.configure, .empty), (.execute Sample.code Sample.count, .empty)]
    let stuck : List Step :=
      [(.configure, .empty), (.install Sample.stubborn, .empty), (.reset Sample.stuck, .empty)]
    Memory.FreeOfNaN Sample.counters ∧
    (∃ x, .moment x ∈ history start life ∧
      "static Counter.number differs from its initial value" ∈ x.machine.memory.violations) ∧
    (start.after life).memory.violations = [] ∧ (start.after life).memory.heap.objects = Table.empty ∧
    (start.after stuck).poisoned = true ∧
      ∃ past x rest, stuck = past ++ x :: rest ∧ (start.after past).ResetterFails x := by
  intro start life stuck
  have hnan : Memory.FreeOfNaN Sample.counters := Memory.freeOfNaN_of_forall (by decide)
  obtain ⟨hreports, _, _⟩ := leaks_reported_exactly 1 ⟨.none, 30⟩ Sample.counters true [] life
  obtain ⟨hmoments, hbetween⟩ := hreports hnan
  obtain ⟨_, _, hblame⟩ := leaks_reported_exactly 1 ⟨.none, 30⟩ Sample.counters true [] stuck
  have hclean : (start.after life).memory.violations = [] := by decide
  have hpoisoned : (start.after stuck).poisoned = true := by decide
  refine ⟨hnan, ?_, hclean, ((hbetween (by decide) (by decide)).nil_iff.1 hclean).2.2, hpoisoned, ?_⟩
  · -- The fifth entry is the read.
    have hread : ((history start life)[4]?.bind Entry.moment?).map
        (fun x => x.machine.memory.static? "Counter" "number") = some (some (.i32 7)) := by decide
    obtain ⟨x, hx, hnow⟩ := Option.map_eq_some_iff.1 hread
    obtain ⟨past, rest, hsplit, _⟩ := Entry.exists_split hx
    obtain ⟨names, _, hnames, hviolations⟩ := (hmoments past x rest hsplit).entries
    have hmem := (hnames _ _).2 ⟨_, _, Sample.counters_declares_number, hnow, by decide⟩
    refine ⟨x, hsplit ▸ List.mem_append_cons_self, ?_⟩
    rw [hviolations, List.append_assoc]
    exact List.mem_append_left _ (List.mem_map_of_mem hmem)
  · refine (hblame hpoisoned).resolve_right ?_
    rintro ⟨check, hcheck, _⟩
    cases hcheck

end Sandbox

end Interpose
