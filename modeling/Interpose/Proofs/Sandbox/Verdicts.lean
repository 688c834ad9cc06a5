import Interpose.Proofs.Sandbox.Lifecycle

/-!
# What a reset finds and what becomes of the sandbox

A reset runs resetters one after another and asks leak checks after it restored the memory. What either of them has to
report is collected in this order, and whether anything was reported decides on the sandbox, while the error of a task
goes before it in the answer. Resetters that return are a relation here, which says in which state of the machine each
of them starts. Leak checks are asked of the restored memory, and one that panics ends the reset where it is.
-/

namespace Interpose

/-- The shadows whose resetters a reset runs, in its order. -/
def Registry.resetting (r : Registry) : List ShadowLayer := r.shadows.filter (·.hasResetter)

def Finding.panics : Finding → Bool
  | panic _ => true
  | clean | leak _ => false

def Finding.details? : Finding → Option String
  | leak details => some details
  | clean | panic _ => none

namespace Sandbox

/-! ## Resetters -/

/-- Resetters run one after another, each of which returns, with their answers. -/
inductive Returned (code : Code) : List ShadowLayer → Machine → List (Except Error Unit) → Machine → Prop
  | nil (m : Machine) : Returned code [] m [] m
  | cons {layer : ShadowLayer} {rest : List ShadowLayer} {m m' m'' : Machine} {answer : Except Error Unit}
      {answers : List (Except Error Unit)} (hrun : code.run (code.resetter layer.serial) m = (.done answer, m'))
      (hrest : Returned code rest m' answers m'') : Returned code (layer :: rest) m (answer :: answers) m''

/-- What resetters have to report. -/
def complaints (layers : List ShadowLayer) (answers : List (Except Error Unit)) : List String :=
  (List.zipWith resetterFailure layers answers).flatten

section Resetters

variable {code : Code} {layers : List ShadowLayer} {m m' : Machine} {answers : List (Except Error Unit)}

theorem runResetters_of_returned (h : Returned code (layers.filter (·.hasResetter)) m answers m') :
    runResetters code layers m = (.done (complaints (layers.filter (·.hasResetter)) answers), m') := by
  induction layers generalizing m answers with
  | nil =>
    cases h
    rfl
  | cons layer rest ih =>
    rw [runResetters]
    cases hlayer : layer.hasResetter with
    | false =>
      rw [List.filter_cons_of_neg (by simp [hlayer])] at h ⊢
      rw [if_neg Bool.false_ne_true, ih h]
    | true =>
      rw [List.filter_cons_of_pos hlayer] at h ⊢
      cases h with
      | cons hrun hrest =>
        rw [if_pos rfl, hrun, Outcome.andThen_done, ih hrest]
        rfl

/-- If running resetters comes to its end, all of them returned. -/
theorem returned_of_done {failures : List String} (h : runResetters code layers m = (.done failures, m')) :
    ∃ answers, Returned code (layers.filter (·.hasResetter)) m answers m' := by
  induction layers generalizing m failures with
  | nil =>
    cases h
    exact ⟨[], .nil _⟩
  | cons layer rest ih =>
    rw [runResetters] at h
    cases hlayer : layer.hasResetter with
    | false =>
      rw [hlayer, if_neg Bool.false_ne_true] at h
      rw [List.filter_cons_of_neg (by simp [hlayer])]
      exact ih h
    | true =>
      rw [hlayer, if_pos rfl] at h
      rw [List.filter_cons_of_pos hlayer]
      rcases hrun : code.run (code.resetter layer.serial) m with ⟨outcome, m₁⟩
      rw [hrun] at h
      cases outcome with
      | panicked payload => cases h
      | unfinished => cases h
      | done answer =>
        rcases hrest : runResetters code rest m₁ with ⟨outcome', m₂⟩
        rw [Outcome.andThen_done, hrest] at h
        cases outcome' with
        | panicked payload => cases h
        | unfinished => cases h
        | done others =>
          cases h
          obtain ⟨answers, hanswers⟩ := ih hrest
          exact ⟨answer :: answers, .cons hrun hanswers⟩

/-- Each of them is run, if all of them return whatever they find. -/
theorem exists_returned (hreturn : ResettersReturn code) (layers : List ShadowLayer) (m : Machine) :
    ∃ answers m', Returned code layers m answers m' ∧ answers.length = layers.length := by
  induction layers generalizing m with
  | nil => exact ⟨[], m, .nil m, rfl⟩
  | cons layer rest ih =>
    obtain ⟨answer, hanswer⟩ := hreturn layer.serial m
    rcases hrun : code.run (code.resetter layer.serial) m with ⟨outcome, m'⟩
    rw [hrun] at hanswer
    obtain rfl : outcome = .done answer := hanswer
    obtain ⟨answers, m'', hrest, hlength⟩ := ih m'
    exact ⟨answer :: answers, m'', .cons hrun hrest, congrArg Nat.succ hlength⟩

/-- Nothing is reported exactly if every resetter succeeded. -/
theorem Returned.complaints_eq_nil_iff (h : Returned code layers m answers m') :
    complaints layers answers = [] ↔ ∀ answer ∈ answers, answer = .ok () := by
  induction h with
  | nil => simp [complaints]
  | @cons layer rest m m' m'' answer answers hrun hrest ih =>
    have hcons : complaints (layer :: rest) (answer :: answers) =
        resetterFailure layer answer ++ complaints rest answers := rfl
    rw [hcons, List.append_eq_nil_iff, ih, List.forall_mem_cons]
    cases answer <;> simp [resetterFailure]

end Resetters

/-! ## Leak checks -/

/-- What leak checks say one after another; how often each was asked before is counted on the way. -/
def findings (memory : Memory) : List LeakCheck → Journal → List Finding
  | [], _ => []
  | check :: rest, j => check.inspect (j.ask check.serial).1 memory :: findings memory rest (j.ask check.serial).2

/-- The journal after leak checks were asked. -/
def asked (checks : List LeakCheck) (j : Journal) : Journal :=
  checks.foldl (fun j check => (j.ask check.serial).2) j

/-- What leak checks have to report. -/
def reports (checks : List LeakCheck) (found : List Finding) : List String :=
  (checks.zip found).filterMap fun e => e.2.details?.map fun details => e.1.name ++ ": " ++ details

section Checks

variable {memory : Memory} {checks : List LeakCheck} {j : Journal}

theorem askChecks_cons (memory : Memory) (check : LeakCheck) (rest : List LeakCheck) (j : Journal) :
    askChecks memory (check :: rest) j =
      Outcome.andThen (reportOf check (check.inspect (j.ask check.serial).1 memory), (j.ask check.serial).2)
        fun report j => Outcome.andThen (askChecks memory rest j) fun reports j => (.done (report ++ reports), j) :=
  rfl

theorem reports_cons (check : LeakCheck) (rest : List LeakCheck) (f : Finding) (found : List Finding) :
    reports (check :: rest) (f :: found) =
      (f.details?.map fun details => check.name ++ ": " ++ details).toList ++ reports rest found := by
  rw [reports, List.zip_cons_cons, List.filterMap_cons]
  cases f.details? <;> rfl

/-- Nothing is reported exactly if no check found a leak. -/
theorem reports_eq_nil_iff : reports checks (findings memory checks j) = [] ↔
    ∀ f ∈ findings memory checks j, f.details? = none := by
  induction checks generalizing j with
  | nil => simp [reports, findings]
  | cons check rest ih =>
    rw [findings, reports_cons, List.append_eq_nil_iff, List.forall_mem_cons, ih]
    simp

theorem reportOf_of_calm {check : LeakCheck} {f : Finding} (h : f.panics = false) :
    reportOf check f = .done (f.details?.map fun details => check.name ++ ": " ++ details).toList := by
  cases f with
  | clean | leak => rfl
  | panic => cases h

theorem askChecks_of_calm (h : ∀ f ∈ findings memory checks j, f.panics = false) :
    askChecks memory checks j = (.done (reports checks (findings memory checks j)), asked checks j) := by
  induction checks generalizing j with
  | nil => rfl
  | cons check rest ih =>
    rw [findings, List.forall_mem_cons] at h
    rw [askChecks_cons, reportOf_of_calm h.1, Outcome.andThen_done, ih h.2, findings, reports_cons]
    rfl

/-- The first leak check that panics is the last one that is asked. -/
theorem askChecks_of_panic {before after : List Finding} {payload : Option String}
    (h : findings memory checks j = before ++ .panic payload :: after) (hbefore : ∀ f ∈ before, f.panics = false) :
    askChecks memory checks j = (.panicked payload, asked (checks.take (before.length + 1)) j) := by
  induction checks generalizing j before with
  | nil => exact absurd h (by simp [findings])
  | cons check rest ih =>
    rw [findings] at h
    rw [askChecks_cons]
    cases before with
    | nil =>
      obtain ⟨hf, _⟩ := List.cons.inj h
      rw [hf]
      rfl
    | cons first before =>
      obtain ⟨hf, hrest⟩ := List.cons.inj h
      rw [List.forall_mem_cons] at hbefore
      rw [hf, reportOf_of_calm hbefore.1, Outcome.andThen_done, ih hrest hbefore.2]
      rfl

/-- If a check panics, there is a first one. -/
theorem exists_first_panic {found : List Finding} (h : ¬∀ f ∈ found, f.panics = false) :
    ∃ before payload after, found = before ++ .panic payload :: after ∧ ∀ f ∈ before, f.panics = false := by
  induction found with
  | nil => exact absurd (fun f hf => absurd hf List.not_mem_nil) h
  | cons f rest ih =>
    cases f with
    | panic payload => exact ⟨[], payload, rest, rfl, fun f hf => absurd hf List.not_mem_nil⟩
    | clean | leak =>
      rw [List.forall_mem_cons] at h
      obtain ⟨before, payload, after, rfl, hbefore⟩ := ih fun hrest => h ⟨rfl, hrest⟩
      exact ⟨_ :: before, payload, after, rfl, List.forall_mem_cons.2 ⟨rfl, hbefore⟩⟩

end Checks

/-! ## Resets -/

/-- The leak checks besides the one that every sandbox has, if leaks are looked for. -/
def enabled (s : Sandbox) : List LeakCheck := if s.detectLeaks then s.checks else []

/-- What the leak checks find in a reset whose resetters end in a given state. -/
def found (s : Sandbox) (m : Machine) : List Finding := findings m.memory.reset s.enabled m.journal

/-- All that a reset collects, in its order. -/
def failures (s : Sandbox) (answers : List (Except Error Unit)) (m : Machine) : List String :=
  complaints s.dispatcher.registry.resetting answers ++ reports s.enabled (s.found m)

/-- The sandbox when the resetters ended in a given state and the memory is restored. -/
def restored (s : Sandbox) (m : Machine) : Sandbox := { s with dispatcher := m.dispatcher, memory := m.memory.reset }

section Resets

variable {s : Sandbox} {code : Code} {j : Journal} {m : Machine} {answers : List (Except Error Unit)}

theorem ownReport_reset (memory : Memory) : ownReport memory.reset = [] := by
  have hpristine := memory.isPristine_reset
  unfold Memory.isPristine at hpristine
  rw [ownReport, pristineReport?, if_pos hpristine]
  rfl

theorem findLeaks_restored_of_calm (h : ∀ f ∈ s.found m, f.panics = false) :
    (s.restored m).findLeaks m.journal = (.done (reports s.enabled (s.found m)), asked s.enabled m.journal) := by
  unfold findLeaks restored
  unfold found at h ⊢
  unfold enabled at h ⊢
  cases hd : s.detectLeaks with
  | false => rfl
  | true =>
    rw [hd, if_pos rfl] at h
    simp only [if_true, askChecks_of_calm h, Outcome.andThen_done, ownReport_reset, List.nil_append]

theorem findLeaks_restored_of_panic {before after : List Finding} {payload : Option String}
    (h : s.found m = before ++ .panic payload :: after) (hbefore : ∀ f ∈ before, f.panics = false) :
    (s.restored m).findLeaks m.journal = (.panicked payload, asked (s.enabled.take (before.length + 1)) m.journal) := by
  unfold findLeaks restored
  unfold found at h
  unfold enabled at h ⊢
  cases hd : s.detectLeaks with
  | false =>
    rw [hd] at h
    exact absurd h (by simp [findings])
  | true =>
    rw [hd, if_pos rfl] at h
    simp only [if_true, askChecks_of_panic h hbefore, Outcome.andThen_panicked]

theorem resetMemory_of_calm (hresetters : Returned code s.dispatcher.registry.resetting (s.machine j) answers m)
    (h : ∀ f ∈ s.found m, f.panics = false) :
    s.resetMemory code j = (.done (s.failures answers m), s.restored m,
      (asked s.enabled m.journal).addEvent .sandboxReset (toString s.id)) := by
  have hleaks := findLeaks_restored_of_calm h
  unfold restored at hleaks
  simp only [resetMemory, runResetters_of_returned hresetters, Outcome.andThen_done, afterRun, hleaks]
  rfl

theorem resetMemory_of_panic (hresetters : Returned code s.dispatcher.registry.resetting (s.machine j) answers m)
    {before after : List Finding} {payload : Option String} (h : s.found m = before ++ .panic payload :: after)
    (hbefore : ∀ f ∈ before, f.panics = false) :
    s.resetMemory code j =
      (.panicked payload, s.restored m, asked (s.enabled.take (before.length + 1)) m.journal) := by
  have hleaks := findLeaks_restored_of_panic h hbefore
  unfold restored at hleaks
  simp only [resetMemory, runResetters_of_returned hresetters, Outcome.andThen_done, afterRun, hleaks,
    Outcome.andThen_panicked]
  rfl

/-- A reset collects nothing exactly if every resetter succeeded and no check found a leak. -/
theorem failures_eq_nil_iff (hresetters : Returned code s.dispatcher.registry.resetting (s.machine j) answers m) :
    s.failures answers m = [] ↔ (∀ answer ∈ answers, answer = .ok ()) ∧ ∀ f ∈ s.found m, f.details? = none := by
  rw [failures, List.append_eq_nil_iff, hresetters.complaints_eq_nil_iff, found, reports_eq_nil_iff]

/-- How an operation ends that resets a sandbox, where the resetters return and end in a given state: with an answer
for a reset that collected nothing and an answer for one that did, and in the first case in a given stage. -/
structure Concludes {α : Type} (s : Sandbox) (answers : List (Except Error Unit)) (m : Machine) (stage : Stage)
    (well : α) (ill : Error → α) (r : Outcome α × Sandbox × Journal) : Prop where
  collected : s.failures answers m = [] ↔
    (∀ answer ∈ answers, answer = .ok ()) ∧ ∀ f ∈ s.found m, f.details? = none
  answered : (∀ f ∈ s.found m, f.panics = false) → r.1 = .done
    (if s.failures answers m = [] then well else ill (.leak s.id ("; ".intercalate (s.failures answers m))))
  poisoned : (∀ f ∈ s.found m, f.panics = false) →
    (r.2.1.poisoned = true ∧ r.2.1.stage = .destroyed ↔ s.failures answers m ≠ [])
  goesOn : (∀ f ∈ s.found m, f.panics = false) → s.failures answers m = [] →
    r.2.1 = { s.restored m with stage := stage }
  journal : (∀ f ∈ s.found m, f.panics = false) →
    r.2.2 = (asked s.enabled m.journal).addEvent .sandboxReset (toString s.id)
  /-- A check that panics ends the operation where it is. -/
  panics : ∀ before payload after, s.found m = before ++ .panic payload :: after → (∀ f ∈ before, f.panics = false) →
    r = (.panicked payload, s.restored m, asked (s.enabled.take (before.length + 1)) m.journal)
  ends : (∃ answer, r.1 = .done answer) ↔ ∀ f ∈ s.found m, f.panics = false

theorem concludes_of_reset {α : Type} (hpoisoned : s.poisoned = false)
    (hresetters : Returned code s.dispatcher.registry.resetting (s.machine j) answers m) {stage : Stage} {well : α}
    {ill : Error → α} {g : Sandbox → Sandbox} (hg : g (s.restored m) = { s.restored m with stage := stage })
    {r : Outcome α × Sandbox × Journal}
    (hr : r = Outcome.andThen (s.resetMemory code j) fun failures after =>
      if failures.isEmpty then (.done well, g after.1, after.2)
      else (.done (ill (after.1.leakOf failures)), after.1.poison, after.2)) :
    Concludes s answers m stage well ill r := by
  have hcalm (h : ∀ f ∈ s.found m, f.panics = false) :
      r = if s.failures answers m = [] then
          (.done well, { s.restored m with stage := stage },
            (asked s.enabled m.journal).addEvent .sandboxReset (toString s.id))
        else
          (.done (ill (.leak s.id ("; ".intercalate (s.failures answers m)))), (s.restored m).poison,
            (asked s.enabled m.journal).addEvent .sandboxReset (toString s.id)) := by
    rw [hr, resetMemory_of_calm hresetters h, Outcome.andThen_done, hg]
    cases s.failures answers m with
    | nil => rfl
    | cons failure others => rfl
  have hpanics : ∀ before payload after, s.found m = before ++ .panic payload :: after →
      (∀ f ∈ before, f.panics = false) →
      r = (.panicked payload, s.restored m, asked (s.enabled.take (before.length + 1)) m.journal) := by
    intro before payload after hfound hbefore
    rw [hr, resetMemory_of_panic hresetters hfound hbefore, Outcome.andThen_panicked]
  refine ⟨failures_eq_nil_iff hresetters, fun h => ?_, fun h => ?_, fun h hnone => ?_, fun h => ?_, hpanics, ?_⟩
  · rw [hcalm h]
    split <;> rfl
  · rw [hcalm h]
    split
    · rename_i hnone
      exact iff_of_false (fun hp => Bool.false_ne_true (hpoisoned.symm.trans hp.1)) (fun hsome => hsome hnone)
    · rename_i hsome
      exact iff_of_true ⟨poison_poisoned _, destroy_stage _⟩ hsome
  · rw [hcalm h, if_pos hnone]
  · rw [hcalm h]
    split <;> rfl
  · by_cases h : ∀ f ∈ s.found m, f.panics = false
    · refine iff_of_true ?_ h
      rw [hcalm h]
      split <;> exact ⟨_, rfl⟩
    · obtain ⟨before, payload, after, hfound, hbefore⟩ := exists_first_panic h
      refine iff_of_false ?_ h
      rw [hpanics before payload after hfound hbefore]
      rintro ⟨answer, hanswer⟩
      cases hanswer

end Resets

/-- Take a sandbox that is not poisoned, with a registry in force whose resetters return, and leak checks of any number
and kind. An execution of a task, or a reset, runs all resetters in the order of the registry, restores the memory and
asks the leak checks if leaks are looked for. What they report is collected in this order. If no check panics, the
operation is answered by the error of the task, else by the leak with all that was collected, else by the value of the
task, and the sandbox is poisoned and destroyed exactly if anything was collected. If it was not, the sandbox is idle
after an execution and in the stage that it was in after a reset. The operation comes to its end exactly if no check
panics; the first one that does is the last one that is asked, and leaves the sandbox unpoisoned, after an execution as
if the task were running. -/
theorem concludes_as_found (s : Sandbox) (hpoisoned : s.poisoned = false) (code : Code) (j : Journal) :
    (∀ task result answers m, s.stage = .configured → taskResult (s.taskRun code task j).1 = .done result →
      Returned code (s.taskRun code task j).2.dispatcher.registry.resetting (s.taskRun code task j).2 answers m →
      Concludes (s.afterTask (s.taskRun code task j).2) answers m .idle result
        (fun leak => result.bind fun _ => .error leak) (s.execute code task j)) ∧
    (∀ answers m, s.stage.acceptsRegistry = true →
      Returned code s.dispatcher.registry.resetting (s.machine j) answers m →
      Concludes s answers m s.stage (.ok ()) .error (s.reset code j)) ∧
    (ResettersReturn code → ∀ layers m, ∃ answers m',
      Returned code layers m answers m' ∧ answers.length = layers.length) := by
  refine ⟨fun task result answers m hstage hresult hresetters => ?_, fun answers m hstage hresetters => ?_,
    exists_returned⟩
  · have hready : s.rejection? "execute" Stage.acceptsTask = none :=
      rejection?_eq_none_iff.2 ⟨hpoisoned, by rw [hstage]; exact Stage.noConfusion, by rw [hstage]; rfl⟩
    have hid : (s.taskRun code task j).2.sandboxId = s.id := (code.reaches_run task _).sandboxId
    have hmachine := machine_afterTask hid
    rw [← hmachine] at hresetters
    refine concludes_of_reset (s := s.afterTask (s.taskRun code task j).2) hpoisoned
      (g := fun s => { s with stage := .idle }) hresetters rfl ?_
    rw [execute_eq hready, hresult, Outcome.andThen_done]
    rfl
  · have hready : s.rejection? "reset" Stage.acceptsRegistry = none := rejection?_eq_none hpoisoned hstage "reset"
    refine concludes_of_reset (g := fun s => s) hpoisoned hresetters rfl ?_
    simp only [reset, hready]

end Sandbox

namespace Sample

/-- Shadows views, with a resetter that fails. -/
def stubborn : Registry :=
  ⟨KeyMap.ofList [("View", .ofShadow (.alone { shadowView.own with hasResetter := true }))]⟩

def stuck : Code := { code with resetter := fun _ => .done (.error (.invocation "View" "reset" "stuck")) }

/-- A sandbox that a task may start in, with one leak check. -/
def inspected (finding : Finding) : Sandbox :=
  let check : LeakCheck := ⟨"watch", 0, fun _ _ => finding⟩
  { Sandbox.new 1 ⟨.none, 30⟩ hierarchy with checks := [check] }.after
    [(.configure, .empty), (.install stubborn, .empty)]

end Sample

namespace Sandbox

/-- A resetter fails and then a leak is found. A reset is answered by both, and a task that panics is answered by its
panic, after which the sandbox is destroyed all the same. -/
theorem concludes_as_found_stubborn :
    let s := Sample.inspected (.leak "dirty")
    let run := s.execute Sample.stuck (.panic none) .empty
    s.poisoned = false ∧ s.stage = .configured ∧
      run.1 = .done (.error (.taskPanicked "task panicked")) ∧
      run.2.1.poisoned = true ∧ run.2.1.stage = .destroyed ∧
      (s.reset Sample.stuck .empty).1 = .done (.error (.leak 1
        "resetter of ShadowView failed: Invocation of View.reset failed: stuck; watch: dirty")) := by
  intro s run
  have hpoisoned : s.poisoned = false := rfl
  obtain ⟨hexecute, hreset, _⟩ := concludes_as_found s hpoisoned Sample.stuck .empty
  have hrun := hexecute (.panic none) _ _ _ rfl rfl (.cons rfl (.nil _))
  have hagain := hreset _ _ rfl (.cons rfl (.nil _))
  obtain ⟨hdirty, hdestroyed⟩ := (hrun.poisoned (by decide)).2 (by decide)
  exact ⟨hpoisoned, rfl, hrun.answered (by decide), hdirty, hdestroyed, hagain.answered (by decide)⟩

/-- A leak check that panics leaves an execution without a result, and the sandbox neither idle nor destroyed. -/
theorem execution_cut_short_by_check :
    let s := Sample.inspected (.panic "boom")
    let run := s.execute Sample.code (.done (.ok (.i32 1))) .empty
    s.poisoned = false ∧ s.stage = .configured ∧ s.detectLeaks = true ∧ ResettersReturn Sample.code ∧
      run.1 = .panicked "boom" ∧ run.2.1.stage = .active ∧ run.2.1.poisoned = false := by
  refine ⟨rfl, rfl, rfl, fun _ _ => ⟨_, rfl⟩, ?_, ?_, ?_⟩
  all_goals decide

end Sandbox

end Interpose
