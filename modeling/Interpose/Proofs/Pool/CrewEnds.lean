import Interpose.Proofs.Pool.CrewTraffic
import Interpose.Proofs.Pool.Rounds

/-!
# How a crew ends

Where nothing fails, every worker comes to its end whatever turns the schedule gives. In each of its steps a worker gets
closer to its end unless its key is in use. Then another worker is about to give it back, who does not wait itself: so
after one round of turns nobody is left who does anything but wait, and after another one everybody has finished.
-/

namespace Interpose

/-- The number of steps that a worker has still to take, if it has to wait for nobody. -/
def Progress.left : Progress → Nat
  | fresh | waiting => 6
  | building => 5
  | made _ => 4
  | ready _ => 3
  | holding _ => 2
  | returning _ => 1
  | finished | failed _ | panicked _ => 0

def Progress.isFine : Progress → Bool
  | failed _ | panicked _ => false
  | _ => true

/-- A worker has finished, or it waits. -/
def Progress.Rests : Progress → Prop
  | finished | waiting => True
  | _ => False

namespace Crew

/-- A key is in use: somebody builds for it or has its lease. -/
def InUse (p : Pool) (key : SandboxKey) : Prop :=
  p.slots.get? key = some .building ∨ p.slots.get? key = some .leased

variable {code : Code} {assemble : SandboxKey → Nat → Sandbox} {keys : List SandboxKey} {first : Nat}
  {Q : SandboxKey → Sandbox → Prop} {hierarchy : Hierarchy} {detectLeaks : Bool} {checks : List LeakCheck}
  {granted cleared max : Nat} {c c' : Crew} {w : Worker} {i : Nat}

/-- What is known of a crew at all times if nothing fails. -/
structure Orderly (assemble : SandboxKey → Nat → Sandbox) (keys : List SandboxKey) (first : Nat)
    (Q : SandboxKey → Sandbox → Prop) (granted cleared max : Nat) (c : Crew) : Prop where
  keeps : Keeps assemble keys first Q c
  fine : ∀ w ∈ c.workers, w.progress.isFine = true
  shown : ∃ t, Shows granted cleared c t ∧ t.Balanced max ∧ t.pool.Bounded

/-- Nothing fails if sandboxes can be configured and made ready to be put back. -/
theorem fine_turn (hfine : ∀ w ∈ c.workers, w.progress.isFine = true) (hk : Keeps assemble keys first Q c)
    (hQ : Smooth code assemble Q) (ht : Turn code assemble c c') : ∀ w ∈ c'.workers, w.progress.isFine = true := by
  cases ht with
  | rest => exact hfine
  | @move before after w b p j hw hmove =>
    have hworkers := hk.workers
    rw [hw] at hfine hworkers
    obtain ⟨⟨_, hown⟩, _⟩ := Traffic.forall_mem_middle.1 hworkers
    refine Traffic.forall_mem_middle.2 ⟨?_, (Traffic.forall_mem_middle.1 hfine).2⟩
    obtain ⟨key, a⟩ := w
    cases hmove with
    | ask ha => cases (c.pool.claim key).1 <;> rfl
    | @giveUp s s' j e h =>
      obtain ⟨id, _, hs⟩ := hown
      obtain ⟨_, hconfigure⟩ := hQ.builds key id c.journal
      simp only [hs] at h
      rw [hconfigure] at h
      cases h
    | @lose s s' j payload h =>
      rw [hQ.still hown] at h
      cases h
    | make | configure | enter | tidy | putBack => rfl

/-- A key in use is one that a worker is about to give back. -/
theorem Orderly.exists_active (ho : Orderly assemble keys first Q granted cleared max c) {key : SandboxKey}
    (hkey : InUse c.pool key) : ∃ w ∈ c.workers, ¬w.progress.Rests := by
  obtain ⟨t, hshows, hbalanced, _⟩ := ho.shown
  have hlost : t.lost = [] := by
    have hnone : c.workers.filterMap Worker.lost? = [] := by
      refine List.filterMap_eq_nil_iff.2 fun w hw => ?_
      have hfine := ho.fine w hw
      obtain ⟨key, a⟩ := w
      cases a <;> first | rfl | cases hfine
    have hperm := hshows.lost
    rw [hnone] at hperm
    exact hperm.eq_nil
  rw [InUse, ← hshows.pool] at hkey
  obtain hbuilding | hleased := hkey
  · have hcount := hbalanced.slot_eq_building_iff.1 hbuilding
    have hmem : key ∈ t.building := List.count_pos_iff.1 (by omega)
    obtain ⟨w, hw, hbuilds⟩ := List.mem_filterMap.1 (hshows.building.mem_iff.1 hmem)
    refine ⟨w, hw, fun hrests => ?_⟩
    obtain ⟨key, a⟩ := w
    cases a <;> first | exact hrests | cases hbuilds
  · have hcount := hbalanced.slot_eq_leased_iff.1 hleased
    rw [hlost, List.count_nil, Nat.add_zero] at hcount
    obtain ⟨loan, hmem, _⟩ := List.countP_pos_iff.1 (Nat.lt_of_lt_of_eq Nat.one_pos hcount.symm)
    obtain ⟨w, hw, hlends⟩ := List.mem_filterMap.1 (hshows.loans.mem_iff.1 hmem)
    refine ⟨w, hw, fun hrests => ?_⟩
    obtain ⟨key, a⟩ := w
    cases a <;> first | exact hrests | cases hlends

/-! ## Turns of one worker -/

/-- A worker who has not finished gets closer to its end, or its key is in use and it waits. -/
theorem exists_advance (hown : w.Keeps assemble first Q) (hfine : w.progress.isFine = true)
    (hQ : Smooth code assemble Q) (p : Pool) (j : Journal) :
    w.progress = .finished ∨ ∃ b q j', advance code assemble w.key p j w.progress = some (b, q, j') ∧
      (b.left < w.progress.left ∧ ¬(w.progress.Asks ∧ InUse p w.key) ∨ b = .waiting ∧ InUse q w.key) := by
  obtain ⟨key, a⟩ := w
  have hasks : ∀ a : Progress, a.left = 6 → ∃ b q j',
      some (Progress.ofClaim (p.claim key).1, (p.claim key).2, j) = some (b, q, j') ∧
        (b.left < a.left ∧ ¬(a.Asks ∧ InUse p key) ∨ b = .waiting ∧ InUse q key) := by
    intro a ha
    refine ⟨_, _, _, rfl, ?_⟩
    rw [ha]
    have hclaims := p.claims_claim key
    rcases hc : p.claim key with ⟨claim, q⟩
    rw [hc] at hclaims
    cases hclaims with
    | build h =>
      refine .inl ⟨Nat.lt_succ_self 5, fun ⟨_, huse⟩ => ?_⟩
      rw [InUse, h.was] at huse
      obtain ⟨⟨⟩⟩ | ⟨⟨⟩⟩ := huse
    | reuse h =>
      refine .inl ⟨by simp [Progress.ofClaim, Progress.left], fun ⟨_, huse⟩ => ?_⟩
      rw [InUse, h.was] at huse
      obtain ⟨⟨⟩⟩ | ⟨⟨⟩⟩ := huse
    | wait h => exact .inr ⟨rfl, h⟩
  cases a with
  | fresh | waiting => exact .inr (hasks _ rfl)
  | building => exact .inr ⟨_, _, _, rfl, .inl ⟨by simp [Progress.left], fun h => h.1⟩⟩
  | made s =>
    obtain ⟨id, _, hs⟩ := hown
    obtain ⟨s', hconfigure⟩ := hQ.builds key id j
    obtain rfl : s = assemble key id := hs
    refine .inr ⟨.ready s', p, j.addEvent .sandboxBuild (toString id), ?_, .inl ⟨by simp [Progress.left], fun h => h.1⟩⟩
    simp only [advance, hconfigure]
  | ready s => exact .inr ⟨_, _, _, rfl, .inl ⟨by simp [Progress.left], fun h => h.1⟩⟩
  | holding s =>
    refine .inr ⟨.returning s, p, j, ?_, .inl ⟨by simp [Progress.left], fun h => h.1⟩⟩
    simp only [advance, hQ.still hown]
  | returning s => exact .inr ⟨_, _, _, rfl, .inl ⟨by simp [Progress.left], fun h => h.1⟩⟩
  | finished => exact .inl rfl
  | failed | panicked => cases hfine

/-- So it does in its step, in which the other workers stay where they are. -/
theorem Orderly.step_own (ho : Orderly assemble keys first Q granted cleared max c) (hQ : Smooth code assemble Q)
    (hw : c.workers[i]? = some w) :
    ∃ b, (c.step code assemble i).workers = c.workers.set i ⟨w.key, b⟩ ∧
      ((b = .finished ∨ b.left < w.progress.left) ∧ ¬(w.progress.Asks ∧ InUse c.pool w.key) ∨
        b = .waiting ∧ InUse (c.step code assemble i).pool w.key) := by
  have hmem := List.mem_of_getElem? hw
  have hfails : c.workers.any (·.progress.error?.isSome) = false := by
    rw [List.any_eq_false]
    intro w' hw'
    have hfine := ho.fine w' hw'
    obtain ⟨key, a⟩ := w'
    cases a <;> first | exact Bool.false_ne_true | cases hfine
  unfold step
  simp only [hw, hfails, Bool.and_false, Bool.false_eq_true, if_false]
  obtain hfinished | ⟨b, q, j, hadvance, hcloser⟩ :=
    exists_advance (ho.keeps.workers w hmem).2 (ho.fine w hmem) hQ c.pool c.journal
  · obtain ⟨key, a⟩ := w
    obtain rfl : a = .finished := hfinished
    obtain ⟨hi, hget⟩ := List.getElem?_eq_some_iff.1 hw
    have hset : c.workers.set i ⟨key, .finished⟩ = c.workers := by
      rw [← hget, List.set_getElem_self]
    exact ⟨.finished, hset.symm, .inl ⟨.inl rfl, fun h => h.1⟩⟩
  · rw [hadvance]
    exact ⟨b, rfl, hcloser.imp_left fun h => ⟨.inr h.1, h.2⟩⟩

/-- The worker at a place has finished, or there is none. -/
def FinishedAt (c : Crew) (i : Nat) : Prop := ∀ w, c.workers[i]? = some w → w.progress = .finished

def RestsAt (c : Crew) (i : Nat) : Prop := ∀ w, c.workers[i]? = some w → w.progress.Rests

theorem FinishedAt.restsAt (h : FinishedAt c i) : RestsAt c i := fun w hw => by
  rw [h w hw]
  trivial

theorem run_append (code : Code) (assemble : SandboxKey → Nat → Sandbox) (c : Crew) (schedule later : List Nat) :
    c.run code assemble (schedule ++ later) = (c.run code assemble schedule).run code assemble later :=
  List.foldl_append

theorem length_run (code : Code) (assemble : SandboxKey → Nat → Sandbox) (c : Crew) (schedule : List Nat) :
    (c.run code assemble schedule).workers.length = c.workers.length := by
  refine run_kept (P := fun c' => c'.workers.length = c.workers.length) ?_ rfl schedule
  intro c₁ c₂ hlength hturn
  cases hturn with
  | rest => exact hlength
  | move hw _ =>
    rw [hw] at hlength
    rw [← hlength, Traffic.length_middle, Traffic.length_middle]

theorem answer_of_finished (h : ∀ w ∈ c.workers, w.progress = .finished) : c.answer = .done (.ok ()) := by
  have hnone : c.workers.any (·.progress.isUnderWay) = false := by
    rw [List.any_eq_false]
    intro w hw
    rw [h w hw]
    exact Bool.false_ne_true
  have hpanic : c.workers.findSome? (·.progress.panic?) = none :=
    List.findSome?_eq_none_iff.2 fun w hw => by rw [h w hw]; rfl
  have herror : c.workers.findSome? (·.progress.error?) = none :=
    List.findSome?_eq_none_iff.2 fun w hw => by rw [h w hw]; rfl
  rw [answer, hnone, hpanic, herror]
  rfl

/-! ## Rounds -/

section Rounds

variable (hl : Lasts code assemble keys first Q) (hQ : Smooth code assemble Q)
  (hassemble : ∀ key id, assemble key id =
    { Sandbox.new id key hierarchy with detectLeaks := detectLeaks, checks := checks })
include hl hQ hassemble

theorem Orderly.turn (ho : Orderly assemble keys first Q granted cleared max c)
    (ht : Turn code assemble c c') : Orderly assemble keys first Q granted cleared max c' := by
  obtain ⟨t, hshows, hbooked⟩ := ho.shown
  obtain ⟨t', hlater, hshows'⟩ := hshows.turn hassemble ht
  have hbooked' := hlater.kept (P := fun t => t.Balanced max ∧ t.pool.Bounded)
    (fun h hstep => ⟨h.1.step hstep, Traffic.bounded_step h.2 h.1 hstep⟩) hbooked
  exact ⟨ho.keeps.turn hl ht, fine_turn ho.fine ho.keeps hQ ht, t', hshows', hbooked'⟩

theorem Orderly.run (ho : Orderly assemble keys first Q granted cleared max c) (schedule : List Nat) :
    Orderly assemble keys first Q granted cleared max (c.run code assemble schedule) :=
  run_kept (fun ho ht => ho.turn hl hQ hassemble ht) ho schedule

/-- After any number of turns in a row, a worker is that much closer to its end, or it waits for a key in use. -/
theorem Orderly.turns (ho : Orderly assemble keys first Q granted cleared max c)
    (hw : c.workers[i]? = some w) (n : Nat) :
    ∃ b, (c.run code assemble (List.replicate n i)).workers = c.workers.set i ⟨w.key, b⟩ ∧
      (b = .finished ∨ b.left + n ≤ 6 ∨
        b = .waiting ∧ InUse (c.run code assemble (List.replicate n i)).pool w.key) := by
  obtain ⟨hi, hget⟩ := List.getElem?_eq_some_iff.1 hw
  induction n with
  | zero =>
    refine ⟨w.progress, ?_, .inr (.inl ?_)⟩
    · exact (hget ▸ List.set_getElem_self hi).symm
    · cases w.progress <;> simp [Progress.left]
  | succ n ih =>
    obtain ⟨b, hworkers, hcloser⟩ := ih
    have hrun : c.run code assemble (List.replicate (n + 1) i) =
        (c.run code assemble (List.replicate n i)).step code assemble i := by
      rw [List.replicate_succ', Crew.run, List.foldl_append]
      rfl
    have ho' := ho.run hl hQ hassemble (List.replicate n i)
    rw [hrun]
    generalize c.run code assemble (List.replicate n i) = c' at *
    have hw' : c'.workers[i]? = some ⟨w.key, b⟩ := by
      rw [hworkers, List.getElem?_set_self hi]
    obtain ⟨b', hset, hstep⟩ := ho'.step_own hQ hw'
    refine ⟨b', ?_, ?_⟩
    · rw [hset, hworkers, List.set_set]
    · obtain ⟨hfinished | hless, hfree⟩ | hwaits := hstep
      · exact .inl hfinished
      · obtain rfl | hle | ⟨rfl, huse⟩ := hcloser
        · cases hless
        · exact .inr (.inl (by simp only at hless; omega))
        · exact absurd ⟨trivial, huse⟩ hfree
      · exact .inr (.inr hwaits)

/-- As many turns as there are steps take a worker to its end, unless its key is in use. The others stay where they
are. -/
theorem Orderly.six_turns (ho : Orderly assemble keys first Q granted cleared max c) (i : Nat) :
    let c' := c.run code assemble (List.replicate 6 i)
    (∀ k, k ≠ i → c'.workers[k]? = c.workers[k]?) ∧
      (FinishedAt c' i ∨ RestsAt c' i ∧ ∃ key, InUse c'.pool key) := by
  intro c'
  cases hw : c.workers[i]? with
  | none =>
    have hsame : ∀ n, c.run code assemble (List.replicate n i) = c := by
      intro n
      induction n with
      | zero => rfl
      | succ n ih =>
        have hstep : c.step code assemble i = c := by simp only [step, hw]
        rw [List.replicate_succ, Crew.run, List.foldl_cons, hstep]
        exact ih
    have hc : c' = c := hsame 6
    rw [hc]
    refine ⟨fun _ _ => rfl, .inl fun w hw' => ?_⟩
    rw [hw] at hw'
    cases hw'
  | some w =>
    obtain ⟨b, hworkers, hcloser⟩ := ho.turns hl hQ hassemble hw 6
    have hi := (List.getElem?_eq_some_iff.1 hw).1
    have hat : ∀ w', c'.workers[i]? = some w' → w' = ⟨w.key, b⟩ := by
      intro w' hw'
      rw [hworkers, List.getElem?_set_self hi] at hw'
      exact (Option.some.inj hw').symm
    have hfine := (ho.run hl hQ hassemble (List.replicate 6 i)).fine ⟨w.key, b⟩ (hworkers ▸ List.mem_set hi _)
    refine ⟨fun k hk => by rw [hworkers, List.getElem?_set_ne (Ne.symm hk)], ?_⟩
    obtain rfl | hleft | ⟨rfl, huse⟩ := hcloser
    · exact .inl fun w' hw' => by rw [hat w' hw']
    · refine .inl fun w' hw' => ?_
      rw [hat w' hw']
      cases b with
      | finished => rfl
      | failed | panicked => cases hfine
      | _ => cases Nat.le_of_add_le_add_right hleft
    · exact .inr ⟨fun w' hw' => by rw [hat w' hw']; trivial, _, huse⟩

/-- After a round nobody does anything but wait. -/
theorem Orderly.rests_round (ho : Orderly assemble keys first Q granted cleared max c)
    (places : List Nat) {i : Nat} (hi : i ∈ places ∨ RestsAt c i) :
    RestsAt (c.run code assemble (places.flatMap (List.replicate 6))) i := by
  induction places generalizing c with
  | nil => exact hi.resolve_left List.not_mem_nil
  | cons k rest ih =>
    rw [List.flatMap_cons, run_append]
    obtain ⟨hothers, hown⟩ := ho.six_turns hl hQ hassemble k
    refine ih (ho.run hl hQ hassemble _) ?_
    by_cases hk : i = k
    · subst hk
      exact .inr (hown.elim FinishedAt.restsAt And.left)
    · refine (hi.imp_left fun hmem => ?_).imp_right fun hrests w hw => ?_
      · exact (List.mem_cons.1 hmem).resolve_left hk
      · rw [hothers i hk] at hw
        exact hrests w hw

/-- After another one everybody has finished. -/
theorem Orderly.finished_round (ho : Orderly assemble keys first Q granted cleared max c)
    (hrests : ∀ i, RestsAt c i) (places : List Nat) {i : Nat} (hi : i ∈ places ∨ FinishedAt c i) :
    FinishedAt (c.run code assemble (places.flatMap (List.replicate 6))) i := by
  induction places generalizing c with
  | nil => exact hi.resolve_left List.not_mem_nil
  | cons k rest ih =>
    rw [List.flatMap_cons, run_append]
    obtain ⟨hothers, hown⟩ := ho.six_turns hl hQ hassemble k
    have ho' := ho.run hl hQ hassemble (List.replicate 6 k)
    generalize c.run code assemble (List.replicate 6 k) = c' at *
    have hrests' : ∀ i, RestsAt c' i := by
      intro i
      by_cases hk : i = k
      · subst hk
        exact hown.elim FinishedAt.restsAt And.left
      · intro w hw
        rw [hothers i hk] at hw
        exact hrests i w hw
    have hfinished : FinishedAt c' k := by
      refine hown.resolve_right fun ⟨_, key, huse⟩ => ?_
      obtain ⟨w, hmem, hactive⟩ := ho'.exists_active huse
      obtain ⟨i, hw⟩ := List.getElem?_of_mem hmem
      exact hactive (hrests' i w hw)
    refine ih ho' hrests' ?_
    by_cases hk : i = k
    · exact .inr (hk ▸ hfinished)
    · refine (hi.imp_left fun hmem => ?_).imp_right fun hdone w hw => ?_
      · exact (List.mem_cons.1 hmem).resolve_left hk
      · rw [hothers i hk] at hw
        exact hdone w hw

/-- Whatever the schedule, everybody has finished in the end, and what is known of the crew at all times is still
known. -/
theorem Orderly.complete (ho : Orderly assemble keys first Q granted cleared max c) (schedule : List Nat) :
    let c' := c.complete code assemble schedule
    Orderly assemble keys first Q granted cleared max c' ∧ (∀ w ∈ c'.workers, w.progress = .finished) ∧
      c'.answer = .done (.ok ()) := by
  intro c'
  have hplaces : ∀ {schedule i}, ¬i ∈ List.range c.workers.length →
      FinishedAt (c.run code assemble schedule) i := by
    intro schedule i hi w hw
    obtain ⟨hlt, _⟩ := List.getElem?_eq_some_iff.1 hw
    rw [length_run] at hlt
    exact absurd (List.mem_range.2 hlt) hi
  have hfirst := ho.run hl hQ hassemble schedule
  have hrests : ∀ i, RestsAt (c.run code assemble (schedule ++ c.round)) i := by
    intro i
    rw [run_append]
    refine hfirst.rests_round hl hQ hassemble _ ?_
    by_cases hi : i ∈ List.range c.workers.length
    · exact .inl hi
    · exact .inr (hplaces hi).restsAt
  have hsecond := ho.run hl hQ hassemble (schedule ++ c.round)
  have hfinished : ∀ w ∈ c'.workers, w.progress = .finished := by
    intro w hw
    obtain ⟨i, hi⟩ := List.getElem?_of_mem hw
    simp only [c', Crew.complete, run_append code assemble c (schedule ++ c.round)] at hi
    refine hsecond.finished_round hl hQ hassemble hrests _ ?_ w hi
    by_cases hplace : i ∈ List.range c.workers.length
    · exact .inl hplace
    · exact .inr (hplaces hplace)
  exact ⟨ho.run hl hQ hassemble _, hfinished, answer_of_finished hfinished⟩

end Rounds

/-- When everybody has finished the pool is at rest, and each worker had one lease. -/
theorem Orderly.atRest (ho : Orderly assemble keys first Q granted cleared max c)
    (hfinished : ∀ w ∈ c.workers, w.progress = .finished) :
    c.pool.max = max ∧ c.pool.AtRest ∧ c.pool.Bounded ∧
      c.pool.counts.built + c.pool.counts.reused = granted + c.workers.length ∧
      c.pool.counts.built = c.pool.accounted + cleared := by
  obtain ⟨t, hshows, hb, hbounded⟩ := ho.shown
  have hnone : ∀ {β : Type} (f : Worker → Option β), (∀ key, f ⟨key, .finished⟩ = none) →
      c.workers.filterMap f = [] := by
    intro β f hf
    refine List.filterMap_eq_nil_iff.2 fun w hw => ?_
    obtain ⟨key, a⟩ := w
    obtain rfl : a = .finished := hfinished _ hw
    exact hf key
  have hbuilding := hshows.building
  have hloans := hshows.loans
  have hlost := hshows.lost
  rw [hnone Worker.building? fun _ => rfl] at hbuilding
  rw [hnone Worker.loan? fun _ => rfl] at hloans
  rw [hnone Worker.lost? fun _ => rfl] at hlost
  have hserved : c.workers.countP Worker.wasServed = c.workers.length := by
    rw [List.countP_eq_length]
    intro w hw
    rw [Worker.wasServed, hfinished w hw]
  have hgranted := hb.granted
  have houtstanding := hb.outstanding
  have haccounts := hb.accounts
  rw [hshows.granted, hserved] at hgranted
  rw [hloans.eq_nil, hlost.eq_nil] at houtstanding haccounts
  rw [hshows.pool] at hbounded hgranted houtstanding haccounts
  refine ⟨hshows.pool ▸ hb.max, ⟨?_, houtstanding⟩, hbounded, hgranted, ?_⟩
  · by_contra hsome
    obtain ⟨key, slot, hslot, hsort⟩ := Pool.exists_of_tally_pos (Nat.pos_of_ne_zero hsome)
    have hcount := hb.building key
    rw [hbuilding.eq_nil, hshows.pool, Pool.tallyAt, hslot, Slot.count_some, if_pos hsort] at hcount
    cases hcount
  · have hcleared := hshows.cleared
    simp only [List.length_nil] at houtstanding haccounts
    unfold Pool.accounted
    omega

end Crew

end Interpose
