import Interpose.Pool.Crew
import Interpose.Proofs.Pool.Health
import Interpose.Proofs.Pool.Waiting
import Interpose.Proofs.Sandbox.Events

/-!
# What the workers of a crew do

A step of a crew is a step of one of its workers, and there are eight things that a worker may do. What each of them keeps
is kept by all interleavings: what is known of the sandboxes in the pool and of those that the workers have, and which
events were reported.
-/

namespace Interpose

namespace Pool

/-- Resets give out no ids. -/
theorem tidy_nextSandbox (code : Code) (s : Sandbox) (j : Journal) :
    (tidy code s j).2.2.nextSandbox = j.nextSandbox := by
  have hreset : (s.reset code j).2.2.nextSandbox = j.nextSandbox := by
    have hmemory := (s.resetMemory_spec code j).1
    unfold Sandbox.reset
    split
    · rfl
    · rcases hr : s.resetMemory code j with ⟨outcome, s', j'⟩
      rw [hr] at hmemory
      cases outcome with
      | done failures =>
        rw [Outcome.andThen_done]
        simp only
        split <;> exact hmemory
      | panicked payload | unfinished => exact hmemory
  unfold tidy
  split
  · rwa [Outcome.andThen_snd]
  · rfl

theorem built_claim (p : Pool) (key : SandboxKey) : (p.claim key).2.counts.built = p.counts.built := by
  unfold claim
  split <;> rfl

theorem built_finishBuild (p : Pool) (key : SandboxKey) :
    (p.finishBuild key).2.counts.built = p.counts.built + 1 := (makesRoom_evict _).built

theorem built_putBack (p : Pool) (key : SandboxKey) (s : Sandbox) :
    (p.putBack key s).2.counts.built = p.counts.built := by
  unfold putBack
  split
  · exact (makesRoom_evict _).built
  · rfl

theorem idleAt?_abandon {p : Pool} {key k : SandboxKey} {s : Sandbox} (h : (p.abandon key).idleAt? k = some s) :
    p.idleAt? k = some s := by
  rw [abandon, idleAt?_erase p key p.counts] at h
  split at h
  · cases h
  · exact h

theorem idleAt?_finishBuild {p : Pool} {key k : SandboxKey} {s : Sandbox}
    (h : (p.finishBuild key).2.idleAt? k = some s) : p.idleAt? k = some s := by
  have hput := idleAt?_evict h
  rw [idleAt?_put] at hput
  split at hput
  · cases hput
  · exact hput

end Pool

/-- To configure a sandbox gives out no ids. -/
theorem Sandbox.configure_nextSandbox (s : Sandbox) (j : Journal) :
    (s.configure j).2.2.nextSandbox = j.nextSandbox := by
  unfold configure
  split <;> rfl

/-- A worker claims its key, at first or after it woke up. -/
def Progress.Asks : Progress → Prop
  | fresh | waiting => True
  | _ => False

/-- Whether a build was reported whose sandbox is still to be entered into the pool. -/
def Progress.isReady : Progress → Bool
  | ready _ => true
  | _ => false

/-- The sandbox of a worker was just put together, under an id that was not given out before, or it is configured and
something is true of it. -/
def Worker.Keeps (assemble : SandboxKey → Nat → Sandbox) (first : Nat)
    (Q : SandboxKey → Sandbox → Prop) (w : Worker) : Prop :=
  match w.progress with
  | .made s => ∃ id, first ≤ id ∧ s = assemble w.key id
  | .ready s | .holding s | .returning s => Q w.key s
  | _ => True

namespace Crew

/-- What a worker for a key may do. -/
inductive Moves (code : Code) (assemble : SandboxKey → Nat → Sandbox) (key : SandboxKey) (p : Pool) (j : Journal) :
    Progress → Progress → Pool → Journal → Prop
  | ask {a : Progress} (ha : a.Asks) : Moves code assemble key p j a (.ofClaim (p.claim key).1) (p.claim key).2 j
  | make : Moves code assemble key p j .building (.made (assemble key j.nextSandbox)) p j.takeSandboxId.2
  | configure {s s' : Sandbox} {j' : Journal} (h : s.configure j = (.ok (), s', j')) :
      Moves code assemble key p j (.made s) (.ready s') p j'
  | giveUp {s s' : Sandbox} {j' : Journal} {e : Error} (h : s.configure j = (.error e, s', j')) :
      Moves code assemble key p j (.made s) (.failed e) (p.abandon key) j'
  | enter {s : Sandbox} : Moves code assemble key p j (.ready s) (.holding s) (p.finishBuild key).2 j
  | tidy {s s' : Sandbox} {j' : Journal} (h : Pool.tidy code s j = (.done (), s', j')) :
      Moves code assemble key p j (.holding s) (.returning s') p j'
  | lose {s s' : Sandbox} {j' : Journal} {payload : Option String}
      (h : Pool.tidy code s j = (.panicked payload, s', j')) :
      Moves code assemble key p j (.holding s) (.panicked payload) p j'
  | putBack {s : Sandbox} : Moves code assemble key p j (.returning s) .finished (p.putBack key s).2 j

/-- A step of a crew leaves it as it is or moves one of the workers. -/
inductive Turn (code : Code) (assemble : SandboxKey → Nat → Sandbox) (c : Crew) : Crew → Prop
  | rest : Turn code assemble c c
  | move {before after : List Worker} {w : Worker} {b : Progress} {p : Pool} {j : Journal}
      (hw : c.workers = before ++ w :: after)
      (hmove : Moves code assemble w.key c.pool c.journal w.progress b p j) :
      Turn code assemble c ⟨p, j, before ++ ⟨w.key, b⟩ :: after⟩

variable {code : Code} {assemble : SandboxKey → Nat → Sandbox} {c c' : Crew}

theorem moves_of_advance {key : SandboxKey} {p q : Pool} {j j' : Journal} {a b : Progress}
    (h : advance code assemble key p j a = some (b, q, j')) : Moves code assemble key p j a b q j' := by
  cases a with
  | fresh | waiting =>
    cases h
    exact .ask trivial
  | building =>
    cases h
    exact .make
  | made s =>
    rcases hconfigure : s.configure j with ⟨answer, s', j''⟩
    simp only [advance, hconfigure] at h
    cases answer <;> cases h
    · exact .giveUp hconfigure
    · exact .configure hconfigure
  | ready s =>
    cases h
    exact .enter
  | holding s =>
    rcases htidy : Pool.tidy code s j with ⟨outcome, s', j''⟩
    simp only [advance, htidy] at h
    cases outcome <;> cases h
    · exact .tidy htidy
    · exact .lose htidy
  | returning s =>
    cases h
    exact .putBack
  | finished | failed | panicked => cases h

theorem turn_step (code : Code) (assemble : SandboxKey → Nat → Sandbox) (c : Crew) (i : Nat) :
    Turn code assemble c (c.step code assemble i) := by
  unfold step
  split
  · exact .rest
  · rename_i w hw
    split
    · exact .rest
    · split
      · exact .rest
      · rename_i b p j hadvance
        obtain ⟨hi, hget⟩ := List.getElem?_eq_some_iff.1 hw
        have hsplit : c.workers = c.workers.take i ++ w :: c.workers.drop (i + 1) := by
          rw [← hget, List.getElem_cons_drop, List.take_append_drop]
        rw [List.set_eq_take_append_cons_drop, if_pos hi]
        exact .move hsplit (moves_of_advance hadvance)

/-- What every turn keeps is true whenever a crew comes to a rest. -/
theorem run_kept {P : Crew → Prop} (hkept : ∀ {c c'}, P c → Turn code assemble c c' → P c') (h : P c)
    (schedule : List Nat) : P (c.run code assemble schedule) := by
  unfold run
  induction schedule generalizing c with
  | nil => exact h
  | cons i rest ih => exact ih (hkept h (turn_step code assemble c i))

/-! ## The sandboxes -/

/-- What is true of a sandbox under its key once it is configured, and stays so when it is made ready to be put back. -/
structure Lasts (code : Code) (assemble : SandboxKey → Nat → Sandbox) (keys : List SandboxKey) (first : Nat)
    (Q : SandboxKey → Sandbox → Prop) : Prop where
  configured : ∀ {key id j s j'}, key ∈ keys → first ≤ id → (assemble key id).configure j = (.ok (), s, j') → Q key s
  tidied : ∀ {key s j s' j'}, Q key s → Pool.tidy code s j = (.done (), s', j') → Q key s'

variable {keys : List SandboxKey} {first : Nat} {Q : SandboxKey → Sandbox → Prop}

/-- What is known of all sandboxes while a crew works. -/
structure Keeps (assemble : SandboxKey → Nat → Sandbox) (keys : List SandboxKey) (first : Nat)
    (Q : SandboxKey → Sandbox → Prop) (c : Crew) : Prop where
  issued : first ≤ c.journal.nextSandbox
  idle : ∀ key s, c.pool.idleAt? key = some s → Q key s
  workers : ∀ w ∈ c.workers, w.key ∈ keys ∧ w.Keeps assemble first Q

theorem Keeps.turn (hk : Keeps assemble keys first Q c) (hQ : Lasts code assemble keys first Q)
    (ht : Turn code assemble c c') : Keeps assemble keys first Q c' := by
  cases ht with
  | rest => exact hk
  | @move before after w b p j hw hmove =>
    have hworkers := hk.workers
    rw [hw] at hworkers
    obtain ⟨⟨hkey, hown⟩, hothers⟩ := Traffic.forall_mem_middle.1 hworkers
    obtain ⟨key, a⟩ := w
    have hall : Worker.Keeps assemble first Q ⟨key, b⟩ →
        ∀ w ∈ before ++ ⟨key, b⟩ :: after, w.key ∈ keys ∧ w.Keeps assemble first Q := fun h =>
      Traffic.forall_mem_middle.2 ⟨⟨hkey, h⟩, hothers⟩
    have hissued : ∀ {j : Journal}, j.nextSandbox = c.journal.nextSandbox → first ≤ j.nextSandbox := fun h =>
      h ▸ hk.issued
    cases hmove with
    | ask ha =>
      refine ⟨hk.issued, fun k s hs => ?_, hall ?_⟩
      · rw [Pool.idleAt?_claim] at hs
        split at hs
        · cases hs
        · exact hk.idle k s hs
      · cases hclaim : (c.pool.claim key).1 with
        | build | wait => trivial
        | reuse s => exact hk.idle key s (Pool.claim_reuse hclaim)
    | make => exact ⟨Nat.le_succ_of_le hk.issued, hk.idle, hall ⟨_, hk.issued, rfl⟩⟩
    | @configure s s' j h =>
      have hnext := s.configure_nextSandbox c.journal
      rw [h] at hnext
      obtain ⟨id, hid, hs⟩ := hown
      rw [hs] at h
      exact ⟨hissued hnext, hk.idle, hall (hQ.configured hkey hid h)⟩
    | @giveUp s s' j e h =>
      have hnext := s.configure_nextSandbox c.journal
      rw [h] at hnext
      exact ⟨hissued hnext, fun k s hs => hk.idle k s (Pool.idleAt?_abandon hs), hall trivial⟩
    | enter => exact ⟨hk.issued, fun k s hs => hk.idle k s (Pool.idleAt?_finishBuild hs), hall hown⟩
    | @tidy s s' j h =>
      have hnext := Pool.tidy_nextSandbox code s c.journal
      rw [h] at hnext
      exact ⟨hissued hnext, hk.idle, hall (hQ.tidied hown h)⟩
    | @lose s s' j payload h =>
      have hnext := Pool.tidy_nextSandbox code s c.journal
      rw [h] at hnext
      exact ⟨hissued hnext, hk.idle, hall trivial⟩
    | @putBack s =>
      refine ⟨hk.issued, fun k s' hs => ?_, hall trivial⟩
      obtain ⟨rfl, rfl, _⟩ | hwaits := Pool.idleAt?_putBack hs
      · exact hown
      · exact hk.idle k s' hwaits

theorem Keeps.run (hk : Keeps assemble keys first Q c) (hQ : Lasts code assemble keys first Q) (schedule : List Nat) :
    Keeps assemble keys first Q (c.run code assemble schedule) :=
  run_kept (fun hk ht => hk.turn hQ ht) hk schedule

/-! ## The events -/

/-- New sandboxes can be configured, and to make a sandbox ready to be put back leaves it as it is. -/
structure Smooth (code : Code) (assemble : SandboxKey → Nat → Sandbox) (Q : SandboxKey → Sandbox → Prop) : Prop where
  builds : ∀ key id j, ∃ s, (assemble key id).configure j = (.ok (), s, j.addEvent .sandboxBuild (toString id))
  still : ∀ {key s}, Q key s → ∀ j, Pool.tidy code s j = (.done (), s, j)

/-- So only what comes of configuring has to be looked at. -/
theorem Smooth.lasts (hQ : Smooth code assemble Q)
    (hconfigured : ∀ {key id j s j'}, key ∈ keys → first ≤ id → (assemble key id).configure j = (.ok (), s, j') →
      Q key s) : Lasts code assemble keys first Q where
  configured := hconfigured
  tidied {key s j s' j'} hs h := by
    rw [hQ.still hs] at h
    cases h
    exact hs

/-- Every build that was reported was counted or is still to be entered, and nothing else was reported. -/
structure Reports (before : Journal) (c : Crew) : Prop where
  builds : c.journal.told .sandboxBuild = c.pool.counts.built + c.workers.countP (·.progress.isReady)
  others : ∀ kind, kind ≠ .sandboxBuild → c.journal.told kind = before.told kind

theorem Reports.turn {j₀ : Journal} (hr : Reports j₀ c) (hk : Keeps assemble keys first Q c)
    (hQ : Smooth code assemble Q) (ht : Turn code assemble c c') : Reports j₀ c' := by
  cases ht with
  | rest => exact hr
  | @move before after w b p j hw hmove =>
    have hworkers := hk.workers
    have hbuilds := hr.builds
    rw [hw] at hworkers hbuilds
    rw [Traffic.countP_middle] at hbuilds
    obtain ⟨⟨_, hown⟩, _⟩ := Traffic.forall_mem_middle.1 hworkers
    obtain ⟨key, a⟩ := w
    simp only at hmove hbuilds
    have hsame : ∀ {b p}, p.counts.built = c.pool.counts.built → b.isReady = a.isReady →
        Reports j₀ ⟨p, c.journal, before ++ ⟨key, b⟩ :: after⟩ := by
      intro b p hbuilt hready
      refine ⟨?_, hr.others⟩
      rw [Traffic.countP_middle, hready, hbuilt]
      exact hbuilds
    cases hmove with
    | ask ha =>
      have hready : (Progress.ofClaim (c.pool.claim key).1).isReady = a.isReady := by
        cases a <;> cases (c.pool.claim key).1 <;> first | rfl | exact ha.elim
      exact hsame (c.pool.built_claim key) hready
    | make =>
      have hmade := hsame (b := .made (assemble key c.journal.nextSandbox)) (p := c.pool) rfl rfl
      exact ⟨hmade.builds, hmade.others⟩
    | @configure s s' j h =>
      obtain ⟨id, _, hs⟩ := hown
      obtain ⟨_, hconfigure⟩ := hQ.builds key id c.journal
      simp only [hs] at h
      rw [hconfigure] at h
      cases h
      refine ⟨?_, fun kind hkind => ?_⟩
      · rw [Journal.told_addEvent, if_pos rfl, Traffic.countP_middle, hbuilds]
        simp [Progress.isReady]
        omega
      · rw [Journal.told_addEvent, if_neg hkind, hr.others kind hkind]
        rfl
    | @giveUp s s' j e h =>
      obtain ⟨id, _, hs⟩ := hown
      obtain ⟨_, hconfigure⟩ := hQ.builds key id c.journal
      simp only [hs] at h
      rw [hconfigure] at h
      cases h
    | @enter s =>
      refine ⟨?_, hr.others⟩
      rw [Traffic.countP_middle, Pool.built_finishBuild, hbuilds]
      simp [Progress.isReady]
      omega
    | @tidy s s' j h =>
      rw [hQ.still hown] at h
      cases h
      exact hsame rfl rfl
    | @lose s s' j payload h =>
      rw [hQ.still hown] at h
      cases h
    | @putBack s => exact hsame (c.pool.built_putBack key s) rfl

theorem Reports.run {j₀ : Journal} (hr : Reports j₀ c) (hk : Keeps assemble keys first Q c)
    (hl : Lasts code assemble keys first Q) (hQ : Smooth code assemble Q) (schedule : List Nat) :
    Reports j₀ (c.run code assemble schedule) :=
  (run_kept (P := fun c => Keeps assemble keys first Q c ∧ Reports j₀ c)
    (fun h ht => ⟨h.1.turn hl ht, h.2.turn h.1 hQ ht⟩) ⟨hk, hr⟩ schedule).2

end Crew

end Interpose
