import Interpose.Proofs.Pool.Crews
import Mathlib.Data.List.Perm.Subperm
import Mathlib.Logic.Relation

/-!
# Crews as traffic

The workers of a crew are users of their pool, and each of their steps is one that users make. So whatever is known of
all users of a pool is known of a crew: a slot is in use exactly if a worker builds for its key or has its lease, no
sandbox is in two places, and the counters account for the leases. The order in which users are listed means nothing,
so a crew and the traffic that it is are compared up to the order.
-/

namespace Interpose

namespace Worker

/-- The key that a worker builds for. -/
def building? (w : Worker) : Option SandboxKey :=
  match w.progress with
  | .building | .made _ | .ready _ => some w.key
  | _ => none

def waiting? (w : Worker) : Option SandboxKey :=
  match w.progress with
  | .waiting => some w.key
  | _ => none

def loan? (w : Worker) : Option Loan :=
  match w.progress with
  | .holding s => some ⟨w.key, s, false⟩
  | .returning s => some ⟨w.key, s, true⟩
  | _ => none

/-- The key of a lease whose drop panicked. -/
def lost? (w : Worker) : Option SandboxKey :=
  match w.progress with
  | .panicked _ => some w.key
  | _ => none

/-- The sandbox that nobody has leased yet. -/
def spare? (w : Worker) : Option Sandbox :=
  match w.progress with
  | .made s | .ready s => some s
  | _ => none

/-- Whether a worker was given a lease. -/
def wasServed (w : Worker) : Bool :=
  match w.progress with
  | .holding _ | .returning _ | .finished | .panicked _ => true
  | _ => false

end Worker

/-- No sandbox waits under two keys, and the ids that are still to be given out are new. -/
structure Pool.Apart (p : Pool) (next : Nat) : Prop where
  once : ∀ key key' s s', p.idleAt? key = some s → p.idleAt? key' = some s' → s.id = s'.id → key = key'
  issued : ∀ key s, p.idleAt? key = some s → s.id < next

theorem Pool.Apart.tally_eq_zero {p : Pool} {next id : Nat} (hp : p.Apart next) (hid : next ≤ id) :
    p.tally (Slot.holds id) = 0 := by
  by_contra hsome
  obtain ⟨key, slot, hslot, hholds⟩ := exists_of_tally_pos (Nat.pos_of_ne_zero hsome)
  cases slot with
  | building | leased => cases hholds
  | idle s released =>
    have hlt := hp.issued key s (idleAt?_eq_some_iff.2 ⟨released, hslot⟩)
    rw [Slot.holds_idle, decide_eq_true_eq] at hholds
    omega

namespace Traffic

/-- One state comes after another, by any number of steps. -/
abbrev Later : Traffic → Traffic → Prop := Relation.ReflTransGen Step

theorem Later.kept {P : Traffic → Prop} {t t' : Traffic} (hl : Later t t')
    (hkept : ∀ {t t'}, P t → Step t t' → P t') (h : P t) : P t' := by
  induction hl with
  | refl => exact h
  | tail _ hstep ih => exact hkept ih hstep

end Traffic

namespace Crew

/-! ## Lists of users -/

section Lists

variable {α β : Type} {f : α → Option β} {before after : List α} {x y : α} {b : β} {l : List β}

/-- What one item gives may stand in front. -/
theorem perm_filterMap_middle (f : α → Option β) (before after : List α) (x : α) :
    ((before ++ x :: after).filterMap f).Perm ((f x).toList ++ (before ++ after).filterMap f) := by
  refine (List.perm_middle.filterMap f).trans ?_
  rw [List.filterMap_cons]
  cases f x <;> exact .refl _

/-- An item that gives the same as before changes nothing, -/
theorem perm_same (h : l.Perm ((before ++ x :: after).filterMap f)) (hsame : f y = f x) :
    l.Perm ((before ++ y :: after).filterMap f) := by
  have hx := h.trans (perm_filterMap_middle f before after x)
  rw [← hsame] at hx
  exact hx.trans (perm_filterMap_middle f before after y).symm

/-- one that gives something now adds it, -/
theorem perm_add (h : l.Perm ((before ++ x :: after).filterMap f)) (hx : f x = none) (hy : f y = some b) :
    (b :: l).Perm ((before ++ y :: after).filterMap f) := by
  have hl := h.trans (perm_filterMap_middle f before after x)
  rw [hx] at hl
  refine .trans (hl.cons b) ?_
  have hafter := (perm_filterMap_middle f before after y).symm
  rwa [hy] at hafter

/-- and what one gave before can be found. -/
theorem exists_split (h : l.Perm ((before ++ x :: after).filterMap f)) (hx : f x = some b) :
    ∃ u v, l = u ++ b :: v ∧ (u ++ v).Perm ((before ++ after).filterMap f) := by
  have hl := h.trans (perm_filterMap_middle f before after x)
  rw [hx] at hl
  obtain ⟨u, v, rfl⟩ := List.append_of_mem (hl.mem_iff.2 List.mem_cons_self)
  exact ⟨u, v, rfl, (List.perm_middle.symm.trans hl).cons_inv⟩

theorem perm_drop (h : l.Perm ((before ++ after).filterMap f)) (hy : f y = none) :
    l.Perm ((before ++ y :: after).filterMap f) := by
  have hafter := (perm_filterMap_middle f before after y).symm
  rw [hy] at hafter
  exact h.trans hafter

end Lists

/-- A state of the users of a pool that a crew amounts to, given the leases before it began and the sandboxes that were
cleared away. Sandboxes that were put together in vain may be left over. -/
structure Shows (granted cleared : Nat) (c : Crew) (t : Traffic) : Prop where
  pool : t.pool = c.pool
  building : t.building.Perm (c.workers.filterMap Worker.building?)
  waiting : (t.waiting.map (·.key)).Perm (c.workers.filterMap Worker.waiting?)
  loans : t.loans.Perm (c.workers.filterMap Worker.loan?)
  lost : t.lost.Perm (c.workers.filterMap Worker.lost?)
  spare : (c.workers.filterMap Worker.spare?).Subperm t.spare
  nextId : t.nextId = c.journal.nextSandbox
  granted : t.granted = granted + c.workers.countP Worker.wasServed
  cleared : t.cleared = cleared

variable {code : Code} {assemble : SandboxKey → Nat → Sandbox} {hierarchy : Hierarchy} {detectLeaks : Bool}
  {checks : List LeakCheck} {c c' : Crew} {granted cleared : Nat} {t : Traffic}

/-- What a worker claims, a user claims. -/
theorem Shows.ask {before after : List Worker} {key : SandboxKey} {a : Progress} {p : Pool} {j : Journal}
    (hs : Shows granted cleared ⟨p, j, before ++ ⟨key, a⟩ :: after⟩ t) (ha : a.Asks) :
    ∃ t', Traffic.Later t t' ∧ Shows granted cleared
      ⟨(p.claim key).2, j, before ++ ⟨key, .ofClaim (p.claim key).1⟩ :: after⟩ t' := by
  obtain ⟨waiting, hwaiting, hstep⟩ : ∃ waiting : List Waiter,
      (waiting.map (·.key)).Perm ((before ++ after).filterMap Worker.waiting?) ∧
        Traffic.Step t (Traffic.ask { t with waiting := waiting } key) := by
    cases a with
    | fresh =>
      refine ⟨t.waiting, ?_, .ask t key⟩
      exact hs.waiting.trans (perm_filterMap_middle Worker.waiting? before after ⟨key, .fresh⟩)
    | waiting =>
      obtain ⟨u, v, hsplit, hrest⟩ := exists_split hs.waiting (b := key) rfl
      obtain ⟨u', vw, hu, rfl, hv⟩ := List.map_eq_append_iff.1 hsplit
      obtain ⟨w, v', rfl, rfl, rfl⟩ := List.map_eq_cons_iff.1 hv
      refine ⟨u' ++ v', ?_, .wake hu⟩
      rwa [List.map_append]
    | _ => exact ha.elim
  have hpool : t.pool = p := hs.pool
  have hbuilding : Worker.building? ⟨key, a⟩ = none := by cases a <;> first | rfl | exact ha.elim
  have hloan : Worker.loan? ⟨key, a⟩ = none := by cases a <;> first | rfl | exact ha.elim
  have hlost : Worker.lost? ⟨key, a⟩ = none := by cases a <;> first | rfl | exact ha.elim
  have hspare : Worker.spare? ⟨key, a⟩ = none := by cases a <;> first | rfl | exact ha.elim
  have hserved : Worker.wasServed ⟨key, a⟩ = false := by cases a <;> first | rfl | exact ha.elim
  have hgranted := hs.granted
  rw [Traffic.countP_middle, hserved] at hgranted
  have hspares : ∀ {b : Progress}, Worker.spare? ⟨key, b⟩ = none →
      ((before ++ ⟨key, b⟩ :: after).filterMap Worker.spare?).Subperm t.spare := fun hb =>
    (perm_same (.refl _) (hspare.trans hb.symm)).subperm.trans hs.spare
  refine ⟨_, .single hstep, ?_⟩
  unfold Traffic.ask
  simp only [hpool]
  rcases p.claim key with ⟨claim, q⟩
  cases claim with
  | build =>
    refine ⟨rfl, perm_add hs.building hbuilding rfl, perm_drop hwaiting rfl, perm_same hs.loans hloan.symm,
      perm_same hs.lost hlost.symm, hspares rfl, hs.nextId, ?_, hs.cleared⟩
    rw [Traffic.countP_middle]
    exact hgranted
  | reuse s =>
    refine ⟨rfl, perm_same hs.building hbuilding.symm, perm_drop hwaiting rfl, perm_add hs.loans hloan rfl,
      perm_same hs.lost hlost.symm, hspares rfl, hs.nextId, ?_, hs.cleared⟩
    rw [Traffic.countP_middle]
    exact congrArg (· + 1) hgranted
  | wait =>
    refine ⟨rfl, perm_same hs.building hbuilding.symm, ?_, perm_same hs.loans hloan.symm,
      perm_same hs.lost hlost.symm, hspares rfl, hs.nextId, ?_, hs.cleared⟩
    · exact (hwaiting.cons key).trans (perm_filterMap_middle Worker.waiting? before after ⟨key, .waiting⟩).symm
    · rw [Traffic.countP_middle]
      exact hgranted

section Steps

variable (hassemble : ∀ key id, assemble key id =
  { Sandbox.new id key hierarchy with detectLeaks := detectLeaks, checks := checks })
include hassemble

/-- Whatever a worker does, the users of its pool may do, in a step of theirs. -/
theorem Shows.turn (hs : Shows granted cleared c t) (ht : Turn code assemble c c') :
    ∃ t', Traffic.Later t t' ∧ Shows granted cleared c' t' := by
  cases ht with
  | rest => exact ⟨t, .refl, hs⟩
  | @move before after w b p j hw hmove =>
    obtain ⟨pool, journal, workers⟩ := c
    obtain rfl : workers = before ++ w :: after := hw
    obtain ⟨key, a⟩ := w
    have hpool : t.pool = pool := hs.pool
    have hgranted := hs.granted
    rw [Traffic.countP_middle] at hgranted
    have hserved : ∀ {b : Progress}, Worker.wasServed ⟨key, b⟩ = Worker.wasServed ⟨key, a⟩ →
        t.granted = granted + (before ++ ⟨key, b⟩ :: after).countP Worker.wasServed := by
      intro b hb
      rw [Traffic.countP_middle, hb]
      exact hgranted
    have hspare := (perm_filterMap_middle Worker.spare? before after ⟨key, a⟩).symm.subperm.trans hs.spare
    have hback : ∀ {b : Progress} {l : List Sandbox},
        ((Worker.spare? ⟨key, b⟩).toList ++ (before ++ after).filterMap Worker.spare?).Subperm l →
          ((before ++ ⟨key, b⟩ :: after).filterMap Worker.spare?).Subperm l := fun h =>
      (perm_filterMap_middle Worker.spare? before after _).subperm.trans h
    cases hmove with
    | ask ha => exact hs.ask ha
    | make =>
      have hid : t.nextId = journal.nextSandbox := hs.nextId
      refine ⟨_, .single (.make t key hierarchy detectLeaks checks), ⟨hpool, perm_same hs.building rfl,
        perm_same hs.waiting rfl, perm_same hs.loans rfl, perm_same hs.lost rfl, hback ?_, congrArg (· + 1) hid,
        hserved rfl, hs.cleared⟩⟩
      simp only [hassemble, hid]
      exact (List.subperm_cons _).2 hspare
    | @configure s s' j h =>
      obtain ⟨u, v, hu⟩ := List.append_of_mem (hspare.subset List.mem_cons_self)
      have hhandled : s.Handled s' := by
        have hstep := Sandbox.Handled.operate (s := s) (.configure, journal)
        rwa [Sandbox.step, Sandbox.apply, h] at hstep
      have hnext := s.configure_nextSandbox journal
      rw [h] at hnext
      refine ⟨_, .single (.prepare hu hhandled), ⟨hpool, perm_same hs.building rfl,
        perm_same hs.waiting rfl, perm_same hs.loans rfl, perm_same hs.lost rfl, hback ?_, hs.nextId.trans hnext.symm,
        hserved rfl, hs.cleared⟩⟩
      rw [hu] at hspare
      have hrest := (List.subperm_cons s).1 (hspare.trans List.perm_middle.subperm)
      exact ((List.subperm_cons s').2 hrest).trans List.perm_middle.symm.subperm
    | @giveUp s s' j e h =>
      obtain ⟨u, v, hu, hrest⟩ := exists_split hs.building (b := key) rfl
      have hnext := s.configure_nextSandbox journal
      rw [h] at hnext
      refine ⟨_, .single (.giveUp hu), ⟨congrArg (Pool.abandon · key) hpool, perm_drop hrest rfl,
        perm_same hs.waiting rfl, perm_same hs.loans rfl, perm_same hs.lost rfl,
        hback ((List.sublist_cons_self s _).subperm.trans hspare), hs.nextId.trans hnext.symm, hserved rfl, hs.cleared⟩⟩
    | @enter s =>
      obtain ⟨u, v, hu, hrest⟩ := exists_split hs.building (b := key) rfl
      obtain ⟨u', v', hu'⟩ := List.append_of_mem (hspare.subset List.mem_cons_self)
      refine ⟨_, .single (.finish hu hu'), ⟨?_, perm_drop hrest rfl, perm_same hs.waiting rfl,
        perm_add hs.loans rfl rfl, perm_same hs.lost rfl, hback ?_, hs.nextId, ?_, hs.cleared⟩⟩
      · exact congrArg (fun p : Pool => (p.finishBuild key).2) hpool
      · rw [hu'] at hspare
        exact (List.subperm_cons s).1 (hspare.trans List.perm_middle.subperm)
      · rw [Traffic.countP_middle]
        exact congrArg (· + 1) hgranted
    | @tidy s s' j h =>
      obtain ⟨u, v, hu, hrest⟩ := exists_split hs.loans (b := ⟨key, s, false⟩) rfl
      have hnext := Pool.tidy_nextSandbox code s journal
      rw [h] at hnext
      refine ⟨_, .single (.tidy hu h), ⟨hpool, perm_same hs.building rfl, perm_same hs.waiting rfl, ?_,
        perm_same hs.lost rfl, hback hspare, hs.nextId.trans hnext.symm, hserved rfl, hs.cleared⟩⟩
      have hafter := (perm_filterMap_middle Worker.loan? before after ⟨key, .returning s'⟩).symm
      exact (List.perm_middle.trans (hrest.cons _)).trans hafter
    | @lose s s' j payload h =>
      obtain ⟨u, v, hu, hrest⟩ := exists_split hs.loans (b := ⟨key, s, false⟩) rfl
      have hnext := Pool.tidy_nextSandbox code s journal
      rw [h] at hnext
      refine ⟨_, .single (.lose hu h), ⟨hpool, perm_same hs.building rfl, perm_same hs.waiting rfl,
        perm_drop hrest rfl, perm_add hs.lost rfl rfl, hback hspare, hs.nextId.trans hnext.symm, hserved rfl,
        hs.cleared⟩⟩
    | @putBack s =>
      obtain ⟨u, v, hu, hrest⟩ := exists_split hs.loans (b := ⟨key, s, true⟩) rfl
      refine ⟨_, .single (.putBack hu), ⟨?_, perm_same hs.building rfl, perm_same hs.waiting rfl,
        perm_drop hrest rfl, perm_same hs.lost rfl, hback hspare, hs.nextId, hserved rfl, hs.cleared⟩⟩
      exact congrArg (fun p : Pool => (p.putBack key s).2) hpool

/-- So is every interleaving of a crew one of the users of its pool. -/
theorem Shows.run (hs : Shows granted cleared c t) (schedule : List Nat) :
    ∃ t', Traffic.Later t t' ∧ Shows granted cleared (c.run code assemble schedule) t' := by
  refine run_kept (P := fun c => ∃ t', Traffic.Later t t' ∧ Shows granted cleared c t') ?_ ⟨t, .refl, hs⟩ schedule
  rintro c c' ⟨t', hlater, hshows⟩ hturn
  obtain ⟨t'', hstep, hafter⟩ := hshows.turn hassemble hturn
  exact ⟨t'', hlater.trans hstep, hafter⟩

end Steps

/-! ## A crew on its own -/

/-- A pool that nobody uses yet. -/
def unused (p : Pool) (j : Journal) (granted cleared : Nat) : Traffic :=
  ⟨p, [], [], [], [], [], [], j.nextSandbox, granted, cleared⟩

theorem shows_new (p : Pool) (j : Journal) (keys : List SandboxKey) (granted cleared : Nat) :
    Shows granted cleared (new p j keys) (unused p j granted cleared) := by
  have hnone : ∀ {β : Type} (f : Worker → Option β), (∀ key, f ⟨key, .fresh⟩ = none) →
      (new p j keys).workers.filterMap f = [] := by
    intro β f hf
    rw [List.filterMap_eq_nil_iff]
    intro w hw
    obtain ⟨key, _, rfl⟩ := List.mem_map.1 hw
    exact hf key
  refine ⟨rfl, ?_, ?_, ?_, ?_, ?_, rfl, ?_, rfl⟩
  · rw [hnone Worker.building? fun _ => rfl]
    exact .refl _
  · rw [hnone Worker.waiting? fun _ => rfl]
    exact .refl _
  · rw [hnone Worker.loan? fun _ => rfl]
    exact .refl _
  · rw [hnone Worker.lost? fun _ => rfl]
    exact .refl _
  · rw [hnone Worker.spare? fun _ => rfl]
    exact List.nil_subperm
  · have hserved : (new p j keys).workers.countP Worker.wasServed = 0 := by
      rw [List.countP_eq_zero]
      intro w hw
      obtain ⟨key, _, rfl⟩ := List.mem_map.1 hw
      exact Bool.false_ne_true
    rw [hserved]
    rfl

/-- If no sandbox is in two places before, none is so afterwards. -/
theorem apart_run (code : Code) (hassemble : ∀ key id, assemble key id =
      { Sandbox.new id key hierarchy with detectLeaks := detectLeaks, checks := checks })
    {p : Pool} {j : Journal} (hp : p.Apart j.nextSandbox) (keys : List SandboxKey) (schedule : List Nat) :
    let c := (new p j keys).run code assemble schedule
    c.pool.Apart c.journal.nextSandbox := by
  intro c
  have hunused : (unused p j 0 0).Distinct :=
    ⟨(Pool.tally_holds_le_one_iff p).2 hp.once, fun id hid => hp.tally_eq_zero hid⟩
  obtain ⟨t, hlater, hshows⟩ : ∃ t, Traffic.Later (unused p j 0 0) t ∧ Shows 0 0 c t :=
    (shows_new p j keys 0 0).run hassemble schedule
  have hdistinct := hlater.kept Traffic.Distinct.step hunused
  have hle : ∀ id, c.pool.tally (Slot.holds id) ≤ t.copies id := by
    intro id
    rw [← hshows.pool, Traffic.copies, Nat.add_assoc]
    exact Nat.le_add_right _ _
  refine ⟨(Pool.tally_holds_le_one_iff c.pool).1 fun id => Nat.le_trans (hle id) (hdistinct.once id), ?_⟩
  intro key s hs
  by_contra hnext
  have hnone := hdistinct.issued s.id (hshows.nextId ▸ Nat.le_of_not_lt hnext)
  have hone := Pool.tallyAt_holds hs
  have hat := c.pool.tallyAt_le_tally (Slot.holds s.id) key
  have hall := hle s.id
  omega

end Crew

end Interpose
