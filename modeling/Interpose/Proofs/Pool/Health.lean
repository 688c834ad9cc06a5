import Interpose.Proofs.Pool.Exclusivity
import Interpose.Proofs.Sandbox.Fitness

/-!
# What an idle sandbox is worth

A sandbox comes into a pool only after it was found to be pristine or was reset, and nobody touches it there. So every
idle sandbox can be used, and the next user starts from what is declared. There are no more idle and leased sandboxes
together than wanted unless none is idle.
-/

namespace Interpose

namespace Sandbox

/-- A sandbox that can be used and is as its hierarchy declares it. -/
structure AsNew (s : Sandbox) : Prop where
  poisoned : s.poisoned = false
  stage : s.stage = .configured ∨ s.stage = .idle
  pristine : s.memory.isPristine = true
  declared : s.memory.AsDeclared s.hierarchy

variable {s s' : Sandbox}

theorem Intact.handled (hs : s.Intact) (h : s.Handled s') : s'.Intact := by
  cases h with
  | operate x => exact hs.step x
  | touch op => exact hs.touch op

theorem Intact.asNew (hs : s.Intact) (hreusable : Pool.isReusable s = true) (hpristine : s.memory.isPristine = true) :
    s.AsNew := by
  rw [Pool.isReusable, Bool.and_eq_true, Bool.not_eq_true'] at hreusable
  obtain ⟨hpoisoned, hstage⟩ := hreusable
  refine ⟨hpoisoned, ?_, hpristine, (hs.fits hstage).asDeclared hpristine⟩
  rw [Stage.acceptsRegistry, Bool.or_eq_true, decide_eq_true_eq, decide_eq_true_eq] at hstage
  exact hstage

end Sandbox

namespace Pool

variable {p q : Pool} {key k : SandboxKey} {old new : Option Slot} {counts : PoolCounts}

theorem intact_tidy {s : Sandbox} (hs : s.Intact) (code : Code) (j : Journal) : (tidy code s j).2.1.Intact := by
  obtain hsame | hreset := tidy_sandbox code s j
  · rw [hsame]
    exact hs
  · rw [hreset]
    exact hs.step _

/-- A sandbox that is ready to be put back and can be used again has no violations. -/
theorem isPristine_of_tidy {code : Code} {s s' : Sandbox} {j j' : Journal}
    (h : tidy code s j = (.done (), s', j')) (hreusable : isReusable s' = true) : s'.memory.isPristine = true := by
  rw [isReusable, Bool.and_eq_true, Bool.not_eq_true'] at hreusable
  obtain ⟨hpoisoned, hstage⟩ := hreusable
  unfold tidy at h
  split at h
  · rename_i hdirty
    rw [Bool.and_eq_true] at hdirty
    rcases hr : s.reset code j with ⟨outcome, s₁, j₁⟩
    rw [hr] at h
    cases outcome with
    | panicked payload => cases h
    | unfinished => cases h
    | done answer =>
      obtain ⟨rfl, rfl⟩ : s₁ = s' ∧ j₁ = j' := by
        cases h
        exact ⟨rfl, rfl⟩
      have hunpoisoned : s.poisoned = false := by
        cases hp : s.poisoned with
        | false => rfl
        | true =>
          rw [Sandbox.reset, Sandbox.rejection?, if_pos hp] at hr
          cases hr
          rw [hp] at hpoisoned
          cases hpoisoned
      have hrej := Sandbox.rejection?_eq_none hunpoisoned hdirty.1 "reset"
      have hdone : (s.reset code j).1 = .done answer := by rw [hr]
      obtain ⟨m, _, hreset | hleak⟩ := Sandbox.reset_spec hrej hdone
      · rw [hr] at hreset
        obtain rfl : s₁ = _ := hreset
        exact Memory.isPristine_reset m.memory
      · rw [hr] at hleak
        rw [show s₁.poisoned = true from hleak] at hpoisoned
        cases hpoisoned
  · rename_i hclean
    cases h
    cases hpristine : s.memory.isPristine with
    | true => rfl
    | false =>
      rw [hstage, hpristine] at hclean
      exact absurd rfl hclean

/-- After a change of one slot, an idle sandbox was idle before or it is the one that came in. -/
theorem Rebooks.idle (h : p.Rebooks key old new counts q) {s : Sandbox} {released : Nat}
    (hidle : q.slots.get? k = some (.idle s released)) :
    new = some (.idle s released) ∨ p.slots.get? k = some (.idle s released) := by
  by_cases hk : k = key
  · rw [hk] at hidle
    obtain hslot | ⟨hgone, _⟩ := h.slot
    · exact .inl (hslot.symm.trans hidle)
    · rw [hgone] at hidle
      cases hidle
  · obtain hslot | ⟨hgone, _⟩ := h.others k hk
    · exact .inr (hslot.symm.trans hidle)
    · rw [hgone] at hidle
      cases hidle

theorem Thins.idle (h : p.Thins q) {s : Sandbox} {released : Nat}
    (hidle : q.slots.get? k = some (.idle s released)) : p.slots.get? k = some (.idle s released) := by
  obtain hslot | ⟨hgone, _⟩ := h.slots k
  · exact hslot.symm.trans hidle
  · rw [hgone] at hidle
    cases hidle

/-! ## The bound -/

/-- Idle and leased sandboxes together are no more than wanted unless none is idle. -/
def Bounded (p : Pool) : Prop := p.idleCount = 0 ∨ p.idleCount + p.tally Slot.isLeased ≤ p.max

theorem Settled.bounded (h : p.Settled) : p.Bounded := by
  have hslots : ∀ slots : List Slot, slots.countP Slot.isIdle + slots.countP Slot.isLeased ≤ slots.length := by
    intro slots
    induction slots with
    | nil => exact Nat.le_refl _
    | cons slot rest ih =>
      rw [List.countP_cons, List.countP_cons, List.length_cons]
      cases slot <;> simp [Slot.isIdle, Slot.idle?, Slot.isLeased] <;> omega
  refine h.symm.imp_right fun hsize => ?_
  have hle := hslots p.slots.values
  rw [Table.values, List.length_map] at hle
  rw [idleCount_eq_tally]
  exact Nat.le_trans hle hsize

/-- A change of one slot keeps the bound if no sandbox comes to be idle and none more to be leased. -/
theorem Bounded.rebook (hp : p.Bounded) (h : p.Rebooks key old new counts q)
    (hidle : Slot.count Slot.isIdle new = 0)
    (hsum : Slot.count Slot.isLeased new ≤ Slot.count Slot.isIdle old + Slot.count Slot.isLeased old) :
    q.Bounded := by
  have hle := h.le Slot.isIdle
  have hleased := h.le Slot.isLeased
  have hmax := h.max
  unfold Bounded at hp ⊢
  rw [idleCount_eq_tally] at hp ⊢
  omega

end Pool

namespace Traffic

open Pool Sandbox

variable {max : Nat} {t t' : Traffic} {key : SandboxKey} {old new : Option Slot} {counts : PoolCounts}

theorem bounded_asks (hp : t.pool.Bounded) (hasks : t.Asks key t') : t'.pool.Bounded := by
  cases hasks with
  | build h => exact hp.rebook h rfl (Nat.zero_le _)
  | reuse h => exact hp.rebook h rfl (Nat.le_refl _)
  | wait h => exact hp

theorem bounded_step (hp : t.pool.Bounded) (hb : t.Balanced max) (hstep : Step t t') : t'.pool.Bounded := by
  cases hstep with
  | ask key => exact bounded_asks hp (asks_ask t key)
  | @wake before after w h =>
    have hwoken : Bounded { t with waiting := before ++ after }.pool := hp
    exact bounded_asks hwoken (asks_ask _ w.key)
  | make | prepare | use | tidy | lose | notify => exact hp
  | @finish before after key before' after' s h hs =>
    have hslot := hb.slot_of_builds h
    exact (rebooks_finishBuild hslot).2.bounded
  | @giveUp before after key h =>
    have hslot := hb.slot_of_builds h
    exact hp.rebook (rebooks_abandon hslot) rfl (Nat.zero_le _)
  | @putBack before after key s h =>
    have hslot := hb.slot_of_lends h
    obtain ⟨_, _, hsettled⟩ | ⟨_, hdiscard⟩ := rebooks_putBack hslot s
    · exact hsettled.bounded
    · exact hp.rebook hdiscard rfl (Nat.zero_le _)
  | clear => exact .inl t.pool.clear_spec.2.2.1

/-! ## The state of the sandboxes -/

/-- Idle sandboxes are as new, and a sandbox that is ready to be put back is so if it can be used again. -/
structure Healthy (t : Traffic) : Prop where
  idle : ∀ key s released, t.pool.slots.get? key = some (.idle s released) → s.Intact ∧ s.AsNew
  loans : ∀ loan ∈ t.loans, loan.sandbox.Intact ∧
    (loan.returning = true → isReusable loan.sandbox = true → loan.sandbox.AsNew)
  spare : ∀ s ∈ t.spare, s.Intact

theorem healthy_new (max : Nat) : (Traffic.new max).Healthy :=
  ⟨fun _ _ _ h => (by cases h), fun _ h => (by cases h), fun _ h => by cases h⟩

/-- What holds of the items of a list holds of those that are left when one is taken out. -/
theorem forall_mem_middle {α : Type} {P : α → Prop} {before after : List α} {x : α} :
    (∀ y ∈ before ++ x :: after, P y) ↔ P x ∧ ∀ y ∈ before ++ after, P y := by
  simp only [List.mem_append, List.mem_cons]
  exact ⟨fun h => ⟨h x (.inr (.inl rfl)), fun y hy => h y (hy.imp_right .inr)⟩,
    fun ⟨hx, h⟩ y hy => hy.elim (fun hy => h y (.inl hy)) fun hy => hy.elim (· ▸ hx) fun hy => h y (.inr hy)⟩

/-- After a change of one slot the idle sandboxes are as new if the one that came in is. -/
theorem Healthy.idle_rebook (hh : t.Healthy) {p : Pool} (hp : t.pool.Rebooks key old new counts p)
    (hnew : ∀ s released, new = some (.idle s released) → s.Intact ∧ s.AsNew) (k : SandboxKey) (s : Sandbox)
    (released : Nat) (hidle : p.slots.get? k = some (.idle s released)) : s.Intact ∧ s.AsNew :=
  (hp.idle hidle).elim (hnew s released) (hh.idle k s released)

theorem Healthy.asks (hh : t.Healthy) (hasks : t.Asks key t') : t'.Healthy := by
  cases hasks with
  | build h =>
    exact ⟨hh.idle_rebook h (by simp), hh.loans, hh.spare⟩
  | reuse h =>
    refine ⟨hh.idle_rebook h (by simp), fun loan hloan => ?_, hh.spare⟩
    cases List.mem_cons.1 hloan with
    | inl hself =>
      rw [hself]
      exact ⟨(hh.idle key _ _ h.was).1, fun hreturning => by cases hreturning⟩
    | inr hother => exact hh.loans loan hother
  | wait h => exact ⟨hh.idle, hh.loans, hh.spare⟩

theorem Healthy.step (hh : t.Healthy) (hb : t.Balanced max) (hstep : Step t t') : t'.Healthy := by
  cases hstep with
  | ask key => exact hh.asks (asks_ask t key)
  | @wake before after w h =>
    have hwoken : Healthy { t with waiting := before ++ after } := ⟨hh.idle, hh.loans, hh.spare⟩
    exact hwoken.asks (asks_ask _ w.key)
  | make key h detectLeaks checks =>
    refine ⟨hh.idle, hh.loans, fun s hs => ?_⟩
    cases List.mem_cons.1 hs with
    | inl hself =>
      rw [hself]
      exact intact_new t.nextId key h detectLeaks checks
    | inr hother => exact hh.spare s hother
  | prepare h hs =>
    have hspare := hh.spare
    rw [h, forall_mem_middle] at hspare
    exact ⟨hh.idle, hh.loans, forall_mem_middle.2 ⟨hspare.1.handled hs, hspare.2⟩⟩
  | @finish before after key before' after' s h hs =>
    have hslot := hb.slot_of_builds h
    have hspare := hh.spare
    rw [hs, forall_mem_middle] at hspare
    refine ⟨hh.idle_rebook (rebooks_finishBuild hslot).1 (by simp), fun loan hloan => ?_, hspare.2⟩
    cases List.mem_cons.1 hloan with
    | inl hself =>
      rw [hself]
      exact ⟨hspare.1, fun hreturning => by cases hreturning⟩
    | inr hother => exact hh.loans loan hother
  | @giveUp before after key h =>
    have hslot := hb.slot_of_builds h
    exact ⟨hh.idle_rebook (rebooks_abandon hslot) (by simp), hh.loans, hh.spare⟩
  | use h hs =>
    have hloans := hh.loans
    rw [h, forall_mem_middle] at hloans
    obtain ⟨⟨hintact, _⟩, hothers⟩ := hloans
    exact ⟨hh.idle, forall_mem_middle.2 ⟨⟨hintact.handled hs, fun hreturning => by cases hreturning⟩, hothers⟩,
      hh.spare⟩
  | @tidy before after key s s' code j j' h htidy =>
    have hloans := hh.loans
    rw [h, forall_mem_middle] at hloans
    obtain ⟨⟨hintact, _⟩, hothers⟩ := hloans
    have htidied := intact_tidy hintact code j
    rw [htidy] at htidied
    exact ⟨hh.idle, forall_mem_middle.2
      ⟨⟨htidied, fun _ hreusable => htidied.asNew hreusable (isPristine_of_tidy htidy hreusable)⟩, hothers⟩, hh.spare⟩
  | lose h htidy =>
    have hloans := hh.loans
    rw [h, forall_mem_middle] at hloans
    exact ⟨hh.idle, hloans.2, hh.spare⟩
  | @putBack before after key s h =>
    have hslot := hb.slot_of_lends h
    have hloans := hh.loans
    rw [h, forall_mem_middle] at hloans
    obtain ⟨⟨hintact, hready⟩, hothers⟩ := hloans
    obtain ⟨hreusable, ⟨_, hp⟩, _⟩ | ⟨_, hp⟩ := rebooks_putBack hslot s
    · refine ⟨hh.idle_rebook hp fun s' released hnew => ?_, hothers, hh.spare⟩
      cases hnew
      exact ⟨hintact, hready rfl hreusable⟩
    · exact ⟨hh.idle_rebook hp (by simp), hothers, hh.spare⟩
  | notify => exact ⟨hh.idle, hh.loans, hh.spare⟩
  | clear => exact ⟨fun k s released hidle => hh.idle k s released (t.pool.clear_spec.1.idle hidle), hh.loans, hh.spare⟩

theorem Reached.healthy (ht : Reached max t) : t.pool.Bounded ∧ t.Healthy :=
  (ht.of_kept (P := fun t => t.Balanced max ∧ t.pool.Bounded ∧ t.Healthy)
    ⟨balanced_new max, .inl rfl, healthy_new max⟩
    fun ⟨hb, hp, hh⟩ hstep => ⟨hb.step hstep, bounded_step hp hb hstep, hh.step hb hstep⟩).2

/-! ## The main result -/

/-- Take a pool of any size, zero included, and whatever any number of users do with it, in any order, and whatever
they do with the sandboxes that they build or lease. After every step no sandbox is idle, or the idle sandboxes and the
leases, those whose drop panicked included, are no more together than wanted. Every idle sandbox is unpoisoned, can be
used and is pristine: each static field has its declared value, as values are compared, there is no other, and there
are neither static fields of shadows nor objects. So is a sandbox that a claim is served with. -/
theorem idle_asNew (ht : Reached max t) :
    (t.pool.idleCount = 0 ∨ t.pool.idleCount + (t.loans.length + t.lost.length) ≤ max) ∧
    (∀ key s released, t.pool.slots.get? key = some (.idle s released) → s.AsNew) ∧
    ∀ key s, (t.pool.claim key).1 = .reuse s → s.AsNew := by
  have hb := ht.balanced
  obtain ⟨hbounded, hhealthy⟩ := ht.healthy
  refine ⟨?_, fun key s released hidle => (hhealthy.idle key s released hidle).2, fun key s hclaim => ?_⟩
  · rw [← hb.outstanding, ← hb.max]
    exact hbounded
  · have hclaims := t.pool.claims_claim key
    rw [hclaim] at hclaims
    cases hclaims with
    | reuse h => exact (hhealthy.idle key s _ h.was).2

/-- The sandbox that the first user put back is idle, and the second user finds it as new. -/
theorem idle_asNew_two_users :
    Reached 1 Sample.returned ∧ Sample.returned.pool.idleCount = 1 ∧
      Sample.returned.pool.idleCount + (Sample.returned.loans.length + Sample.returned.lost.length) ≤ 1 ∧
      ∃ s, (Sample.returned.pool.claim Sample.pooled).1 = .reuse s ∧ s.AsNew := by
  obtain ⟨hbound, _, hserved⟩ := idle_asNew Sample.reached_returned
  have hidle : Sample.returned.pool.idleCount = 1 := by decide
  have hclaim : (Sample.returned.pool.claim Sample.pooled).1 = .reuse Sample.configured := rfl
  refine ⟨Sample.reached_returned, hidle, hbound.resolve_left ?_, Sample.configured, hclaim,
    hserved Sample.pooled Sample.configured hclaim⟩
  rw [hidle]
  exact Nat.one_ne_zero

end Traffic

end Interpose
