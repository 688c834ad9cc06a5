import Interpose.Proofs.Pool.Exclusivity

/-!
# Nobody waits for nothing

All users who wait share one condition variable, and whoever took a slot out of use notifies them after the lock was
released. So there are moments at which a sandbox is idle or gone and users still wait for it unnotified. At each of
them the user who took the slot out of use has still to notify.
-/

namespace Interpose

namespace Pool

variable {p q : Pool} {key k : SandboxKey} {old new : Option Slot} {counts : PoolCounts}

def IsInUse (p : Pool) (key : SandboxKey) : Prop :=
  p.slots.get? key = some .building ∨ p.slots.get? key = some .leased

theorem not_isInUse_of_idle {s : Sandbox} {released : Nat} (h : p.slots.get? key = some (.idle s released)) :
    ¬p.IsInUse key := by
  unfold IsInUse
  rw [h]
  rintro (hslot | hslot) <;> cases hslot

theorem Thins.isInUse (h : p.Thins q) (hp : p.IsInUse k) : q.IsInUse k := by
  obtain hkept | ⟨_, s, released, hidle⟩ := h.slots k
  · rw [IsInUse, hkept]
    exact hp
  · exact absurd hp (not_isInUse_of_idle hidle)

theorem Rebooks.isInUse_of_ne (h : p.Rebooks key old new counts q) (hk : k ≠ key) (hp : p.IsInUse k) :
    q.IsInUse k := by
  obtain hkept | ⟨_, s, released, hidle⟩ := h.others k hk
  · rw [IsInUse, hkept]
    exact hp
  · exact absurd hp (not_isInUse_of_idle hidle)

theorem Rebooks.isInUse (h : p.Rebooks key old new counts q) (hnew : new = some .building ∨ new = some .leased) :
    q.IsInUse key := by
  obtain hslot | ⟨_, s, released, hidle⟩ := h.slot
  · rw [IsInUse, hslot]
    exact hnew
  · rw [hidle] at hnew
    obtain hnew | hnew := hnew <;> cases hnew

end Pool

namespace Traffic

open Pool

variable {max : Nat} {t t' : Traffic} {key : SandboxKey} {old new : Option Slot} {counts : PoolCounts}

/-- Whoever waits unnotified waits for a slot in use, or somebody has still to notify. -/
def Awaited (t : Traffic) : Prop :=
  ∀ w ∈ t.waiting, w.notified = false → t.pool.IsInUse w.key ∨ w.key ∈ t.notices

theorem awaited_new (max : Nat) : (Traffic.new max).Awaited := fun w hw => by cases hw

/-- A step that changes one slot puts it into use, or its user has to notify. -/
theorem Awaited.rebook (ha : t.Awaited) (hp : t.pool.Rebooks key old new counts t'.pool)
    (hwaiting : t'.waiting = t.waiting) (hnotices : ∀ k ∈ t.notices, k ∈ t'.notices)
    (hkey : (new = some .building ∨ new = some .leased) ∨ key ∈ t'.notices) : t'.Awaited := by
  intro w hw hn
  by_cases hk : w.key = key
  · rw [hk]
    exact hkey.imp_left hp.isInUse
  · rw [hwaiting] at hw
    exact (ha w hw hn).imp (hp.isInUse_of_ne hk) (hnotices w.key)

theorem Awaited.asks (ha : t.Awaited) (hasks : t.Asks key t') : t'.Awaited := by
  cases hasks with
  | build h => exact ha.rebook h rfl (fun _ h => h) (.inl (.inl rfl))
  | reuse h => exact ha.rebook h rfl (fun _ h => h) (.inl (.inr rfl))
  | wait h =>
    intro w hw hn
    cases List.mem_cons.1 hw with
    | inl hself =>
      rw [hself]
      exact .inl h
    | inr hother => exact ha w hother hn

theorem Awaited.step (ha : t.Awaited) (hb : t.Balanced max) (hstep : Step t t') : t'.Awaited := by
  cases hstep with
  | ask key => exact ha.asks (asks_ask t key)
  | @wake before after w h =>
    have hwoken : Awaited { t with waiting := before ++ after } := by
      intro w' hw'
      refine ha w' ?_
      rw [h]
      exact (List.mem_append.1 hw').elim (List.mem_append_left _)
        fun hafter => List.mem_append_right _ (List.mem_cons_of_mem _ hafter)
    exact hwoken.asks (asks_ask _ w.key)
  | make | prepare | use | tidy | lose => exact ha
  | @finish before after key before' after' s h hs =>
    have hslot := hb.slot_of_builds h
    exact ha.rebook (rebooks_finishBuild hslot).1 rfl (fun _ h => h) (.inl (.inr rfl))
  | @giveUp before after key h =>
    have hslot := hb.slot_of_builds h
    exact ha.rebook (rebooks_abandon hslot) rfl (fun _ => List.mem_cons_of_mem _) (.inr List.mem_cons_self)
  | @putBack before after key s h =>
    have hslot := hb.slot_of_lends h
    obtain ⟨_, ⟨released, hp⟩, _⟩ | ⟨_, hp⟩ := rebooks_putBack hslot s
    · exact ha.rebook hp rfl (fun _ => List.mem_cons_of_mem _) (.inr List.mem_cons_self)
    · exact ha.rebook hp rfl (fun _ => List.mem_cons_of_mem _) (.inr List.mem_cons_self)
  | notify h =>
    intro w hw hn
    obtain ⟨_, _, rfl⟩ := List.mem_map.1 hw
    cases hn
  | clear =>
    intro w hw hn
    exact (ha w hw hn).imp_left t.pool.clear_spec.1.isInUse

theorem Reached.awaited (ht : Reached max t) : t.Awaited :=
  (ht.of_kept (P := fun t => t.Balanced max ∧ t.Awaited) ⟨balanced_new max, awaited_new max⟩
    fun h hstep => ⟨h.1.step hstep, h.2.step h.1 hstep⟩).2

/-! ## The main result -/

/-- Take a pool of any size and whatever any number of users do with it, in any order. At any time, a user who waits
for a key and was not notified since it began to wait waits for a sandbox that somebody is building, for one that is
leased, or for a user who changed the slot and has still to notify. A lease whose drop panicked counts as leased for
ever. If no user builds, has a lease or has still to notify, and no lease was lost, then all who wait were notified. -/
theorem no_lost_wakeup (ht : Reached max t) :
    (∀ w ∈ t.waiting, w.notified = false →
      (t.pool.slots.get? w.key = some .building ∧ w.key ∈ t.building) ∨
      (t.pool.slots.get? w.key = some .leased ∧ ((∃ loan ∈ t.loans, loan.key = w.key) ∨ w.key ∈ t.lost)) ∨
      w.key ∈ t.notices) ∧
    (t.building = [] → t.loans = [] → t.lost = [] → t.notices = [] → ∀ w ∈ t.waiting, w.notified = true) := by
  have hb := ht.balanced
  have hawaited : ∀ w ∈ t.waiting, w.notified = false →
      (t.pool.slots.get? w.key = some .building ∧ w.key ∈ t.building) ∨
      (t.pool.slots.get? w.key = some .leased ∧ ((∃ loan ∈ t.loans, loan.key = w.key) ∨ w.key ∈ t.lost)) ∨
      w.key ∈ t.notices := by
    intro w hw hn
    obtain (hslot | hslot) | hnotice := ht.awaited w hw hn
    · have hcount := hb.slot_eq_building_iff.1 hslot
      exact .inl ⟨hslot, List.count_pos_iff.1 (by omega)⟩
    · have hcount := hb.slot_eq_leased_iff.1 hslot
      refine .inr (.inl ⟨hslot, ?_⟩)
      by_cases hlost : w.key ∈ t.lost
      · exact .inr hlost
      · rw [List.count_eq_zero.2 hlost] at hcount
        obtain ⟨loan, hloan, hkey⟩ := List.countP_pos_iff.1 (Nat.lt_of_lt_of_eq Nat.zero_lt_one hcount.symm)
        exact .inl ⟨loan, hloan, (of_decide_eq_true hkey).symm⟩
    · exact .inr (.inr hnotice)
  refine ⟨hawaited, fun hbuilding hloans hlost hnotices w hw => ?_⟩
  cases hn : w.notified with
  | true => rfl
  | false =>
    obtain ⟨_, hbuilds⟩ | ⟨_, ⟨loan, hloan, _⟩ | hgone⟩ | hnotice := hawaited w hw hn
    · rw [hbuilding] at hbuilds
      cases hbuilds
    · rw [hloans] at hloan
      cases hloan
    · rw [hlost] at hgone
      cases hgone
    · rw [hnotices] at hnotice
      cases hnotice

/-- The second user waits while the first one has the sandbox. After this was put back it is idle, and the second user
is still to be notified. -/
theorem no_lost_wakeup_two_users :
    Reached 1 Sample.lent ∧ Reached 1 Sample.returned ∧
      (∃ w ∈ Sample.lent.waiting, w.notified = false ∧ Sample.lent.pool.slots.get? w.key = some .leased) ∧
      ∃ w ∈ Sample.returned.waiting, w.notified = false ∧ (Sample.returned.pool.idleAt? w.key).isSome = true ∧
        w.key ∈ Sample.returned.notices := by
  let w : Waiter := ⟨Sample.pooled, false⟩
  have hwaits : w ∈ Sample.lent.waiting := List.mem_singleton_self w
  have hwaits' : w ∈ Sample.returned.waiting := List.mem_singleton_self w
  have hidle : (Sample.returned.pool.idleAt? Sample.pooled).isSome = true := by decide
  refine ⟨Sample.reached_lent, Sample.reached_returned, ⟨w, hwaits, rfl, ?_⟩, w, hwaits', rfl, hidle, ?_⟩
  · obtain ⟨_, hbuilds⟩ | ⟨hslot, _⟩ | hnotice := (no_lost_wakeup Sample.reached_lent).1 w hwaits rfl
    · cases hbuilds
    · exact hslot
    · cases hnotice
  · obtain ⟨_, hbuilds⟩ | ⟨_, ⟨loan, hloan, _⟩ | hgone⟩ | hnotice :=
      (no_lost_wakeup Sample.reached_returned).1 w hwaits' rfl
    · cases hbuilds
    · cases hloan
    · cases hgone
    · exact hnotice

end Traffic

end Interpose
