import Interpose.Pool.Basic
import Interpose.Proofs.Sandbox.Operations

/-!
# Which sandboxes wait in a pool

Of the operations of a pool only the return of a sandbox that can be used again makes one wait. All others leave
the sandboxes that wait where they are or take them out, however they end.
-/

namespace Interpose.Pool

open Sandbox

theorem idleAt?_put (p : Pool) (key : SandboxKey) (slot : Slot) (tick : Nat) (counts : PoolCounts)
    (k : SandboxKey) :
    ({ p with slots := p.slots.put key slot, tick := tick, counts := counts } : Pool).idleAt? k =
      if k = key then slot.idle?.map (·.1) else p.idleAt? k := by
  unfold idleAt?
  rw [Table.get?_put]
  by_cases hk : k = key
  · rw [if_pos hk, if_pos hk]
    rfl
  · rw [if_neg hk, if_neg hk]

theorem idleAt?_erase (p : Pool) (key : SandboxKey) (counts : PoolCounts) (k : SandboxKey) :
    ({ p with slots := p.slots.erase key, counts := counts } : Pool).idleAt? k =
      if k = key then none else p.idleAt? k := by
  unfold idleAt?
  rw [Table.get?_erase]
  by_cases hk : k = key
  · rw [if_pos hk, if_pos hk]
    rfl
  · rw [if_neg hk, if_neg hk]

/-- Making room takes sandboxes out and nothing else. -/
theorem idleAt?_evictUpTo {n : Nat} {p : Pool} {k : SandboxKey} {s : Sandbox}
    (h : (evictUpTo n p).2.idleAt? k = some s) : p.idleAt? k = some s := by
  induction n generalizing p with
  | zero => exact h
  | succ n ih =>
    unfold evictUpTo at h
    split at h
    · split at h
      · rename_i key _
        have hrest : (p.evictKey key).idleAt? k = some s := ih h
        rw [evictKey, idleAt?_erase] at hrest
        split at hrest
        · cases hrest
        · exact hrest
      · exact h
    · exact h

theorem idleAt?_evict {p : Pool} {k : SandboxKey} {s : Sandbox} (h : p.evict.2.idleAt? k = some s) :
    p.idleAt? k = some s := idleAt?_evictUpTo h

/-! ## Asking for a sandbox -/

/-- A claim takes the sandbox of its key, if one waits, and leaves the others. -/
theorem idleAt?_claim (p : Pool) (key k : SandboxKey) :
    (p.claim key).2.idleAt? k = if k = key then none else p.idleAt? k := by
  unfold claim
  split
  · exact idleAt?_put p key .building p.tick p.counts k
  · exact idleAt?_put p key .leased p.tick _ k
  all_goals
    rename_i hslot
    by_cases hk : k = key
    · rw [if_pos hk, hk]
      unfold idleAt?
      rw [hslot]
      rfl
    · rw [if_neg hk]
      rfl

theorem claim_reuse {p : Pool} {key : SandboxKey} {s : Sandbox} (h : (p.claim key).1 = .reuse s) :
    p.idleAt? key = some s := by
  unfold claim at h
  split at h
  · cases h
  · rename_i hslot
    cases h
    unfold idleAt?
    rw [hslot]
    rfl
  · cases h
  · cases h

/-- After asking for a key, however that ends, no sandbox waits under it, and none that did not wait before. -/
theorem idleAt?_acquire {p : Pool} {key k : SandboxKey} {build : Builder} {j : Journal} {s : Sandbox}
    (h : (p.acquire key build j).2.1.idleAt? k = some s) : k ≠ key ∧ p.idleAt? k = some s := by
  have hclaim := idleAt?_claim p key k
  have hfinal : (p.claim key).2.idleAt? k = some s := by
    unfold acquire at h
    split at h
    · rename_i hc
      rw [hc]
      exact h
    · rename_i hc
      rw [hc]
      exact h
    · rename_i hc
      rw [hc]
      have hkept {q : Pool} (hq : (q.abandon key).idleAt? k = some s) : q.idleAt? k = some s := by
        have herase := (idleAt?_erase q key q.counts k).symm.trans hq
        split at herase
        · cases herase
        · exact herase
      split at h
      · have hput := idleAt?_evict h
        rw [idleAt?_put] at hput
        split at hput
        · cases hput
        · exact hput
      all_goals exact hkept h
  rw [hclaim] at hfinal
  split at hfinal
  · cases hfinal
  · rename_i hk
    exact ⟨hk, hfinal⟩

/-! ## Giving a sandbox back -/

/-- Nothing is done to a sandbox that is as declared, or that can not be reset. -/
theorem tidy_eq_self {code : Code} {s : Sandbox} {j : Journal}
    (h : s.poisoned = false → s.stage.acceptsRegistry = true → s.memory.isPristine = true) :
    tidy code s j = (.done (), s, j) := by
  unfold tidy
  split
  · rename_i hdirty
    rw [Bool.and_eq_true, Bool.not_eq_true'] at hdirty
    have hpoisoned : s.poisoned = true := by
      cases hp : s.poisoned with
      | true => rfl
      | false =>
        rw [h hp hdirty.1] at hdirty
        cases hdirty.2
    have hreset : s.reset code j = (.done (.error (.poisoned s.id)), s, j) := by
      rw [reset, rejection?, if_pos hpoisoned]
    rw [hreset]
    rfl
  · rfl

theorem release_eq_putBack {code : Code} {p : Pool} {key : SandboxKey} {s : Sandbox} {j : Journal}
    (h : tidy code s j = (.done (), s, j)) : p.release code key s j = (.done (), (p.putBack key s).2, j) := by
  rw [release, h]

/-- A sandbox that comes back waits under its key if it can be used again. -/
theorem idleAt?_putBack {p : Pool} {key k : SandboxKey} {s s' : Sandbox}
    (h : (p.putBack key s).2.idleAt? k = some s') :
    (k = key ∧ s' = s ∧ isReusable s = true) ∨ p.idleAt? k = some s' := by
  unfold putBack at h
  split at h
  · rename_i hreusable
    have hput := idleAt?_evict h
    rw [idleAt?_put] at hput
    split at hput
    · rename_i hk
      cases hput
      exact .inl ⟨hk, rfl, hreusable⟩
    · exact .inr hput
  · rw [idleAt?_erase] at h
    split at h
    · cases h
    · exact .inr h

/-! ## Clearing -/

theorem idleAt?_clear (p : Pool) (k : SandboxKey) : p.clear.2.idleAt? k = none := by
  unfold clear idleAt?
  rw [Table.get?_filter]
  cases hslot : p.slots.get? k with
  | none => rfl
  | some slot => cases slot <;> rfl

end Interpose.Pool
