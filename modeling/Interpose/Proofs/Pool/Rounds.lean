import Interpose.Proofs.Pool.Health

/-!
# Lending and taking back

A pool with a single user goes back and forth between two states: no slot is in use, or the slot of one key is leased.
Lending a sandbox under a key and taking it back are described by what they do to the slots in use and to the
counters, whether the sandbox was built or reused and whether it comes back idle or is discarded.
-/

namespace Interpose

namespace Pool

variable {p q : Pool} {key : SandboxKey}

/-- No slot is in use. -/
structure AtRest (p : Pool) : Prop where
  building : p.tally Slot.isBuilding = 0
  leased : p.tally Slot.isLeased = 0

theorem AtRest.isIdle (hp : p.AtRest) {slot : Slot} (h : slot ∈ p.slots.values) : slot.isIdle = true := by
  have hbuilding := List.countP_eq_zero.1 hp.building slot h
  have hleased := List.countP_eq_zero.1 hp.leased slot h
  cases slot with
  | building => exact absurd rfl hbuilding
  | leased => exact absurd rfl hleased
  | idle => rfl

theorem AtRest.slot (hp : p.AtRest) {slot : Slot} (h : p.slots.get? key = some slot) :
    ∃ s released, slot = .idle s released := by
  have hidle := hp.isIdle (List.mem_map_of_mem (f := (·.2)) (Table.get?_eq_some_iff.1 h))
  cases slot with
  | idle s released => exact ⟨s, released, rfl⟩
  | building | leased => cases hidle

theorem AtRest.size_eq (hp : p.AtRest) : p.size = p.idleCount := by
  rw [Pool.size, size_eq_tally, idleCount_eq_tally]
  exact List.countP_congr fun slot h => iff_of_true rfl (hp.isIdle h)

/-- The sandboxes that are accounted for: taken out for lack of room, discarded, idle or leased. -/
def accounted (p : Pool) : Nat :=
  p.counts.evicted + p.counts.discarded + p.idleCount + p.tally Slot.isLeased

/-- A change of one slot accounts for the sandbox that was there and for the one that is. -/
theorem Rebooks.accounted {old new : Option Slot} {counts : PoolCounts} (h : p.Rebooks key old new counts q) :
    q.accounted + (Slot.count Slot.isIdle old + Slot.count Slot.isLeased old) +
        (p.counts.evicted + p.counts.discarded) =
      p.accounted + (Slot.count Slot.isIdle new + Slot.count Slot.isLeased new) +
        (counts.evicted + counts.discarded) := by
  have hleased := h.inUse _ Traffic.inUse_isLeased
  have hdiscarded := h.discarded
  have hevicted := h.evicted
  unfold Pool.accounted
  omega

/-- A slot that comes into use stays there. -/
theorem Rebooks.slot_eq {old : Option Slot} {slot : Slot} {counts : PoolCounts}
    (h : p.Rebooks key old (some slot) counts q) (hslot : slot.idle? = none) : q.slots.get? key = some slot := by
  obtain hkept | ⟨_, s, released, hidle⟩ := h.slot
  · exact hkept
  · rw [Option.some.inj hidle] at hslot
    cases hslot

/-- What it does to a pool to lend a sandbox under a key. -/
structure Lends (p : Pool) (key : SandboxKey) (q : Pool) : Prop where
  max : q.max = p.max
  slot : q.slots.get? key = some .leased
  building : q.tally Slot.isBuilding = p.tally Slot.isBuilding
  leased : q.tally Slot.isLeased = p.tally Slot.isLeased + 1
  served : q.counts.built + q.counts.reused = p.counts.built + p.counts.reused + 1
  accounted : q.accounted + p.counts.built = p.accounted + q.counts.built
  bounded : p.Bounded → q.Bounded

theorem lends_of_reuse {s : Sandbox} {released : Nat}
    (h : p.Rebooks key (some (.idle s released)) (some .leased) { p.counts with reused := p.counts.reused + 1 } q) :
    p.Lends key q := by
  have hbuilt : q.counts.built = p.counts.built := h.built
  have hreused : q.counts.reused = p.counts.reused + 1 := h.reused
  have haccounted : q.accounted + (1 + 0) + (p.counts.evicted + p.counts.discarded) =
      p.accounted + (0 + 1) + (p.counts.evicted + p.counts.discarded) := h.accounted
  exact ⟨h.max, h.slot_eq rfl, h.inUse _ Traffic.inUse_isBuilding, h.inUse _ Traffic.inUse_isLeased, by omega,
    by omega, fun hp => hp.rebook h rfl (Nat.le_refl _)⟩

theorem lends_of_build (h : p.Rebooks key none (some .building) p.counts q) :
    p.Lends key (q.finishBuild key).2 ∧ (q.finishBuild key).2.counts.built = p.counts.built + 1 := by
  obtain ⟨hfinish, hsettled⟩ := rebooks_finishBuild (h.slot_eq rfl)
  have hbuilding : q.tally Slot.isBuilding + 0 = p.tally Slot.isBuilding + 1 := h.inUse _ Traffic.inUse_isBuilding
  have hbuilding' : (q.finishBuild key).2.tally Slot.isBuilding + 1 = q.tally Slot.isBuilding + 0 :=
    hfinish.inUse _ Traffic.inUse_isBuilding
  have hleased : q.tally Slot.isLeased + 0 = p.tally Slot.isLeased + 0 := h.inUse _ Traffic.inUse_isLeased
  have hleased' : (q.finishBuild key).2.tally Slot.isLeased + 0 = q.tally Slot.isLeased + 1 :=
    hfinish.inUse _ Traffic.inUse_isLeased
  have hbuilt : q.counts.built = p.counts.built := h.built
  have hbuilt' : (q.finishBuild key).2.counts.built = q.counts.built + 1 := hfinish.built
  have hreused : q.counts.reused = p.counts.reused := h.reused
  have hreused' : (q.finishBuild key).2.counts.reused = q.counts.reused := hfinish.reused
  have haccounted : q.accounted + (0 + 0) + (p.counts.evicted + p.counts.discarded) =
      p.accounted + (0 + 0) + (p.counts.evicted + p.counts.discarded) := h.accounted
  have haccounted' : (q.finishBuild key).2.accounted + (0 + 0) + (q.counts.evicted + q.counts.discarded) =
      q.accounted + (0 + 1) + (q.counts.evicted + q.counts.discarded) := hfinish.accounted
  exact ⟨⟨hfinish.max.trans h.max, hfinish.slot_eq rfl, by omega, by omega, by omega, by omega,
    fun _ => hsettled.bounded⟩, by omega⟩

/-- What it does to a pool to take a sandbox back. -/
structure TakesBack (p q : Pool) : Prop where
  max : q.max = p.max
  building : q.tally Slot.isBuilding = p.tally Slot.isBuilding
  leased : q.tally Slot.isLeased + 1 = p.tally Slot.isLeased
  built : q.counts.built = p.counts.built
  reused : q.counts.reused = p.counts.reused
  accounted : q.accounted = p.accounted
  bounded : p.Bounded → q.Bounded

theorem takesBack_putBack (hslot : p.slots.get? key = some .leased) (s : Sandbox) :
    p.TakesBack (p.putBack key s).2 := by
  obtain ⟨_, ⟨released, h⟩, hsettled⟩ | ⟨_, h⟩ := rebooks_putBack hslot s
  · have haccounted : (p.putBack key s).2.accounted + (0 + 1) + (p.counts.evicted + p.counts.discarded) =
        p.accounted + (1 + 0) + (p.counts.evicted + p.counts.discarded) := h.accounted
    exact ⟨h.max, h.inUse _ Traffic.inUse_isBuilding, h.inUse _ Traffic.inUse_isLeased, h.built, h.reused,
      by omega, fun _ => hsettled.bounded⟩
  · have haccounted : (p.putBack key s).2.accounted + (0 + 1) + (p.counts.evicted + p.counts.discarded) =
        p.accounted + (0 + 0) + (p.counts.evicted + (p.counts.discarded + 1)) := h.accounted
    exact ⟨h.max, h.inUse _ Traffic.inUse_isBuilding, h.inUse _ Traffic.inUse_isLeased, h.built, h.reused,
      by omega, fun hp => hp.rebook h rfl (Nat.zero_le _)⟩

end Pool

end Interpose
