import Interpose.Proofs.Dispatch.Selection
import Interpose.Proofs.Data.Containers
import Interpose.Pool.Basic

/-!
# What the operations of a pool do to its slots

Making room takes idle sandboxes out, each of which is counted, and leaves slots in use alone. It ends with no more
slots than wanted or with no sandbox idle. Claiming a key, entering a sandbox, giving up a build and putting a sandbox
back each change the slot of one key, and make room at most. So all of them are described alike, by what the slot was,
what it is and what was counted.
-/

namespace Interpose

namespace Slot

def isBuilding : Slot → Bool
  | building => true
  | _ => false

def isLeased : Slot → Bool
  | leased => true
  | _ => false

theorem isBuilding_iff (slot : Slot) : slot.isBuilding = true ↔ slot = building := by
  cases slot <;> simp [isBuilding]

theorem isLeased_iff (slot : Slot) : slot.isLeased = true ↔ slot = leased := by
  cases slot <;> simp [isLeased]

def isIdle (slot : Slot) : Bool := slot.idle?.isSome

/-- The sandbox of the slot has a given id. -/
def holds (id : Nat) (slot : Slot) : Bool := slot.idle?.any fun e => id = e.1.id

@[simp] theorem holds_building (id : Nat) : building.holds id = false := rfl

@[simp] theorem holds_leased (id : Nat) : leased.holds id = false := rfl

@[simp] theorem holds_idle (id : Nat) (s : Sandbox) (released : Nat) :
    (idle s released).holds id = decide (id = s.id) := rfl

/-- One for a slot of a sort, and none for another slot or where there is none. -/
def count (sort : Slot → Bool) (slot? : Option Slot) : Nat := slot?.toList.countP sort

@[simp] theorem count_none (sort : Slot → Bool) : count sort none = 0 := rfl

@[simp] theorem count_some (sort : Slot → Bool) (slot : Slot) :
    count sort (some slot) = if sort slot = true then 1 else 0 := List.countP_singleton ..

/-- A sort of slots in use. -/
def InUse (sort : Slot → Bool) : Prop := ∀ s released, sort (.idle s released) = false

end Slot

namespace Pool

/-- The number of slots of a sort. -/
def tally (p : Pool) (sort : Slot → Bool) : Nat := p.slots.values.countP sort

/-- The number of slots of a sort under one key, which is at most one. -/
def tallyAt (p : Pool) (sort : Slot → Bool) (key : SandboxKey) : Nat := Slot.count sort (p.slots.get? key)

theorem idleCount_eq_tally (p : Pool) : p.idleCount = p.tally Slot.isIdle :=
  List.countP_eq_length_filter.symm

/-- The idle sandboxes. -/
def idleSandboxes (p : Pool) : List Sandbox := p.slots.values.filterMap fun slot => slot.idle?.map (·.1)

theorem tally_holds (p : Pool) (id : Nat) :
    p.tally (Slot.holds id) = p.idleSandboxes.countP fun s => id = s.id := by
  unfold tally idleSandboxes
  rw [List.countP_filterMap]
  refine List.countP_congr fun slot _ => ?_
  cases slot with
  | building | leased => exact Iff.rfl
  | idle s released => exact Iff.rfl

/-- A slot is in use in one way at most. -/
theorem tallyAt_le_one (p : Pool) (key : SandboxKey) :
    p.tallyAt Slot.isBuilding key + p.tallyAt Slot.isLeased key ≤ 1 := by
  unfold tallyAt
  cases p.slots.get? key with
  | none => exact Nat.zero_le _
  | some slot =>
    cases slot with
    | building | leased => exact Nat.le_refl _
    | idle => exact Nat.zero_le _

theorem size_eq_tally (p : Pool) : p.slots.size = p.tally fun _ => true := by
  unfold tally Table.values Table.size
  rw [List.countP_true, List.length_map]

variable {p q r : Pool} {key : SandboxKey} {slot? : Option Slot}

/-- The slot of a key is of a kind exactly if it is counted. -/
theorem slot_eq_iff {sort : Slot → Bool} {slot : Slot} (hsort : ∀ x, sort x = true ↔ x = slot) :
    p.slots.get? key = some slot ↔ p.tallyAt sort key = 1 := by
  constructor
  · intro h
    rw [tallyAt, h, Slot.count_some, if_pos ((hsort slot).2 rfl)]
  · intro h
    have hpos : 0 < p.tallyAt sort key := by omega
    obtain ⟨x, hmem, hx⟩ := List.countP_pos_iff.1 hpos
    rw [← (hsort x).1 hx]
    exact Option.mem_toList.1 hmem

/-! ## One slot -/

/-- One pool is another with the slot of a key set or taken out. -/
structure Sets (p : Pool) (key : SandboxKey) (slot? : Option Slot) (q : Pool) : Prop where
  max : q.max = p.max
  slots : ∀ k, q.slots.get? k = if k = key then slot? else p.slots.get? k
  tally : ∀ sort, q.tally sort + p.tallyAt sort key = p.tally sort + Slot.count sort slot?

theorem sets_put (p : Pool) (key : SandboxKey) (slot : Slot) (tick : Nat) (counts : PoolCounts) :
    p.Sets key (some slot) { p with slots := p.slots.put key slot, tick := tick, counts := counts } :=
  ⟨rfl, Table.get?_put _ _ _, Table.countP_values_put _ _ _⟩

theorem sets_erase (p : Pool) (key : SandboxKey) (counts : PoolCounts) :
    p.Sets key none { p with slots := p.slots.erase key, counts := counts } :=
  ⟨rfl, Table.get?_erase _ _, Table.countP_values_erase _ _⟩

/-- A key holds no more of a sort than there is. -/
theorem tallyAt_le_tally (p : Pool) (sort : Slot → Bool) (key : SandboxKey) : p.tallyAt sort key ≤ p.tally sort := by
  have herase := (sets_erase p key p.counts).tally sort
  rw [Slot.count_none] at herase
  omega

/-- What there is, some key holds. -/
theorem exists_of_tally_pos {sort : Slot → Bool} (h : 0 < p.tally sort) :
    ∃ key slot, p.slots.get? key = some slot ∧ sort slot = true := by
  obtain ⟨slot, hmem, hslot⟩ := List.countP_pos_iff.1 h
  obtain ⟨⟨key, _⟩, hentry, rfl⟩ := List.mem_map.1 hmem
  exact ⟨key, _, Table.get?_eq_some_iff.2 hentry, hslot⟩

theorem idleAt?_eq_some_iff {s : Sandbox} :
    p.idleAt? key = some s ↔ ∃ released, p.slots.get? key = some (.idle s released) := by
  unfold idleAt?
  cases p.slots.get? key with
  | none => simp
  | some slot => cases slot <;> simp [Slot.idle?]

/-- A sandbox that waits under a key is held there. -/
theorem tallyAt_holds {s : Sandbox} (h : p.idleAt? key = some s) : p.tallyAt (Slot.holds s.id) key = 1 := by
  obtain ⟨released, hslot⟩ := idleAt?_eq_some_iff.1 h
  rw [tallyAt, hslot, Slot.count_some, Slot.holds_idle, decide_eq_true rfl, if_pos rfl]

/-- No sandbox waits under two keys exactly if none is counted twice. -/
theorem tally_holds_le_one_iff (p : Pool) :
    (∀ id, p.tally (Slot.holds id) ≤ 1) ↔ ∀ key key' s s', p.idleAt? key = some s → p.idleAt? key' = some s' →
      s.id = s'.id → key = key' := by
  have hwithout : ∀ key id, ({ p with slots := p.slots.erase key } : Pool).tally (Slot.holds id) +
      p.tallyAt (Slot.holds id) key = p.tally (Slot.holds id) := fun key id =>
    (sets_erase p key p.counts).tally _
  constructor
  · intro hle key key' s s' hs hs' hid
    by_contra hkey
    -- Without the one there would be none, but the other is still there.
    have hnone := hwithout key s.id
    rw [tallyAt_holds hs] at hnone
    have hother : ({ p with slots := p.slots.erase key } : Pool).idleAt? key' = some s' := by
      rw [idleAt?_eq_some_iff] at hs' ⊢
      rwa [Table.get?_erase, if_neg (Ne.symm hkey)]
    have hone := tallyAt_holds hother
    rw [← hid] at hone
    have hall := hle s.id
    have hat := tallyAt_le_tally { p with slots := p.slots.erase key } (Slot.holds s.id) key'
    omega
  · intro honce id
    by_contra htwo
    have hsome : 0 < p.tally (Slot.holds id) := by omega
    obtain ⟨key, slot, hslot, hholds⟩ := exists_of_tally_pos hsome
    have hone := hwithout key id
    rw [tallyAt, hslot, Slot.count_some, if_pos hholds] at hone
    have hanother : 0 < ({ p with slots := p.slots.erase key } : Pool).tally (Slot.holds id) := by omega
    obtain ⟨key', slot', hslot', hholds'⟩ := exists_of_tally_pos hanother
    rw [Table.get?_erase] at hslot'
    split at hslot'
    · cases hslot'
    · rename_i hkey
      cases slot with
      | building | leased => cases hholds
      | idle s released =>
        cases slot' with
        | building | leased => cases hholds'
        | idle s' released' =>
          rw [Slot.holds_idle, decide_eq_true_eq] at hholds hholds'
          exact hkey (honce key' key s' s (idleAt?_eq_some_iff.2 ⟨_, hslot'⟩) (idleAt?_eq_some_iff.2 ⟨_, hslot⟩)
            (hholds'.symm.trans hholds))

/-! ## Making room -/

/-- One pool is another with idle sandboxes taken out. -/
structure Thins (p q : Pool) : Prop where
  max : q.max = p.max
  slots : ∀ key, q.slots.get? key = p.slots.get? key ∨
    q.slots.get? key = none ∧ ∃ s released, p.slots.get? key = some (.idle s released)
  le : ∀ sort, q.tally sort ≤ p.tally sort
  inUse : ∀ sort, Slot.InUse sort → q.tally sort = p.tally sort

/-- They were taken out for lack of room. -/
structure MakesRoom (p q : Pool) : Prop extends Thins p q where
  built : q.counts.built = p.counts.built
  reused : q.counts.reused = p.counts.reused
  discarded : q.counts.discarded = p.counts.discarded
  evicted : q.counts.evicted + q.idleCount = p.counts.evicted + p.idleCount

theorem Thins.refl (p : Pool) : p.Thins p := ⟨rfl, fun _ => .inl rfl, fun _ => Nat.le_refl _, fun _ _ => rfl⟩

theorem Thins.trans (h : p.Thins q) (h' : q.Thins r) : p.Thins r where
  max := h'.max.trans h.max
  slots key := by
    obtain hkept | ⟨hgone, s, released, hidle⟩ := h'.slots key
    · rw [hkept]
      exact h.slots key
    · obtain hkept | ⟨hnone, _⟩ := h.slots key
      · exact .inr ⟨hgone, s, released, hkept ▸ hidle⟩
      · rw [hnone] at hidle
        cases hidle
  le sort := Nat.le_trans (h'.le sort) (h.le sort)
  inUse sort hsort := (h'.inUse sort hsort).trans (h.inUse sort hsort)

/-- A slot in use is left alone, and none comes into use. -/
theorem Thins.tallyAt (h : p.Thins q) {sort : Slot → Bool} (hsort : Slot.InUse sort) (key : SandboxKey) :
    q.tallyAt sort key = p.tallyAt sort key := by
  unfold Pool.tallyAt
  obtain hkept | ⟨hgone, s, released, hidle⟩ := h.slots key
  · rw [hkept]
  · rw [hgone, hidle, Slot.count_some, hsort]
    rfl

theorem MakesRoom.refl (p : Pool) : p.MakesRoom p := ⟨.refl p, rfl, rfl, rfl, rfl⟩

theorem MakesRoom.trans (h : p.MakesRoom q) (h' : q.MakesRoom r) : p.MakesRoom r :=
  ⟨h.toThins.trans h'.toThins, h'.built.trans h.built, h'.reused.trans h.reused, h'.discarded.trans h.discarded,
    h'.evicted.trans h.evicted⟩

/-- Only an idle sandbox is the oldest. -/
theorem idle_of_oldest? (h : p.oldest? = some key) :
    ∃ s released, p.slots.get? key = some (.idle s released) := by
  obtain ⟨⟨⟨k, slot⟩, released⟩, hcheapest, rfl⟩ := Option.map_eq_some_iff.1 h
  have hplace := cheapestIn_of_cheapest?_eq hcheapest
  have hslot : p.slots.get? k = some slot := Table.get?_eq_some_iff.2 hplace.mem
  cases slot with
  | building | leased => cases hplace.cost_eq
  | idle s released => exact ⟨s, released, hslot⟩

/-- If none is the oldest, none is idle. -/
theorem idleCount_of_oldest?_eq_none (h : p.oldest? = none) : p.idleCount = 0 := by
  have hnone := cheapest?_eq_none_iff.1 (Option.map_eq_none_iff.1 h)
  rw [idleCount_eq_tally, tally, List.countP_eq_zero]
  intro slot hmem hidle
  obtain ⟨e, he, rfl⟩ := List.mem_map.1 hmem
  obtain ⟨idle, hidle⟩ := Option.isSome_iff_exists.1 hidle
  have hcost := hnone e he
  rw [hidle] at hcost
  cases hcost

theorem makesRoom_evictKey {s : Sandbox} {released : Nat} (h : p.slots.get? key = some (.idle s released)) :
    p.MakesRoom (p.evictKey key) ∧ (p.evictKey key).slots.size + 1 = p.slots.size := by
  have hsets := sets_erase p key { p.counts with evicted := p.counts.evicted + 1 }
  have htally : ∀ sort, (p.evictKey key).tally sort + (if sort (.idle s released) = true then 1 else 0) =
      p.tally sort := by
    intro sort
    have hsort := hsets.tally sort
    rw [tallyAt, h, Slot.count_some] at hsort
    exact hsort
  have hle : ∀ sort, (p.evictKey key).tally sort ≤ p.tally sort := fun sort => Nat.le.intro (htally sort)
  refine ⟨⟨⟨rfl, fun k => ?_, hle, fun sort hsort => ?_⟩, rfl, rfl, rfl, ?_⟩, ?_⟩
  · have hslot := hsets.slots k
    by_cases hk : k = key
    · rw [if_pos hk] at hslot
      exact .inr ⟨hslot, s, released, hk ▸ h⟩
    · rw [if_neg hk] at hslot
      exact .inl hslot
  · have hcount := htally sort
    rw [hsort s released] at hcount
    exact hcount
  · have hcount : (p.evictKey key).idleCount + 1 = p.idleCount := by
      rw [idleCount_eq_tally, idleCount_eq_tally]
      exact htally _
    change p.counts.evicted + 1 + (p.evictKey key).idleCount = p.counts.evicted + p.idleCount
    omega
  · rw [size_eq_tally, size_eq_tally]
    exact htally _

theorem makesRoom_evictUpTo (n : Nat) (p : Pool) : p.MakesRoom (evictUpTo n p).2 := by
  induction n generalizing p with
  | zero => exact .refl p
  | succ n ih =>
    unfold evictUpTo
    split
    · split
      · rename_i key holdest
        obtain ⟨s, released, hidle⟩ := idle_of_oldest? holdest
        exact (makesRoom_evictKey hidle).1.trans (ih _)
      · exact .refl p
    · exact .refl p

theorem makesRoom_evict (p : Pool) : p.MakesRoom p.evict.2 := makesRoom_evictUpTo _ p

/-- There is room in the end, or nothing that could be taken out. -/
def Settled (p : Pool) : Prop := p.slots.size ≤ p.max ∨ p.idleCount = 0

/-- One sandbox goes in each round, so as many rounds are enough as there are slots too many. -/
theorem settled_evictUpTo {n : Nat} (h : p.slots.size ≤ p.max + n) : (evictUpTo n p).2.Settled := by
  induction n generalizing p with
  | zero => exact .inl h
  | succ n ih =>
    unfold evictUpTo
    split
    · split
      · rename_i key holdest
        obtain ⟨s, released, hidle⟩ := idle_of_oldest? holdest
        obtain ⟨hroom, hsize⟩ := makesRoom_evictKey hidle
        refine ih ?_
        rw [hroom.max]
        omega
      · rename_i hnone
        exact .inr (idleCount_of_oldest?_eq_none hnone)
    · rename_i hfits
      exact .inl (Nat.le_of_not_lt hfits)

theorem settled_evict (p : Pool) : p.evict.2.Settled := settled_evictUpTo (Nat.le_add_left _ _)

/-! ## Changing one slot -/

/-- One pool is another with the slot of a key changed, and room made where it was needed. Each operation that does
this counts in its own way, which leads to the given counts before room is made. -/
structure Rebooks (p : Pool) (key : SandboxKey) (old new : Option Slot) (counts : PoolCounts) (q : Pool) : Prop where
  max : q.max = p.max
  was : p.slots.get? key = old
  /-- The sandbox that comes in may be taken out at once. -/
  slot : q.slots.get? key = new ∨ q.slots.get? key = none ∧ ∃ s released, new = some (.idle s released)
  others : ∀ k, k ≠ key → q.slots.get? k = p.slots.get? k ∨
    q.slots.get? k = none ∧ ∃ s released, p.slots.get? k = some (.idle s released)
  le : ∀ sort, q.tally sort + Slot.count sort old ≤ p.tally sort + Slot.count sort new
  inUse : ∀ sort, Slot.InUse sort → q.tally sort + Slot.count sort old = p.tally sort + Slot.count sort new
  built : q.counts.built = counts.built
  reused : q.counts.reused = counts.reused
  discarded : q.counts.discarded = counts.discarded
  evicted : q.counts.evicted + q.idleCount + Slot.count Slot.isIdle old =
    counts.evicted + p.idleCount + Slot.count Slot.isIdle new

theorem rebooks_of_sets {old new : Option Slot} {counts : PoolCounts} (hwas : p.slots.get? key = old)
    (hsets : p.Sets key new q) (hcounts : q.counts = counts) (hroom : q.MakesRoom r) :
    p.Rebooks key old new counts r where
  max := hroom.max.trans hsets.max
  was := hwas
  slot := by
    have hslot : q.slots.get? key = new := by rw [hsets.slots, if_pos rfl]
    obtain hkept | ⟨hgone, s, released, hidle⟩ := hroom.slots key
    · exact .inl (hkept.trans hslot)
    · exact .inr ⟨hgone, s, released, hslot.symm.trans hidle⟩
  others k hk := by
    have hslot : q.slots.get? k = p.slots.get? k := by rw [hsets.slots, if_neg hk]
    rw [← hslot]
    exact hroom.slots k
  le sort := by
    have hset := hsets.tally sort
    have hle := hroom.le sort
    rw [tallyAt, hwas] at hset
    omega
  inUse sort hsort := by
    have hset := hsets.tally sort
    rw [tallyAt, hwas] at hset
    rw [hroom.inUse sort hsort]
    exact hset
  built := hroom.built.trans (congrArg PoolCounts.built hcounts)
  reused := hroom.reused.trans (congrArg PoolCounts.reused hcounts)
  discarded := hroom.discarded.trans (congrArg PoolCounts.discarded hcounts)
  evicted := by
    have hset := hsets.tally Slot.isIdle
    have hevicted := hroom.evicted
    rw [tallyAt, hwas, ← idleCount_eq_tally, ← idleCount_eq_tally] at hset
    rw [hcounts] at hevicted
    omega

/-- The slots in use after the change. -/
theorem Rebooks.tallyAt {old new : Option Slot} {counts : PoolCounts} (h : p.Rebooks key old new counts q)
    {sort : Slot → Bool} (hsort : Slot.InUse sort) (k : SandboxKey) :
    q.tallyAt sort k = if k = key then Slot.count sort new else p.tallyAt sort k := by
  have hidle : ∀ s released, Slot.count sort (some (.idle s released)) = 0 := by
    intro s released
    rw [Slot.count_some, hsort]
    rfl
  unfold Pool.tallyAt
  by_cases hk : k = key
  · rw [if_pos hk, hk]
    obtain hslot | ⟨hgone, s, released, hnew⟩ := h.slot
    · rw [hslot]
    · rw [hgone, hnew, hidle]
      rfl
  · rw [if_neg hk]
    obtain hslot | ⟨hgone, s, released, hold⟩ := h.others k hk
    · rw [hslot]
    · rw [hgone, hold, hidle]
      rfl

/-! ## The operations -/

/-- How a claim is answered, and what it changes. -/
inductive Claims (p : Pool) (key : SandboxKey) : Claim → Pool → Prop
  | build {q : Pool} (h : p.Rebooks key none (some .building) p.counts q) : Claims p key .build q
  | reuse {s : Sandbox} {released : Nat} {q : Pool}
      (h : p.Rebooks key (some (.idle s released)) (some .leased) { p.counts with reused := p.counts.reused + 1 } q) :
      Claims p key (.reuse s) q
  | wait (h : p.slots.get? key = some .building ∨ p.slots.get? key = some .leased) :
      Claims p key .wait { p with counts := { p.counts with waits := p.counts.waits + 1 } }

theorem claims_claim (p : Pool) (key : SandboxKey) : p.Claims key (p.claim key).1 (p.claim key).2 := by
  unfold claim
  split
  · rename_i hslot
    exact .build (rebooks_of_sets hslot (sets_put p key .building p.tick p.counts) rfl (.refl _))
  · rename_i hslot
    exact .reuse (rebooks_of_sets hslot (sets_put p key .leased p.tick _) rfl (.refl _))
  · rename_i hslot
    exact .wait (.inl hslot)
  · rename_i hslot
    exact .wait (.inr hslot)

theorem rebooks_finishBuild (h : p.slots.get? key = some .building) :
    p.Rebooks key (some .building) (some .leased) { p.counts with built := p.counts.built + 1 }
      (p.finishBuild key).2 ∧ (p.finishBuild key).2.Settled :=
  ⟨rebooks_of_sets h (sets_put p key .leased p.tick _) rfl (makesRoom_evict _), settled_evict _⟩

theorem rebooks_abandon (h : p.slots.get? key = some .building) :
    p.Rebooks key (some .building) none p.counts (p.abandon key) :=
  rebooks_of_sets h (sets_erase p key p.counts) rfl (.refl _)

/-- A sandbox that comes back is idle then or discarded. -/
theorem rebooks_putBack (h : p.slots.get? key = some .leased) (s : Sandbox) :
    (isReusable s = true ∧ (∃ released,
      p.Rebooks key (some .leased) (some (.idle s released)) p.counts (p.putBack key s).2) ∧
        (p.putBack key s).2.Settled) ∨
    (isReusable s = false ∧ p.Rebooks key (some .leased) none
      { p.counts with discarded := p.counts.discarded + 1 } (p.putBack key s).2) := by
  cases hs : isReusable s with
  | true =>
    have hsets := sets_put p key (.idle s (p.tick + 1)) (p.tick + 1) p.counts
    rw [putBack, if_pos hs]
    exact .inl ⟨rfl, ⟨_, rebooks_of_sets h hsets rfl (makesRoom_evict _)⟩, settled_evict _⟩
  | false =>
    rw [putBack, hs, if_neg Bool.false_ne_true]
    exact .inr ⟨rfl, rebooks_of_sets h (sets_erase p key _) rfl (.refl _)⟩

/-- Whatever the slot was, entering a sandbox makes none idle, -/
theorem holds_finishBuild_le (p : Pool) (key : SandboxKey) (id : Nat) :
    (p.finishBuild key).2.tally (Slot.holds id) ≤ p.tally (Slot.holds id) := by
  have hput := (sets_put p key .leased p.tick { p.counts with built := p.counts.built + 1 }).tally (Slot.holds id)
  rw [Slot.count_some, Slot.holds_leased, if_neg Bool.false_ne_true] at hput
  exact Nat.le_trans ((makesRoom_evict _).le _) (Nat.le.intro hput)

/-- nor does giving up a build, -/
theorem holds_abandon_le (p : Pool) (key : SandboxKey) (id : Nat) :
    (p.abandon key).tally (Slot.holds id) ≤ p.tally (Slot.holds id) :=
  Nat.le.intro ((sets_erase p key p.counts).tally (Slot.holds id))

/-- and putting a sandbox back at most this one. -/
theorem holds_putBack_le (p : Pool) (key : SandboxKey) (s : Sandbox) (id : Nat) :
    (p.putBack key s).2.tally (Slot.holds id) ≤ p.tally (Slot.holds id) + if id = s.id then 1 else 0 := by
  unfold putBack
  split
  · have hput := (sets_put p key (.idle s (p.tick + 1)) (p.tick + 1) p.counts).tally (Slot.holds id)
    simp only [Slot.count_some, Slot.holds_idle, decide_eq_true_eq] at hput
    exact Nat.le_trans ((makesRoom_evict _).le _) (Nat.le.intro hput)
  · have herase := (sets_erase p key { p.counts with discarded := p.counts.discarded + 1 }).tally (Slot.holds id)
    exact Nat.le_add_right_of_le (Nat.le.intro herase)

/-- Clearing takes out all idle sandboxes, which are the answer, and changes nothing else. -/
theorem clear_spec (p : Pool) :
    p.Thins p.clear.2 ∧ p.clear.2.counts = p.counts ∧ p.clear.2.idleCount = 0 ∧ p.clear.1.length = p.idleCount := by
  have htally : ∀ sort,
      p.clear.2.tally sort = p.slots.values.countP fun slot => sort slot && slot.idle?.isNone :=
    Table.countP_values_filter p.slots fun slot => slot.idle?.isNone
  refine ⟨⟨rfl, fun key => ?_, fun sort => ?_, fun sort hsort => ?_⟩, rfl, ?_, ?_⟩
  · have hcleared : p.clear.2.slots.get? key = (p.slots.get? key).filter fun slot => slot.idle?.isNone :=
      Table.get?_filter p.slots _ key
    rw [hcleared]
    cases hslot : p.slots.get? key with
    | none => exact .inl rfl
    | some slot =>
      cases slot with
      | building | leased => exact .inl rfl
      | idle s released => exact .inr ⟨rfl, s, released, rfl⟩
  · rw [htally]
    refine List.countP_mono_left fun slot _ h => ?_
    rw [Bool.and_eq_true] at h
    exact h.1
  · rw [htally]
    refine List.countP_congr fun slot _ => ?_
    cases slot with
    | building | leased => simp [Slot.idle?]
    | idle s released => simp [Slot.idle?, hsort s released]
  · rw [idleCount_eq_tally, htally, List.countP_eq_zero]
    intro slot _ h
    cases slot with
    | building | leased | idle => cases h
  · rw [idleCount, clear]
    simp only
    induction p.slots.values with
    | nil => rfl
    | cons slot rest ih =>
      cases slot with
      | building | leased => exact ih
      | idle s released => exact congrArg (· + 1) ih

end Pool

end Interpose
