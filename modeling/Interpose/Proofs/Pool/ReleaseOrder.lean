import Interpose.Proofs.Pool.Traffic
import Interpose.Proofs.Pool.Waiting
import Mathlib.Data.List.Nodup

/-!
# The order in which idle sandboxes go

The stamps of the idle sandboxes stand for a queue of keys. A key joins the queue at its end when its sandbox comes
back idle and leaves it when the sandbox is claimed, and where there are too many sandboxes the queue is cut at its
beginning. What a pool does is compared with this queue for one operation at a time, whichever it is and whatever key
it is about. Making room is an induction over its rounds, each of which takes the first key of the queue.
-/

namespace Interpose

/-- One operation under the lock of a pool. -/
inductive Deed where
  | claim (key : SandboxKey)
  | finish (key : SandboxKey)
  | abandon (key : SandboxKey)
  | putBack (key : SandboxKey) (s : Sandbox)
  | clear

/-- Whether a sandbox enters the pool, so that room may have to be made. -/
def Deed.bringsIn : Deed → Bool
  | finish _ => true
  | putBack _ s => Pool.isReusable s
  | claim _ | abandon _ | clear => false

/-- The keys of idle sandboxes in the order of their release, and the keys in use. -/
structure Roster where
  queue : List SandboxKey
  inUse : List SandboxKey

namespace Roster

def empty : Roster := ⟨[], []⟩

def size (r : Roster) : Nat := r.queue.length + r.inUse.length

def occupy (r : Roster) (key : SandboxKey) : Roster := ⟨r.queue.erase key, r.inUse.insert key⟩

def vacate (r : Roster) (key : SandboxKey) : Roster := ⟨r.queue.erase key, r.inUse.erase key⟩

/-- A key goes to the end of the queue. -/
def append (r : Roster) (key : SandboxKey) : Roster := ⟨r.queue.erase key ++ [key], r.inUse.erase key⟩

/-- Cuts the queue at its beginning, by as many keys as there are too many. -/
def makeRoom (max : Nat) (r : Roster) : Roster := { r with queue := r.queue.drop (r.size - max) }

/-- What an operation comes to before room is made. -/
def enter (r : Roster) : Deed → Roster
  | .claim key => if key ∈ r.inUse then r else r.occupy key
  | .finish key => r.occupy key
  | .abandon key => r.vacate key
  | .putBack key s => if Pool.isReusable s then r.append key else r.vacate key
  | .clear => ⟨[], r.inUse⟩

def does (max : Nat) (r : Roster) (d : Deed) : Roster :=
  if d.bringsIn then (r.enter d).makeRoom max else r.enter d

/-- What a pool of a given size comes to by some operations. -/
def after (max : Nat) (deeds : List Deed) : Roster := deeds.foldl (does max) empty

end Roster

namespace Pool

/-- What an operation comes to before room is made. -/
def enter (p : Pool) : Deed → Pool
  | .claim key => (p.claim key).2
  | .finish key =>
    { p with
      slots := p.slots.put key .leased
      counts := { p.counts with built := p.counts.built + 1 } }
  | .abandon key => p.abandon key
  | .putBack key s =>
    if isReusable s then { p with slots := p.slots.put key (.idle s (p.tick + 1)), tick := p.tick + 1 }
    else (p.putBack key s).2
  | .clear => p.clear.2

/-- An operation; the answer starts with the sandboxes that it destroys. -/
def does (p : Pool) : Deed → List Sandbox × Pool
  | .claim key => ([], (p.claim key).2)
  | .finish key => p.finishBuild key
  | .abandon key => ([], p.abandon key)
  | .putBack key s => p.putBack key s
  | .clear => p.clear

def after (p : Pool) (deeds : List Deed) : Pool := deeds.foldl (fun p d => (p.does d).2) p

/-- Two idle sandboxes, the first of which was released before the second. -/
def Before (p : Pool) (key key' : SandboxKey) : Prop :=
  ∃ s released s' released', p.slots.get? key = some (.idle s released) ∧
    p.slots.get? key' = some (.idle s' released') ∧ released < released'

/-- The slots of a pool stand for a queue of idle keys and for keys in use. -/
structure Represents (p : Pool) (r : Roster) : Prop where
  idle : ∀ key, key ∈ r.queue ↔ ∃ s released, p.slots.get? key = some (.idle s released)
  inUse : ∀ key, key ∈ r.inUse ↔ p.slots.get? key = some .building ∨ p.slots.get? key = some .leased
  ordered : r.queue.Pairwise p.Before
  once : r.inUse.Nodup
  stamped : ∀ key s released, p.slots.get? key = some (.idle s released) → released ≤ p.tick

variable {p q : Pool} {r : Roster} {key : SandboxKey} {slot? : Option Slot} {max : Nat}

theorem does_of_bringsIn {d : Deed} (h : d.bringsIn = true) : p.does d = (p.enter d).evict := by
  cases d with
  | claim | abandon | clear => cases h
  | finish key => rfl
  | putBack key s =>
    change isReusable s = true at h
    rw [does, enter, putBack, if_pos h, if_pos h]

theorem does_of_not_bringsIn {d : Deed} (h : d.bringsIn = false) : (p.does d).2 = p.enter d := by
  cases d with
  | claim | abandon | clear => rfl
  | finish key => cases h
  | putBack key s =>
    change isReusable s = false at h
    rw [does, enter, h, if_neg Bool.false_ne_true]

/-! ## What the slots say of the queue -/

theorem represents_new (max : Nat) : (Pool.new max).Represents .empty where
  idle key := by simp [Roster.empty, Pool.new]
  inUse key := by simp [Roster.empty, Pool.new]
  ordered := .nil
  once := List.nodup_nil
  stamped key s released h := by cases h

theorem Before.ne {key' : SandboxKey} (h : p.Before key key') : key ≠ key' := by
  rintro rfl
  obtain ⟨s, released, s', released', hslot, hslot', hlt⟩ := h
  rw [hslot] at hslot'
  cases hslot'
  exact Nat.lt_irrefl _ hlt

/-- No key is in the queue twice. -/
theorem Represents.nodup (h : p.Represents r) : r.queue.Nodup := h.ordered.imp Before.ne

theorem Represents.disjoint (h : p.Represents r) (hkey : key ∈ r.queue) : key ∉ r.inUse := by
  intro hused
  obtain ⟨s, released, hidle⟩ := (h.idle key).1 hkey
  obtain hslot | hslot := (h.inUse key).1 hused
  · rw [hslot] at hidle
    cases hidle
  · rw [hslot] at hidle
    cases hidle

/-- Every slot is in the queue or in use, and no slot counts twice. -/
theorem Represents.size (h : p.Represents r) : p.slots.size = r.size := by
  have hnodup : (r.queue ++ r.inUse).Nodup :=
    List.nodup_append.2 ⟨h.nodup, h.once, fun key hkey key' hkey' heq => h.disjoint hkey (heq ▸ hkey')⟩
  have hkeys : ∀ key, key ∈ p.slots.keys ↔ key ∈ r.queue ++ r.inUse := by
    intro key
    rw [List.mem_append, h.idle, h.inUse, ← not_iff_not, ← Table.get?_eq_none_iff]
    cases p.slots.get? key with
    | none => simp
    | some slot => cases slot <;> simp
  have hperm := (List.perm_ext_iff_of_nodup p.slots.distinct hnodup).2 hkeys
  rw [← Table.length_keys, Roster.size, ← List.length_append]
  exact hperm.length_eq

/-- The first key of the queue is the one that was released first. -/
theorem Represents.oldest? (h : p.Represents r) : p.oldest? = r.queue.head? := by
  cases ho : p.oldest? with
  | none =>
    cases hq : r.queue with
    | nil => rfl
    | cons key rest =>
      obtain ⟨s, released, hidle⟩ := (h.idle key).1 (hq ▸ List.mem_cons_self)
      have hnone := cheapest?_eq_none_iff.1 (Option.map_eq_none_iff.1 ho) _ (Table.get?_eq_some_iff.1 hidle)
      cases hnone
  | some oldest =>
    obtain ⟨⟨⟨k, slot⟩, stamp⟩, hcheapest, rfl⟩ := Option.map_eq_some_iff.1 ho
    have hplace := cheapestIn_of_cheapest?_eq hcheapest
    have hslot : p.slots.get? k = some slot := Table.get?_eq_some_iff.2 hplace.mem
    obtain ⟨s, released, hidle⟩ := idle_of_oldest? ho
    have hk : k ∈ r.queue := (h.idle k).2 ⟨s, released, hidle⟩
    have hordered := h.ordered
    cases hq : r.queue with
    | nil =>
      rw [hq] at hk
      cases hk
    | cons first rest =>
      rw [hq] at hk hordered
      rcases List.mem_cons.1 hk with rfl | hlater
      · rfl
      · -- An idle sandbox that was released before the oldest one.
        obtain ⟨s₁, n₁, s₂, n₂, h₁, h₂, hlt⟩ := (List.pairwise_cons.1 hordered).1 k hlater
        have hcost := hplace.cost_eq
        rw [Option.some.inj (hslot.symm.trans h₂)] at hcost
        have hle := hplace.le (Table.get?_eq_some_iff.1 h₁) rfl
        rw [← Option.some.inj hcost] at hle
        exact absurd hlt (Nat.not_lt.2 hle)

/-! ## Changing one slot -/

section Sets

variable (h : p.Represents r) (hsets : p.Sets key slot? q)
include h hsets

theorem Represents.ordered_erase : (r.queue.erase key).Pairwise q.Before := by
  refine (h.ordered.sublist List.erase_sublist).imp_of_mem fun {k k'} hk hk' hbefore => ?_
  have hne := (h.nodup.mem_erase_iff.1 hk).1
  have hne' := (h.nodup.mem_erase_iff.1 hk').1
  unfold Before at hbefore ⊢
  rw [hsets.slots, hsets.slots, if_neg hne, if_neg hne']
  exact hbefore

theorem Represents.stamped_of_sets (htick : p.tick ≤ q.tick)
    (hslot : ∀ s released, slot? = some (.idle s released) → released ≤ q.tick) :
    ∀ k s released, q.slots.get? k = some (.idle s released) → released ≤ q.tick := by
  intro k s released hidle
  rw [hsets.slots] at hidle
  by_cases hk : k = key
  · rw [if_pos hk] at hidle
    exact hslot s released hidle
  · rw [if_neg hk] at hidle
    exact Nat.le_trans (h.stamped k s released hidle) htick

end Sets

theorem Represents.vacate (h : p.Represents r) (hsets : p.Sets key none q) (htick : p.tick ≤ q.tick) :
    q.Represents (r.vacate key) where
  idle k := by
    rw [Roster.vacate, h.nodup.mem_erase_iff, h.idle, hsets.slots]
    by_cases hk : k = key <;> simp [hk]
  inUse k := by
    rw [Roster.vacate, h.once.mem_erase_iff, h.inUse, hsets.slots]
    by_cases hk : k = key <;> simp [hk]
  ordered := h.ordered_erase hsets
  once := h.once.erase key
  stamped := h.stamped_of_sets hsets htick fun s released hslot => by cases hslot

theorem Represents.occupy (h : p.Represents r) {slot : Slot} (hslot : slot = .building ∨ slot = .leased)
    (hsets : p.Sets key (some slot) q) (htick : p.tick ≤ q.tick) : q.Represents (r.occupy key) where
  idle k := by
    rw [Roster.occupy, h.nodup.mem_erase_iff, h.idle, hsets.slots]
    by_cases hk : k = key
    · rcases hslot with rfl | rfl <;> simp [hk]
    · simp [hk]
  inUse k := by
    rw [Roster.occupy, List.mem_insert_iff, h.inUse, hsets.slots]
    by_cases hk : k = key
    · rcases hslot with rfl | rfl <;> simp [hk]
    · simp [hk]
  ordered := h.ordered_erase hsets
  once := List.Nodup.insert h.once
  stamped := h.stamped_of_sets hsets htick fun s released heq => by
    rcases hslot with rfl | rfl <;> cases heq

/-- The stamp of a sandbox that comes back is later than all others, so its key is the last of the queue. -/
theorem Represents.append (h : p.Represents r) {s : Sandbox}
    (hsets : p.Sets key (some (.idle s (p.tick + 1))) q) (htick : q.tick = p.tick + 1) :
    q.Represents (r.append key) where
  idle k := by
    rw [Roster.append, List.mem_append, h.nodup.mem_erase_iff, List.mem_singleton, h.idle, hsets.slots]
    by_cases hk : k = key <;> simp [hk]
  inUse k := by
    rw [Roster.append, h.once.mem_erase_iff, h.inUse, hsets.slots]
    by_cases hk : k = key <;> simp [hk]
  ordered := by
    refine List.pairwise_append.2 ⟨h.ordered_erase hsets, List.pairwise_singleton _ _, fun k hk k' hk' => ?_⟩
    obtain rfl := List.mem_singleton.1 hk'
    obtain ⟨hne, hmem⟩ := h.nodup.mem_erase_iff.1 hk
    obtain ⟨s', released, hidle⟩ := (h.idle k).1 hmem
    have hslot : q.slots.get? k = some (.idle s' released) := by rw [hsets.slots, if_neg hne, hidle]
    have hlast : q.slots.get? k' = some (.idle s (p.tick + 1)) := by rw [hsets.slots, if_pos rfl]
    exact ⟨s', released, s, p.tick + 1, hslot, hlast, Nat.lt_succ_of_le (h.stamped k s' released hidle)⟩
  once := h.once.erase key
  stamped := h.stamped_of_sets hsets (by omega) fun s' released heq => by
    cases heq
    omega

/-! ## Making room -/

/-- The sandboxes of some keys were destroyed to make room: those at the beginning of the queue, as few as are enough,
or all if no number is enough. -/
structure Evicts (p : Pool) (queue gone rest : List SandboxKey) (destroyed : List Sandbox) (q : Pool) : Prop where
  split : queue = gone ++ rest
  enough : q.slots.size ≤ p.max ∨ rest = []
  least : ∀ n < gone.length, p.max < p.slots.size - n
  size : q.slots.size + gone.length = p.slots.size
  slots : ∀ key, q.slots.get? key = if key ∈ gone then none else p.slots.get? key
  destroyed : destroyed.map some = gone.map fun key => (p.idleAt? key).map (·.destroy)
  counted : q = { p with
    slots := q.slots
    counts := { p.counts with evicted := p.counts.evicted + gone.length } }

variable {queue gone rest used : List SandboxKey} {destroyed : List Sandbox}

theorem Evicts.none (henough : p.slots.size ≤ p.max ∨ queue = []) : p.Evicts queue [] queue [] p where
  split := rfl
  enough := henough
  least n hn := by cases hn
  size := rfl
  slots key := by rw [if_neg List.not_mem_nil]
  destroyed := rfl
  counted := rfl

/-- One round takes the first key of the queue, and the others go on with the rest. -/
theorem Evicts.cons {s : Sandbox} {released : Nat} (hfirst : key ∉ queue) (hfull : p.max < p.slots.size)
    (hslot : p.slots.get? key = some (.idle s released))
    (h : (p.evictKey key).Evicts queue gone rest destroyed q) :
    p.Evicts (key :: queue) (key :: gone) rest (s.destroy :: destroyed) q := by
  have hsize := (makesRoom_evictKey hslot).2
  have hslots : ∀ k, (p.evictKey key).slots.get? k = if k = key then .none else p.slots.get? k :=
    Table.get?_erase p.slots key
  refine ⟨by rw [h.split, List.cons_append], h.enough, fun n hn => ?_, ?_, fun k => ?_, ?_, ?_⟩
  · cases n with
    | zero => exact hfull
    | succ n =>
      have hleast : p.max < (p.evictKey key).slots.size - n := h.least n (Nat.lt_of_succ_lt_succ hn)
      omega
  · have hrest := h.size
    rw [List.length_cons]
    omega
  · rw [h.slots, hslots]
    by_cases hk : k = key <;> simp [hk]
  · have hhere : p.idleAt? key = some s := by rw [idleAt?, hslot]; rfl
    have hothers : ∀ k ∈ gone, (p.evictKey key).idleAt? k = p.idleAt? k := by
      intro k hk
      have hne : k ≠ key := by
        rintro rfl
        exact hfirst (h.split ▸ List.mem_append_left rest hk)
      rw [evictKey, idleAt?_erase, if_neg hne]
    rw [List.map_cons, List.map_cons, h.destroyed, hhere]
    refine congrArg (some s.destroy :: ·) (List.map_congr_left fun k hk => ?_)
    rw [hothers k hk]
  · rw [h.counted, evictKey, List.length_cons, Nat.add_assoc, Nat.add_comm 1]

/-- What goes was idle. -/
theorem Evicts.idle (h : p.Evicts queue gone rest destroyed q) (hkey : key ∈ gone) :
    ∃ s, p.idleAt? key = some s ∧ s.destroy ∈ destroyed := by
  have hmem : (p.idleAt? key).map (·.destroy) ∈ destroyed.map some :=
    h.destroyed ▸ List.mem_map_of_mem (f := fun key => (p.idleAt? key).map (·.destroy)) hkey
  obtain ⟨s', hs', heq⟩ := List.mem_map.1 hmem
  obtain ⟨s, hs, rfl⟩ := Option.map_eq_some_iff.1 heq.symm
  exact ⟨s, hs, hs'⟩

/-- A slot in use stays. -/
theorem Evicts.spares (h : p.Evicts queue gone rest destroyed q)
    (hslot : p.slots.get? key = some .building ∨ p.slots.get? key = some .leased) :
    q.slots.get? key = p.slots.get? key := by
  rw [h.slots, if_neg]
  intro hgone
  obtain ⟨s, hs, _⟩ := h.idle hgone
  obtain hslot | hslot := hslot
  · rw [idleAt?, hslot] at hs
    cases hs
  · rw [idleAt?, hslot] at hs
    cases hs

theorem Evicts.stage (h : p.Evicts queue gone rest destroyed q) {s : Sandbox} (hs : s ∈ destroyed) :
    s.stage = .destroyed := by
  have hmem : some s ∈ gone.map fun key => (p.idleAt? key).map (·.destroy) :=
    h.destroyed ▸ List.mem_map_of_mem hs
  obtain ⟨key, _, heq⟩ := List.mem_map.1 hmem
  obtain ⟨old, _, rfl⟩ := Option.map_eq_some_iff.1 heq
  exact Sandbox.destroy_stage old

theorem Represents.evictKey (h : p.Represents ⟨key :: queue, used⟩) :
    (p.evictKey key).Represents ⟨queue, used⟩ := by
  have hvacated := h.vacate (sets_erase p key { p.counts with evicted := p.counts.evicted + 1 }) (Nat.le_refl _)
  have hunused : key ∉ used := h.disjoint List.mem_cons_self
  rw [Roster.vacate, List.erase_cons_head, List.erase_of_not_mem hunused] at hvacated
  exact hvacated

/-- Where no sandbox has to go or none can, the queue is not cut. -/
theorem Represents.settled (h : p.Represents r) (hfits : p.slots.size ≤ p.max ∨ r.queue = []) :
    p.Represents (r.makeRoom p.max) ∧
      p.Evicts r.queue (r.queue.take (r.size - p.max)) (r.makeRoom p.max).queue [] p := by
  have hsize := h.size
  have huncut : r.queue.take (r.size - p.max) = [] ∧ r.queue.drop (r.size - p.max) = r.queue := by
    obtain hfits | hempty := hfits
    · have hzero : r.size - p.max = 0 := by omega
      rw [hzero]
      exact ⟨List.take_zero, List.drop_zero⟩
    · rw [hempty]
      exact ⟨List.take_nil, List.drop_nil⟩
  rw [Roster.makeRoom, huncut.1, huncut.2]
  exact ⟨h, .none hfits⟩

/-- Rounds of making room cut the queue at its beginning, if there are enough of them. -/
theorem Represents.evictUpTo {n : Nat} (h : p.Represents r) (hn : p.slots.size ≤ p.max + n) :
    (evictUpTo n p).2.Represents (r.makeRoom p.max) ∧
      p.Evicts r.queue (r.queue.take (r.size - p.max)) (r.makeRoom p.max).queue (evictUpTo n p).1
        (evictUpTo n p).2 := by
  induction n generalizing p r with
  | zero => exact h.settled (.inl hn)
  | succ n ih =>
    rw [Pool.evictUpTo]
    by_cases hfull : p.max < p.slots.size
    · rw [if_pos hfull, h.oldest?]
      obtain ⟨queue, used⟩ := r
      cases queue with
      | nil => exact h.settled (.inr rfl)
      | cons key rest =>
        obtain ⟨s, released, hslot⟩ := (h.idle key).1 List.mem_cons_self
        have hfirst : key ∉ rest := (List.nodup_cons.1 h.nodup).1
        have hsize := h.size
        have hshrinks := (makesRoom_evictKey hslot).2
        have henough : (p.evictKey key).slots.size ≤ (p.evictKey key).max + n := by
          change _ ≤ p.max + n
          omega
        obtain ⟨hrepresents, hevicts⟩ := ih h.evictKey henough
        have hexcess : (Roster.mk (key :: rest) used).size - p.max = (Roster.mk rest used).size - p.max + 1 := by
          rw [hsize] at hfull
          simp only [Roster.size, List.length_cons] at hfull ⊢
          omega
        have hhere : p.idleAt? key = some s := by rw [idleAt?, hslot]; rfl
        simp only [Roster.makeRoom, hexcess, List.take_succ_cons, List.drop_succ_cons, List.head?_cons, hhere]
        exact ⟨hrepresents, hevicts.cons hfirst hfull hslot⟩
    · rw [if_neg hfull]
      exact h.settled (.inl (Nat.le_of_not_lt hfull))

/-! ## The operations -/

/-- Whatever the operation, the slots stand for the queue before room is made. -/
theorem Represents.enter (h : p.Represents r) (d : Deed) : (p.enter d).Represents (r.enter d) := by
  cases d with
  | claim key =>
    have hused := h.inUse key
    rw [Pool.enter, Roster.enter, claim]
    split
    · rename_i hslot
      rw [if_neg fun hmem => by simpa [hslot] using hused.1 hmem]
      exact h.occupy (.inl rfl) (sets_put p key .building p.tick p.counts) (Nat.le_refl _)
    · rename_i hslot
      rw [if_neg fun hmem => by simpa [hslot] using hused.1 hmem]
      exact h.occupy (.inr rfl) (sets_put p key .leased p.tick _) (Nat.le_refl _)
    · rename_i hslot
      rw [if_pos (hused.2 (.inl hslot))]
      exact ⟨h.idle, h.inUse, h.ordered, h.once, h.stamped⟩
    · rename_i hslot
      rw [if_pos (hused.2 (.inr hslot))]
      exact ⟨h.idle, h.inUse, h.ordered, h.once, h.stamped⟩
  | finish key =>
    exact h.occupy (.inr rfl) (sets_put p key .leased p.tick _) (Nat.le_refl _)
  | abandon key => exact h.vacate (sets_erase p key p.counts) (Nat.le_refl _)
  | putBack key s =>
    rw [Pool.enter, Roster.enter]
    cases hs : isReusable s with
    | true =>
      rw [if_pos rfl, if_pos rfl]
      exact h.append (sets_put p key (.idle s (p.tick + 1)) (p.tick + 1) p.counts) rfl
    | false =>
      rw [if_neg Bool.false_ne_true, if_neg Bool.false_ne_true, putBack, hs, if_neg Bool.false_ne_true]
      exact h.vacate (sets_erase p key _) (Nat.le_refl _)
  | clear =>
    have hcleared : ∀ key, p.clear.2.slots.get? key = (p.slots.get? key).filter fun slot => slot.idle?.isNone :=
      Table.get?_filter p.slots _
    have hnone : ∀ key s released, p.clear.2.slots.get? key ≠ some (.idle s released) := by
      intro key s released hidle
      rw [hcleared, Option.filter_eq_some_iff] at hidle
      cases hidle.2
    refine ⟨fun key => ?_, fun key => ?_, .nil, h.once, fun key s released hidle => absurd hidle (hnone key s released)⟩
    · refine iff_of_false List.not_mem_nil ?_
      rintro ⟨s, released, hidle⟩
      exact hnone key s released hidle
    · rw [Roster.enter, h.inUse, Pool.enter, hcleared]
      cases p.slots.get? key with
      | none => simp
      | some slot => cases slot <;> simp [Slot.idle?]

theorem enter_kept (p : Pool) (d : Deed) :
    (p.enter d).max = p.max ∧ (p.enter d).counts.evicted = p.counts.evicted := by
  cases d with
  | claim key =>
    rw [enter, claim]
    split <;> exact ⟨rfl, rfl⟩
  | finish | abandon | clear => exact ⟨rfl, rfl⟩
  | putBack key s =>
    rw [enter, putBack]
    split <;> exact ⟨rfl, rfl⟩

theorem max_does (p : Pool) (d : Deed) : (p.does d).2.max = p.max := by
  cases hd : d.bringsIn with
  | false => rw [does_of_not_bringsIn hd, (p.enter_kept d).1]
  | true => rw [does_of_bringsIn hd, (makesRoom_evict _).max, (p.enter_kept d).1]

/-- One operation: the slots stand for the queue after it, and if a sandbox entered the pool, those that had to go for
it are at the beginning of the queue. -/
theorem Represents.does (h : p.Represents r) (d : Deed) :
    (p.does d).2.Represents (r.does p.max d) ∧
      (d.bringsIn = true → ∃ gone, (p.enter d).Evicts (r.enter d).queue gone (r.does p.max d).queue (p.does d).1
        (p.does d).2) := by
  have hentered := h.enter d
  rw [Roster.does]
  cases hd : d.bringsIn with
  | false =>
    rw [if_neg Bool.false_ne_true, does_of_not_bringsIn hd]
    exact ⟨hentered, fun hin => by cases hin⟩
  | true =>
    obtain ⟨hrepresents, hevicts⟩ := hentered.evictUpTo (Nat.le_add_left _ _)
    rw [if_pos rfl, does_of_bringsIn hd, ← (p.enter_kept d).1]
    exact ⟨hrepresents, fun _ => ⟨_, hevicts⟩⟩

/-- To reuse a sandbox is to take its key out of the queue. -/
theorem Represents.reuse (h : p.Represents r) {s : Sandbox} (hreuse : (p.claim key).1 = .reuse s) :
    key ∈ r.queue ∧ (r.does max (.claim key)).queue = r.queue.erase key := by
  have hidle := claim_reuse hreuse
  have hqueued : key ∈ r.queue := by
    rw [h.idle]
    unfold idleAt? at hidle
    cases hslot : p.slots.get? key with
    | none =>
      rw [hslot] at hidle
      cases hidle
    | some slot =>
      rw [hslot] at hidle
      cases slot with
      | building | leased => cases hidle
      | idle s released => exact ⟨s, released, rfl⟩
  refine ⟨hqueued, ?_⟩
  change (if key ∈ r.inUse then r else r.occupy key).queue = _
  rw [if_neg (h.disjoint hqueued)]
  rfl

/-- A sandbox that comes back and can be used again is the last of the queue. -/
theorem Represents.joins (h : p.Represents r) {s : Sandbox} (hslot : p.slots.get? key = some .leased)
    (hs : isReusable s = true) : (r.enter (.putBack key s)).queue = r.queue ++ [key] := by
  have hnew : key ∉ r.queue := fun hqueued => h.disjoint hqueued ((h.inUse key).2 (.inr hslot))
  rw [Roster.enter, if_pos hs, Roster.append, List.erase_of_not_mem hnew]

/-- Any number of operations. -/
theorem Represents.after (h : p.Represents r) (deeds : List Deed) :
    (p.after deeds).Represents (deeds.foldl (Roster.does p.max) r) ∧ (p.after deeds).max = p.max := by
  induction deeds generalizing p r with
  | nil => exact ⟨h, rfl⟩
  | cons d deeds ih =>
    obtain ⟨hrepresents, hmax⟩ := ih (h.does d).1
    rw [p.max_does d] at hrepresents hmax
    exact ⟨hrepresents, hmax⟩

end Pool

namespace Traffic

open Pool

variable {max : Nat} {t t' : Traffic}

theorem ask_pool (t : Traffic) (key : SandboxKey) : (t.ask key).pool = (t.pool.does (.claim key)).2 := by
  unfold ask
  rw [does]
  rcases t.pool.claim key with ⟨answer, p⟩
  cases answer <;> rfl

/-- What a user does to the pool is one operation, if it does anything to it. -/
theorem Step.deed (h : Step t t') : t'.pool = t.pool ∨ ∃ d, t'.pool = (t.pool.does d).2 := by
  cases h with
  | ask key => exact .inr ⟨.claim key, ask_pool t key⟩
  | wake => exact .inr ⟨.claim _, ask_pool _ _⟩
  | make | prepare | use | tidy | lose | notify => exact .inl rfl
  | @finish before after key => exact .inr ⟨.finish key, rfl⟩
  | @giveUp before after key => exact .inr ⟨.abandon key, rfl⟩
  | @putBack before after key s => exact .inr ⟨.putBack key s, rfl⟩
  | clear => exact .inr ⟨.clear, rfl⟩

theorem Reached.deeds (ht : Reached max t) : ∃ deeds, t.pool = (Pool.new max).after deeds := by
  refine ht.of_kept (P := fun t => ∃ deeds, t.pool = (Pool.new max).after deeds) ⟨[], rfl⟩ fun {t t'} h hstep => ?_
  obtain ⟨deeds, hdeeds⟩ := h
  obtain hkept | ⟨d, hd⟩ := hstep.deed
  · exact ⟨deeds, hkept.trans hdeeds⟩
  · refine ⟨deeds ++ [d], ?_⟩
    rw [hd, hdeeds, Pool.after, Pool.after, List.foldl_append]
    rfl

/-- Take a pool of any size and whatever any number of users do with it, in any order. What they did to the pool is a
sequence of operations, and the idle slots stand for the queue that this sequence leads to, in the order of their stamps
and without repetition. A key leaves the queue when its sandbox is reused, and joins it at the end when its sandbox
comes back and can be used again. If there are too many slots after a build or after such a return, the sandboxes of
the keys at the beginning of the queue are destroyed, as few as bring the number down to the bound, or all if no number
does. Slots in use stay, and the evicted sandboxes are counted. No other operation evicts any. -/
theorem evicts_in_order_of_release (ht : Reached max t) :
    ∃ deeds, t.pool = (Pool.new max).after deeds ∧
      t.pool.Represents (Roster.after max deeds) ∧ (Roster.after max deeds).queue.Nodup ∧
      (∀ t', Step t t' → t'.pool = t.pool ∨ ∃ d, t'.pool = (t.pool.does d).2) ∧
      (∀ key s, (t.pool.claim key).1 = .reuse s → key ∈ (Roster.after max deeds).queue ∧
        (Roster.after max (deeds ++ [.claim key])).queue = (Roster.after max deeds).queue.erase key) ∧
      (∀ key s, t.pool.slots.get? key = some .leased → isReusable s = true →
        ((Roster.after max deeds).enter (.putBack key s)).queue = (Roster.after max deeds).queue ++ [key]) ∧
      ∀ d, (t.pool.does d).2.Represents (Roster.after max (deeds ++ [d])) ∧
        (d.bringsIn = false → (t.pool.does d).2.counts.evicted = t.pool.counts.evicted) ∧
        (d.bringsIn = true → ∃ gone,
          (t.pool.enter d).Evicts ((Roster.after max deeds).enter d).queue gone
            (Roster.after max (deeds ++ [d])).queue (t.pool.does d).1 (t.pool.does d).2 ∧
          (t.pool.does d).2.counts.evicted = t.pool.counts.evicted + gone.length ∧
          (∀ s ∈ (t.pool.does d).1, s.stage = .destroyed) ∧
          ∀ key, (t.pool.enter d).slots.get? key = some .building ∨ (t.pool.enter d).slots.get? key = some .leased →
            (t.pool.does d).2.slots.get? key = (t.pool.enter d).slots.get? key) := by
  obtain ⟨deeds, hdeeds⟩ := ht.deeds
  obtain ⟨hrepresents, hmax⟩ : t.pool.Represents (Roster.after max deeds) ∧ t.pool.max = max :=
    hdeeds ▸ (represents_new max).after deeds
  have hnext : ∀ d, Roster.after max (deeds ++ [d]) = (Roster.after max deeds).does max d := fun d => by
    rw [Roster.after, List.foldl_append]
    rfl
  refine ⟨deeds, hdeeds, hrepresents, hrepresents.nodup, fun t' => Step.deed, fun key s hreuse => ?_,
    fun key s => hrepresents.joins, fun d => ?_⟩
  · rw [hnext]
    exact hrepresents.reuse hreuse
  obtain ⟨hthen, hevicts⟩ := hrepresents.does d
  rw [hmax] at hthen hevicts
  rw [hnext]
  refine ⟨hthen, fun hout => ?_, fun hin => ?_⟩
  · rw [does_of_not_bringsIn hout, (t.pool.enter_kept d).2]
  · obtain ⟨gone, hgone⟩ := hevicts hin
    refine ⟨gone, hgone, ?_, fun s => hgone.stage, fun key => hgone.spares⟩
    rw [hgone.counted, ← (t.pool.enter_kept d).2]

end Traffic

namespace Sample

def other : SandboxKey := ⟨.none, 31⟩

/-- Another user asks for another key and builds, while the first sandbox waits. -/
def askedOther : Traffic := returned.ask other

theorem reached_askedOther : Traffic.Reached 1 askedOther := reached_returned.step (.ask _ other)

end Sample

/-- One sandbox may be kept, and it waits while another user builds. It is at the beginning of the queue, and goes as
soon as the other sandbox is there. -/
theorem evicts_first_for_another :
    Traffic.Reached 1 Sample.askedOther ∧ ∃ deeds gone,
      Sample.askedOther.pool = (Pool.new 1).after deeds ∧
      Sample.pooled ∈ (Roster.after 1 deeds).queue ∧ gone = [Sample.pooled] ∧
      (Sample.askedOther.pool.enter (.finish Sample.other)).Evicts
        ((Roster.after 1 deeds).enter (.finish Sample.other)).queue gone
        (Roster.after 1 (deeds ++ [.finish Sample.other])).queue
        (Sample.askedOther.pool.does (.finish Sample.other)).1
        (Sample.askedOther.pool.does (.finish Sample.other)).2 := by
  obtain ⟨deeds, hdeeds, hrepresents, _, _, _, _, hdoes⟩ :=
    Traffic.evicts_in_order_of_release Sample.reached_askedOther
  obtain ⟨gone, hgone, _⟩ := (hdoes (.finish Sample.other)).2.2 rfl
  have hidle : Sample.askedOther.pool.slots.get? Sample.pooled = some (.idle Sample.configured 1) := rfl
  have hqueued := (hrepresents.idle Sample.pooled).2 ⟨_, _, hidle⟩
  have hlength : gone.length = 1 := by
    have hsize := hgone.size
    have hbefore : (Sample.askedOther.pool.enter (.finish Sample.other)).slots.size = 2 := rfl
    have hafter : (Sample.askedOther.pool.does (.finish Sample.other)).2.slots.size = 1 := rfl
    omega
  have hfirst : Sample.pooled ∈ gone := by
    have hslot := hgone.slots Sample.pooled
    by_contra hkept
    rw [if_neg hkept] at hslot
    cases hslot
  obtain ⟨key, rfl⟩ := List.length_eq_one_iff.1 hlength
  obtain rfl := List.mem_singleton.1 hfirst
  exact ⟨Sample.reached_askedOther, deeds, _, hdeeds, hqueued, rfl, hgone⟩

end Interpose
