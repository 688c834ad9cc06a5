/-!
Finite maps with string keys, listed in strictly increasing key order.

The order is part of the type, so two maps with the same bindings are equal, and whatever walks a map
(validation, reports, resets) meets the keys in one known order. Strings are ordered by code points,
which is also the order of their UTF-8 bytes.
-/

namespace Interpose

def KeySorted {α : Type} (entries : List (String × α)) : Prop :=
  entries.Pairwise fun a b => a.1 < b.1

/-- A finite map from strings, in key order. -/
structure KeyMap (α : Type) where
  entries : List (String × α)
  /-- The keys increase strictly, so each is bound once. -/
  sorted : KeySorted entries
deriving DecidableEq

namespace KeyMap

variable {α β : Type}

def empty : KeyMap α := ⟨[], List.Pairwise.nil⟩

instance : Inhabited (KeyMap α) := ⟨empty⟩

/-- Binds `key` in an ordered list of bindings, at its place or over its old value. -/
def insertEntry (key : String) (value : α) : List (String × α) → List (String × α)
  | [] => [(key, value)]
  | (k, v) :: rest =>
    if key < k then (key, value) :: (k, v) :: rest
    else if k < key then (k, v) :: insertEntry key value rest
    else (key, value) :: rest

theorem mem_insertEntry {key : String} {value : α} {e : String × α} :
    ∀ {entries : List (String × α)}, e ∈ insertEntry key value entries →
      e = (key, value) ∨ e ∈ entries
  | [], h => by simpa [insertEntry] using h
  | (k, v) :: rest, h => by
    unfold insertEntry at h
    split at h
    · simpa using h
    · split at h
      · rcases List.mem_cons.1 h with h | h
        · exact .inr (h ▸ List.mem_cons_self)
        · exact (mem_insertEntry h).imp_right (List.mem_cons_of_mem _)
      · rcases List.mem_cons.1 h with h | h
        · exact .inl h
        · exact .inr (List.mem_cons_of_mem _ h)

theorem keySorted_insertEntry (key : String) (value : α) :
    ∀ {entries : List (String × α)}, KeySorted entries → KeySorted (insertEntry key value entries)
  | [], _ => by simp [KeySorted, insertEntry]
  | (k, v) :: rest, h => by
    have hrest : KeySorted rest := (List.pairwise_cons.1 h).2
    have hk : ∀ e ∈ rest, k < e.1 := (List.pairwise_cons.1 h).1
    unfold insertEntry
    split
    · rename_i hlt
      refine List.pairwise_cons.2 ⟨fun e he => ?_, h⟩
      rcases List.mem_cons.1 he with he | he
      · simpa [he] using hlt
      · exact String.lt_trans hlt (hk e he)
    · split
      · rename_i hlt
        refine List.pairwise_cons.2 ⟨fun e he => ?_, keySorted_insertEntry key value hrest⟩
        rcases mem_insertEntry he with he | he
        · simpa [he] using hlt
        · exact hk e he
      · rename_i h1 h2
        have heq : key = k := String.le_antisymm (String.not_lt.1 h2) (String.not_lt.1 h1)
        exact List.pairwise_cons.2 ⟨fun e he => heq ▸ hk e he, hrest⟩

/-- Binds `key` to `value`, over any earlier binding of `key`. -/
def insert (m : KeyMap α) (key : String) (value : α) : KeyMap α :=
  ⟨insertEntry key value m.entries, keySorted_insertEntry key value m.sorted⟩

/-- Later bindings of a list win over earlier ones. -/
def ofList (bindings : List (String × α)) : KeyMap α :=
  bindings.foldl (fun m b => m.insert b.1 b.2) empty

def get? (m : KeyMap α) (key : String) : Option α :=
  (m.entries.find? fun e => e.1 == key).map (·.2)

def contains (m : KeyMap α) (key : String) : Bool :=
  (m.get? key).isSome

/-- The keys, increasing. -/
def keys (m : KeyMap α) : List String := m.entries.map (·.1)

def values (m : KeyMap α) : List α := m.entries.map (·.2)

def size (m : KeyMap α) : Nat := m.entries.length

def isEmpty (m : KeyMap α) : Bool := m.entries.isEmpty

def map (f : α → β) (m : KeyMap α) : KeyMap β :=
  ⟨m.entries.map fun e => (e.1, f e.2), by
    simpa [KeySorted, List.pairwise_map] using m.sorted⟩

@[simp] theorem get?_empty (key : String) : (empty : KeyMap α).get? key = none := rfl

theorem find?_eq_some_iff {entries : List (String × α)} (h : KeySorted entries) {key : String} {value : α} :
    ((entries.find? fun e => e.1 == key).map (·.2)) = some value ↔ (key, value) ∈ entries := by
  induction entries with
  | nil => simp
  | cons e rest ih =>
    obtain ⟨k, v⟩ := e
    have hrest : KeySorted rest := (List.pairwise_cons.1 h).2
    have hk : ∀ e ∈ rest, k < e.1 := (List.pairwise_cons.1 h).1
    by_cases hkey : k = key
    · subst hkey
      have hnot : (k, value) ∉ rest := fun hmem => String.lt_irrefl k (hk _ hmem)
      simp [hnot, eq_comm]
    · have hkey' : ¬ key = k := fun e => hkey e.symm
      simpa [hkey, hkey'] using ih hrest

theorem get?_eq_some_iff {m : KeyMap α} {key : String} {value : α} :
    m.get? key = some value ↔ (key, value) ∈ m.entries :=
  find?_eq_some_iff m.sorted

theorem find?_insertEntry (key : String) (value : α) (k : String) :
    ∀ entries : List (String × α),
      ((insertEntry key value entries).find? fun e => e.1 == k).map (·.2) =
        if k = key then some value else (entries.find? fun e => e.1 == k).map (·.2)
  | [] => by
    by_cases h : k = key
    · simp [insertEntry, h]
    · have h' : ¬ key = k := fun e => h e.symm
      simp [insertEntry, h, h']
  | (k', v) :: rest => by
    by_cases h : k = key
    · subst h
      unfold insertEntry
      split
      · simp
      · split
        · rename_i hlt
          have hne : ¬ k' = k := fun e => String.lt_irrefl k (e ▸ hlt)
          simpa [hne] using find?_insertEntry k value k rest
        · simp
    · have h' : ¬ key = k := fun e => h e.symm
      unfold insertEntry
      split
      · simp [h']
      · split
        · have ih := find?_insertEntry key value k rest
          by_cases hk : k' = k <;> simp_all
        · rename_i h1 h2
          have heq : key = k' := String.le_antisymm (String.not_lt.1 h2) (String.not_lt.1 h1)
          simp [h', ← heq]

@[simp] theorem get?_insert (m : KeyMap α) (key : String) (value : α) (k : String) :
    (m.insert key value).get? k = if k = key then some value else m.get? k :=
  find?_insertEntry key value k m.entries

theorem eq_of_keySorted : ∀ {xs ys : List (String × α)}, KeySorted xs → KeySorted ys →
    (∀ e, e ∈ xs ↔ e ∈ ys) → xs = ys
  | [], [], _, _, _ => rfl
  | [], y :: _, _, _, h => absurd ((h y).2 List.mem_cons_self) List.not_mem_nil
  | x :: _, [], _, _, h => absurd ((h x).1 List.mem_cons_self) List.not_mem_nil
  | x :: xs, y :: ys, hx, hy, h => by
    have hxs := List.pairwise_cons.1 hx
    have hys := List.pairwise_cons.1 hy
    have heads : x = y := by
      rcases List.mem_cons.1 ((h x).1 List.mem_cons_self) with hxy | hxy
      · exact hxy
      · rcases List.mem_cons.1 ((h y).2 List.mem_cons_self) with hyx | hyx
        · exact hyx.symm
        · exact absurd (String.lt_trans (hxs.1 y hyx) (hys.1 x hxy)) (String.lt_irrefl _)
    subst heads
    have tails : xs = ys := eq_of_keySorted hxs.2 hys.2 fun e => by
      constructor
      · intro he
        rcases List.mem_cons.1 ((h e).1 (List.mem_cons_of_mem _ he)) with hex | hmem
        · exact absurd (hxs.1 e he) (hex ▸ String.lt_irrefl _)
        · exact hmem
      · intro he
        rcases List.mem_cons.1 ((h e).2 (List.mem_cons_of_mem _ he)) with hex | hmem
        · exact absurd (hys.1 e he) (hex ▸ String.lt_irrefl _)
        · exact hmem
    rw [tails]

/-- Maps that bind every key alike are equal. -/
theorem ext_get? {m n : KeyMap α} (h : ∀ key, m.get? key = n.get? key) : m = n := by
  obtain ⟨xs, hxs⟩ := m
  obtain ⟨ys, hys⟩ := n
  have : xs = ys := eq_of_keySorted hxs hys fun e => by
    have hkey := h e.1
    rw [← get?_eq_some_iff (m := ⟨xs, hxs⟩), ← get?_eq_some_iff (m := ⟨ys, hys⟩), hkey]
  subst this
  rfl

end KeyMap

/-- A finite set of strings, listed in increasing order. -/
abbrev KeySet := KeyMap Unit

namespace KeySet

def add (s : KeySet) (key : String) : KeySet := s.insert key ()

def ofKeys (keys : List String) : KeySet :=
  keys.foldl add KeyMap.empty

end KeySet

end Interpose
