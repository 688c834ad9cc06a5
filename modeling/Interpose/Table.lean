/-!
Finite maps over any keys that can be compared, as association lists without repeated keys.

A new key goes to the end and an old key keeps its place, so a table remembers the order in which its keys came.
-/

namespace Interpose

/-- A finite map; each key occurs once. -/
structure Table (κ α : Type) where
  entries : List (κ × α)
  distinct : (entries.map (·.1)).Nodup
deriving DecidableEq

namespace Table

variable {κ α : Type} [DecidableEq κ]

omit [DecidableEq κ] in
def empty : Table κ α := ⟨[], List.nodup_nil⟩

instance : Inhabited (Table κ α) := ⟨empty⟩

/-- Sets the value of a key in a list of entries, at its place or at the end. -/
def putEntry (key : κ) (value : α) : List (κ × α) → List (κ × α)
  | [] => [(key, value)]
  | (k, v) :: rest => if k = key then (k, value) :: rest else (k, v) :: putEntry key value rest

theorem keys_putEntry (key : κ) (value : α) (entries : List (κ × α)) :
    (putEntry key value entries).map (·.1) =
      if key ∈ entries.map (·.1) then entries.map (·.1) else entries.map (·.1) ++ [key] := by
  induction entries with
  | nil => simp [putEntry]
  | cons e rest ih =>
    obtain ⟨k, v⟩ := e
    by_cases h : k = key
    · simp [putEntry, h]
    · have h' : ¬ key = k := fun e => h e.symm
      simp only [putEntry, h, if_false, List.map_cons, ih, List.mem_cons, h', false_or]
      split <;> rfl

def put (t : Table κ α) (key : κ) (value : α) : Table κ α :=
  ⟨putEntry key value t.entries, by
    rw [keys_putEntry]
    split
    · exact t.distinct
    · rename_i h
      refine List.nodup_append.2 ⟨t.distinct, by simp, ?_⟩
      intro a ha b hb hab
      simp only [List.mem_singleton] at hb
      exact h (hb ▸ hab ▸ ha)⟩

omit [DecidableEq κ] in
def filter (t : Table κ α) (keep : κ → α → Bool) : Table κ α :=
  ⟨t.entries.filter fun e => keep e.1 e.2,
    List.Nodup.sublist (List.filter_sublist.map _) t.distinct⟩

def erase (t : Table κ α) (key : κ) : Table κ α :=
  t.filter fun k _ => k ≠ key

def get? (t : Table κ α) (key : κ) : Option α :=
  (t.entries.find? fun e => e.1 = key).map (·.2)

def contains (t : Table κ α) (key : κ) : Bool := (t.get? key).isSome

omit [DecidableEq κ] in
/-- The keys, in the order they came. -/
def keys (t : Table κ α) : List κ := t.entries.map (·.1)

omit [DecidableEq κ] in
def values (t : Table κ α) : List α := t.entries.map (·.2)

omit [DecidableEq κ] in
def size (t : Table κ α) : Nat := t.entries.length

/-- The table of a list of entries; of entries that share a key the last value counts. -/
def ofList (entries : List (κ × α)) : Table κ α :=
  entries.foldl (fun t e => t.put e.1 e.2) empty

@[simp] theorem get?_empty (key : κ) : (empty : Table κ α).get? key = none := rfl

theorem get?_eq_some_iff {t : Table κ α} {key : κ} {value : α} :
    t.get? key = some value ↔ (key, value) ∈ t.entries := by
  obtain ⟨entries, h⟩ := t
  induction entries with
  | nil => simp [get?]
  | cons e rest ih =>
    obtain ⟨k, v⟩ := e
    have hrest := (List.nodup_cons.1 h).2
    have hk : k ∉ rest.map (·.1) := (List.nodup_cons.1 h).1
    by_cases hkey : k = key
    · subst hkey
      have hnot : (k, value) ∉ rest := fun hmem => hk (List.mem_map_of_mem hmem)
      simp [get?, hnot, eq_comm]
    · have hkey' : ¬ key = k := fun e => hkey e.symm
      simpa [get?, hkey, hkey'] using ih hrest

@[simp] theorem get?_put (t : Table κ α) (key : κ) (value : α) (k : κ) :
    (t.put key value).get? k = if k = key then some value else t.get? k := by
  obtain ⟨entries, h⟩ := t
  simp only [get?, put]
  clear h
  induction entries with
  | nil => by_cases h : k = key <;> simp [putEntry, h, eq_comm]
  | cons e rest ih =>
    obtain ⟨k', v⟩ := e
    by_cases hkey : k' = key
    · subst hkey
      by_cases h : k = k'
      · simp [putEntry, h]
      · have h' : ¬ k' = k := fun e => h e.symm
        simp [putEntry, h, h']
    · by_cases h : k' = k
      · subst h
        simp [putEntry, hkey]
      · simpa [putEntry, hkey, h] using ih

theorem get?_filter (t : Table κ α) (keep : κ → α → Bool) (key : κ) :
    (t.filter keep).get? key = (t.get? key).filter (keep key) := by
  apply Option.ext
  intro value
  rw [Option.filter_eq_some_iff, get?_eq_some_iff, get?_eq_some_iff, filter, List.mem_filter]

@[simp] theorem get?_erase (t : Table κ α) (key k : κ) :
    (t.erase key).get? k = if k = key then none else t.get? k := by
  rw [erase, get?_filter]
  by_cases h : k = key <;> cases t.get? k <;> simp [h]

end Table

end Interpose
