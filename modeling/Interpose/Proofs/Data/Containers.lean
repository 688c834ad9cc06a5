import Interpose.KeyMap
import Interpose.Table
import Mathlib.Data.List.Induction

/-!
# What maps, sets and tables hold after an operation

The laws of look-up beside the definitions say what a key gives. The laws here say which keys there are and how
many, which is what counting caches and comparing registries needs.
-/

namespace Interpose

/-- The last element of a kind that a list has. -/
theorem exists_last {α : Type} {p : α → Prop} {l : List α} (hany : ∃ a ∈ l, p a) :
    ∃ before a after, l = before ++ a :: after ∧ p a ∧ ∀ b ∈ after, ¬p b := by
  induction l with
  | nil => exact absurd hany.choose_spec.1 List.not_mem_nil
  | cons first rest ih =>
    by_cases hlater : ∃ a ∈ rest, p a
    · obtain ⟨before, a, after, rfl, ha, hafter⟩ := ih hlater
      exact ⟨first :: before, a, after, rfl, ha, hafter⟩
    · obtain ⟨a, hmem, ha⟩ := hany
      obtain rfl | hrest := List.mem_cons.1 hmem
      · exact ⟨[], a, rest, rfl, ha, fun b hb hp => hlater ⟨b, hb, hp⟩⟩
      · exact absurd ⟨a, hrest, ha⟩ hlater

/-- Of the values that are bound to a key one after another, the last one stays. -/
theorem foldl_bind_eq_some_iff {σ κ α : Type} [DecidableEq κ] {get : σ → κ → Option α} {bind : σ → κ → α → σ}
    (hbind : ∀ s key value k, get (bind s key value) k = if k = key then some value else get s k)
    {bindings : List (κ × α)} {s : σ} {key : κ} {value : α} :
    get (bindings.foldl (fun s b => bind s b.1 b.2) s) key = some value ↔
      (∃ before after, bindings = before ++ (key, value) :: after ∧ ∀ e ∈ after, e.1 ≠ key) ∨
        (∀ e ∈ bindings, e.1 ≠ key) ∧ get s key = some value := by
  induction bindings generalizing s with
  | nil => simp
  | cons e rest ih =>
    rw [List.foldl_cons, ih, hbind]
    constructor
    · rintro (⟨before, after, rfl, hafter⟩ | ⟨hrest, hvalue⟩)
      · exact .inl ⟨e :: before, after, rfl, hafter⟩
      · split at hvalue
        · rename_i hkey
          obtain rfl : e = (key, value) := Prod.ext hkey.symm (Option.some.inj hvalue)
          exact .inl ⟨[], rest, rfl, hrest⟩
        · rename_i hkey
          exact .inr ⟨List.forall_mem_cons.2 ⟨fun h => hkey h.symm, hrest⟩, hvalue⟩
    · rintro (⟨before, after, hsplit, hafter⟩ | ⟨hall, hvalue⟩)
      · cases before with
        | nil =>
          obtain ⟨rfl, rfl⟩ := List.cons.inj hsplit
          exact .inr ⟨hafter, if_pos rfl⟩
        | cons first before =>
          obtain ⟨rfl, rfl⟩ := List.cons.inj hsplit
          exact .inl ⟨before, after, rfl, hafter⟩
      · obtain ⟨hkey, hrest⟩ := List.forall_mem_cons.1 hall
        exact .inr ⟨hrest, by rw [if_neg fun h => hkey h.symm, hvalue]⟩

namespace KeyMap

variable {α : Type}

/-- The listed keys are those that are bound. -/
theorem mem_keys_iff {m : KeyMap α} {key : String} : key ∈ m.keys ↔ ∃ value, m.get? key = some value := by
  constructor
  · intro h
    obtain ⟨⟨k, value⟩, hmem, rfl⟩ := List.mem_map.1 h
    exact ⟨value, get?_eq_some_iff.2 hmem⟩
  · rintro ⟨value, h⟩
    exact List.mem_map_of_mem (get?_eq_some_iff.1 h)

/-- A binding is the only one of its key. -/
theorem exists_split_of_get? {m : KeyMap α} {key : String} {value : α} (h : m.get? key = some value) :
    ∃ before after, m.entries = before ++ (key, value) :: after ∧ (∀ e ∈ before, e.1 ≠ key) ∧
      ∀ e ∈ after, e.1 ≠ key := by
  obtain ⟨before, after, hsplit⟩ := List.append_of_mem (get?_eq_some_iff.1 h)
  have hsorted := m.sorted
  rw [KeySorted, hsplit, List.pairwise_append, List.pairwise_cons] at hsorted
  obtain ⟨_, ⟨hafter, _⟩, hbefore⟩ := hsorted
  exact ⟨before, after, hsplit, fun e he => String.ne_of_lt (hbefore e he _ List.mem_cons_self),
    fun e he => (String.ne_of_lt (hafter e he)).symm⟩

theorem mem_values_iff {m : KeyMap α} {value : α} : value ∈ m.values ↔ ∃ key, m.get? key = some value := by
  constructor
  · intro h
    obtain ⟨⟨key, v⟩, hmem, rfl⟩ := List.mem_map.1 h
    exact ⟨key, get?_eq_some_iff.2 hmem⟩
  · rintro ⟨key, h⟩
    exact List.mem_map_of_mem (f := (·.2)) (get?_eq_some_iff.1 h)

/-- A map is empty if it binds no key. -/
theorem isEmpty_iff {m : KeyMap α} : m.isEmpty = true ↔ ∀ key, m.contains key = false := by
  rw [isEmpty, List.isEmpty_iff, List.eq_nil_iff_forall_not_mem]
  constructor
  · intro h key
    cases hget : m.get? key with
    | none => rw [contains, hget, Option.isSome_none]
    | some value => exact absurd (get?_eq_some_iff.1 hget) (h _)
  · intro h e he
    have hget := get?_eq_some_iff.2 he
    have hnot := h e.1
    rw [contains, hget] at hnot
    cases hnot

/-- Of the values that are bound to a key one after another, the last one stays. -/
theorem get?_foldl_insert {bindings : List (String × α)} {m : KeyMap α} {key : String} {value : α} :
    (bindings.foldl (fun m b => m.insert b.1 b.2) m).get? key = some value ↔
      (∃ before after, bindings = before ++ (key, value) :: after ∧ ∀ e ∈ after, e.1 ≠ key) ∨
        (∀ e ∈ bindings, e.1 ≠ key) ∧ m.get? key = some value :=
  foldl_bind_eq_some_iff get?_insert

/-- A binding of another key makes no difference, wherever it comes. -/
theorem get?_ofList_of_ne {before after : List (String × α)} {e : String × α} {key : String} (hne : key ≠ e.1) :
    (ofList (before ++ e :: after)).get? key = (ofList (before ++ after)).get? key := by
  simp only [ofList, List.foldl_append, List.foldl_cons]
  induction after using List.reverseRecOn with
  | nil => exact (get?_insert _ _ _ _).trans (if_neg hne)
  | append_singleton after last ih =>
    simp only [List.foldl_append, List.foldl_cons, List.foldl_nil, get?_insert, ih]

end KeyMap

namespace KeySet

/-- Adding makes its key a member and changes nothing else. -/
theorem contains_add (s : KeySet) (key k : String) :
    (s.add key).contains k = (decide (k = key) || s.contains k) := by
  unfold add KeyMap.contains
  rw [KeyMap.get?_insert]
  by_cases h : k = key <;> simp [h]

theorem contains_foldl_add (keys : List String) (s : KeySet) (k : String) :
    (keys.foldl add s).contains k = (decide (k ∈ keys) || s.contains k) := by
  induction keys generalizing s with
  | nil => simp
  | cons key rest ih =>
    rw [List.foldl_cons, ih, contains_add]
    by_cases h : k = key <;> by_cases hr : k ∈ rest <;> simp [h, hr]

theorem mem_keys_foldl_add {keys : List String} {s : KeySet} {k : String} :
    k ∈ (keys.foldl add s).keys ↔ k ∈ keys ∨ k ∈ s.keys := by
  have hmem : ∀ t : KeySet, k ∈ t.keys ↔ t.contains k = true := fun t => by
    rw [KeyMap.mem_keys_iff, KeyMap.contains, Option.isSome_iff_exists]
  rw [hmem, hmem, contains_foldl_add, Bool.or_eq_true, decide_eq_true_eq]

/-- Sets with the same members are equal. -/
theorem ext_contains {s t : KeySet} (h : ∀ key, s.contains key = t.contains key) : s = t := by
  refine KeyMap.ext_get? fun key => ?_
  have hkey : (s.get? key).isSome = (t.get? key).isSome := h key
  cases hs : s.get? key <;> cases ht : t.get? key <;> simp_all

/-- A set made from a list has the members of the list. -/
theorem contains_ofKeys {keys : List String} {k : String} : (ofKeys keys).contains k = true ↔ k ∈ keys := by
  rw [ofKeys, contains_foldl_add]
  simp [KeyMap.contains]

theorem mem_keys_ofKeys {keys : List String} {k : String} : k ∈ (ofKeys keys).keys ↔ k ∈ keys :=
  mem_keys_foldl_add.trans (or_iff_left List.not_mem_nil)

theorem isEmpty_ofKeys {keys : List String} : (ofKeys keys).isEmpty = true ↔ keys = [] := by
  rw [KeyMap.isEmpty_iff, List.eq_nil_iff_forall_not_mem]
  simp only [← @contains_ofKeys keys, Bool.not_eq_true]

end KeySet

namespace Table

variable {κ α : Type} [DecidableEq κ]

/-- The keys are those that have a value. -/
theorem mem_keys_iff {t : Table κ α} {key : κ} : key ∈ t.keys ↔ ∃ value, t.get? key = some value := by
  constructor
  · intro h
    obtain ⟨⟨k, value⟩, hmem, rfl⟩ := List.mem_map.1 h
    exact ⟨value, get?_eq_some_iff.2 hmem⟩
  · rintro ⟨value, h⟩
    exact List.mem_map_of_mem (get?_eq_some_iff.1 h)

theorem get?_eq_none_iff {t : Table κ α} {key : κ} : t.get? key = none ↔ key ∉ t.keys := by
  rw [mem_keys_iff, Option.eq_none_iff_forall_ne_some, not_exists]

/-- The table of a list of entries has for each key the last value that the list has for it. -/
theorem get?_ofList_eq_some_iff {entries : List (κ × α)} {key : κ} {value : α} :
    (ofList entries).get? key = some value ↔
      ∃ before after, entries = before ++ (key, value) :: after ∧ ∀ e ∈ after, e.1 ≠ key := by
  rw [ofList, foldl_bind_eq_some_iff get?_put, get?_empty]
  simp

theorem get?_ofList_eq_none {entries : List (κ × α)} {key : κ} (hne : ∀ e ∈ entries, e.1 ≠ key) :
    (ofList entries).get? key = none := by
  refine Option.eq_none_iff_forall_ne_some.2 fun value hvalue => ?_
  obtain ⟨before, after, rfl, _⟩ := get?_ofList_eq_some_iff.1 hvalue
  exact hne _ List.mem_append_cons_self rfl

theorem get?_ofList_concat (entries : List (κ × α)) (e : κ × α) (key : κ) :
    (ofList (entries ++ [e])).get? key = if key = e.1 then some e.2 else (ofList entries).get? key := by
  rw [ofList, List.foldl_append]
  exact get?_put _ _ _ _

/-- What the second of two lists has for a key counts before what the first one has. -/
theorem get?_ofList_append (before after : List (κ × α)) (key : κ) :
    (ofList (before ++ after)).get? key = ((ofList after).get? key).or ((ofList before).get? key) := by
  induction after using List.reverseRecOn with
  | nil => rw [List.append_nil]; rfl
  | append_singleton after e ih =>
    rw [← List.append_assoc, get?_ofList_concat, get?_ofList_concat, ih]
    split <;> rfl

/-- Keys may be renamed, as long as they stay apart. -/
theorem get?_ofList_map {κ' : Type} [DecidableEq κ'] {rename : κ → κ'} (hrename : Function.Injective rename)
    (entries : List (κ × α)) (key : κ) :
    (ofList (entries.map fun e => (rename e.1, e.2))).get? (rename key) = (ofList entries).get? key := by
  induction entries using List.reverseRecOn with
  | nil => rfl
  | append_singleton entries e ih =>
    rw [List.map_append, List.map_singleton, get?_ofList_concat, get?_ofList_concat, ih]
    simp only [hrename.eq_iff]

theorem get?_ofList_of_nodup {entries : List (κ × α)} (h : (entries.map (·.1)).Nodup) {key : κ} {value : α} :
    (ofList entries).get? key = some value ↔ (key, value) ∈ entries := by
  rw [get?_ofList_eq_some_iff]
  constructor
  · rintro ⟨before, after, rfl, _⟩
    exact List.mem_append_cons_self
  · intro hmem
    obtain ⟨before, after, rfl⟩ := List.append_of_mem hmem
    rw [List.map_append, List.map_cons, List.nodup_append, List.nodup_cons] at h
    exact ⟨before, after, rfl, fun e he hkey => h.2.1.1 (List.mem_map.2 ⟨e, he, hkey⟩)⟩

theorem keys_put (t : Table κ α) (key : κ) (value : α) :
    (t.put key value).keys = if key ∈ t.keys then t.keys else t.keys ++ [key] :=
  keys_putEntry key value t.entries

omit [DecidableEq κ] in
theorem length_keys (t : Table κ α) : t.keys.length = t.size := List.length_map _

omit [DecidableEq κ] in
theorem eq_empty_of_size {t : Table κ α} (h : t.size = 0) : t = empty := by
  obtain ⟨entries, distinct⟩ := t
  obtain rfl : entries = [] := List.eq_nil_of_length_eq_zero h
  rfl

omit [DecidableEq κ] in
theorem size_eq_zero_iff {t : Table κ α} : t.size = 0 ↔ t = empty := ⟨eq_empty_of_size, by rintro rfl; rfl⟩

theorem eq_empty_iff {t : Table κ α} : t = empty ↔ ∀ key, t.get? key = none := by
  constructor
  · rintro rfl key
    rfl
  · intro hnone
    refine eq_empty_of_size ?_
    rw [← length_keys, List.length_eq_zero_iff, List.eq_nil_iff_forall_not_mem]
    exact fun key => get?_eq_none_iff.1 (hnone key)

/-- A key that was not there makes a table larger by one. -/
theorem size_put_of_get?_eq_none {t : Table κ α} {key : κ} (h : t.get? key = none) (value : α) :
    (t.put key value).size = t.size + 1 := by
  rw [← length_keys, keys_put, if_neg (get?_eq_none_iff.1 h), List.length_append, length_keys]
  rfl

/-- Entries of other keys are passed over. -/
theorem putEntry_append {key : κ} {before : List (κ × α)} (hbefore : ∀ e ∈ before, e.1 ≠ key) (value : α)
    (rest : List (κ × α)) : putEntry key value (before ++ rest) = before ++ putEntry key value rest := by
  induction before with
  | nil => rfl
  | cons e before ih =>
    rw [List.forall_mem_cons] at hbefore
    rw [List.cons_append, putEntry, if_neg hbefore.1, ih hbefore.2]
    rfl

theorem filter_ne_eq_self {key : κ} {entries : List (κ × α)} (h : ∀ e ∈ entries, e.1 ≠ key) :
    entries.filter (fun e => decide (e.1 ≠ key)) = entries :=
  List.filter_eq_self.2 fun e he => decide_eq_true (h e he)

/-- A key that is bound has one place in the table, where its value may be changed or which may be taken out. -/
theorem entries_of_get?_eq_some {t : Table κ α} {key : κ} {value : α} (h : t.get? key = some value) :
    ∃ before after, t.entries = before ++ (key, value) :: after ∧
      (∀ new, (t.put key new).entries = before ++ (key, new) :: after) ∧
      (t.erase key).entries = before ++ after := by
  obtain ⟨before, after, hentries⟩ := List.append_of_mem (get?_eq_some_iff.1 h)
  have hdistinct := t.distinct
  rw [hentries, List.map_append, List.map_cons, List.nodup_append, List.nodup_cons] at hdistinct
  obtain ⟨_, ⟨hkey, _⟩, hapart⟩ := hdistinct
  have hbefore : ∀ e ∈ before, e.1 ≠ key := fun e he =>
    hapart e.1 (List.mem_map_of_mem he) key List.mem_cons_self
  have hafter : ∀ e ∈ after, e.1 ≠ key := by
    rintro e he rfl
    exact hkey (List.mem_map.2 ⟨e, he, rfl⟩)
  refine ⟨before, after, hentries, fun new => ?_, ?_⟩
  · change putEntry key new t.entries = _
    rw [hentries, putEntry_append hbefore, putEntry, if_pos rfl]
  · change t.entries.filter (fun e => decide (e.1 ≠ key)) = _
    rw [hentries, List.filter_append, List.filter_cons_of_neg (by simp), filter_ne_eq_self hbefore,
      filter_ne_eq_self hafter]

/-- A key that is not bound goes to the end, and there is nothing to take out. -/
theorem entries_of_get?_eq_none {t : Table κ α} {key : κ} (h : t.get? key = none) :
    (∀ new, (t.put key new).entries = t.entries ++ [(key, new)]) ∧ (t.erase key).entries = t.entries := by
  have hother : ∀ e ∈ t.entries, e.1 ≠ key := by
    rintro e he rfl
    exact get?_eq_none_iff.1 h (List.mem_map_of_mem he)
  refine ⟨fun new => ?_, filter_ne_eq_self hother⟩
  have hput := putEntry_append hother new []
  rw [List.append_nil] at hput
  exact hput

/-- What binding a key anew changes in the number of values of a sort. -/
theorem countP_values_put (t : Table κ α) (key : κ) (value : α) (sort : α → Bool) :
    (t.put key value).values.countP sort + (t.get? key).toList.countP sort =
      t.values.countP sort + [value].countP sort := by
  unfold values
  cases h : t.get? key with
  | none =>
    obtain ⟨hput, _⟩ := entries_of_get?_eq_none h
    rw [hput value, List.map_append, List.countP_append]
    rfl
  | some old =>
    obtain ⟨before, after, hentries, hput, _⟩ := entries_of_get?_eq_some h
    rw [hput value, hentries]
    simp only [List.map_append, List.map_cons, List.countP_append, List.countP_cons, Option.toList_some,
      List.countP_nil]
    omega

/-- What taking out a key changes in the number of values of a sort. -/
theorem countP_values_erase (t : Table κ α) (key : κ) (sort : α → Bool) :
    (t.erase key).values.countP sort + (t.get? key).toList.countP sort = t.values.countP sort := by
  unfold values
  cases h : t.get? key with
  | none =>
    obtain ⟨_, herase⟩ := entries_of_get?_eq_none h
    rw [herase]
    rfl
  | some old =>
    obtain ⟨before, after, hentries, _, herase⟩ := entries_of_get?_eq_some h
    rw [herase, hentries]
    simp only [List.map_append, List.map_cons, List.countP_append, List.countP_cons, Option.toList_some,
      List.countP_nil]
    omega

omit [DecidableEq κ] in
/-- The values that stay when some are taken out. -/
theorem countP_values_filter (t : Table κ α) (keep sort : α → Bool) :
    (t.filter fun _ value => keep value).values.countP sort =
      t.values.countP fun value => sort value && keep value := by
  simp only [values, filter, List.countP_map, List.countP_filter]
  rfl

omit [DecidableEq κ] in
theorem size_filter_le (t : Table κ α) (keep : κ → α → Bool) : (t.filter keep).size ≤ t.size :=
  List.length_filter_le _ _

end Table

end Interpose
