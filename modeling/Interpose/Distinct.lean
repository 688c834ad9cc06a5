/-!
Lists without repeated keys: of the items that share a key, the first one stays.
-/

namespace Interpose

def firstPerKey {α κ : Type} [DecidableEq κ] (key : α → κ) : List α → List α
  | [] => []
  | a :: rest => a :: (firstPerKey key rest).filter fun b => key b ≠ key a

variable {α κ : Type} [DecidableEq κ] {key : α → κ}

theorem mem_of_mem_firstPerKey {a : α} : ∀ {items : List α}, a ∈ firstPerKey key items → a ∈ items
  | [], h => h
  | b :: rest, h => by
    rcases List.mem_cons.1 h with h | h
    · exact h ▸ List.mem_cons_self
    · exact List.mem_cons_of_mem _ (mem_of_mem_firstPerKey (List.mem_filter.1 h).1)

theorem nodup_keys_firstPerKey : ∀ items : List α, ((firstPerKey key items).map key).Nodup
  | [] => List.nodup_nil
  | a :: rest => by
    have hrest := nodup_keys_firstPerKey rest
    refine List.nodup_cons.2 ⟨?_, hrest.sublist (List.filter_sublist.map key)⟩
    simp

theorem exists_mem_firstPerKey {a : α} :
    ∀ {items : List α}, a ∈ items → ∃ b ∈ firstPerKey key items, key b = key a
  | b :: rest, h => by
    by_cases hkey : key b = key a
    · exact ⟨b, List.mem_cons_self, hkey⟩
    · rcases List.mem_cons.1 h with h | h
      · exact absurd (congrArg key h.symm) hkey
      · obtain ⟨c, hc, hca⟩ := exists_mem_firstPerKey h
        have hkeep : key c ≠ key b := fun e => hkey (e.symm.trans hca)
        exact ⟨c, List.mem_cons_of_mem _ (List.mem_filter.2 ⟨hc, by simpa using hkeep⟩), hca⟩

theorem firstPerKey_sublist : ∀ items : List α, (firstPerKey key items).Sublist items
  | [] => .slnil
  | _ :: rest => (List.filter_sublist.trans (firstPerKey_sublist rest)).cons_cons _

theorem firstPerKey_map {β : Type} (f : β → α) :
    ∀ items : List β, firstPerKey key (items.map f) = (firstPerKey (fun b => key (f b)) items).map f
  | [] => rfl
  | b :: rest => by
    rw [List.map_cons, firstPerKey, firstPerKey, firstPerKey_map f rest, List.filter_map, List.map_cons]
    rfl

/-- In a list that an order goes through, the items that stay are those before which no other one has their key. -/
theorem mem_firstPerKey_of_pairwise {R : α → α → Prop} (hasymm : ∀ a b, R a b → ¬R b a) {a : α} :
    ∀ {items : List α}, items.Pairwise R →
      (a ∈ firstPerKey key items ↔ a ∈ items ∧ ∀ b ∈ items, R b a → key b ≠ key a)
  | [], _ => by simp [firstPerKey]
  | first :: rest, hordered => by
    obtain ⟨hfirst, hrest⟩ := List.pairwise_cons.1 hordered
    rw [firstPerKey, List.mem_cons, List.mem_filter, decide_eq_true_eq, mem_firstPerKey_of_pairwise hasymm hrest,
      List.mem_cons, List.forall_mem_cons]
    constructor
    · rintro (rfl | ⟨⟨hmem, hunique⟩, hne⟩)
      · exact ⟨.inl rfl, fun h => absurd h (hasymm _ _ h), fun b hb h => absurd h (hasymm _ _ (hfirst b hb))⟩
      · exact ⟨.inr hmem, fun _ => hne.symm, hunique⟩
    · rintro ⟨rfl | hmem, hne, hunique⟩
      · exact .inl rfl
      · exact .inr ⟨⟨hmem, hunique⟩, (hne (hfirst a hmem)).symm⟩

end Interpose
