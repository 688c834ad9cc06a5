import Interpose.Proofs.Sandbox.Verdicts
import Mathlib.Data.List.Nodup

/-!
# Which shadows a reset reaches

The shadows of a registry are met entry by entry, each with its parents, and of those that share an id the first one
is kept. So a shadow is reset exactly if no other shadow of its id is met before it. Shadows with ids of their own are
all reset, once each, however many entries lead to them.
-/

namespace Interpose

section FirstPerKey

variable {α κ : Type} [DecidableEq α] [DecidableEq κ] {key : α → κ} {items : List α} {a b first : α} {rest : List α}

omit [DecidableEq κ] in
theorem idxOf_cons_of_key_ne (h : key a ≠ key first) : (first :: rest).idxOf a = rest.idxOf a + 1 :=
  List.idxOf_cons_ne rest fun heq => h (congrArg key heq.symm)

/-- An item is kept exactly if none of its key comes before it. -/
theorem mem_firstPerKey_iff : a ∈ firstPerKey key items ↔
    a ∈ items ∧ ∀ b ∈ items, key b = key a → items.idxOf a ≤ items.idxOf b := by
  induction items with
  | nil => simp [firstPerKey]
  | cons first rest ih =>
    by_cases hkey : key a = key first
    · have hkept : a ∈ firstPerKey key (first :: rest) ↔ a = first := by
        rw [firstPerKey, List.mem_cons, List.mem_filter]
        simp [hkey]
      rw [hkept]
      constructor
      · rintro rfl
        refine ⟨List.mem_cons_self, fun b _ _ => ?_⟩
        rw [List.idxOf_cons_self]
        exact Nat.zero_le _
      · rintro ⟨_, hleast⟩
        have hle := hleast first List.mem_cons_self hkey.symm
        rw [List.idxOf_cons_self] at hle
        by_contra hne
        rw [List.idxOf_cons_ne rest (Ne.symm hne)] at hle
        omega
    · have hkept : a ∈ firstPerKey key (first :: rest) ↔ a ∈ firstPerKey key rest := by
        rw [firstPerKey, List.mem_cons, List.mem_filter]
        have hne : a ≠ first := fun heq => hkey (congrArg key heq)
        simp [hkey, hne]
      have hshift : ∀ b ∈ rest, key b = key a →
          ((first :: rest).idxOf a ≤ (first :: rest).idxOf b ↔ rest.idxOf a ≤ rest.idxOf b) := by
        intro b _ hb
        rw [idxOf_cons_of_key_ne hkey, idxOf_cons_of_key_ne fun h => hkey (hb.symm.trans h)]
        exact Nat.add_le_add_iff_right
      rw [hkept, ih, List.mem_cons, List.forall_mem_cons]
      constructor
      · rintro ⟨hmem, hleast⟩
        exact ⟨.inr hmem, fun h => absurd h.symm hkey, fun b hb heq => (hshift b hb heq).2 (hleast b hb heq)⟩
      · rintro ⟨rfl | hmem, _, hleast⟩
        · exact absurd rfl hkey
        · exact ⟨hmem, fun b hb heq => (hshift b hb heq).1 (hleast b hb heq)⟩

/-- The items that are kept are in the order of their first places. -/
theorem pairwise_firstPerKey (items : List α) :
    (firstPerKey key items).Pairwise fun a b => items.idxOf a < items.idxOf b := by
  induction items with
  | nil => exact .nil
  | cons first rest ih =>
    have hlater : ∀ b ∈ (firstPerKey key rest).filter (fun b => key b ≠ key first), key b ≠ key first := by
      intro b hb
      simpa using (List.mem_filter.1 hb).2
    rw [firstPerKey, List.pairwise_cons]
    refine ⟨fun b hb => ?_, (ih.filter _).imp_of_mem fun {a b} ha hb hlt => ?_⟩
    · rw [List.idxOf_cons_self, idxOf_cons_of_key_ne (hlater b hb)]
      exact Nat.succ_pos _
    · rw [idxOf_cons_of_key_ne (hlater a ha), idxOf_cons_of_key_ne (hlater b hb)]
      exact Nat.succ_lt_succ hlt

end FirstPerKey

namespace Registry

/-- All shadows that the entries lead to, by real type and then from child to parent, with repetitions. -/
def visited (r : Registry) : List ShadowLayer := r.bindings.values.flatMap (·.shadow.chain)

/-- No shadow of the same id is met before. -/
def FirstOfId (r : Registry) (layer : ShadowLayer) : Prop :=
  ∀ other ∈ r.visited, other.id = layer.id → r.visited.idxOf layer ≤ r.visited.idxOf other

instance (r : Registry) (layer : ShadowLayer) : Decidable (r.FirstOfId layer) :=
  inferInstanceAs (Decidable (∀ other ∈ r.visited, _ → _))

variable {r : Registry} {layer : ShadowLayer}

theorem mem_shadows_iff : layer ∈ r.shadows ↔ layer ∈ r.visited ∧ r.FirstOfId layer := mem_firstPerKey_iff

theorem pairwise_shadows (r : Registry) :
    r.shadows.Pairwise fun layer other => r.visited.idxOf layer < r.visited.idxOf other :=
  pairwise_firstPerKey r.visited

theorem nodup_shadows (r : Registry) : r.shadows.Nodup := by
  refine r.pairwise_shadows.imp fun {layer other} hlt => ?_
  rintro rfl
  exact Nat.lt_irrefl _ hlt

/-- No shadow is left out exactly if different shadows have different ids. -/
theorem visited_subset_shadows_iff : (∀ layer ∈ r.visited, layer ∈ r.shadows) ↔
    ∀ layer ∈ r.visited, ∀ other ∈ r.visited, layer.id = other.id → layer = other := by
  constructor
  · intro hall layer hlayer other hother hid
    have hle := (mem_shadows_iff.1 (hall layer hlayer)).2 other hother hid.symm
    have hge := (mem_shadows_iff.1 (hall other hother)).2 layer hlayer hid
    exact (List.idxOf_inj hlayer).1 (Nat.le_antisymm hle hge)
  · intro hids layer hlayer
    refine mem_shadows_iff.2 ⟨hlayer, fun other hother hid => ?_⟩
    exact Nat.le_of_eq (congrArg r.visited.idxOf (hids other hother layer hlayer hid).symm)

theorem mem_resetting_iff : layer ∈ r.resetting ↔
    layer ∈ r.visited ∧ layer.hasResetter = true ∧ r.FirstOfId layer := by
  rw [resetting, List.mem_filter, mem_shadows_iff, and_assoc, and_comm (a := r.FirstOfId layer)]

end Registry

namespace Sandbox

/-- A reset that comes to its end ran all resetters that it was to run, from the state that it found. -/
theorem returned_of_resetMemory {code : Code} {s s' : Sandbox} {j j' : Journal} {failures : List String}
    (h : s.resetMemory code j = (.done failures, s', j')) :
    ∃ answers m, Returned code s.dispatcher.registry.resetting (s.machine j) answers m ∧ s' = s.restored m := by
  unfold resetMemory at h
  rcases hrun : runResetters code s.dispatcher.registry.shadows (s.machine j) with ⟨outcome, m⟩
  simp only [hrun] at h
  cases outcome with
  | panicked payload => cases h
  | unfinished => cases h
  | done complaints =>
    obtain ⟨answers, hanswers⟩ := returned_of_done hrun
    refine ⟨answers, m, hanswers, ?_⟩
    rw [Outcome.andThen_done] at h
    rcases hleaks : findLeaks { s.afterRun m with memory := (s.afterRun m).memory.reset } m.journal with ⟨found, j₁⟩
    rw [hleaks] at h
    cases found with
    | panicked payload => cases h
    | unfinished => cases h
    | done reports =>
      cases h
      rfl

/-- Take any registry, and the shadows that its entries lead to, entry by entry in the order of their real types and
each from child to parent. A shadow is listed exactly if it is one of them and none of its id is met before it, and the
list is in the order in which they are first met, so none is listed twice. All of them are listed exactly if different
ones have different ids. Every reset that comes to its end runs the resetters of the listed shadows, one after another
in this order, which is once for each of them and never for a shadow whose id was met before. -/
theorem resets_first_of_each_id (r : Registry) :
    (∀ layer, layer ∈ r.shadows ↔ layer ∈ r.visited ∧ r.FirstOfId layer) ∧
    (r.shadows.Pairwise fun layer other => r.visited.idxOf layer < r.visited.idxOf other) ∧
    ((∀ layer ∈ r.visited, layer ∈ r.shadows) ↔
      ∀ layer ∈ r.visited, ∀ other ∈ r.visited, layer.id = other.id → layer = other) ∧
    ∀ (s s' : Sandbox) (code : Code) (j j' : Journal) (failures : List String), s.dispatcher.registry = r →
      s.resetMemory code j = (.done failures, s', j') →
      ∃ answers m, Returned code r.resetting (s.machine j) answers m ∧ s' = s.restored m ∧
        ∀ layer ∈ r.visited, layer.hasResetter = true →
          (r.FirstOfId layer → r.resetting.count layer = 1) ∧ (¬r.FirstOfId layer → r.resetting.count layer = 0) := by
  refine ⟨fun layer => Registry.mem_shadows_iff, r.pairwise_shadows, Registry.visited_subset_shadows_iff,
    fun s s' code j j' failures hregistry hreset => ?_⟩
  obtain ⟨answers, m, hanswers, hrestored⟩ := returned_of_resetMemory hreset
  rw [hregistry] at hanswers
  refine ⟨answers, m, hanswers, hrestored, fun layer hlayer hresetter => ⟨fun hfirst => ?_, fun hlater => ?_⟩⟩
  · have hmem := Registry.mem_resetting_iff.2 ⟨hlayer, hresetter, hfirst⟩
    exact List.count_eq_one_of_mem (r.nodup_shadows.filter _) hmem
  · exact List.count_eq_zero.2 fun hmem => hlater (Registry.mem_resetting_iff.1 hmem).2.2

end Sandbox

namespace Sample

/-- A shadow whose resetter traces its number. -/
def traced (id : String) (serial : Nat) : ShadowLayer :=
  { shadowView.own with id := id, hasResetter := true, serial := serial }

def tracing : Code :=
  { code with resetter := fun serial => .perform (.trace (.i32 (.ofNat serial))) fun _ => .done (.ok ()) }

/-- Views have a shadow, and buttons one that extends it. -/
def related : Registry :=
  let parent : Shadow := .alone (traced "ShadowView" 1)
  ⟨KeyMap.ofList
    [("Button", .bind "Button" (.extending (traced "ShadowButton" 2) parent)), ("View", .bind "View" parent)]⟩

/-- Views and buttons have different shadows of one id. -/
def namesakes : Registry :=
  ⟨KeyMap.ofList
    [("Button", .bind "Button" (.alone (traced "ShadowView" 1))),
      ("View", .bind "View" (.alone (traced "ShadowView" 2)))]⟩

def equipped (registry : Registry) : Sandbox :=
  (Sandbox.new 1 ⟨.none, 30⟩ hierarchy).after [(.configure, .empty), (.install registry, .empty)]

end Sample

namespace Sandbox

/-- The parent is met twice, as a parent and by itself, and reset once, after its child. -/
theorem resets_first_of_each_id_related :
    (∀ layer ∈ Sample.related.visited, layer ∈ Sample.related.shadows) ∧
      Sample.related.resetting.count (Sample.traced "ShadowView" 1) = 1 ∧
      ((Sample.equipped Sample.related).reset Sample.tracing .empty).2.2.trace = [.i32 2, .i32 1] := by
  obtain ⟨_, _, hall, hresets⟩ := resets_first_of_each_id Sample.related
  obtain ⟨_, _, _, _, hcounts⟩ :=
    hresets (Sample.equipped Sample.related) _ Sample.tracing .empty _ [] (by decide) rfl
  refine ⟨hall.2 (by decide), (hcounts _ (by decide) rfl).1 (by decide), by decide⟩

/-- Two shadows have one id, and both are in force and have resetters. One of them is never reset. -/
theorem namesake_never_reset :
    Sample.traced "ShadowView" 2 ∈ Sample.namesakes.visited ∧
      (Sample.traced "ShadowView" 2).hasResetter = true ∧
      Sample.traced "ShadowView" 2 ∉ Sample.namesakes.shadows ∧
      ((Sample.equipped Sample.namesakes).reset Sample.tracing .empty).1 = .done (.ok ()) ∧
      ((Sample.equipped Sample.namesakes).reset Sample.tracing .empty).2.2.trace = [.i32 1] := by
  decide

end Sandbox

end Interpose
