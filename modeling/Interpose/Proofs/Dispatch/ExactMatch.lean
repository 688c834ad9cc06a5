import Interpose.Call.Resolution
import Interpose.Proofs.Dispatch.Winners

/-!
# Calls that a shadow matches exactly

A shadow takes a call on a type that it is bound to if one of its methods has the name, the mode and the parameters of
the call. The nearest of its layers with such a method decides; other methods that the arguments could be converted
to are not looked at.
-/

namespace Interpose

/-- Whether a method is an exact match for a call at a level. -/
structure CallSite.Matches (site : CallSite) (level : Nat) (m : Method) : Prop where
  name : m.name = site.method.name
  isStatic : m.isStatic = site.isStatic
  params : m.params = site.method.params
  available : m.availableAt level = true

/-- Among the layers of a shadow that may take calls, this one is the nearest with an exact match for a call, and it
declares this match only. -/
structure Binding.Matches (b : Binding) (site : CallSite) (level : Nat) (layer : ShadowLayer) (method : Method) :
    Prop where
  exact : site.Matches level method
  nearest : ∃ near far, b.activeLayers = near ++ layer :: far ∧
    ∀ l ∈ near, ∀ m ∈ l.methods, ¬site.Matches level m
  once : ∃ above below, layer.methods = above ++ method :: below ∧ ∀ m ∈ above ++ below, ¬site.Matches level m

/-- What stands at a place of a list that is split at an element. -/
theorem mem_of_getElem?_append_cons {α : Type} {l before after : List α} {a b : α} {i : Nat}
    (hl : l = before ++ a :: after) (h : l[i]? = some b) :
    (i < before.length ∧ b ∈ before) ∨ (i = before.length ∧ b = a) ∨ (before.length < i ∧ b ∈ after) := by
  subst hl
  rcases Nat.lt_trichotomy i before.length with hlt | heq | hgt
  · rw [List.getElem?_append_left hlt] at h
    exact .inl ⟨hlt, List.mem_of_getElem? h⟩
  · rw [heq, List.getElem?_append_right (Nat.le_refl _), Nat.sub_self] at h
    exact .inr (.inl ⟨heq, (Option.some.inj h).symm⟩)
  · rw [List.getElem?_append_right (Nat.le_of_lt hgt)] at h
    obtain ⟨k, hk⟩ : ∃ k, i - before.length = k + 1 := ⟨i - before.length - 1, by omega⟩
    rw [hk] at h
    exact .inr (.inr ⟨hgt, List.mem_of_getElem? h⟩)

namespace Setting

variable {s : Setting} {site : CallSite} {b : Binding} {layer : ShadowLayer} {method : Method}

theorem matches_of_exact {loose : Bool} {groups : List CandidateGroup}
    (y : (s.criteria site loose).Contender groups) (hy : y.method.params = site.method.params) :
    site.Matches s.level y.method := ⟨y.name_eq, y.isStatic_eq, hy, y.available⟩

/-- The shadow selects its nearest exact match, whatever else its layers declare. -/
theorem shadowTarget_of_matches (hm : b.Matches site s.level layer method) :
    s.shadowTarget site b = .ok (some ⟨layer.id, method⟩) := by
  obtain ⟨near, far, hlayers, hnear⟩ := hm.nearest
  obtain ⟨above, below, hmethods, hothers⟩ := hm.once
  have hgroups : b.groups = near.map (fun l => (l.id, l.methods)) ++ (layer.id, layer.methods) ::
      far.map fun l => (l.id, l.methods) := by
    rw [Binding.groups, hlayers, List.map_append, List.map_cons]
  let x : (s.criteria site b.looseSignatures).Contender b.groups :=
    { group := (layer.id, layer.methods)
      method := method
      groupPlace := near.length
      place := above.length
      group_at := by simp [hgroups]
      method_at := by simp [hmethods]
      name_eq := hm.exact.name
      isStatic_eq := hm.exact.isStatic
      available := hm.exact.available }
  -- An exact match stands in no nearer group, and in this one at no other place.
  have hplace : ∀ y : (s.criteria site b.looseSignatures).Contender b.groups, y.Exact →
      near.length < y.groupPlace ∨ near.length = y.groupPlace ∧ above.length = y.place := by
    intro y hy
    have hmatches := matches_of_exact y hy
    obtain ⟨_, hmem⟩ | ⟨hi, heq⟩ | ⟨hi, _⟩ := mem_of_getElem?_append_cons hgroups y.group_at
    · obtain ⟨l, hl, hgroup⟩ := List.mem_map.1 hmem
      have hmethod := List.mem_of_getElem? y.method_at
      rw [← hgroup] at hmethod
      exact absurd hmatches (hnear l hl y.method hmethod)
    · rw [List.length_map] at hi
      have hmethod := y.method_at
      rw [heq] at hmethod
      obtain ⟨_, hmem⟩ | ⟨hk, _⟩ | ⟨_, hmem⟩ := mem_of_getElem?_append_cons hmethods hmethod
      · exact absurd hmatches (hothers _ (List.mem_append_left _ hmem))
      · exact .inr ⟨hi.symm, hk.symm⟩
      · exact absurd hmatches (hothers _ (List.mem_append_right _ hmem))
    · rw [List.length_map] at hi
      exact .inl hi
  have hwins : x.Wins s.hierarchy := by
    refine .exact hm.exact.params fun y hy => Prod.Lex.toLex_le_toLex.2 ?_
    exact (hplace y hy).imp_right fun h => ⟨h.1, Nat.le_of_eq h.2⟩
  have honce : ¬x.Repeated := by
    rintro ⟨y, hgroup, hne, hparams⟩
    obtain hlt | ⟨_, heq⟩ := hplace y (hparams.trans hm.exact.params)
    · exact Nat.lt_irrefl _ (hgroup ▸ hlt)
    · exact hne heq.symm
  exact Criteria.select_of_wins hwins honce site.runtimeType

/-- A normal call goes to the exact match in the shadow of the binding that it falls under. -/
theorem decide_of_matches (hintercepted : s.rules.intercepts site.runtimeType = true)
    (hbound : (s.registry.lookup s.hierarchy s.level site.runtimeType).binding? = some b)
    (hnormal : site.request = .normal) (hm : b.Matches site s.level layer method) :
    s.decide site = .ok (.shadow ⟨layer.id, method⟩) := by
  have hgoverning : (s.governing site.runtimeType).binding? = some b := by
    rw [governing, if_pos hintercepted, hbound]
  rw [Setting.decide, Setting.route, hgoverning]
  simp only [routeBound, if_pos hnormal, shadowTarget_of_matches hm]

end Setting

end Interpose
