import Interpose.Proofs.Data.Containers
import Interpose.Hierarchy.Basic
import Mathlib.Data.List.Nodup
import Mathlib.Data.List.Perm.Subperm
import Mathlib.Logic.Relation

/-!
# Walks up a hierarchy

A walk goes from a type to its parent for as long as there is one. It comes to an end exactly if it meets no type twice.
Only declared types have parents, so one stop more than there are types is enough to tell. In a hierarchy every walk
ends, and the ancestors of a type are the stops of its walk; so being a subtype is an order.
-/

namespace Interpose

/-- A type has another one as its parent. -/
def Extends (parent? : String → Option String) (child parent : String) : Prop := parent? child = some parent

/-- The walk from a type to its parent and on comes to an end, after these stops. -/
inductive Climbs (parent? : String → Option String) : String → List String → Prop
  | top {typeId : String} (hparent : parent? typeId = none) : Climbs parent? typeId [typeId]
  | up {typeId parent : String} {stops : List String} (hparent : parent? typeId = some parent)
      (hrest : Climbs parent? parent stops) : Climbs parent? typeId (typeId :: stops)

section Climbing

variable {parent? : String → Option String} {typeId a : String} {stops : List String}

theorem Extends.transGen_iff {child parent : String} (h : Extends parent? child parent) :
    Relation.TransGen (Extends parent?) child a ↔ Relation.ReflTransGen (Extends parent?) parent a := by
  rw [Relation.TransGen.head'_iff]
  constructor
  · rintro ⟨parent', h', hreach⟩
    obtain rfl : parent = parent' := Option.some.inj (h.symm.trans h')
    exact hreach
  · exact fun hreach => ⟨parent, h, hreach⟩

theorem not_transGen_of_top (h : parent? typeId = none) : ¬Relation.TransGen (Extends parent?) typeId a := by
  rw [Relation.TransGen.head'_iff]
  rintro ⟨parent, hparent, _⟩
  cases h.symm.trans hparent

/-- The stops of a walk are the types that can be reached. -/
theorem Climbs.mem_iff (h : Climbs parent? typeId stops) :
    a ∈ stops ↔ Relation.ReflTransGen (Extends parent?) typeId a := by
  induction h with
  | top hparent =>
    rw [List.mem_singleton, Relation.reflTransGen_iff_eq_or_transGen, or_iff_left (not_transGen_of_top hparent)]
  | up hparent _ ih =>
    rw [List.mem_cons, ih, ← Extends.transGen_iff hparent, Relation.reflTransGen_iff_eq_or_transGen]

/-- A walk that ends does not come back. -/
theorem Climbs.not_cyclic (h : Climbs parent? typeId stops) : ¬Relation.TransGen (Extends parent?) typeId typeId := by
  induction h with
  | top hparent => exact not_transGen_of_top hparent
  | up hparent _ ih =>
    intro hcycle
    exact ih (Relation.TransGen.tail' ((Extends.transGen_iff hparent).1 hcycle) hparent)

theorem Climbs.nodup (h : Climbs parent? typeId stops) : stops.Nodup := by
  induction h with
  | top _ => exact List.nodup_singleton _
  | up hparent hrest ih =>
    refine List.nodup_cons.2 ⟨fun hmem => ?_, ih⟩
    exact (Climbs.up hparent hrest).not_cyclic ((Extends.transGen_iff hparent).2 (hrest.mem_iff.1 hmem))

/-- A walk goes upward only. -/
theorem Climbs.pairwise (h : Climbs parent? typeId stops) : stops.Pairwise (Relation.TransGen (Extends parent?)) := by
  induction h with
  | top _ => exact List.pairwise_singleton _ _
  | up hparent hrest ih =>
    exact List.pairwise_cons.2 ⟨fun _ hmem => (Extends.transGen_iff hparent).2 (hrest.mem_iff.1 hmem), ih⟩

/-- The stops after the first one are parents. -/
theorem Climbs.exists_child (h : Climbs parent? typeId stops) (hmem : a ∈ stops.tail) :
    ∃ child, Extends parent? child a := by
  cases h with
  | top _ => cases hmem
  | up hparent hrest =>
    obtain ⟨child, _, hchild⟩ :=
      Relation.TransGen.tail'_iff.1 ((Extends.transGen_iff hparent).2 (hrest.mem_iff.1 hmem))
    exact ⟨child, hchild⟩

/-! ## The first stops -/

theorem walk_of_top (hparent : parent? typeId = none) (n : Nat) : walk parent? (n + 1) typeId = [typeId] := by
  simp only [walk, hparent]

theorem walk_of_extends {parent : String} (hextends : Extends parent? typeId parent) (n : Nat) :
    walk parent? (n + 1) typeId = typeId :: walk parent? n parent := by
  rw [Extends] at hextends
  simp only [walk, hextends]

theorem Climbs.walk_eq_take (h : Climbs parent? typeId stops) (n : Nat) : walk parent? n typeId = stops.take n := by
  induction h generalizing n with
  | top hparent =>
    cases n with
    | zero => rfl
    | succ n => rw [walk_of_top hparent, List.take_succ_cons, List.take_nil]
  | up hparent _ ih =>
    cases n with
    | zero => rfl
    | succ n => rw [walk_of_extends hparent, List.take_succ_cons, ih]

/-- A walk ends within a number of stops, or it makes so many and could go on from each. -/
theorem climbs_walk_or (parent? : String → Option String) (n : Nat) (typeId : String) :
    Climbs parent? typeId (walk parent? n typeId) ∨
      (walk parent? n typeId).length = n ∧ ∀ a ∈ walk parent? n typeId, ∃ parent, Extends parent? a parent := by
  induction n generalizing typeId with
  | zero => exact .inr ⟨rfl, fun _ hmem => by cases hmem⟩
  | succ n ih =>
    cases hparent : parent? typeId with
    | none =>
      rw [walk_of_top hparent]
      exact .inl (.top hparent)
    | some parent =>
      rw [walk_of_extends hparent]
      obtain hends | ⟨hlength, hall⟩ := ih parent
      · exact .inl (.up hparent hends)
      · exact .inr ⟨by rw [List.length_cons, hlength], List.forall_mem_cons.2 ⟨⟨parent, hparent⟩, hall⟩⟩

theorem reaches_of_mem_walk {n : Nat} (hmem : a ∈ walk parent? n typeId) :
    Relation.ReflTransGen (Extends parent?) typeId a := by
  induction n generalizing typeId with
  | zero => cases hmem
  | succ n ih =>
    cases hparent : parent? typeId with
    | none =>
      rw [walk_of_top hparent, List.mem_singleton] at hmem
      rw [hmem]
    | some parent =>
      rw [walk_of_extends hparent, List.mem_cons] at hmem
      obtain rfl | hrest := hmem
      · exact .refl
      · exact .head hparent (ih hrest)

/-- Where no type is above itself, no walk meets a type twice. -/
theorem nodup_walk (hacyclic : ∀ a, ¬Relation.TransGen (Extends parent?) a a) (n : Nat) (typeId : String) :
    (walk parent? n typeId).Nodup := by
  induction n generalizing typeId with
  | zero => exact List.nodup_nil
  | succ n ih =>
    cases hparent : parent? typeId with
    | none =>
      rw [walk_of_top hparent]
      exact List.nodup_singleton _
    | some parent =>
      rw [walk_of_extends hparent]
      -- To come back to the first stop is to be above itself.
      refine List.nodup_cons.2 ⟨fun hmem => ?_, ih parent⟩
      exact hacyclic typeId ((Extends.transGen_iff hparent).2 (reaches_of_mem_walk hmem))

end Climbing

/-! ## Among declarations -/

section Declared

variable {decls : KeyMap TypeDecl} {typeId parent : String}

theorem parentIn_eq_some_iff :
    parentIn decls typeId = some parent ↔ ∃ decl, decls.get? typeId = some decl ∧ decl.parent = some parent :=
  Option.bind_eq_some_iff

/-- A walk among declarations that does not come back ends: it can not go on for longer than there are types. -/
theorem climbs_walkIn (hnodup : (walkIn decls typeId).Nodup) :
    Climbs (parentIn decls) typeId (walkIn decls typeId) := by
  obtain hends | ⟨hlength, hall⟩ := climbs_walk_or (parentIn decls) (decls.size + 1) typeId
  · exact hends
  · -- All stops would have parents, but there are more stops than declared types.
    have hdeclared : walkIn decls typeId ⊆ decls.keys := by
      intro a ha
      obtain ⟨parent, hparent⟩ := hall a ha
      obtain ⟨decl, hdecl, _⟩ := parentIn_eq_some_iff.1 hparent
      exact KeyMap.mem_keys_iff.2 ⟨decl, hdecl⟩
    have hle : (walkIn decls typeId).length ≤ decls.keys.length :=
      (hnodup.subperm hdeclared).length_le
    have hkeys : decls.keys.length = decls.size := List.length_map _
    have hfull : (walkIn decls typeId).length = decls.size + 1 := hlength
    omega

/-- One stop more than there are types is enough to tell whether a walk ends. -/
theorem nodup_walkIn_iff :
    (walkIn decls typeId).Nodup ↔ ∃ stops, Climbs (parentIn decls) typeId stops := by
  constructor
  · exact fun hnodup => ⟨_, climbs_walkIn hnodup⟩
  · rintro ⟨stops, hclimbs⟩
    rw [walkIn, hclimbs.walk_eq_take]
    exact hclimbs.nodup.sublist (List.take_sublist _ _)

theorem parentFault?_eq_none_iff {decl : TypeDecl} :
    parentFault? decls typeId decl = none ↔ ∀ parent, decl.parent = some parent →
      ∃ above, decls.get? parent = some above ∧ above.isFinal = false ∧ (walkIn decls typeId).Nodup := by
  unfold parentFault?
  cases decl.parent with
  | none => simp
  | some parent =>
    cases habove : decls.get? parent with
    | none => simp [habove]
    | some above => cases hfinal : above.isFinal <;> simp [habove, hfinal]

/-- Where nothing is wrong with any parent, each is declared and not final and the walk from its child does not come
back. -/
theorem exists_above_of_sound (hsound : ∀ e ∈ decls.entries, parentFault? decls e.1 e.2 = none)
    (hextends : Extends (parentIn decls) typeId parent) :
    ∃ above, decls.get? parent = some above ∧ above.isFinal = false ∧ (walkIn decls typeId).Nodup := by
  obtain ⟨decl, hdecl, hparent⟩ := parentIn_eq_some_iff.1 hextends
  exact parentFault?_eq_none_iff.1 (hsound _ (KeyMap.get?_eq_some_iff.1 hdecl)) parent hparent

end Declared

namespace Hierarchy

variable {h : Hierarchy} {typeId a b c : String}

/-- The ancestors of a type, declared or not, are the stops of its walk, which ends. -/
theorem climbs_ancestors (h : Hierarchy) (typeId : String) : Climbs h.parent? typeId (h.ancestors typeId) := by
  cases hparent : h.parent? typeId with
  | none =>
    have hone : h.ancestors typeId = [typeId] := walk_of_top hparent _
    rw [hone]
    exact .top hparent
  | some parent =>
    obtain ⟨_, _, _, hnodup⟩ := exists_above_of_sound h.sound hparent
    exact climbs_walkIn hnodup

theorem extensible_of_mem_tail (hmem : a ∈ (h.ancestors typeId).tail) :
    ∃ decl, h.get? a = some decl ∧ decl.isFinal = false := by
  obtain ⟨child, hchild⟩ := (h.climbs_ancestors typeId).exists_child hmem
  obtain ⟨decl, hdecl, hopen, _⟩ := exists_above_of_sound h.sound hchild
  exact ⟨decl, hdecl, hopen⟩

theorem mem_ancestors_iff : a ∈ h.ancestors typeId ↔ Relation.ReflTransGen (Extends h.parent?) typeId a :=
  (h.climbs_ancestors typeId).mem_iff

theorem isSubtype_iff : h.isSubtype a b = true ↔ Relation.ReflTransGen (Extends h.parent?) a b := by
  rw [isSubtype, List.contains_iff_mem, mem_ancestors_iff]

theorem isSubtype_self (h : Hierarchy) (a : String) : h.isSubtype a a = true := isSubtype_iff.2 .refl

theorem isSubtype_trans (hab : h.isSubtype a b = true) (hbc : h.isSubtype b c = true) : h.isSubtype a c = true :=
  isSubtype_iff.2 ((isSubtype_iff.1 hab).trans (isSubtype_iff.1 hbc))

theorem isSubtype_antisymm (hab : h.isSubtype a b = true) (hba : h.isSubtype b a = true) : a = b := by
  obtain hsame | habove := Relation.reflTransGen_iff_eq_or_transGen.1 (isSubtype_iff.1 hab)
  · exact hsame.symm
  · exact absurd (habove.trans_left (isSubtype_iff.1 hba)) (h.climbs_ancestors a).not_cyclic

end Hierarchy

end Interpose
