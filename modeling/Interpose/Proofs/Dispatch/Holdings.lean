import Interpose.Proofs.Dispatch.Bridges
import Interpose.Proofs.Dispatch.Steps
import Interpose.Proofs.Dispatch.Winners
import Interpose.Proofs.Hierarchy.Walks

/-!
# What a bridge holds

The declarations that a type and its ancestors make stand in an order: those of nearer types come first, and those of
one type as they are written. A bridge holds, in this order, the declarations for objects at its level that may be
bridged and before which no other one for objects at this level has the same signature. So a method that may not be
bridged hides what stands behind it, while a static one and one outside its window hide nothing.
-/

namespace Interpose

/-- A method where it is declared: the type, and the place among the methods of the type. -/
structure Declaration where
  owner : String
  place : Nat
  method : Method
deriving DecidableEq

namespace Declaration

def target (x : Declaration) : Target := ⟨x.owner, x.method⟩

/-- The type declares this method at this place. -/
def Made (h : Hierarchy) (x : Declaration) : Prop :=
  ∃ decl, h.get? x.owner = some decl ∧ decl.methods[x.place]? = some x.method

/-- One declaration is made by a type below the type of the other, or earlier by the same type. -/
def Before (h : Hierarchy) (x y : Declaration) : Prop :=
  Relation.TransGen (Extends h.parent?) x.owner y.owner ∨ x.owner = y.owner ∧ x.place < y.place

/-- A declaration that the objects of a type have at a level: it is made by the type or one of its ancestors, and
neither static nor outside its window. -/
structure Offered (h : Hierarchy) (level : Nat) (typeId : String) (x : Declaration) : Prop where
  made : x.Made h
  inherited : Relation.ReflTransGen (Extends h.parent?) typeId x.owner
  isInstance : x.method.isStatic = false
  available : x.method.availableAt level = true

/-- An offered declaration that may be bridged, with no other one of its signature before it. -/
structure Bridged (h : Hierarchy) (level : Nat) (typeId : String) (x : Declaration) : Prop
    extends x.Offered h level typeId where
  hasBody : x.method.hasBody = true
  not_final : x.method.modifiers.isFinal = false
  not_abstract : x.method.modifiers.isAbstract = false
  not_private : x.method.modifiers.isPrivate = false
  not_native : x.method.modifiers.isNative = false
  nearest : ∀ y : Declaration, y.Offered h level typeId → y.Before h x → y.method.key ≠ x.method.key

variable {h : Hierarchy} {level : Nat} {typeId : String} {x y : Declaration}

theorem Before.asymm (hxy : x.Before h y) : ¬y.Before h x := by
  have hacyclic : ∀ a, ¬Relation.TransGen (Extends h.parent?) a a := fun a => (h.climbs_ancestors a).not_cyclic
  rintro (hup | ⟨howner, hplace⟩)
  · obtain hup' | ⟨howner', _⟩ := hxy
    · exact hacyclic _ (hup.trans hup')
    · rw [howner'] at hup
      exact hacyclic _ hup
  · obtain hup' | ⟨_, hplace'⟩ := hxy
    · rw [howner] at hup'
      exact hacyclic _ hup'
    · exact absurd hplace (Nat.lt_asymm hplace')

end Declaration

theorem Method.isBridgeable_iff {m : Method} : m.isBridgeable = true ↔
    m.isStatic = false ∧ m.hasBody = true ∧ m.modifiers.isFinal = false ∧ m.modifiers.isAbstract = false ∧
      m.modifiers.isPrivate = false ∧ m.modifiers.isNative = false := by
  obtain ⟨_, _, _, ⟨_, _, _, _, _⟩, _, _, _⟩ := m
  simp only [isBridgeable, isStatic, Modifiers.none, Bool.and_eq_true, decide_eq_true_eq, Modifiers.mk.injEq]
  tauto

namespace Hierarchy

variable {h : Hierarchy} {typeId : String} {x : Declaration}

/-- The declarations that a type and its ancestors make, in order. -/
def declarations (h : Hierarchy) (typeId : String) : List Declaration :=
  (h.lineage typeId).flatMap fun t => t.2.methods.zipIdx.map fun m => ⟨t.1, m.2, m.1⟩

theorem mem_lineage_iff {owner : String} {decl : TypeDecl} : (owner, decl) ∈ h.lineage typeId ↔
    Relation.ReflTransGen (Extends h.parent?) typeId owner ∧ h.get? owner = some decl := by
  rw [lineage, List.mem_filterMap, ← mem_ancestors_iff]
  constructor
  · rintro ⟨a, hmem, ha⟩
    obtain ⟨_, hdecl, heq⟩ := Option.map_eq_some_iff.1 ha
    cases heq
    exact ⟨hmem, hdecl⟩
  · rintro ⟨hmem, hdecl⟩
    exact ⟨owner, hmem, by rw [hdecl]; rfl⟩

theorem mem_declarations_iff : x ∈ h.declarations typeId ↔
    x.Made h ∧ Relation.ReflTransGen (Extends h.parent?) typeId x.owner := by
  unfold declarations
  rw [List.mem_flatMap]
  constructor
  · rintro ⟨⟨owner, decl⟩, ht, hx⟩
    obtain ⟨⟨method, place⟩, hm, rfl⟩ := List.mem_map.1 hx
    obtain ⟨hinherited, hdecl⟩ := mem_lineage_iff.1 ht
    exact ⟨⟨decl, hdecl, List.mem_zipIdx_iff_getElem?.1 hm⟩, hinherited⟩
  · rintro ⟨⟨decl, hdecl, hm⟩, hinherited⟩
    exact ⟨(x.owner, decl), mem_lineage_iff.2 ⟨hinherited, hdecl⟩,
      List.mem_map.2 ⟨(x.method, x.place), List.mem_zipIdx_iff_getElem?.2 hm, rfl⟩⟩

theorem pairwise_declarations (h : Hierarchy) (typeId : String) :
    (h.declarations typeId).Pairwise (Declaration.Before h) := by
  have hlineage : (h.lineage typeId).Pairwise fun s t => Relation.TransGen (Extends h.parent?) s.1 t.1 := by
    refine (h.climbs_ancestors typeId).pairwise.filterMap _ fun a b hab s hs t ht => ?_
    obtain ⟨_, _, rfl⟩ := Option.map_eq_some_iff.1 hs
    obtain ⟨_, _, rfl⟩ := Option.map_eq_some_iff.1 ht
    exact hab
  rw [declarations, List.pairwise_flatMap]
  constructor
  · intro t _
    exact List.pairwise_map.2 ((Criteria.pairwise_zipIdx t.2.methods).imp fun hlt => .inr ⟨rfl, hlt⟩)
  · refine hlineage.imp fun hup x hx y hy => ?_
    obtain ⟨_, _, rfl⟩ := List.mem_map.1 hx
    obtain ⟨_, _, rfl⟩ := List.mem_map.1 hy
    exact .inl hup

end Hierarchy

namespace Bridge

variable {h : Hierarchy} {level : Nat} {typeId : String} {x : Declaration}

/-- The declarations that the objects of a type have at a level, in order. -/
def offers (h : Hierarchy) (level : Nat) (typeId : String) : List Declaration :=
  (h.declarations typeId).filter fun x => !x.method.isStatic && x.method.availableAt level

/-- Those of them that the bridge holds. -/
def holdings (h : Hierarchy) (level : Nat) (typeId : String) : List Declaration :=
  (firstPerKey (·.method.key) (offers h level typeId)).filter (·.method.isBridgeable)

theorem mem_offers_iff : x ∈ offers h level typeId ↔ x.Offered h level typeId := by
  rw [offers, List.mem_filter, Hierarchy.mem_declarations_iff, Bool.and_eq_true, Bool.not_eq_true']
  constructor
  · rintro ⟨⟨hmade, hinherited⟩, hinstance, havailable⟩
    exact ⟨hmade, hinherited, hinstance, havailable⟩
  · rintro ⟨hmade, hinherited, hinstance, havailable⟩
    exact ⟨⟨hmade, hinherited⟩, hinstance, havailable⟩

theorem pairwise_offers (h : Hierarchy) (level : Nat) (typeId : String) :
    (offers h level typeId).Pairwise (Declaration.Before h) :=
  (h.pairwise_declarations typeId).sublist List.filter_sublist

theorem map_target_offers (h : Hierarchy) (level : Nat) (typeId : String) :
    (offers h level typeId).map Declaration.target = visible h level typeId := by
  unfold offers Hierarchy.declarations visible
  rw [List.filter_flatMap, List.map_flatMap]
  congr 1
  funext t
  -- Without its place a declaration is a target.
  conv_rhs => rw [← List.zipIdx_map_fst 0 t.2.methods, List.filter_map, List.map_map]
  rw [List.filter_map, List.map_map]
  rfl

theorem map_target_holdings (h : Hierarchy) (level : Nat) (typeId : String) :
    (holdings h level typeId).map Declaration.target =
      (firstPerKey (·.method.key) (visible h level typeId)).filter (·.method.isBridgeable) := by
  rw [← map_target_offers, firstPerKey_map, List.filter_map]
  rfl

theorem mem_holdings_iff : x ∈ holdings h level typeId ↔ x.Bridged h level typeId := by
  have hasymm : ∀ x y : Declaration, x.Before h y → ¬y.Before h x := fun _ _ => Declaration.Before.asymm
  rw [holdings, List.mem_filter, mem_firstPerKey_of_pairwise hasymm (pairwise_offers h level typeId), mem_offers_iff,
    Method.isBridgeable_iff]
  constructor
  · rintro ⟨⟨hoffered, hnearest⟩, _, hbody, hfinal, habstract, hprivate, hnative⟩
    exact ⟨hoffered, hbody, hfinal, habstract, hprivate, hnative, fun y hy => hnearest y (mem_offers_iff.2 hy)⟩
  · rintro ⟨hoffered, hbody, hfinal, habstract, hprivate, hnative, hnearest⟩
    exact ⟨⟨hoffered, fun y hy => hnearest y (mem_offers_iff.1 hy)⟩, hoffered.isInstance, hbody, hfinal, habstract,
      hprivate, hnative⟩

theorem pairwise_holdings (h : Hierarchy) (level : Nat) (typeId : String) :
    (holdings h level typeId).Pairwise (Declaration.Before h) :=
  (pairwise_offers h level typeId).sublist (List.filter_sublist.trans (firstPerKey_sublist _))

theorem nodup_keys_holdings (h : Hierarchy) (level : Nat) (typeId : String) :
    ((holdings h level typeId).map (·.method.key)).Nodup :=
  (nodup_keys_firstPerKey _).sublist (List.filter_sublist.map _)

section Synthesized

variable {bridge : Bridge} {target : Target} (hb : synthesize h level typeId = .ok bridge)
include hb

theorem targets_eq_map_holdings : bridge.targets = (holdings h level typeId).map Declaration.target := by
  rw [synthesize_eq_ok hb, map_target_holdings]

theorem mem_targets_iff : target ∈ bridge.targets ↔ ∃ x : Declaration, x.Bridged h level typeId ∧ x.target = target := by
  rw [targets_eq_map_holdings hb, List.mem_map]
  simp only [mem_holdings_iff]

/-- A bridge exposes what has the owner and the signature of a declaration that it holds. -/
theorem exposes_iff : bridge.exposes target = true ↔
    ∃ x : Declaration, x.Bridged h level typeId ∧ x.owner = target.owner ∧ x.method.key = target.method.key := by
  rw [exposes, targets_eq_map_holdings hb, List.any_map, List.any_eq_true]
  simp only [mem_holdings_iff, Function.comp_apply, Bool.and_eq_true, beq_iff_eq, decide_eq_true_eq]
  rfl

end Synthesized

/-- The bridge of a declared type that may be extended can be had. It holds exactly the bridged declarations, each with
the type that declares it, in order, and no two of one signature; and its size is their number. There is no bridge of a
final type, and none of a type that is not declared. -/
theorem holds_nearest_bridgeable (h : Hierarchy) (level : Nat) (typeId : String) :
    (∀ decl, h.get? typeId = some decl → decl.isFinal = false →
      ∃ (bridge : Bridge) (held : List Declaration), synthesize h level typeId = .ok bridge ∧
        bridge.targets = held.map Declaration.target ∧
        (∀ x, x ∈ held ↔ x.Bridged h level typeId) ∧ (held.map (·.method.key)).Nodup ∧
        held.Pairwise (Declaration.Before h) ∧ bridge.size = held.length) ∧
    (∀ decl, h.get? typeId = some decl → decl.isFinal = true →
      synthesize h level typeId =
        .error (.misconfigured ("Type " ++ typeId ++ " is final and can not be proxied"))) ∧
    (h.get? typeId = none → synthesize h level typeId = .error (.typeNotFound typeId)) := by
  refine ⟨fun decl hdecl hfinal => ?_, fun decl hdecl hfinal => ?_, fun hnone => ?_⟩
  · have hb : synthesize h level typeId = .ok ⟨typeId, level, (holdings h level typeId).map Declaration.target⟩ := by
      rw [synthesize, Hierarchy.require, hdecl, map_target_holdings]
      simp only [hfinal, Bool.false_eq_true, if_false]
    exact ⟨_, holdings h level typeId, hb, rfl, fun _ => mem_holdings_iff, nodup_keys_holdings h level typeId,
      pairwise_holdings h level typeId, List.length_map _⟩
  · rw [synthesize, Hierarchy.require, hdecl]
    simp only [hfinal, if_true]
  · rw [synthesize, Hierarchy.require, hnone]

end Bridge

/-! ## A small world with methods that hide each other -/

namespace Sample

def rest : Method := ⟨"rest", [], .void, .none, .unbounded, true, 4⟩

def drawFinal : Method := { draw with modifiers := { Modifiers.none with isFinal := true }, serial := 5 }

def restStatic : Method := { rest with modifiers := { Modifiers.none with isStatic := true }, serial := 6 }

/-- A view draws and rests. A button has a final method in place of the one, and a static one beside the other. An icon
is a final view. -/
def overridden : Hierarchy :=
  ⟨KeyMap.ofList [("Button", { button with methods := [drawFinal, restStatic] }),
    ("Icon", { button with isFinal := true }), ("View", { view with methods := [draw, rest] })], by decide⟩

end Sample

/-- The bridge of buttons holds the method to rest of the view and nothing else, and there is none of icons. -/
theorem Bridge.holds_nearest_bridgeable_overridden :
    (∃ (bridge : Bridge) (held : List Declaration), synthesize Sample.overridden 30 "Button" = .ok bridge ∧
      bridge.targets = [⟨"View", Sample.rest⟩] ∧ bridge.targets = held.map Declaration.target ∧
      ∀ x : Declaration, x.Bridged Sample.overridden 30 "Button" → x.target = ⟨"View", Sample.rest⟩) ∧
    (∃ message, synthesize Sample.overridden 30 "Icon" = .error (.misconfigured message)) ∧
    synthesize Sample.overridden 30 "Ghost" = .error (.typeNotFound "Ghost") := by
  refine ⟨?_, ⟨_, (holds_nearest_bridgeable Sample.overridden 30 "Icon").2.1 _ (by rfl) rfl⟩,
    (holds_nearest_bridgeable Sample.overridden 30 "Ghost").2.2 (by rfl)⟩
  obtain ⟨bridge, held, hb, htargets, hheld, _⟩ := (holds_nearest_bridgeable Sample.overridden 30 "Button").1
    { Sample.button with methods := [Sample.drawFinal, Sample.restStatic] } (by rfl) rfl
  have hb' : synthesize Sample.overridden 30 "Button" = .ok ⟨"Button", 30, [⟨"View", Sample.rest⟩]⟩ := by decide
  cases hb'.symm.trans hb
  refine ⟨_, held, hb, rfl, htargets, fun x hx => ?_⟩
  have hmem : x.target ∈ held.map Declaration.target := List.mem_map_of_mem ((hheld x).2 hx)
  rw [← htargets] at hmem
  exact List.mem_singleton.1 hmem

end Interpose
