import Interpose.Proofs.Hierarchy.Conversions
import Interpose.Proofs.Hierarchy.Validation

/-!
# Costs grade the conversions

What an object costs to be passed where an ancestor is declared is the number of steps from parent to parent on the way
to it. A walk that ends passes each type once, so there is one such number for each ancestor, and the costs of two
climbs add up. Nothing converts back and forth, since no type is above itself and widening goes one way; only a
primitive and its box do.
-/

namespace Interpose

/-- From a type it takes so many steps to a parent to come to another one. -/
inductive Rises (parent? : String → Option String) : String → String → Nat → Prop
  | stay (typeId : String) : Rises parent? typeId typeId 0
  | up {typeId parent ancestor : String} {steps : Nat} (hparent : Extends parent? typeId parent)
      (hrest : Rises parent? parent ancestor steps) : Rises parent? typeId ancestor (steps + 1)

section Rising

variable {parent? : String → Option String} {s t u : String} {few many steps : Nat}

/-- One rise goes on where the other one ended. -/
theorem Rises.trans (hst : Rises parent? s t few) (htu : Rises parent? t u many) :
    Rises parent? s u (few + many) := by
  induction hst with
  | stay => rwa [Nat.zero_add]
  | up hparent _ ih =>
    rw [Nat.add_right_comm]
    exact .up hparent (ih htu)

theorem Rises.reaches (h : Rises parent? s t steps) : Relation.ReflTransGen (Extends parent?) s t := by
  induction h with
  | stay => exact .refl
  | up hparent _ ih => exact .head hparent ih

theorem exists_rises_iff : (∃ steps, Rises parent? s t steps) ↔ Relation.ReflTransGen (Extends parent?) s t := by
  constructor
  · rintro ⟨steps, h⟩
    exact h.reaches
  · intro h
    induction h using Relation.ReflTransGen.head_induction_on with
    | refl => exact ⟨0, .stay t⟩
    | head hparent _ ih =>
      obtain ⟨steps, hrises⟩ := ih
      exact ⟨steps + 1, .up hparent hrises⟩

/-- Nothing is above a type without a parent. -/
theorem rises_of_top (hparent : parent? s = none) : Rises parent? s t steps ↔ s = t ∧ steps = 0 := by
  constructor
  · intro h
    cases h with
    | stay => exact ⟨rfl, rfl⟩
    | up hextends _ => cases hparent.symm.trans hextends
  · rintro ⟨rfl, rfl⟩
    exact .stay s

/-- To another type the first step is to the parent. -/
theorem rises_of_extends {parent : String} (hparent : Extends parent? s parent) (hne : s ≠ t) :
    Rises parent? s t steps ↔ ∃ rest, Rises parent? parent t rest ∧ rest + 1 = steps := by
  constructor
  · intro h
    cases h with
    | stay => exact absurd rfl hne
    | up hextends hrest =>
      obtain rfl : parent = _ := Option.some.inj (hparent.symm.trans hextends)
      exact ⟨_, hrest, rfl⟩
  · rintro ⟨rest, hrest, rfl⟩
    exact .up hparent hrest

/-- A type on a walk that ends is as many steps above the first one as there are stops before it. -/
theorem Climbs.findIdx?_iff {stops : List String} (h : Climbs parent? s stops) :
    stops.findIdx? (· == t) = some steps ↔ Rises parent? s t steps := by
  induction h generalizing steps with
  | @top s hparent =>
    rw [rises_of_top hparent, List.findIdx?_cons]
    by_cases hst : s = t
    · subst hst
      rw [if_pos (beq_self_eq_true s), Option.some.injEq]
      exact ⟨fun hzero => ⟨rfl, hzero.symm⟩, fun hzero => hzero.2.symm⟩
    · rw [if_neg fun heq => hst (eq_of_beq heq)]
      exact iff_of_false (fun hnone => (by cases hnone)) fun hsame => hst hsame.1
  | @up s parent stops hparent hrest ih =>
    rw [List.findIdx?_cons]
    by_cases hst : s = t
    · subst hst
      rw [if_pos (beq_self_eq_true s), Option.some.injEq]
      constructor
      · rintro rfl
        exact .stay s
      · intro hrises
        cases hrises with
        | stay => rfl
        | up hextends hback =>
          -- Whoever comes back to the first stop has gone round in a circle.
          exact absurd (Relation.TransGen.head' hextends hback.reaches) (Climbs.up hparent hrest).not_cyclic
    · rw [if_neg fun heq => hst (eq_of_beq heq), Option.map_eq_some_iff, rises_of_extends hparent hst]
      simp only [ih]

end Rising

section Costs

variable {h : Hierarchy} {a b : Kind} {s t : String} {few many cost : Nat}

/-- The cost of passing an object as another type is the number of steps up to that type. -/
theorem Hierarchy.conversionCost?_object :
    h.conversionCost? (.object s) (.object t) = some cost ↔ Rises h.parent? s t cost := by
  rw [← (h.climbs_ancestors s).findIdx?_iff]
  constructor
  · exact fun hcost => findIdx?_of_conversion (conversion_of_conversionCost? hcost)
  · intro hsteps
    by_cases hst : s = t
    · subst hst
      rw [h.findIdx?_ancestors_self] at hsteps
      rw [← hsteps]
      exact conversionCost?_of_conversion (.same _)
    · exact conversionCost?_of_conversion (.climb hst hsteps)

theorem Hierarchy.conversionCost?_eq_zero_iff : h.conversionCost? a b = some 0 ↔ a = b := by
  constructor
  · intro hcost
    by_contra hne
    exact absurd ((conversion_of_conversionCost? hcost).pos_of_ne hne) (Nat.lt_irrefl 0)
  · rintro rfl
    exact conversionCost?_of_conversion (.same a)

/-- Nothing widens back. -/
theorem Primitive.not_wideningSteps?_back {p q : Primitive} (hne : p ≠ q) (hup : p.wideningSteps? q = some few)
    (hback : q.wideningSteps? p = some many) : False := by
  have hlt := wideningSteps?_lt hup p.wideningSteps?_self hback hne.symm
  exact absurd hlt (Nat.not_lt_zero few)

/-- Of the kinds that convert back and forth, one is the box of the other. -/
theorem Conversion.primitive_and_box (hup : Conversion h a b few) (hback : Conversion h b a many) (hne : a ≠ b) :
    ∃ p, a = .primitive p ∧ b = .boxed p ∨ a = .boxed p ∧ b = .primitive p := by
  cases hup with
  | same => exact absurd rfl hne
  | widen hpq hsteps => exact (Primitive.not_wideningSteps?_back hpq hsteps (wideningSteps?_of_conversion hback)).elim
  | box p => exact ⟨p, .inl ⟨rfl, rfl⟩⟩
  | unbox _ =>
    cases hback with
    | box => exact ⟨_, .inr ⟨rfl, rfl⟩⟩
  | null _ hnull =>
    -- Nothing but null itself is passed as null.
    cases hback <;> exact absurd rfl hnull
  | climb hst hsteps =>
    have hdown := Hierarchy.reaches_of_findIdx? (findIdx?_of_conversion hback)
    have hsame := Hierarchy.isSubtype_antisymm (Hierarchy.isSubtype_iff.2 (Hierarchy.reaches_of_findIdx? hsteps))
      (Hierarchy.isSubtype_iff.2 hdown)
    exact absurd hsame hst
  | primitiveToAny | boxedToAny | stringToAny | objectToAny => cases hback

end Costs

/-! ## The main result -/

/-- Take any hierarchy. Only to be passed as the same kind costs nothing. Two different kinds convert to each other
exactly if they are a primitive and its box. For objects, costs add up along the way: what converts to a second type and
on to a third one converts to the third at exactly the sum of both costs; and an object converts exactly to its own type
and to those above it. -/
theorem Hierarchy.costs_graded (h : Hierarchy) :
    (∀ a b, h.conversionCost? a b = some 0 ↔ a = b) ∧
    (∀ a b, a ≠ b → (h.Converts a b ∧ h.Converts b a ↔
      ∃ p, a = .primitive p ∧ b = .boxed p ∨ a = .boxed p ∧ b = .primitive p)) ∧
    (∀ s t u few many, h.conversionCost? (.object s) (.object t) = some few →
      h.conversionCost? (.object t) (.object u) = some many →
        h.conversionCost? (.object s) (.object u) = some (few + many)) ∧
    ∀ s u, h.Converts (.object s) (.object u) ↔ u = s ∨ Relation.TransGen (Extends h.parent?) s u := by
  refine ⟨fun a b => conversionCost?_eq_zero_iff, fun a b hne => ?_, fun s t u few many hfew hmany => ?_,
    fun s u => ?_⟩
  · simp only [Converts, conversionCost?_eq_some_iff]
    constructor
    · rintro ⟨⟨_, hup⟩, _, hback⟩
      exact hup.primitive_and_box hback hne
    · rintro ⟨p, ⟨rfl, rfl⟩ | ⟨rfl, rfl⟩⟩
      · exact ⟨⟨_, .box p⟩, _, .unbox p.wideningSteps?_self⟩
      · exact ⟨⟨_, .unbox p.wideningSteps?_self⟩, _, .box p⟩
  · rw [conversionCost?_object] at hfew hmany ⊢
    exact hfew.trans hmany
  · simp only [Converts, conversionCost?_object]
    rw [exists_rises_iff, Relation.reflTransGen_iff_eq_or_transGen]

/-! ## Three types above each other -/

namespace Sample

/-- Switches extend buttons, which extend views. -/
def switches : Hierarchy := ⟨KeyMap.ofList (("Switch", { bare with parent := some "Button" }) :: declared), by decide⟩

end Sample

/-- From a switch to a view it is one step to a button and one more. The view is no switch, and the box of a number
converts to the number and back. -/
theorem Hierarchy.costs_graded_switch :
    Sample.switches.conversionCost? (.object "Switch") (.object "View") = some (1 + 1) ∧
      ¬Sample.switches.Converts (.object "View") (.object "Switch") ∧
      Sample.switches.Converts (.boxed .i32) (.primitive .i32) ∧
      Sample.switches.Converts (.primitive .i32) (.boxed .i32) := by
  obtain ⟨_, hboth, hadd, _⟩ := costs_graded Sample.switches
  have hview : Sample.switches.Converts (.object "Switch") (.object "View") := ⟨2, by decide⟩
  refine ⟨hadd "Switch" "Button" "View" 1 1 (by decide) (by decide), fun hback => ?_, ?_⟩
  · obtain ⟨p, ⟨hp, _⟩ | ⟨hp, _⟩⟩ := (hboth (.object "Switch") (.object "View") (by decide)).1 ⟨hview, hback⟩
    · cases hp
    · cases hp
  · exact (hboth (.boxed .i32) (.primitive .i32) (by decide)).2 ⟨.i32, .inr ⟨rfl, rfl⟩⟩

end Interpose
