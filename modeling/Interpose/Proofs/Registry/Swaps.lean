import Interpose.Proofs.Dispatch.Lookup
import Interpose.Proofs.Dispatch.Steps
import Interpose.Proofs.Hierarchy.Walks

/-!
# How far a change of registry reaches

The types that are reported as changed between two registries are those that the registries bind differently: a distance
with values in sets. A look-up walks up from a type, stops at the first binding that admits the level, and reports the
stops that it made. If none of these stops is reported as changed, the other registry gives the same answer.
-/

namespace Interpose.Registry

variable {r r' r'' : Registry} {level : Nat} {types : List String} {typeId real : String}

/-- A type has no binding that admits the level. -/
def PassesOver (r : Registry) (level : Nat) (typeId : String) : Prop :=
  ∀ b, r.get? typeId = some b → b.admits level = false

/-- What is found on a walk: the binding of the first type that has one which admits the level, with the stops up to this
type; or nothing, after all stops. -/
inductive Finds (r : Registry) (level : Nat) : List String → Lookup → Prop
  | bound (before : List String) {after : List String} {real : String} {b : Binding}
      (hpassed : ∀ t ∈ before, r.PassesOver level t)
      (hget : r.get? real = some b) (hadmits : b.admits level = true) :
      Finds r level (before ++ real :: after) ⟨some b, before ++ [real]⟩
  | unbound {types : List String} (hpassed : ∀ t ∈ types, r.PassesOver level t) : Finds r level types ⟨none, types⟩

theorem passesOver_iff : r.PassesOver level typeId ↔ r.inForce? level typeId = none := by
  rw [inForce?, Option.filter_eq_none_iff]
  simp [PassesOver]

theorem finds_lookupAlong (r : Registry) (level : Nat) (types : List String) :
    r.Finds level types (r.lookupAlong level types) := by
  induction types with
  | nil => exact .unbound fun _ ht => by cases ht
  | cons typeId rest ih =>
    cases hforce : r.inForce? level typeId with
    | some b =>
      rw [lookupAlong, hforce]
      obtain ⟨hget, hadmits⟩ := Option.filter_eq_some_iff.1 hforce
      exact .bound [] (fun _ ht => by cases ht) hget hadmits
    | none =>
      have hfirst : r.PassesOver level typeId := passesOver_iff.2 hforce
      simp only [lookupAlong, hforce]
      generalize r.lookupAlong level rest = further at ih
      cases ih with
      | bound before hpassed hget hadmits =>
        exact .bound (typeId :: before) (List.forall_mem_cons.2 ⟨hfirst, hpassed⟩) hget hadmits
      | unbound hpassed => exact .unbound (List.forall_mem_cons.2 ⟨hfirst, hpassed⟩)

theorem contains_changed_eq_false : (r.changed r').contains real = false ↔ r.get? real = r'.get? real := by
  rw [← Bool.not_eq_true, contains_changed, not_not]

theorem changed_comm (r r' : Registry) : r.changed r' = r'.changed r := by
  refine KeySet.ext_contains fun real => ?_
  rw [Bool.eq_iff_iff, contains_changed, contains_changed]
  exact ne_comm

/-- Nothing is reported as changed only between equal registries. -/
theorem isEmpty_changed_iff : (r.changed r').isEmpty = true ↔ r = r' := by
  rw [KeyMap.isEmpty_iff]
  constructor
  · intro hnone
    have hbindings : r.bindings = r'.bindings := KeyMap.ext_get? fun real => contains_changed_eq_false.1 (hnone real)
    cases r
    cases hbindings
    rfl
  · rintro rfl real
    exact contains_changed_eq_false.2 rfl

/-- What changes by two steps changes by one of them. -/
theorem contains_changed_trans (h : (r.changed r'').contains real = true) :
    (r.changed r').contains real = true ∨ (r'.changed r'').contains real = true := by
  rw [contains_changed] at h ⊢
  rw [contains_changed]
  by_cases hsame : r.get? real = r'.get? real
  · exact .inr (hsame ▸ h)
  · exact .inl hsame

/-- Where no stop of a look-up is reported as changed, the other registry gives the same answer. -/
theorem lookup_eq_of_unchanged {h : Hierarchy}
    (hsame : ∀ t ∈ (r.lookup h level typeId).consulted, (r.changed r').contains t = false) :
    r'.lookup h level typeId = r.lookup h level typeId :=
  lookupAlong_congr fun t ht => (contains_changed_eq_false.1 (hsame t ht)).symm

/-- The types reported as changed between two registries are those bound differently: the report is symmetric, empty only
between equal registries, and between two registries it has no type that is not reported on the way over a third one. A
look-up finds the binding of the first ancestor that has one which admits the level, with the ancestors up to this one;
and if none of these is reported as changed, the other registry gives the same answer. -/
theorem changed_bounds_lookup (r r' r'' : Registry) :
    (∀ real, (r.changed r').contains real = true ↔ r.get? real ≠ r'.get? real) ∧
    r.changed r' = r'.changed r ∧
    ((r.changed r').isEmpty = true ↔ r = r') ∧
    (∀ real, (r.changed r'').contains real = true →
      (r.changed r').contains real = true ∨ (r'.changed r'').contains real = true) ∧
    ∀ (h : Hierarchy) (level : Nat) (typeId : String),
      Climbs h.parent? typeId (h.ancestors typeId) ∧
      r.Finds level (h.ancestors typeId) (r.lookup h level typeId) ∧
      ((∀ t ∈ (r.lookup h level typeId).consulted, (r.changed r').contains t = false) →
        r'.lookup h level typeId = r.lookup h level typeId) :=
  ⟨fun _ => contains_changed, changed_comm r r', isEmpty_changed_iff, fun _ => contains_changed_trans,
    fun h level typeId => ⟨h.climbs_ancestors typeId, finds_lookupAlong r level _, lookup_eq_of_unchanged⟩⟩

end Interpose.Registry

namespace Interpose

namespace Sample

/-- A binding of buttons from level 28 on. -/
def modernButton : Binding := { Binding.bind "Button" shadowView with window := ⟨some 28, none⟩ }

def modern : Registry := ⟨KeyMap.ofList [("Button", modernButton), ("View", .ofShadow shadowView)]⟩

/-- The binding of views is gone. -/
def withoutViews : Registry := ⟨KeyMap.ofList [("Button", modernButton)]⟩

end Sample

/-- The registries bind views differently. At a level at which the binding of buttons applies no look-up from a button
gets that far, and below this level it does. -/
theorem Registry.changed_bounds_lookup_button :
    (Sample.modern.changed Sample.withoutViews).contains "View" = true ∧
    Sample.withoutViews.lookup Sample.hierarchy 30 "Button" = Sample.modern.lookup Sample.hierarchy 30 "Button" ∧
    Sample.withoutViews.lookup Sample.hierarchy 23 "Button" ≠ Sample.modern.lookup Sample.hierarchy 23 "Button" := by
  obtain ⟨hchanged, _, _, _, hlookup⟩ := changed_bounds_lookup Sample.modern Sample.withoutViews .empty
  obtain ⟨_, _, hsame⟩ := hlookup Sample.hierarchy 30 "Button"
  exact ⟨(hchanged "View").2 (by decide), hsame (by decide), by decide⟩

end Interpose
