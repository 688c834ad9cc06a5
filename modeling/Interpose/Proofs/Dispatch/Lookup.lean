import Interpose.Call.Resolution
import Interpose.Proofs.Data.Containers

/-!
# What a look-up depends on

A look-up walks up from a type and stops at the first binding in force. It reads a registry at the types that it
reports as consulted and nowhere else, so a registry that binds these alike gives the same answer. Everything
that is decided about a call goes through one look-up, so the same holds of decisions.
-/

namespace Interpose

namespace Registry

/-- A type is reported as changed exactly if the two registries bind it differently. -/
theorem contains_changed {r previous : Registry} {real : String} :
    (r.changed previous).contains real = true ↔ r.get? real ≠ previous.get? real := by
  rw [changed, KeySet.contains_ofKeys, List.mem_filter, List.mem_append]
  constructor
  · intro h
    simpa using h.2
  · intro h
    refine ⟨?_, by simpa using h⟩
    cases hr : r.get? real with
    | some b => exact .inl (KeyMap.mem_keys_iff.2 ⟨b, hr⟩)
    | none =>
      cases hp : previous.get? real with
      | some b => exact .inr (KeyMap.mem_keys_iff.2 ⟨b, hp⟩)
      | none => exact absurd (hr.trans hp.symm) h

/-- Whether a type has a binding in force. -/
def binds (r : Registry) (level : Nat) (typeId : String) : Bool := (r.inForce? level typeId).isSome

/-- The part of a walk up to and including the first type with a binding in force. -/
def chain (r : Registry) (level : Nat) (types : List String) : List String :=
  types.takeWhile (fun t => !r.binds level t) ++ (types.dropWhile fun t => !r.binds level t).take 1

/-- A look-up consults the types up to and including the bound one. -/
theorem consulted_lookupAlong (r : Registry) (level : Nat) (types : List String) :
    (r.lookupAlong level types).consulted = r.chain level types := by
  induction types with
  | nil => rfl
  | cons typeId rest ih =>
    cases h : r.inForce? level typeId with
    | some b => simp [lookupAlong, chain, binds, h]
    | none =>
      have hrest : (r.lookupAlong level rest).consulted = r.chain level rest := ih
      simpa [lookupAlong, chain, binds, h] using hrest

/-- Registries that bind the consulted types alike give the same answer. -/
theorem lookupAlong_congr {r r' : Registry} {level : Nat} {types : List String}
    (h : ∀ t ∈ (r.lookupAlong level types).consulted, r'.get? t = r.get? t) :
    r'.lookupAlong level types = r.lookupAlong level types := by
  induction types with
  | nil => rfl
  | cons typeId rest ih =>
    have hhead : r'.inForce? level typeId = r.inForce? level typeId := by
      have hmem : typeId ∈ (r.lookupAlong level (typeId :: rest)).consulted := by
        rw [lookupAlong]
        split <;> exact List.mem_cons_self
      rw [inForce?, inForce?, h typeId hmem]
    cases hb : r.inForce? level typeId with
    | some b =>
      rw [hb] at hhead
      simp only [lookupAlong, hb, hhead]
    | none =>
      rw [hb] at hhead
      have hrest : ∀ t ∈ (r.lookupAlong level rest).consulted, r'.get? t = r.get? t := by
        intro t ht
        apply h t
        simp only [lookupAlong, hb]
        exact List.mem_cons_of_mem _ ht
      simp only [lookupAlong, hb, hhead, ih hrest]

end Registry

namespace Setting

/-- The same setting with another registry in force. -/
def withRegistry (s : Setting) (r : Registry) : Setting := { s with registry := r }

/-- The types that a decision depends on: the runtime type up to and including the bound type, or the runtime
type alone where nothing is intercepted. -/
theorem consulted_eq (s : Setting) (site : CallSite) :
    s.consulted site =
      if s.rules.intercepts site.runtimeType then
        s.registry.chain s.level (s.hierarchy.ancestors site.runtimeType)
      else [site.runtimeType] := by
  unfold consulted governing
  split
  · exact Registry.consulted_lookupAlong _ _ _
  · rfl

section AgreeingRegistries

variable {s : Setting} {r : Registry} {site : CallSite}

theorem governing_withRegistry (h : ∀ t ∈ s.consulted site, r.get? t = s.registry.get? t) :
    (s.withRegistry r).governing site.runtimeType = s.governing site.runtimeType := by
  unfold consulted at h
  unfold governing at h ⊢
  change (if s.rules.intercepts site.runtimeType then r.lookup s.hierarchy s.level site.runtimeType
    else ⟨none, [site.runtimeType]⟩) = _
  by_cases hi : s.rules.intercepts site.runtimeType = true
  · simp only [if_pos hi] at h ⊢
    exact Registry.lookupAlong_congr h
  · simp only [if_neg hi]

/-- What is consulted stays the same under a registry that binds the consulted types alike. -/
theorem consulted_withRegistry (h : ∀ t ∈ s.consulted site, r.get? t = s.registry.get? t) :
    (s.withRegistry r).consulted site = s.consulted site := by
  rw [consulted, governing_withRegistry h, consulted]

/-- So does the decision. -/
theorem decide_withRegistry (h : ∀ t ∈ s.consulted site, r.get? t = s.registry.get? t) :
    (s.withRegistry r).decide site = s.decide site := by
  have hroute : (s.withRegistry r).route site = s.route site := by
    unfold route
    rw [governing_withRegistry h]
    -- Below the look-up nothing reads the registry.
    rfl
  unfold decide
  rw [hroute]
  rfl

end AgreeingRegistries

end Setting

end Interpose
