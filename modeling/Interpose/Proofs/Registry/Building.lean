import Interpose.Proofs.Data.Containers
import Interpose.Registry.Staging

/-!
# What a built registry puts in force

A registry that was built binds a type by the last of the bindings staged for it, and none of its bindings has a
fault. What a look-up finds is the binding of one of the types on the way, and the type's own binding if that is in
force.
-/

namespace Interpose

namespace Staging

variable {s : Staging} {h : Hierarchy} {registry : Registry} {real : String} {b : Binding}

theorem build_eq_ok (hbuild : s.build h = .ok registry) :
    registry = ⟨s.winners⟩ ∧ ∀ b ∈ s.winners.values, fault? h b = none := by
  unfold build at hbuild
  split at hbuild
  · cases hbuild
  · rename_i hnone
    exact ⟨(Except.ok.inj hbuild).symm, fun b hb => List.findSome?_eq_none_iff.1 hnone b hb⟩

/-- The last binding staged for a type is the one that is built. -/
theorem get?_of_build (hbuild : s.build h = .ok registry) :
    registry.get? real = some b ↔
      ∃ before after, s.all = before ++ b :: after ∧ b.real = real ∧ ∀ c ∈ after, c.real ≠ real := by
  obtain ⟨rfl, _⟩ := build_eq_ok hbuild
  have hwinner : Registry.get? ⟨s.winners⟩ real = some b ↔
      (KeyMap.ofList (s.all.map fun b => (b.real, b))).get? real = some b := Iff.rfl
  rw [hwinner, KeyMap.ofList, KeyMap.get?_foldl_insert]
  constructor
  · rintro (⟨before, after, hsplit, hafter⟩ | ⟨_, hnone⟩)
    · obtain ⟨first, rest, hall, rfl, hrest⟩ := List.map_eq_append_iff.1 hsplit
      obtain ⟨c, last, rfl, hc, rfl⟩ := List.map_eq_cons_iff.1 hrest
      obtain ⟨hreal, rfl⟩ := Prod.mk.inj hc
      exact ⟨first, last, hall, hreal, fun d hd => hafter _ (List.mem_map_of_mem hd)⟩
    · cases hnone
  · rintro ⟨before, after, hall, rfl, hafter⟩
    refine .inl ⟨before.map fun b => (b.real, b), after.map fun b => (b.real, b), by rw [hall, List.map_append]; rfl, ?_⟩
    intro e he
    obtain ⟨c, hc, rfl⟩ := List.mem_map.1 he
    exact hafter c hc

theorem fault?_of_build (hbuild : s.build h = .ok registry) (hget : registry.get? real = some b) :
    fault? h b = none := by
  obtain ⟨rfl, hsound⟩ := build_eq_ok hbuild
  exact hsound b (KeyMap.mem_values_iff.2 ⟨real, hget⟩)

/-- A binding without fault that calls through is for a declared type that can be extended. -/
theorem extensible_of_fault?_eq_none (hfault : fault? h b = none) (hcalls : b.callsThrough = true) :
    ∃ decl, h.get? b.real = some decl ∧ decl.isFinal = false := by
  have hreachable := (Option.or_eq_none_iff.1 hfault).2
  rw [if_pos hcalls] at hreachable
  split at hreachable
  · cases hreachable
  · rename_i decl hdecl
    split at hreachable
    · cases hreachable
    · rename_i hfinal
      exact ⟨decl, hdecl, Bool.eq_false_iff.2 hfinal⟩

end Staging

namespace Registry

variable {r : Registry} {h : Hierarchy} {level : Nat} {types : List String} {typeId : String} {b : Binding}

theorem inForce?_eq_some_iff : r.inForce? level typeId = some b ↔ r.get? typeId = some b ∧ b.admits level = true :=
  Option.filter_eq_some_iff

theorem exists_inForce?_of_lookupAlong (hb : (r.lookupAlong level types).binding? = some b) :
    ∃ typeId ∈ types, r.inForce? level typeId = some b := by
  induction types with
  | nil => cases hb
  | cons typeId rest ih =>
    rw [lookupAlong] at hb
    split at hb
    · rename_i hforce
      cases hb
      exact ⟨typeId, List.mem_cons_self, hforce⟩
    · obtain ⟨t, ht, hforce⟩ := ih hb
      exact ⟨t, List.mem_cons_of_mem _ ht, hforce⟩

/-- The binding that a type falls under is its own or that of an ancestor. -/
theorem exists_inForce?_of_lookup (hb : (r.lookup h level typeId).binding? = some b) :
    ∃ real, h.isSubtype typeId real = true ∧ r.inForce? level real = some b := by
  obtain ⟨real, hreal, hforce⟩ := exists_inForce?_of_lookupAlong hb
  exact ⟨real, List.contains_iff_mem.2 hreal, hforce⟩

/-- A type's own binding comes before all others. -/
theorem lookup_of_inForce? (h : Hierarchy) (hforce : r.inForce? level typeId = some b) :
    (r.lookup h level typeId).binding? = some b := by
  unfold lookup Hierarchy.ancestors walkIn walk
  rw [lookupAlong, hforce]

end Registry

end Interpose
