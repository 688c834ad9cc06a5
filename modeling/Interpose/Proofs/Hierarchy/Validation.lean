import Interpose.Proofs.Hierarchy.Walks

/-!
# Which declarations make a hierarchy

A list of declarations is accepted exactly if its ids are distinct, each parent that it names is declared and can be
extended, and no type is above itself. The search for a cycle comes to an end in any set of declarations, whatever else
is wrong with it. Nothing but this check makes the walks in a hierarchy end.
-/

namespace Interpose

/-! ## The search for a cycle -/

/-- The search for a cycle: climb and remember what was visited, until there is no parent left or a type comes again. -/
inductive CycleSearch (parent? : String → Option String) : List String → Option String → Bool → Prop
  | ended {visited : List String} : CycleSearch parent? visited none false
  | again {visited : List String} {typeId : String} (hmem : typeId ∈ visited) :
      CycleSearch parent? visited (some typeId) true
  | onward {visited : List String} {typeId : String} {found : Bool} (hnew : typeId ∉ visited)
      (hrest : CycleSearch parent? (typeId :: visited) (parent? typeId) found) :
      CycleSearch parent? visited (some typeId) found

section Searching

variable {parent? : String → Option String} {visited stops : List String} {typeId : String} {current : Option String}
  {found found' : Bool}

theorem CycleSearch.unique (h : CycleSearch parent? visited current found)
    (h' : CycleSearch parent? visited current found') : found = found' := by
  induction h with
  | ended =>
    cases h'
    rfl
  | again hmem =>
    cases h' with
    | again _ => rfl
    | onward hnew _ => exact absurd hmem hnew
  | onward hnew _ ih =>
    cases h' with
    | again hmem => exact absurd hmem hnew
    | onward _ hrest' => exact ih hrest'

/-- A walk that ends has no cycle, as far as it leads through types that were not visited. -/
theorem Climbs.cycleSearch (h : Climbs parent? typeId stops) (hnew : ∀ a ∈ stops, a ∉ visited) :
    CycleSearch parent? visited (some typeId) false := by
  induction h generalizing visited with
  | top hparent =>
    refine .onward (hnew _ List.mem_cons_self) ?_
    rw [hparent]
    exact .ended
  | up hparent hrest ih =>
    obtain ⟨hfirst, hlater⟩ := List.forall_mem_cons.1 hnew
    have happart := (List.nodup_cons.1 (Climbs.up hparent hrest).nodup).1
    refine .onward hfirst ?_
    rw [hparent]
    refine ih fun a ha hvisited => ?_
    obtain rfl | hbefore := List.mem_cons.1 hvisited
    · exact happart ha
    · exact hlater a ha hbefore

/-- Where no cycle is found, the walk ends. -/
theorem CycleSearch.climbs (h : CycleSearch parent? visited current found) (hfound : found = false) :
    ∀ a ∈ current, ∃ stops, Climbs parent? a stops := by
  induction h with
  | ended => exact fun _ ha => by cases ha
  | again _ => cases hfound
  | @onward _ typeId _ _ _ ih =>
    rintro _ ⟨⟩
    cases hparent : parent? typeId with
    | none => exact ⟨_, .top hparent⟩
    | some parent =>
      obtain ⟨stops, hstops⟩ := ih hfound parent hparent
      exact ⟨_, .up hparent hstops⟩

end Searching

/-- The declared types that a search has not visited. -/
def unvisited (decls : KeyMap TypeDecl) (visited : List String) : List String :=
  decls.keys.filter fun key => decide (key ∉ visited)

theorem length_unvisited_cons_lt {decls : KeyMap TypeDecl} {visited : List String} {typeId : String}
    (hdeclared : typeId ∈ decls.keys) (hnew : typeId ∉ visited) :
    (unvisited decls (typeId :: visited)).length < (unvisited decls visited).length := by
  have hfiltered : unvisited decls (typeId :: visited) =
      (unvisited decls visited).filter fun key => decide (key ≠ typeId) := by
    rw [unvisited, unvisited, List.filter_filter]
    congr 1
    funext key
    simp
  have hleft : typeId ∈ unvisited decls visited := List.mem_filter.2 ⟨hdeclared, decide_eq_true hnew⟩
  rw [hfiltered]
  exact List.length_filter_lt_length_iff_exists.2 ⟨typeId, hleft, by simp⟩

/-- Among declarations the search comes to an end: whenever it goes on from a type, one declared type less is left. -/
theorem exists_cycleSearch (decls : KeyMap TypeDecl) (visited : List String) (current : Option String) :
    ∃ found, CycleSearch (parentIn decls) visited current found := by
  induction hleft : (unvisited decls visited).length using Nat.strongRecOn generalizing visited current with
  | _ left ih =>
    cases current with
    | none => exact ⟨_, .ended⟩
    | some typeId =>
      by_cases hmem : typeId ∈ visited
      · exact ⟨_, .again hmem⟩
      · cases hparent : parentIn decls typeId with
        | none =>
          refine ⟨false, .onward hmem ?_⟩
          rw [hparent]
          exact .ended
        | some parent =>
          obtain ⟨decl, hdecl, _⟩ := parentIn_eq_some_iff.1 hparent
          have hfewer := length_unvisited_cons_lt (KeyMap.mem_keys_iff.2 ⟨decl, hdecl⟩) hmem
          rw [hleft] at hfewer
          obtain ⟨found, hfound⟩ := ih _ hfewer (typeId :: visited) (some parent) rfl
          exact ⟨found, .onward hmem (hparent ▸ hfound)⟩

/-- A cycle is found exactly where one stop more than there are types shows a type twice. -/
theorem CycleSearch.eq_false_iff {decls : KeyMap TypeDecl} {typeId : String} {found : Bool}
    (h : CycleSearch (parentIn decls) [] (some typeId) found) : found = false ↔ (walkIn decls typeId).Nodup := by
  rw [nodup_walkIn_iff]
  constructor
  · exact fun hfound => h.climbs hfound typeId rfl
  · rintro ⟨stops, hclimbs⟩
    exact h.unique (hclimbs.cycleSearch fun _ _ => List.not_mem_nil)

/-! ## Lists of declarations -/

/-- A type is declared with another one as its parent. -/
def DeclaredBelow (decls : List (String × TypeDecl)) (child parent : String) : Prop :=
  ∃ decl, (child, decl) ∈ decls ∧ decl.parent = some parent

/-- What a list of declarations has to meet. -/
structure WellFormed (decls : List (String × TypeDecl)) : Prop where
  distinct : (decls.map (·.1)).Nodup
  declared : ∀ child parent, DeclaredBelow decls child parent → ∃ decl, (parent, decl) ∈ decls
  extensible : ∀ child parent decl, DeclaredBelow decls child parent → (parent, decl) ∈ decls → decl.isFinal = false
  acyclic : ∀ typeId, ¬Relation.TransGen (DeclaredBelow decls) typeId typeId

namespace Hierarchy

variable {decls : List (String × TypeDecl)} {before collected : KeyMap TypeDecl} {h : Hierarchy}

/-- What was collected holds the declarations of the list beside those from before. -/
theorem get?_of_collect (hcollect : collect decls before = .ok collected) {typeId : String} {decl : TypeDecl} :
    collected.get? typeId = some decl ↔ (typeId, decl) ∈ decls ∨ before.get? typeId = some decl := by
  induction decls generalizing before with
  | nil =>
    cases hcollect
    simp
  | cons e rest ih =>
    obtain ⟨id, first⟩ := e
    rw [collect] at hcollect
    split at hcollect
    · cases hcollect
    · rename_i hfresh
      have hnone : before.get? id = none := by simpa [KeyMap.contains] using hfresh
      rw [ih hcollect, KeyMap.get?_insert, List.mem_cons, Prod.mk.injEq]
      by_cases hid : typeId = id
      · simp [hid, hnone, eq_comm, or_comm]
      · simp [hid]

/-- Collecting succeeds exactly if no id comes twice. -/
theorem exists_collect_iff :
    (∃ collected, collect decls before = .ok collected) ↔
      (decls.map (·.1)).Nodup ∧ ∀ e ∈ decls, before.get? e.1 = none := by
  induction decls generalizing before with
  | nil => simp [collect]
  | cons e rest ih =>
    obtain ⟨id, first⟩ := e
    rw [collect, List.map_cons, List.nodup_cons, List.forall_mem_cons]
    cases hget : before.get? id with
    | some decl => simp [KeyMap.contains, hget]
    | none =>
      -- What the rest finds in its way is what was there before, and the first id.
      have hapart : (∀ e ∈ rest, (before.insert id first).get? e.1 = none) ↔
          id ∉ rest.map (·.1) ∧ ∀ e ∈ rest, before.get? e.1 = none := by
        simp only [KeyMap.get?_insert]
        grind
      simp only [KeyMap.contains, hget, Option.isSome_none, Bool.false_eq_true, if_false, ih, hapart]
      tauto

theorem ofDecls_decls (hok : ofDecls collected = .ok h) : h.decls = collected := by
  unfold ofDecls at hok
  split at hok
  · cases hok
  · cases hok
    rfl

theorem exists_ofDecls_iff :
    (∃ h, ofDecls collected = .ok h) ↔ ∀ e ∈ collected.entries, parentFault? collected e.1 e.2 = none := by
  constructor
  · rintro ⟨h, hok⟩
    rw [← ofDecls_decls hok]
    exact h.sound
  · intro hsound
    unfold ofDecls
    split
    · rename_i fault hfault
      obtain ⟨e, he, hfault⟩ := List.exists_of_findSome?_eq_some hfault
      cases (hsound e he).symm.trans hfault
    · exact ⟨_, rfl⟩

theorem collect_of_ofList (hok : ofList decls = .ok h) : collect decls KeyMap.empty = .ok h.decls := by
  unfold ofList at hok
  split at hok
  · cases hok
  · rename_i collected hcollect
    rw [ofDecls_decls hok, hcollect]

/-- A hierarchy has the declarations that it was made of. -/
theorem get?_of_ofList (hok : ofList decls = .ok h) {typeId : String} {decl : TypeDecl} :
    h.get? typeId = some decl ↔ (typeId, decl) ∈ decls := by
  rw [Hierarchy.get?, get?_of_collect (collect_of_ofList hok), KeyMap.get?_empty]
  simp

section Collected

variable (hget : ∀ typeId decl, collected.get? typeId = some decl ↔ (typeId, decl) ∈ decls)

include hget

theorem declaredBelow_eq : DeclaredBelow decls = Extends (parentIn collected) := by
  funext child parent
  simp only [DeclaredBelow, Extends, parentIn_eq_some_iff, hget]

/-- Declarations with distinct ids have no fault exactly if they are well-formed. -/
theorem sound_iff (hdistinct : (decls.map (·.1)).Nodup) :
    (∀ e ∈ collected.entries, parentFault? collected e.1 e.2 = none) ↔ WellFormed decls := by
  have hbelow := declaredBelow_eq hget
  constructor
  · intro hsound
    refine ⟨hdistinct, fun child parent hdeclared => ?_, fun child parent decl hdeclared hdecl => ?_, fun a => ?_⟩
    · obtain ⟨above, hparent, _⟩ := exists_above_of_sound hsound (hbelow ▸ hdeclared)
      exact ⟨above, (hget parent above).1 hparent⟩
    · obtain ⟨above, hparent, hopen, _⟩ := exists_above_of_sound hsound (hbelow ▸ hdeclared)
      cases hparent.symm.trans ((hget parent decl).2 hdecl)
      exact hopen
    · -- A type on a cycle has a parent, so its own walk was checked.
      rw [hbelow]
      intro hcycle
      obtain ⟨parent, hparent, _⟩ := Relation.TransGen.head'_iff.1 hcycle
      obtain ⟨_, _, _, hnodup⟩ := exists_above_of_sound hsound hparent
      exact (climbs_walkIn hnodup).not_cyclic hcycle
  · rintro ⟨_, hdeclared, hextensible, hacyclic⟩ ⟨child, decl⟩ hentry
    refine parentFault?_eq_none_iff.2 fun parent hparent => ?_
    have hchild : DeclaredBelow decls child parent :=
      ⟨decl, (hget child decl).1 (KeyMap.get?_eq_some_iff.2 hentry), hparent⟩
    obtain ⟨above, hmem⟩ := hdeclared child parent hchild
    refine ⟨above, (hget parent above).2 hmem, hextensible child parent above hchild hmem, ?_⟩
    rw [hbelow] at hacyclic
    exact nodup_walk hacyclic _ _

end Collected

theorem exists_ofList_iff : (∃ h, ofList decls = .ok h) ↔ WellFormed decls := by
  have hcollects : (∃ collected, collect decls KeyMap.empty = .ok collected) ↔ (decls.map (·.1)).Nodup := by
    simp [exists_collect_iff]
  constructor
  · rintro ⟨h, hok⟩
    exact (sound_iff (fun _ _ => get?_of_ofList hok) (hcollects.1 ⟨_, collect_of_ofList hok⟩)).1 h.sound
  · intro hformed
    obtain ⟨collected, hcollect⟩ := hcollects.2 hformed.distinct
    have hget : ∀ typeId decl, collected.get? typeId = some decl ↔ (typeId, decl) ∈ decls := by
      intro typeId decl
      rw [get?_of_collect hcollect, KeyMap.get?_empty]
      simp
    obtain ⟨h, hok⟩ := exists_ofDecls_iff.2 ((sound_iff hget hformed.distinct).2 hformed)
    refine ⟨h, ?_⟩
    rw [ofList, hcollect]
    exact hok

/-- In any set of declarations the search for a cycle from any type ends, with the verdict of the check. A list of
declarations is accepted exactly if it is well-formed. In the hierarchy that it makes, the walk from any type, declared or
not, ends after the ancestors of the type; it meets no type twice, and after its first stop it meets only declared types
that are not final. Being a subtype is to be reached by such a walk, and it is an order. -/
theorem accepts_exactly_wellFormed (decls : List (String × TypeDecl)) :
    (∀ (staged : KeyMap TypeDecl) (typeId : String), ∃ found, CycleSearch (parentIn staged) [] (some typeId) found ∧
      (found = false ↔ (walkIn staged typeId).Nodup)) ∧
    ((∃ h, ofList decls = .ok h) ↔ WellFormed decls) ∧
    ∀ h, ofList decls = .ok h →
      (∀ typeId decl, h.get? typeId = some decl ↔ (typeId, decl) ∈ decls) ∧
      (∀ typeId, Climbs h.parent? typeId (h.ancestors typeId) ∧ (h.ancestors typeId).Nodup ∧
        ∀ a ∈ (h.ancestors typeId).tail, ∃ decl, h.get? a = some decl ∧ decl.isFinal = false) ∧
      (∀ a b, h.isSubtype a b = true ↔ Relation.ReflTransGen (DeclaredBelow decls) a b) ∧
      (∀ a, h.isSubtype a a = true) ∧
      (∀ a b c, h.isSubtype a b = true → h.isSubtype b c = true → h.isSubtype a c = true) ∧
      ∀ a b, h.isSubtype a b = true → h.isSubtype b a = true → a = b := by
  refine ⟨fun staged typeId => ?_, exists_ofList_iff, fun h hok => ?_⟩
  · obtain ⟨found, hfound⟩ := exists_cycleSearch staged [] (some typeId)
    exact ⟨found, hfound, hfound.eq_false_iff⟩
  · have hget : ∀ typeId decl, h.get? typeId = some decl ↔ (typeId, decl) ∈ decls := fun _ _ => get?_of_ofList hok
    refine ⟨hget, fun typeId => ?_, fun a b => ?_, h.isSubtype_self, fun _ _ _ => isSubtype_trans,
      fun _ _ => isSubtype_antisymm⟩
    · have hclimbs := h.climbs_ancestors typeId
      exact ⟨hclimbs, hclimbs.nodup, fun _ => extensible_of_mem_tail⟩
    · rw [isSubtype_iff, declaredBelow_eq hget]
      rfl

end Hierarchy

namespace Sample

/-- A type that declares nothing. -/
def bare : TypeDecl := ⟨none, false, false, false, [], [], []⟩

/-- Buttons are declared before the views that they extend. -/
def declared : List (String × TypeDecl) := [("Button", { bare with parent := some "View" }), ("View", bare)]

def buttons : Hierarchy := ⟨KeyMap.ofList declared, by decide⟩

end Sample

/-- Buttons and views are well-formed and make a hierarchy, in which no view is a button. -/
theorem Hierarchy.accepts_exactly_wellFormed_button :
    ofList Sample.declared = .ok Sample.buttons ∧ WellFormed Sample.declared ∧
      Climbs Sample.buttons.parent? "Button" ["Button", "View"] ∧ Sample.buttons.isSubtype "View" "Button" = false := by
  have hok : ofList Sample.declared = .ok Sample.buttons := rfl
  obtain ⟨_, hiff, hmade⟩ := accepts_exactly_wellFormed Sample.declared
  obtain ⟨_, hwalks, _, _, _, hantisymm⟩ := hmade Sample.buttons hok
  refine ⟨hok, hiff.1 ⟨_, hok⟩, (hwalks "Button").1, Bool.eq_false_iff.2 fun hview => ?_⟩
  exact absurd (hantisymm "Button" "View" (by decide) hview) (by decide)

end Interpose
