import Interpose.Proofs.Hierarchy.Walks

/-!
# Which fields a type has

The objects of a type have the fields that the type or an ancestor declares. Of declarations that share a name the
nearest type's counts, and within a type the first one. Static fields are not inherited: a type has those that it
declares itself, and of declarations that share a name the last one counts.
-/

namespace Interpose

section FirstPerKey

variable {α κ : Type} [DecidableEq κ] {key : α → κ} {a : α}

/-- The first items of two lists together: those of the first list, and those of the second whose key is new. -/
theorem mem_firstPerKey_append {xs ys : List α} : a ∈ firstPerKey key (xs ++ ys) ↔
    a ∈ firstPerKey key xs ∨ (∀ b ∈ xs, key b ≠ key a) ∧ a ∈ firstPerKey key ys := by
  induction xs with
  | nil => simp [firstPerKey]
  | cons first rest ih =>
    rw [List.cons_append, firstPerKey, firstPerKey, List.mem_cons, List.mem_cons, List.mem_filter, List.mem_filter, ih,
      List.forall_mem_cons, decide_eq_true_eq]
    constructor
    · rintro (rfl | ⟨hrest | ⟨hnew, hlater⟩, hne⟩)
      · exact .inl (.inl rfl)
      · exact .inl (.inr ⟨hrest, hne⟩)
      · exact .inr ⟨⟨Ne.symm hne, hnew⟩, hlater⟩
    · rintro ((rfl | ⟨hrest, hne⟩) | ⟨⟨hne, hnew⟩, hlater⟩)
      · exact .inl rfl
      · exact .inr ⟨.inl hrest, hne⟩
      · exact .inr ⟨.inr ⟨hnew, hlater⟩, Ne.symm hne⟩

/-- An item is kept if no item of its key comes before it. -/
theorem mem_firstPerKey_iff_split {items : List α} : a ∈ firstPerKey key items ↔
    ∃ before after, items = before ++ a :: after ∧ ∀ b ∈ before, key b ≠ key a := by
  constructor
  · intro ha
    induction items with
    | nil => cases ha
    | cons first rest ih =>
      obtain rfl | ha := List.mem_cons.1 ha
      · exact ⟨[], rest, rfl, fun _ hb => by cases hb⟩
      · obtain ⟨hmem, hne⟩ := List.mem_filter.1 ha
        obtain ⟨before, after, rfl, hbefore⟩ := ih hmem
        exact ⟨first :: before, after, rfl, List.forall_mem_cons.2 ⟨Ne.symm (of_decide_eq_true hne), hbefore⟩⟩
  · rintro ⟨before, after, rfl, hbefore⟩
    exact mem_firstPerKey_append.2 (.inr ⟨hbefore, List.mem_cons_self⟩)

end FirstPerKey

namespace Hierarchy

variable {h : Hierarchy} {typeId owner field : String} {initial : Value} {decl : TypeDecl} {fields : List Field}

/-- A type itself declares a field for its objects. -/
def DeclaresField (h : Hierarchy) (owner field : String) : Prop :=
  ∃ decl, h.get? owner = some decl ∧ field ∈ decl.fields.map (·.1)

/-- The value that a field has in a new object of a type. -/
inductive Inherits (h : Hierarchy) : String → String → Value → Prop
  /-- Of the declarations in the type itself the first one counts. -/
  | own {typeId field : String} {initial : Value} {decl : TypeDecl} {before after : List Field}
      (hdecl : h.get? typeId = some decl) (hfields : decl.fields = before ++ (field, initial) :: after)
      (hfirst : ∀ e ∈ before, e.1 ≠ field) : Inherits h typeId field initial
  /-- Without one, what the parent says counts. -/
  | above {typeId parent field : String} {initial : Value} (hnone : ¬h.DeclaresField typeId field)
      (hparent : h.parent? typeId = some parent) (hinherits : Inherits h parent field initial) :
      Inherits h typeId field initial

/-- The value that a static field of a type starts with: that of the last declaration in the type itself. -/
def DeclaresStatic (h : Hierarchy) (typeId field : String) (initial : Value) : Prop :=
  ∃ decl before after, h.get? typeId = some decl ∧ decl.statics = before ++ (field, initial) :: after ∧
    ∀ e ∈ after, e.1 ≠ field

/-- Objects can have exactly this type: it is there and not abstract. -/
def Instantiable (h : Hierarchy) (typeId : String) : Prop :=
  ∃ decl, h.get? typeId = some decl ∧ decl.hasNoInstances = false

/-! ## Fields of objects -/

/-- The fields that a type itself declares, none if it is not there. -/
def ownFields (h : Hierarchy) (typeId : String) : List Field := ((h.get? typeId).map (·.fields)).getD []

theorem declaresField_iff : h.DeclaresField owner field ↔ ∃ e ∈ h.ownFields owner, e.1 = field := by
  unfold DeclaresField ownFields
  cases h.get? owner with
  | none => simp
  | some decl => simp

instance : Decidable (h.DeclaresField owner field) := decidable_of_iff _ declaresField_iff.symm

theorem inherits_own_iff : (field, initial) ∈ firstPerKey (·.1) (h.ownFields typeId) ↔
    ∃ decl before after, h.get? typeId = some decl ∧ decl.fields = before ++ (field, initial) :: after ∧
      ∀ e ∈ before, e.1 ≠ field := by
  rw [mem_firstPerKey_iff_split]
  unfold ownFields
  cases h.get? typeId with
  | none => simp
  | some decl => simp

theorem flatMap_lineage (owners : List String) :
    ((owners.filterMap fun t => (h.get? t).map (t, ·)).flatMap (·.2.fields)) = owners.flatMap h.ownFields := by
  induction owners with
  | nil => rfl
  | cons owner rest ih =>
    rw [List.flatMap_cons, ← ih, List.filterMap_cons, ownFields]
    cases h.get? owner with
    | none => rfl
    | some decl => rfl

/-- The induction is on the walk from the type: what is found at its first stop hides what lies above. -/
theorem inherits_iff_of_climbs {stops : List String} (hclimbs : Climbs h.parent? typeId stops) :
    (field, initial) ∈ firstPerKey (·.1) (stops.flatMap h.ownFields) ↔ h.Inherits typeId field initial := by
  induction hclimbs with
  | @top typeId hparent =>
    rw [List.flatMap_singleton, inherits_own_iff]
    constructor
    · rintro ⟨decl, before, after, hdecl, hfields, hfirst⟩
      exact .own hdecl hfields hfirst
    · intro hinherits
      cases hinherits with
      | own hdecl hfields hfirst => exact ⟨_, _, _, hdecl, hfields, hfirst⟩
      | above _ hparent' _ => cases hparent.symm.trans hparent'
  | @up typeId parent stops hparent _ ih =>
    rw [List.flatMap_cons, mem_firstPerKey_append, inherits_own_iff, ih]
    have hhidden : (∀ e ∈ h.ownFields typeId, e.1 ≠ field) ↔ ¬h.DeclaresField typeId field := by
      rw [declaresField_iff]
      exact ⟨fun hnone ⟨e, he, hkey⟩ => hnone e he hkey, fun hnone e he hkey => hnone ⟨e, he, hkey⟩⟩
    rw [hhidden]
    constructor
    · rintro (⟨decl, before, after, hdecl, hfields, hfirst⟩ | ⟨hnone, hinherits⟩)
      · exact .own hdecl hfields hfirst
      · exact .above hnone hparent hinherits
    · intro hinherits
      cases hinherits with
      | own hdecl hfields hfirst => exact .inl ⟨_, _, _, hdecl, hfields, hfirst⟩
      | above hnone hparent' hinherits =>
        obtain rfl : parent = _ := Option.some.inj (hparent.symm.trans hparent')
        exact .inr ⟨hnone, hinherits⟩

theorem exists_instanceFields (hdecl : h.get? typeId = some decl) : ∃ fields, h.instanceFields typeId = .ok fields := by
  unfold instanceFields require
  rw [hdecl]
  exact ⟨_, rfl⟩

theorem eq_of_instanceFields (hfields : h.instanceFields typeId = .ok fields) :
    fields = firstPerKey (·.1) ((h.ancestors typeId).flatMap h.ownFields) := by
  unfold instanceFields at hfields
  split at hfields
  · cases hfields
  · rw [← flatMap_lineage]
    exact (Except.ok.inj hfields).symm

/-- The objects of a type have the fields that it inherits. -/
theorem mem_instanceFields_iff (hfields : h.instanceFields typeId = .ok fields) :
    (field, initial) ∈ fields ↔ h.Inherits typeId field initial := by
  rw [eq_of_instanceFields hfields, inherits_iff_of_climbs (h.climbs_ancestors typeId)]

theorem get?_instanceFields (hfields : h.instanceFields typeId = .ok fields) :
    (Table.ofList fields).get? field = some initial ↔ h.Inherits typeId field initial := by
  have hnodup : (fields.map (·.1)).Nodup := by
    rw [eq_of_instanceFields hfields]
    exact nodup_keys_firstPerKey _
  rw [Table.get?_ofList_of_nodup hnodup, mem_instanceFields_iff hfields]

/-- A field has a first value exactly if the type or an ancestor declares it. -/
theorem exists_inherits_iff :
    (∃ initial, h.Inherits typeId field initial) ↔ ∃ owner ∈ h.ancestors typeId, h.DeclaresField owner field := by
  simp only [← inherits_iff_of_climbs (h.climbs_ancestors typeId), declaresField_iff]
  constructor
  · rintro ⟨initial, hmem⟩
    obtain ⟨owner, howner, hown⟩ := List.mem_flatMap.1 (mem_of_mem_firstPerKey hmem)
    exact ⟨owner, howner, (field, initial), hown, rfl⟩
  · rintro ⟨owner, howner, e, he, rfl⟩
    have hmem : e ∈ (h.ancestors typeId).flatMap h.ownFields := List.mem_flatMap.2 ⟨owner, howner, he⟩
    have hkept : ∃ b ∈ firstPerKey (·.1) ((h.ancestors typeId).flatMap h.ownFields), b.1 = e.1 :=
      exists_mem_firstPerKey hmem
    obtain ⟨b, hb, hkey⟩ := hkept
    exact ⟨b.2, hkey ▸ hb⟩

end Hierarchy

end Interpose
