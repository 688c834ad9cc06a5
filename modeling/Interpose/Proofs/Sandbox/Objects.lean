import Interpose.Proofs.Hierarchy.Fields
import Interpose.Proofs.Sandbox.Configured
import Interpose.Proofs.Sandbox.Validity

/-!
# What objects look like

An object keeps the type that it was made with and the fields that this type declares or inherits. Each field is a store
of its own: it has the value written to it last, and before the first write the declared one. An operation that fails
changes nothing.
-/

namespace Interpose

/-- The value that an operation is to write to a field of an object. -/
def Op.fieldWrite? (handle : ObjectHandle) (field : String) : Op → Option Value
  | .setField handle' field' value => if handle' = handle ∧ field' = field then some value else none
  | _ => none

/-! ## Single operations -/

namespace Heap

variable {heap : Heap} {handle other : ObjectHandle} {object changed : Instance}

/-- A new object is behind its own handle and no other. -/
theorem find_add (heap : Heap) (object : Instance) (other : ObjectHandle) :
    (heap.add object).2.find other = if other = (heap.add object).1 then .ok object else heap.find other := by
  obtain ⟨id, generation⟩ := other
  simp only [find, add, ObjectHandle.mk.injEq, Table.get?_put]
  by_cases hg : generation = heap.generation
  · by_cases hid : id = heap.lastId + 1
    · simp only [hg, hid, ne_eq, not_true, if_false, if_true, and_self]
    · simp only [hg, hid, ne_eq, not_true, if_false, false_and]
  · simp only [hg, ne_eq, not_false_eq_true, if_true, and_false, if_false]

/-- An object that is changed stays behind its handle. -/
theorem find_put (hfind : heap.find handle = .ok object) (changed : Instance) (other : ObjectHandle) :
    find { heap with objects := heap.objects.put handle.id changed } other =
      if other = handle then .ok changed else heap.find other := by
  obtain ⟨id, generation⟩ := other
  obtain ⟨hgeneration, _⟩ := Memory.find_eq_ok hfind
  obtain ⟨id', generation'⟩ := handle
  obtain rfl : generation' = heap.generation := hgeneration
  simp only [find, ObjectHandle.mk.injEq, Table.get?_put]
  by_cases hg : generation = heap.generation
  · by_cases hid : id = id'
    · simp only [hg, hid, ne_eq, not_true, if_false, if_true, and_self]
    · simp only [hg, hid, ne_eq, not_true, if_false, false_and]
  · simp only [hg, ne_eq, not_false_eq_true, if_true, and_false, if_false]

theorem Numbered.not_found (hn : heap.Numbered) (hfind : heap.find handle = .ok object) (new : Instance) :
    handle ≠ (heap.add new).1 := by
  rintro rfl
  have hmem := hn.mem_keys.1 (List.mem_map_of_mem (Table.get?_eq_some_iff.1 (Memory.find_eq_ok hfind).2))
  exact absurd hmem.2 (Nat.not_succ_le_self _)

end Heap

namespace Memory

variable {m m' : Memory} {h : Hierarchy} {handle : ObjectHandle} {typeId field : String} {object : Instance}
  {moments : List Moment}

/-- What a new object is. -/
theorem create_eq_ok_iff {made : ObjectHandle × Memory} : m.create h typeId = .ok made ↔
    h.Instantiable typeId ∧ ∃ fields, h.instanceFields typeId = .ok fields ∧
      made = ((m.heap.add ⟨typeId, Table.ofList fields⟩).1,
        { m with heap := (m.heap.add ⟨typeId, Table.ofList fields⟩).2 }) := by
  unfold create Hierarchy.require Hierarchy.Instantiable
  cases hdecl : h.get? typeId with
  | none => simp
  | some decl =>
    obtain ⟨fields, hfields⟩ := Hierarchy.exists_instanceFields hdecl
    cases hnone : decl.hasNoInstances with
    | true => simp [hnone]
    | false =>
      simp only [hnone, hfields, Bool.false_eq_true, if_false, Except.map]
      constructor
      · intro hmade
        exact ⟨⟨decl, rfl, hnone⟩, fields, rfl, (Except.ok.inj hmade).symm⟩
      · rintro ⟨_, fields', hfields', rfl⟩
        cases hfields'
        rfl

theorem create_of_not_instantiable (hnone : ¬h.Instantiable typeId) :
    m.create h typeId = .error (if h.contains typeId then
      .invocation typeId "<init>" "abstract types can not be instantiated" else .typeNotFound typeId) := by
  unfold create Hierarchy.require Hierarchy.contains KeyMap.contains
  unfold Hierarchy.Instantiable Hierarchy.get? at hnone
  unfold Hierarchy.get?
  cases hdecl : h.decls.get? typeId with
  | none => rfl
  | some decl =>
    cases habstract : decl.hasNoInstances with
    | true => simp [habstract]
    | false => exact absurd ⟨decl, hdecl, habstract⟩ hnone

/-- An object that can be made is made, with the fields that its type inherits. -/
theorem exists_create (m : Memory) (hnew : h.Instantiable typeId) : ∃ fields,
    h.instanceFields typeId = .ok fields ∧
      m.create h typeId = .ok ((m.heap.add ⟨typeId, Table.ofList fields⟩).1,
        { m with heap := (m.heap.add ⟨typeId, Table.ofList fields⟩).2 }) := by
  obtain ⟨decl, hdecl, _⟩ := id hnew
  obtain ⟨fields, hfields⟩ := Hierarchy.exists_instanceFields hdecl
  exact ⟨fields, hfields, create_eq_ok_iff.2 ⟨hnew, fields, hfields, rfl⟩⟩

/-- A write fails as a read does. -/
theorem setField_of_getField_error {e : Error} (hread : m.getField handle field = .error e) (value : Value) :
    m.setField handle field value = .error e := by
  unfold getField at hread
  unfold setField
  cases hfind : m.heap.find handle with
  | error e' =>
    rw [hfind] at hread
    rw [Except.error.inj hread]
  | ok object =>
    rw [hfind] at hread
    cases hold : object.fields.get? field with
    | none => simpa [Table.contains, hold] using hread
    | some old => simp [hold] at hread

theorem exists_setField {old : Value} (hread : m.getField handle field = .ok old) (value : Value) :
    ∃ object, m.heap.find handle = .ok object ∧ object.fields.get? field = some old ∧
      m.setField handle field value = .ok { m with
        heap := { m.heap with
          objects := m.heap.objects.put handle.id { object with fields := object.fields.put field value } } } := by
  unfold getField at hread
  unfold setField
  cases hfind : m.heap.find handle with
  | error e =>
    rw [hfind] at hread
    cases hread
  | ok object =>
    rw [hfind] at hread
    cases hold : object.fields.get? field with
    | none => simp [hold] at hread
    | some old' =>
      obtain rfl : old' = old := by simpa [hold] using hread
      exact ⟨object, rfl, hold, by simp [Table.contains, hold]⟩

/-- A write is seen where it was made and nowhere else. -/
theorem getField_setField {value : Value} (hs : m.setField handle field value = .ok m') (other : ObjectHandle)
    (name : String) :
    m'.getField other name = if other = handle ∧ name = field then .ok value else m.getField other name := by
  cases hread : m.getField handle field with
  | error e => cases (setField_of_getField_error hread value).symm.trans hs
  | ok old =>
    obtain ⟨object, hfind, _, hset⟩ := exists_setField hread value
    obtain rfl := Except.ok.inj (hset.symm.trans hs)
    unfold getField
    rw [Heap.find_put hfind]
    by_cases hother : other = handle
    · subst hother
      by_cases hname : name = field <;> simp [hfind, hname]
    · simp [hother]

/-- What an operation does to an object that is there: at most it writes one of its fields. -/
theorem find_does (hn : m.heap.Numbered) (hfind : m.heap.find handle = .ok object) (op : Op) :
    ∃ fields, (m.does h op).heap.find handle = .ok ⟨object.typeId, fields⟩ ∧
      ∀ field, fields.get? field =
        (object.fields.get? field).map fun old => (op.fieldWrite? handle field).getD old := by
  have hkept : ∀ heap : Heap, heap.find handle = .ok object → (∀ field, op.fieldWrite? handle field = none) →
      ∃ fields, heap.find handle = .ok ⟨object.typeId, fields⟩ ∧
        ∀ field, fields.get? field =
          (object.fields.get? field).map fun old => (op.fieldWrite? handle field).getD old := by
    intro heap hfind' hnone
    refine ⟨object.fields, hfind', fun field => ?_⟩
    rw [hnone]
    simp
  cases op with
  | create typeId =>
    refine hkept _ ?_ fun _ => rfl
    cases hc : m.create h typeId with
    | error e => simpa only [does, hc] using hfind
    | ok made =>
      obtain ⟨_, new, hm'⟩ := create_eq_ok hc
      simp only [does, hc, hm']
      rw [Heap.find_add, if_neg (hn.not_found hfind new)]
      exact hfind
  | setField handle' field' value =>
    cases hread : m.getField handle' field' with
    | error e =>
      simp only [does, setField_of_getField_error hread value]
      refine ⟨object.fields, hfind, fun field => ?_⟩
      by_cases hsame : handle' = handle ∧ field' = field
      · obtain ⟨rfl, rfl⟩ := hsame
        -- There is no such field, as the read says.
        have hnone : object.fields.get? field' = none := by
          unfold getField at hread
          rw [hfind] at hread
          cases hold : object.fields.get? field' with
          | none => rfl
          | some old => simp [hold] at hread
        rw [hnone]
        rfl
      · rw [Op.fieldWrite?, if_neg hsame]
        simp
    | ok old =>
      obtain ⟨object', hfind', hold, hset⟩ := exists_setField hread value
      by_cases hhandle : handle = handle'
      · subst hhandle
        obtain rfl : object' = object := Except.ok.inj (hfind'.symm.trans hfind)
        simp only [does, hset]
        refine ⟨object'.fields.put field' value, ?_, fun field => ?_⟩
        · rw [Heap.find_put hfind, if_pos rfl]
        · rw [Table.get?_put, Op.fieldWrite?]
          by_cases hfield : field = field'
          · subst hfield
            simp [hold]
          · simp [hfield, Ne.symm hfield]
      · simp only [does, hset]
        refine hkept _ ?_ fun field => ?_
        · rw [Heap.find_put hfind', if_neg hhandle]
          exact hfind
        · rw [Op.fieldWrite?, if_neg fun hsame => hhandle hsame.1.symm]
  | setStatic typeId field value =>
    refine hkept _ ?_ fun _ => rfl
    simp only [does, setStatic]
    split <;> exact hfind
  | _ => exact hkept _ hfind fun _ => rfl

end Memory

/-! ## Objects over time -/

/-- A list of moments around one that gives out a handle. -/
theorem Moment.exists_split {moments : List Moment} {i : Nat} {made : ObjectHandle × String}
    (h : moments[i]?.bind made? = some made) :
    ∃ x, moments = moments.take i ++ x :: moments.drop (i + 1) ∧ x.made? = some made := by
  obtain ⟨x, hx, hmade⟩ := Option.bind_eq_some_iff.1 h
  obtain ⟨hi, rfl⟩ := List.getElem?_eq_some_iff.1 hx
  refine ⟨moments[i], ?_, hmade⟩
  rw [List.getElem_cons_drop, List.take_append_drop]

/-- An object of a type as it is after these operations since it was made: each field that the type declares or inherits
has the value that was written to it last, or else its first one, and there are no other fields. -/
structure Instance.Looks (h : Hierarchy) (handle : ObjectHandle) (typeId : String) (later : List Moment)
    (object : Instance) : Prop where
  type_eq : object.typeId = typeId
  fields : ∀ field value, object.fields.get? field = some value ↔
    ∃ initial, h.Inherits typeId field initial ∧
      value = (Memory.lastWritten (Op.fieldWrite? handle field) later).getD initial

namespace Memory

variable {m m' : Memory} {h : Hierarchy} {handle : ObjectHandle} {typeId field : String} {object : Instance}
  {moments before after : List Moment} {x : Moment}

theorem made?_eq_some (hx : x.machine.hierarchy = h) (hmade : x.made? = some (handle, typeId)) :
    h.Instantiable typeId ∧ ∃ object, (x.machine.memory.does h x.op).heap.find handle = .ok object ∧
      object.Looks h handle typeId [] := by
  obtain ⟨op, machine⟩ := x
  obtain rfl : machine.hierarchy = h := hx
  cases op with
  | create typeId' =>
    cases hc : machine.memory.create machine.hierarchy typeId' with
    | error e =>
      simp only [Moment.made?, hc] at hmade
      cases hmade
    | ok made =>
      simp only [Moment.made?, hc] at hmade
      obtain ⟨rfl, rfl⟩ := Prod.mk.inj (Option.some.inj hmade)
      obtain ⟨hnew, fields, hfields, hmade'⟩ := create_eq_ok_iff.1 hc
      refine ⟨hnew, ⟨typeId', Table.ofList fields⟩, ?_, rfl, fun field value => ?_⟩
      · simp only [does, hc]
        rw [hmade', Heap.find_add, if_pos rfl]
      · rw [Hierarchy.get?_instanceFields hfields]
        simp [lastWritten_nil]
  | _ => cases hmade

theorem looks_concat (hlooks : object.Looks h handle typeId after) {fields : Table String Value}
    (hfields : ∀ field, fields.get? field =
      (object.fields.get? field).map fun old => (x.op.fieldWrite? handle field).getD old) :
    Instance.Looks h handle typeId (after ++ [x]) ⟨object.typeId, fields⟩ := by
  refine ⟨hlooks.type_eq, fun field value => ?_⟩
  rw [hfields, Option.map_eq_some_iff]
  simp only [hlooks.fields, lastWritten_concat]
  constructor
  · rintro ⟨_, ⟨initial, hinherits, rfl⟩, rfl⟩
    exact ⟨initial, hinherits, by rw [Option.getD_or]⟩
  · rintro ⟨initial, hinherits, rfl⟩
    exact ⟨_, ⟨initial, hinherits, rfl⟩, by rw [Option.getD_or]⟩

/-- The heap knows the objects that were made. -/
theorem Configured.knows (hm : m.Configured h moments) : m.Knows (moments.filterMap Moment.made?) := by
  induction moments using List.reverseRecOn generalizing m with
  | nil =>
    rw [hm.eq_declared]
    exact knows_of_empty rfl rfl
  | append_singleton past x ih =>
    obtain ⟨hpast, hx, rfl⟩ := hm.concat
    have hknows := (ih hpast).does
    rw [hx] at hknows
    have hmade : x.made?.toList = [x].filterMap Moment.made? := by cases hmade : x.made? <;> simp [hmade]
    rwa [List.filterMap_append, ← hmade]

/-- An object that was made looks as its type says, changed by what was written to it. -/
theorem Configured.looks (hm : m.Configured h moments) (hsplit : moments = before ++ x :: after)
    (hmade : x.made? = some (handle, typeId)) :
    ∃ object, m.heap.find handle = .ok object ∧ object.Looks h handle typeId after := by
  induction moments using List.reverseRecOn generalizing m after with
  | nil => exact absurd hsplit.symm (List.append_ne_nil_of_right_ne_nil _ (List.cons_ne_nil _ _))
  | append_singleton past last ih =>
    obtain ⟨hpast, hlast, rfl⟩ := hm.concat
    cases after using List.reverseRecOn with
    | nil =>
      obtain ⟨_, hx⟩ := List.append_inj' hsplit rfl
      obtain rfl : last = x := List.singleton_injective hx
      exact (made?_eq_some hlast hmade).2
    | append_singleton after' last' =>
      rw [← List.cons_append, ← List.append_assoc] at hsplit
      obtain ⟨hpast', hx⟩ := List.append_inj' hsplit rfl
      obtain rfl : last = last' := List.singleton_injective hx
      obtain ⟨object, hfind, hlooks⟩ := ih hpast hpast'
      obtain ⟨fields, hfind', hfields⟩ := find_does (h := h) hpast.knows.numbered hfind last.op
      exact ⟨_, hfind', looks_concat hlooks hfields⟩

theorem getField_of_looks (hfind : m.heap.find handle = .ok object) (hlooks : object.Looks h handle typeId after)
    {initial : Value} (hinherits : h.Inherits typeId field initial) :
    m.getField handle field = .ok ((lastWritten (Op.fieldWrite? handle field) after).getD initial) := by
  have hvalue := (hlooks.fields field _).2 ⟨initial, hinherits, rfl⟩
  unfold getField
  rw [hfind]
  simp only [hvalue]

theorem Configured.typeOf (hm : m.Configured h moments) :
    m.typeOf handle = .ok typeId ↔ ∃ x ∈ moments, x.made? = some (handle, typeId) := by
  rw [hm.knows.typeOf, List.mem_filterMap]

theorem Configured.shape (hm : m.Configured h moments) (hfind : m.heap.find handle = .ok object) :
    h.Instantiable object.typeId ∧
      ∀ field, field ∈ object.fields.keys ↔ ∃ owner ∈ h.ancestors object.typeId, h.DeclaresField owner field := by
  have htype : m.typeOf handle = .ok object.typeId := by
    rw [Memory.typeOf, hfind]
    rfl
  obtain ⟨x, hx, hmade⟩ := hm.typeOf.1 htype
  obtain ⟨before, after, hsplit⟩ := List.append_of_mem hx
  obtain ⟨object', hfind', hlooks⟩ := hm.looks hsplit hmade
  obtain rfl : object' = object := Except.ok.inj (hfind'.symm.trans hfind)
  refine ⟨(made?_eq_some (hm.hierarchy x hx) hmade).1, fun field => ?_⟩
  rw [Table.mem_keys_iff, ← Hierarchy.exists_inherits_iff]
  constructor
  · rintro ⟨value, hvalue⟩
    obtain ⟨initial, hinherits, _⟩ := (hlooks.fields field value).1 hvalue
    exact ⟨initial, hinherits⟩
  · rintro ⟨initial, hinherits⟩
    exact ⟨_, (hlooks.fields field _).2 ⟨initial, hinherits, rfl⟩⟩

/-- The objects of a memory, given what was done since it was last loaded or reset. -/
structure KeepsObjects (h : Hierarchy) (moments : List Moment) (m : Memory) : Prop where
  /-- A handle has the type that it was given out for, and other handles have none. -/
  typeOf : ∀ handle typeId, m.typeOf handle = .ok typeId ↔ ∃ x ∈ moments, x.made? = some (handle, typeId)
  /-- The type of an object is one that objects can have, and its fields are those that this type or an ancestor
  declares. -/
  shape : ∀ id object, m.heap.objects.get? id = some object → h.Instantiable object.typeId ∧
    ∀ field, field ∈ object.fields.keys ↔ ∃ owner ∈ h.ancestors object.typeId, h.DeclaresField owner field
  /-- A field has the value that was written to it last since its object was made, or else the one that the nearest
  declaration gives it. -/
  getField : ∀ before x after handle typeId field initial, moments = before ++ x :: after →
    x.made? = some (handle, typeId) → h.Inherits typeId field initial →
      m.getField handle field = .ok ((lastWritten (Op.fieldWrite? handle field) after).getD initial)

theorem Configured.keepsObjects (hm : m.Configured h moments) : m.KeepsObjects h moments where
  typeOf _ _ := hm.typeOf
  shape id object hobject := by
    have hfind : m.heap.find ⟨id, m.heap.generation⟩ = .ok object := by
      rw [Heap.find, if_neg (not_not.2 rfl), hobject]
    exact hm.shape hfind
  getField before x after handle typeId field initial hsplit hmade hinherits := by
    obtain ⟨object, hfind, hlooks⟩ := hm.looks hsplit hmade
    exact getField_of_looks hfind hlooks hinherits

end Memory

/-! ## Making and writing -/

namespace Machine

variable {m : Machine} {moments : List Moment}

/-- What making objects and writing their fields does at this moment. -/
structure ChangesObjects (m : Machine) : Prop where
  /-- An object is made if its type can have objects. Its handle was no good before, and nothing else changes. -/
  create : ∀ run typeId, m.hierarchy.Instantiable typeId → ∃ handle heap,
    perform run (.create typeId) m = (.done (.ok handle), { m with memory := { m.memory with heap := heap } }) ∧
      (∀ otherType, m.memory.typeOf handle ≠ .ok otherType) ∧
      (∃ object, heap.find handle = .ok object ∧ object.typeId = typeId) ∧
      ∀ other, other ≠ handle → heap.find other = m.memory.heap.find other
  /-- Otherwise nothing changes. -/
  create_fails : ∀ run typeId, ¬m.hierarchy.Instantiable typeId →
    perform run (.create typeId) m = (.done (.error (if m.hierarchy.contains typeId then
      .invocation typeId "<init>" "abstract types can not be instantiated" else .typeNotFound typeId)), m)
  /-- A field that an object has is written. No other field is read differently, and no object changes its type. -/
  write : ∀ run handle typeId owner field value, m.memory.typeOf handle = .ok typeId →
    owner ∈ m.hierarchy.ancestors typeId → m.hierarchy.DeclaresField owner field → ∃ heap,
      perform run (.setField handle field value) m =
          (.done (.ok ()), { m with memory := { m.memory with heap := heap } }) ∧
        (∀ other, Memory.typeOf { m.memory with heap := heap } other = m.memory.typeOf other) ∧
        ∀ other name, Memory.getField { m.memory with heap := heap } other name =
          if other = handle ∧ name = field then .ok value else m.memory.getField other name
  /-- If the object has no such field nothing changes. -/
  write_undeclared : ∀ run handle typeId field value, m.memory.typeOf handle = .ok typeId →
    (∀ owner ∈ m.hierarchy.ancestors typeId, ¬m.hierarchy.DeclaresField owner field) →
      perform run (.setField handle field value) m = (.done (.error (.fieldNotFound typeId field)), m)
  /-- If the handle is no good nothing changes. -/
  write_no_object : ∀ run handle field value e, m.memory.typeOf handle = .error e →
    perform run (.setField handle field value) m = (.done (.error e), m)

/-- A write that the memory refuses changes nothing. -/
theorem perform_setField_of_error {run : BodyRunner} {handle : ObjectHandle} {field : String} {value : Value}
    {e : Error} (hset : m.memory.setField handle field value = .error e) :
    perform run (.setField handle field value) m = (.done (.error e), m) := by
  simp only [perform, hset, withMemory]
  rfl

theorem changesObjects (hm : m.memory.Configured m.hierarchy moments) : m.ChangesObjects where
  create run typeId hnew := by
    obtain ⟨fields, _, hcreate⟩ := Memory.exists_create m.memory hnew
    refine ⟨(m.memory.heap.add ⟨typeId, Table.ofList fields⟩).1, (m.memory.heap.add ⟨typeId, Table.ofList fields⟩).2,
      ?_, fun otherType htype => ?_, ⟨⟨typeId, Table.ofList fields⟩, ?_, rfl⟩, fun other hother => ?_⟩
    · simp only [perform, hcreate, withMemory]
      rfl
    · obtain ⟨object, hfind, _⟩ := Memory.find_of_typeOf htype
      exact hm.knows.numbered.not_found hfind _ rfl
    · rw [Heap.find_add, if_pos rfl]
    · rw [Heap.find_add, if_neg hother]
  create_fails run typeId hnone := by
    simp only [perform, Memory.create_of_not_instantiable hnone, withMemory]
    rfl
  write run handle typeId owner field value htype howner hdeclares := by
    obtain ⟨object, hfind, rfl⟩ := Memory.find_of_typeOf htype
    obtain ⟨old, hold⟩ := Table.mem_keys_iff.1 (((hm.shape hfind).2 field).2 ⟨owner, howner, hdeclares⟩)
    have hread : m.memory.getField handle field = .ok old := by
      rw [Memory.getField, hfind]
      simp only [hold]
    obtain ⟨object', _, _, hset⟩ := Memory.exists_setField hread value
    refine ⟨_, ?_, Memory.typeOf_setField hset, Memory.getField_setField hset⟩
    simp only [perform, hset, withMemory]
    rfl
  write_undeclared run handle typeId field value htype hnone := by
    obtain ⟨object, hfind, rfl⟩ := Memory.find_of_typeOf htype
    have hmissing : object.fields.get? field = none := by
      rw [Table.get?_eq_none_iff, (hm.shape hfind).2 field]
      rintro ⟨owner, howner, hdeclares⟩
      exact hnone owner howner hdeclares
    have hread : m.memory.getField handle field = .error (.fieldNotFound object.typeId field) := by
      rw [Memory.getField, hfind]
      simp only [hmissing]
    exact perform_setField_of_error (Memory.setField_of_getField_error hread value)
  write_no_object run handle field value e htype := by
    have hread : m.memory.getField handle field = .error e := by
      cases hfind : m.memory.heap.find handle with
      | error e' =>
        rw [Memory.typeOf, hfind] at htype
        rw [Memory.getField, hfind, Except.error.inj htype]
      | ok object =>
        rw [Memory.typeOf, hfind] at htype
        cases htype
    exact perform_setField_of_error (Memory.setField_of_getField_error hread value)

end Machine

/-! ## The main result -/

namespace Sandbox

/-- Take a new sandbox, with leak detection on or off and any leak checks, and any life of it, in which tasks, bodies
and resetters do what they like and may fail or panic. At every moment of the life, which is before any operation that
running code performs, and between the operations of the life, the objects are those that were made since the last
reset, each of the type that it was made with, which is declared and not abstract, with the fields that this type and
its ancestors declare and no others. Each field has the value that was written last to this field of this object since
it was made, or else what the nearest declaration says. At every moment making an object changes no other object,
writing a field changes no other field, and what fails changes nothing. A sandbox that is not configured yet or was
destroyed has no objects. -/
theorem objects_keep_shape (id : Nat) (key : SandboxKey) (h : Hierarchy) (detectLeaks : Bool) (checks : List LeakCheck)
    (steps : List Step) :
    let start : Sandbox := { new id key h with detectLeaks := detectLeaks, checks := checks }
    let s := start.after steps
    (∀ past x rest, history start steps = past ++ .moment x :: rest →
      x.machine.hierarchy = h ∧ x.machine.memory.KeepsObjects h (residueOf past) ∧ x.machine.ChangesObjects) ∧
    (s.stage ≠ .uninitialized → s.stage ≠ .destroyed → s.memory.KeepsObjects h (residueOf (history start steps))) ∧
    (s.stage = .uninitialized ∨ s.stage = .destroyed → s.memory.heap.objects = Table.empty) := by
  intro start s
  refine ⟨fun past x rest hx => ?_, fun hold hlives => ?_, no_objects_after⟩
  · obtain ⟨hx', hm⟩ := configured_at_moment hx
    exact ⟨hx', hm.keepsObjects, Machine.changesObjects (hx'.symm ▸ hm)⟩
  · exact (configured_after hold hlives).2.keepsObjects

end Sandbox

/-! ## Two points -/

namespace Sample

def point : TypeDecl :=
  { view with statics := [], fields := [("x", .i32 1), ("x", .i32 9), ("y", .i32 2)], methods := [] }

/-- A point declares `x` twice, and a moving point declares `y` once more. -/
def points : Hierarchy :=
  ⟨KeyMap.ofList [("Moving", { point with parent := some "Point", fields := [("y", .i32 20)] }), ("Point", point)],
    by decide⟩

/-- Makes two moving points, and writes and reads `y` of the first one. -/
def movePoint : Program (Except Error Value) :=
  .perform (.create "Moving") fun _ => .perform (.create "Moving") fun _ =>
    .perform (.setField ⟨1, 0⟩ "y" (.i32 5)) fun _ => .ask (.getField ⟨1, 0⟩ "y")

theorem points_inherits_y : points.Inherits "Moving" "y" (.i32 20) :=
  .own rfl rfl (List.forall_mem_nil _)

theorem points_inherits_x : points.Inherits "Moving" "x" (.i32 1) :=
  .above (by decide) rfl (.own rfl rfl (List.forall_mem_nil _))

end Sample

namespace Sandbox

/-- When `y` of the first point is read it has the value that was written, and `y` of the second one still has that of
the nearest declaration. Of the two values for `x` the first one counts. After the task there is no point. -/
theorem objects_keep_shape_points :
    let start : Sandbox := { new 1 ⟨.none, 30⟩ Sample.points with detectLeaks := true, checks := [] }
    let life : List Step := [(.configure, .empty), (.execute Sample.code Sample.movePoint, .empty)]
    (∃ x, .moment x ∈ history start life ∧
      x.machine.memory.getField ⟨1, 0⟩ "y" = .ok (.i32 5) ∧ x.machine.memory.getField ⟨2, 0⟩ "y" = .ok (.i32 20) ∧
      x.machine.memory.getField ⟨2, 0⟩ "x" = .ok (.i32 1) ∧
      ∀ run, Machine.perform run (.setField ⟨2, 0⟩ "z" .null) x.machine =
        (.done (.error (.fieldNotFound "Moving" "z")), x.machine)) ∧
    ∀ handle typeId, (start.after life).memory.typeOf handle ≠ .ok typeId := by
  intro start life
  obtain ⟨hmoments, hbetween, _⟩ := objects_keep_shape 1 ⟨.none, 30⟩ Sample.points true [] life
  constructor
  · -- The fifth entry is the read.
    have hread : ((history start life)[4]?.bind Entry.moment?).isSome = true := by decide
    obtain ⟨x, hx⟩ := Option.isSome_iff_exists.1 hread
    obtain ⟨past, rest, hsplit, hpast⟩ := Entry.exists_split hx
    obtain ⟨hhierarchy, hkeeps, hchanges⟩ := hmoments past x rest hsplit
    have hmadeFirst : (residueOf past)[0]?.bind Moment.made? = some (⟨1, 0⟩, "Moving") := by
      rw [hpast]
      decide
    have hmadeSecond : (residueOf past)[1]?.bind Moment.made? = some (⟨2, 0⟩, "Moving") := by
      rw [hpast]
      decide
    have hwrittenFirst : Memory.lastWritten (Op.fieldWrite? ⟨1, 0⟩ "y") ((residueOf past).drop 1) = some (.i32 5) := by
      rw [hpast]
      decide
    have hwrittenSecond :
        ∀ field ∈ ["x", "y"], Memory.lastWritten (Op.fieldWrite? ⟨2, 0⟩ field) ((residueOf past).drop 2) = none := by
      rw [hpast]
      decide
    obtain ⟨first, hfirst, hfirstMade⟩ := Moment.exists_split hmadeFirst
    obtain ⟨second, hsecond, hsecondMade⟩ := Moment.exists_split hmadeSecond
    have hy := hkeeps.getField _ _ _ _ _ _ _ hfirst hfirstMade Sample.points_inherits_y
    have hy' := hkeeps.getField _ _ _ _ _ _ _ hsecond hsecondMade Sample.points_inherits_y
    have hx' := hkeeps.getField _ _ _ _ _ _ _ hsecond hsecondMade Sample.points_inherits_x
    rw [hwrittenFirst] at hy
    rw [hwrittenSecond _ (by decide)] at hy' hx'
    refine ⟨x, ?_, hy, hy', hx', fun run => ?_⟩
    · rw [hsplit]
      exact List.mem_append_cons_self
    · have htype := (hkeeps.typeOf ⟨2, 0⟩ "Moving").2 ⟨second, hsecond ▸ List.mem_append_cons_self, hsecondMade⟩
      refine hchanges.write_undeclared run _ _ _ _ htype ?_
      rw [hhierarchy]
      decide
  · intro handle typeId htype
    have hnone : residueOf (history start life) = [] := List.eq_nil_of_length_eq_zero (by decide)
    obtain ⟨x, hx, _⟩ := ((hbetween (by decide) (by decide)).typeOf handle typeId).1 htype
    rw [hnone] at hx
    cases hx

end Sandbox

end Interpose
