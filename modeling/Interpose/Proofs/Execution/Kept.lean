import Interpose.Proofs.Dispatch.Soundness
import Interpose.Proofs.Execution.Moves

/-!
# What running code keeps of the memory

Running code makes objects and writes fields, but it can neither open another generation of objects nor touch the
template. The objects of a generation are numbered from one on, without gaps, so the number of objects tells
which handles of the generation are good.
-/

namespace Interpose

namespace Heap

/-- The objects are numbered from one on in the order they were made. -/
def Numbered (heap : Heap) : Prop := heap.objects.keys = List.range' 1 heap.lastId

theorem numbered_of_empty {heap : Heap} (ho : heap.objects = Table.empty) (hl : heap.lastId = 0) :
    heap.Numbered := by
  rw [Numbered, ho, hl]
  rfl

theorem Numbered.size {heap : Heap} (h : heap.Numbered) : heap.objects.size = heap.lastId := by
  rw [← Table.length_keys, h, List.length_range']

theorem Numbered.mem_keys {heap : Heap} (h : heap.Numbered) {id : Nat} :
    id ∈ heap.objects.keys ↔ 0 < id ∧ id ≤ heap.lastId := by
  rw [h, List.mem_range'_1]
  omega

theorem Numbered.add {heap : Heap} (h : heap.Numbered) (object : Instance) :
    (heap.add object).2.Numbered := by
  have hnew : heap.lastId + 1 ∉ heap.objects.keys := by
    rw [h.mem_keys]
    omega
  unfold Numbered Heap.add
  rw [Table.keys_put, if_neg hnew, h, List.range'_concat]
  simp [Nat.add_comm]

/-- An object that is there may be changed. -/
theorem Numbered.put {heap : Heap} (h : heap.Numbered) {id : Nat} {old : Instance}
    (hold : heap.objects.get? id = some old) (object : Instance) :
    Numbered { heap with objects := heap.objects.put id object } := by
  have hmem : id ∈ heap.objects.keys := List.mem_map_of_mem (Table.get?_eq_some_iff.1 hold)
  unfold Numbered
  rw [Table.keys_put, if_pos hmem]
  exact h

end Heap

namespace Memory

/-- The same memory, in a given generation. -/
def atGeneration (m : Memory) (generation : Nat) : Memory :=
  { m with heap := { m.heap with generation := generation } }

theorem find_eq_ok {heap : Heap} {handle : ObjectHandle} {object : Instance}
    (h : heap.find handle = .ok object) :
    handle.generation = heap.generation ∧ heap.objects.get? handle.id = some object := by
  unfold Heap.find at h
  split at h
  · cases h
  · rename_i hg
    split at h
    · rename_i found ho
      cases h
      exact ⟨not_not.1 hg, ho⟩
    · cases h

/-- A new object gets the next id of the current generation. -/
theorem create_eq_ok {m m' : Memory} {h : Hierarchy} {typeId : String} {handle : ObjectHandle}
    (hc : m.create h typeId = .ok (handle, m')) :
    handle = ⟨m.heap.lastId + 1, m.generation⟩ ∧
      ∃ object, m' = { m with heap := (m.heap.add object).2 } := by
  unfold create at hc
  split at hc
  · cases hc
  · split at hc
    · cases hc
    · cases hf : h.instanceFields typeId with
      | error e =>
        rw [hf] at hc
        cases hc
      | ok fields =>
        rw [hf] at hc
        cases hc
        exact ⟨rfl, _, rfl⟩

/-- A field is written to an object of the current generation that is there. -/
theorem setField_eq_ok {m m' : Memory} {handle : ObjectHandle} {field : String} {value : Value}
    (hs : m.setField handle field value = .ok m') :
    ∃ old object, m.heap.objects.get? handle.id = some old ∧
      m' = { m with heap := { m.heap with objects := m.heap.objects.put handle.id object } } := by
  unfold setField at hs
  split at hs
  · cases hs
  · rename_i old hfind
    split at hs
    · cases hs
      exact ⟨old, _, (find_eq_ok hfind).2, rfl⟩
    · cases hs

/-- What running code may make of a memory: the template and the generation stay, and objects only come. -/
structure Evolves (m m' : Memory) : Prop where
  template : m'.template = m.template
  loadedTypes : m'.loadedTypes = m.loadedTypes
  generation : m'.generation = m.generation
  lastId : m.heap.lastId ≤ m'.heap.lastId
  numbered : m.heap.Numbered → m'.heap.Numbered

theorem Evolves.refl (m : Memory) : m.Evolves m := ⟨rfl, rfl, rfl, Nat.le_refl _, id⟩

theorem Evolves.trans {m₁ m₂ m₃ : Memory} (h : m₁.Evolves m₂) (h' : m₂.Evolves m₃) : m₁.Evolves m₃ where
  template := h'.template.trans h.template
  loadedTypes := h'.loadedTypes.trans h.loadedTypes
  generation := h'.generation.trans h.generation
  lastId := Nat.le_trans h.lastId h'.lastId
  numbered hn := h'.numbered (h.numbered hn)

theorem evolves_add (m : Memory) (object : Instance) :
    m.Evolves { m with heap := (m.heap.add object).2 } :=
  ⟨rfl, rfl, rfl, Nat.le_succ _, fun hn => hn.add object⟩

theorem evolves_put {m : Memory} {id : Nat} {old : Instance} (h : m.heap.objects.get? id = some old)
    (object : Instance) :
    m.Evolves { m with heap := { m.heap with objects := m.heap.objects.put id object } } :=
  ⟨rfl, rfl, rfl, Nat.le_refl _, fun hn => hn.put h object⟩

theorem evolves_setStatic (m : Memory) (h : Hierarchy) (typeId field : String) (value : Value) :
    m.Evolves (m.setStatic h typeId field value).2 := by
  unfold setStatic
  split <;> exact ⟨rfl, rfl, rfl, Nat.le_refl _, id⟩

theorem isPristine_of_heap_empty {m : Memory} (hw : m.writeTried = false)
    (hs : m.shadowStatics = Table.empty) (ho : m.heap.objects = Table.empty) : m.isPristine = true := by
  simp [isPristine, violations, changedStatics, liveObjects, hw, hs, ho, Table.size, Table.empty]

theorem isPristine_reset (m : Memory) : m.reset.isPristine = true :=
  isPristine_of_heap_empty rfl rfl rfl

end Memory

namespace Machine

theorem Moves.evolves {m m' : Machine} (h : Moves m m') : m.memory.Evolves m'.memory := by
  cases h with
  | create hc =>
    obtain ⟨_, object, rfl⟩ := Memory.create_eq_ok hc
    exact Memory.evolves_add _ _
  | setField hs =>
    obtain ⟨old, object, hold, rfl⟩ := Memory.setField_eq_ok hs
    exact Memory.evolves_put hold _
  | setStatic typeId field value => exact Memory.evolves_setStatic _ _ _ _ _
  | setShadowStatic shadowId key value => exact ⟨rfl, rfl, rfl, Nat.le_refl _, id⟩
  | dispatch | start | trace | record | draw => exact .refl _

theorem Reaches.evolves {m m' : Machine} (h : Reaches m m') : m.memory.Evolves m'.memory := by
  induction h with
  | refl => exact .refl _
  | tail _ hmove ih => exact ih.trans hmove.evolves

theorem Reaches.nextSandbox {m m' : Machine} (h : Reaches m m') :
    m'.journal.nextSandbox = m.journal.nextSandbox := by
  induction h with
  | refl => rfl
  | tail _ hmove ih =>
    rw [← ih]
    cases hmove <;> rfl

/-- A sound dispatcher stays sound, and only its registry changes. -/
theorem Reaches.sound {m m' : Machine} (h : Reaches m m') (hd : m.dispatcher.Sound) :
    m'.dispatcher.Sound := by
  obtain ⟨steps, hsteps⟩ := h.exists_steps
  rw [hsteps]
  exact hd.after steps

theorem Reaches.setting {m m' : Machine} (h : Reaches m m') :
    m'.dispatcher.setting = { m.dispatcher.setting with registry := m'.dispatcher.registry } := by
  obtain ⟨steps, hsteps⟩ := h.exists_steps
  rw [hsteps]
  exact Dispatcher.after_setting _ _

end Machine

end Interpose
