import Interpose.Proofs.Data.Containers
import Interpose.Proofs.Sandbox.Readiness

/-!
# What a pristine memory is worth

Whatever is done to the memory of a sandbox, by the operations of its life or directly, the memory keeps what it was
loaded with: the template, the names of the static fields and the numbering of the objects. So a memory without
violations is as the hierarchy declares it. Values are compared there as the program compares them: a float that was
written may differ from the declared one in the sign of a zero.
-/

namespace Interpose

namespace Memory

variable {m m' : Memory} {h : Hierarchy} {moments : List Moment}

/-- What a memory keeps of a hierarchy that it was loaded with. -/
structure Fits (h : Hierarchy) (m : Memory) : Prop where
  template : m.template = declaredStatics h
  names : m.statics.keys = m.template.keys
  unwritten : m.writeTried = false → m.statics = m.template
  numbered : m.heap.Numbered

/-- A memory has what a hierarchy declares and nothing else. -/
structure AsDeclared (h : Hierarchy) (m : Memory) : Prop where
  statics : ∀ name value, (declaredStatics h).get? name = some value →
    ∃ now, m.statics.get? name = some now ∧ (now = value ∨ now.sameAs value = true)
  noOther : ∀ name, (declaredStatics h).get? name = none → m.statics.get? name = none
  shadowStatics : m.shadowStatics = Table.empty
  heap : m.heap = ⟨m.generation, 0, Table.empty⟩

theorem fits_load (hm : m.heap.Numbered) (h : Hierarchy) : (m.load h).Fits h := ⟨rfl, rfl, fun _ => rfl, hm⟩

theorem Fits.reset (hm : m.Fits h) : m.reset.Fits h :=
  ⟨hm.template, rfl, fun _ => rfl, Heap.numbered_of_empty rfl rfl⟩

/-- Only a try to write a static field touches the static fields, and it leaves their names. -/
theorem statics_does (m : Memory) (h : Hierarchy) (op : Op) :
    ((m.does h op).statics = m.statics ∧ (m.does h op).writeTried = m.writeTried) ∨
      ((m.does h op).writeTried = true ∧ (m.does h op).statics.keys = m.statics.keys) := by
  cases op with
  | create typeId =>
    cases hc : m.create h typeId with
    | error e => simp only [does, hc, and_self, true_or]
    | ok made =>
      obtain ⟨_, object, hm⟩ := create_eq_ok hc
      simp only [does, hc, hm, and_self, true_or]
  | setField handle field value =>
    cases hs : m.setField handle field value with
    | error e => simp only [does, hs, and_self, true_or]
    | ok changed =>
      obtain ⟨old, object, _, hm⟩ := setField_eq_ok hs
      simp only [does, hs, hm, and_self, true_or]
  | setStatic typeId field value =>
    right
    rw [does, setStatic]
    split
    · rename_i hcontains
      obtain ⟨old, hold⟩ := Option.isSome_iff_exists.1 hcontains
      have hmem : (⟨typeId, field⟩ : StaticName) ∈ m.statics.keys :=
        List.mem_map_of_mem (Table.get?_eq_some_iff.1 hold)
      exact ⟨rfl, by rw [Table.keys_put, if_pos hmem]⟩
    · exact ⟨rfl, rfl⟩
  | _ => exact .inl ⟨rfl, rfl⟩

theorem Fits.does (hm : m.Fits h) (h' : Hierarchy) (op : Op) : (m.does h' op).Fits h := by
  have hevolves := evolves_does m h' op
  have htemplate := hevolves.template
  refine ⟨htemplate.trans hm.template, ?_, ?_, hevolves.numbered hm.numbered⟩
  · rw [htemplate, ← hm.names]
    obtain ⟨hstatics, _⟩ | ⟨_, hkeys⟩ := statics_does m h' op
    · rw [hstatics]
    · exact hkeys
  · intro hunwritten
    rw [htemplate]
    obtain ⟨hstatics, hwrite⟩ | ⟨hwrite, _⟩ := statics_does m h' op
    · rw [hstatics]
      exact hm.unwritten (hwrite ▸ hunwritten)
    · rw [hwrite] at hunwritten
      cases hunwritten

theorem Fits.traced (hm : m.Fits h) (htraced : Traced m moments m') : m'.Fits h := by
  induction htraced with
  | nil => exact hm
  | cons _ ih => exact ih (hm.does _ _)

/-- What a memory without violations is found to be. -/
theorem isPristine_iff : m.isPristine = true ↔
    m.changedStatics = [] ∧ (m.writeTried = true → m.statics.size = m.template.size) ∧
      m.shadowStatics.size = 0 ∧ m.liveObjects = 0 := by
  simp only [isPristine, violations, List.isEmpty_iff, List.append_eq_nil_iff, List.map_eq_nil_iff]
  constructor
  · rintro ⟨⟨⟨hchanged, hsize⟩, hshadow⟩, hlive⟩
    refine ⟨hchanged, fun hwritten => ?_, ?_, ?_⟩
    · simpa [hwritten] using hsize
    · simpa using hshadow
    · simpa using hlive
  · rintro ⟨hchanged, hsize, hshadow, hlive⟩
    refine ⟨⟨⟨hchanged, ?_⟩, ?_⟩, ?_⟩
    · simpa using hsize
    · simpa using hshadow
    · simpa using hlive

/-- A memory that was loaded and has no violations is as declared. -/
theorem Fits.asDeclared (hm : m.Fits h) (hpristine : m.isPristine = true) : m.AsDeclared h := by
  obtain ⟨hchanged, _, hshadow, hlive⟩ := isPristine_iff.1 hpristine
  have hobjects : m.heap.objects = Table.empty := Table.eq_empty_of_size hlive
  have hlastId : m.heap.lastId = 0 := by
    rw [← hm.numbered.size]
    exact hlive
  refine ⟨fun name value hvalue => ?_, fun name hname => ?_, Table.eq_empty_of_size hshadow, ?_⟩
  · rw [← hm.template] at hvalue
    cases hw : m.writeTried with
    | false =>
      rw [hm.unwritten hw]
      exact ⟨value, hvalue, .inl rfl⟩
    | true =>
      rw [changedStatics, if_pos hw, List.map_eq_nil_iff, List.filter_eq_nil_iff] at hchanged
      have hsame := hchanged (name, value) (Table.get?_eq_some_iff.1 hvalue)
      cases hnow : m.statics.get? name with
      | none => simp [hnow] at hsame
      | some now =>
        refine ⟨now, rfl, .inr ?_⟩
        simpa [hnow] using hsame
  · rw [← hm.template, Table.get?_eq_none_iff, ← hm.names] at hname
    exact Table.get?_eq_none_iff.2 hname
  · rw [generation, ← hobjects, ← hlastId]

end Memory

/-! ## Sandboxes that are handled -/

namespace Sandbox

open Memory

variable {s s' : Sandbox}

/-- What stays true of a sandbox that was new once. -/
structure Intact (s : Sandbox) : Prop where
  numbered : s.stage = .uninitialized → s.memory.heap.Numbered
  fits : s.stage.acceptsRegistry = true → s.memory.Fits s.hierarchy

theorem intact_new (id : Nat) (key : SandboxKey) (h : Hierarchy) (detectLeaks : Bool) (checks : List LeakCheck) :
    Intact { new id key h with detectLeaks := detectLeaks, checks := checks } :=
  ⟨fun _ => Heap.numbered_of_empty rfl rfl, fun hready => by cases hready⟩

theorem Intact.step (hs : s.Intact) (x : Step) : (s.step x).Intact := by
  refine ⟨fun hnew => ?_, fun hready => ?_⟩
  · have hsame := step_of_uninitialized hnew
    rw [hsame] at hnew ⊢
    exact hs.numbered hnew
  · rw [(sameOwner_step s x).hierarchy]
    cases readied_step hready with
    | kept hbefore hmemory _ =>
      rw [hmemory]
      exact hs.fits hbefore
    | loaded hnew hmemory _ =>
      rw [hmemory]
      exact fits_load (hs.numbered hnew) s.hierarchy
    | reset hbefore htraced hmemory _ =>
      rw [hmemory]
      exact ((hs.fits hbefore).traced htraced).reset
    | cutShort _ _ hbefore htraced _ => exact (hs.fits hbefore).traced htraced

/-- Operations done directly on the memory do no harm either. -/
theorem Intact.touch (hs : s.Intact) (op : Op) : Intact { s with memory := s.memory.does s.hierarchy op } :=
  ⟨fun hnew => (evolves_does s.memory s.hierarchy op).numbered (hs.numbered hnew),
    fun hready => (hs.fits hready).does s.hierarchy op⟩

end Sandbox

end Interpose
