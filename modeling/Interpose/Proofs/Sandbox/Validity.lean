import Interpose.Proofs.Sandbox.Histories

/-!
# Which handles are good

Handles are numbered from one on again after every reset, so a number alone says nothing. The heap agrees at every
moment with the list of handles that were given out since the last reset: these are good, each for an object of the
type that it was made with, and no others are. A reset empties both.
-/

namespace Interpose

/-! ## Handles given out -/

/-- The handle that an operation gives out, with the type of the new object. -/
def Moment.made? (x : Moment) : Option (ObjectHandle × String) :=
  match x.op with
  | .create typeId =>
    match x.machine.memory.create x.machine.hierarchy typeId with
    | .ok made => some (made.1, typeId)
    | .error _ => none
  | _ => none

/-- What is given out is what a program that makes an object receives. -/
theorem Moment.made?_create_iff {run : BodyRunner} {m : Machine} {typeId : String} {handle : ObjectHandle} :
    (⟨.create typeId, m⟩ : Moment).made? = some (handle, typeId) ↔
      (Machine.perform run (.create typeId) m).1 = .done (.ok handle) := by
  cases hc : m.memory.create m.hierarchy typeId with
  | error e =>
    have hanswer : (Machine.perform run (.create typeId) m).1 = .done (.error e) := by
      simp only [Machine.perform, Machine.withMemory, hc]
      rfl
    simp only [made?, hc, hanswer]
    constructor <;> intro h <;> cases h
  | ok made =>
    have hanswer : (Machine.perform run (.create typeId) m).1 = .done (.ok made.1) := by
      simp only [Machine.perform, Machine.withMemory, hc]
      rfl
    simp only [made?, hc, hanswer]
    constructor <;> intro h <;> cases h <;> rfl

/-- The handles given out by then, of those that were given out before. -/
def Entry.issue (issued : List (ObjectHandle × String)) : Entry → List (ObjectHandle × String)
  | .loaded _ => issued
  | .moment x => issued ++ x.made?.toList
  | .reset _ => []

/-- The handles that a history gives out since its last reset. -/
def issuedBy (history : List Entry) : List (ObjectHandle × String) := history.foldl Entry.issue []

namespace Memory

variable {m m' : Memory} {h : Hierarchy} {issued : List (ObjectHandle × String)}

theorem typeOf_eq_of_heap_eq (hheap : m'.heap = m.heap) (handle : ObjectHandle) :
    m'.typeOf handle = m.typeOf handle := by
  rw [typeOf, typeOf, hheap]

theorem find_of_typeOf {handle : ObjectHandle} {typeId : String} (ht : m.typeOf handle = .ok typeId) :
    ∃ object, m.heap.find handle = .ok object ∧ object.typeId = typeId := by
  unfold typeOf at ht
  cases hfind : m.heap.find handle with
  | error e =>
    rw [hfind] at ht
    cases ht
  | ok object =>
    rw [hfind] at ht
    exact ⟨object, rfl, Except.ok.inj ht⟩

/-- A new object is behind its own handle and no other. -/
theorem typeOf_create {typeId : String} {handle : ObjectHandle} (hc : m.create h typeId = .ok (handle, m'))
    (other : ObjectHandle) : m'.typeOf other = if other = handle then .ok typeId else m.typeOf other := by
  obtain ⟨hhandle, fields, rfl⟩ : handle = ⟨m.heap.lastId + 1, m.generation⟩ ∧ ∃ fields,
      m' = { m with heap := (m.heap.add ⟨typeId, fields⟩).2 } := by
    unfold create at hc
    split at hc
    · cases hc
    · split at hc
      · cases hc
      · cases hf : h.instanceFields typeId with
        | error e =>
          rw [hf] at hc
          cases hc
        | ok fields =>
          rw [hf] at hc
          cases hc
          exact ⟨rfl, _, rfl⟩
  obtain ⟨id, generation⟩ := other
  rw [hhandle]
  simp only [typeOf, Heap.find, Heap.add, Memory.generation, ObjectHandle.mk.injEq, Table.get?_put]
  by_cases hg : generation = m.heap.generation
  · by_cases hid : id = m.heap.lastId + 1
    · simp only [hg, hid, ne_eq, not_true, if_false, if_true, and_self]
      rfl
    · simp only [hg, hid, ne_eq, not_true, if_false, false_and]
  · simp only [hg, ne_eq, not_false_eq_true, if_true, and_false, if_false]

/-- Objects keep their type. -/
theorem typeOf_setField {handle : ObjectHandle} {field : String} {value : Value}
    (hs : m.setField handle field value = .ok m') (other : ObjectHandle) :
    m'.typeOf other = m.typeOf other := by
  unfold setField at hs
  split at hs
  · cases hs
  · rename_i object hfind
    obtain ⟨hgeneration, hobject⟩ := find_eq_ok hfind
    split at hs
    · cases hs
      simp only [typeOf, Heap.find, Table.get?_put]
      by_cases hid : other.id = handle.id
      · rw [hid, hobject]
        simp only [if_true]
        split <;> rfl
      · simp only [hid, if_false]
    · cases hs

/-- The heap agrees with the handles given out. -/
structure Knows (m : Memory) (issued : List (ObjectHandle × String)) : Prop where
  numbered : m.heap.Numbered
  typeOf : ∀ handle typeId, m.typeOf handle = .ok typeId ↔ (handle, typeId) ∈ issued

theorem Knows.of_heap_eq (hk : m.Knows issued) (hheap : m'.heap = m.heap) : m'.Knows issued := by
  refine ⟨by rw [hheap]; exact hk.numbered, fun handle typeId => ?_⟩
  rw [typeOf_eq_of_heap_eq hheap]
  exact hk.typeOf handle typeId

theorem Knows.create (hk : m.Knows issued) {typeId : String} {handle : ObjectHandle}
    (hc : m.create h typeId = .ok (handle, m')) : m'.Knows (issued ++ [(handle, typeId)]) := by
  obtain ⟨hhandle, object, hm'⟩ := create_eq_ok hc
  refine ⟨by rw [hm']; exact hk.numbered.add object, fun other otherType => ?_⟩
  rw [typeOf_create hc, List.mem_append, List.mem_singleton, Prod.mk.injEq, ← hk.typeOf]
  by_cases ho : other = handle
  · -- The number of the new handle was not given out before.
    have hfresh : m.typeOf other ≠ .ok otherType := by
      intro htype
      obtain ⟨found, hfind, _⟩ := find_of_typeOf htype
      have hid := hk.numbered.mem_keys.1 (List.mem_map_of_mem (Table.get?_eq_some_iff.1 (find_eq_ok hfind).2))
      rw [ho, hhandle] at hid
      exact absurd hid.2 (Nat.not_succ_le_self _)
    rw [if_pos ho]
    constructor
    · intro h
      exact .inr ⟨ho, (Except.ok.inj h).symm⟩
    · rintro (h | ⟨_, rfl⟩)
      · exact absurd h hfresh
      · rfl
  · rw [if_neg ho]
    simp [ho]

theorem Knows.setField (hk : m.Knows issued) {handle : ObjectHandle} {field : String} {value : Value}
    (hs : m.setField handle field value = .ok m') : m'.Knows issued := by
  obtain ⟨old, object, hold, hm'⟩ := setField_eq_ok hs
  refine ⟨by rw [hm']; exact hk.numbered.put hold object, fun other typeId => ?_⟩
  rw [typeOf_setField hs]
  exact hk.typeOf other typeId

/-- Nothing is known of a heap that was just opened. -/
theorem knows_of_empty (ho : m.heap.objects = Table.empty) (hl : m.heap.lastId = 0) : m.Knows [] := by
  refine ⟨Heap.numbered_of_empty ho hl, fun handle typeId => ⟨fun htype => ?_, fun hmem => by cases hmem⟩⟩
  obtain ⟨object, hfind, _⟩ := find_of_typeOf htype
  have hobject := (find_eq_ok hfind).2
  rw [ho] at hobject
  cases hobject

/-- What an operation does keeps heap and handles in agreement. -/
theorem Knows.does {x : Moment} (hk : x.machine.memory.Knows issued) :
    (x.machine.memory.does x.machine.hierarchy x.op).Knows (issued ++ x.made?.toList) := by
  obtain ⟨op, m⟩ := x
  cases op with
  | create typeId =>
    cases hc : m.memory.create m.hierarchy typeId with
    | error e =>
      simp only [Memory.does, Moment.made?, hc]
      simpa using hk
    | ok made =>
      simp only [Memory.does, Moment.made?, hc]
      exact hk.create hc
  | setField handle field value =>
    cases hs : m.memory.setField handle field value with
    | error e =>
      simp only [Memory.does, Moment.made?, hs]
      simpa using hk
    | ok memory =>
      simp only [Memory.does, Moment.made?, hs]
      simpa using hk.setField hs
  | setStatic typeId field value =>
    have hheap : (m.memory.setStatic m.hierarchy typeId field value).2.heap = m.memory.heap := by
      unfold Memory.setStatic
      split <;> rfl
    simp only [Memory.does, Moment.made?]
    simpa using hk.of_heap_eq hheap
  | setShadowStatic shadowId key value =>
    have hheap : (m.memory.setShadowStatic shadowId key value).heap = m.memory.heap := rfl
    simp only [Memory.does, Moment.made?]
    simpa using hk.of_heap_eq hheap
  | _ =>
    simp only [Memory.does, Moment.made?]
    simpa using hk

theorem Knows.meets {e : Entry} (hk : m.Knows issued) (hfinds : ∀ x, e = .moment x → x.machine.memory = m) :
    (m.meets e).Knows (e.issue issued) := by
  cases e with
  | loaded h => exact hk.of_heap_eq rfl
  | moment x =>
    obtain rfl : x.machine.memory = m := hfinds x rfl
    exact hk.does
  | reset leaked => cases leaked <;> exact knows_of_empty rfl rfl

theorem Follows.knows {history : List Entry} (hf : Follows m history m') (hk : m.Knows issued) :
    m'.Knows (history.foldl Entry.issue issued) := by
  induction hf generalizing issued with
  | nil => exact hk
  | cons hfinds _ ih => exact ih (hk.meets hfinds)

theorem does_generation (m : Memory) (h : Hierarchy) (op : Op) : (m.does h op).generation = m.generation := by
  cases op with
  | create typeId =>
    cases hc : m.create h typeId with
    | error e => simp only [Memory.does, hc]
    | ok made =>
      obtain ⟨_, object, hm'⟩ := create_eq_ok hc
      simp only [Memory.does, hc, hm']
      rfl
  | setField handle field value =>
    cases hs : m.setField handle field value with
    | error e => simp only [Memory.does, hs]
    | ok memory =>
      obtain ⟨_, object, _, hm'⟩ := setField_eq_ok hs
      simp only [Memory.does, hs, hm']
      rfl
  | setStatic typeId field value => exact (evolves_setStatic m h typeId field value).generation
  | _ => rfl

/-- The generation counts the resets. -/
theorem Follows.generation {history : List Entry} (hf : Follows m history m') :
    m'.generation = m.generation + history.countP Entry.isReset := by
  induction hf with
  | nil => rfl
  | @cons m m' e rest _ _ ih =>
    rw [ih, List.countP_cons]
    cases e with
    | loaded h => rfl
    | moment x =>
      have hsame : (m.meets (.moment x)).generation = m.generation := does_generation ..
      rw [hsame]
      rfl
    | reset leaked =>
      have hnext : (m.meets (.reset leaked)).generation = m.generation + 1 := by cases leaked <;> rfl
      rw [hnext]
      simp only [Entry.isReset, if_true]
      omega

end Memory

/-! ## Accepting and rejecting handles -/

namespace Machine

variable {m : Machine} {handle : ObjectHandle} {typeId : String} {e : Error}
  {issued : List (ObjectHandle × String)}

/-- A handle is good for an object of this type: the type is reported, fields can be read and written or are missing
in this type, and a call on the object is a call on this type. -/
structure Accepts (m : Machine) (handle : ObjectHandle) (typeId : String) : Prop where
  typeOf : m.memory.typeOf handle = .ok typeId
  getField : ∀ field, (∃ value, m.memory.getField handle field = .ok value) ∨
    m.memory.getField handle field = .error (.fieldNotFound typeId field)
  setField : ∀ field value, (∃ memory, m.memory.setField handle field value = .ok memory) ∨
    m.memory.setField handle field value = .error (.fieldNotFound typeId field)
  receiver : ∀ method arguments kinds request, m.memory.kindsOf arguments = .ok kinds →
    m.siteOf (.instance handle) method arguments request = .ok ⟨typeId, ⟨method, kinds⟩, false, request⟩

/-- A handle is no good, for one reason whatever it is used for. A call with it changes nothing. -/
structure RejectsWith (m : Machine) (handle : ObjectHandle) (e : Error) : Prop where
  typeOf : m.memory.typeOf handle = .error e
  getField : ∀ field, m.memory.getField handle field = .error e
  setField : ∀ field value, m.memory.setField handle field value = .error e
  receiver : ∀ run method arguments kinds request, m.memory.kindsOf arguments = .ok kinds →
    call run (.instance handle) method arguments request m = (.done (.error e), m)

theorem accepts_of_typeOf (ht : m.memory.typeOf handle = .ok typeId) : m.Accepts handle typeId := by
  obtain ⟨object, hfind, rfl⟩ := Memory.find_of_typeOf ht
  refine ⟨ht, fun field => ?_, fun field value => ?_, fun method arguments kinds request hkinds => ?_⟩
  · unfold Memory.getField
    rw [hfind]
    simp only
    split
    · exact .inl ⟨_, rfl⟩
    · exact .inr rfl
  · unfold Memory.setField
    rw [hfind]
    simp only
    split
    · exact .inl ⟨_, rfl⟩
    · exact .inr rfl
  · simp only [siteOf, hkinds, ht]
    rfl

theorem rejectsWith_of_find (hfind : m.memory.heap.find handle = .error e) : m.RejectsWith handle e := by
  have htype : m.memory.typeOf handle = .error e := by
    rw [Memory.typeOf, hfind]
    rfl
  refine ⟨htype, fun field => by rw [Memory.getField, hfind], fun field value => by rw [Memory.setField, hfind],
    fun run method arguments kinds request hkinds => ?_⟩
  simp only [call, siteOf, hkinds, htype]
  rfl

/-- A machine treats handles as they were given out: those given out are accepted, with their types; a handle of
another generation is stale; and any other handle of this generation is invalid. -/
structure Honours (m : Machine) (issued : List (ObjectHandle × String)) : Prop where
  accepts : ∀ handle typeId, m.Accepts handle typeId ↔ (handle, typeId) ∈ issued
  stale : ∀ handle, handle.generation ≠ m.memory.generation →
    m.RejectsWith handle (.staleHandle handle.id handle.generation m.memory.generation)
  invalid : ∀ handle, handle.generation = m.memory.generation → (∀ typeId, (handle, typeId) ∉ issued) →
    m.RejectsWith handle (.invalidHandle handle.id)

theorem honours_of_knows (hk : m.memory.Knows issued) : m.Honours issued := by
  refine ⟨fun handle typeId => ?_, fun handle hg => ?_, fun handle hg hnot => ?_⟩
  · rw [← hk.typeOf]
    exact ⟨fun h => h.typeOf, accepts_of_typeOf⟩
  · apply rejectsWith_of_find
    exact if_pos hg
  · apply rejectsWith_of_find
    have hg' : ¬handle.generation ≠ m.memory.heap.generation := not_not.2 hg
    rw [Heap.find, if_neg hg']
    cases hobject : m.memory.heap.objects.get? handle.id with
    | none => rfl
    | some object =>
      have htype : m.memory.typeOf handle = .ok object.typeId := by
        rw [Memory.typeOf, Heap.find, if_neg hg', hobject]
        rfl
      exact absurd ((hk.typeOf handle object.typeId).1 htype) (hnot object.typeId)

end Machine

/-! ## The main result -/

namespace Sandbox

/-- Take a new sandbox, with leak detection on or off and any leak checks, and any life of it, in which tasks and
resetters do what they like and may fail or panic. At every moment of the life, which is before any operation that a
task, a body or a resetter performs, the handles that are accepted are those that were given out since the last
reset, each with the type it was given out for; a handle of another generation is rejected as stale, with the current
generation, which is the number of resets so far; and every other handle is rejected as invalid. The same holds
between operations, unless the sandbox was destroyed on purpose. -/
theorem handles_valid (id : Nat) (key : SandboxKey) (h : Hierarchy) (detectLeaks : Bool) (checks : List LeakCheck)
    (steps : List Step) :
    let start : Sandbox := { new id key h with detectLeaks := detectLeaks, checks := checks }
    (∀ past x rest, history start steps = past ++ .moment x :: rest →
      x.machine.Honours (issuedBy past) ∧ x.machine.memory.generation = past.countP Entry.isReset) ∧
    ((∀ x ∈ steps, x.1.isDestroy = false) → ∀ j,
      let m := (start.after steps).machine j
      m.Honours (issuedBy (history start steps)) ∧
        m.memory.generation = (history start steps).countP Entry.isReset) := by
  intro start
  have hnew : start.memory.Knows [] := Memory.knows_of_empty rfl rfl
  refine ⟨fun past x rest hx => ?_, fun hops j => ?_⟩
  · obtain ⟨m, hf⟩ := exists_follows_history start steps
    rw [hx] at hf
    exact ⟨Machine.honours_of_knows (hf.split.knows hnew), hf.split.generation.trans (Nat.zero_add _)⟩
  · have hf := follows_history (s := start) hops
    exact ⟨Machine.honours_of_knows (hf.knows hnew), hf.generation.trans (Nat.zero_add _)⟩

/-- A button is drawn in each of two tasks. When the second button is drawn its handle is good, the handle of the
first one is stale, and the next number is invalid. After the second task no handle is good. -/
theorem handles_valid_button :
    let start : Sandbox := { new 1 ⟨.none, 30⟩ Sample.hierarchy with detectLeaks := true, checks := [] }
    let draw : Operation := .execute Sample.code Sample.drawNew
    let life : List Step :=
      [(.configure, .empty), (draw, .empty), (.install Sample.registry, .empty), (draw, .empty)]
    (∃ x, .moment x ∈ history start life ∧ x.machine.Accepts ⟨1, 1⟩ "Button" ∧
      x.machine.RejectsWith ⟨1, 0⟩ (.staleHandle 1 0 1) ∧ x.machine.RejectsWith ⟨2, 1⟩ (.invalidHandle 2)) ∧
    ((start.after life).machine .empty).RejectsWith ⟨1, 1⟩ (.staleHandle 1 1 2) := by
  intro start draw life
  obtain ⟨hmoments, hbetween⟩ := handles_valid 1 ⟨.none, 30⟩ Sample.hierarchy true [] life
  constructor
  · -- The sixth entry is the call in the second task.
    have hcall : ((history start life)[5]?.bind Entry.moment?).isSome = true := by decide
    obtain ⟨x, hx⟩ := Option.isSome_iff_exists.1 hcall
    obtain ⟨past, rest, hsplit, hpast⟩ := Entry.exists_split hx
    obtain ⟨hhonours, hgeneration⟩ := hmoments past x rest hsplit
    have hissued : issuedBy past = [(⟨1, 1⟩, "Button")] := by
      rw [hpast]
      decide
    have hcurrent : x.machine.memory.generation = 1 := by
      rw [hgeneration, hpast]
      decide
    have hstale := hhonours.stale ⟨1, 0⟩ (by rw [hcurrent]; decide)
    rw [hcurrent] at hstale
    refine ⟨x, ?_, (hhonours.accepts _ _).2 ?_, hstale, hhonours.invalid ⟨2, 1⟩ hcurrent.symm fun typeId hmem => ?_⟩
    · rw [hsplit]
      exact List.mem_append_right _ List.mem_cons_self
    · rw [hissued]
      exact List.mem_singleton_self _
    · rw [hissued] at hmem
      cases hmem with
      | tail _ h => cases h
  · have hlife : ∀ x ∈ life, x.1.isDestroy = false := by simp [life, draw, Operation.isDestroy]
    obtain ⟨hhonours, hgeneration⟩ := hbetween hlife .empty
    have hresets : (history start life).countP Entry.isReset = 2 := by decide
    have hcurrent := hgeneration.trans hresets
    have hstale := hhonours.stale ⟨1, 1⟩ (by rw [hcurrent]; decide)
    rwa [hcurrent] at hstale

end Sandbox

end Interpose
