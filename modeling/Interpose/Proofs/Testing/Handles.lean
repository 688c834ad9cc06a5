import Interpose.Proofs.Testing.Tracking

/-!
# Handles of other executions

A handle says which generation it is of but not of which sandbox, and generations count the uses of one sandbox.
Within a sandbox no two executions share a generation, so a handle that is kept from one execution is rejected by
every other. Two sandboxes used equally often share a generation, and there a handle is accepted as soon as there
are enough objects.
-/

namespace Interpose

/-- The errors that stand for a handle that is no good. -/
def Error.isBadHandle : Error → Bool
  | staleHandle .. | invalidHandle _ => true
  | _ => false

/-- A handle finds an object exactly if it is of the generation and its number was given out. -/
theorem Heap.Numbered.find {heap : Heap} (hn : heap.Numbered) (handle : ObjectHandle) :
    (∃ object, heap.find handle = .ok object) ↔
      handle.generation = heap.generation ∧ 0 < handle.id ∧ handle.id ≤ heap.lastId := by
  constructor
  · rintro ⟨object, hfind⟩
    obtain ⟨hgeneration, hobject⟩ := Memory.find_eq_ok hfind
    exact ⟨hgeneration, hn.mem_keys.1 (List.mem_map_of_mem (Table.get?_eq_some_iff.1 hobject))⟩
  · rintro ⟨hgeneration, hid⟩
    cases hobject : heap.objects.get? handle.id with
    | some object => exact ⟨object, by simp only [Heap.find, hgeneration, ne_eq, not_true, if_false, hobject]⟩
    | none => exact absurd (hn.mem_keys.2 hid) (Table.get?_eq_none_iff.1 hobject)

theorem Memory.exists_typeOf_iff {m : Memory} {handle : ObjectHandle} :
    (∃ typeId, m.typeOf handle = .ok typeId) ↔ ∃ object, m.heap.find handle = .ok object := by
  unfold typeOf
  cases m.heap.find handle with
  | ok object => exact ⟨fun _ => ⟨object, rfl⟩, fun _ => ⟨object.typeId, rfl⟩⟩
  | error e =>
    constructor <;> rintro ⟨_, h⟩ <;> cases h

/-- A handle that finds nothing is called stale or invalid. -/
theorem Heap.find_error {heap : Heap} {handle : ObjectHandle} {e : Error} (h : heap.find handle = .error e) :
    e.isBadHandle = true := by
  unfold find at h
  split at h
  · cases h
    rfl
  · split at h
    · cases h
    · cases h
      rfl

theorem Memory.kindOf_error {m : Memory} {value : Value} {e : Error} (h : m.kindOf value = .error e) :
    e.isBadHandle = true := by
  cases value with
  | object handle =>
    cases hfind : m.heap.find handle with
    | ok object =>
      simp only [kindOf, typeOf, hfind] at h
      cases h
    | error e' =>
      simp only [kindOf, typeOf, hfind] at h
      cases h
      exact Heap.find_error hfind
  | _ => cases h

/-- Arguments are rejected for nothing but bad handles. -/
theorem Memory.kindsOf_error {m : Memory} {values : List Value} {e : Error} (h : m.kindsOf values = .error e) :
    e.isBadHandle = true := by
  induction values with
  | nil => cases h
  | cons value rest ih =>
    unfold kindsOf at h
    split at h
    · rename_i hkind
      cases h
      exact kindOf_error hkind
    · cases hrest : m.kindsOf rest with
      | ok kinds =>
        rw [hrest] at h
        cases h
      | error e' =>
        rw [hrest] at h
        cases h
        exact ih hrest

/-- A bad handle among the arguments is noticed. -/
theorem Memory.kindsOf_of_mem {m : Memory} {handle : ObjectHandle} {e : Error}
    (hfind : m.heap.find handle = .error e) {values : List Value} (hmem : .object handle ∈ values) :
    ∃ e', m.kindsOf values = .error e' := by
  induction values with
  | nil => cases hmem
  | cons value rest ih =>
    unfold kindsOf
    obtain rfl | hrest := List.mem_cons.1 hmem
    · have hkind : m.kindOf (.object handle) = .error e := by
        rw [kindOf, typeOf, hfind]
        rfl
      rw [hkind]
      exact ⟨e, rfl⟩
    · obtain ⟨e', he'⟩ := ih hrest
      rw [he']
      cases m.kindOf value with
      | ok kind => exact ⟨e', rfl⟩
      | error e'' => exact ⟨e'', rfl⟩

namespace Machine

/-- A handle is no good for anything: not to tell its type, for its fields, or in a call. -/
structure Rejects (m : Machine) (handle : ObjectHandle) : Prop where
  typeOf : ∃ e, m.memory.typeOf handle = .error e ∧ e.isBadHandle = true
  getField : ∀ field, ∃ e, m.memory.getField handle field = .error e ∧ e.isBadHandle = true
  setField : ∀ field value, ∃ e, m.memory.setField handle field value = .error e ∧ e.isBadHandle = true
  receiver : ∀ run method arguments request, ∃ e,
    call run (.instance handle) method arguments request m = (.done (.error e), m) ∧ e.isBadHandle = true
  argument : ∀ run receiver method arguments request, .object handle ∈ arguments → ∃ e,
    call run receiver method arguments request m = (.done (.error e), m) ∧ e.isBadHandle = true

theorem rejects_of_find_error {m : Machine} {handle : ObjectHandle} {e : Error}
    (hfind : m.memory.heap.find handle = .error e) : m.Rejects handle := by
  have hbad : e.isBadHandle = true := Heap.find_error hfind
  have htype : m.memory.typeOf handle = .error e := by
    rw [Memory.typeOf, hfind]
    rfl
  refine ⟨⟨e, htype, hbad⟩, fun field => ⟨e, by rw [Memory.getField, hfind], hbad⟩,
    fun field value => ⟨e, by rw [Memory.setField, hfind], hbad⟩, fun run method arguments request => ?_,
    fun run receiver method arguments request hmem => ?_⟩
  · cases hkinds : m.memory.kindsOf arguments with
    | ok kinds =>
      refine ⟨e, ?_, hbad⟩
      simp only [call, siteOf, hkinds, htype]
      rfl
    | error e' => exact ⟨e', by simp only [call, siteOf, hkinds], Memory.kindsOf_error hkinds⟩
  · obtain ⟨e', hkinds⟩ := Memory.kindsOf_of_mem hfind hmem
    exact ⟨e', by simp only [call, siteOf, hkinds], Memory.kindsOf_error hkinds⟩

/-- A handle tells its type or is rejected altogether. -/
theorem typeOf_or_rejects (m : Machine) (handle : ObjectHandle) :
    (∃ typeId, m.memory.typeOf handle = .ok typeId) ∨ m.Rejects handle := by
  cases hfind : m.memory.heap.find handle with
  | ok object => exact .inl ⟨object.typeId, by rw [Memory.typeOf, hfind]; rfl⟩
  | error e => exact .inr (rejects_of_find_error hfind)

end Machine

namespace Execution

variable {past : List Execution} {e : Execution}

/-- The task starts on the memory that the sandbox was leased with. -/
theorem start_memory (hs : Untouched past e.sandbox) : e.start.memory = e.sandbox.memory := by
  unfold start
  rw [Sandbox.install_eq hs.poisoned hs.stage]
  rfl

theorem generation_eq_uses (hs : Untouched past e.sandbox) : e.generation = uses past e.sandbox.id := by
  rw [generation, Memory.generation, hs.heap]

/-- At every moment of an execution the objects are those of its generation, numbered from one on. -/
theorem Performs.heap {op : Op} {m : Machine} (h : e.Performs op m) (hs : Untouched past e.sandbox) :
    m.memory.generation = e.generation ∧ m.memory.heap.Numbered := by
  have hevolves := h.reaches.evolves
  rw [start_memory hs] at hevolves
  refine ⟨hevolves.generation, hevolves.numbered (Heap.numbered_of_empty ?_ ?_)⟩
  · rw [hs.heap]
  · rw [hs.heap]

/-- The handles given out are of the generation of the execution. -/
theorem Allocates.handle {handle : ObjectHandle} (h : e.Allocates handle) (hs : Untouched past e.sandbox) :
    handle.generation = e.generation ∧ 0 < handle.id := by
  obtain ⟨typeId, m, memory, hm, hcreate⟩ := h
  obtain ⟨rfl, _⟩ := Memory.create_eq_ok hcreate
  exact ⟨(hm.heap hs).1, Nat.succ_pos _⟩

end Execution

namespace Harness

/-- A sandbox is not used twice in one generation. -/
theorem uses_take_lt {past : List Execution} {i k : Nat} {e : Execution} (he : past[i]? = some e) (hik : i < k) :
    uses (past.take i) e.sandbox.id < uses (past.take k) e.sandbox.id := by
  have hi : i < past.length := (List.getElem?_eq_some_iff.1 he).1
  have hprefix : uses (past.take (i + 1)) e.sandbox.id ≤ uses (past.take k) e.sandbox.id :=
    List.Sublist.countP_le (List.take_sublist_take_left hik)
  have hsnoc : past.take (i + 1) = past.take i ++ [e] := by
    rw [List.take_succ_eq_append_getElem hi, (List.getElem?_eq_some_iff.1 he).2]
  rw [hsnoc, uses_concat, if_pos rfl] at hprefix
  omega

/-- Take two executions of a harness, a handle that is given out during the earlier one, and any moment of the
later one. The generation of an execution is the number of uses of its sandbox before. The handle is accepted
exactly if the two generations are the same, which they never are within one sandbox, and there are by now as many
objects as there were when it was given out. Otherwise it is rejected by every operation. -/
theorem foreign_handle_accepted_iff {h : Harness} {past : List Execution} (hist : History h past) {i k : Nat}
    (hik : i < k) {earlier later : Execution} (hi : past[i]? = some earlier) (hk : past[k]? = some later)
    {handle : ObjectHandle} (hhandle : earlier.Allocates handle) {op : Op} {m : Machine}
    (hm : later.Performs op m) :
    earlier.generation = uses (past.take i) earlier.sandbox.id ∧
    later.generation = uses (past.take k) later.sandbox.id ∧
    (earlier.sandbox.id = later.sandbox.id → earlier.generation < later.generation) ∧
    ((∃ typeId, m.memory.typeOf handle = .ok typeId) ↔
      earlier.generation = later.generation ∧ handle.id ≤ m.memory.liveObjects) ∧
    (¬(earlier.generation = later.generation ∧ handle.id ≤ m.memory.liveObjects) → m.Rejects handle) := by
  have huntouched : Untouched (past.take i) earlier.sandbox := hist.tracks.recorded i earlier hi
  have huntouched' : Untouched (past.take k) later.sandbox := hist.tracks.recorded k later hk
  have hearlier := Execution.generation_eq_uses huntouched
  have hlater := Execution.generation_eq_uses huntouched'
  obtain ⟨hgeneration, hpositive⟩ := hhandle.handle huntouched
  obtain ⟨hcurrent, hnumbered⟩ := hm.heap huntouched'
  have haccepted : (∃ typeId, m.memory.typeOf handle = .ok typeId) ↔
      earlier.generation = later.generation ∧ handle.id ≤ m.memory.liveObjects := by
    rw [Memory.exists_typeOf_iff, hnumbered.find, hgeneration, Memory.liveObjects, hnumbered.size]
    change earlier.generation = m.memory.generation ∧ _ ↔ _
    rw [hcurrent]
    exact and_congr_right fun _ => and_iff_right hpositive
  refine ⟨hearlier, hlater, fun hid => ?_, haccepted, fun hnot => ?_⟩
  · rw [hearlier, hlater, ← hid]
    exact uses_take_lt hi hik
  · rw [← haccepted] at hnot
    exact (m.typeOf_or_rejects handle).resolve_left hnot

end Harness

end Interpose

/-! ## Two levels, two sandboxes, one generation -/

namespace Interpose.Sample

def settings : Settings := ⟨[28, 30], 28, 8, true, .none⟩

def harness : Harness := ⟨hierarchy, settings, [], .new 8, Table.empty, [], .empty⟩

def atLevel (level : Nat) : Overrides := { Overrides.none with levels := .exact [level] }

/-- Makes an object and then asks for the type of the first object of the first generation. -/
def makeAndAsk (typeId : String) : Program (Except Error Value) :=
  .perform (.create typeId) fun
    | .ok _ => .perform (.typeOf ⟨1, 0⟩) fun
      | .ok first => .done (.ok (.string first))
      | .error e => .done (.error e)
    | .error e => .done (.error e)

/-- The harness after a button was made at one level. -/
def harnessAfter : Harness := (harness.run code (atLevel 28) (makeAndAsk "Button")).2

/-- The execution in which the button is made, and one at another level in which a view is made. -/
def executions : List Execution :=
  harness.executions code (atLevel 28) (makeAndAsk "Button") ++
    harnessAfter.executions code (atLevel 30) (makeAndAsk "View")

def buttonMade : Execution := executions[0]

def viewMade : Execution := executions[1]

/-- The moment at which the view is there. -/
def viewThere : Machine := (Machine.perform (code.runBody code.depth) (.create "View") viewMade.start).2

theorem history_executions : ∃ h, Harness.History h executions := by
  have hnew : Harness.new hierarchy settings = .ok harness := rfl
  have hfirst := (Harness.History.new hnew).run code (atLevel 28) (makeAndAsk "Button")
  exact ⟨_, hfirst.run code (atLevel 30) (makeAndAsk "View")⟩

theorem buttonMade_allocates : buttonMade.Allocates ⟨1, 0⟩ := by
  have htask : buttonMade.task = makeAndAsk "Button" := rfl
  refine ⟨"Button", buttonMade.start, _, .task ?_, rfl⟩
  rw [htask]
  exact .now

theorem viewMade_performs : viewMade.Performs (.typeOf ⟨1, 0⟩) viewThere := by
  have htask : viewMade.task = makeAndAsk "View" := rfl
  have hcreate : Machine.perform (viewMade.code.runBody viewMade.code.depth) (.create "View") viewMade.start =
      (.done (.ok ⟨1, 0⟩), viewThere) := rfl
  refine .task ?_
  rw [htask]
  exact .later hcreate .now

end Interpose.Sample

namespace Interpose.Harness

/-- The handle of the button is accepted in the other sandbox, where it stands for the view. -/
theorem foreign_handle_accepted :
    ∃ h past earlier later, ∃ handle : ObjectHandle, ∃ op m typeId,
      History h past ∧ past[0]? = some earlier ∧ past[1]? = some later ∧ earlier.Allocates handle ∧
      later.Performs op m ∧ m.memory.typeOf handle = .ok typeId := by
  obtain ⟨h, hist⟩ := Sample.history_executions
  exact ⟨h, Sample.executions, Sample.buttonMade, Sample.viewMade, ⟨1, 0⟩, _, Sample.viewThere, "View", hist, rfl,
    rfl, Sample.buttonMade_allocates, Sample.viewMade_performs, by decide⟩

/-- Both sandboxes were not used before, and one object in each is enough. -/
theorem foreign_handle_accepted_iff_two_levels :
    Sample.buttonMade.sandbox.id ≠ Sample.viewMade.sandbox.id ∧
      Sample.buttonMade.generation = Sample.viewMade.generation ∧
      ∃ typeId, Sample.viewThere.memory.typeOf ⟨1, 0⟩ = .ok typeId := by
  obtain ⟨_, hist⟩ := Sample.history_executions
  have hfirst : Sample.executions[0]? = some Sample.buttonMade := rfl
  have hsecond : Sample.executions[1]? = some Sample.viewMade := rfl
  obtain ⟨hearlier, hlater, hsandbox, haccepted, _⟩ := foreign_handle_accepted_iff hist Nat.zero_lt_one hfirst
    hsecond Sample.buttonMade_allocates Sample.viewMade_performs
  have hgeneration : Sample.buttonMade.generation = Sample.viewMade.generation := by
    rw [hearlier, hlater]
    decide
  refine ⟨fun hid => ?_, hgeneration, haccepted.2 ⟨hgeneration, by decide⟩⟩
  have hlt := hsandbox hid
  omega

end Interpose.Harness
