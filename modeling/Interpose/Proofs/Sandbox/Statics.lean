import Interpose.Proofs.Hierarchy.Fields
import Interpose.Proofs.Sandbox.Configured

/-!
# What static fields and static state of shadows hold

The static fields of a sandbox are a total store over the names that its types declare: no name is added or lost, and
each has the value written to it last since the last reset, or else the declared one. What a shadow keeps is a store
beside it, in which a name is there only once it is written. Neither store is changed by writes to the other one, and
the template, to which a reset returns, by no write at all.
-/

namespace Interpose

namespace Op

/-- The value that an operation is to write to a static field. -/
def staticWrite? (name : StaticName) : Op → Option Value
  | .setStatic typeId field value => if name = ⟨typeId, field⟩ then some value else none
  | _ => none

/-- The value that an operation writes to static state of a shadow. -/
def shadowWrite? (name : ShadowStaticName) : Op → Option Value
  | .setShadowStatic shadowId key value => if name = ⟨shadowId, key⟩ then some value else none
  | _ => none

end Op

namespace Memory

variable {m : Memory} {h : Hierarchy} {typeId field : String} {initial : Value} {moments : List Moment}

/-! ## What a hierarchy declares -/

/-- The static fields that declarations list, under the names that they have in a memory. -/
def listedStatics (entries : List (String × TypeDecl)) : List (StaticName × Value) :=
  entries.flatMap fun e => e.2.statics.map fun field => (⟨e.1, field.1⟩, field.2)

theorem get?_listedStatics_of_ne {entries : List (String × TypeDecl)} (hne : ∀ e ∈ entries, e.1 ≠ typeId) :
    (Table.ofList (listedStatics entries)).get? ⟨typeId, field⟩ = none := by
  refine Table.get?_ofList_eq_none fun e he hname => ?_
  obtain ⟨entry, hentry, hmem⟩ := List.mem_flatMap.1 he
  obtain ⟨_, _, rfl⟩ := List.mem_map.1 hmem
  exact hne entry hentry (congrArg StaticName.typeId hname)

theorem get?_declaredStatics (h : Hierarchy) (typeId field : String) :
    (declaredStatics h).get? ⟨typeId, field⟩ =
      (h.get? typeId).bind fun decl => (Table.ofList decl.statics).get? field := by
  have hlisted : declaredStatics h = Table.ofList (listedStatics h.decls.entries) := rfl
  rw [hlisted]
  cases hdecl : h.get? typeId with
  | none =>
    refine get?_listedStatics_of_ne fun e he hkey => ?_
    have hnone : h.decls.get? typeId = none := hdecl
    rw [← hkey, KeyMap.get?_eq_some_iff.2 he] at hnone
    cases hnone
  | some decl =>
    obtain ⟨before, after, hsplit, hbefore, hafter⟩ := KeyMap.exists_split_of_get? hdecl
    have hrename : Function.Injective fun field => (⟨typeId, field⟩ : StaticName) :=
      fun _ _ hname => congrArg StaticName.field hname
    have hparts : listedStatics (before ++ (typeId, decl) :: after) = listedStatics before ++
        ((decl.statics.map fun field => (⟨typeId, field.1⟩, field.2)) ++ listedStatics after) := by
      rw [listedStatics, List.flatMap_append, List.flatMap_cons, listedStatics, listedStatics]
    rw [hsplit, hparts, Table.get?_ofList_append, Table.get?_ofList_append, get?_listedStatics_of_ne hbefore,
      get?_listedStatics_of_ne hafter, Option.none_or, Option.or_none]
    exact Table.get?_ofList_map hrename decl.statics field

/-- A static field starts with what its type itself declares, and no other static field is there. -/
theorem get?_declaredStatics_eq_some_iff :
    (declaredStatics h).get? ⟨typeId, field⟩ = some initial ↔ h.DeclaresStatic typeId field initial := by
  rw [get?_declaredStatics, Option.bind_eq_some_iff]
  simp only [Table.get?_ofList_eq_some_iff]
  constructor
  · rintro ⟨decl, hdecl, before, after, hstatics, hlast⟩
    exact ⟨decl, before, after, hdecl, hstatics, hlast⟩
  · rintro ⟨decl, before, after, hdecl, hstatics, hlast⟩
    exact ⟨decl, hdecl, before, after, hstatics, hlast⟩

/-! ## What an operation does to the two stores -/

/-- Operations that write to neither store change at most the objects. -/
theorem does_eq_of_no_write {op : Op} (hstatic : ∀ name, op.staticWrite? name = none)
    (hshadow : ∀ name, op.shadowWrite? name = none) : m.does h op = { m with heap := (m.does h op).heap } := by
  cases op with
  | create typeId =>
    cases hc : m.create h typeId with
    | error e => simp only [does, hc]
    | ok made =>
      obtain ⟨_, object, hm⟩ := create_eq_ok hc
      simp only [does, hc, hm]
  | setField handle field value =>
    cases hs : m.setField handle field value with
    | error e => simp only [does, hs]
    | ok changed =>
      obtain ⟨old, object, _, hm⟩ := setField_eq_ok hs
      simp only [does, hs, hm]
  | setStatic typeId field value =>
    have hwrites := hstatic ⟨typeId, field⟩
    rw [Op.staticWrite?, if_pos rfl] at hwrites
    cases hwrites
  | setShadowStatic shadowId key value =>
    have hwrites := hshadow ⟨shadowId, key⟩
    rw [Op.shadowWrite?, if_pos rfl] at hwrites
    cases hwrites
  | _ => rfl

theorem get?_setStatic (m : Memory) (h : Hierarchy) (typeId field : String) (value : Value) (name : StaticName) :
    (m.setStatic h typeId field value).2.statics.get? name =
      (m.statics.get? name).map fun old => ((Op.setStatic typeId field value).staticWrite? name).getD old := by
  unfold setStatic Table.contains Op.staticWrite?
  by_cases hname : name = ⟨typeId, field⟩
  · subst hname
    cases hold : m.statics.get? ⟨typeId, field⟩ with
    | none => simp [hold]
    | some old => simp
  · split <;> simp [hname]

/-- A static field that is there is written at most, and one that is not stays away. -/
theorem get?_statics_does (m : Memory) (h : Hierarchy) (op : Op) (name : StaticName) :
    (m.does h op).statics.get? name = (m.statics.get? name).map fun old => (op.staticWrite? name).getD old := by
  cases op with
  | setStatic typeId field value => exact get?_setStatic m h typeId field value name
  | setShadowStatic shadowId key value => exact Option.map_id'.symm
  | _ =>
    rw [does_eq_of_no_write (fun _ => rfl) (fun _ => rfl)]
    exact Option.map_id'.symm

theorem get?_shadowStatics_does (m : Memory) (h : Hierarchy) (op : Op) (name : ShadowStaticName) :
    (m.does h op).shadowStatics.get? name = (op.shadowWrite? name).or (m.shadowStatics.get? name) := by
  cases op with
  | setStatic typeId field value =>
    have hsame : (m.setStatic h typeId field value).2.shadowStatics = m.shadowStatics := by
      unfold setStatic
      split <;> rfl
    rw [does, hsame]
    rfl
  | setShadowStatic shadowId key value =>
    rw [does, setShadowStatic, Table.get?_put, Op.shadowWrite?]
    split <;> rfl
  | _ =>
    rw [does_eq_of_no_write (fun _ => rfl) (fun _ => rfl)]
    rfl

/-! ## The stores over time -/

theorem Configured.get?_statics (hm : m.Configured h moments) (name : StaticName) : m.statics.get? name =
    ((declaredStatics h).get? name).map fun initial => (lastWritten (Op.staticWrite? name) moments).getD initial := by
  induction moments using List.reverseRecOn generalizing m with
  | nil =>
    rw [hm.eq_declared]
    exact Option.map_id'.symm
  | append_singleton past x ih =>
    obtain ⟨hpast, _, rfl⟩ := hm.concat
    rw [get?_statics_does, ih hpast, Option.map_map, lastWritten_concat]
    refine congrFun (congrArg _ (funext fun initial => ?_)) _
    rw [Function.comp_apply, Option.getD_or]

theorem Configured.get?_shadowStatics (hm : m.Configured h moments) (name : ShadowStaticName) :
    m.shadowStatics.get? name = lastWritten (Op.shadowWrite? name) moments := by
  induction moments using List.reverseRecOn generalizing m with
  | nil =>
    rw [hm.eq_declared]
    rfl
  | append_singleton past x ih =>
    obtain ⟨hpast, _, rfl⟩ := hm.concat
    rw [get?_shadowStatics_does, ih hpast, lastWritten_concat]

/-- The static fields and the static state of shadows in a memory, given what was done since it was last loaded or
reset. -/
structure KeepsStatics (h : Hierarchy) (moments : List Moment) (m : Memory) : Prop where
  /-- What a reset returns to is what the types declare. -/
  template : ∀ typeId field initial,
    m.template.get? ⟨typeId, field⟩ = some initial ↔ h.DeclaresStatic typeId field initial
  names : m.statics.keys = m.template.keys
  /-- The static fields are those that their types themselves declare. Each has the value that was written to it last,
  or else the declared one. -/
  static : ∀ typeId field value, m.static? typeId field = some value ↔ ∃ initial,
    h.DeclaresStatic typeId field initial ∧
      value = (lastWritten (Op.staticWrite? ⟨typeId, field⟩) moments).getD initial
  /-- What a shadow keeps under a name is what was written there last, and nothing before the first write. -/
  shadowStatic : ∀ shadowId key,
    m.shadowStatic? shadowId key = lastWritten (Op.shadowWrite? ⟨shadowId, key⟩) moments

theorem Configured.keepsStatics (hm : m.Configured h moments) : m.KeepsStatics h moments where
  template typeId field initial := by rw [hm.fits.template, get?_declaredStatics_eq_some_iff]
  names := hm.fits.names
  static typeId field value := by
    rw [static?, hm.get?_statics, Option.map_eq_some_iff]
    simp only [get?_declaredStatics_eq_some_iff, @eq_comm _ _ value]
  shadowStatic shadowId key := hm.get?_shadowStatics ⟨shadowId, key⟩

/-- A static field is there exactly if its type itself declares it. -/
theorem Configured.exists_static?_iff (hm : m.Configured h moments) :
    (∃ value, m.static? typeId field = some value) ↔ ∃ initial, h.DeclaresStatic typeId field initial := by
  simp only [hm.keepsStatics.static]
  constructor
  · rintro ⟨_, initial, hdeclares, _⟩
    exact ⟨initial, hdeclares⟩
  · rintro ⟨initial, hdeclares⟩
    exact ⟨_, initial, hdeclares, rfl⟩

end Memory

/-! ## Reading and writing -/

namespace Machine

variable {m : Machine} {moments : List Moment}

/-- What reading and writing static fields and static state of shadows does at this moment. -/
structure AccessesStatics (m : Machine) : Prop where
  /-- A static field that its type itself declares is read. -/
  read : ∀ run typeId field initial, m.hierarchy.DeclaresStatic typeId field initial → ∃ value,
    m.memory.static? typeId field = some value ∧ perform run (.getStatic typeId field) m = (.done (.ok value), m)
  /-- It is written too. No other static field changes, no name is added or lost, and nothing else changes but the mark
  that a write was tried. -/
  write : ∀ run typeId field initial value, m.hierarchy.DeclaresStatic typeId field initial → ∃ statics,
    perform run (.setStatic typeId field value) m =
        (.done (.ok ()), { m with memory := { m.memory with statics := statics, writeTried := true } }) ∧
      statics.keys = m.memory.statics.keys ∧
      ∀ name, statics.get? name = if name = ⟨typeId, field⟩ then some value else m.memory.statics.get? name
  /-- A static field that its type does not declare itself is missing, or the type is. -/
  read_fails : ∀ run typeId field, (∀ initial, ¬m.hierarchy.DeclaresStatic typeId field initial) →
    perform run (.getStatic typeId field) m =
      (.done (.error (if m.hierarchy.contains typeId then .fieldNotFound typeId field else .typeNotFound typeId)), m)
  /-- A write to it fails in the same way and changes no value in any store, nor any name. What is left of it is the
  mark that a write was tried, and no look-up depends on that. -/
  write_fails : ∀ run typeId field value, (∀ initial, ¬m.hierarchy.DeclaresStatic typeId field initial) →
    perform run (.setStatic typeId field value) m =
      (.done (.error (if m.hierarchy.contains typeId then .fieldNotFound typeId field else .typeNotFound typeId)),
        { m with memory := { m.memory with writeTried := true } })
  /-- What a shadow writes under a name changes nothing but what this shadow keeps under it. -/
  write_shadow : ∀ run shadowId key value, ∃ shadowStatics,
    perform run (.setShadowStatic shadowId key value) m =
        (.done (), { m with memory := { m.memory with shadowStatics := shadowStatics } }) ∧
      ∀ name, shadowStatics.get? name =
        if name = ⟨shadowId, key⟩ then some value else m.memory.shadowStatics.get? name

theorem accessesStatics (hm : m.memory.Configured m.hierarchy moments) : m.AccessesStatics where
  read run typeId field initial hdeclares := by
    obtain ⟨value, hvalue⟩ := hm.exists_static?_iff.2 ⟨initial, hdeclares⟩
    refine ⟨value, hvalue, ?_⟩
    simp only [perform, Memory.getStatic, hvalue]
  write run typeId field initial value hdeclares := by
    obtain ⟨old, hold⟩ := hm.exists_static?_iff.2 ⟨initial, hdeclares⟩
    have hcontains : m.memory.statics.contains ⟨typeId, field⟩ = true := Option.isSome_iff_exists.2 ⟨old, hold⟩
    have hmem : (⟨typeId, field⟩ : StaticName) ∈ m.memory.statics.keys := Table.mem_keys_iff.2 ⟨old, hold⟩
    refine ⟨m.memory.statics.put ⟨typeId, field⟩ value, ?_, ?_, Table.get?_put _ _ _⟩
    · simp only [perform, Memory.setStatic, hcontains, if_true]
    · rw [Table.keys_put, if_pos hmem]
  read_fails run typeId field hnone := by
    have hmissing : m.memory.static? typeId field = none := by
      refine Option.eq_none_iff_forall_ne_some.2 fun value hvalue => ?_
      obtain ⟨initial, hdeclares⟩ := hm.exists_static?_iff.1 ⟨value, hvalue⟩
      exact hnone initial hdeclares
    simp only [perform, Memory.getStatic, hmissing, Memory.missingStatic]
  write_fails run typeId field value hnone := by
    have hmissing : m.memory.statics.contains ⟨typeId, field⟩ = false := by
      refine Bool.eq_false_iff.2 fun hcontains => ?_
      obtain ⟨initial, hdeclares⟩ := hm.exists_static?_iff.1 (Option.isSome_iff_exists.1 hcontains)
      exact hnone initial hdeclares
    simp only [perform, Memory.setStatic, hmissing, Bool.false_eq_true, if_false, Memory.missingStatic]
  write_shadow run shadowId key value := ⟨_, rfl, Table.get?_put _ _ _⟩

end Machine

/-! ## The main result -/

namespace Sandbox

/-- Take a new sandbox, with leak detection on or off and any leak checks, and any life of it, in which tasks, bodies
and resetters do what they like and may fail or panic. At every moment of the life, which is before any operation that
running code performs, and between the operations of the life, the static fields are those that types themselves
declare. Each has the value that was written last since the last reset, or else the declared one; the template is still
what is declared; and static state of shadows is there once it was written since the last reset. At every moment a
static field is read and written exactly if its type itself declares it, and else the error tells whether there is the
type. A write changes one value in its store and nothing in any other one, and one that fails changes none. -/
theorem statics_total_store (id : Nat) (key : SandboxKey) (h : Hierarchy) (detectLeaks : Bool)
    (checks : List LeakCheck) (steps : List Step) :
    let start : Sandbox := { new id key h with detectLeaks := detectLeaks, checks := checks }
    let s := start.after steps
    (∀ past x rest, history start steps = past ++ .moment x :: rest →
      x.machine.hierarchy = h ∧ x.machine.memory.KeepsStatics h (residueOf past) ∧ x.machine.AccessesStatics) ∧
    (s.stage ≠ .uninitialized → s.stage ≠ .destroyed →
      s.memory.KeepsStatics h (residueOf (history start steps))) := by
  intro start s
  refine ⟨fun past x rest hx => ?_, fun hold hlives => ?_⟩
  · obtain ⟨hx', hm⟩ := configured_at_moment hx
    exact ⟨hx', hm.keepsStatics, Machine.accessesStatics (hx'.symm ▸ hm)⟩
  · exact (configured_after hold hlives).2.keepsStatics

end Sandbox

/-! ## A counter -/

namespace Sample

/-- A counter declares its number twice. A step counter is one, and has no number of its own. -/
def counters : Hierarchy :=
  ⟨KeyMap.ofList [("Counter", { view with statics := [("number", .i32 1), ("number", .i32 2)] }),
    ("Steps", { view with parent := some "Counter", statics := [] })], by decide⟩

/-- Writes the number, and under the same name what a shadow keeps, and reads the number. -/
def count : Program (Except Error Value) :=
  .perform (.setStatic "Counter" "number" (.i32 7)) fun _ => .perform (.setStatic "Steps" "number" (.i32 8)) fun _ =>
    .perform (.setShadowStatic "Counter" "number" (.i32 9)) fun _ => .ask (.getStatic "Counter" "number")

theorem counters_declares_number : counters.DeclaresStatic "Counter" "number" (.i32 2) :=
  ⟨_, [("number", .i32 1)], [], rfl, rfl, List.forall_mem_nil _⟩

end Sample

namespace Sandbox

/-- When the number is read each store has what was written to it, and the number of the step counter is missing. After
the task the number is the one that was declared last, and the shadow keeps nothing. -/
theorem statics_total_store_counter :
    let start : Sandbox := { new 1 ⟨.none, 30⟩ Sample.counters with detectLeaks := true, checks := [] }
    let life : List Step := [(.configure, .empty), (.execute Sample.code Sample.count, .empty)]
    (∃ x, .moment x ∈ history start life ∧ x.machine.memory.static? "Counter" "number" = some (.i32 7) ∧
      x.machine.memory.shadowStatic? "Counter" "number" = some (.i32 9) ∧
      ∀ run, Machine.perform run (.getStatic "Steps" "number") x.machine =
        (.done (.error (.fieldNotFound "Steps" "number")), x.machine)) ∧
    (start.after life).memory.static? "Counter" "number" = some (.i32 2) ∧
    (start.after life).memory.shadowStatic? "Counter" "number" = none := by
  intro start life
  obtain ⟨hmoments, hbetween⟩ := statics_total_store 1 ⟨.none, 30⟩ Sample.counters true [] life
  constructor
  · -- The fifth entry is the read.
    have hread : ((history start life)[4]?.bind Entry.moment?).isSome = true := by decide
    obtain ⟨x, hx⟩ := Option.isSome_iff_exists.1 hread
    obtain ⟨past, rest, hsplit, hpast⟩ := Entry.exists_split hx
    obtain ⟨hhierarchy, hkeeps, haccesses⟩ := hmoments past x rest hsplit
    have hwritten : Memory.lastWritten (Op.staticWrite? ⟨"Counter", "number"⟩) (residueOf past) = some (.i32 7) := by
      rw [hpast]
      decide
    have hkept : Memory.lastWritten (Op.shadowWrite? ⟨"Counter", "number"⟩) (residueOf past) = some (.i32 9) := by
      rw [hpast]
      decide
    refine ⟨x, ?_, (hkeeps.static _ _ _).2 ⟨_, Sample.counters_declares_number, ?_⟩, ?_, fun run => ?_⟩
    · rw [hsplit]
      exact List.mem_append_cons_self
    · rw [hwritten]
      rfl
    · rw [hkeeps.shadowStatic, hkept]
    · have hnone : ∀ initial, ¬x.machine.hierarchy.DeclaresStatic "Steps" "number" initial := by
        rintro initial ⟨decl, before, after, hdecl, hstatics, _⟩
        rw [hhierarchy] at hdecl
        obtain rfl := Option.some.inj hdecl
        exact List.append_ne_nil_of_right_ne_nil _ (List.cons_ne_nil _ _) hstatics.symm
      have hfails := haccesses.read_fails run "Steps" "number" hnone
      rwa [hhierarchy] at hfails
  · have hnone : residueOf (history start life) = [] := List.eq_nil_of_length_eq_zero (by decide)
    have hkeeps := hbetween (by decide) (by decide)
    rw [hnone] at hkeeps
    exact ⟨(hkeeps.static _ _ _).2 ⟨_, Sample.counters_declares_number, rfl⟩, hkeeps.shadowStatic _ _⟩

end Sandbox

end Interpose
