import Interpose.Proofs.Data.Containers
import Interpose.Rules
import Mathlib.Data.List.TakeWhile

/-!
# Which types rules intercept

Rules are built step by step, and what they intercept depends on which steps there are and not on their order, but for
shadow ids, of which each keeps its last binding. A package is found by comparing texts: a type lies in it if the type's
name goes on with a dot after it. That is the same as comparing the parts between the dots one by one, also where parts
are empty.
-/

namespace Interpose

/-! ## Packages -/

section Parts

variable {α : Type} [BEq α] [LawfulBEq α] {dot : α} {name other : List α}

omit [BEq α] [LawfulBEq α] in
theorem intercalate_append {parts others : List (List α)} (hparts : parts ≠ []) (hothers : others ≠ []) :
    [dot].intercalate (parts ++ others) = [dot].intercalate parts ++ dot :: [dot].intercalate others := by
  induction parts with
  | nil => exact absurd rfl hparts
  | cons part rest ih =>
    cases rest with
    | nil =>
      obtain ⟨first, others, rfl⟩ := List.exists_cons_of_ne_nil hothers
      rw [List.singleton_append, List.intercalate_cons_cons, List.intercalate_singleton, List.append_assoc]
      rfl
    | cons next rest =>
      rw [List.cons_append, List.cons_append, List.intercalate_cons_cons, ← List.cons_append, ih (List.cons_ne_nil _ _),
        List.intercalate_cons_cons, List.append_assoc, List.append_assoc, List.append_assoc]

/-- A name goes on with a dot after another one exactly if it has all parts of the other one first, and more. -/
theorem concat_prefix_iff_parts : other ++ [dot] <+: name ↔
    other.splitOn dot <+: name.splitOn dot ∧ other.splitOn dot ≠ name.splitOn dot := by
  constructor
  · rintro ⟨rest, rfl⟩
    rw [List.append_assoc, List.singleton_append, List.splitOn_append_cons_self]
    refine ⟨List.prefix_append _ _, fun hsame => ?_⟩
    exact List.splitOn_ne_nil dot rest (List.append_right_eq_self.1 hsame.symm)
  · rintro ⟨⟨parts, hparts⟩, hne⟩
    have hmore : parts ≠ [] := by
      rintro rfl
      exact hne ((List.append_nil _).symm.trans hparts)
    have hname : [dot].intercalate (name.splitOn dot) = name := List.intercalate_splitOn dot
    rw [← hparts, intercalate_append (List.splitOn_ne_nil dot other) hmore, List.intercalate_splitOn] at hname
    refine ⟨[dot].intercalate parts, ?_⟩
    rw [← hname, List.append_assoc, List.singleton_append]

end Parts

/-- A type lies in a package or in a package within it: the parts of the package, which may be given with dots at its
end, are the first parts of the type, and not all of them. -/
def LiesWithin (typeId package : String) : Prop :=
  ∃ stem dots, package.toList = stem ++ List.replicate dots '.' ∧ stem.getLast? ≠ some '.' ∧
    stem.splitOn '.' <+: typeId.toList.splitOn '.' ∧ stem.splitOn '.' ≠ typeId.toList.splitOn '.'

/-- To trim a package is to take off all dots at its end. -/
theorem toList_trimPackage_iff {package : String} {stem : List Char} : (trimPackage package).toList = stem ↔
    ∃ dots, package.toList = stem ++ List.replicate dots '.' ∧ stem.getLast? ≠ some '.' := by
  rw [trimPackage, String.toList_ofList]
  constructor
  · rintro rfl
    refine ⟨(package.toList.reverse.takeWhile (· == '.')).length, ?_, ?_⟩
    · have hdots : ∀ c ∈ package.toList.reverse.takeWhile (· == '.'), c = '.' :=
        fun c hc => beq_iff_eq.1 (List.mem_takeWhile_imp (p := (· == '.')) hc)
      have hsplit := List.takeWhile_append_dropWhile (p := (· == '.')) (l := package.toList.reverse)
      replace hsplit := congrArg List.reverse hsplit
      rw [List.reverse_append, List.reverse_reverse, List.eq_replicate_of_mem hdots, List.reverse_replicate] at hsplit
      exact hsplit.symm
    · rw [List.getLast?_reverse]
      intro hlast
      have hnot := List.head?_dropWhile_not (· == '.') package.toList.reverse
      rw [hlast] at hnot
      exact absurd hnot (by decide)
  · rintro ⟨dots, hpackage, hlast⟩
    have hdots : ∀ c ∈ List.replicate dots '.', (c == '.') = true :=
      fun c hc => beq_iff_eq.2 (List.eq_of_mem_replicate hc)
    rw [hpackage, List.reverse_append, List.reverse_replicate, List.dropWhile_append_of_pos hdots]
    have hstem : stem.reverse.dropWhile (· == '.') = stem.reverse := by
      rw [← List.head?_reverse] at hlast
      cases hstem : stem.reverse with
      | nil => rfl
      | cons last rest =>
        rw [hstem] at hlast
        exact List.dropWhile_cons_of_neg fun heq => hlast (congrArg some (beq_iff_eq.1 heq))
    rw [hstem, List.reverse_reverse]

/-- Comparing texts up to a dot finds the types of a package. -/
theorem liesIn_trimPackage_iff {typeId package : String} :
    liesIn typeId (trimPackage package) = true ↔ LiesWithin typeId package := by
  rw [liesIn, List.isPrefixOf_iff_prefix, concat_prefix_iff_parts]
  constructor
  · intro hparts
    obtain ⟨dots, hpackage, hlast⟩ := toList_trimPackage_iff.1 (rfl : (trimPackage package).toList = _)
    exact ⟨_, dots, hpackage, hlast, hparts⟩
  · rintro ⟨stem, dots, hpackage, hlast, hparts⟩
    rwa [toList_trimPackage_iff.2 ⟨dots, hpackage, hlast⟩]

namespace Rules

/-! ## The decision -/

section Decision

variable {r r' : Rules} {typeId : String}

theorem isShadowed_iff : r.isShadowed typeId = true ↔ ∃ id, r.boundShadows.get? id = some typeId := by
  rw [isShadowed, List.contains_iff_mem, KeyMap.mem_values_iff]

/-- An included type and one with a bound shadow are intercepted, and so is one that is not excluded and lies in the
packages to instrument, if there are such. -/
theorem intercepts_iff :
    r.intercepts typeId = true ↔
      (r.includedTypes.contains typeId = true ∨ ∃ id, r.boundShadows.get? id = some typeId) ∨
      r.excludedTypes.contains typeId = false ∧ (∀ package ∈ r.excludedPackages.keys, liesIn typeId package = false) ∧
        (r.instrumentedPackages.isEmpty = true ∨
          ∃ package ∈ r.instrumentedPackages.keys, liesIn typeId package = true) := by
  rw [intercepts, ← isShadowed_iff, ← Bool.or_eq_true]
  cases r.includedTypes.contains typeId || r.isShadowed typeId with
  | true => exact iff_of_true rfl (.inl rfl)
  | false =>
    cases r.excludedTypes.contains typeId with
    | true => simp
    | false => simp [List.any_eq_true]

/-- Rules that include at least as much as others and exclude at most as much. -/
structure Wider (r r' : Rules) : Prop where
  included : ∀ typeId, r.includedTypes.contains typeId = true → r'.includedTypes.contains typeId = true
  bound : ∀ id typeId, r.boundShadows.get? id = some typeId → r'.boundShadows.get? id = some typeId
  excludedTypes : ∀ typeId, r'.excludedTypes.contains typeId = true → r.excludedTypes.contains typeId = true
  excludedPackages : ∀ package ∈ r'.excludedPackages.keys, package ∈ r.excludedPackages.keys
  instrumented : r'.instrumentedPackages = r.instrumentedPackages

/-- They intercept what the others do. -/
theorem Wider.intercepts (hwider : Wider r r') (hr : r.intercepts typeId = true) : r'.intercepts typeId = true := by
  rw [intercepts_iff] at hr ⊢
  obtain (hincluded | ⟨id, hbound⟩) | ⟨htypes, hpackages, hinstrumented⟩ := hr
  · exact .inl (.inl (hwider.included typeId hincluded))
  · exact .inl (.inr ⟨id, hwider.bound id typeId hbound⟩)
  · refine .inr ⟨Bool.eq_false_iff.2 fun hexcluded => ?_, fun package hpackage => ?_, ?_⟩
    · exact Bool.false_ne_true (htypes.symm.trans (hwider.excludedTypes typeId hexcluded))
    · exact hpackages package (hwider.excludedPackages package hpackage)
    · rwa [hwider.instrumented]

end Decision

/-! ## Building -/

/-- One step in building rules. -/
inductive Step where
  | excludePackage (package : String)
  | instrumentPackage (package : String)
  | includeType (typeId : String)
  | excludeType (typeId : String)
  | bindShadow (shadowId real : String)
  | addShadow (shadow : Shadow)
  | defaultExclusions

namespace Step

def apply (r : Rules) : Step → Rules
  | excludePackage package => r.excludePackage package
  | instrumentPackage package => r.instrumentPackage package
  | includeType typeId => r.includeType typeId
  | excludeType typeId => r.excludeType typeId
  | bindShadow shadowId real => r.bindShadow shadowId real
  | addShadow shadow => r.addShadow shadow
  | defaultExclusions => r.withDefaultExclusions

/-- The packages that a step excludes, as they are given. -/
def excludedPackages : Step → List String
  | excludePackage package => [package]
  | defaultExclusions => Rules.defaultExclusions
  | _ => []

def instrumentedPackages : Step → List String
  | instrumentPackage package => [package]
  | _ => []

def includedTypes : Step → List String
  | includeType typeId => [typeId]
  | _ => []

def excludedTypes : Step → List String
  | excludeType typeId => [typeId]
  | _ => []

/-- The shadow id that a step binds, and the type that it binds it to. -/
def binding? : Step → Option (String × String)
  | bindShadow shadowId real => some (shadowId, real)
  | addShadow shadow => some (shadow.id, shadow.own.implements)
  | _ => .none

/-- Steps that exclude something. -/
def isExclusion : Step → Bool
  | excludePackage _ | excludeType _ | defaultExclusions => true
  | _ => false

/-- Steps that include something. -/
def isInclusion : Step → Bool
  | includeType _ | bindShadow .. | addShadow _ => true
  | _ => false

end Step

/-- The rules that a list of steps builds. -/
def ofSteps (steps : List Step) : Rules := steps.foldl Step.apply none

section Building

variable {steps before after : List Step} {step : Step} {typeId id real : String}

theorem foldl_excludePackage (packages : List String) (r : Rules) :
    packages.foldl excludePackage r =
      { r with excludedPackages := (packages.map trimPackage).foldl KeySet.add r.excludedPackages } := by
  induction packages generalizing r with
  | nil => rfl
  | cons package rest ih => rw [List.foldl_cons, ih, List.map_cons, List.foldl_cons, excludePackage]

/-- What a list of steps says, each kind of rule by itself. -/
theorem ofSteps_eq (steps : List Step) : ofSteps steps =
    { instrumentedPackages := KeySet.ofKeys ((steps.flatMap Step.instrumentedPackages).map trimPackage)
      excludedPackages := KeySet.ofKeys ((steps.flatMap Step.excludedPackages).map trimPackage)
      includedTypes := KeySet.ofKeys (steps.flatMap Step.includedTypes)
      excludedTypes := KeySet.ofKeys (steps.flatMap Step.excludedTypes)
      boundShadows := KeyMap.ofList (steps.filterMap Step.binding?) } := by
  induction steps using List.reverseRecOn with
  | nil => rfl
  | append_singleton past step ih =>
    have hlast : ofSteps (past ++ [step]) = step.apply (ofSteps past) := List.foldl_append
    rw [hlast, ih]
    simp only [List.flatMap_append, List.map_append, List.filterMap_append, KeySet.ofKeys, KeyMap.ofList,
      List.foldl_append]
    cases step with
    | defaultExclusions =>
      rw [Step.apply, withDefaultExclusions, foldl_excludePackage]
      rfl
    | excludePackage | instrumentPackage | includeType | excludeType | bindShadow | addShadow => rfl

/-- What is given by one sort of steps, one name by each of them. -/
theorem mem_flatMap_iff {given : Step → List String} {sort : String → Step}
    (hgiven : ∀ step name, name ∈ given step ↔ step = sort name) {name : String} :
    name ∈ steps.flatMap given ↔ sort name ∈ steps := by
  simp only [List.mem_flatMap, hgiven, exists_eq_right]

theorem mem_includedTypes_iff : typeId ∈ steps.flatMap Step.includedTypes ↔ .includeType typeId ∈ steps :=
  mem_flatMap_iff fun step name => by cases step <;> simp [Step.includedTypes, eq_comm]

theorem mem_excludedTypes_iff : typeId ∈ steps.flatMap Step.excludedTypes ↔ .excludeType typeId ∈ steps :=
  mem_flatMap_iff fun step name => by cases step <;> simp [Step.excludedTypes, eq_comm]

theorem mem_instrumentedPackages_iff {package : String} :
    package ∈ steps.flatMap Step.instrumentedPackages ↔ .instrumentPackage package ∈ steps :=
  mem_flatMap_iff fun step name => by cases step <;> simp [Step.instrumentedPackages, eq_comm]

theorem mem_excludedPackages_iff {package : String} : package ∈ steps.flatMap Step.excludedPackages ↔
    .excludePackage package ∈ steps ∨ .defaultExclusions ∈ steps ∧ package ∈ defaultExclusions := by
  rw [List.mem_flatMap]
  constructor
  · rintro ⟨step, hstep, hmem⟩
    cases step with
    | excludePackage => exact .inl (List.mem_singleton.1 hmem ▸ hstep)
    | defaultExclusions => exact .inr ⟨hstep, hmem⟩
    | instrumentPackage | includeType | excludeType | bindShadow | addShadow => cases hmem
  · rintro (hstep | ⟨hstep, hmem⟩)
    · exact ⟨_, hstep, List.mem_singleton_self _⟩
    · exact ⟨_, hstep, hmem⟩

/-- Of the steps that bind a shadow id the last one binds it to this type. -/
def BindsLast (steps : List Step) (typeId : String) : Prop :=
  ∃ before step after id, steps = before ++ step :: after ∧ step.binding? = some (id, typeId) ∧
    ∀ later ∈ after, ∀ real, later.binding? ≠ some (id, real)

theorem exists_bound_iff :
    (∃ id, (KeyMap.ofList (steps.filterMap Step.binding?)).get? id = some typeId) ↔ BindsLast steps typeId := by
  simp only [KeyMap.ofList, KeyMap.get?_foldl_insert, KeyMap.get?_empty, reduceCtorEq, and_false, or_false]
  constructor
  · rintro ⟨id, bindings, others, hsplit, hlast⟩
    obtain ⟨before, rest, rfl, rfl, hrest⟩ := List.filterMap_eq_append_iff.1 hsplit
    obtain ⟨before', step, after, rfl, _, hstep, rfl⟩ := List.filterMap_eq_cons_iff.1 hrest
    refine ⟨before ++ before', step, after, id, by rw [List.append_assoc], hstep, fun later hlater real hbinds => ?_⟩
    exact hlast _ (List.mem_filterMap.2 ⟨later, hlater, hbinds⟩) rfl
  · rintro ⟨before, step, after, id, rfl, hstep, hlast⟩
    refine ⟨id, before.filterMap Step.binding?, after.filterMap Step.binding?, ?_, ?_⟩
    · rw [List.filterMap_append, List.filterMap_cons_some hstep]
    · rintro ⟨id', real⟩ he rfl
      obtain ⟨later, hlater, hbinds⟩ := List.mem_filterMap.1 he
      exact hlast later hlater real hbinds

/-! ## More steps -/

/-- An exclusion less makes rules wider. -/
theorem wider_of_exclusion (hstep : step.isExclusion = true) :
    Wider (ofSteps (before ++ step :: after)) (ofSteps (before ++ after)) := by
  obtain ⟨hincluded, hinstrumented, hbinds⟩ :
      step.includedTypes = [] ∧ step.instrumentedPackages = [] ∧ step.binding? = .none := by
    cases step with
    | excludePackage | excludeType | defaultExclusions => exact ⟨rfl, rfl, rfl⟩
    | instrumentPackage | includeType | bindShadow | addShadow => cases hstep
  rw [ofSteps_eq, ofSteps_eq]
  refine ⟨fun typeId => ?_, fun id typeId => ?_, fun typeId => ?_, fun package => ?_, ?_⟩
  · simp only [KeySet.contains_ofKeys, List.flatMap_append, List.flatMap_cons, hincluded, List.nil_append]
    exact id
  · simp only [List.filterMap_append, List.filterMap_cons_none hbinds]
    exact fun h => h
  · simp only [KeySet.contains_ofKeys, List.flatMap_append, List.flatMap_cons, List.mem_append]
    exact Or.imp_right .inr
  · simp only [KeySet.mem_keys_ofKeys, List.flatMap_append, List.flatMap_cons, List.map_append, List.mem_append]
    exact Or.imp_right Or.inr
  · simp only [List.flatMap_append, List.flatMap_cons, hinstrumented, List.nil_append]

/-- And so does an inclusion more, if it does not bind a shadow id anew. -/
theorem wider_of_inclusion (hstep : step.isInclusion = true)
    (hnew : ∀ id real, step.binding? = some (id, real) →
      ∀ other ∈ before ++ after, ∀ real', other.binding? ≠ some (id, real')) :
    Wider (ofSteps (before ++ after)) (ofSteps (before ++ step :: after)) := by
  obtain ⟨htypes, hpackages, hinstrumented⟩ :
      step.excludedTypes = [] ∧ step.excludedPackages = [] ∧ step.instrumentedPackages = [] := by
    cases step with
    | includeType | bindShadow | addShadow => exact ⟨rfl, rfl, rfl⟩
    | instrumentPackage | excludePackage | excludeType | defaultExclusions => cases hstep
  rw [ofSteps_eq, ofSteps_eq]
  refine ⟨fun typeId => ?_, fun id typeId hbound => ?_, fun typeId => ?_, fun package => ?_, ?_⟩
  · simp only [KeySet.contains_ofKeys, List.flatMap_append, List.flatMap_cons, List.mem_append]
    exact Or.imp_right .inr
  · cases hbinds : step.binding? with
    | none => simpa only [List.filterMap_append, List.filterMap_cons_none hbinds] using hbound
    | some binding =>
      have hne : id ≠ binding.1 := by
        rintro rfl
        have hmem : (binding.1, typeId) ∈ (before ++ after).filterMap Step.binding? := by
          obtain ⟨_, _, hsplit, _⟩ | ⟨_, hnone⟩ := KeyMap.get?_foldl_insert.1 hbound
          · exact hsplit ▸ List.mem_append_cons_self
          · cases hnone
        obtain ⟨other, hother, hbinds'⟩ := List.mem_filterMap.1 hmem
        exact hnew _ _ hbinds other hother _ hbinds'
      rw [List.filterMap_append, List.filterMap_cons_some hbinds, KeyMap.get?_ofList_of_ne hne, ← List.filterMap_append]
      exact hbound
  · simp only [KeySet.contains_ofKeys, List.flatMap_append, List.flatMap_cons, htypes, List.nil_append]
    exact id
  · simp only [KeySet.mem_keys_ofKeys, List.flatMap_append, List.flatMap_cons, hpackages, List.nil_append]
    exact id
  · simp only [List.flatMap_append, List.flatMap_cons, hinstrumented, List.nil_append]

/-! ## The main result -/

/-- Take any steps in which rules are built, in any order. A type is intercepted exactly if it is included or is what
the last binding of some shadow id binds it to, or else if it is not excluded, lies in no excluded package, and lies in
one of the packages to instrument if there are such. To lie in a package is a matter of the parts between the dots, and
dots at the end of a package make no difference. So a further exclusion, made at any point, never adds to what is
intercepted, and a further inclusion, or a binding of a shadow id that is not bound yet, never takes anything away. -/
theorem intercepts_by_decision_order (steps : List Step) :
    (∀ typeId, (ofSteps steps).intercepts typeId = true ↔
      (.includeType typeId ∈ steps ∨ BindsLast steps typeId) ∨
      .excludeType typeId ∉ steps ∧
        (∀ package, .excludePackage package ∈ steps ∨ .defaultExclusions ∈ steps ∧ package ∈ defaultExclusions →
          ¬LiesWithin typeId package) ∧
        ((∀ package, .instrumentPackage package ∉ steps) ∨
          ∃ package, .instrumentPackage package ∈ steps ∧ LiesWithin typeId package)) ∧
    (∀ typeId package, liesIn typeId (trimPackage package) = true ↔ LiesWithin typeId package) ∧
    ∀ before step after, steps = before ++ step :: after →
      (step.isExclusion = true → ∀ typeId, (ofSteps steps).intercepts typeId = true →
        (ofSteps (before ++ after)).intercepts typeId = true) ∧
      (step.isInclusion = true →
        (∀ id real, step.binding? = some (id, real) →
          ∀ other ∈ before ++ after, ∀ real', other.binding? ≠ some (id, real')) →
        ∀ typeId, (ofSteps (before ++ after)).intercepts typeId = true →
          (ofSteps steps).intercepts typeId = true) := by
  refine ⟨fun typeId => ?_, fun typeId package => liesIn_trimPackage_iff, ?_⟩
  · have hexcluded : (ofSteps steps).excludedTypes.contains typeId = false ↔ .excludeType typeId ∉ steps := by
      rw [ofSteps_eq, Bool.eq_false_iff, Ne, KeySet.contains_ofKeys, mem_excludedTypes_iff]
    have hpackages : (∀ package ∈ (ofSteps steps).excludedPackages.keys, liesIn typeId package = false) ↔
        ∀ package, .excludePackage package ∈ steps ∨ .defaultExclusions ∈ steps ∧ package ∈ defaultExclusions →
          ¬LiesWithin typeId package := by
      simp only [ofSteps_eq, KeySet.mem_keys_ofKeys, List.forall_mem_map, mem_excludedPackages_iff,
        ← liesIn_trimPackage_iff, Bool.not_eq_true]
    have hinstrumented : ((ofSteps steps).instrumentedPackages.isEmpty = true ∨
          ∃ package ∈ (ofSteps steps).instrumentedPackages.keys, liesIn typeId package = true) ↔
        (∀ package, .instrumentPackage package ∉ steps) ∨
          ∃ package, .instrumentPackage package ∈ steps ∧ LiesWithin typeId package := by
      rw [ofSteps_eq]
      refine or_congr ?_ ?_
      · rw [KeySet.isEmpty_ofKeys, List.map_eq_nil_iff, List.eq_nil_iff_forall_not_mem]
        simp only [mem_instrumentedPackages_iff]
      · simp only [KeySet.mem_keys_ofKeys, List.mem_map, exists_exists_and_eq_and, mem_instrumentedPackages_iff,
          liesIn_trimPackage_iff]
    rw [intercepts_iff, hexcluded, hpackages, hinstrumented]
    simp only [ofSteps_eq, KeySet.contains_ofKeys, mem_includedTypes_iff, exists_bound_iff]
  · rintro before step after rfl
    exact ⟨fun hstep typeId => (wider_of_exclusion hstep).intercepts,
      fun hstep hnew typeId => (wider_of_inclusion hstep hnew).intercepts⟩

end Building

/-- Threads are included and the system is bound, whatever excludes them, but the runtime was bound only before. A
package given with dots at its end excludes its own types and not those of a package whose name goes on without a dot.
Threads are intercepted without the exclusion too, and the other types that are, were before threads were included. -/
theorem intercepts_by_decision_order_java :
    let bindings : List Step :=
      [.bindShadow "ShadowSystem" "java.lang.Runtime", .bindShadow "ShadowSystem" "java.lang.System"]
    let steps : List Step :=
      .includeType "java.lang.Thread" :: .defaultExclusions :: .excludePackage "com.example.." :: bindings
    (ofSteps steps).intercepts "java.lang.Thread" = true ∧ (ofSteps steps).intercepts "java.lang.System" = true ∧
      (ofSteps steps).intercepts "java.lang.Runtime" = false ∧
      LiesWithin "com.example.Widget" "com.example.." ∧ (ofSteps steps).intercepts "com.example.Widget" = false ∧
      (ofSteps steps).intercepts "com.examples.Widget" = true ∧
      (ofSteps (.includeType "java.lang.Thread" :: .defaultExclusions :: bindings)).intercepts "java.lang.Thread" =
        true := by
  intro bindings steps
  obtain ⟨hdecides, hlies, hmore⟩ := intercepts_by_decision_order steps
  have hthread : (ofSteps steps).intercepts "java.lang.Thread" = true :=
    (hdecides _).2 (.inl (.inl List.mem_cons_self))
  have hsystem : BindsLast steps "java.lang.System" :=
    ⟨steps.take 4, .bindShadow "ShadowSystem" "java.lang.System", [], "ShadowSystem", rfl, rfl,
      fun later hlater => absurd hlater List.not_mem_nil⟩
  have hwithin : LiesWithin "com.example.Widget" "com.example.." := (hlies _ _).1 (by decide)
  have hexcluded : (ofSteps steps).intercepts "com.example.Widget" = false := by decide
  obtain ⟨hless, _⟩ := hmore (steps.take 2) (.excludePackage "com.example..") bindings rfl
  obtain ⟨_, hincluded⟩ := hmore [] (.includeType "java.lang.Thread") (steps.drop 1) rfl
  have hnew : ∀ id real, (Step.includeType "java.lang.Thread").binding? = some (id, real) →
      ∀ other ∈ steps.drop 1, ∀ real', other.binding? ≠ some (id, real') := fun id real hbinds => by cases hbinds
  exact ⟨hthread, (hdecides _).2 (.inl (.inr hsystem)), by decide, hwithin, hexcluded,
    hincluded rfl hnew _ (by decide), hless rfl _ hthread⟩

end Rules

end Interpose
