import Interpose.Hierarchy.Conversion
import Interpose.Proofs.Hierarchy.Walks

/-!
# Conversions and what they cost

The table of conversions as a relation, row by row. A kind that converts to another one is narrower, and mostly it is
also cheaper to reach: widening and climbing are paid by the step. It is not for the null reference, which costs one
whatever it is passed to; not for a parameter of any kind, which is paid once however far up it lies; and not between a
primitive and its box. These are all the exceptions.
-/

namespace Interpose

namespace Primitive

variable {source middle target : Primitive} {steps few many : Nat}

theorem wideningSteps?_self (p : Primitive) : p.wideningSteps? p = some 0 := if_pos rfl

theorem wideningSteps?_eq_some_iff (hne : source ≠ target) :
    source.wideningSteps? target = some steps ↔
      ∃ low high, source.start? = some low ∧ target.rung? = some high ∧ low < high ∧ high - low = steps := by
  rw [wideningSteps?, if_neg hne]
  cases source.start? with
  | none => simp
  | some low =>
    cases target.rung? with
    | none => simp
    | some high => by_cases hlt : low < high <;> simp [hlt]

/-- Where a primitive is widened to starts from its own rung: only a character starts elsewhere. -/
theorem start?_of_rung? {p : Primitive} {rung : Nat} (h : p.rung? = some rung) : p.start? = some rung := by
  cases p with
  | bool => cases h
  | char => cases h
  | _ => exact h

/-- The farther a primitive is widened, the more steps it takes. -/
theorem wideningSteps?_lt (hfew : source.wideningSteps? middle = some few)
    (hmany : source.wideningSteps? target = some many) (hup : middle.wideningSteps? target = some steps)
    (hne : middle ≠ target) : few < many := by
  obtain ⟨start, high, hstart, hhigh, hlt, _⟩ := (wideningSteps?_eq_some_iff hne).1 hup
  by_cases hfirst : source = middle
  · subst hfirst
    cases (wideningSteps?_self source).symm.trans hfew
    obtain ⟨_, _, h₁, h₂, _, rfl⟩ := (wideningSteps?_eq_some_iff hne).1 hmany
    cases hstart.symm.trans h₁
    cases hhigh.symm.trans h₂
    omega
  · obtain ⟨low, rung, hlow, hrung, hlt', rfl⟩ := (wideningSteps?_eq_some_iff hfirst).1 hfew
    cases hstart.symm.trans (start?_of_rung? hrung)
    have hsecond : source ≠ target := by
      rintro rfl
      cases hlow.symm.trans (start?_of_rung? hhigh)
      exact absurd hlt' (Nat.lt_asymm hlt)
    obtain ⟨_, _, h₁, h₂, _, rfl⟩ := (wideningSteps?_eq_some_iff hsecond).1 hmany
    cases hlow.symm.trans h₁
    cases hhigh.symm.trans h₂
    omega

end Primitive

/-- The table of conversions: what can be passed where, and at what cost. -/
inductive Conversion (h : Hierarchy) : Kind → Kind → Nat → Prop
  | same (k : Kind) : Conversion h k k 0
  | widen {p q : Primitive} {steps : Nat} (hne : p ≠ q) (hsteps : p.wideningSteps? q = some steps) :
      Conversion h (.primitive p) (.primitive q) steps
  | box (p : Primitive) : Conversion h (.primitive p) (.boxed p) 1
  | unbox {p q : Primitive} {steps : Nat} (hsteps : p.wideningSteps? q = some steps) :
      Conversion h (.boxed p) (.primitive q) (steps + 1)
  | null {k : Kind} (hreference : k.isReference = true) (hne : k ≠ .null) : Conversion h .null k 1
  | climb {s t : String} {steps : Nat} (hne : s ≠ t) (hsteps : (h.ancestors s).findIdx? (· == t) = some steps) :
      Conversion h (.object s) (.object t) steps
  | primitiveToAny (p : Primitive) : Conversion h (.primitive p) .any 2
  | boxedToAny (p : Primitive) : Conversion h (.boxed p) .any 1
  | stringToAny : Conversion h .string .any 1
  | objectToAny (s : String) : Conversion h (.object s) .any 1

section Table

variable {h : Hierarchy} {argument parameter : Kind} {cost : Nat}

theorem conversionCost?_of_conversion (hc : Conversion h argument parameter cost) :
    h.conversionCost? argument parameter = some cost := by
  cases hc with
  | same => exact if_pos rfl
  | widen hne hsteps =>
    rw [Hierarchy.conversionCost?, if_neg fun heq => hne (Kind.primitive.inj heq)]
    exact hsteps
  | box p =>
    rw [Hierarchy.conversionCost?, if_neg Kind.noConfusion]
    exact if_pos rfl
  | unbox hsteps =>
    rw [Hierarchy.conversionCost?, if_neg Kind.noConfusion]
    simp only [hsteps, Option.map_some]
  | null hreference hne =>
    rw [Hierarchy.conversionCost?, if_neg hne.symm]
    exact if_pos hreference
  | climb hne hsteps =>
    rw [Hierarchy.conversionCost?, if_neg fun heq => hne (Kind.object.inj heq)]
    exact hsteps
  | primitiveToAny => rfl
  | boxedToAny => rfl
  | stringToAny => rfl
  | objectToAny => rfl

theorem conversion_of_conversionCost? (hc : h.conversionCost? argument parameter = some cost) :
    Conversion h argument parameter cost := by
  unfold Hierarchy.conversionCost? at hc
  split at hc
  · rename_i heq
    cases hc
    exact heq ▸ .same argument
  · rename_i hne
    split at hc
    · exact .widen (fun heq => hne (congrArg Kind.primitive heq)) hc
    · split at hc
      · rename_i heq
        cases hc
        exact heq ▸ .box _
      · cases hc
    · obtain ⟨_, hsteps, rfl⟩ := Option.map_eq_some_iff.1 hc
      exact .unbox hsteps
    · split at hc
      · rename_i hreference
        cases hc
        exact .null hreference fun heq => hne heq.symm
      · cases hc
    · exact .climb (fun heq => hne (congrArg Kind.object heq)) hc
    · cases hc
      exact .primitiveToAny _
    · cases hc
      exact .boxedToAny _
    · cases hc
      exact .stringToAny
    · cases hc
      exact .objectToAny _
    · cases hc

theorem conversionCost?_eq_some_iff :
    h.conversionCost? argument parameter = some cost ↔ Conversion h argument parameter cost :=
  ⟨conversion_of_conversionCost?, conversionCost?_of_conversion⟩

end Table

namespace Hierarchy

variable {h : Hierarchy} {a s t : String} {few many steps : Nat}

/-- The farther an object climbs, the more steps it takes. -/
theorem climb_lt (hfew : (h.ancestors a).findIdx? (· == s) = some few)
    (hmany : (h.ancestors a).findIdx? (· == t) = some many) (hup : Relation.ReflTransGen (Extends h.parent?) s t)
    (hne : s ≠ t) : few < many := by
  obtain ⟨hi, hs, _⟩ := List.findIdx?_eq_some_iff_getElem.1 hfew
  obtain ⟨hj, ht, _⟩ := List.findIdx?_eq_some_iff_getElem.1 hmany
  have hs : (h.ancestors a)[few] = s := eq_of_beq hs
  have ht : (h.ancestors a)[many] = t := eq_of_beq ht
  by_contra hle
  obtain hlt | heq := Nat.lt_or_eq_of_le (Nat.le_of_not_lt hle)
  · -- A walk goes upward only, so the later stop would be above itself.
    have habove := List.pairwise_iff_getElem.1 (h.climbs_ancestors a).pairwise many few hj hi hlt
    rw [hs, ht] at habove
    exact (h.climbs_ancestors t).not_cyclic (habove.trans_left hup)
  · subst heq
    exact hne (hs.symm.trans ht)

theorem findIdx?_ancestors_self (h : Hierarchy) (s : String) : (h.ancestors s).findIdx? (· == s) = some 0 := by
  obtain ⟨rest, hrest⟩ : ∃ rest, h.ancestors s = s :: rest := ⟨_, rfl⟩
  rw [hrest, List.findIdx?_cons, beq_self_eq_true]
  rfl

theorem reaches_of_findIdx? (hsteps : (h.ancestors s).findIdx? (· == t) = some steps) :
    Relation.ReflTransGen (Extends h.parent?) s t := by
  obtain ⟨hi, ht, _⟩ := List.findIdx?_eq_some_iff_getElem.1 hsteps
  exact mem_ancestors_iff.1 (eq_of_beq ht ▸ List.getElem_mem hi)

theorem pos_of_climb (hne : s ≠ t) (hsteps : (h.ancestors s).findIdx? (· == t) = some steps) : 0 < steps :=
  climb_lt (h.findIdx?_ancestors_self s) hsteps (reaches_of_findIdx? hsteps) hne

/-- Whether a parameter of one kind can be passed on to one of another. -/
def Converts (h : Hierarchy) (k k' : Kind) : Prop := ∃ cost, h.conversionCost? k k' = some cost

end Hierarchy

/-- For this argument the first of two parameter kinds is no cheaper than the second, though it is the narrower one. -/
inductive NoCheaper : Kind → Kind → Kind → Prop
  /-- Null costs the same everywhere. -/
  | null {narrower wider : Kind} (hne : narrower ≠ .null) : NoCheaper .null narrower wider
  /-- One step to an ancestor already costs what it costs to be passed as anything. -/
  | climb {s t : String} (hne : s ≠ t) : NoCheaper (.object s) (.object t) .any
  | unbox (p q : Primitive) : NoCheaper (.boxed p) (.primitive q) .any
  | widen {p q : Primitive} {steps : Nat} (hsteps : p.wideningSteps? q = some steps) (hfar : 2 ≤ steps) :
      NoCheaper (.primitive p) (.primitive q) .any
  /-- To box costs what one step of widening costs. -/
  | box {p q : Primitive} {steps : Nat} (hsteps : p.wideningSteps? q = some steps) (hnear : steps ≤ 1) :
      NoCheaper (.primitive p) (.boxed p) (.primitive q)
  | boxed (p : Primitive) : NoCheaper (.boxed p) (.primitive p) (.boxed p)

section Costs

variable {h : Hierarchy} {argument narrower wider k k' : Kind} {p q : Primitive} {s t : String}
  {few many up cost : Nat}

theorem wideningSteps?_of_conversion (hc : Conversion h (.primitive p) (.primitive q) cost) :
    p.wideningSteps? q = some cost := by
  cases hc with
  | same => exact p.wideningSteps?_self
  | widen _ hsteps => exact hsteps

theorem findIdx?_of_conversion (hc : Conversion h (.object s) (.object t) cost) :
    (h.ancestors s).findIdx? (· == t) = some cost := by
  cases hc with
  | same => exact h.findIdx?_ancestors_self s
  | climb _ hsteps => exact hsteps

/-- Only to be passed as the same kind is for free. -/
theorem Conversion.pos_of_ne (hc : Conversion h k k' cost) (hne : k ≠ k') : 0 < cost := by
  cases hc with
  | same => exact absurd rfl hne
  | widen hpq hsteps => exact Primitive.wideningSteps?_lt (Primitive.wideningSteps?_self _) hsteps hsteps hpq
  | climb hst hsteps => exact Hierarchy.pos_of_climb hst hsteps
  | box | unbox | null | primitiveToAny | boxedToAny | stringToAny | objectToAny => exact Nat.succ_pos _

/-- To the kind of the argument itself nothing is cheaper. -/
theorem NoCheaper.argument_ne (hno : NoCheaper argument narrower wider) : argument ≠ narrower := by
  rintro rfl
  cases hno with
  | null hne => exact hne rfl
  | climb hne => exact hne rfl
  | widen hsteps hfar =>
    cases (Primitive.wideningSteps?_self _).symm.trans hsteps
    exact absurd hfar (by decide)

/-- To widen by two steps costs no less than to be passed as anything. -/
theorem two_le_iff_noCheaper (hsteps : p.wideningSteps? q = some cost) :
    2 ≤ cost ↔ NoCheaper (.primitive p) (.primitive q) .any := by
  constructor
  · exact .widen hsteps
  · rintro (_ | _ | _ | ⟨hsteps', hfar⟩)
    cases hsteps.symm.trans hsteps'
    exact hfar

/-- To be boxed costs no less than to widen by one step. -/
theorem le_one_iff_noCheaper (hsteps : p.wideningSteps? q = some cost) :
    cost ≤ 1 ↔ NoCheaper (.primitive p) (.boxed p) (.primitive q) := by
  constructor
  · exact .box hsteps
  · rintro (_ | _ | _ | _ | ⟨hsteps', hnear⟩)
    cases hsteps.symm.trans hsteps'
    exact hnear

/-- The table makes the narrower of two parameter kinds the cheaper one, but for these exceptions. -/
theorem cost_le_iff_noCheaper (hn : Conversion h argument narrower few) (hw : Conversion h argument wider many)
    (hup : Conversion h narrower wider up) (hne : narrower ≠ wider) :
    many ≤ few ↔ NoCheaper argument narrower wider := by
  -- The cases are the rows by which the argument reaches the narrower kind, and in each those that lead on from there.
  cases hn with
  | same => exact iff_of_false (Nat.not_le.2 (hw.pos_of_ne hne)) fun hno => hno.argument_ne rfl
  | widen hdiffer hfew =>
    cases hup with
    | same => exact absurd rfl hne
    | widen hpq hsteps =>
      have hlt := Primitive.wideningSteps?_lt hfew (wideningSteps?_of_conversion hw) hsteps hpq
      exact iff_of_false (Nat.not_le.2 hlt) fun hno => by cases hno
    | box =>
      cases hw
      exact absurd rfl hdiffer
    | primitiveToAny =>
      cases hw
      exact two_le_iff_noCheaper hfew
  | box p =>
    cases hup with
    | same => exact absurd rfl hne
    | unbox => exact le_one_iff_noCheaper (wideningSteps?_of_conversion hw)
    | boxedToAny =>
      cases hw
      exact iff_of_false (by decide) fun hno => by cases hno
  | unbox hfew =>
    cases hup with
    | same => exact absurd rfl hne
    | widen hpq hsteps =>
      cases hw with
      | unbox hmany =>
        have hlt := Primitive.wideningSteps?_lt hfew hmany hsteps hpq
        exact iff_of_false (Nat.not_le.2 (Nat.succ_lt_succ hlt)) fun hno => by cases hno
    | box =>
      cases hw
      exact iff_of_true (Nat.zero_le _) (.boxed _)
    | primitiveToAny =>
      cases hw
      exact iff_of_true (Nat.succ_le_succ (Nat.zero_le _)) (.unbox _ _)
  | null _ hnull =>
    cases hw with
    | same =>
      -- Nothing but null itself is passed as null.
      cases hup <;> exact absurd rfl hnull
    | null => exact iff_of_true (Nat.le_refl _) (.null hnull)
  | climb hdiffer hfew =>
    cases hup with
    | same => exact absurd rfl hne
    | climb hst hsteps =>
      have hlt := Hierarchy.climb_lt hfew (findIdx?_of_conversion hw) (Hierarchy.reaches_of_findIdx? hsteps) hst
      exact iff_of_false (Nat.not_le.2 hlt) fun hno => by cases hno
    | objectToAny =>
      cases hw
      exact iff_of_true (Hierarchy.pos_of_climb hdiffer hfew) (.climb hdiffer)
  | primitiveToAny | boxedToAny | stringToAny | objectToAny =>
    cases hup
    exact absurd rfl hne

end Costs

end Interpose
