import Interpose.Call.Overload
import Interpose.Distinct
import Mathlib.Data.List.Basic

/-!
# Overload selection as one search

Selecting an overload is one search for a cheapest candidate, in which exact parameters rank before every
conversion. What the search ends at is told by its place: all candidates before it are dearer, and none after it
is cheaper. Hence it is found again when other candidates are left out, and when only the first one of each key
is kept.
-/

namespace Interpose

variable {α β : Type} {cost : α → Option Nat} {items : List α} {a b : α} {c d : Nat}

/-! ## The place of the cheapest item -/

/-- An item and its cost in a list where all items before it are dearer and none after it is cheaper. Items without
a cost do not count. -/
inductive CheapestIn (cost : α → Option Nat) : List α → α → Nat → Prop
  | here {a : α} {c : Nat} {rest : List α} (h : cost a = some c) (hrest : ∀ b ∈ rest, ∀ d, cost b = some d → c ≤ d) :
      CheapestIn cost (a :: rest) a c
  | later {a b : α} {c : Nat} {rest : List α} (hdear : ∀ d, cost b = some d → c < d)
      (h : CheapestIn cost rest a c) : CheapestIn cost (b :: rest) a c

namespace CheapestIn

theorem cost_eq (h : CheapestIn cost items a c) : cost a = some c := by
  induction h with
  | here h _ => exact h
  | later _ _ ih => exact ih

theorem mem (h : CheapestIn cost items a c) : a ∈ items := by
  induction h with
  | here => exact List.mem_cons_self
  | later _ _ ih => exact List.mem_cons_of_mem _ ih

theorem le (h : CheapestIn cost items a c) (hb : b ∈ items) (hd : cost b = some d) : c ≤ d := by
  induction h with
  | here h hrest =>
    rcases List.mem_cons.1 hb with rfl | hb
    · exact Nat.le_of_eq (Option.some.inj (h.symm.trans hd))
    · exact hrest b hb d hd
  | later hdear _ ih =>
    rcases List.mem_cons.1 hb with rfl | hb
    · exact Nat.le_of_lt (hdear d hd)
    · exact ih hb

/-- There is one cheapest item: of several with the least cost, the first. -/
theorem unique (h : CheapestIn cost items a c) (h' : CheapestIn cost items b d) : (a, c) = (b, d) := by
  induction h with
  | here h hrest =>
    cases h' with
    | here h' _ => rw [Option.some.inj (h.symm.trans h')]
    | later hdear h' => exact absurd (hdear _ h) (Nat.not_lt.2 (hrest _ h'.mem _ h'.cost_eq))
  | later hdear h ih =>
    cases h' with
    | here h' hrest' => exact absurd (hdear _ h') (Nat.not_lt.2 (hrest' _ h.mem _ h.cost_eq))
    | later _ h' => exact ih h'

end CheapestIn

theorem cheapest?_eq_none_iff : cheapest? cost items = none ↔ ∀ a ∈ items, cost a = none := by
  induction items with
  | nil => simp [cheapest?]
  | cons b rest ih =>
    rw [List.forall_mem_cons, ← ih, cheapest?]
    cases hb : cost b with
    | none => simp
    | some d =>
      cases cheapest? cost rest with
      | none => simp
      | some best =>
        simp only [reduceCtorEq, false_and, iff_false]
        split <;> exact Option.some_ne_none _

theorem cheapestIn_of_cheapest?_eq (h : cheapest? cost items = some (a, c)) : CheapestIn cost items a c := by
  induction items generalizing a c with
  | nil => cases h
  | cons b rest ih =>
    rw [cheapest?] at h
    cases hb : cost b with
    | none =>
      rw [hb] at h
      have hfree : ∀ d, cost b = some d → c < d := by
        intro d hd
        rw [hb] at hd
        cases hd
      exact .later hfree (ih h)
    | some d =>
      rw [hb] at h
      cases hrest : cheapest? cost rest with
      | none =>
        rw [hrest] at h
        cases h
        refine .here hb fun e he d' hd' => ?_
        rw [cheapest?_eq_none_iff.1 hrest e he] at hd'
        cases hd'
      | some best =>
        obtain ⟨e, d'⟩ := best
        rw [hrest] at h
        simp only at h
        by_cases hlt : d' < d
        · rw [if_pos hlt] at h
          cases h
          refine .later (fun d₂ hd₂ => ?_) (ih hrest)
          rwa [← Option.some.inj (hb.symm.trans hd₂)]
        · rw [if_neg hlt] at h
          cases h
          exact .here hb fun e' he' d₂ hd₂ => Nat.le_trans (Nat.not_lt.1 hlt) ((ih hrest).le he' hd₂)

/-- The search ends at the cheapest item and its cost. -/
theorem cheapest?_eq_some_iff : cheapest? cost items = some (a, c) ↔ CheapestIn cost items a c := by
  refine ⟨cheapestIn_of_cheapest?_eq, fun h => ?_⟩
  cases hc : cheapest? cost items with
  | none =>
    have hnone := cheapest?_eq_none_iff.1 hc a h.mem
    rw [h.cost_eq] at hnone
    cases hnone
  | some best => rw [h.unique (cheapestIn_of_cheapest?_eq hc)]

/-! ## Other lists with the same cheapest item -/

namespace CheapestIn

/-- Leaving out other items. -/
theorem filter {keep : α → Bool} (h : CheapestIn cost items a c) (ha : keep a = true) :
    CheapestIn cost (items.filter keep) a c := by
  induction h with
  | here h hrest =>
    rw [List.filter_cons_of_pos ha]
    exact .here h fun b hb => hrest b (List.mem_of_mem_filter hb)
  | @later a b c rest hdear _ ih =>
    by_cases hb : keep b = true
    · rw [List.filter_cons_of_pos hb]
      exact .later hdear (ih ha)
    · rw [List.filter_cons_of_neg hb]
      exact ih ha

/-- Keeping the first item of each key, where the key settles the cost. -/
theorem firstPerKey {κ : Type} [DecidableEq κ] (key : α → κ) (h : CheapestIn cost items a c)
    (hkey : ∀ a ∈ items, ∀ b ∈ items, key a = key b → cost a = cost b) :
    CheapestIn cost (firstPerKey key items) a c := by
  induction h with
  | here h hrest =>
    exact .here h fun b hb => hrest b (mem_of_mem_firstPerKey (List.mem_of_mem_filter hb))
  | @later a b c rest hdear h ih =>
    have hrest := ih fun a ha b hb => hkey a (List.mem_cons_of_mem _ ha) b (List.mem_cons_of_mem _ hb)
    refine .later hdear (hrest.filter ?_)
    -- An earlier item with the key of the cheapest one would be as cheap.
    have hne : key a ≠ key b := by
      intro heq
      have hcost := hkey a (List.mem_cons_of_mem _ h.mem) b List.mem_cons_self heq
      exact Nat.lt_irrefl c (hdear c (hcost.symm.trans h.cost_eq))
    simpa using hne

end CheapestIn

theorem cheapest?_congr {cost' : α → Option Nat} (h : ∀ a ∈ items, cost a = cost' a) :
    cheapest? cost items = cheapest? cost' items := by
  induction items with
  | nil => rfl
  | cons b rest ih =>
    rw [cheapest?, cheapest?, h b List.mem_cons_self, ih fun a ha => h a (List.mem_cons_of_mem _ ha)]

theorem cheapest?_filter {keep : α → Bool} (h : ∀ a ∈ items, keep a = false → cost a = none) :
    cheapest? cost (items.filter keep) = cheapest? cost items := by
  induction items with
  | nil => rfl
  | cons b rest ih =>
    have hrest := ih fun a ha => h a (List.mem_cons_of_mem _ ha)
    by_cases hb : keep b = true
    · rw [List.filter_cons_of_pos hb, cheapest?, cheapest?, hrest]
    · have hnone := h b List.mem_cons_self (Bool.eq_false_iff.2 hb)
      rw [List.filter_cons_of_neg hb, hrest, cheapest?, hnone]

theorem cheapest?_map {cost : β → Option Nat} (f : α → β) (items : List α) :
    cheapest? cost (items.map f) = (cheapest? (fun a => cost (f a)) items).map fun best => (f best.1, best.2) := by
  induction items with
  | nil => rfl
  | cons b rest ih =>
    rw [List.map_cons, cheapest?, cheapest?, ih]
    cases cost (f b) with
    | none => rfl
    | some d =>
      cases cheapest? (fun a => cost (f a)) rest with
      | none => rfl
      | some best =>
        simp only [Option.map_some]
        split <;> rfl

/-- Raising all costs alike leaves the cheapest item where it is. -/
theorem cheapest?_map_succ (cost : α → Option Nat) (items : List α) :
    cheapest? (fun a => (cost a).map (· + 1)) items =
      (cheapest? cost items).map fun best => (best.1, best.2 + 1) := by
  induction items with
  | nil => rfl
  | cons b rest ih =>
    rw [cheapest?, cheapest?, ih]
    cases cost b with
    | none => rfl
    | some d =>
      cases cheapest? cost rest with
      | none => rfl
      | some best =>
        simp only [Option.map_some, Nat.add_lt_add_iff_right]
        split <;> rfl

/-- The first item that costs nothing is the cheapest one. -/
theorem cheapestIn_of_find? {free : α → Bool} (h : items.find? free = some a)
    (hfree : ∀ a ∈ items, free a = true → cost a = some 0)
    (hrest : ∀ a ∈ items, ∀ d, free a = false → cost a = some d → 0 < d) : CheapestIn cost items a 0 := by
  induction items with
  | nil => cases h
  | cons b rest ih =>
    by_cases hb : free b = true
    · rw [List.find?_cons_of_pos hb] at h
      cases h
      exact .here (hfree a List.mem_cons_self hb) fun _ _ _ _ => Nat.zero_le _
    · rw [List.find?_cons_of_neg hb] at h
      have hlater := ih h (fun a ha => hfree a (List.mem_cons_of_mem _ ha))
        fun a ha => hrest a (List.mem_cons_of_mem _ ha)
      exact .later (fun d hd => hrest b List.mem_cons_self d (Bool.eq_false_iff.2 hb) hd) hlater

/-! ## Overloads -/

/-- The methods of candidate groups, each with the id of its group. -/
def targetsOf (groups : List CandidateGroup) : List Target :=
  groups.flatMap fun g => g.2.map (⟨g.1, ·⟩)

namespace Criteria

variable {c : Criteria} {h : Hierarchy} {groups : List CandidateGroup} {target : Target} {runtimeType : String}

/-- How dear it is to let a method take the call: exact parameters come before every conversion. -/
def rank? (c : Criteria) (h : Hierarchy) (m : Method) : Option Nat :=
  if c.considers m then
    if m.params = c.method.params then some 0
    else if c.loose then (h.totalCost? c.method.params m.params).map (· + 1) else none
  else none

theorem considers_of_rank?_eq_some {m : Method} {rank : Nat} (hr : c.rank? h m = some rank) :
    c.considers m = true := by
  by_contra hc
  rw [rank?, if_neg hc] at hr
  cases hr

/-- The target that takes the call, if any does, whether or not its group declares it twice. -/
def best? (c : Criteria) (h : Hierarchy) (targets : List Target) : Option Target :=
  (cheapest? (fun t => c.rank? h t.method) targets).map (·.1)

theorem best?_eq_some_iff {targets : List Target} :
    c.best? h targets = some target ↔ ∃ rank, CheapestIn (fun t => c.rank? h t.method) targets target rank := by
  unfold best?
  rw [Option.map_eq_some_iff]
  constructor
  · rintro ⟨⟨t, rank⟩, hbest, rfl⟩
    exact ⟨rank, cheapest?_eq_some_iff.1 hbest⟩
  · rintro ⟨rank, hbest⟩
    exact ⟨(target, rank), cheapest?_eq_some_iff.2 hbest, rfl⟩

theorem considers_of_mem_candidates {x : CandidateGroup × Method} (hx : x ∈ c.candidates groups) :
    c.considers x.2 = true := by
  obtain ⟨g, _, hx⟩ := List.mem_flatMap.1 hx
  obtain ⟨m, hm, rfl⟩ := List.mem_map.1 hx
  exact List.of_mem_filter hm

/-- The two searches for a winner, one after the other, come to one search by rank. -/
theorem winner?_eq_cheapest? (c : Criteria) (h : Hierarchy) (groups : List CandidateGroup) :
    c.winner? h groups = (cheapest? (fun x => c.rank? h x.2) (c.candidates groups)).map (·.1) := by
  unfold winner?
  cases hi : c.identical? groups with
  | some winner =>
    have hbest : CheapestIn (fun x => c.rank? h x.2) (c.candidates groups) winner 0 := by
      refine cheapestIn_of_find? hi (fun x hx hexact => ?_) fun x hx d hexact hd => ?_
      · rw [rank?, if_pos (considers_of_mem_candidates hx), if_pos (of_decide_eq_true hexact)]
      · rw [rank?, if_pos (considers_of_mem_candidates hx), if_neg (of_decide_eq_false hexact)] at hd
        split at hd
        · obtain ⟨cost, _, rfl⟩ := Option.map_eq_some_iff.1 hd
          exact Nat.succ_pos cost
        · cases hd
    rw [cheapest?_eq_some_iff.2 hbest]
    rfl
  | none =>
    have hexact : ∀ x ∈ c.candidates groups, ¬x.2.params = c.method.params := by
      intro x hx
      simpa using List.find?_eq_none.1 hi x hx
    cases hloose : c.loose with
    | true =>
      have hrank : ∀ x ∈ c.candidates groups,
          c.rank? h x.2 = (h.totalCost? c.method.params x.2.params).map (· + 1) := by
        intro x hx
        rw [rank?, if_pos (considers_of_mem_candidates hx), if_neg (hexact x hx), hloose, if_pos rfl]
      rw [cheapest?_congr hrank, cheapest?_map_succ, Option.map_map]
      rfl
    | false =>
      have hrank : ∀ x ∈ c.candidates groups, c.rank? h x.2 = none := by
        intro x hx
        rw [rank?, if_pos (considers_of_mem_candidates hx), if_neg (hexact x hx), hloose]
        rfl
      rw [cheapest?_eq_none_iff.2 hrank]
      rfl

theorem mem_of_winner? {group : CandidateGroup} {winner : Method}
    (hw : c.winner? h groups = some (group, winner)) : group ∈ groups := by
  rw [winner?_eq_cheapest?, Option.map_eq_some_iff] at hw
  obtain ⟨⟨x, rank⟩, hbest, rfl⟩ := hw
  obtain ⟨g, hg, hx⟩ := List.mem_flatMap.1 (cheapest?_eq_some_iff.1 hbest).mem
  obtain ⟨m, _, hm⟩ := List.mem_map.1 hx
  cases hm
  exact hg

theorem map_candidates (c : Criteria) (groups : List CandidateGroup) :
    (c.candidates groups).map (fun x => (⟨x.1.1, x.2⟩ : Target)) =
      (targetsOf groups).filter fun t => c.considers t.method := by
  unfold candidates targetsOf
  rw [List.map_flatMap, List.filter_flatMap]
  congr 1
  funext g
  rw [List.map_map, List.filter_map]
  rfl

/-- The winner, as a target, is the best of all targets in the groups. -/
theorem winner?_map (c : Criteria) (h : Hierarchy) (groups : List CandidateGroup) :
    (c.winner? h groups).map (fun x => (⟨x.1.1, x.2⟩ : Target)) = c.best? h (targetsOf groups) := by
  have hnone : ∀ t ∈ targetsOf groups, c.considers t.method = false → c.rank? h t.method = none := by
    intro t _ ht
    rw [rank?, ht]
    rfl
  rw [best?, ← cheapest?_filter hnone, ← map_candidates, cheapest?_map, winner?_eq_cheapest?, Option.map_map,
    Option.map_map]
  rfl

theorem best?_of_select (hs : c.select h groups runtimeType = .ok (some target)) :
    c.best? h (targetsOf groups) = some target := by
  rw [← winner?_map]
  unfold select at hs
  split at hs
  · cases hs
  · rename_i group winner hw
    split at hs
    · cases hs
    · cases hs
      rw [hw]
      rfl

/-- Where no group has more than one method, no call is ambiguous. -/
theorem select_of_singletons (hsingle : ∀ g ∈ groups, g.2.length ≤ 1) (runtimeType : String) :
    c.select h groups runtimeType = .ok (c.best? h (targetsOf groups)) := by
  rw [← winner?_map]
  unfold select
  cases hw : c.winner? h groups with
  | none => rfl
  | some w =>
    obtain ⟨group, winner⟩ := w
    have hgroup : group ∈ groups := mem_of_winner? hw
    have hrivals : ¬1 < (c.rivals group winner).length := by
      rw [rivals, List.length_map]
      have hle := (List.filter_sublist (p := (·.params = winner.params)) (l := group.2.filter c.considers)).trans
        List.filter_sublist
      exact Nat.not_lt.2 (Nat.le_trans hle.length_le (hsingle group hgroup))
    simp only [if_neg hrivals]
    rfl

end Criteria

end Interpose
