import Interpose.Proofs.Dispatch.Selection
import Mathlib.Data.Prod.Lex

/-!
# What overload selection decides

A method contends for a call at the place where it stands: the place of its group, and its own in the group. Which
contender wins is said of places and costs alone, without a search. The selection reports that there is no winner,
or that the winner stands in its group more than once, or it yields the winner.
-/

namespace Interpose

/-! ## Searching items that stand in order -/

section Order

variable {α ι : Type} [LinearOrder ι] {cost : α → Option Nat} {place : α → ι} {items : List α} {a : α} {c : Nat}

/-- Where the items stand in order, the cheapest one is least in cost and place. -/
theorem cheapestIn_iff_least (hsorted : items.Pairwise fun a b => place a < place b) :
    CheapestIn cost items a c ↔
      a ∈ items ∧ cost a = some c ∧
        ∀ b ∈ items, ∀ d, cost b = some d → toLex (c, place a) ≤ toLex (d, place b) := by
  constructor
  · intro h
    refine ⟨h.mem, h.cost_eq, ?_⟩
    induction h with
    | here hcost hrest =>
      obtain ⟨hlater, _⟩ := List.pairwise_cons.1 hsorted
      intro b hb d hd
      rcases List.mem_cons.1 hb with rfl | hb
      · rw [Option.some.inj (hcost.symm.trans hd)]
      · rw [Prod.Lex.toLex_le_toLex]
        exact (Nat.lt_or_eq_of_le (hrest b hb d hd)).imp_right fun heq => ⟨heq, (hlater b hb).le⟩
    | later hdear h ih =>
      obtain ⟨_, hsorted⟩ := List.pairwise_cons.1 hsorted
      intro b hb d hd
      rcases List.mem_cons.1 hb with rfl | hb
      · exact Prod.Lex.toLex_le_toLex.2 (.inl (hdear d hd))
      · exact ih hsorted b hb d hd
  · rintro ⟨hmem, hcost, hleast⟩
    induction items with
    | nil => cases hmem
    | cons b rest ih =>
      obtain ⟨hlater, hsorted⟩ := List.pairwise_cons.1 hsorted
      rcases List.mem_cons.1 hmem with rfl | hmem
      · refine .here hcost fun b hb d hd => ?_
        rcases Prod.Lex.toLex_le_toLex.1 (hleast b (List.mem_cons_of_mem _ hb) d hd) with hlt | ⟨heq, _⟩
        · exact Nat.le_of_lt hlt
        · exact Nat.le_of_eq heq
      · refine .later (fun d hd => ?_) (ih hsorted hmem fun e he => hleast e (List.mem_cons_of_mem _ he))
        -- An item before the cheapest one can not be as cheap, for it would be less by its place.
        rcases Prod.Lex.toLex_le_toLex.1 (hleast b List.mem_cons_self d hd) with hlt | ⟨_, hle⟩
        · exact hlt
        · exact absurd (hlater a hmem) (not_lt.2 hle)

end Order

/-- Beside an item that is kept, another one is kept as well if and only if more than one is. -/
theorem one_lt_length_filter_iff {α : Type} {keep : α → Bool} {items : List α} {place : Nat} {a : α}
    (ha : items[place]? = some a) (hkeep : keep a = true) :
    1 < (items.filter keep).length ↔ ∃ (other : Nat) (b : α), items[other]? = some b ∧ other ≠ place ∧ keep b = true := by
  induction items generalizing place with
  | nil => simp at ha
  | cons b rest ih =>
    cases place with
    | zero =>
      cases ha
      rw [List.filter_cons_of_pos hkeep, List.length_cons, Nat.lt_add_left_iff_pos, List.length_pos_iff_exists_mem]
      constructor
      · rintro ⟨e, he⟩
        obtain ⟨he, hk⟩ := List.mem_filter.1 he
        obtain ⟨i, hi⟩ := List.mem_iff_getElem?.1 he
        exact ⟨i + 1, e, hi, Nat.succ_ne_zero i, hk⟩
      · rintro ⟨_ | i, e, hi, hne, hk⟩
        · exact absurd rfl hne
        · exact ⟨e, List.mem_filter.2 ⟨List.mem_iff_getElem?.2 ⟨i, hi⟩, hk⟩⟩
    | succ place =>
      have ha : rest[place]? = some a := ha
      by_cases hb : keep b = true
      · have hpos : 0 < (rest.filter keep).length :=
          List.length_pos_iff_exists_mem.2 ⟨a, List.mem_filter.2 ⟨List.mem_iff_getElem?.2 ⟨place, ha⟩, hkeep⟩⟩
        rw [List.filter_cons_of_pos hb, List.length_cons]
        exact iff_of_true (Nat.succ_lt_succ hpos) ⟨0, b, rfl, (Nat.succ_ne_zero place).symm, hb⟩
      · rw [List.filter_cons_of_neg hb, ih ha]
        constructor
        · rintro ⟨i, e, hi, hne, hk⟩
          exact ⟨i + 1, e, hi, fun heq => hne (Nat.succ.inj heq), hk⟩
        · rintro ⟨_ | i, e, hi, hne, hk⟩
          · cases hi
            exact absurd hk hb
          · exact ⟨i, e, hi, fun heq => hne (congrArg Nat.succ heq), hk⟩

/-! ## Contenders and winners -/

/-- Arguments that are passed one by one to as many parameters, at a total cost. -/
inductive Passed (h : Hierarchy) : List Kind → List Kind → Nat → Prop
  | none : Passed h [] [] 0
  | next {argument parameter : Kind} {arguments parameters : List Kind} {cost total : Nat}
      (first : h.conversionCost? argument parameter = some cost) (rest : Passed h arguments parameters total) :
      Passed h (argument :: arguments) (parameter :: parameters) (cost + total)

theorem passed_iff {h : Hierarchy} {arguments parameters : List Kind} {total : Nat} :
    Passed h arguments parameters total ↔ h.totalCost? arguments parameters = some total := by
  constructor
  · intro hp
    induction hp with
    | none => rfl
    | next first _ ih => rw [Hierarchy.totalCost?, first, ih]
  · intro ht
    induction arguments generalizing parameters total with
    | nil =>
      cases parameters with
      | nil =>
        cases ht
        exact .none
      | cons => cases ht
    | cons argument arguments ih =>
      cases parameters with
      | nil => cases ht
      | cons parameter parameters =>
        rw [Hierarchy.totalCost?] at ht
        split at ht
        · rename_i first rest
          cases ht
          exact .next first (ih rest)
        · cases ht

namespace Criteria

/-- A method that takes part in a call, where it stands among the groups. -/
structure Contender (c : Criteria) (groups : List CandidateGroup) where
  group : CandidateGroup
  method : Method
  groupPlace : Nat
  place : Nat
  group_at : groups[groupPlace]? = some group
  method_at : group.2[place]? = some method
  name_eq : method.name = c.method.name
  isStatic_eq : method.isStatic = c.isStatic
  available : method.availableAt c.level = true

namespace Contender

variable {c : Criteria} {h : Hierarchy} {groups : List CandidateGroup} {x y : c.Contender groups}

/-- The place of the group comes first, then the one in the group. -/
def position (x : c.Contender groups) : Nat ×ₗ Nat := toLex (x.groupPlace, x.place)

/-- Whether the parameters are those of the call. -/
def Exact (x : c.Contender groups) : Prop := x.method.params = c.method.params

/-- Whether another contender stands in the same group with the same parameters. -/
def Repeated (x : c.Contender groups) : Prop :=
  ∃ y : c.Contender groups, y.groupPlace = x.groupPlace ∧ y.place ≠ x.place ∧ y.method.params = x.method.params

/-- The winner: the first contender with the parameters of the call. Where there is none and arguments may be
converted, the contender with the least total cost, and of several the first. -/
inductive Wins (h : Hierarchy) (x : c.Contender groups) : Prop
  | exact (exact : x.Exact) (first : ∀ y : c.Contender groups, y.Exact → x.position ≤ y.position)
  | converted (loose : c.loose = true) (inexact : ∀ y : c.Contender groups, ¬y.Exact) (total : Nat)
      (passed : Passed h c.method.params x.method.params total)
      (least : ∀ (y : c.Contender groups) (other : Nat), Passed h c.method.params y.method.params other →
        toLex (total, x.position) ≤ toLex (other, y.position))

/-- There is one contender at a place. -/
theorem eq_of_position_eq (heq : x.position = y.position) : x = y := by
  obtain ⟨group, method, i, k, hgroup, hmethod, _, _, _⟩ := x
  obtain ⟨group', method', i', k', hgroup', hmethod', _, _, _⟩ := y
  obtain ⟨rfl, rfl⟩ := Prod.mk.inj (toLex.injective heq)
  cases hgroup.symm.trans hgroup'
  cases hmethod.symm.trans hmethod'
  rfl

theorem considers (x : c.Contender groups) : c.considers x.method = true := by
  rw [Criteria.considers, x.name_eq, x.isStatic_eq, x.available]
  simp

theorem rank?_of_exact (hx : x.Exact) : c.rank? h x.method = some 0 := by
  unfold Exact at hx
  rw [rank?, if_pos x.considers, if_pos hx]

theorem rank?_eq_some_iff {rank : Nat} (hx : ¬x.Exact) :
    c.rank? h x.method = some rank ↔
      c.loose = true ∧ ∃ total, Passed h c.method.params x.method.params total ∧ total + 1 = rank := by
  unfold Exact at hx
  rw [rank?, if_pos x.considers, if_neg hx]
  split
  · rename_i hloose
    simp only [Option.map_eq_some_iff, passed_iff, hloose, true_and]
  · rename_i hloose
    simp [hloose]

theorem rank?_eq_of_params_eq (hparams : y.method.params = x.method.params) :
    c.rank? h y.method = c.rank? h x.method := by
  rw [rank?, rank?, if_pos y.considers, if_pos x.considers, hparams]

/-- To win is to be least in rank and place. -/
theorem wins_iff_least :
    x.Wins h ↔ ∃ rank, c.rank? h x.method = some rank ∧
      ∀ (y : c.Contender groups) (other : Nat), c.rank? h y.method = some other →
        toLex (rank, x.position) ≤ toLex (other, y.position) := by
  constructor
  · rintro (⟨hexact, hfirst⟩ | ⟨hloose, hinexact, total, hpassed, hleast⟩)
    · refine ⟨0, rank?_of_exact hexact, fun y other hy => Prod.Lex.toLex_le_toLex.2 ?_⟩
      by_cases hye : y.Exact
      · exact .inr ⟨Option.some.inj ((rank?_of_exact hye).symm.trans hy), hfirst y hye⟩
      · obtain ⟨_, total, _, rfl⟩ := (rank?_eq_some_iff hye).1 hy
        exact .inl (Nat.succ_pos total)
    · refine ⟨total + 1, (rank?_eq_some_iff (hinexact x)).2 ⟨hloose, total, hpassed, rfl⟩, fun y other hy => ?_⟩
      obtain ⟨_, total', hpassed', rfl⟩ := (rank?_eq_some_iff (hinexact y)).1 hy
      have hle := hleast y total' hpassed'
      rw [Prod.Lex.toLex_le_toLex] at hle ⊢
      simpa using hle
  · rintro ⟨rank, hrank, hleast⟩
    by_cases hexact : x.Exact
    · cases (rank?_of_exact hexact).symm.trans hrank
      refine .exact hexact fun y hy => ?_
      rcases Prod.Lex.toLex_le_toLex.1 (hleast y 0 (rank?_of_exact hy)) with hlt | ⟨_, hle⟩
      · exact absurd hlt (Nat.lt_irrefl 0)
      · exact hle
    · obtain ⟨hloose, total, hpassed, rfl⟩ := (rank?_eq_some_iff hexact).1 hrank
      have hinexact : ∀ y : c.Contender groups, ¬y.Exact := by
        intro y hy
        rcases Prod.Lex.toLex_le_toLex.1 (hleast y 0 (rank?_of_exact hy)) with hlt | ⟨heq, _⟩
        · exact absurd hlt (Nat.not_lt_zero _)
        · exact absurd heq (Nat.succ_ne_zero total)
      refine .converted hloose hinexact total hpassed fun y other hy => ?_
      have hle := hleast y (other + 1) ((rank?_eq_some_iff (hinexact y)).2 ⟨hloose, other, hy, rfl⟩)
      rw [Prod.Lex.toLex_le_toLex] at hle ⊢
      simpa using hle

end Contender

/-! ## The candidates and their places -/

variable {c : Criteria} {h : Hierarchy} {groups : List CandidateGroup} {group : CandidateGroup} {method : Method}
  {runtimeType : String}

/-- The candidates with their places, in order. -/
def placed (c : Criteria) (groups : List CandidateGroup) : List ((Nat ×ₗ Nat) × CandidateGroup × Method) :=
  groups.zipIdx.flatMap fun g =>
    (g.1.2.zipIdx.filter fun m => c.considers m.1).map fun m => (toLex (g.2, m.2), g.1, m.1)

theorem map_placed (c : Criteria) (groups : List CandidateGroup) :
    (c.placed groups).map (·.2) = c.candidates groups := by
  have hgroup : ∀ g : CandidateGroup × Nat,
      ((g.1.2.zipIdx.filter fun m => c.considers m.1).map fun m => (toLex (g.2, m.2), g.1, m.1)).map (·.2) =
        (g.1.2.filter c.considers).map (g.1, ·) := by
    intro g
    have hmethods : (g.1.2.zipIdx.filter fun m => c.considers m.1).map Prod.fst = g.1.2.filter c.considers := by
      conv_rhs => rw [← List.zipIdx_map_fst 0 g.1.2, List.filter_map]
      rfl
    rw [← hmethods, List.map_map, List.map_map]
    rfl
  rw [placed, List.map_flatMap, candidates]
  conv_rhs => rw [← List.zipIdx_map_fst 0 groups, List.flatMap_map]
  simp only [hgroup]

theorem pairwise_zipIdx {α : Type} (items : List α) : items.zipIdx.Pairwise fun a b => a.2 < b.2 := by
  have h : ((items.zipIdx).map Prod.snd).Pairwise (· < ·) := by
    rw [List.zipIdx_map_snd]
    exact List.pairwise_lt_range' 1
  exact List.pairwise_map.1 h

theorem pairwise_placed (c : Criteria) (groups : List CandidateGroup) :
    (c.placed groups).Pairwise fun a b => a.1 < b.1 := by
  rw [placed, List.pairwise_flatMap]
  constructor
  · intro g _
    refine List.pairwise_map.2 (((pairwise_zipIdx g.1.2).sublist List.filter_sublist).imp fun hlt => ?_)
    exact Prod.Lex.toLex_lt_toLex.2 (.inr ⟨rfl, hlt⟩)
  · refine (pairwise_zipIdx groups).imp fun hlt a ha b hb => ?_
    obtain ⟨m, _, rfl⟩ := List.mem_map.1 ha
    obtain ⟨n, _, rfl⟩ := List.mem_map.1 hb
    exact Prod.Lex.toLex_lt_toLex.2 (.inl hlt)

theorem Contender.mem_placed (x : c.Contender groups) : (x.position, x.group, x.method) ∈ c.placed groups := by
  refine List.mem_flatMap.2 ⟨(x.group, x.groupPlace), List.mem_zipIdx_iff_getElem?.2 x.group_at, ?_⟩
  refine List.mem_map.2 ⟨(x.method, x.place), List.mem_filter.2 ⟨?_, x.considers⟩, rfl⟩
  exact List.mem_zipIdx_iff_getElem?.2 x.method_at

theorem exists_contender {entry : (Nat ×ₗ Nat) × CandidateGroup × Method} (he : entry ∈ c.placed groups) :
    ∃ x : c.Contender groups, (x.position, x.group, x.method) = entry := by
  obtain ⟨⟨group, i⟩, hgroup, he⟩ := List.mem_flatMap.1 he
  obtain ⟨⟨method, k⟩, hmethod, rfl⟩ := List.mem_map.1 he
  obtain ⟨hmethod, hconsiders⟩ := List.mem_filter.1 hmethod
  simp only [considers, Bool.and_eq_true, beq_iff_eq] at hconsiders
  exact ⟨⟨group, method, i, k, List.mem_zipIdx_iff_getElem?.1 hgroup, List.mem_zipIdx_iff_getElem?.1 hmethod,
    hconsiders.1.1, hconsiders.1.2, hconsiders.2⟩, rfl⟩

/-- A contender wins if the search among the placed candidates ends at it. -/
theorem Contender.wins_iff {x : c.Contender groups} :
    x.Wins h ↔ ∃ rank,
      CheapestIn (fun e => c.rank? h e.2.2) (c.placed groups) (x.position, x.group, x.method) rank := by
  rw [wins_iff_least]
  refine exists_congr fun rank => ?_
  rw [cheapestIn_iff_least (pairwise_placed c groups)]
  constructor
  · rintro ⟨hrank, hleast⟩
    refine ⟨x.mem_placed, hrank, fun e he other hother => ?_⟩
    obtain ⟨y, rfl⟩ := exists_contender he
    exact hleast y other hother
  · rintro ⟨_, hrank, hleast⟩
    exact ⟨hrank, fun y other hother => hleast _ y.mem_placed other hother⟩

theorem Contender.wins_unique {x y : c.Contender groups} (hx : x.Wins h) (hy : y.Wins h) : x = y := by
  obtain ⟨_, hx⟩ := wins_iff.1 hx
  obtain ⟨_, hy⟩ := wins_iff.1 hy
  have heq := congrArg (·.1.1) (hx.unique hy)
  exact eq_of_position_eq heq

theorem winner?_eq_some_iff :
    c.winner? h groups = some (group, method) ↔
      ∃ x : c.Contender groups, x.Wins h ∧ x.group = group ∧ x.method = method := by
  rw [winner?_eq_cheapest?, ← map_placed, cheapest?_map, Option.map_map, Option.map_eq_some_iff]
  constructor
  · rintro ⟨⟨entry, rank⟩, hbest, hentry⟩
    have hcheapest := cheapest?_eq_some_iff.1 hbest
    obtain ⟨x, rfl⟩ := exists_contender hcheapest.mem
    cases hentry
    exact ⟨x, Contender.wins_iff.2 ⟨rank, hcheapest⟩, rfl, rfl⟩
  · rintro ⟨x, hwins, rfl, rfl⟩
    obtain ⟨rank, hcheapest⟩ := Contender.wins_iff.1 hwins
    exact ⟨((x.position, x.group, x.method), rank), cheapest?_eq_some_iff.2 hcheapest, rfl⟩

theorem winner?_eq_none_iff : c.winner? h groups = none ↔ ¬∃ x : c.Contender groups, x.Wins h := by
  rw [Option.eq_none_iff_forall_ne_some]
  constructor
  · rintro hnone ⟨x, hwins⟩
    exact hnone (x.group, x.method) (winner?_eq_some_iff.2 ⟨x, hwins, rfl, rfl⟩)
  · rintro hnone ⟨group, method⟩ hsome
    obtain ⟨x, hwins, _⟩ := winner?_eq_some_iff.1 hsome
    exact hnone ⟨x, hwins⟩

/-- There is a winner as soon as a contender has the parameters of the call, or the arguments may be converted to its
parameters. -/
theorem exists_wins_iff :
    (∃ x : c.Contender groups, x.Wins h) ↔
      ∃ x : c.Contender groups, x.Exact ∨ c.loose = true ∧ ∃ total, Passed h c.method.params x.method.params total := by
  constructor
  · rintro ⟨x, hwins⟩
    cases hwins with
    | exact hexact _ => exact ⟨x, .inl hexact⟩
    | converted hloose _ total hpassed _ => exact ⟨x, .inr ⟨hloose, total, hpassed⟩⟩
  · rintro ⟨x, hx⟩
    have hranked : c.rank? h x.method ≠ none := by
      by_cases hexact : x.Exact
      · rw [Contender.rank?_of_exact hexact]
        exact Option.some_ne_none 0
      · obtain ⟨hloose, total, hpassed⟩ := hx.resolve_left hexact
        rw [(Contender.rank?_eq_some_iff hexact).2 ⟨hloose, total, hpassed, rfl⟩]
        exact Option.some_ne_none _
    by_contra hnone
    have hwinner := winner?_eq_none_iff.2 hnone
    rw [winner?_eq_cheapest?, ← map_placed, cheapest?_map, Option.map_map, Option.map_eq_none_iff,
      cheapest?_eq_none_iff] at hwinner
    exact hranked (hwinner _ x.mem_placed)

/-- A winner has rivals if it is repeated in its group. -/
theorem Contender.one_lt_rivals_iff (x : c.Contender groups) :
    1 < (c.rivals x.group x.method).length ↔ x.Repeated := by
  rw [rivals, List.length_map, List.filter_filter]
  rw [one_lt_length_filter_iff x.method_at (by simp [x.considers])]
  constructor
  · rintro ⟨place, method, hat, hne, hkeep⟩
    simp only [Criteria.considers, Bool.and_eq_true, decide_eq_true_eq, beq_iff_eq] at hkeep
    exact ⟨⟨x.group, method, x.groupPlace, place, x.group_at, hat, hkeep.2.1.1, hkeep.2.1.2, hkeep.2.2⟩, rfl, hne,
      hkeep.1⟩
  · rintro ⟨y, hgroup, hne, hparams⟩
    have hgroups : y.group = x.group := by
      have hat := y.group_at
      rw [hgroup, x.group_at] at hat
      exact (Option.some.inj hat).symm
    refine ⟨y.place, y.method, hgroups ▸ y.method_at, hne, ?_⟩
    simp [y.considers, hparams]

/-- What a nearer group declares again with the same parameters does not win. -/
theorem Contender.not_wins_of_nearer {x y : c.Contender groups} (hnear : y.groupPlace < x.groupPlace)
    (hparams : y.method.params = x.method.params) : ¬x.Wins h := by
  intro hwins
  obtain ⟨rank, hrank, hleast⟩ := wins_iff_least.1 hwins
  have hle := hleast y rank ((rank?_eq_of_params_eq hparams).trans hrank)
  have hfirst : x.position ≤ y.position := by
    rcases Prod.Lex.toLex_le_toLex.1 hle with hlt | ⟨_, hle⟩
    · exact absurd hlt (Nat.lt_irrefl rank)
    · exact hle
  exact absurd hfirst (not_le.2 (Prod.Lex.toLex_lt_toLex.2 (.inl hnear)))

/-- The error of a call whose winner is repeated lists all its declarations. -/
def Contender.ambiguity (x : c.Contender groups) (runtimeType : String) : Error :=
  .ambiguous runtimeType c.method.name
    ((x.group.2.filter fun m => m.params = x.method.params && c.considers m).map fun m =>
      x.group.1 ++ "::" ++ m.signature)

theorem map_text_rivals (c : Criteria) (group : CandidateGroup) (winner : Method) :
    (c.rivals group winner).map (·.text) =
      (group.2.filter fun m => m.params = winner.params && c.considers m).map fun m =>
        group.1 ++ "::" ++ m.signature := by
  rw [rivals, List.map_map, List.filter_filter]
  rfl

theorem select_of_no_winner (hnone : ¬∃ x : c.Contender groups, x.Wins h) (runtimeType : String) :
    c.select h groups runtimeType = .ok none := by
  rw [select, winner?_eq_none_iff.2 hnone]

theorem select_of_repeated {x : c.Contender groups} (hwins : x.Wins h) (hx : x.Repeated) (runtimeType : String) :
    c.select h groups runtimeType = .error (x.ambiguity runtimeType) := by
  rw [select, winner?_eq_some_iff.2 ⟨x, hwins, rfl, rfl⟩]
  simp only [if_pos (x.one_lt_rivals_iff.2 hx), map_text_rivals]
  rfl

theorem select_of_wins {x : c.Contender groups} (hwins : x.Wins h) (hx : ¬x.Repeated) (runtimeType : String) :
    c.select h groups runtimeType = .ok (some ⟨x.group.1, x.method⟩) := by
  rw [select, winner?_eq_some_iff.2 ⟨x, hwins, rfl, rfl⟩]
  exact if_neg fun hrivals => hx (x.one_lt_rivals_iff.1 hrivals)

/-- A selected target is a winner that is not repeated. -/
theorem exists_wins_of_select {target : Target} (hs : c.select h groups runtimeType = .ok (some target)) :
    ∃ x : c.Contender groups, x.Wins h ∧ ¬x.Repeated ∧ target = ⟨x.group.1, x.method⟩ := by
  unfold select at hs
  split at hs
  · cases hs
  · rename_i group winner hw
    obtain ⟨x, hwins, rfl, rfl⟩ := winner?_eq_some_iff.1 hw
    split at hs
    · cases hs
    · rename_i hrivals
      cases hs
      exact ⟨x, hwins, fun hx => hrivals (x.one_lt_rivals_iff.2 hx), rfl⟩

theorem isStatic_of_select {target : Target} (hs : c.select h groups runtimeType = .ok (some target)) :
    target.method.isStatic = c.isStatic := by
  obtain ⟨x, _, _, rfl⟩ := exists_wins_of_select hs
  exact x.isStatic_eq

/-- Beside a contender that is not repeated, its group has no other method for the call with its parameters. -/
theorem Contender.eq_of_not_repeated {x : c.Contender groups} (hx : ¬x.Repeated) (hmem : method ∈ x.group.2)
    (hconsiders : c.considers method = true) (hparams : method.params = x.method.params) : method = x.method := by
  obtain ⟨place, hat⟩ := List.mem_iff_getElem?.1 hmem
  simp only [Criteria.considers, Bool.and_eq_true, beq_iff_eq] at hconsiders
  by_cases hplace : place = x.place
  · rw [hplace, x.method_at] at hat
    exact (Option.some.inj hat).symm
  · exact absurd ⟨⟨x.group, method, x.groupPlace, place, x.group_at, hat, hconsiders.1.1, hconsiders.1.2, hconsiders.2⟩,
      rfl, hplace, hparams⟩ hx

/-- Selection by its winner: none without one, an error that lists all declarations of a repeated one, and otherwise
the winner itself. There is a winner if a method has the parameters of the call or may take its arguments converted,
there is no second one, and none that a nearer group declares again with its parameters. -/
theorem select_by_winner (c : Criteria) (h : Hierarchy) (groups : List CandidateGroup) (runtimeType : String) :
    (c.select h groups runtimeType = .ok none ↔ ¬∃ x : c.Contender groups, x.Wins h) ∧
    (∀ e, c.select h groups runtimeType = .error e ↔
      ∃ x : c.Contender groups, x.Wins h ∧ x.Repeated ∧ e = x.ambiguity runtimeType) ∧
    (∀ target, c.select h groups runtimeType = .ok (some target) ↔
      ∃ x : c.Contender groups, x.Wins h ∧ ¬x.Repeated ∧ target = ⟨x.group.1, x.method⟩) ∧
    ((∃ x : c.Contender groups, x.Wins h) ↔
      ∃ x : c.Contender groups, x.Exact ∨ c.loose = true ∧ ∃ total, Passed h c.method.params x.method.params total) ∧
    (∀ x y : c.Contender groups, x.Wins h → y.Wins h → x = y) ∧
    ∀ x y : c.Contender groups, y.groupPlace < x.groupPlace → y.method.params = x.method.params → ¬x.Wins h := by
  -- One of the three outcomes is the case, and they exclude each other.
  have hcases : (¬∃ x : c.Contender groups, x.Wins h) ∨ (∃ x : c.Contender groups, x.Wins h ∧ x.Repeated) ∨
      ∃ x : c.Contender groups, x.Wins h ∧ ¬x.Repeated := by
    by_cases hwinner : ∃ x : c.Contender groups, x.Wins h
    · obtain ⟨x, hwins⟩ := hwinner
      exact .inr ((em x.Repeated).imp (fun hx => ⟨x, hwins, hx⟩) fun hx => ⟨x, hwins, hx⟩)
    · exact .inl hwinner
  refine ⟨⟨fun hs => ?none, fun hnone => select_of_no_winner hnone runtimeType⟩, fun e => ⟨fun hs => ?ambiguous, ?_⟩,
    fun target => ⟨fun hs => ?selected, ?_⟩, exists_wins_iff, fun _ _ => Contender.wins_unique,
    fun _ _ => Contender.not_wins_of_nearer⟩
  case none =>
    obtain hnone | ⟨x, hwins, hx⟩ | ⟨x, hwins, hx⟩ := hcases
    · exact hnone
    · cases (select_of_repeated hwins hx runtimeType).symm.trans hs
    · cases (select_of_wins hwins hx runtimeType).symm.trans hs
  case ambiguous =>
    obtain hnone | ⟨x, hwins, hx⟩ | ⟨x, hwins, hx⟩ := hcases
    · cases (select_of_no_winner hnone runtimeType).symm.trans hs
    · cases (select_of_repeated hwins hx runtimeType).symm.trans hs
      exact ⟨x, hwins, hx, rfl⟩
    · cases (select_of_wins hwins hx runtimeType).symm.trans hs
  case selected =>
    obtain hnone | ⟨x, hwins, hx⟩ | ⟨x, hwins, hx⟩ := hcases
    · cases (select_of_no_winner hnone runtimeType).symm.trans hs
    · cases (select_of_repeated hwins hx runtimeType).symm.trans hs
    · cases (select_of_wins hwins hx runtimeType).symm.trans hs
      exact ⟨x, hwins, hx, rfl⟩
  · rintro ⟨x, hwins, hx, rfl⟩
    exact select_of_repeated hwins hx runtimeType
  · rintro ⟨x, hwins, hx, rfl⟩
    exact select_of_wins hwins hx runtimeType

end Criteria

end Interpose
