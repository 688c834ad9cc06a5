import Interpose.Proofs.Dispatch.Steps
import Interpose.Proofs.Dispatch.Winners
import Interpose.Proofs.Hierarchy.Conversions
import Mathlib.Data.List.Forall2

/-!
# How far selection prefers the more specific method

A method is more specific than another one if its parameters convert to those of the other one and not back. Selection
adds up costs and knows nothing of this. Where the costs follow it, kind by kind, the more specific method is the cheaper
one and wins. So a selected method can have a more specific rival only if the two differ in a parameter that is no
cheaper for being narrower; and wherever a single parameter is of that sort, declaring the wider method first makes
it win.
-/

namespace Interpose

/-- The parameters of one method convert to those of another one, and not all of them back. -/
def MoreSpecific (h : Hierarchy) (params others : List Kind) : Prop :=
  List.Forall₂ h.Converts params others ∧ ¬List.Forall₂ h.Converts others params

/-- At a place where the parameters differ the narrower one is no cheaper for the argument. -/
def NoCheaperAt (arguments narrower wider : List Kind) (place : Nat) : Prop :=
  ∃ a n w, arguments[place]? = some a ∧ narrower[place]? = some n ∧ wider[place]? = some w ∧ n ≠ w ∧ NoCheaper a n w

section Lists

variable {h : Hierarchy} {arguments narrower wider params : List Kind} {few many place : Nat} {a n w : Kind}

theorem Hierarchy.Converts.refl (h : Hierarchy) (k : Kind) : h.Converts k k := ⟨0, if_pos rfl⟩

theorem MoreSpecific.ne (hs : MoreSpecific h narrower wider) : narrower ≠ wider := by
  rintro rfl
  exact hs.2 (List.forall₂_same.2 fun k _ => .refl h k)

theorem Passed.total_unique (hp : Passed h arguments params few) (hp' : Passed h arguments params many) : few = many :=
  Option.some.inj ((passed_iff.1 hp).symm.trans (passed_iff.1 hp'))

theorem Passed.converts (hp : Passed h arguments params few) : List.Forall₂ h.Converts arguments params := by
  induction hp with
  | none => exact .nil
  | next hfirst _ ih => exact .cons ⟨_, hfirst⟩ ih

/-- If parameters that convert to other ones are no cheaper in total, there is one among them that is not by itself. -/
theorem exists_noCheaperAt (hn : Passed h arguments narrower few) (hw : Passed h arguments wider many)
    (hup : List.Forall₂ h.Converts narrower wider) (hne : narrower ≠ wider) (hle : many ≤ few) :
    ∃ place, NoCheaperAt arguments narrower wider place := by
  induction hn generalizing wider many with
  | none =>
    cases hup
    exact absurd rfl hne
  | @next a n arguments narrower cost total hfirst hrest ih =>
    cases hw with
    | @next _ w _ wider cost' total' hfirst' hrest' =>
      obtain ⟨⟨_, hhead⟩, htail⟩ := List.forall₂_cons.1 hup
      by_cases hsame : n = w
      · subst hsame
        cases hfirst.symm.trans hfirst'
        obtain ⟨place, hplace⟩ := ih hrest' htail (fun heq => hne (congrArg (n :: ·) heq)) (by omega)
        exact ⟨place + 1, hplace⟩
      · by_cases hno : NoCheaper a n w
        · exact ⟨0, a, n, w, rfl, rfl, rfl, hsame, hno⟩
        · -- What is saved here has to be lost again further on.
          have hlt : cost < cost' := by
            rw [conversionCost?_eq_some_iff] at hfirst hfirst' hhead
            exact Nat.lt_of_not_le fun hle => hno ((cost_le_iff_noCheaper hfirst hfirst' hhead hsame).1 hle)
          have hrest_ne : narrower ≠ wider := by
            rintro rfl
            have htotal := hrest.total_unique hrest'
            omega
          obtain ⟨place, hplace⟩ := ih hrest' htail hrest_ne (by omega)
          exact ⟨place + 1, hplace⟩

end Lists

namespace Criteria

variable {c : Criteria} {h : Hierarchy} {groups : List CandidateGroup} {runtimeType : String}
  {x y : c.Contender groups}

/-- Against a winner a more specific method that takes the arguments as well is no cheaper. -/
theorem Contender.Wins.exists_noCheaperAt {few : Nat} (hx : x.Wins h)
    (hy : Passed h c.method.params y.method.params few) (hs : MoreSpecific h y.method.params x.method.params) :
    ∃ place, NoCheaperAt c.method.params y.method.params x.method.params place := by
  cases hx with
  | exact hexact _ =>
    -- What the arguments are passed to, the parameters of the winner convert to as well, being the same kinds.
    rw [Contender.Exact] at hexact
    rw [← hexact] at hy
    exact absurd hy.converts hs.2
  | converted _ _ total hpassed hleast =>
    have hle : total ≤ few := by
      obtain hlt | ⟨heq, _⟩ := Prod.Lex.toLex_le_toLex.1 (hleast y few hy)
      · exact Nat.le_of_lt hlt
      · exact Nat.le_of_eq heq
    exact Interpose.exists_noCheaperAt hy hpassed hs.1 hs.ne hle

section Pair

variable {wide narrow : Method} {argument narrower wider : Kind} {few many : Nat}
  (hargument : c.method.params = [argument]) (hwide : c.considers wide = true) (hnarrow : c.considers narrow = true)
  (hw : wide.params = [wider]) (hn : narrow.params = [narrower]) (hinexact : wider ≠ argument)
  (hfew : h.conversionCost? argument narrower = some few) (hmany : h.conversionCost? argument wider = some many)
include hargument hwide hnarrow hw hn hinexact hfew hmany

/-- Of two methods that take one argument the second one wins exactly if it is the cheaper one. -/
theorem winner?_pair (owner : String) (hloose : c.loose = true) (hexact : narrower = argument → few < many) :
    c.winner? h [(owner, [wide, narrow])] =
      some ((owner, [wide, narrow]), if few < many then narrow else wide) := by
  have hcandidates : c.candidates [(owner, [wide, narrow])] =
      [((owner, [wide, narrow]), wide), ((owner, [wide, narrow]), narrow)] := by
    simp [candidates, hwide, hnarrow]
  by_cases hsame : narrower = argument
  · have hidentical : c.identical? [(owner, [wide, narrow])] = some ((owner, [wide, narrow]), narrow) := by
      simp [identical?, hcandidates, hw, hn, hargument, hinexact, hsame]
    rw [winner?, hidentical, if_pos (hexact hsame)]
  · have hidentical : c.identical? [(owner, [wide, narrow])] = none := by
      simp [identical?, hcandidates, hw, hn, hargument, hinexact, hsame]
    rw [winner?, hidentical]
    simp only [hloose, if_true, converted?, hcandidates, cheapest?, hw, hn, hargument, Hierarchy.totalCost?, hfew, hmany,
      Nat.add_zero]
    by_cases hlt : few < many <;> simp [hlt]

/-- Of two methods for one argument, the wider declared first, the wider one is selected exactly if the narrower one is
no cheaper. -/
theorem select_wider_iff (owner runtimeType : String) (hloose : c.loose = true) (hup : h.Converts narrower wider)
    (hne : narrower ≠ wider) :
    c.select h [(owner, [wide, narrow])] runtimeType = .ok (some ⟨owner, wide⟩) ↔ NoCheaper argument narrower wider := by
  obtain ⟨_, hup⟩ := hup
  have hle : many ≤ few ↔ NoCheaper argument narrower wider :=
    cost_le_iff_noCheaper (conversionCost?_eq_some_iff.1 hfew) (conversionCost?_eq_some_iff.1 hmany)
      (conversionCost?_eq_some_iff.1 hup) hne
  have hexact : narrower = argument → few < many := fun heq =>
    Nat.lt_of_not_le fun hno => (hle.1 hno).argument_ne heq.symm
  have hdiffer : narrow ≠ wide := by
    rintro rfl
    exact hne (List.singleton_injective (hn.symm.trans hw))
  rw [select, winner?_pair hargument hwide hnarrow hw hn hinexact hfew hmany owner hloose hexact, ← hle]
  by_cases hlt : few < many
  · simp [rivals, hlt, hwide, hnarrow, hw, hn, hne.symm, hdiffer]
  · simp [rivals, hlt, hwide, hnarrow, hw, hn, hne, Nat.le_of_not_lt hlt]

end Pair

/-- A method that is selected is the winner, and wherever a more specific method would have taken the arguments as well
the two differ in a parameter that is no cheaper for being narrower. Of two methods for one argument, the wider declared
first, the wider one is selected exactly if its parameter is of this sort. -/
theorem select_prefers_specific (c : Criteria) (h : Hierarchy) (runtimeType : String) :
    (∀ (groups : List CandidateGroup) (target : Target), c.select h groups runtimeType = .ok (some target) →
      ∃ x : c.Contender groups, x.Wins h ∧ target = ⟨x.group.1, x.method⟩ ∧
        ∀ (y : c.Contender groups) (total : Nat), Passed h c.method.params y.method.params total →
          MoreSpecific h y.method.params x.method.params →
            ∃ place, NoCheaperAt c.method.params y.method.params x.method.params place) ∧
    ∀ (wide narrow : Method) (argument narrower wider : Kind) (owner : String), c.loose = true →
      c.method.params = [argument] → c.considers wide = true → c.considers narrow = true → wide.params = [wider] →
      narrow.params = [narrower] → h.Converts argument narrower → h.Converts argument wider →
      MoreSpecific h narrow.params wide.params →
        (c.select h [(owner, [wide, narrow])] runtimeType = .ok (some ⟨owner, wide⟩) ↔
          NoCheaper argument narrower wider) := by
  constructor
  · intro groups target hs
    obtain ⟨x, hwins, _, rfl⟩ := exists_wins_of_select hs
    exact ⟨x, hwins, rfl, fun y total hy hspecific => hwins.exists_noCheaperAt hy hspecific⟩
  · intro wide narrow argument narrower wider owner hloose hargument hwide hnarrow hw hn hfew hmany hspecific
    obtain ⟨few, hfew⟩ := hfew
    obtain ⟨many, hmany⟩ := hmany
    rw [hn, hw] at hspecific
    have hup : h.Converts narrower wider := (List.forall₂_cons.1 hspecific.1).1
    have hne : narrower ≠ wider := fun heq => hspecific.ne (congrArg (fun k => [k]) heq)
    -- If the wider kind were that of the argument it would convert to the narrower one.
    have hinexact : wider ≠ argument := by
      rintro rfl
      exact hspecific.2 (.cons ⟨few, hfew⟩ .nil)
    exact select_wider_iff hargument hwide hnarrow hw hn hinexact hfew hmany owner runtimeType hloose hup hne

end Criteria

/-! ## Two methods that cost the same -/

namespace Sample

def setWide : Method := ⟨"set", [.primitive .i64, .any], .void, .none, .unbounded, true, 9⟩

def setNarrow : Method := { setWide with params := [.boxed .i32, .object "View"], serial := 10 }

def setLong : Method := { setWide with params := [.primitive .i64], serial := 11 }

def setBoxed : Method := { setWide with params := [.boxed .i32], serial := 12 }

def setAny : Method := { setWide with params := [.any], serial := 13 }

def setView : Method := { setWide with params := [.object "View"], serial := 14 }

end Sample

namespace Criteria

/-- For a primitive and a button the method for a wide primitive and anything is selected, though the one for a box and
a view is more specific: neither of its parameters is cheaper. For a button alone a method for anything is selected
before one for views. -/
theorem select_prefers_specific_wide :
    let c : Criteria := ⟨⟨"set", [.primitive .i32, .object "Button"]⟩, false, 30, true⟩
    let groups : List CandidateGroup := [("Dial", [Sample.setWide, Sample.setNarrow])]
    let button : Criteria := ⟨⟨"set", [.object "Button"]⟩, false, 30, true⟩
    c.select Sample.hierarchy groups "Dial" = .ok (some ⟨"Dial", Sample.setWide⟩) ∧
    (∃ place, NoCheaperAt [.primitive .i32, .object "Button"] Sample.setNarrow.params Sample.setWide.params place) ∧
    button.select Sample.hierarchy [("Dial", [Sample.setAny, Sample.setView])] "Dial" =
      .ok (some ⟨"Dial", Sample.setAny⟩) := by
  intro c groups button
  have hview : MoreSpecific Sample.hierarchy Sample.setView.params Sample.setAny.params := by
    refine ⟨.cons ⟨1, rfl⟩ .nil, fun hback => ?_⟩
    obtain ⟨⟨_, hfirst⟩, _⟩ := List.forall₂_cons.1 hback
    cases hfirst
  have hany := (select_prefers_specific button Sample.hierarchy "Dial").2 Sample.setAny Sample.setView _ _ _ "Dial" rfl
    rfl (by decide) (by decide) rfl rfl ⟨1, by decide⟩ ⟨1, rfl⟩ hview
  have hselected : c.select Sample.hierarchy groups "Dial" = .ok (some ⟨"Dial", Sample.setWide⟩) := by decide
  obtain ⟨x, _, htarget, hagainst⟩ := (select_prefers_specific c Sample.hierarchy "Dial").1 groups _ hselected
  have hx : Sample.setWide = x.method := congrArg Target.method htarget
  let y : c.Contender groups := ⟨("Dial", [Sample.setWide, Sample.setNarrow]), Sample.setNarrow, 0, 1, rfl, rfl, rfl, rfl,
    rfl⟩
  have hpassed : Passed Sample.hierarchy c.method.params y.method.params 2 := passed_iff.2 (by decide)
  have hspecific : MoreSpecific Sample.hierarchy y.method.params x.method.params := by
    rw [← hx]
    refine ⟨.cons ⟨2, rfl⟩ (.cons ⟨1, rfl⟩ .nil), fun hback => ?_⟩
    obtain ⟨⟨_, hfirst⟩, _⟩ := List.forall₂_cons.1 hback
    cases hfirst
  have hplace := hagainst y 2 hpassed hspecific
  rw [← hx] at hplace
  exact ⟨hselected, hplace, hany.2 (.climb (by decide))⟩

/-- For a primitive, which no method takes as it is, the method for a wider one is selected before the one for its box,
though the box converts to the wider primitive and not back. -/
theorem selects_less_specific :
    let c : Criteria := ⟨⟨"set", [.primitive .i32]⟩, false, 30, true⟩
    let groups : List CandidateGroup := [("Dial", [Sample.setLong, Sample.setBoxed])]
    c.identical? groups = none ∧
    c.select Sample.hierarchy groups "Dial" = .ok (some ⟨"Dial", Sample.setLong⟩) ∧
    c.considers Sample.setBoxed = true ∧
    Passed Sample.hierarchy c.method.params Sample.setBoxed.params 1 ∧
    MoreSpecific Sample.hierarchy Sample.setBoxed.params Sample.setLong.params := by
  intro c groups
  refine ⟨by decide, by decide, by decide, passed_iff.2 (by decide), .cons ⟨2, rfl⟩ .nil, fun hback => ?_⟩
  obtain ⟨⟨_, hfirst⟩, _⟩ := List.forall₂_cons.1 hback
  cases hfirst

end Criteria

end Interpose
