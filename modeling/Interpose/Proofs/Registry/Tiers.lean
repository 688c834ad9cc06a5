import Interpose.Proofs.Hierarchy.Validation
import Interpose.Proofs.Registry.Building
import Mathlib.Data.List.Induction

/-!
# Which of the staged bindings is built

Bindings are staged in three tiers, in any order, and building may come in between. For each type the last binding of
the highest tier that has one wins. Only winners are checked, and a registry holds the winners and nothing else; what
they override could as well be missing.
-/

namespace Interpose

namespace Staging

/-- What is asked of a staging area. Building reads it and leaves it as it is. -/
inductive Call where
  | provider (p : Provider)
  | tiered (tier : Tier) (b : Binding)
  | config (b : Binding)
  | shadow (s : Shadow)
  | build (h : Hierarchy)

def call (s : Staging) : Call → Staging
  | .provider p => s.addProvider p
  | .tiered tier b => s.addAt tier b
  | .config b => s.addLocal b
  | .shadow shadow => s.addShadow shadow
  | .build _ => s

def after (s : Staging) (calls : List Call) : Staging := calls.foldl call s

/-- The bindings that a call stages in a tier of providers. -/
def Call.inTier (tier : Tier) : Call → List Binding
  | .provider p => if p.tier = tier then p.bindings else []
  | .tiered t b => if t = tier then [b] else []
  | _ => []

/-- The bindings that a call stages for a single test. -/
def Call.forTest : Call → List Binding
  | .config b => [b]
  | .shadow s => [.ofShadow s]
  | _ => []

/-- The last binding for a type among some bindings. -/
def lastFor (real : String) (bindings : List Binding) : Option Binding :=
  (bindings.filter fun b => decide (b.real = real)).getLast?

/-- The binding that wins a type: the last one that was staged for it in the tier of tests, or else in the custom tier, or
else in the base tier. -/
def winner? (calls : List Call) (real : String) : Option Binding :=
  (lastFor real (calls.flatMap Call.forTest)).or
    ((lastFor real (calls.flatMap (Call.inTier .custom))).or (lastFor real (calls.flatMap (Call.inTier .base))))

/-- What a binding has to meet to be in force in a hierarchy. -/
structure Admissible (h : Hierarchy) (b : Binding) : Prop where
  window : ∀ min max, b.window.min = some min → b.window.max = some max → min ≤ max
  reachable : b.callsThrough = true → ∃ decl, h.get? b.real = some decl ∧ decl.isFinal = false

variable {s s' : Staging} {h : Hierarchy} {registry : Registry} {real : String} {b : Binding} {calls : List Call}

/-! ## Tiers -/

theorem foldl_addAt (s : Staging) (tier : Tier) (bindings : List Binding) :
    bindings.foldl (fun s b => s.addAt tier b) s =
      ⟨s.baseTier ++ if tier = .base then bindings else [], s.customTier ++ if tier = .custom then bindings else [],
        s.testTier⟩ := by
  induction bindings generalizing s with
  | nil => cases tier <;> simp
  | cons b rest ih =>
    rw [List.foldl_cons, ih]
    cases tier <;> simp [addAt]

/-- A call adds to each tier what it stages there. -/
theorem call_eq (s : Staging) (c : Call) :
    s.call c = ⟨s.baseTier ++ c.inTier .base, s.customTier ++ c.inTier .custom, s.testTier ++ c.forTest⟩ := by
  cases c with
  | provider p =>
    rw [call, addProvider, foldl_addAt]
    simp [Call.inTier, Call.forTest]
  | tiered tier b => cases tier <;> simp [call, addAt, Call.inTier, Call.forTest]
  | config b => simp [call, addLocal, Call.inTier, Call.forTest]
  | shadow shadow => simp [call, addShadow, addLocal, Call.inTier, Call.forTest]
  | build h => simp [call, Call.inTier, Call.forTest]

theorem after_eq (s : Staging) (calls : List Call) :
    s.after calls = ⟨s.baseTier ++ calls.flatMap (Call.inTier .base), s.customTier ++ calls.flatMap (Call.inTier .custom),
      s.testTier ++ calls.flatMap Call.forTest⟩ := by
  induction calls generalizing s with
  | nil => simp [after]
  | cons c rest ih =>
    change (s.call c).after rest = _
    rw [ih, call_eq]
    simp [List.append_assoc]

/-! ## Winners -/

theorem lastFor_append (real : String) (first second : List Binding) :
    lastFor real (first ++ second) = (lastFor real second).or (lastFor real first) := by
  rw [lastFor, List.filter_append, List.getLast?_append]
  rfl

theorem lastFor_singleton (real : String) (b : Binding) : lastFor real [b] = if real = b.real then some b else none := by
  by_cases hreal : real = b.real
  · simp [lastFor, hreal]
  · simp [lastFor, hreal, Ne.symm hreal]

theorem get?_winners (s : Staging) (real : String) : s.winners.get? real = lastFor real s.all := by
  unfold winners
  induction s.all using List.reverseRecOn with
  | nil => rfl
  | append_singleton bindings b ih =>
    -- The last binding overrides what the ones before it have left for its type.
    rw [List.map_append, KeyMap.ofList, List.foldl_append, lastFor_append, lastFor_singleton, ← ih]
    change (KeyMap.insert _ b.real b).get? real = _
    rw [KeyMap.get?_insert]
    split
    · rfl
    · rw [Option.none_or]
      rfl

/-- The tiers are flattened from the lowest to the highest. -/
theorem get?_winners_after (calls : List Call) (real : String) :
    (empty.after calls).winners.get? real = winner? calls real := by
  rw [get?_winners, after_eq]
  simp only [all, empty, List.nil_append, lastFor_append]
  rfl

/-- A binding has no fault exactly if it may be in force. -/
theorem fault?_eq_none_iff : fault? h b = none ↔ Admissible h b := by
  constructor
  · intro hfault
    refine ⟨fun min max hmin hmax => ?_, extensible_of_fault?_eq_none hfault⟩
    have hwindow := (Option.or_eq_none_iff.1 hfault).1
    simp only [hmin, hmax] at hwindow
    split at hwindow
    · cases hwindow
    · rename_i hle
      exact Nat.le_of_not_lt hle
  · rintro ⟨hwindow, hreachable⟩
    refine Option.or_eq_none_iff.2 ⟨?_, ?_⟩
    · split
      · rename_i min max hmin hmax
        exact if_neg (Nat.not_lt.2 (hwindow min max hmin hmax))
      · rfl
    · split
      · rename_i hcalls
        obtain ⟨decl, hdecl, hopen⟩ := hreachable hcalls
        simp only [hdecl, hopen, Bool.false_eq_true, if_false]
      · rfl

/-! ## Building -/

theorem after_builds (s : Staging) (builds : List Hierarchy) : s.after (builds.map .build) = s := by
  induction builds with
  | nil => rfl
  | cons _ rest ih => exact ih

theorem build_congr (hwinners : s.winners = s'.winners) : s.build h = s'.build h := by
  rw [build, build, hwinners]

theorem exists_build_iff : (∃ registry, s.build h = .ok registry) ↔ ∀ b ∈ s.winners.values, fault? h b = none := by
  constructor
  · rintro ⟨registry, hbuild⟩
    exact (build_eq_ok hbuild).2
  · intro hsound
    rw [build, List.findSome?_eq_none_iff.2 hsound]
    exact ⟨_, rfl⟩

theorem build_eq_error {e : Error} (hbuild : s.build h = .error e) : ∃ b ∈ s.winners.values, fault? h b = some e := by
  unfold build at hbuild
  split at hbuild
  · rename_i fault hfault
    cases hbuild
    exact List.exists_of_findSome?_eq_some hfault
  · cases hbuild

/-- After any calls on a new staging area, building succeeds exactly if every winner has a window that is not empty and, if
it calls through, is for a declared type that is not final. The registry then binds each type by its winner and no other
type. A failure is the fault of a winner, and calls with the same winners build alike, whatever they override and in
whatever order they serve the tiers. Having built any number of times changes nothing. -/
theorem last_of_highest_tier_wins (calls : List Call) (h : Hierarchy) :
    let s := empty.after calls
    ((∃ registry, s.build h = .ok registry) ↔ ∀ real b, winner? calls real = some b → Admissible h b) ∧
    (∀ registry, s.build h = .ok registry → ∀ real, registry.get? real = winner? calls real) ∧
    (∀ e, s.build h = .error e → ∃ real b, winner? calls real = some b ∧ fault? h b = some e) ∧
    (∀ calls', (∀ real, winner? calls' real = winner? calls real) → (empty.after calls').build h = s.build h) ∧
    ∀ builds : List Hierarchy, (s.after (builds.map .build)).build h = s.build h := by
  intro s
  have hwinners : ∀ {b}, b ∈ s.winners.values ↔ ∃ real, winner? calls real = some b := by
    intro b
    simp only [KeyMap.mem_values_iff, ← get?_winners_after]
    rfl
  refine ⟨?_, fun registry hbuild real => ?_, fun e hbuild => ?_, fun calls' hsame => ?_, fun builds => ?_⟩
  · rw [exists_build_iff]
    simp only [hwinners, fault?_eq_none_iff]
    exact ⟨fun hsound real b hb => hsound b ⟨real, hb⟩, fun hsound b ⟨real, hb⟩ => hsound real b hb⟩
  · obtain ⟨rfl, _⟩ := build_eq_ok hbuild
    exact get?_winners_after calls real
  · obtain ⟨b, hb, hfault⟩ := build_eq_error hbuild
    obtain ⟨real, hreal⟩ := hwinners.1 hb
    exact ⟨real, b, hreal, hfault⟩
  · exact build_congr (KeyMap.ext_get? fun real => by rw [get?_winners_after, get?_winners_after, hsame])
  · rw [after_builds]

end Staging

namespace Sample

/-- A binding of views that calls through, at the levels between two bounds. -/
def viewBinding (id : String) (min max : Nat) : Binding :=
  .ofShadow (.alone ⟨id, "View", true, false, false, ⟨some min, some max⟩, [], false, 0⟩)

/-- A base binding that no level admits. -/
def unusable : Staging.Call := .tiered .base (viewBinding "Unusable" 30 21)

/-- The binding of a test, staged before those that it overrides. -/
def overriding : List Staging.Call :=
  [.config (viewBinding "Own" 21 30), .build buttons, unusable,
    .provider ⟨"custom", .custom, [viewBinding "Custom" 21 30]⟩]

end Sample

/-- The unusable binding does no harm while the one of the test wins, and makes building fail where it wins itself. -/
theorem Staging.last_of_highest_tier_wins_view :
    (∃ registry, (empty.after Sample.overriding).build Sample.buttons = .ok registry ∧
      registry.get? "View" = some (Sample.viewBinding "Own" 21 30)) ∧
    ¬∃ registry, (empty.after [Sample.unusable]).build Sample.buttons = .ok registry := by
  obtain ⟨_, hwinner, _⟩ := last_of_highest_tier_wins Sample.overriding Sample.buttons
  obtain ⟨hiff, _⟩ := last_of_highest_tier_wins [Sample.unusable] Sample.buttons
  obtain ⟨registry, hbuild⟩ : ∃ registry, (empty.after Sample.overriding).build Sample.buttons = .ok registry := ⟨_, rfl⟩
  refine ⟨⟨registry, hbuild, (hwinner registry hbuild "View").trans (by decide)⟩, fun hbuilds => ?_⟩
  have hadmissible := hiff.1 hbuilds "View" (Sample.viewBinding "Unusable" 30 21) (by decide)
  exact absurd (hadmissible.window 30 21 rfl rfl) (by decide)

end Interpose
