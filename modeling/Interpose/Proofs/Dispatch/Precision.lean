import Interpose.Proofs.Dispatch.Soundness

/-!
# An installation forgets just what it has to

What stays after an installation is stated entry by entry, for runs of any length. The counters are tied to the
decisions by two laws: hits and misses together count the resolutions that gave a decision, and every miss is
either still remembered or was purged. An error counts nowhere. Only `clear`, which forgets without purging,
breaks the second law.
-/

namespace Interpose.Dispatcher

/-- A resolution is a hit, fails, or is a miss; bridges apart, the dispatcher changes accordingly. -/
theorem resolve_cases (d : Dispatcher) (site : CallSite) :
    (∃ cached, d.decisions.get? site = some cached ∧ d.resolve site =
      ⟨.ok cached.decision, { d with counts := { d.counts with hits := d.counts.hits + 1 } }, []⟩) ∨
    (∃ e, (d.resolve site).answer = .error e ∧
      (d.resolve site).dispatcher = (d.compute site).dispatcher) ∨
    (∃ decision, d.decisions.get? site = none ∧ (d.resolve site).answer = .ok decision ∧
      (d.resolve site).dispatcher = (d.compute site).dispatcher.remember site decision) := by
  cases hc : d.decisions.get? site with
  | some cached => exact .inl ⟨cached, rfl, by simp only [resolve, hc]⟩
  | none =>
    cases ha : (d.compute site).answer with
    | error e =>
      have hr : d.resolve site = ⟨.error e, (d.compute site).dispatcher, (d.compute site).events⟩ := by
        simp only [resolve, hc, ha]
      exact .inr (.inl ⟨e, by rw [hr], by rw [hr]⟩)
    | ok decision =>
      have hr : d.resolve site =
          ⟨.ok decision, (d.compute site).dispatcher.remember site decision, (d.compute site).events⟩ := by
        simp only [resolve, hc, ha]
      exact .inr (.inr ⟨decision, rfl, by rw [hr], by rw [hr]⟩)

/-! ## Hits and misses -/

/-- How many resolutions that give a decision a step amounts to. -/
def decides (d : Dispatcher) : Step → Nat
  | .resolve site => if (d.resolve site).answer.isOk then 1 else 0
  | _ => 0

/-- The number of resolutions in a run that give a decision. -/
def decisionsGiven (d : Dispatcher) : List Step → Nat
  | [] => 0
  | s :: rest => d.decides s + (d.step s).decisionsGiven rest

theorem step_hits_add_misses (d : Dispatcher) (s : Step) :
    (d.step s).counts.hits + (d.step s).counts.misses =
      d.counts.hits + d.counts.misses + d.decides s := by
  cases s with
  | install r => rfl
  | resolve site =>
    rw [step, decides]
    obtain ⟨cached, _, hr⟩ | ⟨e, ha, hd⟩ | ⟨decision, _, ha, hd⟩ := resolve_cases d site
    · rw [hr]
      simp only [Except.isOk, Except.toBool, if_true]
      omega
    · rw [ha, hd, compute_counts]
      rfl
    · rw [ha, hd, remember, compute_counts]
      rfl
  | cached site => rfl
  | bridgeFor typeId => rw [step, bridgeFor_counts]; rfl
  | clear => rfl

theorem after_hits_add_misses (d : Dispatcher) (steps : List Step) :
    (d.after steps).counts.hits + (d.after steps).counts.misses =
      d.counts.hits + d.counts.misses + d.decisionsGiven steps := by
  induction steps generalizing d with
  | nil => rfl
  | cons s rest ih =>
    change ((d.step s).after rest).counts.hits + ((d.step s).after rest).counts.misses = _
    rw [ih, step_hits_add_misses, decisionsGiven]
    omega

/-! ## Misses and purges -/

/-- Every miss is remembered or was purged. -/
def Balanced (d : Dispatcher) : Prop := d.counts.misses = d.counts.purged + d.decisions.size

theorem Balanced.install {d : Dispatcher} (hd : d.Balanced) (r : Registry) : (d.install r).2.Balanced := by
  have hle : (d.install r).2.decisions.size ≤ d.decisions.size := Table.size_filter_le _ _
  have hpurged : (d.install r).2.counts.purged =
      d.counts.purged + (d.decisions.size - (d.install r).2.decisions.size) := rfl
  have hmisses : (d.install r).2.counts.misses = d.counts.misses := rfl
  unfold Balanced at hd ⊢
  omega

theorem Balanced.resolve {d : Dispatcher} (hd : d.Balanced) (site : CallSite) :
    (d.resolve site).dispatcher.Balanced := by
  obtain ⟨cached, _, hr⟩ | ⟨e, _, hr⟩ | ⟨decision, hnone, _, hr⟩ := resolve_cases d site
  · rw [hr]
    exact hd
  · rw [hr, Balanced, compute_counts, compute_decisions]
    exact hd
  · rw [hr]
    unfold Balanced at hd ⊢
    simp only [remember, compute_counts, compute_decisions]
    rw [Table.size_put_of_get?_eq_none hnone]
    omega

theorem Balanced.step {d : Dispatcher} (hd : d.Balanced) {s : Step} (hs : s ≠ .clear) :
    (d.step s).Balanced := by
  cases s with
  | install r => exact hd.install r
  | resolve site => exact hd.resolve site
  | cached site => exact hd
  | bridgeFor typeId =>
    rw [Dispatcher.step, Balanced, bridgeFor_counts, bridgeFor_decisions]
    exact hd
  | clear => exact absurd rfl hs

theorem Balanced.after {d : Dispatcher} (hd : d.Balanced) {steps : List Step} (hs : Step.clear ∉ steps) :
    (d.after steps).Balanced := by
  induction steps generalizing d with
  | nil => exact hd
  | cons s rest ih =>
    rw [List.mem_cons, not_or] at hs
    exact ih (hd.step (Ne.symm hs.1)) hs.2

/-! ## What stays -/

/-- The entries that stay are those that consulted no changed type. -/
theorem install_decisions_iff (d : Dispatcher) (r : Registry) (site : CallSite) (cached : CachedDecision) :
    (d.install r).2.decisions.get? site = some cached ↔
      d.decisions.get? site = some cached ∧
        ∀ t ∈ cached.consulted, (d.install r).1.contains t = false := by
  rw [install_get?, Option.filter_eq_some_iff]
  simp

theorem install_bridges_iff (d : Dispatcher) (r : Registry) (typeId : String) (bridge : Bridge) :
    (d.install r).2.bridges.get? typeId = some bridge ↔
      d.bridges.get? typeId = some bridge ∧ (d.install r).1.contains typeId = false := by
  rw [install_bridges_get?, Option.filter_eq_some_iff]
  simp

/-- After any run of a new dispatcher, an installation keeps exactly the decisions whose consulted chain holds no
type that is bound differently, as they are, and exactly the bridges of types that are bound alike; the consulted
chain of an entry goes from the runtime type up to the bound one, or is the runtime type alone where nothing is
intercepted. Hits and misses together are the resolutions that gave a decision, and unless the run clears the
dispatcher every miss was purged or is still remembered. -/
theorem install_keeps_exactly_unaffected (h : Hierarchy) (rules : Rules) (level : Nat) (steps : List Step)
    (r : Registry) :
    let d := (new h rules level).after steps
    let changed := (d.install r).1
    let installed := (d.install r).2
    (∀ t, changed.contains t = true ↔ r.get? t ≠ (lastInstalled steps).get? t) ∧
    (∀ site cached, d.decisions.get? site = some cached →
      cached.consulted =
        if rules.intercepts site.runtimeType then
          (lastInstalled steps).chain level (h.ancestors site.runtimeType)
        else [site.runtimeType]) ∧
    (∀ site cached, installed.decisions.get? site = some cached ↔
      d.decisions.get? site = some cached ∧ ∀ t ∈ cached.consulted, changed.contains t = false) ∧
    (∀ typeId bridge, installed.bridges.get? typeId = some bridge ↔
      d.bridges.get? typeId = some bridge ∧ changed.contains typeId = false) ∧
    d.counts.hits + d.counts.misses = (new h rules level).decisionsGiven steps ∧
    (Step.clear ∉ steps → d.counts.misses = d.counts.purged + d.decisions.size) := by
  have hsound : ((new h rules level).after steps).Sound := (sound_new h rules level).after steps
  have hsetting := after_new_setting h rules level steps
  refine ⟨fun t => ?_, fun site cached hc => ?_, install_decisions_iff _ r, install_bridges_iff _ r, ?_,
    fun hclear => ?_⟩
  · have hregistry : ((new h rules level).after steps).registry = lastInstalled steps := by
      rw [registry, hsetting]
    rw [← hregistry]
    exact Registry.contains_changed
  · rw [hsound.consulted hc, Setting.consulted_eq, hsetting]
  · rw [after_hits_add_misses]
    simp [new]
  · have hnew : (new h rules level).Balanced := rfl
    exact hnew.after hclear

/-- A hit, a miss, a purge and another miss: the decision that was made last depends on both types. -/
theorem install_keeps_exactly_unaffected_button :
    let d := (new Sample.hierarchy .none 30).after
      [.resolve Sample.drawButton, .resolve Sample.drawButton, .install Sample.registry,
        .resolve Sample.drawButton]
    ∃ cached, d.decisions.get? Sample.drawButton = some cached ∧ cached.consulted = ["Button", "View"] ∧
      d.counts.misses = d.counts.purged + d.decisions.size := by
  intro d
  obtain ⟨_, hchain, _, _, _, hbalanced⟩ := install_keeps_exactly_unaffected Sample.hierarchy .none 30
    [.resolve Sample.drawButton, .resolve Sample.drawButton, .install Sample.registry,
      .resolve Sample.drawButton] .empty
  have hcached : d.decisions.get? Sample.drawButton =
      some ⟨.shadow ⟨"ShadowView", { Sample.draw with serial := 1 }⟩, ["Button", "View"]⟩ := by decide
  exact ⟨_, hcached, (hchain _ _ hcached).trans (by decide), hbalanced (by decide)⟩

end Interpose.Dispatcher
