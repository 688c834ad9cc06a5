import Interpose.Proofs.Dispatch.Lookup
import Interpose.Proofs.Dispatch.Steps

/-!
# What a dispatcher remembers is right

A sound dispatcher remembers of a site just what would be decided anew, together with the types that this
depends on, and of a type just the bridge that would be built anew. A sound dispatcher therefore answers like one
that remembers nothing. Every step keeps soundness; for an installation the reason is that a decision whose
consulted types are all bound as before is decided as before.
-/

namespace Interpose.Dispatcher

/-- All that is remembered agrees with the setting that is in force now. -/
structure Sound (d : Dispatcher) : Prop where
  decided : ∀ {site cached}, d.decisions.get? site = some cached →
    d.setting.decide site = .ok cached.decision
  consulted : ∀ {site cached}, d.decisions.get? site = some cached →
    cached.consulted = d.setting.consulted site
  bridged : ∀ {typeId bridge}, d.bridges.get? typeId = some bridge →
    Bridge.synthesize d.setting.hierarchy d.setting.level typeId = .ok bridge

/-- A dispatcher that remembers nothing. -/
theorem sound_of_empty {d : Dispatcher} (hd : d.decisions = Table.empty) (hb : d.bridges = Table.empty) :
    d.Sound := by
  constructor
  · intro site cached h
    rw [hd] at h
    cases h
  · intro site cached h
    rw [hd] at h
    cases h
  · intro typeId bridge h
    rw [hb] at h
    cases h

theorem sound_new (h : Hierarchy) (rules : Rules) (level : Nat) : (new h rules level).Sound :=
  sound_of_empty rfl rfl

theorem sound_clear (d : Dispatcher) : d.clear.Sound := sound_of_empty rfl rfl

/-! ## Answers of a sound dispatcher -/

theorem Sound.bridgeFor_answer {d : Dispatcher} (hd : d.Sound) (typeId : String) :
    (d.bridgeFor typeId).answer = Bridge.synthesize d.setting.hierarchy d.setting.level typeId := by
  cases hb : d.bridges.get? typeId with
  | some bridge =>
    rw [hd.bridged hb]
    simp only [bridgeFor, hb]
  | none =>
    simp only [bridgeFor, hb]
    split <;> rename_i hs <;> exact hs.symm

theorem Sound.compute_answer {d : Dispatcher} (hd : d.Sound) (site : CallSite) :
    (d.compute site).answer = d.setting.decide site := by
  unfold compute Setting.decide
  cases hr : d.setting.route site with
  | error e => rfl
  | ok route =>
    cases route with
    | settled decision => rfl
    | acrossBridge target =>
      simp only
      rw [hd.bridgeFor_answer]

/-- A sound dispatcher answers as if it remembered nothing. -/
theorem Sound.resolve_answer {d : Dispatcher} (hd : d.Sound) (site : CallSite) :
    (d.resolve site).answer = d.setting.decide site := by
  cases hc : d.decisions.get? site with
  | some cached =>
    rw [hd.decided hc]
    simp only [resolve, hc]
  | none =>
    have hcompute := hd.compute_answer site
    simp only [resolve, hc]
    split <;> rename_i ha <;> exact ha.symm.trans hcompute

theorem Sound.cached_answer {d : Dispatcher} (hd : d.Sound) {site : CallSite} {decision : Decision}
    (h : d.cached? site = some decision) : d.setting.decide site = .ok decision := by
  obtain ⟨cached, hc, rfl⟩ := Option.map_eq_some_iff.1 h
  exact hd.decided hc

/-! ## Every step keeps soundness -/

theorem Sound.bridgeFor {d : Dispatcher} (hd : d.Sound) (typeId : String) :
    (d.bridgeFor typeId).dispatcher.Sound := by
  constructor
  · intro site cached h
    rw [bridgeFor_decisions] at h
    rw [bridgeFor_setting]
    exact hd.decided h
  · intro site cached h
    rw [bridgeFor_decisions] at h
    rw [bridgeFor_setting]
    exact hd.consulted h
  · intro t bridge h
    rw [bridgeFor_setting]
    unfold Dispatcher.bridgeFor at h
    split at h
    · exact hd.bridged h
    · split at h
      · rename_i built hs
        rw [Table.get?_put] at h
        split at h
        · rename_i ht
          cases h
          exact ht ▸ hs
        · exact hd.bridged h
      · exact hd.bridged h

theorem Sound.compute {d : Dispatcher} (hd : d.Sound) (site : CallSite) :
    (d.compute site).dispatcher.Sound := by
  unfold Dispatcher.compute
  split
  · exact hd
  · exact hd
  · exact hd.bridgeFor _

theorem Sound.remember {d : Dispatcher} (hd : d.Sound) {site : CallSite} {decision : Decision}
    (h : d.setting.decide site = .ok decision) : (d.remember site decision).Sound := by
  constructor
  · intro s cached hs
    rw [Dispatcher.remember, Table.get?_put] at hs
    rw [remember_setting]
    split at hs
    · rename_i heq
      cases hs
      exact heq ▸ h
    · exact hd.decided hs
  · intro s cached hs
    rw [Dispatcher.remember, Table.get?_put] at hs
    rw [remember_setting]
    split at hs
    · rename_i heq
      cases hs
      rw [heq]
    · exact hd.consulted hs
  · exact hd.bridged

theorem Sound.resolve {d : Dispatcher} (hd : d.Sound) (site : CallSite) :
    (d.resolve site).dispatcher.Sound := by
  have hcompute := hd.compute_answer site
  unfold Dispatcher.resolve
  split
  · exact ⟨hd.decided, hd.consulted, hd.bridged⟩
  · simp only
    split
    · exact hd.compute site
    · rename_i decision ha
      apply (hd.compute site).remember
      rw [compute_setting, ← hcompute, ha]

/-- An entry stays under another registry exactly if it consulted no type that is bound differently. -/
theorem install_get? (d : Dispatcher) (r : Registry) (site : CallSite) :
    (d.install r).2.decisions.get? site =
      (d.decisions.get? site).filter fun cached => !cached.consulted.any (d.install r).1.contains :=
  Table.get?_filter _ _ _

theorem install_bridges_get? (d : Dispatcher) (r : Registry) (typeId : String) :
    (d.install r).2.bridges.get? typeId =
      (d.bridges.get? typeId).filter fun _ => !(d.install r).1.contains typeId :=
  Table.get?_filter _ _ _

/-- The types consulted for an entry that stays are bound as before. -/
theorem Sound.agree_of_kept {d : Dispatcher} (hd : d.Sound) {r : Registry} {site : CallSite}
    {cached : CachedDecision} (h : d.decisions.get? site = some cached)
    (hkeep : (!cached.consulted.any (d.install r).1.contains) = true) :
    ∀ t ∈ d.setting.consulted site, r.get? t = d.setting.registry.get? t := by
  intro t ht
  rw [← hd.consulted h] at ht
  by_contra hne
  have hchanged : (d.install r).1.contains t = true := Registry.contains_changed.2 hne
  have hany : cached.consulted.any (d.install r).1.contains = true := List.any_eq_true.2 ⟨t, ht, hchanged⟩
  rw [hany] at hkeep
  cases hkeep

theorem Sound.install {d : Dispatcher} (hd : d.Sound) (r : Registry) : (d.install r).2.Sound := by
  constructor
  · intro site cached h
    rw [install_get?, Option.filter_eq_some_iff] at h
    rw [install_setting, ← hd.decided h.1]
    exact Setting.decide_withRegistry (hd.agree_of_kept h.1 h.2)
  · intro site cached h
    rw [install_get?, Option.filter_eq_some_iff] at h
    rw [install_setting, hd.consulted h.1]
    exact (Setting.consulted_withRegistry (hd.agree_of_kept h.1 h.2)).symm
  · intro typeId bridge h
    rw [install_bridges_get?, Option.filter_eq_some_iff] at h
    rw [install_setting]
    exact hd.bridged h.1

theorem Sound.step {d : Dispatcher} (hd : d.Sound) (s : Step) : (d.step s).Sound := by
  cases s with
  | install r => exact hd.install r
  | resolve site => exact hd.resolve site
  | cached site => exact hd
  | bridgeFor typeId => exact hd.bridgeFor typeId
  | clear => exact sound_clear d

theorem Sound.after {d : Dispatcher} (hd : d.Sound) (steps : List Step) : (d.after steps).Sound := by
  induction steps generalizing d with
  | nil => exact hd
  | cons s rest ih => exact ih (hd.step s)

end Interpose.Dispatcher
