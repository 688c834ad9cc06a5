import Interpose.Proofs.Dispatch.Exposure
import Interpose.Proofs.Registry.Building

/-!
# Final types and registries that were built

A registry is not built if a binding that calls through is for a final type. This says nothing of the final types
below a bound one, which fall under its binding all the same: a call on an object of such a type that no shadow
method takes is refused, even if the method it selects may be bridged. In no other case does a refusal come from a
final type.
-/

namespace Interpose

namespace Setting

variable {s : Setting} {site : CallSite} {b : Binding} {target : Target}

theorem direct_ne_notBridgeable (target : Target) : direct target ≠ .refuse .notBridgeable := by
  unfold direct
  split
  · exact Decision.noConfusion
  · intro h
    cases h

theorem passThrough_ne_notBridgeable : s.passThrough site ≠ .ok (.refuse .notBridgeable) := by
  intro h
  obtain ⟨target?, _, hdecision⟩ := exists_of_map_eq_ok h
  cases target? with
  | none => cases hdecision
  | some target => exact direct_ne_notBridgeable target hdecision

/-- A decision is a route finished at some bridge. -/
theorem exists_route {decision : Decision} (hd : s.decide site = .ok decision) :
    ∃ route bridge, s.route site = .ok route ∧ route.finish bridge = decision := by
  unfold Setting.decide at hd
  split at hd
  · cases hd
  · rename_i decision hroute
    cases hd
    exact ⟨_, ⟨site.runtimeType, s.level, []⟩, hroute, rfl⟩
  · rename_i target hroute
    obtain ⟨bridge, _, hfinish⟩ := exists_of_map_eq_ok hd
    exact ⟨_, bridge, hroute, hfinish⟩

section Refused

variable {route : Route} {bridge : Bridge}

/-- If the search for a real method ends in a refusal to cross the bridge, then the call is to go on and a method was
selected. -/
theorem selected_of_refused (hroute : s.routeReal site b = .ok route)
    (hrefused : route.finish bridge = .refuse .notBridgeable) :
    (b.callsThrough = true ∨ site.request = .real) ∧ ∃ target, s.realTarget site = .ok (some target) := by
  unfold routeReal at hroute
  split at hroute
  · cases hroute
  · rename_i target? ht
    split at hroute
    · rename_i hasked
      refine ⟨by simpa using hasked, ?_⟩
      cases target? with
      | none =>
        cases hroute
        cases hrefused
      | some target => exact ⟨target, ht⟩
    · cases hroute
      cases target? <;> cases hrefused

theorem untaken_of_refused (hroute : s.routeBound site b = .ok route)
    (hrefused : route.finish bridge = .refuse .notBridgeable) :
    (site.request = .normal → s.shadowTarget site b = .ok none) ∧ s.routeReal site b = .ok route := by
  unfold routeBound at hroute
  split at hroute
  · split at hroute
    · cases hroute
    · cases hroute
      cases hrefused
    · rename_i huntaken
      exact ⟨fun _ => huntaken, hroute⟩
  · rename_i hnormal
    exact ⟨fun h => absurd h hnormal, hroute⟩

end Refused

theorem intercepted_of_governing (hb : (s.governing site.runtimeType).binding? = some b) :
    s.rules.intercepts site.runtimeType = true ∧
      (s.registry.lookup s.hierarchy s.level site.runtimeType).binding? = some b := by
  unfold governing at hb
  split at hb
  · rename_i hi
    exact ⟨hi, hb⟩
  · cases hb

/-- Only a call that goes on to a real method is refused for want of a way across the bridge. -/
theorem goesOn_of_refused (hstatic : site.isStatic = false) (hrefused : s.decide site = .ok (.refuse .notBridgeable)) :
    ∃ b target, s.GoesOn site b target := by
  cases hb : (s.governing site.runtimeType).binding? with
  | none =>
    rw [decide_of_unbound hb] at hrefused
    exact absurd hrefused passThrough_ne_notBridgeable
  | some b =>
    obtain ⟨route, bridge, hroute, hfinish⟩ := exists_route hrefused
    rw [Setting.route, hb] at hroute
    obtain ⟨hintercepted, hbound⟩ := intercepted_of_governing hb
    obtain ⟨huntaken, hreal⟩ := untaken_of_refused hroute hfinish
    obtain ⟨hasked, target, ht⟩ := selected_of_refused hreal hfinish
    exact ⟨b, target, hstatic, hintercepted, hbound, huntaken, hasked, ht⟩

/-- A call that goes on is refused exactly if the type is final or the method is not bridgeable. -/
theorem GoesOn.refused_iff (hg : s.GoesOn site b target) :
    s.decide site = .ok (.refuse .notBridgeable) ↔
      s.hierarchy.IsFinal site.runtimeType ∨ target.method.isBridgeable = false := by
  obtain ⟨decl, hdecl⟩ := declared_of_realTarget hg.selected
  have hget : s.hierarchy.get? site.runtimeType = some decl := by
    unfold Hierarchy.require at hdecl
    split at hdecl
    · rename_i decl' hget
      rw [hget, Except.ok.inj hdecl]
    · cases hdecl
  have hfinal : s.hierarchy.IsFinal site.runtimeType ↔ decl.isFinal = true := by
    unfold Hierarchy.IsFinal
    rw [hget]
    simp
  rw [hg.decision hdecl, hfinal]
  cases decl.isFinal <;> cases target.method.isBridgeable <;> simp

/-- On a final type, no call falls under a binding of the type itself that calls through, if the registry was built:
the binding is that of an ancestor which can be extended. -/
theorem GoesOn.inherited {staging : Staging} (hbuild : staging.build s.hierarchy = .ok s.registry)
    (hg : s.GoesOn site b target) (hcalls : b.callsThrough = true) (hfinal : s.hierarchy.IsFinal site.runtimeType) :
    b.real ≠ site.runtimeType ∧ s.hierarchy.isSubtype site.runtimeType b.real = true ∧
      ¬s.hierarchy.IsFinal b.real := by
  obtain ⟨real, hsub, hforce⟩ := Registry.exists_inForce?_of_lookup hg.bound
  have hget := (Registry.inForce?_eq_some_iff.1 hforce).1
  obtain ⟨_, _, _, rfl, _⟩ := (Staging.get?_of_build hbuild).1 hget
  have hextensible : ¬s.hierarchy.IsFinal b.real := by
    obtain ⟨decl, hdecl, hopen⟩ :=
      Staging.extensible_of_fault?_eq_none (Staging.fault?_of_build hbuild hget) hcalls
    rintro ⟨decl', hdecl', hclosed⟩
    cases hdecl.symm.trans hdecl'
    rw [hopen] at hclosed
    cases hclosed
  exact ⟨fun heq => hextensible (heq ▸ hfinal), hsub, hextensible⟩

end Setting

/-! ## The small world with final buttons -/

namespace Sample

def sealedHierarchy : Hierarchy :=
  ⟨KeyMap.ofList [("Button", { button with isFinal := true }), ("View", view)], by decide⟩

/-- A shadow without methods, bound to views, on which all calls go on. -/
def calledThrough : Staging :=
  Staging.empty.addShadow (.alone { shadowView.own with callsThrough := true, methods := [] })

end Sample

namespace Dispatcher

/-- Take any dispatcher after any run that left a registry in force which was built, and a normal call on an object.
It is refused as not bridgeable exactly if it falls under a binding that calls through, no shadow method takes it, the
type and its ancestors select a method, and either this method is not bridgeable, or the type is final and the binding
is not its own but one that it inherits from a type which is not final. -/
theorem refused_under_built_registry_iff (staging : Staging) (h : Hierarchy) (rules : Rules) (level : Nat)
    (steps : List Step) (site : CallSite) (hbuild : staging.build h = .ok (lastInstalled steps))
    (hstatic : site.isStatic = false) (hnormal : site.request = .normal) :
    (((new h rules level).after steps).resolve site).answer = .ok (.refuse .notBridgeable) ↔
      ∃ b target, Setting.GoesOn ⟨h, rules, level, lastInstalled steps⟩ site b target ∧ b.callsThrough = true ∧
        (target.method.isBridgeable = false ∨
          h.IsFinal site.runtimeType ∧ b.real ≠ site.runtimeType ∧ h.isSubtype site.runtimeType b.real = true ∧
            ¬h.IsFinal b.real) := by
  rw [resolve_after]
  constructor
  · intro hrefused
    obtain ⟨b, target, hg⟩ := Setting.goesOn_of_refused hstatic hrefused
    have hcalls : b.callsThrough = true := hg.asked.resolve_right (by rw [hnormal]; exact Request.noConfusion)
    refine ⟨b, target, hg, hcalls, (hg.refused_iff.1 hrefused).symm.imp_right fun hfinal => ?_⟩
    exact ⟨hfinal, hg.inherited hbuild hcalls hfinal⟩
  · rintro ⟨b, target, hg, _, hwhy⟩
    exact hg.refused_iff.2 (hwhy.symm.imp_left (·.1))

/-- A view may be called through, so its shadow is built into a registry. A button is a final view: to draw it is
refused, although the method may be bridged. -/
theorem refused_on_final_button :
    let registry : Registry := ⟨Sample.calledThrough.winners⟩
    let d := (new Sample.sealedHierarchy .none 30).after [.install registry]
    Sample.calledThrough.build Sample.sealedHierarchy = .ok registry ∧
    (d.resolve Sample.drawButton).answer = .ok (.refuse .notBridgeable) ∧
    d.setting.realTarget Sample.drawButton = .ok (some ⟨"View", Sample.draw⟩) ∧
    Sample.draw.isBridgeable = true := by
  intro registry d
  exact ⟨by rfl, by decide, by decide, rfl⟩

/-- The refusal to draw a final button has one explanation: the button inherits the binding of the view. -/
theorem refused_under_built_registry_iff_button :
    let registry : Registry := ⟨Sample.calledThrough.winners⟩
    let d := (new Sample.sealedHierarchy .none 30).after [.install registry]
    (d.resolve Sample.drawButton).answer = .ok (.refuse .notBridgeable) ∧
    ∃ b target, Setting.GoesOn ⟨Sample.sealedHierarchy, .none, 30, registry⟩ Sample.drawButton b target ∧
      target.method.isBridgeable = true ∧ b.real ≠ "Button" := by
  intro registry d
  have hiff := refused_under_built_registry_iff Sample.calledThrough Sample.sealedHierarchy .none 30
    [.install registry] Sample.drawButton (by rfl) rfl rfl
  have hrefused : (d.resolve Sample.drawButton).answer = .ok (.refuse .notBridgeable) := by decide
  refine ⟨hrefused, ?_⟩
  obtain ⟨b, target, hg, _, hwhy⟩ := hiff.1 hrefused
  have hselected : Setting.realTarget ⟨Sample.sealedHierarchy, .none, 30, registry⟩ Sample.drawButton =
      .ok (some ⟨"View", Sample.draw⟩) := by decide
  cases hselected.symm.trans hg.selected
  rcases hwhy with hbridgeable | ⟨_, hne, _⟩
  · cases hbridgeable
  · exact ⟨b, _, hg, rfl, hne⟩

end Dispatcher

end Interpose
