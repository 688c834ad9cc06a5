import Interpose.Proofs.Dispatch.Bridges
import Interpose.Proofs.Dispatch.RealCalls

/-!
# Which calls a bridge lets through

The real method that a call on an object selects is the nearest declaration of its signature, so the bridge of the
runtime type exposes it exactly if it may be bridged: no other declaration hides it there, and none stands in for
it. A call that goes on to a real method therefore reaches it unless the runtime type is final or the method itself
is not bridgeable.
-/

namespace Interpose

/-- Among the nearest declarations, the exposed ones are those that may be bridged. -/
theorem Bridge.exposes_nearest {h : Hierarchy} {level : Nat} {typeId : String} {bridge : Bridge} {target : Target}
    (hb : synthesize h level typeId = .ok bridge)
    (htarget : target ∈ firstPerKey (·.method.key) (visible h level typeId)) :
    bridge.exposes target = target.method.isBridgeable := by
  rw [Bool.eq_iff_iff]
  constructor
  · intro he
    exact isBridgeable_of_mem_targets hb (mem_targets_of_exposes hb htarget he)
  · intro hbridgeable
    have hmem : target ∈ bridge.targets := by
      rw [synthesize_eq_ok hb]
      exact List.mem_filter.2 ⟨htarget, hbridgeable⟩
    exact List.any_eq_true.2 ⟨target, hmem, by simp⟩

/-- Whether a type is declared and can not be extended. -/
def Hierarchy.IsFinal (h : Hierarchy) (typeId : String) : Prop :=
  ∃ decl, h.get? typeId = some decl ∧ decl.isFinal = true

namespace Setting

variable {s : Setting} {site : CallSite} {b : Binding} {target : Target} {decl : TypeDecl}

/-- A call on an object that goes on to a real method: the type is intercepted and falls under a binding, no shadow
method takes the call, and the policy of the binding or the caller asks for the real method. -/
structure GoesOn (s : Setting) (site : CallSite) (b : Binding) (target : Target) : Prop where
  isInstance : site.isStatic = false
  intercepted : s.rules.intercepts site.runtimeType = true
  bound : (s.registry.lookup s.hierarchy s.level site.runtimeType).binding? = some b
  untaken : site.request = .normal → s.shadowTarget site b = .ok none
  asked : b.callsThrough = true ∨ site.request = .real
  selected : s.realTarget site = .ok (some target)

/-- The bridge of the runtime type exposes the selected method exactly if that method may be bridged. -/
theorem exposes_selected {bridge : Bridge} (hstatic : site.isStatic = false)
    (ht : s.realTarget site = .ok (some target))
    (hb : Bridge.synthesize s.hierarchy s.level site.runtimeType = .ok bridge) :
    bridge.exposes target = target.method.isBridgeable := by
  obtain ⟨_, hnearest⟩ := Bridge.cheapestIn_nearest hstatic rfl (Criteria.best?_of_select ht)
  exact Bridge.exposes_nearest hb hnearest.mem

/-- A selected method has the name that was called. -/
theorem name_of_realTarget (ht : s.realTarget site = .ok (some target)) : target.method.name = site.method.name := by
  obtain ⟨_, hcheapest⟩ := Criteria.best?_eq_some_iff.1 (Criteria.best?_of_select ht)
  have hconsiders := Criteria.considers_of_rank?_eq_some hcheapest.cost_eq
  simp only [Criteria.considers, Bool.and_eq_true, beq_iff_eq] at hconsiders
  exact hconsiders.1.1

namespace GoesOn

theorem routeReal (hg : s.GoesOn site b target) (hdecl : s.hierarchy.require site.runtimeType = .ok decl) :
    s.routeReal site b =
      .ok (if decl.isFinal then .settled (.refuse .notBridgeable) else .acrossBridge target) := by
  have hasked : (b.callsThrough || Decidable.decide (site.request = .real)) = true := by
    rcases hg.asked with h | h <;> simp [h]
  rw [Setting.routeReal, hg.selected]
  simp only [hasked, if_true, callThrough, hg.isInstance, Bool.false_eq_true, if_false, hdecl]
  rfl

theorem route (hg : s.GoesOn site b target) (hdecl : s.hierarchy.require site.runtimeType = .ok decl) :
    s.route site =
      .ok (if decl.isFinal then .settled (.refuse .notBridgeable) else .acrossBridge target) := by
  have hgoverning : (s.governing site.runtimeType).binding? = some b := by
    rw [governing, if_pos hg.intercepted, hg.bound]
  rw [Setting.route, hgoverning]
  simp only [routeBound]
  split
  · rename_i hnormal
    rw [hg.untaken hnormal]
    exact hg.routeReal hdecl
  · exact hg.routeReal hdecl

/-- Where a call that goes on to a real method goes. -/
theorem decision (hg : s.GoesOn site b target) (hdecl : s.hierarchy.require site.runtimeType = .ok decl) :
    s.decide site =
      .ok (if !decl.isFinal && target.method.isBridgeable then .through target true else .refuse .notBridgeable) := by
  unfold Setting.decide
  rw [hg.route hdecl]
  cases hfinal : decl.isFinal with
  | true => rfl
  | false =>
    obtain ⟨bridge, hb⟩ := Bridge.exists_synthesize s.level hdecl hfinal
    simp only [Bool.false_eq_true, if_false, hb, Except.map, Route.finish, exposes_selected hg.isInstance hg.selected hb]
    rfl

end GoesOn

end Setting

end Interpose
