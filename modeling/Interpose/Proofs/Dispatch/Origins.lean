import Interpose.Proofs.Dispatch.Bridges

/-!
# Where decisions come from

A decision names a target only if some search found it: the one among the methods of the shadow that the call falls
under, or the one among the methods that the runtime type and its ancestors declare. A no-op stands for a real method
that was found as well. The inversion below says this for every decision; nothing is said of why a call is refused.
-/

namespace Interpose.Setting

variable {s : Setting} {site : CallSite} {b : Binding} {target : Target} {target? : Option Target}
  {decision : Decision}

/-- A decision with the search that it comes from. -/
inductive Origin (s : Setting) (site : CallSite) : Decision → Prop
  | shadow {b : Binding} {target : Target} (hb : (s.governing site.runtimeType).binding? = some b)
      (ht : s.shadowTarget site b = .ok (some target)) : Origin s site (.shadow target)
  | straight {target : Target} (ht : s.realTarget site = .ok (some target)) (hbody : target.method.hasBody = true) :
      Origin s site (.through target false)
  | across {target : Target} {bridge : Bridge} (hstatic : site.isStatic = false)
      (ht : s.realTarget site = .ok (some target))
      (hb : Bridge.synthesize s.hierarchy s.level site.runtimeType = .ok bridge)
      (he : bridge.exposes target = true) : Origin s site (.through target true)
  | noOp {target : Target} (ht : s.realTarget site = .ok (some target)) : Origin s site (.noOp target.method.returns)
  | refuse (reason : Refusal) : Origin s site (.refuse reason)

theorem origin_direct (ht : s.realTarget site = .ok (some target)) : s.Origin site (direct target) := by
  unfold direct
  split
  · rename_i hbody
    exact .straight ht hbody
  · exact .refuse _

theorem origin_passThrough (hd : s.passThrough site = .ok decision) : s.Origin site decision := by
  obtain ⟨target?, ht, rfl⟩ := exists_of_map_eq_ok hd
  cases target? with
  | none => exact .refuse _
  | some target => exact origin_direct ht

theorem origin_callThrough (ht : s.realTarget site = .ok target?)
    (hr : s.callThrough site target? = .ok (.settled decision)) : s.Origin site decision := by
  cases target? with
  | none =>
    cases hr
    exact .refuse _
  | some target =>
    unfold callThrough at hr
    cases hstatic : site.isStatic with
    | true =>
      simp only [hstatic, if_true] at hr
      cases hr
      exact origin_direct ht
    | false =>
      simp only [hstatic, Bool.false_eq_true, if_false] at hr
      obtain ⟨decl, _, hroute⟩ := exists_of_map_eq_ok hr
      split at hroute <;> cases hroute
      exact .refuse _

theorem origin_routeReal (hr : s.routeReal site b = .ok (.settled decision)) : s.Origin site decision := by
  unfold routeReal at hr
  split at hr
  · cases hr
  · rename_i target? ht
    split at hr
    · exact origin_callThrough ht hr
    · cases hr
      cases target? with
      | none => exact .refuse _
      | some target => exact .noOp ht

theorem origin_routeBound (hb : (s.governing site.runtimeType).binding? = some b)
    (hr : s.routeBound site b = .ok (.settled decision)) : s.Origin site decision := by
  unfold routeBound at hr
  split at hr
  · split at hr
    · cases hr
    · rename_i ht
      cases hr
      exact .shadow hb ht
    · exact origin_routeReal hr
  · exact origin_routeReal hr

theorem origin_route (hr : s.route site = .ok (.settled decision)) : s.Origin site decision := by
  unfold Setting.route at hr
  split at hr
  · rename_i b hb
    exact origin_routeBound hb hr
  · obtain ⟨_, hd, hsettled⟩ := exists_of_map_eq_ok hr
    cases hsettled
    exact origin_passThrough hd

/-- Every decision has an origin. -/
theorem origin_decide (hd : s.decide site = .ok decision) : s.Origin site decision := by
  unfold Setting.decide at hd
  split at hd
  · cases hd
  · rename_i decision hroute
    cases hd
    exact origin_route hroute
  · rename_i target hroute
    obtain ⟨hstatic, ht⟩ := sent_route hroute
    obtain ⟨bridge, hb, rfl⟩ := exists_of_map_eq_ok hd
    simp only [Route.finish]
    split
    · rename_i he
      exact .across hstatic ht hb he
    · exact .refuse _

end Interpose.Setting
