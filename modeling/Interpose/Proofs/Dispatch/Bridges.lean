import Interpose.Call.Resolution
import Interpose.Proofs.Dispatch.Selection
import Mathlib.Data.List.Nodup

/-!
# Bridges select what calls select

A bridge offers fewer methods than the hierarchy declares: of each signature the nearest declaration only, and
that one only if it may be bridged. The real method that a call selects is the nearest declaration of its
signature. If the bridge exposes it, the bridge therefore selects it too, for the same name and arguments.
-/

namespace Interpose

/-- What is mapped to a result was one before. -/
theorem exists_of_map_eq_ok {ε α β : Type} {x : Except ε α} {f : α → β} {b : β} (h : x.map f = .ok b) :
    ∃ a, x = .ok a ∧ f a = b := by
  cases x with
  | error e => cases h
  | ok a => exact ⟨a, rfl, Except.ok.inj h⟩

namespace Bridge

variable {h : Hierarchy} {level : Nat} {typeId runtimeType : String} {bridge : Bridge} {target : Target}

theorem synthesize_eq_ok (hb : synthesize h level typeId = .ok bridge) :
    bridge = ⟨typeId, level, (firstPerKey (·.method.key) (visible h level typeId)).filter
      (·.method.isBridgeable)⟩ := by
  unfold synthesize at hb
  split at hb
  · cases hb
  · split at hb
    · cases hb
    · cases hb
      rfl

theorem isBridgeable_of_mem_targets (hb : synthesize h level typeId = .ok bridge) (ht : target ∈ bridge.targets) :
    target.method.isBridgeable = true := by
  rw [synthesize_eq_ok hb] at ht
  exact (List.mem_filter.1 ht).2

theorem targetsOf_groups (bridge : Bridge) : targetsOf bridge.groups = bridge.targets := by
  unfold targetsOf groups
  rw [List.flatMap_map]
  exact List.flatMap_singleton' _

/-- A call by way of a bridge is never ambiguous. -/
theorem select_groups (c : Criteria) (h : Hierarchy) (bridge : Bridge) (runtimeType : String) :
    c.select h bridge.groups runtimeType = .ok (c.best? h bridge.targets) := by
  have hsingle : ∀ g ∈ bridge.groups, g.2.length ≤ 1 := by
    intro g hg
    obtain ⟨t, _, rfl⟩ := List.mem_map.1 hg
    exact Nat.le_refl 1
  rw [Criteria.select_of_singletons hsingle, targetsOf_groups]

/-- The methods that a bridge chooses from are those declared for objects at its level. -/
theorem visible_eq_filter (s : Setting) (typeId : String) :
    visible s.hierarchy s.level typeId =
      (targetsOf (s.realGroups typeId)).filter fun t => !t.method.isStatic && t.method.availableAt s.level := by
  unfold visible targetsOf Setting.realGroups
  rw [List.flatMap_map, List.filter_flatMap]
  congr 1
  funext t
  rw [List.filter_map]
  rfl

/-- Among the methods for objects, nothing but the signature matters to a call on an object. -/
theorem rank?_eq_of_key_eq {c : Criteria} {s : Setting} (hstatic : c.isStatic = false) (hlevel : c.level = s.level)
    {t₁ t₂ : Target} (h₁ : t₁ ∈ visible s.hierarchy s.level typeId) (h₂ : t₂ ∈ visible s.hierarchy s.level typeId)
    (hkey : t₁.method.key = t₂.method.key) :
    c.rank? s.hierarchy t₁.method = c.rank? s.hierarchy t₂.method := by
  have hconsiders : ∀ t ∈ visible s.hierarchy s.level typeId,
      c.considers t.method = (t.method.name == c.method.name) := by
    intro t ht
    rw [visible_eq_filter] at ht
    have hmodes := List.of_mem_filter ht
    simp only [Bool.and_eq_true, Bool.not_eq_true'] at hmodes
    rw [Criteria.considers, hstatic, hlevel, hmodes.1, hmodes.2]
    simp
  have hname : t₁.method.name = t₂.method.name := congrArg MethodKey.name hkey
  have hparams : t₁.method.params = t₂.method.params := congrArg MethodKey.params hkey
  rw [Criteria.rank?, Criteria.rank?, hconsiders t₁ h₁, hconsiders t₂ h₂, hname, hparams]

/-- A target among those a bridge chooses from is in the bridge if the bridge exposes it: there is no other one of
its signature. -/
theorem mem_targets_of_exposes (hb : synthesize h level typeId = .ok bridge)
    (htarget : target ∈ firstPerKey (·.method.key) (visible h level typeId)) (he : bridge.exposes target = true) :
    target ∈ bridge.targets := by
  obtain ⟨t, ht, hsame⟩ := List.any_eq_true.1 he
  have hkey : t.method.key = target.method.key := by
    simp only [Bool.and_eq_true, decide_eq_true_eq] at hsame
    exact hsame.2
  have hfirst : t ∈ firstPerKey (·.method.key) (visible h level typeId) := by
    rw [synthesize_eq_ok hb] at ht
    exact List.mem_of_mem_filter ht
  have heq : t = target := List.inj_on_of_nodup_map (nodup_keys_firstPerKey _) hfirst htarget hkey
  exact heq ▸ ht

/-- The real method that a call on an object selects is the nearest declaration of its signature, and still the best
one when nothing but the nearest declarations counts. -/
theorem cheapestIn_nearest {c : Criteria} {s : Setting} (hstatic : c.isStatic = false) (hlevel : c.level = s.level)
    (hbest : c.best? s.hierarchy (targetsOf (s.realGroups typeId)) = some target) :
    ∃ rank, CheapestIn (fun t => c.rank? s.hierarchy t.method)
      (firstPerKey (·.method.key) (visible s.hierarchy s.level typeId)) target rank := by
  obtain ⟨rank, hcheapest⟩ := Criteria.best?_eq_some_iff.1 hbest
  have hconsiders : c.considers target.method = true := Criteria.considers_of_rank?_eq_some hcheapest.cost_eq
  have hvisible : CheapestIn (fun t => c.rank? s.hierarchy t.method) (visible s.hierarchy s.level typeId) target
      rank := by
    rw [visible_eq_filter]
    apply hcheapest.filter
    simp only [Criteria.considers, hstatic, hlevel, Bool.and_eq_true, beq_iff_eq] at hconsiders
    rw [hconsiders.1.2, hconsiders.2]
    rfl
  exact ⟨rank, hvisible.firstPerKey (·.method.key)
    fun _ h₁ _ h₂ hkey => rank?_eq_of_key_eq hstatic hlevel h₁ h₂ hkey⟩

/-- If the bridge of a type exposes the real method that a call on its objects selects, the call selects it in the
bridge as well. -/
theorem best?_targets {c : Criteria} {s : Setting} (hb : synthesize s.hierarchy s.level typeId = .ok bridge)
    (hstatic : c.isStatic = false) (hlevel : c.level = s.level)
    (hbest : c.best? s.hierarchy (targetsOf (s.realGroups typeId)) = some target)
    (he : bridge.exposes target = true) : c.best? s.hierarchy bridge.targets = some target := by
  obtain ⟨rank, hfirst⟩ := cheapestIn_nearest hstatic hlevel hbest
  have hbridgeable := isBridgeable_of_mem_targets hb (mem_targets_of_exposes hb hfirst.mem he)
  rw [synthesize_eq_ok hb]
  exact Criteria.best?_eq_some_iff.2 ⟨rank, hfirst.filter hbridgeable⟩

end Bridge

/-- What is known of a route, however it was found: it leads across a bridge only for a call on an object, and
then to the real method; and nothing else settles on going across a bridge. -/
def Route.Sent (s : Setting) (site : CallSite) : Route → Prop
  | .settled decision => ∀ target, decision ≠ .through target true
  | .acrossBridge target => site.isStatic = false ∧ s.realTarget site = .ok (some target)

namespace Setting

variable {s : Setting} {site : CallSite} {route : Route} {target : Target}

theorem direct_ne (target t : Target) : direct target ≠ .through t true := by
  unfold direct
  split
  · intro h
    cases h
  · exact Decision.noConfusion

theorem sent_callThrough {target? : Option Target} (ht : s.realTarget site = .ok target?)
    (hr : s.callThrough site target? = .ok route) : route.Sent s site := by
  cases target? with
  | none =>
    cases hr
    exact fun _ => Decision.noConfusion
  | some target =>
    unfold callThrough at hr
    cases hstatic : site.isStatic with
    | true =>
      simp only [hstatic, if_true] at hr
      cases hr
      exact direct_ne target
    | false =>
      simp only [hstatic, Bool.false_eq_true, if_false] at hr
      obtain ⟨decl, _, rfl⟩ := exists_of_map_eq_ok hr
      split
      · exact fun _ => Decision.noConfusion
      · exact ⟨hstatic, ht⟩

theorem sent_routeReal {b : Binding} (hr : s.routeReal site b = .ok route) : route.Sent s site := by
  unfold routeReal at hr
  split at hr
  · cases hr
  · rename_i target? ht
    split at hr
    · exact sent_callThrough ht hr
    · cases hr
      cases target? <;> exact fun _ => Decision.noConfusion

theorem sent_route (hr : s.route site = .ok route) : route.Sent s site := by
  unfold Setting.route at hr
  split at hr
  · unfold routeBound at hr
    split at hr
    · split at hr
      · cases hr
      · cases hr
        exact fun _ => Decision.noConfusion
      · exact sent_routeReal hr
    · exact sent_routeReal hr
  · obtain ⟨_, hpass, rfl⟩ := exists_of_map_eq_ok hr
    obtain ⟨target?, _, rfl⟩ := exists_of_map_eq_ok hpass
    cases target? with
    | none => exact fun _ => Decision.noConfusion
    | some target => exact direct_ne target

/-- A decision to go across the bridge is for a call on an object, to the real method, and the bridge of the
runtime type exposes that method. -/
theorem decide_through_bridge (hd : s.decide site = .ok (.through target true)) :
    site.isStatic = false ∧ s.realTarget site = .ok (some target) ∧
      ∃ bridge, Bridge.synthesize s.hierarchy s.level site.runtimeType = .ok bridge ∧
        bridge.exposes target = true := by
  unfold decide at hd
  split at hd
  · cases hd
  · rename_i decision hroute
    cases hd
    exact absurd rfl (sent_route hroute target)
  · rename_i t hroute
    have hsent := sent_route hroute
    obtain ⟨bridge, hb, hfinish⟩ := exists_of_map_eq_ok hd
    simp only [Route.finish] at hfinish
    split at hfinish
    · rename_i he
      cases hfinish
      exact ⟨hsent.1, hsent.2, bridge, hb, he⟩
    · cases hfinish

/-- Where a call goes across the bridge of the runtime type, the bridge selects the same method by itself, for the
same name and arguments, and that method has a body. -/
theorem bridge_selects (hd : s.decide site = .ok (.through target true)) :
    ∃ bridge, Bridge.synthesize s.hierarchy s.level site.runtimeType = .ok bridge ∧
      bridge.exposes target = true ∧ target.method.name = site.method.name ∧ target.method.isBridgeable = true ∧
      (⟨site.method, false, bridge.level, true⟩ : Criteria).select s.hierarchy bridge.groups site.runtimeType =
        .ok (some target) := by
  obtain ⟨hstatic, hreal, bridge, hb, he⟩ := decide_through_bridge hd
  have hbest := Criteria.best?_of_select hreal
  have hpick := Bridge.best?_targets hb hstatic rfl hbest he
  obtain ⟨rank, hcheapest⟩ := Criteria.best?_eq_some_iff.1 hpick
  have hconsiders := Criteria.considers_of_rank?_eq_some hcheapest.cost_eq
  have hname : target.method.name = site.method.name := by
    simp only [Criteria.considers, Bool.and_eq_true, beq_iff_eq] at hconsiders
    exact hconsiders.1.1
  have hcriteria : (⟨site.method, false, bridge.level, true⟩ : Criteria) = s.criteria site true := by
    rw [Bridge.synthesize_eq_ok hb, criteria, hstatic]
  refine ⟨bridge, hb, he, hname, Bridge.isBridgeable_of_mem_targets hb hcheapest.mem, ?_⟩
  rw [hcriteria, Bridge.select_groups, hpick]

end Setting

end Interpose
