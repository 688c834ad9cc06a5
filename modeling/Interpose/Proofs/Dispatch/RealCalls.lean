import Interpose.Proofs.Dispatch.Transparency

/-!
# Calls that no binding turns away

A type that is not intercepted, and a caller that asks for the real method, are served by the method that the
hierarchy declares, whatever is bound. A binding may still decide how that method is reached, straight or across
the bridge of the runtime type, and a bridge may withhold it; but it can neither replace it nor hide that it is
missing or declared twice.
-/

namespace Interpose

/-- How a call may fare that only the real method can take, given what looking for this method came to. -/
inductive ServesReal : Except Error (Option Target) → Except Error Decision → Prop
  | failed (e : Error) : ServesReal (.error e) (.error e)
  | missing : ServesReal (.ok none) (.ok (.refuse .noSuchMethod))
  | reached (target : Target) (bridged : Bool) : ServesReal (.ok (some target)) (.ok (.through target bridged))
  | withheld (target : Target) {reason : Refusal} (h : reason ≠ .noSuchMethod) :
      ServesReal (.ok (some target)) (.ok (.refuse reason))

/-- Selection fails for nothing but a winner that is declared twice. -/
theorem Criteria.select_error {c : Criteria} {h : Hierarchy} {groups : List CandidateGroup} {runtimeType : String}
    {e : Error} (hs : c.select h groups runtimeType = .error e) :
    ∃ candidates, e = .ambiguous runtimeType c.method.name candidates := by
  unfold select at hs
  split at hs
  · cases hs
  · split at hs
    · cases hs
      exact ⟨_, rfl⟩
    · cases hs

/-- A bridge can be built of every declared type that may be extended. -/
theorem Bridge.exists_synthesize {h : Hierarchy} (level : Nat) {typeId : String} {decl : TypeDecl}
    (hdecl : h.require typeId = .ok decl) (hfinal : decl.isFinal = false) :
    ∃ bridge, synthesize h level typeId = .ok bridge := by
  unfold synthesize
  rw [hdecl]
  simp only [hfinal, Bool.false_eq_true, if_false]
  exact ⟨_, rfl⟩

namespace Setting

variable {s : Setting} {site : CallSite}

/-- The lineage of a type that is not declared is empty. -/
theorem lineage_of_get?_eq_none {h : Hierarchy} {typeId : String} (hnone : h.get? typeId = none) :
    h.lineage typeId = [] := by
  have hparent : parentIn h.decls typeId = none := by
    have hdecl : h.decls.get? typeId = none := hnone
    rw [parentIn, hdecl]
    rfl
  have hancestors : h.ancestors typeId = [typeId] := by
    unfold Hierarchy.ancestors walkIn walk
    rw [hparent]
  rw [Hierarchy.lineage, hancestors, List.filterMap_cons, hnone]
  rfl

/-- Only a declared type has real methods. -/
theorem declared_of_realTarget {target : Target} (ht : s.realTarget site = .ok (some target)) :
    ∃ decl, s.hierarchy.require site.runtimeType = .ok decl := by
  cases hdecl : s.hierarchy.get? site.runtimeType with
  | some decl => exact ⟨decl, by rw [Hierarchy.require, hdecl]⟩
  | none =>
    have hgroups : s.realGroups site.runtimeType = [] := by
      rw [realGroups, lineage_of_get?_eq_none hdecl]
      rfl
    unfold realTarget at ht
    rw [hgroups] at ht
    -- Nothing is selected from no candidates, loose or not.
    have hempty : (s.criteria site true).select s.hierarchy [] site.runtimeType = .ok none := rfl
    rw [hempty] at ht
    cases ht

theorem serves_direct (target : Target) : ServesReal (.ok (some target)) (.ok (direct target)) := by
  unfold direct
  split
  · exact .reached target false
  · exact .withheld target Refusal.noConfusion

theorem serves_passThrough (s : Setting) (site : CallSite) :
    ServesReal (s.realTarget site) (s.passThrough site) := by
  unfold passThrough
  cases s.realTarget site with
  | error e => exact .failed e
  | ok target? =>
    cases target? with
    | none => exact .missing
    | some target => exact serves_direct target

/-- On a type without shadow a call goes straight to the real method. -/
theorem decide_of_unbound (hb : (s.governing site.runtimeType).binding? = none) :
    s.decide site = s.passThrough site := by
  unfold decide route
  rw [hb]
  simp only
  cases s.passThrough site with
  | error e => rfl
  | ok decision => rfl

theorem decide_of_not_intercepted (hi : s.rules.intercepts site.runtimeType = false) :
    s.decide site = s.passThrough site := by
  apply decide_of_unbound
  unfold governing
  rw [hi]
  rfl

/-- On a bound type a caller who asks for the real method gets it called through, whatever the policy. -/
theorem routeBound_of_real (hr : site.request = .real) (b : Binding) :
    s.routeBound site b =
      match s.realTarget site with
      | .error e => .error e
      | .ok target? => s.callThrough site target? := by
  have hnormal : ¬site.request = .normal := by
    rw [hr]
    exact Request.noConfusion
  unfold routeBound routeReal
  rw [if_neg hnormal, hr]
  cases s.realTarget site <;> simp

/-- A static call for the real method does not depend on whether the type is bound. -/
theorem decide_of_real_static (hr : site.request = .real) (hs : site.isStatic = true) :
    s.decide site = s.passThrough site := by
  cases hb : (s.governing site.runtimeType).binding? with
  | none => exact decide_of_unbound hb
  | some b =>
    unfold decide route passThrough
    rw [hb]
    simp only [routeBound_of_real hr]
    cases s.realTarget site with
    | error e => rfl
    | ok target? =>
      cases target? with
      | none => rfl
      | some target => simp only [callThrough, hs, if_true, Except.map]

/-- A call on an object that asks for the real method is served by it. -/
theorem serves_decide_of_real (hr : site.request = .real) : ServesReal (s.realTarget site) (s.decide site) := by
  cases hb : (s.governing site.runtimeType).binding? with
  | none =>
    rw [decide_of_unbound hb]
    exact serves_passThrough s site
  | some b =>
    cases hstatic : site.isStatic with
    | true =>
      rw [decide_of_real_static hr hstatic]
      exact serves_passThrough s site
    | false =>
      unfold decide route
      rw [hb]
      simp only [routeBound_of_real hr]
      cases ht : s.realTarget site with
      | error e => exact .failed e
      | ok target? =>
        cases target? with
        | none => exact .missing
        | some target =>
          obtain ⟨decl, hdecl⟩ := declared_of_realTarget ht
          simp only [callThrough, hstatic, Bool.false_eq_true, if_false, hdecl, Except.map]
          cases hfinal : decl.isFinal with
          | true => exact .withheld target Refusal.noConfusion
          | false =>
            obtain ⟨bridge, hbridge⟩ := Bridge.exists_synthesize s.level hdecl hfinal
            simp only [hbridge, Bool.false_eq_true, if_false, Route.finish]
            split
            · exact .reached target true
            · exact .withheld target Refusal.noConfusion

end Setting

/-! ## What two answers for one real method have in common -/

namespace ServesReal

variable {asked : Except Error (Option Target)} {answer answer' : Except Error Decision}

theorem ne_shadow (h : ServesReal asked answer) (target : Target) : answer ≠ .ok (.shadow target) := by
  intro heq
  rw [heq] at h
  cases h

theorem error_iff (h : ServesReal asked answer) (e : Error) : answer = .error e ↔ asked = .error e := by
  cases h with
  | failed e' => simp
  | missing | reached | withheld => simp

theorem noSuchMethod_iff (h : ServesReal asked answer) :
    answer = .ok (.refuse .noSuchMethod) ↔ asked = .ok none := by
  cases h with
  | failed e => simp
  | missing => simp
  | reached target bridged => simp
  | withheld target hreason => simp [hreason]

theorem target_eq (h : ServesReal asked answer) {target : Target} {bridged : Bool}
    (ha : answer = .ok (.through target bridged)) : asked = .ok (some target) := by
  rw [ha] at h
  cases h
  rfl

/-- Answers that differ are about one real method, and each either reaches it or withholds it. -/
theorem eq_or_exists_target (h : ServesReal asked answer) (h' : ServesReal asked answer') :
    answer = answer' ∨ ∃ target, ∀ a, a = answer ∨ a = answer' →
      (∃ bridged, a = .ok (.through target bridged)) ∨ a = .ok (.refuse .notBridgeable) ∨
        a = .ok (.refuse .noImplementation) := by
  have hsome : ∀ {target a}, ServesReal (.ok (some target)) a → (∃ bridged, a = .ok (.through target bridged)) ∨
      a = .ok (.refuse .notBridgeable) ∨ a = .ok (.refuse .noImplementation) := by
    intro target a ha
    cases ha with
    | reached _ bridged => exact .inl ⟨bridged, rfl⟩
    | @withheld _ reason hreason =>
      cases reason with
      | noSuchMethod => exact absurd rfl hreason
      | notBridgeable => exact .inr (.inl rfl)
      | noImplementation => exact .inr (.inr rfl)
  cases asked with
  | error e =>
    cases h
    cases h'
    exact .inl rfl
  | ok target? =>
    cases target? with
    | none =>
      cases h
      cases h'
      exact .inl rfl
    | some target =>
      right
      refine ⟨target, ?_⟩
      rintro a (rfl | rfl)
      · exact hsome h
      · exact hsome h'

end ServesReal

namespace Dispatcher

/-- Take two dispatchers for one hierarchy, one set of rules and one level, each after any run, so that any two
registries may be in force. On a type that is not intercepted, and for a static call that asks for the real method,
they answer the same. For a call on an object that asks for the real method, neither routes to a shadow; an
error, which can only be an ambiguity, and the refusal for want of a method arise in both or in neither; two
decisions to call through are for the same target; and answers that differ are about one real method, which each
either reaches, straight or across a bridge, or withholds because it is not bridgeable or has no body. -/
theorem real_calls_immune (h : Hierarchy) (rules : Rules) (level : Nat) (steps₁ steps₂ : List Step)
    (site : CallSite) :
    let a₁ := (((new h rules level).after steps₁).resolve site).answer
    let a₂ := (((new h rules level).after steps₂).resolve site).answer
    (rules.intercepts site.runtimeType = false → a₁ = a₂) ∧
    (site.request = .real → site.isStatic = true → a₁ = a₂) ∧
    (site.request = .real → site.isStatic = false →
      (∀ target, a₁ ≠ .ok (.shadow target) ∧ a₂ ≠ .ok (.shadow target)) ∧
      (∀ e, a₁ = .error e ↔ a₂ = .error e) ∧
      (∀ e, a₁ = .error e → ∃ candidates, e = .ambiguous site.runtimeType site.method.name candidates) ∧
      (a₁ = .ok (.refuse .noSuchMethod) ↔ a₂ = .ok (.refuse .noSuchMethod)) ∧
      (∀ target₁ bridged₁ target₂ bridged₂, a₁ = .ok (.through target₁ bridged₁) →
        a₂ = .ok (.through target₂ bridged₂) → target₁ = target₂) ∧
      (a₁ = a₂ ∨ ∃ target, ∀ a, a = a₁ ∨ a = a₂ →
        (∃ bridged, a = .ok (.through target bridged)) ∨ a = .ok (.refuse .notBridgeable) ∨
          a = .ok (.refuse .noImplementation))) := by
  intro a₁ a₂
  have h₁ : a₁ = Setting.decide ⟨h, rules, level, lastInstalled steps₁⟩ site := resolve_after ..
  have h₂ : a₂ = Setting.decide ⟨h, rules, level, lastInstalled steps₂⟩ site := resolve_after ..
  -- What the hierarchy declares is looked up without the registry.
  have hpass : Setting.passThrough ⟨h, rules, level, lastInstalled steps₁⟩ site =
      Setting.passThrough ⟨h, rules, level, lastInstalled steps₂⟩ site := rfl
  refine ⟨fun hi => ?_, fun hr hs => ?_, fun hr _ => ?_⟩
  · rw [h₁, h₂, Setting.decide_of_not_intercepted hi, Setting.decide_of_not_intercepted hi, hpass]
  · rw [h₁, h₂, Setting.decide_of_real_static hr hs, Setting.decide_of_real_static hr hs, hpass]
  · have hserves₁ : ServesReal (Setting.realTarget ⟨h, rules, level, lastInstalled steps₁⟩ site) a₁ := by
      rw [h₁]
      exact Setting.serves_decide_of_real hr
    have hreal : Setting.realTarget ⟨h, rules, level, lastInstalled steps₁⟩ site =
        Setting.realTarget ⟨h, rules, level, lastInstalled steps₂⟩ site := rfl
    have hserves₂ : ServesReal (Setting.realTarget ⟨h, rules, level, lastInstalled steps₁⟩ site) a₂ := by
      rw [h₂, hreal]
      exact Setting.serves_decide_of_real hr
    refine ⟨fun target => ⟨hserves₁.ne_shadow target, hserves₂.ne_shadow target⟩, fun e => ?_, fun e he => ?_, ?_,
      fun target₁ bridged₁ target₂ bridged₂ ha₁ ha₂ => ?_, hserves₁.eq_or_exists_target hserves₂⟩
    · rw [hserves₁.error_iff, hserves₂.error_iff]
    · exact Criteria.select_error ((hserves₁.error_iff e).1 he)
    · rw [hserves₁.noSuchMethod_iff, hserves₂.noSuchMethod_iff]
    · have htarget : some target₁ = some target₂ :=
        Except.ok.inj ((hserves₁.target_eq ha₁).symm.trans (hserves₂.target_eq ha₂))
      exact Option.some.inj htarget

/-- A button whose view is shadowed is drawn across its bridge for a caller who asks for the real method, and
straight without the shadow, by the same method. Where buttons are not intercepted, and for a static call, the shadow
makes no difference. -/
theorem real_calls_immune_button :
    let real : CallSite := { Sample.drawButton with request := .real }
    let static : CallSite := { real with isStatic := true }
    let excluding : Rules := Rules.none.excludeType "Button"
    let shadowed := fun rules => (new Sample.hierarchy rules 30).after [.install Sample.registry]
    let plain := fun rules => (new Sample.hierarchy rules 30).after []
    (∃ target, ((shadowed .none).resolve real).answer = .ok (.through target true) ∧
      ((plain .none).resolve real).answer = .ok (.through target false)) ∧
    ((shadowed .none).resolve static).answer = ((plain .none).resolve static).answer ∧
    ((shadowed excluding).resolve Sample.drawButton).answer = ((plain excluding).resolve Sample.drawButton).answer := by
  intro real static excluding shadowed plain
  refine ⟨?_, ?_, ?_⟩
  · obtain ⟨_, _, hobject⟩ := real_calls_immune Sample.hierarchy .none 30 [.install Sample.registry] [] real
    obtain ⟨_, _, _, _, htargets, _⟩ := hobject rfl rfl
    have h₁ : ((shadowed .none).resolve real).answer = .ok (.through ⟨"View", Sample.draw⟩ true) := by decide
    obtain ⟨target, h₂⟩ : ∃ target, ((plain .none).resolve real).answer = .ok (.through target false) :=
      ⟨⟨"View", Sample.draw⟩, by decide⟩
    have hsame : ⟨"View", Sample.draw⟩ = target := htargets _ _ _ _ h₁ h₂
    exact ⟨target, hsame ▸ h₁, h₂⟩
  · exact (real_calls_immune Sample.hierarchy .none 30 [.install Sample.registry] [] static).2.1 rfl rfl
  · exact (real_calls_immune Sample.hierarchy excluding 30 [.install Sample.registry] [] Sample.drawButton).1
      (by decide)

end Dispatcher

end Interpose
