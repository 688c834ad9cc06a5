import Interpose.Proofs.Dispatch.Soundness
import Interpose.Proofs.Execution.Moments

/-!
# Remembering is invisible

Whatever a dispatcher went through, it answers like one that was made just now and holds the registry installed
last. Calls are covered whatever their bodies do, at every moment while they run as well as afterwards, since
what running code does to a dispatcher is a run of steps.
-/

namespace Interpose.Dispatcher

/-- A dispatcher answers as its setting has it decided anew, after any run. -/
theorem resolve_after (h : Hierarchy) (rules : Rules) (level : Nat) (steps : List Step) (site : CallSite) :
    (((new h rules level).after steps).resolve site).answer =
      Setting.decide ⟨h, rules, level, lastInstalled steps⟩ site := by
  have hsound : ((new h rules level).after steps).Sound := (sound_new h rules level).after steps
  rw [hsound.resolve_answer, after_new_setting]

/-- What is remembered of a site is what would be decided anew, after any run. -/
theorem cached_after {h : Hierarchy} {rules : Rules} {level : Nat} {steps : List Step} {site : CallSite}
    {decision : Decision} (hc : ((new h rules level).after steps).cached? site = some decision) :
    Setting.decide ⟨h, rules, level, lastInstalled steps⟩ site = .ok decision := by
  have hsound : ((new h rules level).after steps).Sound := (sound_new h rules level).after steps
  rw [← after_new_setting]
  exact hsound.cached_answer hc

/-- Compare the dispatcher after any run with a new one that was given the registry installed last, and so has the same
setting and remembers no decision. Resolving a site gives the decision or the error that the new one gives, and a
decision that is reported as remembered is that decision. A program that runs from there on,
with all the bodies it calls, leaves the dispatcher after a longer run, at each of its moments and at its end. -/
theorem resolve_as_new (h : Hierarchy) (rules : Rules) (level : Nat) (steps : List Step) :
    let d := (new h rules level).after steps
    let fresh := ((new h rules level).install (lastInstalled steps)).2
    (d.setting = fresh.setting ∧ fresh.setting = ⟨h, rules, level, lastInstalled steps⟩ ∧
      ∀ site, fresh.cached? site = none) ∧
    (∀ site, (d.resolve site).answer = (fresh.resolve site).answer) ∧
    (∀ site decision, d.cached? site = some decision → (fresh.resolve site).answer = .ok decision) ∧
    ∀ (code : Code) (α : Type) (p : Program α) (m : Machine), m.dispatcher = d →
      (∃ more, (code.run p m).2.dispatcher = (new h rules level).after (steps ++ more)) ∧
      ∀ op m', code.Performs code.depth p m op m' →
        ∃ more, m'.dispatcher = (new h rules level).after (steps ++ more) := by
  have hfresh : ∀ site, (((new h rules level).install (lastInstalled steps)).2.resolve site).answer =
      Setting.decide ⟨h, rules, level, lastInstalled steps⟩ site :=
    resolve_after h rules level [.install (lastInstalled steps)]
  refine ⟨⟨after_new_setting h rules level steps, rfl, fun _ => rfl⟩, fun site => ?_, fun site decision hc => ?_, fun code α p m hm => ⟨?_, fun op m' hop => ?_⟩⟩
  · rw [resolve_after, hfresh]
  · rw [hfresh]
    exact cached_after hc
  · obtain ⟨more, hmore⟩ := (code.reaches_run p m).exists_steps
    exact ⟨more, by rw [hmore, hm, after_append]⟩
  · obtain ⟨more, hmore⟩ := hop.reaches.exists_steps
    exact ⟨more, by rw [hmore, hm, after_append]⟩

/-- A shadowed call is remembered as it would be decided anew. Its body installs another registry; what was
installed is nothing but a step then. -/
theorem resolve_as_new_button :
    let steps : List Step := [.install Sample.registry, .resolve Sample.drawButton]
    let d := (new Sample.hierarchy .none 30).after steps
    let m : Machine := ⟨1, d, Memory.blank.load Sample.hierarchy, .empty⟩
    (∃ decision, d.cached? Sample.drawButton = some decision ∧
      (((new Sample.hierarchy .none 30).install Sample.registry).2.resolve Sample.drawButton).answer =
        .ok decision) ∧
    (Sample.code.run Sample.drawNew m).1 = .done (.ok (.i32 7)) ∧
    (∃ more, (Sample.code.run Sample.drawNew m).2.dispatcher =
      (new Sample.hierarchy .none 30).after (steps ++ more)) ∧
    ∃ more, m.dispatcher = (new Sample.hierarchy .none 30).after (steps ++ more) := by
  intro steps d m
  obtain ⟨_, _, hcached, hcode⟩ := resolve_as_new Sample.hierarchy .none 30 steps
  obtain ⟨hend, hmoments⟩ := hcode Sample.code _ Sample.drawNew m rfl
  have hd : d.cached? Sample.drawButton =
      some (.shadow ⟨"ShadowView", { Sample.draw with serial := 1 }⟩) := by decide
  exact ⟨⟨_, hd, hcached _ _ hd⟩, by decide, hend, hmoments _ m .now⟩

end Interpose.Dispatcher
