import Interpose.Proofs.Pool.Health
import Interpose.Proofs.Sandbox.Cleanliness

/-!
# How a key comes back

A lease that is dropped gives its key back after its sandbox was made ready, and code runs only where the sandbox has
to be reset for that. A panic on the way leaves the key leased, with nobody to give it back. A sandbox that was got as
new has to be reset there only if a reset that its user asked for was cut short.
-/

namespace Interpose

namespace Sandbox

variable {s : Sandbox} {steps : List Step}

/-- A sandbox that can be reset and has to be before anybody else gets it. -/
def NeedsReset (s : Sandbox) : Prop :=
  s.poisoned = false ∧ s.stage.acceptsRegistry = true ∧ s.memory.isPristine = false

/-- Nothing was done to the memory of a sandbox since it was made, loaded or reset. -/
structure Unspoilt (s : Sandbox) : Prop where
  blank : s.stage = .uninitialized → s.memory = .blank
  pristine : s.stage.acceptsRegistry = true → s.memory.isPristine = true

/-- A sandbox that was just made, or one that was got as new from a pool. -/
def Fresh (s : Sandbox) : Prop :=
  s.AsNew ∨ ∃ id key h detectLeaks checks,
    s = { new id key h with detectLeaks := detectLeaks, checks := checks }

theorem Fresh.unspoilt (hs : s.Fresh) : s.Unspoilt := by
  obtain hnew | ⟨id, key, h, detectLeaks, checks, rfl⟩ := hs
  · refine ⟨fun hstage => ?_, fun _ => hnew.pristine⟩
    have hready := hnew.stage
    rw [hstage] at hready
    obtain h | h := hready <;> cases h
  · exact ⟨fun _ => rfl, fun hready => by cases hready⟩

theorem Unspoilt.not_needsReset (hs : s.Unspoilt) : ¬s.NeedsReset := by
  rintro ⟨_, hready, hdirty⟩
  rw [hs.pristine hready] at hdirty
  cases hdirty

theorem Unspoilt.step (hs : s.Unspoilt) {x : Step} (huncut : ¬s.CutShort x) : (s.step x).Unspoilt := by
  refine ⟨fun hnew => ?_, fun hready => ?_⟩
  · have hsame := step_of_uninitialized hnew
    rw [hsame] at hnew ⊢
    exact hs.blank hnew
  · cases readied_step hready with
    | kept hbefore hmemory _ =>
      rw [hmemory]
      exact hs.pristine hbefore
    | loaded hnew hmemory _ =>
      rw [hmemory, hs.blank hnew]
      exact Memory.isPristine_of_heap_empty rfl rfl rfl
    | reset _ _ hmemory _ =>
      rw [hmemory]
      exact Memory.isPristine_reset _
    | cutShort _ hcut _ _ _ => exact absurd hcut huncut

/-- A life without a reset that is cut short. -/
def Uncut (s : Sandbox) (steps : List Step) : Prop :=
  ∀ past x rest, steps = past ++ x :: rest → ¬(s.after past).CutShort x

theorem Unspoilt.after (hs : s.Unspoilt) (huncut : s.Uncut steps) : (s.after steps).Unspoilt := by
  induction steps generalizing s with
  | nil => exact hs
  | cons x rest ih =>
    refine ih (hs.step (huncut [] x rest rfl)) fun past y later hrest => ?_
    exact huncut (x :: past) y later (by rw [hrest, List.cons_append])

end Sandbox

namespace Pool

open Sandbox

variable {p : Pool} {key : SandboxKey} {code : Code} {s : Sandbox} {j : Journal}

/-- To make a sandbox ready to be put back fails only with a reset that it needs. -/
theorem tidy_eq_done_iff :
    (tidy code s j).1 = .done () ↔ (s.NeedsReset → ∃ failures, (s.resetMemory code j).1 = .done failures) := by
  unfold tidy
  split
  · rename_i hdirty
    rw [Bool.and_eq_true, Bool.not_eq_true'] at hdirty
    cases hp : s.poisoned with
    | true =>
      have hreset : s.reset code j = (.done (.error (.poisoned s.id)), s, j) := by
        rw [reset, rejection?, if_pos hp]
      rw [hreset]
      refine iff_of_true rfl fun hneeds => ?_
      have hsound := hneeds.1
      rw [hp] at hsound
      cases hsound
    | false =>
      have hneeds : s.NeedsReset := ⟨hp, hdirty⟩
      rw [reset, rejection?_eq_none hp hdirty.1]
      simp only [Outcome.andThen_assoc]
      rcases s.resetMemory code j with ⟨outcome, s', j'⟩
      cases outcome with
      | done failures =>
        refine iff_of_true ?_ fun _ => ⟨failures, rfl⟩
        cases failures <;> rfl
      | panicked payload | unfinished =>
        refine iff_of_false (by rintro ⟨⟩) fun h => ?_
        obtain ⟨_, hdone⟩ := h hneeds
        cases hdone
  · rename_i hclean
    refine iff_of_true rfl fun hneeds => absurd ?_ hclean
    rw [hneeds.2.1, hneeds.2.2]
    rfl

/-- A lease is dropped by making its sandbox ready and putting it back; where the first fails nothing changes. -/
theorem release_cases (p : Pool) (key : SandboxKey) (code : Code) (s : Sandbox) (j : Journal) :
    ((tidy code s j).1 = .done () ∧
      p.release code key s j = (.done (), (p.putBack key (tidy code s j).2.1).2, (tidy code s j).2.2)) ∨
    ((tidy code s j).1 ≠ .done () ∧ p.release code key s j = ((tidy code s j).1, p, (tidy code s j).2.2)) := by
  unfold release
  rcases tidy code s j with ⟨outcome, s', j'⟩
  cases outcome with
  | done _ => exact .inl ⟨rfl, rfl⟩
  | panicked payload | unfinished => exact .inr ⟨by rintro ⟨⟩, rfl⟩

/-- What becomes of a key that is given back with a sandbox. -/
structure GivenBack (p : Pool) (key : SandboxKey) (s : Sandbox) (q : Pool) : Prop where
  /-- There is no sandbox under the key, or an idle one. -/
  slot : q.slots.get? key = none ∨ ∃ released, q.slots.get? key = some (.idle s released)
  /-- The sandbox was pooled, though there may have been no room for it, or discarded. -/
  fate :
    isReusable s = true ∧ q.counts.discarded = p.counts.discarded ∧
      q.counts.evicted + q.idleCount = p.counts.evicted + p.idleCount + 1 ∨
    isReusable s = false ∧ q.counts.discarded = p.counts.discarded + 1 ∧ q.slots.get? key = none ∧
      q.counts.evicted + q.idleCount = p.counts.evicted + p.idleCount
  /-- Whoever asks for the key next gets the sandbox or builds one. -/
  next : (q.claim key).1 = .build ∨ (q.claim key).1 = .reuse s

theorem givenBack_putBack (hslot : p.slots.get? key = some .leased) (s : Sandbox) :
    p.GivenBack key s (p.putBack key s).2 := by
  obtain ⟨hreusable, ⟨released, hpooled⟩, _⟩ | ⟨hreusable, hdiscarded⟩ := rebooks_putBack hslot s
  · have hevicted := hpooled.evicted
    have hidle : Slot.isIdle (.idle s released) = true := rfl
    have hleased : Slot.isIdle .leased = false := rfl
    rw [Slot.count_some, Slot.count_some, hidle, hleased] at hevicted
    have hfree : (p.putBack key s).2.slots.get? key = none ∨
        (p.putBack key s).2.slots.get? key = some (.idle s released) := by
      obtain hin | ⟨hgone, _⟩ := hpooled.slot
      · exact .inr hin
      · exact .inl hgone
    refine ⟨hfree.imp_right fun h => ⟨released, h⟩, .inl ⟨hreusable, hpooled.discarded, by simpa using hevicted⟩, ?_⟩
    unfold claim
    obtain hfree | hfree := hfree
    · exact .inl (by rw [hfree])
    · exact .inr (by rw [hfree])
  · have hevicted := hdiscarded.evicted
    have hleased : Slot.isIdle .leased = false := rfl
    rw [Slot.count_some, Slot.count_none, hleased] at hevicted
    have hfree : (p.putBack key s).2.slots.get? key = none := by
      obtain hgone | ⟨_, _, _, hnone⟩ := hdiscarded.slot
      · exact hgone
      · cases hnone
    refine ⟨.inl hfree, .inr ⟨hreusable, hdiscarded.discarded, hfree, by simpa using hevicted⟩, .inl ?_⟩
    rw [claim, hfree]

/-- A key in use makes whoever asks for it wait. -/
theorem claim_of_leased (hslot : p.slots.get? key = some .leased) : (p.claim key).1 = .wait := by
  rw [claim, hslot]

end Pool

namespace Traffic

open Pool Sandbox

variable {max : Nat} {t t' : Traffic} {key : SandboxKey}

/-- Steps of users, one after another. -/
abbrev Reaches : Traffic → Traffic → Prop := Relation.ReflTransGen Step

theorem Reached.reaches (ht : Reached max t) (h : t.Reaches t') : Reached max t' := by
  induction h with
  | refl => exact ht
  | tail _ hstep ih => exact ih.step hstep

theorem lost_asks (hasks : t.Asks key t') : t'.lost = t.lost := by
  cases hasks <;> rfl

/-- What was lost once stays lost. -/
theorem mem_lost_step (hstep : Step t t') (h : key ∈ t.lost) : key ∈ t'.lost := by
  cases hstep with
  | ask k => rwa [lost_asks (asks_ask t k)]
  | @wake before after w _ =>
    have hsame := lost_asks (asks_ask { t with waiting := before ++ after } w.key)
    rwa [hsame]
  | lose => exact List.mem_cons_of_mem _ h
  | make | prepare | finish | giveUp | use | tidy | putBack | notify | clear => exact h

theorem mem_lost_reaches (h : t.Reaches t') (hkey : key ∈ t.lost) : key ∈ t'.lost := by
  induction h with
  | refl => exact hkey
  | tail _ hstep ih => exact mem_lost_step hstep ih

/-- The slot of a key that was lost is leased, and there is no lease of it. -/
theorem Reached.slot_of_lost (ht : Reached max t) (hkey : key ∈ t.lost) : t.pool.slots.get? key = some .leased := by
  have hb := ht.balanced
  have hpos : 0 < t.lost.count key := List.count_pos_iff.2 hkey
  have hle := hb.le_one key
  exact hb.slot_eq_leased_iff.2 (by omega)

/-! ## The main result -/

/-- Take a lease in a pool of any size, whatever its users did before and whatever was done with the lease, panics that
were caught included, and drop it. The drop comes to its end exactly if the sandbox needs no reset or the reset comes
to its end. Then there is no sandbox under the key or an idle one, the sandbox was pooled or counted once as discarded,
and whoever asks for the key next need not wait. If the reset does not come to its end the pool is left as it is; and
after a panic the key stays leased, so that whoever asks for it waits, whatever the users do from then on. No reset is
needed for a sandbox that was as new, or just made, when the operations on it began, if none of these operations was a
reset that was cut short. -/
theorem drop_gives_back_iff (ht : Reached max t) {before after : List Loan} {s : Sandbox}
    (hloan : t.loans = before ++ ⟨key, s, false⟩ :: after) (code : Code) (j : Journal) :
    let dropped := t.pool.release code key s j
    (dropped.1 = .done () ↔ (s.NeedsReset → ∃ failures, (s.resetMemory code j).1 = .done failures)) ∧
    (dropped.1 = .done () → t.pool.GivenBack key (Pool.tidy code s j).2.1 dropped.2.1) ∧
    (dropped.1 ≠ .done () → dropped.2.1 = t.pool ∧ t.pool.slots.get? key = some .leased) ∧
    (∀ payload, dropped.1 = .panicked payload → ∀ t',
      Reaches { t with loans := before ++ after, lost := key :: t.lost } t' →
        t'.pool.slots.get? key = some .leased ∧ (t'.pool.claim key).1 = .wait) ∧
    (∀ s₀ : Sandbox, ∀ steps, s₀.Fresh → s = s₀.after steps → s₀.Uncut steps → dropped.1 = .done ()) := by
  intro dropped
  have hslot : t.pool.slots.get? key = some .leased := ht.balanced.slot_of_lends hloan
  have houtcome : dropped.1 = (Pool.tidy code s j).1 := by
    obtain ⟨hdone, hrelease⟩ | ⟨_, hrelease⟩ := release_cases t.pool key code s j
    · exact (congrArg Prod.fst hrelease).trans hdone.symm
    · exact congrArg Prod.fst hrelease
  have hiff : dropped.1 = .done () ↔ _ := houtcome ▸ tidy_eq_done_iff
  refine ⟨hiff, fun hdone => ?_, fun hnot => ?_, fun payload hpanic t' hreach => ?_,
    fun s₀ steps hfresh hs huncut => hiff.2 fun hneeds => ?_⟩
  · obtain ⟨_, hrelease⟩ | ⟨hnot, _⟩ := release_cases t.pool key code s j
    · have hpool : dropped.2.1 = (t.pool.putBack key (Pool.tidy code s j).2.1).2 :=
        congrArg (fun r => r.2.1) hrelease
      rw [hpool]
      exact givenBack_putBack hslot _
    · exact absurd (houtcome ▸ hdone) hnot
  · obtain ⟨hdone, _⟩ | ⟨_, hrelease⟩ := release_cases t.pool key code s j
    · exact absurd (houtcome.trans hdone) hnot
    · exact ⟨congrArg (fun r => r.2.1) hrelease, hslot⟩
  · rcases htidy : Pool.tidy code s j with ⟨outcome, s', j'⟩
    obtain rfl : outcome = .panicked payload := by
      rw [htidy] at houtcome
      exact houtcome.symm.trans hpanic
    have hlost : Reached max t' := (ht.step (.lose hloan htidy)).reaches hreach
    have hleased := hlost.slot_of_lost (mem_lost_reaches hreach List.mem_cons_self)
    exact ⟨hleased, claim_of_leased hleased⟩
  · rw [hs] at hneeds
    exact absurd hneeds (hfresh.unspoilt.after huncut).not_needsReset

end Traffic

end Interpose

/-! ## A lease whose drop panics -/

namespace Interpose.Sample

/-- What the first user did with its lease: the resetter panicked half way. -/
def spoilt : Sandbox := (configured.step (.install resettable, .empty)).step (.reset halfReset, .empty)

def used : Traffic := { lent with loans := [⟨pooled, configured.step (.install resettable, .empty), false⟩] }

def misused : Traffic := { lent with loans := [⟨pooled, spoilt, false⟩] }

theorem reached_misused : Traffic.Reached 1 misused := by
  have hlent : lent.loans = [] ++ ⟨pooled, configured, false⟩ :: [] := rfl
  have hused : used.loans = [] ++ ⟨pooled, configured.step (.install resettable, .empty), false⟩ :: [] := rfl
  have hinstalled : Traffic.Reached 1 used :=
    reached_lent.step (.use hlent (.operate (.install resettable, .empty)))
  exact hinstalled.step (.use hused (.operate (.reset halfReset, .empty)))

end Interpose.Sample

namespace Interpose.Traffic

open Sample

/-- The panic of the reset was caught, and the drop of the lease panics again. The key stays leased, no sandbox was
pooled or discarded, and the next user waits. -/
theorem drop_keeps_key :
    Reached 1 misused ∧ misused.loans = [⟨pooled, spoilt, false⟩] ∧
      (misused.pool.release halfReset pooled spoilt .empty).1 = .panicked (some "half way") ∧
      (misused.pool.release halfReset pooled spoilt .empty).2.1.slots.get? pooled = some .leased ∧
      (misused.pool.release halfReset pooled spoilt .empty).2.1.counts.discarded = 0 ∧
      ((misused.pool.release halfReset pooled spoilt .empty).2.1.claim pooled).1 = .wait :=
  ⟨reached_misused, rfl, by decide, rfl, by decide, rfl⟩

/-- Dropped unused, the sandbox of the first user is idle and served to whoever asks next. Dropped with code whose
resetters return, even the spoilt one is. -/
theorem drop_gives_back_iff_two_users :
    Reached 1 lent ∧ Reached 1 misused ∧
      lent.pool.GivenBack pooled configured (lent.pool.release code pooled configured .empty).2.1 ∧
      ((lent.pool.release code pooled configured .empty).2.1.claim pooled).1 = .reuse configured ∧
      (misused.pool.release code pooled spoilt .empty).1 = .done () := by
  have hlent : lent.loans = [] ++ ⟨pooled, configured, false⟩ :: [] := rfl
  have hmisused : misused.loans = [] ++ ⟨pooled, spoilt, false⟩ :: [] := rfl
  obtain ⟨_, hback, _, _, huncut⟩ := drop_gives_back_iff reached_lent hlent code .empty
  obtain ⟨hends, _⟩ := drop_gives_back_iff reached_misused hmisused code .empty
  have hdone : (lent.pool.release code pooled configured .empty).1 = .done () := by
    refine huncut (Sandbox.new 1 pooled hierarchy) [(.configure, .empty)] (.inr ⟨1, pooled, hierarchy, true, [], rfl⟩)
      rfl fun past x rest hsteps hcut => ?_
    -- The only operation is no reset.
    have hx : x = (.configure, .empty) := by
      cases past with
      | nil => exact (List.cons.inj hsteps).1.symm
      | cons y past => simp at hsteps
    obtain ⟨_, code', hop, _⟩ := hcut
    rw [hx] at hop
    cases hop
  exact ⟨reached_lent, reached_misused, hback hdone, rfl, hends.2 fun _ => ⟨[], by decide⟩⟩

end Interpose.Traffic
