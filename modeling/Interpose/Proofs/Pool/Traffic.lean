import Interpose.Proofs.Sandbox.Readiness
import Interpose.Proofs.Pool.Room

/-!
# Users of a pool, at the same time

Any number of users share a pool. What a user does under the lock of the pool is one step: claiming a key, entering
what was built, giving a build up, putting a sandbox back and clearing. Between these steps, and between those of one
user, anything may happen that other users do: sandboxes are built, used and made ready to be put back without the
lock. A user who finds its key in use begins to wait in the step of its claim, and when it wakes up it claims again.
Whoever took a slot out of use notifies all who wait, in a step of its own after the lock was released.

The state records what each user is about: building for a key, waiting for it, holding a lease, or having still to
notify. Users who are about nothing are not recorded, so there may be any number of them. A sandbox is told from others
by its id, which is never given out twice.
-/

namespace Interpose

/-- A user who waits for a key. -/
structure Waiter where
  key : SandboxKey
  /-- Whether it was notified since it began to wait. -/
  notified : Bool

/-- The lease of a user. -/
structure Loan where
  key : SandboxKey
  sandbox : Sandbox
  /-- Whether the lease was dropped and its sandbox is ready to be put back. -/
  returning : Bool

/-- A pool and its users. -/
structure Traffic where
  pool : Pool
  /-- The keys that users are building for. -/
  building : List SandboxKey
  waiting : List Waiter
  loans : List Loan
  /-- The keys of slots that users took out of use, who have still to notify. -/
  notices : List SandboxKey
  /-- The keys of leases whose drop panicked. -/
  lost : List SandboxKey
  /-- Sandboxes that no user has leased yet. -/
  spare : List Sandbox
  nextId : Nat
  /-- The number of leases so far. -/
  granted : Nat
  /-- The number of sandboxes that were destroyed by clearing. -/
  cleared : Nat

/-- What someone who has a sandbox may do with it: the operations of its life, with whatever code, and operations done
directly on its memory. -/
inductive Sandbox.Handled (s : Sandbox) : Sandbox → Prop
  | operate (x : Sandbox.Step) : Handled s (s.step x)
  | touch (op : Op) : Handled s { s with memory := s.memory.does s.hierarchy op }

theorem Sandbox.Handled.sameOwner {s s' : Sandbox} (h : s.Handled s') : s.SameOwner s' := by
  cases h with
  | operate x => exact Sandbox.sameOwner_step s x
  | touch op => exact ⟨rfl, rfl, rfl, rfl⟩

/-- To make a sandbox ready to be put back is to reset it or to do nothing. -/
theorem Pool.tidy_sandbox (code : Code) (s : Sandbox) (j : Journal) :
    (tidy code s j).2.1 = s ∨ (tidy code s j).2.1 = s.step (.reset code, j) := by
  unfold tidy
  split
  · exact .inr (congrArg Prod.fst (Outcome.andThen_snd _ _))
  · exact .inl rfl

theorem Pool.sameOwner_tidy (code : Code) (s : Sandbox) (j : Journal) : s.SameOwner (tidy code s j).2.1 := by
  obtain hsame | hreset := tidy_sandbox code s j
  · rw [hsame]
    exact .refl s
  · rw [hreset]
    exact Sandbox.sameOwner_step s _

namespace Traffic

def new (max : Nat) : Traffic := ⟨.new max, [], [], [], [], [], [], 1, 0, 0⟩

/-- A user claims a key, and builds, has a lease or waits then. -/
def ask (t : Traffic) (key : SandboxKey) : Traffic :=
  match t.pool.claim key with
  | (.build, p) => { t with pool := p, building := key :: t.building }
  | (.reuse s, p) => { t with pool := p, loans := ⟨key, s, false⟩ :: t.loans, granted := t.granted + 1 }
  | (.wait, p) => { t with pool := p, waiting := ⟨key, false⟩ :: t.waiting }

/-- What becomes of a user who asks. -/
inductive Asks (t : Traffic) (key : SandboxKey) : Traffic → Prop
  | build {p : Pool} (h : t.pool.Rebooks key none (some .building) t.pool.counts p) :
      Asks t key { t with pool := p, building := key :: t.building }
  | reuse {s : Sandbox} {released : Nat} {p : Pool}
      (h : t.pool.Rebooks key (some (.idle s released)) (some .leased)
        { t.pool.counts with reused := t.pool.counts.reused + 1 } p) :
      Asks t key { t with pool := p, loans := ⟨key, s, false⟩ :: t.loans, granted := t.granted + 1 }
  | wait (h : t.pool.slots.get? key = some .building ∨ t.pool.slots.get? key = some .leased) :
      Asks t key { t with
        pool := { t.pool with counts := { t.pool.counts with waits := t.pool.counts.waits + 1 } }
        waiting := ⟨key, false⟩ :: t.waiting }

theorem asks_ask (t : Traffic) (key : SandboxKey) : t.Asks key (t.ask key) := by
  have hclaims := t.pool.claims_claim key
  unfold ask
  rcases hc : t.pool.claim key with ⟨answer, p⟩
  rw [hc] at hclaims
  cases hclaims with
  | build h => exact .build h
  | reuse h => exact .reuse h
  | wait h => exact .wait h

inductive Step : Traffic → Traffic → Prop
  | ask (t : Traffic) (key : SandboxKey) : Step t (t.ask key)
  /-- A user who waits wakes up, which it may do without being notified, and claims its key again. -/
  | wake {t : Traffic} {before after : List Waiter} {w : Waiter} (h : t.waiting = before ++ w :: after) :
      Step t (ask { t with waiting := before ++ after } w.key)
  /-- A sandbox is made. -/
  | make (t : Traffic) (key : SandboxKey) (h : Hierarchy) (detectLeaks : Bool) (checks : List LeakCheck) :
      Step t { t with
        spare := { Sandbox.new t.nextId key h with detectLeaks := detectLeaks, checks := checks } :: t.spare
        nextId := t.nextId + 1 }
  | prepare {t : Traffic} {before after : List Sandbox} {s s' : Sandbox} (h : t.spare = before ++ s :: after)
      (hs : s.Handled s') : Step t { t with spare := before ++ s' :: after }
  /-- A build succeeds, with a sandbox that is nobody else's. -/
  | finish {t : Traffic} {before after : List SandboxKey} {key : SandboxKey} {before' after' : List Sandbox}
      {s : Sandbox} (h : t.building = before ++ key :: after) (hs : t.spare = before' ++ s :: after') :
      Step t { t with
        pool := (t.pool.finishBuild key).2
        building := before ++ after
        spare := before' ++ after'
        loans := ⟨key, s, false⟩ :: t.loans
        granted := t.granted + 1 }
  /-- A build fails or panics. -/
  | giveUp {t : Traffic} {before after : List SandboxKey} {key : SandboxKey}
      (h : t.building = before ++ key :: after) :
      Step t { t with
        pool := t.pool.abandon key
        building := before ++ after
        notices := key :: t.notices }
  /-- A lease is used. -/
  | use {t : Traffic} {before after : List Loan} {key : SandboxKey} {s s' : Sandbox}
      (h : t.loans = before ++ ⟨key, s, false⟩ :: after) (hs : s.Handled s') :
      Step t { t with loans := before ++ ⟨key, s', false⟩ :: after }
  /-- A lease is dropped, and its sandbox made ready to be put back. -/
  | tidy {t : Traffic} {before after : List Loan} {key : SandboxKey} {s s' : Sandbox} {code : Code} {j j' : Journal}
      (h : t.loans = before ++ ⟨key, s, false⟩ :: after) (htidy : Pool.tidy code s j = (.done (), s', j')) :
      Step t { t with loans := before ++ ⟨key, s', true⟩ :: after }
  /-- A panic on the way back: the sandbox is gone, and its slot stays as it is. -/
  | lose {t : Traffic} {before after : List Loan} {key : SandboxKey} {s s' : Sandbox} {code : Code} {j j' : Journal}
      {payload : Option String} (h : t.loans = before ++ ⟨key, s, false⟩ :: after)
      (htidy : Pool.tidy code s j = (.panicked payload, s', j')) :
      Step t { t with loans := before ++ after, lost := key :: t.lost }
  | putBack {t : Traffic} {before after : List Loan} {key : SandboxKey} {s : Sandbox}
      (h : t.loans = before ++ ⟨key, s, true⟩ :: after) :
      Step t { t with
        pool := (t.pool.putBack key s).2
        loans := before ++ after
        notices := key :: t.notices }
  | notify {t : Traffic} {before after : List SandboxKey} {key : SandboxKey}
      (h : t.notices = before ++ key :: after) :
      Step t { t with
        notices := before ++ after
        waiting := t.waiting.map fun w => { w with notified := true } }
  | clear (t : Traffic) : Step t { t with pool := t.pool.clear.2, cleared := t.cleared + t.pool.clear.1.length }

/-- What becomes of a new pool of a given size, whatever its users do and in whatever order. -/
inductive Reached (max : Nat) : Traffic → Prop
  | new : Reached max (Traffic.new max)
  | step {t t' : Traffic} (ht : Reached max t) (hstep : Step t t') : Reached max t'

/-- What holds in the beginning and is kept by every step holds all the time. -/
theorem Reached.of_kept {P : Traffic → Prop} {max : Nat} {t : Traffic} (h : Reached max t)
    (hnew : P (Traffic.new max)) (hkept : ∀ {t t'}, P t → Step t t' → P t') : P t := by
  induction h with
  | new => exact hnew
  | step _ hstep ih => exact hkept ih hstep

/-! ## One user without others in between -/

/-- To ask for a key and to build, without a step of others in between, is a run of a few steps. -/
theorem Reached.acquire {max : Nat} {t : Traffic} (ht : Reached max t) (key : SandboxKey) {build : Pool.Builder}
    {j : Journal} (hbuild : ∀ s, (build j).1 = .done (.ok s) → s ∈ t.spare) :
    ∃ t', Reached max t' ∧ t'.pool = (t.pool.acquire key build j).2.1 := by
  have hasked := ht.step (.ask t key)
  unfold Traffic.ask at hasked
  unfold Pool.acquire
  rcases hc : t.pool.claim key with ⟨answer, p⟩
  rw [hc] at hasked
  cases answer with
  | wait => exact ⟨_, hasked, rfl⟩
  | reuse s => exact ⟨_, hasked, rfl⟩
  | build =>
    have hgivenUp := hasked.step (.giveUp (List.nil_append (key :: t.building)).symm)
    rcases hb : build j with ⟨outcome, j'⟩
    cases outcome with
    | done answer =>
      cases answer with
      | ok s =>
        obtain ⟨before, after, hspare⟩ := List.append_of_mem (hbuild s (by rw [hb]))
        exact ⟨_, hasked.step (.finish (List.nil_append (key :: t.building)).symm hspare), rfl⟩
      | error e => exact ⟨_, hgivenUp, rfl⟩
    | panicked payload => exact ⟨_, hgivenUp, rfl⟩
    | unfinished => exact ⟨_, hgivenUp, rfl⟩

/-- So is the drop of a lease. -/
theorem Reached.release {max : Nat} {t : Traffic} (ht : Reached max t) {key : SandboxKey} {s : Sandbox}
    (hloan : ⟨key, s, false⟩ ∈ t.loans) (code : Code) (j : Journal) :
    ∃ t', Reached max t' ∧ t'.pool = (t.pool.release code key s j).2.1 := by
  obtain ⟨before, after, hloans⟩ := List.append_of_mem hloan
  unfold Pool.release
  rcases htidy : Pool.tidy code s j with ⟨outcome, s', j'⟩
  cases outcome with
  | done _ => exact ⟨_, (ht.step (.tidy hloans htidy)).step (.putBack rfl), rfl⟩
  | panicked payload => exact ⟨_, ht.step (.lose hloans htidy), rfl⟩
  | unfinished => exact ⟨t, ht, rfl⟩

end Traffic

/-! ## Two users and one key -/

namespace Sample

def pooled : SandboxKey := ⟨.none, 30⟩

def configured : Sandbox := (Sandbox.new 1 pooled hierarchy).step (.configure, .empty)

/-- Two users asked for a key. The first one builds, and the second one waits. -/
def asked : Traffic := ((Traffic.new 1).ask pooled).ask pooled

/-- A sandbox is there for the first user, and not configured yet. -/
def made : Traffic := { asked with spare := [Sandbox.new 1 pooled hierarchy], nextId := 2 }

def built : Traffic := { made with spare := [configured] }

/-- The first user has it. -/
def lent : Traffic :=
  { built with
    pool := (built.pool.finishBuild pooled).2
    building := []
    spare := []
    loans := [⟨pooled, configured, false⟩]
    granted := 1 }

/-- The first user drops its lease. -/
def dropped : Traffic := { lent with loans := [⟨pooled, configured, true⟩] }

/-- The sandbox was put back, and the second user was not notified yet. -/
def returned : Traffic :=
  { dropped with
    pool := (dropped.pool.putBack pooled configured).2
    loans := []
    notices := [pooled] }

theorem reached_asked : Traffic.Reached 1 asked := (Traffic.Reached.new.step (.ask _ pooled)).step (.ask _ pooled)

theorem reached_built : Traffic.Reached 1 built := by
  have hmade : Traffic.Reached 1 made := reached_asked.step (.make _ pooled hierarchy true [])
  have hspare : made.spare = [] ++ Sandbox.new 1 pooled hierarchy :: [] := rfl
  exact hmade.step (.prepare hspare (.operate (.configure, .empty)))

theorem reached_lent : Traffic.Reached 1 lent := by
  have hkey : built.building = [] ++ pooled :: [] := rfl
  have hspare : built.spare = [] ++ configured :: [] := rfl
  exact reached_built.step (.finish hkey hspare)

theorem reached_dropped : Traffic.Reached 1 dropped := by
  have hloan : lent.loans = [] ++ ⟨pooled, configured, false⟩ :: [] := rfl
  have htidy : Pool.tidy code configured .empty = (.done (), configured, .empty) := rfl
  exact reached_lent.step (.tidy hloan htidy)

theorem reached_returned : Traffic.Reached 1 returned := by
  have hloan : dropped.loans = [] ++ ⟨pooled, configured, true⟩ :: [] := rfl
  exact reached_dropped.step (.putBack hloan)

end Sample

end Interpose
