import Interpose.Proofs.Pool.Traffic

/-!
# Who has which sandbox

A slot of a pool is in use exactly if one user builds for its key or has its lease, and no two users do. So no sandbox
is in two places, and the counters of the pool account for all leases and for all sandboxes that were built. Every step
of a user changes one slot at most and books the change, which is all that has to be looked at.
-/

namespace Interpose.Traffic

open Pool

/-- The number of leases for a key. -/
def leasesIn (loans : List Loan) (key : SandboxKey) : Nat := loans.countP fun loan => key = loan.key

/-- The number of places in which there is a sandbox of an id. -/
def copies (t : Traffic) (id : Nat) : Nat :=
  t.pool.tally (Slot.holds id) + (t.loans.countP fun loan => id = loan.sandbox.id) +
    t.spare.countP fun s => id = s.id

/-- The slots in use are those of the users who build or have a lease, and the counters account for them. -/
structure Balanced (max : Nat) (t : Traffic) : Prop where
  max : t.pool.max = max
  building : ∀ key, t.pool.tallyAt Slot.isBuilding key = t.building.count key
  leased : ∀ key, t.pool.tallyAt Slot.isLeased key = leasesIn t.loans key + t.lost.count key
  outstanding : t.pool.tally Slot.isLeased = t.loans.length + t.lost.length
  granted : t.pool.counts.built + t.pool.counts.reused = t.granted
  accounts : t.pool.counts.built = t.pool.counts.evicted + t.pool.counts.discarded + t.cleared + t.pool.idleCount +
    t.loans.length + t.lost.length

/-- No sandbox is in two places, and the ids to be given out are new. -/
structure Distinct (t : Traffic) : Prop where
  once : ∀ id, t.copies id ≤ 1
  issued : ∀ id, t.nextId ≤ id → t.copies id = 0

variable {max : Nat} {t t' : Traffic} {key : SandboxKey} {old new : Option Slot} {counts : PoolCounts}

theorem inUse_isBuilding : Slot.InUse Slot.isBuilding := fun _ _ => rfl

theorem inUse_isLeased : Slot.InUse Slot.isLeased := fun _ _ => rfl

theorem balanced_new (max : Nat) : (Traffic.new max).Balanced max :=
  ⟨rfl, fun _ => rfl, fun _ => rfl, rfl, rfl, rfl⟩

theorem distinct_new (max : Nat) : (Traffic.new max).Distinct := ⟨fun _ => Nat.zero_le _, fun _ _ => rfl⟩

section Slots

variable (hb : t.Balanced max)
include hb

theorem Balanced.slot_eq_building_iff : t.pool.slots.get? key = some .building ↔ t.building.count key = 1 := by
  rw [slot_eq_iff Slot.isBuilding_iff, hb.building]

theorem Balanced.slot_eq_leased_iff :
    t.pool.slots.get? key = some .leased ↔ leasesIn t.loans key + t.lost.count key = 1 := by
  rw [slot_eq_iff Slot.isLeased_iff, hb.leased]

/-- One user at most builds for a key or has a lease for it. -/
theorem Balanced.le_one (key : SandboxKey) :
    t.building.count key + (leasesIn t.loans key + t.lost.count key) ≤ 1 := by
  rw [← hb.building, ← hb.leased]
  exact tallyAt_le_one t.pool key

theorem Balanced.slot_of_building (h : key ∈ t.building) : t.pool.slots.get? key = some .building := by
  have hpos : 0 < t.building.count key := List.count_pos_iff.2 h
  have hle := hb.le_one key
  exact hb.slot_eq_building_iff.2 (by omega)

/-- The slot of a user who builds. -/
theorem Balanced.slot_of_builds {before after : List SandboxKey} (h : t.building = before ++ key :: after) :
    t.pool.slots.get? key = some .building :=
  hb.slot_of_building (h ▸ List.mem_append_right before List.mem_cons_self)

/-- The slot of a user who has a lease. -/
theorem Balanced.slot_of_lends {before after : List Loan} {loan : Loan} (h : t.loans = before ++ loan :: after) :
    t.pool.slots.get? loan.key = some .leased := by
  have hmem : loan ∈ t.loans := h ▸ List.mem_append_right before List.mem_cons_self
  have hpos : 0 < leasesIn t.loans loan.key := List.countP_pos_iff.2 ⟨loan, hmem, decide_eq_true rfl⟩
  have hle := hb.le_one loan.key
  exact hb.slot_eq_leased_iff.2 (by omega)

/-- A step that changes one slot keeps the balance if it books the change. -/
theorem Balanced.rebook (hp : t.pool.Rebooks key old new counts t'.pool)
    (hbuilding : ∀ k, t'.building.count k + (if k = key then Slot.count Slot.isBuilding old else 0) =
      t.building.count k + if k = key then Slot.count Slot.isBuilding new else 0)
    (hleased : ∀ k, leasesIn t'.loans k + t'.lost.count k + (if k = key then Slot.count Slot.isLeased old else 0) =
      leasesIn t.loans k + t.lost.count k + if k = key then Slot.count Slot.isLeased new else 0)
    (houtstanding : t'.loans.length + t'.lost.length + Slot.count Slot.isLeased old =
      t.loans.length + t.lost.length + Slot.count Slot.isLeased new)
    (hgranted : counts.built + counts.reused + t.granted =
      t.pool.counts.built + t.pool.counts.reused + t'.granted)
    (haccounts : counts.built + t.pool.counts.evicted + t.pool.counts.discarded + Slot.count Slot.isIdle old +
        t.loans.length + t.lost.length =
      t.pool.counts.built + counts.evicted + counts.discarded + Slot.count Slot.isIdle new + t'.loans.length +
        t'.lost.length)
    (hcleared : t'.cleared = t.cleared) : t'.Balanced max where
  max := hp.max.trans hb.max
  building k := by
    have hslot := hp.tallyAt inUse_isBuilding k
    have hwas := hb.building k
    have hold : t.pool.tallyAt Slot.isBuilding key = Slot.count Slot.isBuilding old := by rw [tallyAt, hp.was]
    have hbook := hbuilding k
    by_cases hk : k = key
    · subst hk
      simp only [if_true] at hslot hbook
      omega
    · simp only [if_neg hk] at hslot hbook
      omega
  leased k := by
    have hslot := hp.tallyAt inUse_isLeased k
    have hwas := hb.leased k
    have hold : t.pool.tallyAt Slot.isLeased key = Slot.count Slot.isLeased old := by rw [tallyAt, hp.was]
    have hbook := hleased k
    by_cases hk : k = key
    · subst hk
      simp only [if_true] at hslot hbook
      omega
    · simp only [if_neg hk] at hslot hbook
      omega
  outstanding := by
    have htally := hp.inUse Slot.isLeased inUse_isLeased
    have hwas := hb.outstanding
    omega
  granted := by
    have hwas := hb.granted
    have hbuilt := hp.built
    have hreused := hp.reused
    omega
  accounts := by
    have hwas := hb.accounts
    have hbuilt := hp.built
    have hdiscarded := hp.discarded
    have hevicted := hp.evicted
    omega

end Slots

/-! ## What the steps book -/

/-- An item in the middle of a list counts for itself. -/
theorem countP_middle {α : Type} (sort : α → Bool) (before after : List α) (x : α) :
    (before ++ x :: after).countP sort = (before ++ after).countP sort + if sort x = true then 1 else 0 := by
  rw [List.countP_append, List.countP_append, List.countP_cons]
  omega

theorem leasesIn_middle (before after : List Loan) (loan : Loan) (k : SandboxKey) :
    leasesIn (before ++ loan :: after) k = leasesIn (before ++ after) k + if k = loan.key then 1 else 0 := by
  simp only [leasesIn, countP_middle, decide_eq_true_eq]

theorem leasesIn_cons (loans : List Loan) (loan : Loan) (k : SandboxKey) :
    leasesIn (loan :: loans) k = leasesIn loans k + if k = loan.key then 1 else 0 := leasesIn_middle [] loans loan k

theorem count_middle (before after : List SandboxKey) (key k : SandboxKey) :
    (before ++ key :: after).count k = (before ++ after).count k + if k = key then 1 else 0 := by
  have hcount : (before ++ key :: after).count k = (before ++ after).count k + if (key == k) = true then 1 else 0 :=
    countP_middle (· == k) before after key
  rw [hcount]
  by_cases hk : k = key
  · rw [if_pos (beq_iff_eq.2 hk.symm), if_pos hk]
  · rw [if_neg fun h => hk (beq_iff_eq.1 h).symm, if_neg hk]

theorem length_middle {α : Type} (before after : List α) (x : α) :
    (before ++ x :: after).length = (before ++ after).length + 1 := by
  rw [List.length_append, List.length_append, List.length_cons]
  omega

theorem Balanced.asks (hb : t.Balanced max) (hasks : t.Asks key t') : t'.Balanced max := by
  cases hasks with
  | build h =>
    refine hb.rebook h (fun k => ?_) (fun k => ?_) ?_ ?_ ?_ rfl
    · have hcount := count_middle [] t.building key k
      simpa [Slot.isBuilding] using hcount
    · simp [Slot.isLeased]
    · simp [Slot.isLeased]
    · simp
    · simp [Slot.isIdle, Slot.idle?]
  | reuse h =>
    refine hb.rebook h (fun k => ?_) (fun k => ?_) ?_ ?_ ?_ rfl
    · simp [Slot.isBuilding]
    · simp [leasesIn_cons, Slot.isLeased]
      omega
    · simp [Slot.isLeased]
      omega
    · simp only
      omega
    · simp [Slot.isIdle, Slot.idle?]
      omega
  | wait h => exact ⟨hb.max, hb.building, hb.leased, hb.outstanding, hb.granted, hb.accounts⟩

/-- A step that leaves the pool alone keeps the balance if it leaves as many leases for each key. -/
theorem Balanced.keep (hb : t.Balanced max) {loans : List Loan} {lost : List SandboxKey}
    (hleased : ∀ k, leasesIn loans k + lost.count k = leasesIn t.loans k + t.lost.count k)
    (houtstanding : loans.length + lost.length = t.loans.length + t.lost.length) :
    Balanced max { t with loans := loans, lost := lost } where
  max := hb.max
  building := hb.building
  leased k := (hb.leased k).trans (hleased k).symm
  outstanding := hb.outstanding.trans houtstanding.symm
  granted := hb.granted
  accounts := by
    have hwas := hb.accounts
    simp only
    omega

theorem Balanced.step (hb : t.Balanced max) (hstep : Step t t') : t'.Balanced max := by
  cases hstep with
  | ask key => exact hb.asks (asks_ask t key)
  | wake h =>
    have hwoken : ∀ waiting, Balanced max { t with waiting := waiting } := fun _ =>
      ⟨hb.max, hb.building, hb.leased, hb.outstanding, hb.granted, hb.accounts⟩
    exact (hwoken _).asks (asks_ask _ _)
  | make | prepare | notify =>
    exact ⟨hb.max, hb.building, hb.leased, hb.outstanding, hb.granted, hb.accounts⟩
  | @finish before after key before' after' s h hs =>
    have hslot := hb.slot_of_builds h
    refine hb.rebook (rebooks_finishBuild hslot).1 (fun k => ?_) (fun k => ?_) ?_ ?_ ?_ rfl
    · rw [h, count_middle]
      simp [Slot.isBuilding]
    · simp [leasesIn_cons, Slot.isLeased]
      omega
    · simp [Slot.isLeased]
      omega
    · simp only
      omega
    · simp [Slot.isIdle, Slot.idle?]
      omega
  | @giveUp before after key h =>
    have hslot := hb.slot_of_builds h
    refine hb.rebook (rebooks_abandon hslot) (fun k => ?_) (fun k => ?_) ?_ rfl ?_ rfl
    · rw [h, count_middle]
      simp [Slot.isBuilding]
    · simp [Slot.isLeased]
    · simp [Slot.isLeased]
    · simp [Slot.isIdle, Slot.idle?]
  | use h hs =>
    refine hb.keep (fun k => ?_) ?_
    · simp only [h, leasesIn_middle]
    · simp only [h, length_middle]
  | tidy h htidy =>
    refine hb.keep (fun k => ?_) ?_
    · simp only [h, leasesIn_middle]
    · simp only [h, length_middle]
  | @lose before after key s s' code j j' payload h htidy =>
    refine hb.keep (fun k => ?_) ?_
    · have hlost := count_middle [] t.lost key k
      simp only [h, leasesIn_middle, List.nil_append] at hlost ⊢
      omega
    · simp only [h, length_middle, List.length_cons]
      omega
  | @putBack before after key s h =>
    have hslot := hb.slot_of_lends h
    obtain ⟨_, ⟨released, hp⟩, _⟩ | ⟨_, hp⟩ := rebooks_putBack hslot s
    · refine hb.rebook hp (fun k => ?_) (fun k => ?_) ?_ rfl ?_ rfl
      · simp [Slot.isBuilding]
      · simp [h, leasesIn_middle, Slot.isLeased]
        omega
      · simp [h, Slot.isLeased]
        omega
      · simp [h, Slot.isIdle, Slot.idle?]
        omega
    · refine hb.rebook hp (fun k => ?_) (fun k => ?_) ?_ rfl ?_ rfl
      · simp [Slot.isBuilding]
      · simp [h, leasesIn_middle, Slot.isLeased]
        omega
      · simp [h, Slot.isLeased]
        omega
      · simp [h, Slot.isIdle, Slot.idle?]
        omega
  | clear =>
    obtain ⟨hthin, hcounts, hidle, hlength⟩ := t.pool.clear_spec
    refine ⟨hthin.max.trans hb.max, fun k => ?_, fun k => ?_, ?_, ?_, ?_⟩
    · exact (hthin.tallyAt inUse_isBuilding k).trans (hb.building k)
    · exact (hthin.tallyAt inUse_isLeased k).trans (hb.leased k)
    · exact (hthin.inUse _ inUse_isLeased).trans hb.outstanding
    · have hwas := hb.granted
      simp only [hcounts]
      exact hwas
    · have hwas := hb.accounts
      simp only [hcounts]
      omega

/-! ## Where the sandboxes are -/

theorem Distinct.of_le (hd : t.Distinct) (hcopies : ∀ id, t'.copies id ≤ t.copies id)
    (hnext : t'.nextId = t.nextId) : t'.Distinct where
  once id := Nat.le_trans (hcopies id) (hd.once id)
  issued id hid := by
    have hwas := hd.issued id (hnext ▸ hid)
    have hle := hcopies id
    omega

/-- A step that changes one slot may move sandboxes from place to place. -/
theorem Distinct.rebook (hd : t.Distinct) (hp : t.pool.Rebooks key old new counts t'.pool)
    (hmoved : ∀ id, Slot.count (Slot.holds id) new + (t'.loans.countP fun loan => id = loan.sandbox.id) +
        (t'.spare.countP fun s => id = s.id) ≤
      Slot.count (Slot.holds id) old + (t.loans.countP fun loan => id = loan.sandbox.id) +
        t.spare.countP fun s => id = s.id)
    (hnext : t'.nextId = t.nextId) : t'.Distinct := by
  refine hd.of_le (fun id => ?_) hnext
  have hslots := hp.le (Slot.holds id)
  have hothers := hmoved id
  unfold copies
  omega

theorem Distinct.asks (hd : t.Distinct) (hasks : t.Asks key t') : t'.Distinct := by
  cases hasks with
  | build h => exact hd.rebook h (fun id => by simp) rfl
  | reuse h =>
    refine hd.rebook h (fun id => ?_) rfl
    simp [List.countP_cons]
    omega
  | wait h => exact hd.of_le (fun _ => Nat.le_refl _) rfl

/-- Handling a sandbox leaves it the sandbox it is, and steps that change a slot move one from place to place. -/
theorem Distinct.step (hd : t.Distinct) (hstep : Step t t') : t'.Distinct := by
  cases hstep with
  | ask key => exact hd.asks (asks_ask t key)
  | wake h =>
    have hwoken : ∀ waiting, Distinct { t with waiting := waiting } := fun _ => ⟨hd.once, hd.issued⟩
    exact (hwoken _).asks (asks_ask _ _)
  | make key h detectLeaks checks =>
    have hmade : ∀ id, copies { t with
        spare := { Sandbox.new t.nextId key h with detectLeaks := detectLeaks, checks := checks } :: t.spare
        nextId := t.nextId + 1 } id = t.copies id + if id = t.nextId then 1 else 0 := by
      intro id
      simp only [copies, List.countP_cons, decide_eq_true_eq, Nat.add_assoc]
      rfl
    refine ⟨fun id => ?_, fun id hid => ?_⟩
    · have honce := hd.once id
      have hissued := hd.issued id
      rw [hmade]
      split <;> omega
    · have hlt : t.nextId < id := hid
      rw [hmade, hd.issued id (Nat.le_of_lt hlt), if_neg (Nat.ne_of_gt hlt)]
  | prepare h hs =>
    refine hd.of_le (fun id => ?_) rfl
    simp only [copies, h, countP_middle, hs.sameOwner.id]
    exact Nat.le_refl _
  | @finish before after key before' after' s h hs =>
    refine hd.of_le (fun id => ?_) rfl
    have hle := holds_finishBuild_le t.pool key id
    simp only [copies, hs, countP_middle, List.countP_cons]
    omega
  | @giveUp before after key h =>
    refine hd.of_le (fun id => ?_) rfl
    have hle := holds_abandon_le t.pool key id
    simp only [copies]
    omega
  | use h hs =>
    refine hd.of_le (fun id => ?_) rfl
    simp only [copies, h, countP_middle, hs.sameOwner.id]
    exact Nat.le_refl _
  | @tidy before after key s s' code j j' h htidy =>
    have hid : s'.id = s.id := by
      have hsame := sameOwner_tidy code s j
      rw [htidy] at hsame
      exact hsame.id
    refine hd.of_le (fun id => ?_) rfl
    simp only [copies, h, countP_middle, hid]
    exact Nat.le_refl _
  | lose h htidy =>
    refine hd.of_le (fun id => ?_) rfl
    simp only [copies, h, countP_middle]
    omega
  | @putBack before after key s h =>
    refine hd.of_le (fun id => ?_) rfl
    have hle := holds_putBack_le t.pool key s id
    simp only [copies, h, countP_middle, decide_eq_true_eq]
    omega
  | notify => exact hd.of_le (fun _ => Nat.le_refl _) rfl
  | clear =>
    refine hd.of_le (fun id => ?_) rfl
    have hle := t.pool.clear_spec.1.le (Slot.holds id)
    simp only [copies]
    omega

theorem Reached.balanced (ht : Reached max t) : t.Balanced max :=
  ht.of_kept (balanced_new max) Balanced.step

theorem Reached.distinct (ht : Reached max t) : t.Distinct := ht.of_kept (distinct_new max) Distinct.step

/-- Sandboxes that are idle or leased have ids of their own. -/
theorem Distinct.nodup (hd : t.Distinct) :
    ((t.pool.idleSandboxes ++ t.loans.map (·.sandbox)).map (·.id)).Nodup := by
  refine List.nodup_iff_count.2 fun id => ?_
  have hcount : ((t.pool.idleSandboxes ++ t.loans.map (·.sandbox)).map (·.id)).count id =
      (t.pool.idleSandboxes.countP fun s => id = s.id) + t.loans.countP fun loan => id = loan.sandbox.id := by
    have hid : ∀ s : Sandbox, (s.id == id) = decide (id = s.id) := fun s => by
      rw [Bool.eq_iff_iff, beq_iff_eq, decide_eq_true_iff, eq_comm]
    simp only [List.count, List.map_append, List.map_map, List.countP_append, List.countP_map, Function.comp_def, hid]
  have honce := hd.once id
  rw [copies, tally_holds] at honce
  omega

/-! ## The main result -/

/-- Take a pool of any size and whatever any number of users do with it, in any order, with builds that fail or panic,
but without a panic when a lease is dropped. At any time, the slot of a key is being built exactly if one user builds
for it, and leased exactly if one lease for it is outstanding, and never are there two users of either kind. Sandboxes
that are idle or leased are all different. Giving up a build takes out the slot that was being built and changes
nothing else. Sandboxes built and sandboxes reused make up the leases so far. The sandboxes that were built were taken
out for lack of room, discarded or cleared away, or they are idle or leased. -/
theorem exclusive (ht : Reached max t) (hlost : t.lost = []) :
    (∀ key,
      (t.pool.slots.get? key = some .building ↔ t.building.count key = 1) ∧
      (t.pool.slots.get? key = some .leased ↔ leasesIn t.loans key = 1) ∧
      t.building.count key + leasesIn t.loans key ≤ 1) ∧
    ((t.pool.idleSandboxes ++ t.loans.map (·.sandbox)).map (·.id)).Nodup ∧
    (∀ key ∈ t.building, t.pool.slots.get? key = some .building ∧
      t.pool.abandon key = { t.pool with slots := (t.pool.abandon key).slots } ∧
      ∀ k, (t.pool.abandon key).slots.get? k = if k = key then none else t.pool.slots.get? k) ∧
    t.pool.counts.built + t.pool.counts.reused = t.granted ∧
    t.pool.counts.built = t.pool.counts.evicted + t.pool.counts.discarded + t.cleared + t.pool.idleCount +
      t.loans.length := by
  have hb := ht.balanced
  have haccounts := hb.accounts
  rw [hlost, List.length_nil, Nat.add_zero] at haccounts
  refine ⟨fun key => ?_, ht.distinct.nodup, fun key hkey => ?_, hb.granted, haccounts⟩
  · have hleased : t.pool.slots.get? key = some .leased ↔ _ := hb.slot_eq_leased_iff
    have hle := hb.le_one key
    rw [hlost, List.count_nil, Nat.add_zero] at hleased hle
    exact ⟨hb.slot_eq_building_iff, hleased, hle⟩
  · exact ⟨hb.slot_of_building hkey, rfl, Table.get?_erase t.pool.slots key⟩

/-- Two users want one key. While the first one builds, giving up would free the key; when it has its lease, the slot
is leased and one lease was granted. -/
theorem exclusive_two_users :
    Reached 1 Sample.asked ∧ Sample.asked.lost = [] ∧ Reached 1 Sample.lent ∧ Sample.lent.lost = [] ∧
      (Sample.asked.pool.abandon Sample.pooled).slots.get? Sample.pooled = none ∧
      Sample.lent.pool.slots.get? Sample.pooled = some .leased ∧
      ((Sample.lent.pool.idleSandboxes ++ Sample.lent.loans.map (·.sandbox)).map (·.id)).Nodup ∧
      Sample.lent.pool.counts.built + Sample.lent.pool.counts.reused = 1 := by
  obtain ⟨_, _, hgivenUp, _⟩ := exclusive Sample.reached_asked rfl
  obtain ⟨hslots, hdistinct, _, hgranted, _⟩ := exclusive Sample.reached_lent rfl
  have hbuilding : Sample.pooled ∈ Sample.asked.building := by decide
  have hfree := (hgivenUp Sample.pooled hbuilding).2.2 Sample.pooled
  rw [if_pos rfl] at hfree
  have hleased := (hslots Sample.pooled).2.1.2 (by decide)
  exact ⟨Sample.reached_asked, rfl, Sample.reached_lent, rfl, hfree, hleased, hdistinct, hgranted⟩

end Interpose.Traffic
