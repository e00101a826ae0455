import ScratchBird.Proofs.RetentionGaps

/-!
# The cleanup horizon never goes back

The horizon is the least number something holds back: an unresolved transaction,
or a commit that an active stable reader does not see. A commit enters the second
group when a reader appears that began before it, so the set could grow downwards.
It does not, because a reader takes its boundary when it begins: every commit
behind the boundary of a new reader is still to come, and was unresolved, hence
held back already, until it happened. The one thing to exclude is an entry that
is there, with its boundary fixed, but not yet active, and no operation leaves
one.
-/

namespace ScratchBird.Mga

open Lib

variable {inventory before after : LocalTransactionInventory} {e old x : TransactionInventoryEntry}
  {millis : Nat} {op : InventoryOperation} {s t : TransactionState}

/-! ## What an operation adds -/

theorem recovered_nextLocalTransactionId
    (h : (applyLocalTransactionInventoryRecovery before millis).diagnostic = none) :
    (applyLocalTransactionInventoryRecovery before
      millis).recoveredInventory.nextLocalTransactionId =
        before.nextLocalTransactionId := by
  revert h
  fun_cases applyLocalTransactionInventoryRecovery before millis with
  | case1 _ hsome => exact fun h => absurd hsome (by rw [h]; exact Bool.false_ne_true)
  | case2 =>
    intro h
    cases h
  | case3 => exact fun _ => rfl

theorem resolved_nextLocalTransactionId {num : Nat} {decision : LimboOperatorDecision}
    {policy : LimboOperatorResolutionPolicy} {r : TransactionInventoryResult}
    (h : resolveLimboLocalTransactionWithOperatorDecision before num decision
      millis policy = .ok r) :
    r.inventory.nextLocalTransactionId = before.nextLocalTransactionId := by
  rw [resolveLimboLocalTransactionWithOperatorDecision] at h
  split at h
  · cases h
  simp only [recoveryInventoryError, guard_eq_ok_iff] at h
  obtain ⟨-, -, -, -, h⟩ := h
  split at h
  · cases h
  simp only [guard_eq_ok_iff, bind_eq_ok_iff] at h
  obtain ⟨-, -, e₁, -, e₂, -, h⟩ := h
  split at h <;> cases h <;> rfl

/-- An operation that moves the counter of numbers is a begin. -/
theorem begun_of_apply (h : op.apply before = .ok after) :
    after.nextLocalTransactionId = before.nextLocalTransactionId ∨ ∃ uuid millis first begun flag,
        beginLocalTransactionWithState before uuid millis first = .ok begun ∧
          after.entries = before.entries ++ [{ begun.entry with stableSnapshot := flag }] := by
  cases op
  case recover millis =>
    rw [InventoryOperation.apply] at h
    split at h
    · cases h
    · next hnone =>
      cases h
      exact .inl (recovered_nextLocalTransactionId hnone)
  all_goals obtain ⟨r, hr, rfl⟩ := map_eq_ok_iff.mp h
  case begin | beginReadOnly =>
    obtain ⟨-, -, -, -, -, hentry, hinv⟩ := beginLocalTransactionWithState_ok hr
    refine .inr ⟨_, _, _, r, r.entry.stableSnapshot, hr, ?_⟩
    rw [hinv]
  case beginWithIsolation readOnly stable uuid millis =>
    obtain ⟨first, begun, hbegin, hinv⟩ := beginWithIsolation_ok hr
    refine .inr ⟨_, _, _, begun, stable, hbegin, ?_⟩
    rw [hinv]
  case resolveLimbo => exact .inl (resolved_nextLocalTransactionId hr)
  all_goals left
  case prepare =>
    rcases prepareLocalTransactionDurable_ok hr with
      hroll | ⟨-, -, -, -, -, -, -, -, hinv⟩
    · obtain ⟨-, -, -, -, hinv⟩ := rollbackLocalTransaction_ok hroll
      exact hinv ▸ rfl
    · exact hinv ▸ rfl
  case commit =>
    obtain ⟨-, -, -, -, -, -, hinv⟩ := commitLocalTransaction_ok hr
    exact hinv ▸ rfl
  case rollback =>
    obtain ⟨-, -, -, -, hinv⟩ := rollbackLocalTransaction_ok hr
    exact hinv ▸ rfl
  case markRollbackOnly =>
    obtain ⟨-, -, -, hinv⟩ := markLocalTransactionRollbackOnly_ok hr
    exact hinv ▸ rfl
  case archive =>
    obtain ⟨-, -, -, -, hinv⟩ := archiveLocalTransaction_ok hr
    exact hinv ▸ rfl
  case compact =>
    rw [compactLocalTransactionInventory, inventoryError, inventoryError,
      guard_eq_ok_iff, guard_eq_ok_iff] at hr
    obtain ⟨-, -, hr⟩ := hr
    split at hr <;> cases hr
    rfl

/-- An entry whose number is new begins at the present boundary and is not left
half begun. -/
theorem new_entry_of_apply (hwf : WellFormed before) (h : op.apply before = .ok after)
    (hx : x ∈ after.entries) (hnew : before.nextLocalTransactionId ≤ x.localId) :
    x.beginVisibleThroughCommitSequence = before.nextCommitSequence - 1 ∧ x.state ≠ .created ∧
      x.beginVisibleThroughLocalTransactionId = before.nextLocalTransactionId - 1 := by
  have hlt := ((evolves_apply hwf h).wfAfter.entry x hx).id_lt
  rcases begun_of_apply h with hsame | ⟨_, _, first, begun, flag, hbegin, hentries⟩
  · omega
  · obtain ⟨-, -, hedge, -, -, hentry, -⟩ := beginLocalTransactionWithState_ok hbegin
    rw [hentries] at hx
    rcases List.mem_append.mp hx with hold | hx
    · have hbefore := (hwf.entry x hold).id_lt
      omega
    · obtain rfl := List.mem_singleton.mp hx
      rw [hentry]
      refine ⟨rfl, ?_, rfl⟩
      rintro rfl
      exact absurd hedge (by rw [Edge]; decide)

/-! ## One operation -/

/-- No entry is left between its allocation and its begin. -/
def NoneCreated (inventory : LocalTransactionInventory) : Prop :=
  ∀ e ∈ inventory.entries, e.state ≠ .created

/-- What every predecessor of a state shares with it holds wherever the state is
reached from. -/
theorem of_reachable {P : TransactionState → Prop} (hback : ∀ s t, Edge s t → P t → P s)
    (h : stateReachable s t = true) (ht : P t) : P s := by
  have hpath := stateReachable_iff.mp h
  clear h
  induction hpath using Relation.ReflTransGen.head_induction_on with
  | refl => exact ht
  | head hedge _ ih => exact hback _ _ hedge ih

/-- A state is active only after itself, or before the transaction began. -/
theorem active_of_reachable (h : stateReachable s t = true)
    (ht : isActiveForOat t = true) (hnone : s ≠ .none) (hcreated : s ≠ .created) :
    isActiveForOat s = true := by
  have hback : ∀ s t, Edge s t → isActiveForOat t = true ∨ t = .none ∨ t = .created →
        isActiveForOat s = true ∨ s = .none ∨ s = .created := by
    intro s t
    rw [Edge]
    cases s <;> cases t <;> decide
  rcases of_reachable hback h (.inl ht) with hactive | hs | hs
  · exact hactive
  · exact absurd hs hnone
  · exact absurd hs hcreated

/-- No state comes before the allocation. -/
theorem created_of_reachable (h : stateReachable s .created = true) : s = .none ∨ s = .created := by
  refine of_reachable (P := fun s => s = .none ∨ s = .created) ?_ h (.inr rfl)
  intro s t
  rw [Edge]
  cases s <;> cases t <;> decide

theorem interesting_of_not_resolved (hwf : WellFormed inventory)
    (he : e ∈ inventory.entries) (h : ¬Resolved e) :
    isInteresting (inventoryVisibilityState e) = true := by
  obtain ⟨hnone, harchived⟩ := (hwf.entry e he).visibilityState_ne
  rw [Resolved] at h
  revert h hnone harchived
  cases inventoryVisibilityState e <;> decide

theorem not_interesting_of_resolved (h : Resolved e) :
    isTerminalTransactionState (inventoryVisibilityState e) = true ∧
      isInteresting (inventoryVisibilityState e) = false := by
  rcases h with h | h <;> rw [h] <;> exact ⟨rfl, rfl⟩

section

variable (hwf : WellFormed before) (hnone : NoneCreated before) (h : op.apply before = .ok after)
include hwf hnone h

theorem noneCreated_apply : NoneCreated after := by
  intro x hx hcreated
  have hevolves := evolves_apply hwf h
  rcases hevolves.entry x hx with ⟨old, hold, -, hentry⟩ | hnew
  · have hreach := hentry.reach
    rw [hcreated] at hreach
    rcases created_of_reachable hreach with hs | hs
    · exact (hwf.entry old hold).state_ne hs
    · exact hnone old hold hs
  · exact (new_entry_of_apply hwf h hx hnew.id_ge).2.1 hcreated

/-- A reader that is counted was counted, or begins at the present boundary. -/
theorem counted_of_apply {r : TransactionInventoryEntry} (hr : CountedReader after r) :
    (∃ old, CountedReader before old ∧ old.beginVisibleThroughCommitSequence =
          r.beginVisibleThroughCommitSequence) ∨
      r.beginVisibleThroughCommitSequence = before.nextCommitSequence - 1 := by
  obtain ⟨hmem, hstable, hactive⟩ := hr
  rcases (evolves_apply hwf h).entry r hmem with ⟨old, hold, -, hentry⟩ | hnew
  · refine .inl ⟨old, ⟨hold, hentry.stable.trans hstable, ?_⟩, hentry.beginCommit⟩
    exact active_of_reachable hentry.reach hactive (hwf.entry old hold).state_ne (hnone old hold)
  · exact .inr (new_entry_of_apply hwf h hmem hnew.id_ge).1

/-- What an operation leaves held was held under its number, or has a number that
was still to come. -/
theorem held_of_apply (hx : Held after x) :
    before.nextLocalTransactionId ≤ x.localId ∨
      ∃ old, Held before old ∧ old.localId = x.localId := by
  obtain ⟨hmem, hheld⟩ := hx
  rcases (evolves_apply hwf h).entry x hmem with ⟨old, hold, hid, hentry⟩ | hnew
  · refine .inr ⟨old, ⟨hold, ?_⟩, hid⟩
    by_cases hresolved : Resolved old
    · obtain ⟨hterminal, hidle⟩ := not_interesting_of_resolved hresolved
      obtain ⟨hsame, -, hsequence⟩ := hentry.final hterminal
      rcases hheld with hinteresting | ⟨hcommitted, r, hr, hlt⟩
      · rw [← hsame, hidle] at hinteresting
        cases hinteresting
      · have hold' : hasCommittedInventoryOutcome old = true := by
          rw [hasCommittedInventoryOutcome, hsame]
          exact hcommitted
        rw [← hsequence] at hlt
        rcases counted_of_apply hwf hnone h hr with ⟨s, hs, hbegin⟩ | hbegin
        · exact .inr ⟨hold', s, hs, hbegin ▸ hlt⟩
        · have hbelow := ((hwf.entry old hold).committed hold').2
          omega
    · exact .inl (interesting_of_not_resolved hwf hold hresolved)
  · exact .inl hnew.id_ge

end

/-! ## Whole runs -/

/-- What a run reaches. -/
structure Settled (inventory : LocalTransactionInventory) : Prop where
  wellFormed : WellFormed inventory
  noneCreated : NoneCreated inventory

/-- Everything held after a run was held before it, or is new. The induction is
on the operations. -/
theorem held_of_run {ops : List InventoryOperation} (hbefore : Settled before)
    (h : runOperations before ops = .ok after) :
    Settled after ∧ before.nextLocalTransactionId ≤ after.nextLocalTransactionId ∧
      ∀ x, Held after x → before.nextLocalTransactionId ≤ x.localId ∨
        ∃ old, Held before old ∧ old.localId = x.localId := by
  induction ops generalizing before with
  | nil =>
    cases h
    exact ⟨hbefore, le_rfl, fun x hx => .inr ⟨x, hx, rfl⟩⟩
  | cons op ops ih =>
    obtain ⟨mid, hmid, hrest⟩ := bind_eq_ok_iff.mp h
    have hevolves := evolves_apply hbefore.wellFormed hmid
    have hsettled : Settled mid :=
      ⟨hevolves.wfAfter, noneCreated_apply hbefore.wellFormed hbefore.noneCreated hmid⟩
    obtain ⟨hafter, hnext, hheld⟩ := ih hsettled hrest
    refine ⟨hafter, hevolves.nextId_le.trans hnext, fun x hx => ?_⟩
    rcases hheld x hx with hnew | ⟨y, hy, hid⟩
    · exact .inl (hevolves.nextId_le.trans hnew)
    · rw [← hid]
      exact held_of_apply hbefore.wellFormed hbefore.noneCreated hmid hy

theorem settled_empty : Settled makeEmptyLocalTransactionInventory :=
  ⟨wellFormed_empty, List.forall_mem_nil _⟩

/-- Along every run the horizons can be computed, and the cleanup horizon never
goes back. -/
theorem cleanup_horizon_never_decreases {ops more : List InventoryOperation}
    (hbefore : runOperations makeEmptyLocalTransactionInventory ops = .ok before)
    (hafter : runOperations before more = .ok after) :
    ∃ earlier later, computeLocalTransactionHorizons before [] = .ok earlier ∧
      computeLocalTransactionHorizons after [] = .ok later ∧
        earlier.cleanupHorizon ≤ later.cleanupHorizon := by
  have hsettled := (held_of_run settled_empty hbefore).1
  obtain ⟨hend, hnext, hheld⟩ := held_of_run hsettled hafter
  obtain ⟨earlier, hearlier, hbelow⟩ := exists_horizons hsettled.wellFormed
  obtain ⟨later, hlater, habove⟩ := exists_horizons hend.wellFormed
  refine ⟨earlier, later, hearlier, hlater, ?_⟩
  by_contra hlt
  obtain ⟨hn, hfree⟩ := (hbelow later.cleanupHorizon).mp (not_le.mp hlt)
  refine absurd ((habove later.cleanupHorizon).mpr ⟨hn.trans_le hnext, ?_⟩) (lt_irrefl _)
  intro x hx
  rcases hheld x hx with hnew | ⟨old, hold, hid⟩
  · exact hn.trans_le hnew
  · rw [← hid]
    exact hfree old hold

/-- A commit that a stable reader does not see is still held back. -/
theorem lateCommit_horizon_stays : ∃ started now,
    runOperations makeEmptyLocalTransactionInventory lateCommitStart = .ok started ∧
      runOperations started [.commit 1 9] = .ok now ∧
        ∃ earlier later, computeLocalTransactionHorizons started [] = .ok earlier ∧
          computeLocalTransactionHorizons now [] = .ok later ∧
            earlier.cleanupHorizon ≤ later.cleanupHorizon :=
  ⟨_, _, rfl, rfl, @cleanup_horizon_never_decreases _ _ lateCommitStart [.commit 1 9] rfl rfl⟩

end ScratchBird.Mga
