import ScratchBird.Mga.Isolation
import ScratchBird.Proofs.Horizon

/-!
# The policy of an isolation level

`CreateLocalTransactionSnapshot` returns a snapshot with its visibility, and
`SnapshotPolicyForIsolation` makes a visibility of its own from the snapshot: it
has no exclusions, and above read committed its bound on the numbers is the one
the reader recorded when it began. Neither is missed. Whoever committed within the
boundary is on no exclusion list, and it had its number before the reader began.
-/

namespace ScratchBird.Mga

open Lib

variable {inventory before after : LocalTransactionInventory} {op : InventoryOperation}
  {ops : List InventoryOperation} {e r : TransactionInventoryEntry} {m : RowVersionMetadata}
  {reader : Nat}

/-- Whoever committed within the boundary at which another began had its number
before. -/
def NumberedFirst (inventory : LocalTransactionInventory) : Prop :=
  ∀ r ∈ inventory.entries, ∀ e ∈ inventory.entries, hasCommittedInventoryOutcome e = true →
    e.commitSequence ≤ r.beginVisibleThroughCommitSequence →
    e.localId ≤ r.beginVisibleThroughLocalTransactionId

theorem NumberedFirst.apply (hfirst : NumberedFirst before) (hwf : WellFormed before)
    (h : op.apply before = .ok after) : NumberedFirst after := by
  have hext := (evolves_apply hwf h).extends
  intro r hr e he hc hle
  have hlate := ((hext.wfAfter.entry e he).committed hc).1
  rcases hext.entry r hr with ⟨r₀, hr₀, -, hsame⟩ | ⟨hnew, -⟩
  · have hbegin := (hwf.entry r₀ hr₀).begin_lt
    rw [← hsame.beginCommit] at hle
    rcases hext.entry e he with ⟨e₀, he₀, hid, -⟩ | ⟨-, hfresh⟩
    · obtain ⟨hc₀, hle₀⟩ := (hext.within_boundary_iff hr₀ he₀ he hid).mp ⟨hc, hle⟩
      rw [← hsame.beginId, ← hid]
      exact hfirst r₀ hr₀ e₀ he₀ hc₀ hle₀
    · have hge := hfresh hc
      omega
  · -- A newcomer begins at the present boundary, after all numbers so far.
    obtain ⟨hbegin, -, hbound⟩ := new_entry_of_apply hwf h hr hnew
    rcases hext.entry e he with ⟨e₀, he₀, hid, -⟩ | ⟨-, hfresh⟩
    · have hlt := (hwf.entry e₀ he₀).id_lt
      omega
    · have hge := hfresh hc
      omega

theorem numberedFirst_of_run (hfirst : NumberedFirst before) (hwf : WellFormed before)
    (h : runOperations before ops = .ok after) : NumberedFirst after := by
  induction ops generalizing before with
  | nil =>
    cases h
    exact hfirst
  | cons op ops ih =>
    obtain ⟨mid, hmid, hrest⟩ := bind_eq_ok_iff.mp h
    exact ih (hfirst.apply hwf hmid) (evolves_apply hwf hmid).wfAfter hrest

/-- The levels that go with a reader's kind of snapshot. -/
def IsolationLevel.Suits (level : IsolationLevel) (stable : Bool) : Prop :=
  if stable then level = .repeatableRead ∨ level = .serializable else level = .readCommitted

/-- In every reachable inventory the policy of a suitable level judges each version
of a listed creator, or its effect, as the visibility of the snapshot does. -/
theorem policy_judges_as_snapshot (ops : List InventoryOperation) {s : TransactionSnapshotResult}
    {level : IsolationLevel}
    (hrun : runOperations makeEmptyLocalTransactionInventory ops = .ok inventory)
    (hs : createLocalTransactionSnapshot inventory reader = .ok s) (hr : r ∈ inventory.entries)
    (hid : r.localId = reader) (hlevel : level.Suits r.stableSnapshot)
    (he : e ∈ inventory.entries) (hcreator : m.identity.creatorTransaction.localId = e.localId)
    (hstate : m.creatorTransactionState = inventoryVisibilityState e)
    (hsequence : m.creatorCommitSequence = e.commitSequence) (effect : Bool) :
    evaluate m (snapshotPolicyForIsolation level s.snapshot) effect =
      evaluate m s.visibilitySnapshot effect := by
  obtain ⟨hwf, r', hr', hid', -, -, hvis, hmark, hreader, hcommit, hstart, hbegin⟩ :=
    createLocalTransactionSnapshot_ok hs
  obtain rfl := hwf.entry_unique hr hr' (hid.trans hid'.symm)
  have hfirst : NumberedFirst inventory :=
    numberedFirst_of_run (fun _ hnone => absurd hnone List.not_mem_nil) wellFormed_empty hrun
  have hbound : (snapshotPolicyForIsolation level s.snapshot).visibleThroughCommitSequence =
      commitBoundaryFor inventory r := by
    rw [snapshotPolicyForIsolation, hcommit, hbegin, commitBoundaryFor]
    rw [IsolationLevel.Suits] at hlevel
    split at hlevel
    · next hstable => rcases hlevel with rfl | rfl <;> simp [hstable]
    · next hstable => simp [hlevel, hstable]
  refine evaluate_congr (hreader.trans (by rw [hvis]; rfl)) (by rw [hvis]; rfl) fun hc => ?_
  rw [hstate, ← hasCommittedInventoryOutcome_iff] at hc
  have hlate := ((hwf.entry e he).committed hc).1
  have hadmitted := @committed_admitted (commitBoundaryFor inventory r) inventory e hwf he hc
  rw [hvis, evaluateCommitted_eq hcreator hsequence (by omega) rfl,
    evaluateCommitted_eq hcreator hsequence (by omega) rfl hadmitted, hbound]
  · rfl
  · rw [hbound]
    intro hle
    refine ⟨?_, List.not_mem_nil, List.not_mem_nil⟩
    rw [snapshotPolicyForIsolation, hmark, hstart]
    split
    · exact (hadmitted hle).1
    · next hother =>
      refine hfirst r hr e he hc ?_
      rw [commitBoundaryFor] at hle
      rw [IsolationLevel.Suits] at hlevel
      split at hle
      · exact hle
      · next hstable =>
        rw [if_neg hstable] at hlevel
        exact absurd hlevel hother

theorem lateCommit_judged_alike : ∃ inventory s,
    runOperations makeEmptyLocalTransactionInventory (lateCommitStart ++ [.commit 1 9]) =
      .ok inventory ∧
    createLocalTransactionSnapshot inventory 2 = .ok s ∧ ∀ e ∈ inventory.entries,
      evaluate (sampleVersion e false) (snapshotPolicyForIsolation .repeatableRead s.snapshot)
        false = evaluate (sampleVersion e false) s.visibilitySnapshot false := by
  refine ⟨_, _, rfl, rfl, fun e he => ?_⟩
  refine policy_judges_as_snapshot (lateCommitStart ++ [.commit 1 9]) rfl rfl
    (List.mem_cons_of_mem _ List.mem_cons_self) rfl ?_ he rfl rfl rfl false
  exact .inl rfl

end ScratchBird.Mga
