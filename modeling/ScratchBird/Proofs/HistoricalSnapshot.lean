import ScratchBird.Mga.HistoricalSnapshot
import ScratchBird.Proofs.Visibility

/-!
# The past of a target

An audit snapshot sees a committed version exactly when the creator's number is
not above the target's (`audit_decision`). That is the same at every point of a
run, so a version whose creator had committed at the first point looks the same
at the second.

Numbers are given out at begin and commits come later, so the bound does not keep
out a transaction that began before the target and commits after the first point.
Those are the only ones that slip in: a transaction that began after the first
point has a number above every number of that point. The view is kept exactly when
none of the transactions below the target that were undecided at the first point
has committed by the second, and in particular when there are none.
-/

namespace ScratchBird.Mga

open Lib

variable {request first second : HistoricalAuditSnapshotRequest}
  {e reader target : TransactionInventoryEntry} {m : RowVersionMetadata} {deleted effect : Bool}

/-! ## One call -/

open HistoricalAuditSnapshotRequest in
theorem refused_of_some {refused : HistoricalAuditSnapshotResult}
    (h : request.refusedAtOnce = some refused) : refused.ok = false := by
  revert h
  fun_cases refusedAtOnce request with
  | case2 =>
    rintro ⟨⟩
    split <;> rfl
  | case5 => exact nofun
  | _ =>
    rintro ⟨⟩
    rfl

theorem historicalFindEntry_mem {inventory : LocalTransactionInventory} {localId : Nat}
    (h : HistoricalAuditSnapshotRequest.findEntry inventory localId = some e) :
    localIdValid localId = true ∧ e ∈ inventory.entries ∧ e.localId = localId := by
  rw [HistoricalAuditSnapshotRequest.findEntry] at h
  split at h
  · cases h
  · next hvalid => exact ⟨by simpa using hvalid, findEntry_mem h⟩

/-- The snapshot that goes with a target number. -/
def auditSnapshot (reader target : Nat) : VisibilitySnapshot :=
  { readerTransaction := reader
    visibleThroughLocalTransactionId := target
    visibleThroughLocalTransactionIdIsBoundary := true
    allowReaderOwnUncommitted := false }

open HistoricalAuditSnapshotRequest in
theorem locate_ok (h : (request.locate reader target).ok = true) :
    hasCommittedInventoryOutcome target = true ∧ (request.locate reader target).visibilitySnapshot =
        auditSnapshot reader.localId target.localId := by
  revert h
  fun_cases request.locate reader target with
  | case1 => exact nofun
  | case2 => exact nofun
  | case3 _ hcommitted =>
    rw [located]
    split
    · exact nofun
    · exact fun _ => ⟨by simpa using hcommitted, rfl⟩

open HistoricalAuditSnapshotRequest in
/-- A call that succeeds has found its target committed, and bounds by its
number alone. -/
theorem createHistoricalAuditSnapshot_ok (h : (createHistoricalAuditSnapshot request).ok = true) :
    ∃ target ∈ request.inventory.entries, target.localId = request.targetLocalTransactionId ∧
      hasCommittedInventoryOutcome target = true ∧
      ∃ reader, (createHistoricalAuditSnapshot request).visibilitySnapshot =
        auditSnapshot reader request.targetLocalTransactionId := by
  revert h
  fun_cases createHistoricalAuditSnapshot request with
  | case1 refused hrefused =>
    rw [refused_of_some hrefused]
    exact nofun
  | case5 _ reader _ _ target htarget =>
    intro h
    obtain ⟨-, hmem, hid⟩ := historicalFindEntry_mem htarget
    obtain ⟨hcommitted, hsnapshot⟩ := locate_ok h
    exact ⟨target, hmem, hid, hcommitted, reader.localId, hid ▸ hsnapshot⟩
  | _ => exact nofun

/-- What an audit snapshot makes of a version whose creator committed. -/
theorem audit_decision (h : (createHistoricalAuditSnapshot request).ok = true)
    (hwf : WellFormed request.inventory) (he : e ∈ request.inventory.entries)
    (hcommitted : hasCommittedInventoryOutcome e = true) (hm : DerivedFrom e deleted m) :
    (evaluate m (createHistoricalAuditSnapshot request).visibilitySnapshot effect).decision =
        if (deleted && !effect) = true ∨
            request.targetLocalTransactionId < e.localId then .invisible
        else .visible := by
  obtain ⟨-, -, -, -, reader, hsnapshot⟩ := createHistoricalAuditSnapshot_ok h
  rw [hsnapshot]
  by_cases hmarker : (deleted && !effect) = true
  · rw [if_pos (.inl hmarker)]
    rw [Bool.and_eq_true, Bool.not_eq_true'] at hmarker
    obtain ⟨rfl, rfl⟩ := hmarker
    have hstate : m.state = .deleteMarker := hm.state
    rw [evaluate, hm.accepted hwf he]
    simp [effectState, hstate]
  · have heffect : deleted = true → effect = true := by
      intro hdeleted
      simpa [hdeleted] using hmarker
    rw [(hm.evaluate_spec heffect hwf he).2, hasCommittedInventoryOutcome_iff.mp hcommitted]
    simp only [hmarker, evaluateCommitted, auditSnapshot, hm.creatorId]
    by_cases hbeyond : request.targetLocalTransactionId < e.localId
    · simp [hbeyond]
    · simp [hbeyond]

/-! ## Two calls -/

/-- The two audits agree on every version whose creator had committed by the
first, and the second sees no version of a later commit. -/
def ViewKept (first second : HistoricalAuditSnapshotRequest) : Prop :=
  (∀ c ∈ first.inventory.entries, ∀ c' ∈ second.inventory.entries,
    c.localId = c'.localId → hasCommittedInventoryOutcome c = true →
    hasCommittedInventoryOutcome c' = true → ∀ deleted effect m m',
      DerivedFrom c deleted m → DerivedFrom c' deleted m' →
      (evaluate m' (createHistoricalAuditSnapshot second).visibilitySnapshot effect).decision =
      (evaluate m (createHistoricalAuditSnapshot first).visibilitySnapshot effect).decision) ∧
  (∀ c' ∈ second.inventory.entries, hasCommittedInventoryOutcome c' = true →
    (∀ c ∈ first.inventory.entries, c.localId = c'.localId →
      hasCommittedInventoryOutcome c ≠ true) → ∀ deleted effect m', DerivedFrom c' deleted m' →
      (evaluate m' (createHistoricalAuditSnapshot second).visibilitySnapshot
        effect).decision ≠ .visible)

/-- No transaction below the target was undecided at the first call and is
committed at the second. -/
def NoLateCommitBelow (first second : HistoricalAuditSnapshotRequest) : Prop :=
  ∀ c ∈ first.inventory.entries, c.localId < first.targetLocalTransactionId →
    hasCommittedInventoryOutcome c ≠ true →
    ∀ c' ∈ second.inventory.entries, c'.localId = c.localId → hasCommittedInventoryOutcome c' ≠ true

theorem viewKept_iff (hext : Extends first.inventory second.inventory)
    (htarget : first.targetLocalTransactionId = second.targetLocalTransactionId)
    (hfirst : (createHistoricalAuditSnapshot first).ok = true)
    (hsecond : (createHistoricalAuditSnapshot second).ok = true) :
    ViewKept first second ↔ NoLateCommitBelow first second := by
  constructor
  · rintro ⟨-, hlater⟩ c hc hbelow hopen c' hc' hid hcommitted
    refine hlater c' hc' hcommitted ?_ false false (sampleVersion c' false)
      (derivedFrom_sampleVersion c' false) ?_
    · intro old hold hsame
      rw [hext.wfBefore.entry_unique hold hc (hsame.trans hid)]
      exact hopen
    · rw [audit_decision hsecond hext.wfAfter hc' hcommitted
        (derivedFrom_sampleVersion c' false), if_neg]
      simp only [Bool.false_and, Bool.false_eq_true, false_or]
      omega
  · intro hnone
    refine ⟨?_, ?_⟩
    · intro c hc c' hc' hid hcommitted hcommitted' deleted effect m m' hm hm'
      rw [audit_decision hsecond hext.wfAfter hc' hcommitted' hm',
        audit_decision hfirst hext.wfBefore hc hcommitted hm, htarget, hid]
    · intro c' hc' hcommitted hlate deleted effect m' hm'
      rw [audit_decision hsecond hext.wfAfter hc' hcommitted hm', if_pos]
      · simp
      obtain ⟨target, htargetMem, htargetId, htargetCommitted, -⟩ :=
        createHistoricalAuditSnapshot_ok hfirst
      have hlt := (hext.wfBefore.entry target htargetMem).id_lt
      by_contra hle
      rcases hext.entry c' hc' with ⟨c, hc, hid, -⟩ | ⟨hge, -⟩
      · have hopen := hlate c hc hid
        have hne : c.localId ≠ first.targetLocalTransactionId := by
          intro heq
          rw [hext.wfBefore.entry_unique hc htargetMem (heq.trans htargetId.symm)] at hopen
          exact hopen htargetCommitted
        exact hnone c hc (by omega) hopen c' hc' hid.symm hcommitted
      · omega

theorem noLateCommitBelow_of_decided (hext : Extends first.inventory second.inventory)
    (hdecided : ∀ c ∈ first.inventory.entries, c.localId < first.targetLocalTransactionId →
      isTerminalTransactionState (inventoryVisibilityState c) = true) :
    NoLateCommitBelow first second := by
  intro c hc hbelow hopen c' hc' hid hcommitted
  have hsame := (hext.entry_of_id hc hc' hid.symm).final (hdecided c hc hbelow)
  rw [Ne, hasCommittedInventoryOutcome_iff] at hopen
  exact hopen (hsame.1.trans (hasCommittedInventoryOutcome_iff.mp hcommitted))

/-! ## Runs -/

/-- Along a run the view of a target is kept exactly when no transaction below the
target commits late, which is so when all of them are decided at the first call. -/
theorem audit_view_kept_iff (ops₀ ops₁ : List InventoryOperation)
    {first second : HistoricalAuditSnapshotRequest}
    (hstart : runOperations makeEmptyLocalTransactionInventory ops₀ = .ok first.inventory)
    (hrun : runOperations first.inventory ops₁ = .ok second.inventory)
    (htarget : first.targetLocalTransactionId = second.targetLocalTransactionId)
    (hfirst : (createHistoricalAuditSnapshot first).ok = true)
    (hsecond : (createHistoricalAuditSnapshot second).ok = true) :
    (ViewKept first second ↔ NoLateCommitBelow first second) ∧ ((∀ c ∈ first.inventory.entries,
      c.localId < first.targetLocalTransactionId →
        isTerminalTransactionState (inventoryVisibilityState c) = true) →
      ViewKept first second) := by
  have hwf := (extends_of_run wellFormed_empty hstart).wfAfter
  have hext := extends_of_run hwf hrun
  have hiff := viewKept_iff hext htarget hfirst hsecond
  exact ⟨hiff, fun hdecided => hiff.mpr (noLateCommitBelow_of_decided hext hdecided)⟩

def sampleEvidence : HistoricalAuditSnapshotEvidence :=
  { transactionInventoryAuthoritative := true
    securityPolicyAuthoritative := true
    catalogEpochAuthoritative := true
    clusterEpochAuthoritative := true
    securityEpoch := 1
    catalogGenerationId := 1
    clusterEpoch := 1 }

/-- Transaction 3 audits the database as of transaction 2. -/
def auditOfSecond (inventory : LocalTransactionInventory) :
    HistoricalAuditSnapshotRequest :=
  { inventory
    auditReaderTransaction := 3
    targetLocalTransactionId := 2
    evidence := sampleEvidence }

/-- Both writers commit before the audit, and a fourth transaction after it. -/
def decidedBelow : List InventoryOperation :=
  [.begin ⟨.transaction, engineUuid 1⟩ 5, .begin ⟨.transaction, engineUuid 2⟩ 6,
   .commit 1 7, .commit 2 8, .beginReadOnly ⟨.transaction, engineUuid 3⟩ 9]

theorem decidedBelow_kept : ∃ started now,
    runOperations makeEmptyLocalTransactionInventory decidedBelow = .ok started ∧
    runOperations started [.begin ⟨.transaction, engineUuid 4⟩ 10, .commit 4 11] = .ok now ∧
    ViewKept (auditOfSecond started) (auditOfSecond now) := by
  refine ⟨_, _, rfl, rfl, ?_⟩
  refine (audit_view_kept_iff decidedBelow
    [.begin ⟨.transaction, engineUuid 4⟩ 10, .commit 4 11] ?_ ?_ ?_ ?_ ?_).2 ?_
  · rfl
  · rfl
  · rfl
  · decide
  · decide
  · decide

/-- Transaction 1 is still active when the target has committed. -/
def undecidedBelow : List InventoryOperation :=
  [.begin ⟨.transaction, engineUuid 1⟩ 5, .begin ⟨.transaction, engineUuid 2⟩ 6,
   .commit 2 8, .beginReadOnly ⟨.transaction, engineUuid 3⟩ 9]

/-- Its commit after the first audit shows up in the second. -/
theorem undecidedBelow_changed : ∃ started now,
    runOperations makeEmptyLocalTransactionInventory undecidedBelow = .ok started ∧
    runOperations started [.commit 1 10] = .ok now ∧
    (createHistoricalAuditSnapshot (auditOfSecond started)).ok = true ∧
    (createHistoricalAuditSnapshot (auditOfSecond now)).ok = true ∧
    ¬ViewKept (auditOfSecond started) (auditOfSecond now) := by
  refine ⟨_, _, rfl, rfl, by decide, by decide, ?_⟩
  rintro ⟨-, hlater⟩
  refine hlater _ List.mem_cons_self (by decide) (by decide) false false _
    (derivedFrom_sampleVersion _ false) (by decide)

end ScratchBird.Mga
