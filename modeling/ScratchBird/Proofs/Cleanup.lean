import ScratchBird.Mga.Cleanup
import ScratchBird.Proofs.Publication

/-!
# What cleanup may reclaim

The decision on a version is a cascade of results, each with its own texts. For
safety only one question matters, whether it comes out eligible, and this file
answers it once: the version's creator lies below every horizon, and if a later
version supersedes it, so does the transaction that wrote the later one, which
must stand in the inventory as committed.

Cleanup decides by transaction numbers and visibility by commit sequences. What
ties the two together is a pair of facts about numbers below the horizon. Below
the oldest interesting transaction every outcome is final. And below the oldest
snapshot transaction every commit lies within the begin boundary of every active
stable reader, because the projection lowers that horizon to the number of the
first commit that does not.
-/

namespace ScratchBird.Mga

open Lib List

variable {m : RowVersionMetadata} {inventory : LocalTransactionInventory}
  {registry : SnapshotRegistry} {request : LocalCleanupWorksetRequest}
  {horizons : LocalTransactionHorizons} {H : Nat} {k : CleanupHoldKind} {authoritative : Bool}
  {result : LocalCleanupWorksetResult} {versions : List RowVersionMetadata}

/-! ## Eligibility -/

def Eligible (d : TransactionCleanupDecisionResult) : Prop := d.decision = .eligibleAuthoritative

theorem eligible_makeEligibleDecision : Eligible makeEligibleDecision := rfl

theorem not_eligible_blocked {code key detail : String} :
    ¬Eligible (makeBlockedDecisionWithCode k code key detail) := by
  have hne : ∀ k, decisionForHoldKind k ≠ .eligibleAuthoritative := by
    intro k
    cases k <;> decide
  exact hne k

theorem firstBlocked_eligible_iff {r : TransactionCleanupDecisionResult}
    {checks : List (Unit → TransactionCleanupDecisionResult)} :
    Eligible (firstBlocked r checks) ↔ Eligible r ∧ ∀ check ∈ checks, Eligible (check ()) := by
  induction checks generalizing r with
  | nil => simp [firstBlocked]
  | cons check rest ih =>
    unfold firstBlocked
    simp only [mem_cons, forall_eq_or_imp]
    split
    · next hne => exact iff_of_false hne (fun hand => hne hand.1)
    · next heq =>
      rw [ih]
      simp only [Eligible, not_not] at heq ⊢
      simp only [heq, true_and]

theorem localIdValid_of_lt {n horizon : Nat} (h : n < horizon) : localIdValid horizon = true := by
  simp only [localIdValid, kInvalidLocalTransactionId, bne_iff_ne]
  omega

theorem horizonBlocks_eq_false_iff :
    horizonBlocks H m = false ↔ m.identity.creatorTransaction.localId < H := by
  unfold horizonBlocks
  rw [Bool.or_eq_false_iff, Bool.not_eq_false', decide_eq_false_iff_not, Nat.not_le]
  exact ⟨fun h => h.2, fun h => ⟨localIdValid_of_lt h, h⟩⟩

/-- Holds and retention horizons are judged by the same three tests and differ
in what they say. -/
theorem horizonTests_eligible_iff {a b c : TransactionCleanupDecisionResult}
    (ha : ¬Eligible a) (hb : ¬Eligible b) (hc : ¬Eligible c) : Eligible (if !authoritative then a
        else if !localIdValid H then b
        else if horizonBlocks H m then c
        else makeEligibleDecision) ↔
      authoritative = true ∧ m.identity.creatorTransaction.localId < H := by
  cases authoritative with
  | false => exact iff_of_false ha (by simp)
  | true =>
  by_cases hlt : m.identity.creatorTransaction.localId < H
  · rw [localIdValid_of_lt hlt, horizonBlocks_eq_false_iff.mpr hlt]
    exact iff_of_true eligible_makeEligibleDecision ⟨rfl, hlt⟩
  · have hblocks : horizonBlocks H m = true := by
      rw [← Bool.not_eq_false, horizonBlocks_eq_false_iff]
      exact hlt
    refine iff_of_false ?_ (fun hand => hlt hand.2)
    rw [if_neg nofun]
    split
    · exact hb
    · exact hc

theorem evaluateHold_eligible_iff {name : String} :
    Eligible (evaluateHold m k H authoritative name) ↔
      authoritative = true ∧ m.identity.creatorTransaction.localId < H :=
  horizonTests_eligible_iff not_eligible_blocked not_eligible_blocked not_eligible_blocked

theorem evaluateRetentionHorizon_eligible_iff {h : HistoryRetentionHorizon} :
    Eligible (evaluateRetentionHorizon m h) ↔ h.authoritative = true ∧
        m.identity.creatorTransaction.localId < h.horizonTransaction :=
  horizonTests_eligible_iff not_eligible_blocked not_eligible_blocked not_eligible_blocked

theorem evaluateCreatorOutcomeForCleanup_eligible_iff :
    Eligible (evaluateCreatorOutcomeForCleanup m) ↔ isKnownFinalCreatorOutcome m = true := by
  have hfinal : isKnownFinalCreatorOutcome m = true →
      ¬(m.state = .limbo ∨ m.creatorTransactionState = .limbo) ∧ ¬(m.state = .recoveryRequired ∨
          m.creatorTransactionState = .recovering) := by
    unfold isKnownFinalCreatorOutcome
    cases m.state <;> cases m.creatorTransactionState <;> decide
  unfold evaluateCreatorOutcomeForCleanup
  split
  · next hlimbo => exact iff_of_false not_eligible_blocked fun hk => (hfinal hk).1 hlimbo
  split
  · next hrec => exact iff_of_false not_eligible_blocked fun hk => (hfinal hk).2 hrec
  split
  · next hk => exact iff_of_true eligible_makeEligibleDecision hk
  · next hk =>
    refine iff_of_false ?_ hk
    split <;> exact not_eligible_blocked

theorem evaluateLocalCleanupWithHorizons_eligible_iff :
    Eligible (evaluateLocalCleanupWithHorizons m horizons) ↔ observeRowVersionMetadata m = none ∧
        isKnownFinalCreatorOutcome m = true ∧ m.identity.creatorTransaction.localId <
          min (min horizons.oldestInterestingTransaction horizons.oldestActiveTransaction)
            horizons.oldestSnapshotTransaction := by
  unfold evaluateLocalCleanupWithHorizons
  cases hm : observeRowVersionMetadata m with
  | some diagnostic => exact iff_of_false CleanupEligibilityDecision.noConfusion (by simp)
  | none =>
    simp only [firstBlocked_eligible_iff, mem_cons, forall_eq_or_imp,
      not_mem_nil, false_implies, implies_true, and_true, true_and, evaluateHold_eligible_iff,
      evaluateCreatorOutcomeForCleanup_eligible_iff, lt_min_iff, and_assoc]

/-- Every horizon the request and the inventory put below a version's creator. -/
def BelowHolds (request : LocalCleanupWorksetRequest) (num : Nat) : Prop :=
  (∀ hold ∈ request.additionalHolds, hold.authoritative = true ∧ num < hold.horizonTransaction) ∧
    ∀ h ∈ request.historyRetentionHorizons, h.authoritative = true ∧ num < h.horizonTransaction

theorem evaluateLocalCleanupWithRetentionHolds_eligible_iff :
    Eligible (evaluateLocalCleanupWithRetentionHolds m horizons
        request.additionalHolds request.historyRetentionHorizons) ↔
      Eligible (evaluateLocalCleanupWithHorizons m horizons) ∧
        BelowHolds request m.identity.creatorTransaction.localId := by
  unfold evaluateLocalCleanupWithRetentionHolds
    evaluateLocalCleanupWithAuthoritativeHolds BelowHolds
  rw [firstBlocked_eligible_iff, firstBlocked_eligible_iff]
  simp only [mem_map, forall_exists_index, and_imp,
    forall_apply_eq_imp_iff₂, evaluateHold_eligible_iff,
    evaluateRetentionHorizon_eligible_iff, and_assoc]

/-- The successor check: a superseded version needs a committed successor below
the horizon. The comparison is with the state as it stands, so an archived
successor does not pass. -/
theorem evaluateSuccessorTransactionForCleanup_eligible_iff :
    Eligible (evaluateSuccessorTransactionForCleanup m inventory H) ↔
      (m.state = .committed → m.chain.hasNext = true →
        localIdValid m.successorTransactionLocalId = true ∧ m.successorTransactionLocalId < H ∧
          ∃ S, findEntry inventory m.successorTransactionLocalId = some S ∧
            S.state = .committed) := by
  unfold evaluateSuccessorTransactionForCleanup
  split
  · next hskip =>
    refine iff_of_true eligible_makeEligibleDecision fun hstate hnext => ?_
    rcases hskip with h | h
    · exact absurd hstate h
    · exact absurd hnext h
  next hjudged =>
  simp only [not_or, not_not] at hjudged
  simp only [hjudged.1, hjudged.2, forall_const]
  split
  · next hvalid => exact iff_of_false not_eligible_blocked (by simp_all)
  split
  · next hhorizon =>
    refine iff_of_false not_eligible_blocked fun hand => ?_
    rw [localIdValid_of_lt hand.2.1] at hhorizon
    simp only [Bool.not_true, Bool.false_or, decide_eq_true_eq] at hhorizon
    omega
  next hvalid hhorizon =>
  have hlt : m.successorTransactionLocalId < H := by
    simp only [Bool.or_eq_true, decide_eq_true_eq, not_or, Nat.not_le] at hhorizon
    exact hhorizon.2
  split
  · next hnone => exact iff_of_false not_eligible_blocked (by simp [hnone])
  next S hfind =>
  rw [hfind]
  simp only [Option.some.injEq, exists_eq_left']
  by_cases hcommitted : S.state = .committed
  · rw [hcommitted]
    exact iff_of_true eligible_makeEligibleDecision ⟨by simpa using hvalid, hlt, rfl⟩
  · refine iff_of_false ?_ (fun hand => hcommitted hand.2.2)
    split
    · exact not_eligible_blocked
    split
    · exact not_eligible_blocked
    · exact not_eligible_blocked

theorem ok_of_eligible (h : Eligible (evaluateSuccessorTransactionForCleanup m inventory H)) :
    (evaluateSuccessorTransactionForCleanup m inventory H).ok = true := by
  revert h
  unfold evaluateSuccessorTransactionForCleanup
  split
  · exact fun _ => rfl
  iterate 6
    split
    · exact fun h => absurd h not_eligible_blocked
  exact fun _ => rfl

theorem reclaims_iff :
    reclaims request horizons H m = true ↔ isCleanupReclaimableByKind m request = true ∧
        Eligible (evaluateLocalCleanupWithHorizons m horizons) ∧
        BelowHolds request m.identity.creatorTransaction.localId ∧
        Eligible (evaluateSuccessorTransactionForCleanup m request.inventory H) := by
  unfold reclaims cleanupDecision
  simp only [Bool.and_eq_true, beq_iff_eq]
  split
  · next hown =>
    obtain ⟨hbase, hholds⟩ := evaluateLocalCleanupWithRetentionHolds_eligible_iff.mp hown
    constructor
    · rintro ⟨⟨_, hsucc⟩, hkind⟩
      exact ⟨hkind, hbase, hholds, hsucc⟩
    · rintro ⟨hkind, _, _, hsucc⟩
      exact ⟨⟨ok_of_eligible hsucc, hsucc⟩, hkind⟩
  · next hown =>
    refine iff_of_false (fun h => hown h.1.2) ?_
    rintro ⟨_, hbase, hholds, _⟩
    exact hown (evaluateLocalCleanupWithRetentionHolds_eligible_iff.mpr ⟨hbase, hholds⟩)

/-! ## The pass -/

/-- The pass reclaims what the decision says of a leading part of the workset,
and of all of it unless it stops at a limit. -/
theorem cleanupRowVersions_reclaimed :
    ∃ judged rest, versions = judged ++ rest ∧ (cleanupRowVersions request horizons result
        versions).reclaimedRowVersions = result.reclaimedRowVersions ++
          judged.filter (reclaims request horizons
            result.authoritativeCleanupHorizonLocalTransactionId) ∧
      ((cleanupRowVersions request horizons result versions).ok = true → rest = []) := by
  fun_induction cleanupRowVersions request horizons result versions with
  | case1 => exact ⟨[], [], rfl, by simp, fun _ => rfl⟩
  | case2 result m versions => exact ⟨[], m :: versions, rfl, by simp, fun h => by cases h⟩
  | case3 result m versions _ hr _ ih =>
    obtain ⟨judged, rest, hsplit, hrec, hrest⟩ := ih
    refine ⟨m :: judged, rest, by rw [hsplit]; rfl, ?_, hrest⟩
    rw [hrec, filter_cons_of_neg (by simpa using hr)]
    rfl
  | case4 result m versions _ hr =>
    refine ⟨[m], versions, rfl, ?_, fun h => by cases h⟩
    rw [List.filter_singleton, (by simpa using hr : reclaims request horizons _ m = true)]
    rfl
  | case5 result m versions _ hr _ _ _ ih | case6 result m versions _ hr _ _ ih =>
    obtain ⟨judged, rest, hsplit, hrec, hrest⟩ := ih
    refine ⟨m :: judged, rest, by rw [hsplit]; rfl, ?_, hrest⟩
    rw [hrec, List.filter_cons_of_pos (by simpa using hr), append_assoc]
    rfl

theorem cleanupRowVersions_horizon :
    (cleanupRowVersions request horizons result
        versions).authoritativeCleanupHorizonLocalTransactionId =
      result.authoritativeCleanupHorizonLocalTransactionId := by
  fun_induction cleanupRowVersions request horizons result versions with
  | case1 | case2 | case4 => rfl
  | case3 | case5 | case6 => assumption

theorem cleanupRowVersions_ok_of_unlimited (hretained : request.maxRetainedRowVersions = 0)
    (hevidence : request.emitReclaimEvidenceRecords = false) :
    (cleanupRowVersions request horizons result versions).ok =
      result.cleanupHorizonAuthoritative := by
  induction versions generalizing result with
  | nil => rfl
  | cons m versions ih =>
    rw [cleanupRowVersions, hretained, hevidence]
    simp only [bne_self_eq_false, Bool.and_false, Bool.false_and, Bool.false_eq_true, if_false]
    split
    · rw [ih]
      rfl
    · rw [ih]

def loweredHorizon (request : LocalCleanupWorksetRequest) (horizon : Nat) : Nat :=
  (request.historyRetentionHorizons.map (·.horizonTransaction)).foldl min
    ((request.additionalHolds.map (·.horizonTransaction)).foldl min horizon)

theorem applyLocalCleanup_reclaimed (h : m ∈ (applyLocalCleanupWithAuthoritativeInventory registry
      request).reclaimedRowVersions) :
    ∃ horizon, computeAuthoritativeCleanupHorizon registry request.horizonRequest = .ok horizon ∧
      m ∈ request.rowVersions ∧ reclaims request horizon.horizons
        (loweredHorizon request horizon.cleanupHorizon) m = true := by
  revert h
  fun_cases applyLocalCleanupWithAuthoritativeInventory registry request with
  | case5 _ _ _ horizon hcompute =>
    intro h
    obtain ⟨judged, rest, hsplit, hrec, _⟩ := cleanupRowVersions_reclaimed
    rw [hrec, nil_append, mem_filter] at h
    refine ⟨horizon, hcompute, ?_, h.2⟩
    rw [hsplit]
    exact mem_append_left _ h.1
  | _ => exact nofun

/-- A pass that succeeded has judged the whole workset. -/
theorem applyLocalCleanup_of_ok (h : (applyLocalCleanupWithAuthoritativeInventory registry
      request).ok = true) :
    ∃ horizon, computeAuthoritativeCleanupHorizon registry request.horizonRequest = .ok horizon ∧
      (applyLocalCleanupWithAuthoritativeInventory registry
        request).authoritativeCleanupHorizonLocalTransactionId =
          loweredHorizon request horizon.cleanupHorizon ∧
      (applyLocalCleanupWithAuthoritativeInventory registry
        request).reclaimedRowVersions = request.rowVersions.filter
          (reclaims request horizon.horizons (loweredHorizon request horizon.cleanupHorizon)) := by
  revert h
  fun_cases applyLocalCleanupWithAuthoritativeInventory registry request with
  | case5 _ _ _ horizon hcompute =>
    intro h
    refine ⟨horizon, hcompute, cleanupRowVersions_horizon, ?_⟩
    obtain ⟨judged, rest, hsplit, hrec, hrest⟩ := cleanupRowVersions_reclaimed
    rw [hrest h, append_nil] at hsplit
    rw [hrec, ← hsplit]
    rfl
  | _ => simp [LocalCleanupWorksetResult.ok]

end ScratchBird.Mga
