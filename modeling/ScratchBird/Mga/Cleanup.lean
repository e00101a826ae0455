import ScratchBird.Mga.Snapshot

/-!
# Cleanup

`transaction_cleanup_horizon_service.cpp` and `transaction_cleanup.cpp`. The
horizon service takes the smallest of the three inventory horizons, lowered by
the retention horizons of the published snapshots. The workset pass judges each
row version against that horizon, against the holds and retention horizons of
the request, and, if a later version supersedes it, against the transaction that
wrote the later one.

The pass only counts what it reclaims. `reclaimedRowVersions` keeps the counted
versions themselves, in order, so that statements can name them; the count is
its length (`reclaimedRowVersionCount_eq`). Telemetry is left out.
-/

namespace ScratchBird.Mga

open Lib

/-! ## The cleanup horizon -/

inductive CleanupHorizonBlockerKind where
  | activeTransaction | activeSnapshot | unresolvedOutcome
  | alwaysActiveSession | inventoryAuthority | unknown
  deriving DecidableEq

structure CleanupHorizonEvidenceField where
  key : String
  value : String

structure CleanupHorizonBlocker where
  kind : CleanupHorizonBlockerKind
  localTransactionId : Nat
  stableName : String
  observedState : String
  authoritative : Bool

structure AlwaysActiveSessionTransactionBinding where
  stableSessionId : String := ""
  currentLocalTransactionId : Nat := kInvalidLocalTransactionId
  authoritative : Bool := false

structure AuthoritativeCleanupHorizonRequest where
  inventory : LocalTransactionInventory
  inventoryAuthoritative : Bool := false
  inventoryComplete : Bool := false
  activeSnapshotHorizons : List Nat := []
  activeSnapshotInventoryAuthoritative : Bool := true
  alwaysInTransactionPolicy : Bool := false
  alwaysActiveSessionInventoryAuthoritative : Bool := true
  alwaysActiveSessions : List AlwaysActiveSessionTransactionBinding := []

structure AuthoritativeCleanupHorizonResult where
  horizons : LocalTransactionHorizons
  cleanupHorizon : Nat
  blockers : List CleanupHorizonBlocker
  evidence : List CleanupHorizonEvidenceField

def makeCleanupHorizonServiceDiagnostic (code key : String)
    (detail : String := "") : DiagnosticRecord :=
  { diagnosticCode := code
    messageKey := key
    detail
    sourceComponent := "transaction.mga.cleanup_horizon" }

def serviceError {α : Type} (code key : String) (detail : String := "") :
    Except DiagnosticRecord α := .error (makeCleanupHorizonServiceDiagnostic code key detail)

def isActiveInventoryState (s : TransactionState) : Bool := s == .active || s == .readOnlyActive

def isUnresolvedOutcomeState (s : TransactionState) : Bool :=
  s == .created || s == .preparing || s == .prepared || s == .committing ||
    s == .rollingBack || s == .limbo || s == .recovering || s == .failedTerminal

def validateInventory (request : AuthoritativeCleanupHorizonRequest) :
    Except DiagnosticRecord Unit :=
  if !request.inventoryAuthoritative then
    serviceError "SB-MGA-CLEANUP-HORIZON-NOT-AUTHORITATIVE"
      "transaction.cleanup_horizon.inventory_not_authoritative"
      "durable MGA transaction inventory authority is required"
  else if !request.inventoryComplete then
    serviceError "SB-MGA-CLEANUP-HORIZON-INVENTORY-MISSING"
      "transaction.cleanup_horizon.inventory_missing"
      "complete durable transaction inventory is required"
  else match validateLocalTransactionInventoryStructure request.inventory with
  | some reason =>
    serviceError "SB-MGA-CLEANUP-HORIZON-INVENTORY-INVALID"
      ("transaction.cleanup_horizon." ++ reason)
  | none => .ok ()

def validateAlwaysActiveSession (inventory : LocalTransactionInventory)
    (binding : AlwaysActiveSessionTransactionBinding) : Except DiagnosticRecord Unit :=
  if !binding.authoritative then
    serviceError "SB-MGA-CLEANUP-HORIZON-SESSION-BINDING-NOT-AUTHORITATIVE"
      "transaction.cleanup_horizon.session_binding_not_authoritative" binding.stableSessionId
  else if binding.stableSessionId.isEmpty then
    serviceError "SB-MGA-CLEANUP-HORIZON-SESSION-BINDING-INVALID"
      "transaction.cleanup_horizon.session_binding_missing_stable_id"
  else if !localIdValid binding.currentLocalTransactionId then
    serviceError "SB-MGA-CLEANUP-HORIZON-SESSION-BINDING-INVALID"
      "transaction.cleanup_horizon.session_binding_missing_transaction" binding.stableSessionId
  else match findEntry inventory binding.currentLocalTransactionId with
  | none =>
    serviceError "SB-MGA-CLEANUP-HORIZON-SESSION-TX-MISSING"
      "transaction.cleanup_horizon.session_transaction_missing" binding.stableSessionId
  | some e =>
  if !isActiveInventoryState e.state then
    serviceError "SB-MGA-CLEANUP-HORIZON-SESSION-TX-NOT-ACTIVE"
      "transaction.cleanup_horizon.session_transaction_not_active"
      (binding.stableSessionId ++ ":" ++ transactionStateName e.state)
  else .ok ()

def validateAlwaysActiveSessions (request : AuthoritativeCleanupHorizonRequest) :
    Except DiagnosticRecord Unit :=
  if !request.alwaysInTransactionPolicy then .ok ()
  else if !request.alwaysActiveSessionInventoryAuthoritative then
    serviceError "SB-MGA-CLEANUP-HORIZON-SESSION-INVENTORY-NOT-AUTHORITATIVE"
      "transaction.cleanup_horizon.session_inventory_not_authoritative"
      "always-in-transaction sessions require authoritative active binding inventory"
  else
    request.alwaysActiveSessions.forM (validateAlwaysActiveSession request.inventory)

def inventoryBlockers (inventory : LocalTransactionInventory) : List CleanupHorizonBlocker :=
  (inventory.entries.filter fun e => isActiveInventoryState e.state ||
    isUnresolvedOutcomeState (inventoryVisibilityState e)).map fun e =>
      { kind :=
          if isUnresolvedOutcomeState (inventoryVisibilityState e) then
            .unresolvedOutcome
          else .activeTransaction
        localTransactionId := e.localId
        observedState := transactionStateName e.state
        stableName := "local_transaction:" ++ toString e.localId
        authoritative := true }

def snapshotBlockers (snapshots : List Nat) : List CleanupHorizonBlocker :=
  snapshots.map fun snapshot =>
    { kind := .activeSnapshot
      localTransactionId := snapshot
      observedState := "active_snapshot"
      stableName := "active_snapshot:" ++ toString snapshot
      authoritative := true }

def alwaysActiveSessionBlockers (request : AuthoritativeCleanupHorizonRequest) :
    List CleanupHorizonBlocker :=
  if !request.alwaysInTransactionPolicy then []
  else
    request.alwaysActiveSessions.map fun binding =>
      { kind := .alwaysActiveSession
        localTransactionId := binding.currentLocalTransactionId
        observedState :=
          match findEntry request.inventory binding.currentLocalTransactionId with
          | none => "missing"
          | some e => transactionStateName e.state
        stableName := binding.stableSessionId
        authoritative := binding.authoritative }

def boolText (value : Bool) : String := if value then "true" else "false"

def baseEvidence (request : AuthoritativeCleanupHorizonRequest) :
    List CleanupHorizonEvidenceField :=
  [⟨"cleanup_horizon_service", "dpc030_authoritative_cleanup_horizon_v1"⟩,
   ⟨"authority_source", "durable_mga_transaction_inventory"⟩,
   ⟨"inventory_authoritative", boolText request.inventoryAuthoritative⟩,
   ⟨"inventory_complete", boolText request.inventoryComplete⟩,
   ⟨"active_snapshot_inventory_authoritative",
     boolText request.activeSnapshotInventoryAuthoritative⟩,
   ⟨"always_in_transaction_policy", boolText request.alwaysInTransactionPolicy⟩,
   ⟨"always_active_session_inventory_authoritative",
     boolText request.alwaysActiveSessionInventoryAuthoritative⟩,
   ⟨"parser_finality_authority", "false"⟩, ⟨"client_state_authority", "false"⟩,
   ⟨"timestamp_ordering_authority", "false"⟩, ⟨"uuid_ordering_authority", "false"⟩,
   ⟨"crud_event_stream_authority", "false"⟩, ⟨"cluster_private_implementation", "false"⟩]

def computeAuthoritativeCleanupHorizon (registry : SnapshotRegistry)
    (request : AuthoritativeCleanupHorizonRequest) :
    Except DiagnosticRecord AuthoritativeCleanupHorizonResult := do
  validateInventory request
  if !request.activeSnapshotInventoryAuthoritative then
    serviceError "SB-MGA-CLEANUP-HORIZON-SNAPSHOT-INVENTORY-NOT-AUTHORITATIVE"
      "transaction.cleanup_horizon.snapshot_inventory_not_authoritative"
      "active snapshot registry must be authoritative"
  else do
    validateAlwaysActiveSessions request
    let published ← publishedSnapshotRetentionHorizons registry request.inventory
    let snapshots := request.activeSnapshotHorizons ++ published
    let horizons ← computeLocalTransactionHorizons request.inventory snapshots
    let cleanupHorizon :=
      min (min horizons.oldestInterestingTransaction
        horizons.oldestActiveTransaction) horizons.oldestSnapshotTransaction
    let blockers := inventoryBlockers request.inventory ++
      snapshotBlockers snapshots ++ alwaysActiveSessionBlockers request
    return {
      horizons
      cleanupHorizon
      blockers
      evidence := baseEvidence request ++ [⟨"fail_closed", "false"⟩, ⟨"oit_local_transaction_id",
           toString horizons.oldestInterestingTransaction⟩,
         ⟨"oat_local_transaction_id", toString horizons.oldestActiveTransaction⟩,
         ⟨"ost_local_transaction_id", toString horizons.oldestSnapshotTransaction⟩,
         ⟨"cleanup_horizon_local_transaction_id", toString cleanupHorizon⟩,
         ⟨"next_local_transaction_id", toString horizons.nextTransactionId⟩,
         ⟨"inventory_entry_count", toString request.inventory.entries.length⟩,
         ⟨"active_snapshot_count", toString snapshots.length⟩, ⟨"always_active_session_count",
           toString request.alwaysActiveSessions.length⟩,
         ⟨"blocker_count", toString blockers.length⟩,
         ⟨"diagnostic_code", "SB-MGA-CLEANUP-HORIZON-AUTHORITATIVE"⟩] }

/-! ## Judging one version -/

inductive CleanupHoldKind where
  | none | oldestInterestingTransaction | oldestActiveTransaction
  | oldestSnapshotTransaction | limboTransaction | recoveryRequired
  | archiveRequired | backupRequired | managementOperation | legalHold
  | adminHold | unknown
  deriving DecidableEq

inductive CleanupEligibilityDecision where
  | eligibleRequiresAuthority | eligibleAuthoritative | blockedByHorizon
  | blockedByLimbo | blockedByRecovery | blockedByArchiveOrBackup | unknown
  deriving DecidableEq

structure TransactionCleanupDecisionResult where
  decision : CleanupEligibilityDecision := .unknown
  blockingHold : CleanupHoldKind := .unknown
  diagnostic : DiagnosticRecord

def TransactionCleanupDecisionResult.ok (r : TransactionCleanupDecisionResult) :
    Bool :=
  r.diagnostic.severity == .info

structure AuthoritativeCleanupHold where
  holdKind : CleanupHoldKind := .unknown
  horizonTransaction : Nat := kInvalidLocalTransactionId
  authoritative : Bool := false
  stableName : String := ""

structure HistoryRetentionHorizon where
  horizonTransaction : Nat := kInvalidLocalTransactionId
  authoritative : Bool := false
  stableName : String := ""

def retentionHorizonStableName (h : HistoryRetentionHorizon) : String :=
  if h.stableName.isEmpty then "history_retention_horizon" else h.stableName

def makeTransactionCleanupDiagnostic (severity : Severity) (code key : String)
    (detail : String := "") : DiagnosticRecord :=
  { diagnosticCode := code
    messageKey := key
    detail
    sourceComponent := "transaction.mga.cleanup"
    severity }

def decisionForHoldKind : CleanupHoldKind → CleanupEligibilityDecision
  | .limboTransaction => .blockedByLimbo
  | .recoveryRequired => .blockedByRecovery
  | .archiveRequired | .backupRequired => .blockedByArchiveOrBackup
  | .none | .oldestInterestingTransaction | .oldestActiveTransaction
  | .oldestSnapshotTransaction | .managementOperation | .legalHold
  | .adminHold | .unknown => .blockedByHorizon

def makeBlockedDecisionWithCode (holdKind : CleanupHoldKind)
    (code key detail : String) : TransactionCleanupDecisionResult :=
  { decision := decisionForHoldKind holdKind
    blockingHold := holdKind
    diagnostic := makeTransactionCleanupDiagnostic .warning code key detail }

def makeBlockedDecision (holdKind : CleanupHoldKind) (key detail : String) :
    TransactionCleanupDecisionResult :=
  makeBlockedDecisionWithCode holdKind "SB-SNTXN-CLEANUP-BLOCKED-BY-HORIZON" key detail

def makeEligibleDecision : TransactionCleanupDecisionResult :=
  { decision := .eligibleAuthoritative
    blockingHold := .none
    diagnostic := makeTransactionCleanupDiagnostic .info "SB-SNTXN-CLEANUP-ELIGIBLE-AUTHORITATIVE"
      "transaction.cleanup.eligible_authoritative" }

def horizonBlocks (horizon : Nat) (m : RowVersionMetadata) : Bool :=
  !localIdValid horizon ||
    decide (horizon ≤ m.identity.creatorTransaction.localId)

def evaluateHold (m : RowVersionMetadata) (holdKind : CleanupHoldKind)
    (horizon : Nat) (authoritative : Bool) (stableName : String) :
    TransactionCleanupDecisionResult :=
  if !authoritative then
    makeBlockedDecision holdKind "transaction.cleanup.non_authoritative_hold"
      ("non_authoritative_hold:" ++ stableName)
  else if !localIdValid horizon then
    makeBlockedDecision holdKind "transaction.cleanup.invalid_hold" ("invalid_hold:" ++ stableName)
  else if horizonBlocks horizon m then
    makeBlockedDecision holdKind "transaction.cleanup.blocked_by_hold" stableName
  else makeEligibleDecision

def isKnownFinalCreatorOutcome (m : RowVersionMetadata) : Bool :=
  match m.state with
  | .deleteMarker =>
    m.creatorTransactionState == .committed || m.creatorTransactionState == .rolledBack
  | .committed => m.creatorTransactionState == .committed
  | .rolledBack => m.creatorTransactionState == .rolledBack
  | _ => false

def creatorOutcomeCanBecomeKnown (s : TransactionState) : Bool :=
  s == .created || s == .active || s == .readOnlyActive || s == .preparing ||
    s == .prepared || s == .committing || s == .rollingBack ||
    s == .recovering || s == .limbo || s == .failedTerminal

def evaluateCreatorOutcomeForCleanup (m : RowVersionMetadata) :
    TransactionCleanupDecisionResult :=
  if m.state = .limbo ∨ m.creatorTransactionState = .limbo then
    makeBlockedDecision .limboTransaction
      "transaction.cleanup.blocked_by_limbo" (rowVersionStateName m.state)
  else if m.state = .recoveryRequired ∨ m.creatorTransactionState = .recovering then
    makeBlockedDecision .recoveryRequired "transaction.cleanup.blocked_by_recovery"
      (transactionStateName m.creatorTransactionState)
  else if isKnownFinalCreatorOutcome m then makeEligibleDecision
  else if creatorOutcomeCanBecomeKnown m.creatorTransactionState ∨
      m.state = .uncommitted ∨ m.state = .prepared then
    makeBlockedDecisionWithCode .recoveryRequired "SB-SNTXN-CLEANUP-BLOCKED-BY-UNKNOWN-OUTCOME"
      "transaction.cleanup.blocked_by_unknown_outcome" (rowVersionStateName m.state ++ ":" ++
        transactionStateName m.creatorTransactionState)
  else
    makeBlockedDecisionWithCode .recoveryRequired "SB-SNTXN-CLEANUP-BLOCKED-BY-UNKNOWN-OUTCOME"
      "transaction.cleanup.creator_outcome_mismatch" (rowVersionStateName m.state ++ ":" ++
        transactionStateName m.creatorTransactionState)

def evaluateRetentionHorizon (m : RowVersionMetadata)
    (horizon : HistoryRetentionHorizon) : TransactionCleanupDecisionResult :=
  if !horizon.authoritative then
    makeBlockedDecisionWithCode .legalHold "SB-SNTXN-CLEANUP-BLOCKED-BY-RETENTION-HORIZON"
      "transaction.cleanup.retention_horizon_not_authoritative"
      ("non_authoritative_retention_horizon:" ++ retentionHorizonStableName horizon)
  else if !localIdValid horizon.horizonTransaction then
    makeBlockedDecisionWithCode .legalHold "SB-SNTXN-CLEANUP-BLOCKED-BY-RETENTION-HORIZON"
      "transaction.cleanup.retention_horizon_invalid"
      ("invalid_retention_horizon:" ++ retentionHorizonStableName horizon)
  else if horizonBlocks horizon.horizonTransaction m then
    makeBlockedDecisionWithCode .legalHold "SB-SNTXN-CLEANUP-BLOCKED-BY-RETENTION-HORIZON"
      "transaction.cleanup.blocked_by_retention_horizon" (retentionHorizonStableName horizon)
  else makeEligibleDecision

/-- The first check that does not come out eligible decides; if all do, the
last one does. -/
def firstBlocked (result : TransactionCleanupDecisionResult) :
    List (Unit → TransactionCleanupDecisionResult) → TransactionCleanupDecisionResult
  | [] => result
  | check :: rest =>
    if result.decision ≠ .eligibleAuthoritative then result
    else firstBlocked (check ()) rest

def evaluateLocalCleanupWithHorizons (m : RowVersionMetadata)
    (horizons : LocalTransactionHorizons) : TransactionCleanupDecisionResult :=
  match observeRowVersionMetadata m with
  | some diagnostic => { decision := .unknown, diagnostic := diagnostic }
  | none =>
    firstBlocked (evaluateCreatorOutcomeForCleanup m)
      [fun _ => evaluateHold m .oldestInterestingTransaction
         horizons.oldestInterestingTransaction true "local_oit",
       fun _ => evaluateHold m .oldestActiveTransaction
         horizons.oldestActiveTransaction true "local_oat",
       fun _ => evaluateHold m .oldestSnapshotTransaction
         horizons.oldestSnapshotTransaction true "local_ost"]

def evaluateLocalCleanupWithAuthoritativeHolds (m : RowVersionMetadata)
    (horizons : LocalTransactionHorizons) (additionalHolds : List AuthoritativeCleanupHold) :
    TransactionCleanupDecisionResult :=
  firstBlocked (evaluateLocalCleanupWithHorizons m horizons) (additionalHolds.map fun hold _ =>
      evaluateHold m hold.holdKind hold.horizonTransaction hold.authoritative hold.stableName)

def evaluateLocalCleanupWithRetentionHolds (m : RowVersionMetadata)
    (horizons : LocalTransactionHorizons) (additionalHolds : List AuthoritativeCleanupHold)
    (historyRetentionHorizons : List HistoryRetentionHorizon) :
    TransactionCleanupDecisionResult :=
  firstBlocked (evaluateLocalCleanupWithAuthoritativeHolds m horizons additionalHolds)
    (historyRetentionHorizons.map fun horizon _ => evaluateRetentionHorizon m horizon)

def isActiveCleanupBlockerState (s : TransactionState) : Bool :=
  s == .active || s == .readOnlyActive

def isUnresolvedCleanupBlockerState (s : TransactionState) : Bool :=
  s == .preparing || s == .prepared || s == .committing || s == .limbo ||
    s == .recovering || s == .failedTerminal

def evaluateSuccessorTransactionForCleanup (m : RowVersionMetadata)
    (inventory : LocalTransactionInventory) (cleanupHorizon : Nat) :
    TransactionCleanupDecisionResult :=
  if m.state ≠ .committed ∨ ¬m.chain.hasNext then makeEligibleDecision
  else if !localIdValid m.successorTransactionLocalId then
    makeBlockedDecisionWithCode .recoveryRequired "SB-SNTXN-CLEANUP-BLOCKED-BY-UNKNOWN-SUCCESSOR"
      "transaction.cleanup.successor_transaction_missing"
      (toString m.identity.creatorTransaction.localId)
  else if !localIdValid cleanupHorizon ||
      decide (cleanupHorizon ≤ m.successorTransactionLocalId) then
    makeBlockedDecision .oldestActiveTransaction
      "transaction.cleanup.successor_not_below_cleanup_horizon"
      (toString m.successorTransactionLocalId)
  else match findEntry inventory m.successorTransactionLocalId with
  | none =>
    makeBlockedDecisionWithCode .recoveryRequired "SB-SNTXN-CLEANUP-BLOCKED-BY-UNKNOWN-SUCCESSOR"
      "transaction.cleanup.successor_transaction_not_in_inventory"
      (toString m.successorTransactionLocalId)
  | some successor =>
  if isActiveCleanupBlockerState successor.state then
    makeBlockedDecision .oldestActiveTransaction "transaction.cleanup.successor_transaction_active"
      (toString successor.localId)
  else if isUnresolvedCleanupBlockerState successor.state then
    makeBlockedDecisionWithCode .recoveryRequired "SB-SNTXN-CLEANUP-BLOCKED-BY-UNKNOWN-SUCCESSOR"
      "transaction.cleanup.successor_transaction_unresolved" (transactionStateName successor.state)
  else if successor.state ≠ .committed then
    makeBlockedDecisionWithCode .recoveryRequired "SB-SNTXN-CLEANUP-BLOCKED-BY-UNKNOWN-SUCCESSOR"
      "transaction.cleanup.successor_transaction_not_committed"
      (transactionStateName successor.state)
  else makeEligibleDecision

/-! ## The workset pass -/

structure LocalCleanupWorksetRequest where
  inventory : LocalTransactionInventory
  inventoryAuthoritative : Bool := false
  inventoryComplete : Bool := true
  activeSnapshotHorizons : List Nat := []
  activeSnapshotInventoryAuthoritative : Bool := true
  alwaysInTransactionPolicy : Bool := false
  alwaysActiveSessionInventoryAuthoritative : Bool := true
  alwaysActiveSessions : List AlwaysActiveSessionTransactionBinding := []
  additionalHolds : List AuthoritativeCleanupHold := []
  historyRetentionHorizons : List HistoryRetentionHorizon := []
  rowVersions : List RowVersionMetadata := []
  maxRetainedRowVersions : Nat := 0
  retainRowVersionsInResult : Bool := true
  emitReclaimEvidenceRecords : Bool := false
  maxReclaimEvidenceRecords : Nat := 0
  reclaimRolledBackVersions : Bool := true
  reclaimDeleteMarkers : Bool := true
  reclaimObsoleteCommittedVersions : Bool := true

structure LocalCleanupReclaimEvidenceRecord where
  rowVersionIdentity : RowVersionIdentity
  rowVersionState : RowVersionState
  creatorTransaction : Nat
  successorTransaction : Nat
  authoritativeCleanupHorizonLocalTransactionId : Nat
  stableEvidenceId : String

structure LocalCleanupWorksetResult where
  horizons : Option LocalTransactionHorizons := none
  retainedRowVersions : List RowVersionMetadata := []
  reclaimEvidenceRecords : List LocalCleanupReclaimEvidenceRecord := []
  reclaimedRowVersions : List RowVersionMetadata := []
  reclaimedRowVersionCount : Nat := 0
  retainedRowVersionCount : Nat := 0
  horizonBlockedRowVersionCount : Nat := 0
  backupArchiveBlockedRowVersionCount : Nat := 0
  retentionBlockedRowVersionCount : Nat := 0
  limboOrUnknownOutcomeBlockedRowVersionCount : Nat := 0
  oldestRetainedRowVersionLocalTransactionId : Nat := 0
  authoritativeCleanupHorizonLocalTransactionId : Nat := 0
  cleanupHorizonAuthoritative : Bool := false
  boundedMemoryLimitHit : Bool := false
  diagnostic : DiagnosticRecord

def LocalCleanupWorksetResult.ok (r : LocalCleanupWorksetResult) : Bool :=
  r.diagnostic.severity == .info && r.cleanupHorizonAuthoritative

def isCleanupReclaimableByKind (m : RowVersionMetadata)
    (request : LocalCleanupWorksetRequest) : Bool :=
  if m.state = .rolledBack then request.reclaimRolledBackVersions
  else if m.state = .deleteMarker then request.reclaimDeleteMarkers
  else if m.state = .committed ∧ m.chain.hasNext then
    request.reclaimObsoleteCommittedVersions
  else false

def isRetentionBlockedDecision (d : TransactionCleanupDecisionResult) : Bool :=
  d.diagnostic.diagnosticCode == "SB-SNTXN-CLEANUP-BLOCKED-BY-RETENTION-HORIZON"

def isUnknownOutcomeDecision (d : TransactionCleanupDecisionResult) : Bool :=
  d.diagnostic.diagnosticCode == "SB-SNTXN-CLEANUP-BLOCKED-BY-UNKNOWN-OUTCOME"

def isBackupOrArchiveHold (k : CleanupHoldKind) : Bool :=
  k == .archiveRequired || k == .backupRequired

def makeReclaimEvidenceRecord (m : RowVersionMetadata) (cleanupHorizon : Nat) :
    LocalCleanupReclaimEvidenceRecord :=
  { rowVersionIdentity := m.identity
    rowVersionState := m.state
    creatorTransaction := m.identity.creatorTransaction.localId
    successorTransaction := m.successorTransactionLocalId
    authoritativeCleanupHorizonLocalTransactionId := cleanupHorizon
    stableEvidenceId :=
      "mga-cleanup-reclaim:" ++ toString m.identity.creatorTransaction.localId ++ ":" ++
        toString m.identity.versionSequence ++ ":" ++ toString cleanupHorizon }

/-- The decision on one version: its own holds first, then its successor. -/
def cleanupDecision (request : LocalCleanupWorksetRequest)
    (horizons : LocalTransactionHorizons) (cleanupHorizon : Nat)
    (m : RowVersionMetadata) : TransactionCleanupDecisionResult :=
  let decision := evaluateLocalCleanupWithRetentionHolds m horizons
    request.additionalHolds request.historyRetentionHorizons
  if decision.decision = .eligibleAuthoritative then
    evaluateSuccessorTransactionForCleanup m request.inventory cleanupHorizon
  else decision

def reclaims (request : LocalCleanupWorksetRequest)
    (horizons : LocalTransactionHorizons) (cleanupHorizon : Nat) (m : RowVersionMetadata) : Bool :=
  let decision := cleanupDecision request horizons cleanupHorizon m
  decision.ok && decision.decision == .eligibleAuthoritative && isCleanupReclaimableByKind m request

/-- The counters a retained version moves. -/
def LocalCleanupWorksetResult.countRetained (result : LocalCleanupWorksetResult)
    (request : LocalCleanupWorksetRequest) (m : RowVersionMetadata)
    (d : TransactionCleanupDecisionResult) : LocalCleanupWorksetResult :=
  let creator := m.identity.creatorTransaction.localId
  let oldest := result.oldestRetainedRowVersionLocalTransactionId
  { result with
    retainedRowVersions :=
      if request.retainRowVersionsInResult then result.retainedRowVersions ++ [m]
      else result.retainedRowVersions
    retainedRowVersionCount := result.retainedRowVersionCount + 1
    oldestRetainedRowVersionLocalTransactionId :=
      if creator ≠ 0 ∧ (oldest = 0 ∨ creator < oldest) then creator else oldest
    horizonBlockedRowVersionCount :=
      if d.decision = .blockedByHorizon ∨ d.decision = .blockedByLimbo ∨
          d.decision = .blockedByRecovery ∨ d.decision = .blockedByArchiveOrBackup then
        result.horizonBlockedRowVersionCount + 1
      else result.horizonBlockedRowVersionCount
    backupArchiveBlockedRowVersionCount :=
      if d.decision = .blockedByArchiveOrBackup ∨ isBackupOrArchiveHold d.blockingHold then
        result.backupArchiveBlockedRowVersionCount + 1
      else result.backupArchiveBlockedRowVersionCount
    retentionBlockedRowVersionCount :=
      if isRetentionBlockedDecision d then
        result.retentionBlockedRowVersionCount + 1
      else result.retentionBlockedRowVersionCount
    limboOrUnknownOutcomeBlockedRowVersionCount :=
      if d.decision = .blockedByLimbo ∨ isUnknownOutcomeDecision d ∨ d.diagnostic.diagnosticCode =
            "SB-SNTXN-CLEANUP-BLOCKED-BY-UNKNOWN-SUCCESSOR" then
        result.limboOrUnknownOutcomeBlockedRowVersionCount + 1
      else result.limboOrUnknownOutcomeBlockedRowVersionCount }

def cleanupRowVersions (request : LocalCleanupWorksetRequest)
    (horizons : LocalTransactionHorizons) :
    LocalCleanupWorksetResult → List RowVersionMetadata → LocalCleanupWorksetResult
  | result, [] =>
    { result with
      diagnostic := makeTransactionCleanupDiagnostic .info
        "SB-SNTXN-CLEANUP-APPLIED" "transaction.cleanup.applied"
        (toString result.reclaimedRowVersionCount) }
  | result, m :: rest =>
    let cleanupHorizon := result.authoritativeCleanupHorizonLocalTransactionId
    if !reclaims request horizons cleanupHorizon m then
      if request.retainRowVersionsInResult && request.maxRetainedRowVersions != 0 &&
          decide (result.retainedRowVersions.length ≥ request.maxRetainedRowVersions) then
        { result with
          boundedMemoryLimitHit := true
          diagnostic := makeTransactionCleanupDiagnostic .error
            "SB-SNTXN-CLEANUP-RESULT-LIMIT-EXCEEDED" "transaction.cleanup.result_limit_exceeded"
            (toString request.maxRetainedRowVersions) }
      else
        cleanupRowVersions request horizons (result.countRetained request m
            (cleanupDecision request horizons cleanupHorizon m)) rest
    else
      let result :=
        { result with
          reclaimedRowVersions := result.reclaimedRowVersions ++ [m]
          reclaimedRowVersionCount := result.reclaimedRowVersionCount + 1 }
      if request.emitReclaimEvidenceRecords then
        if request.maxReclaimEvidenceRecords = 0 ∨ result.reclaimEvidenceRecords.length ≥
              request.maxReclaimEvidenceRecords then
          { result with
            boundedMemoryLimitHit := true
            diagnostic := makeTransactionCleanupDiagnostic .error
              "SB-SNTXN-CLEANUP-RECLAIM-EVIDENCE-LIMIT-EXCEEDED"
              "transaction.cleanup.reclaim_evidence_limit_exceeded"
              (toString request.maxReclaimEvidenceRecords) }
        else
          cleanupRowVersions request horizons
            { result with
              reclaimEvidenceRecords := result.reclaimEvidenceRecords ++
                [makeReclaimEvidenceRecord m cleanupHorizon] } rest
      else cleanupRowVersions request horizons result rest

def firstHoldRefusal : List AuthoritativeCleanupHold → Option DiagnosticRecord
  | [] => none
  | hold :: rest =>
    if !hold.authoritative then
      some (makeTransactionCleanupDiagnostic .error "SB-SNTXN-CLEANUP-HOLD-NOT-AUTHORITATIVE"
        "transaction.cleanup.hold_not_authoritative" hold.stableName)
    else if !localIdValid hold.horizonTransaction then
      some (makeTransactionCleanupDiagnostic .error
        "SB-SNTXN-CLEANUP-HOLD-INVALID" "transaction.cleanup.hold_invalid" hold.stableName)
    else firstHoldRefusal rest

def firstRetentionRefusal : List HistoryRetentionHorizon → Option DiagnosticRecord
  | [] => none
  | horizon :: rest =>
    if !horizon.authoritative then
      some (makeTransactionCleanupDiagnostic .error
        "SB-SNTXN-CLEANUP-RETENTION-HORIZON-NOT-AUTHORITATIVE"
        "transaction.cleanup.retention_horizon_not_authoritative"
        (retentionHorizonStableName horizon))
    else if !localIdValid horizon.horizonTransaction then
      some (makeTransactionCleanupDiagnostic .error "SB-SNTXN-CLEANUP-RETENTION-HORIZON-INVALID"
        "transaction.cleanup.retention_horizon_invalid" (retentionHorizonStableName horizon))
    else firstRetentionRefusal rest

def LocalCleanupWorksetRequest.horizonRequest (request : LocalCleanupWorksetRequest) :
    AuthoritativeCleanupHorizonRequest :=
  { inventory := request.inventory
    inventoryAuthoritative := request.inventoryAuthoritative
    inventoryComplete := request.inventoryComplete
    activeSnapshotHorizons := request.activeSnapshotHorizons
    activeSnapshotInventoryAuthoritative := request.activeSnapshotInventoryAuthoritative
    alwaysInTransactionPolicy := request.alwaysInTransactionPolicy
    alwaysActiveSessionInventoryAuthoritative := request.alwaysActiveSessionInventoryAuthoritative
    alwaysActiveSessions := request.alwaysActiveSessions }

def applyLocalCleanupWithAuthoritativeInventory (registry : SnapshotRegistry)
    (request : LocalCleanupWorksetRequest) : LocalCleanupWorksetResult :=
  if !request.inventoryAuthoritative then
    { diagnostic := makeTransactionCleanupDiagnostic .error
        "SB-SNTXN-CLEANUP-HORIZON-NOT-AUTHORITATIVE" "transaction.cleanup.horizon_not_authoritative"
        "destructive cleanup requires durable local inventory authority" }
  else match firstHoldRefusal request.additionalHolds with
  | some diagnostic => { diagnostic := diagnostic }
  | none =>
  match firstRetentionRefusal request.historyRetentionHorizons with
  | some diagnostic => { diagnostic := diagnostic }
  | none =>
  match computeAuthoritativeCleanupHorizon registry request.horizonRequest with
  | .error diagnostic => { diagnostic := diagnostic }
  | .ok horizon =>
    cleanupRowVersions request horizon.horizons
      { horizons := some horizon.horizons
        authoritativeCleanupHorizonLocalTransactionId :=
          (request.historyRetentionHorizons.map (·.horizonTransaction)).foldl
            min ((request.additionalHolds.map (·.horizonTransaction)).foldl min
              horizon.cleanupHorizon)
        cleanupHorizonAuthoritative := true
        diagnostic := makeTransactionCleanupDiagnostic .info "" "" }
      request.rowVersions

end ScratchBird.Mga
