import ScratchBird.Mga.Snapshot

/-!
# Historical audit snapshots

`historical_snapshot_locator.cpp`. A read-only transaction asks for the database
as of a committed target. The snapshot it gets is bounded by the local number of
the target, with no commit boundary and with empty exclusion lists. Everything
else in the call is a refusal: of writes, of history that is remote or retired,
and of requests that come without the evidence of an authority.
-/

namespace ScratchBird.Mga

inductive HistoricalAuditLocationClass where
  | localHot | localArchive | retired | remote | unknown
  deriving DecidableEq

def historicalAuditLocationClassName : HistoricalAuditLocationClass → String
  | .localHot => "local_hot"
  | .localArchive => "local_archive"
  | .retired => "retired"
  | .remote => "remote"
  | .unknown => "unknown"

structure HistoricalAuditSnapshotEvidence where
  transactionInventoryAuthoritative : Bool := false
  archiveManifestAuthoritative : Bool := false
  securityPolicyAuthoritative : Bool := false
  catalogEpochAuthoritative : Bool := false
  clusterEpochAuthoritative : Bool := false
  externalClusterProviderAvailable : Bool := false
  securityEpoch : Nat := 0
  catalogGenerationId : Nat := 0
  clusterEpoch : Nat := 0

structure HistoricalAuditSnapshotRequest where
  inventory : LocalTransactionInventory
  auditReaderTransaction : Nat := kInvalidLocalTransactionId
  targetLocalTransactionId : Nat := kInvalidLocalTransactionId
  requestedLocationClass : HistoricalAuditLocationClass := .unknown
  evidence : HistoricalAuditSnapshotEvidence := {}
  retiredHistoryEvidencePresent : Bool := false
  writeIntent : Bool := false

structure HistoricalAuditSnapshotResult where
  statusOk : Bool
  snapshot : LocalTransactionSnapshot :=
    { readerTransaction := kInvalidLocalTransactionId
      visibleThroughLocalTransaction := kInvalidLocalTransactionId
      transactionStartVisibleThroughLocalTransaction := kInvalidLocalTransactionId
      oldestActiveTransaction := kInvalidLocalTransactionId
      oldestSnapshotTransaction := kInvalidLocalTransactionId
      visibleThroughCommitSequence := 0
      transactionStartVisibleThroughCommitSequence := 0 }
  visibilitySnapshot : VisibilitySnapshot := {}
  targetLocalTransactionId : Nat := kInvalidLocalTransactionId
  locationClass : HistoricalAuditLocationClass := .unknown
  targetTransactionState : String := "unknown"
  queryable : Bool := false
  writesRefused : Bool := true
  failClosed : Bool := true
  retiredHistoryExact : Bool := false
  noClusterRemoteFailClosed : Bool := false
  parserFinalityAuthority : Bool := false
  referenceFinalityAuthority : Bool := false
  diagnostic : DiagnosticRecord

def HistoricalAuditSnapshotResult.ok (result : HistoricalAuditSnapshotResult) :
    Bool :=
  result.statusOk && result.queryable && localIdValid result.snapshot.readerTransaction

def makeHistoricalAuditSnapshotDiagnostic (severity : Severity)
    (code key : String) (detail : String := "") : DiagnosticRecord :=
  { diagnosticCode := code
    messageKey := key
    detail
    sourceComponent := "transaction.mga.historical_snapshot"
    severity }

namespace HistoricalAuditSnapshotRequest

def refuse (locationClass : HistoricalAuditLocationClass)
    (code key : String) (detail : String := "") : HistoricalAuditSnapshotResult :=
  { statusOk := false, locationClass
    retiredHistoryExact := locationClass == .retired
    noClusterRemoteFailClosed := locationClass == .remote
    diagnostic := makeHistoricalAuditSnapshotDiagnostic .error code key detail }

def findEntry (inventory : LocalTransactionInventory) (localId : Nat) :
    Option TransactionInventoryEntry :=
  if !localIdValid localId then none else Mga.findEntry inventory localId

def inferredLocationClass (state : TransactionState) :
    HistoricalAuditLocationClass :=
  if state = .archived then .localArchive else .localHot

def commonAuthorityEvidencePresent (evidence : HistoricalAuditSnapshotEvidence) :
    Bool :=
  evidence.transactionInventoryAuthoritative &&
    evidence.securityPolicyAuthoritative && evidence.catalogEpochAuthoritative &&
    evidence.clusterEpochAuthoritative && evidence.securityEpoch != 0 &&
    evidence.catalogGenerationId != 0 && evidence.clusterEpoch != 0

/-- The refusals that come before any look at the inventory. -/
def refusedAtOnce (request : HistoricalAuditSnapshotRequest) :
    Option HistoricalAuditSnapshotResult :=
  if request.writeIntent then
    some (refuse .unknown "SB-MGA-HISTORICAL-SNAPSHOT-WRITE-REFUSED"
      "transaction.historical_snapshot.write_refused")
  else if request.requestedLocationClass = .remote then
    some (if request.evidence.externalClusterProviderAvailable then
        refuse .remote "SB-MGA-HISTORICAL-SNAPSHOT-REMOTE-EXTERNAL-PROVIDER-REQUIRED"
          "transaction.historical_snapshot.remote_fail_closed"
          "remote_snapshot_requires_external_cluster_provider"
      else
        refuse .remote "SB-MGA-HISTORICAL-SNAPSHOT-REMOTE-NO-CLUSTER"
          "transaction.historical_snapshot.remote_fail_closed"
          "remote_snapshot_no_cluster_provider")
  else if request.retiredHistoryEvidencePresent ∨ request.requestedLocationClass = .retired then
    some (refuse .retired "SB-MGA-HISTORICAL-SNAPSHOT-RETIRED-EXACT"
      "transaction.historical_snapshot.retired_exact"
      "retired_history_requires_restore_or_retention_proof")
  else if !commonAuthorityEvidencePresent request.evidence then
    some (refuse .unknown "SB-MGA-HISTORICAL-SNAPSHOT-AUTHORITY-EVIDENCE-REQUIRED"
      "transaction.historical_snapshot.authority_evidence_required")
  else none

/-- The snapshot of a reader as of a target, once both are accepted. -/
def located (request : HistoricalAuditSnapshotRequest) (reader target : TransactionInventoryEntry)
    (locationClass : HistoricalAuditLocationClass) :
    HistoricalAuditSnapshotResult :=
  match computeLocalTransactionHorizons request.inventory [request.targetLocalTransactionId] with
  | .error diagnostic =>
    { statusOk := false, diagnostic, locationClass
      targetLocalTransactionId := target.localId
      targetTransactionState := transactionStateName target.state }
  | .ok horizons =>
    { statusOk := true, locationClass
      targetLocalTransactionId := target.localId
      targetTransactionState := transactionStateName target.state
      queryable := true
      failClosed := false
      snapshot :=
        { readerTransaction := reader.localId
          visibleThroughLocalTransaction := target.localId
          transactionStartVisibleThroughLocalTransaction := target.localId
          oldestActiveTransaction := horizons.oldestActiveTransaction
          oldestSnapshotTransaction := horizons.oldestSnapshotTransaction
          allowReaderOwnUncommitted := false
          visibleThroughCommitSequence := 0
          transactionStartVisibleThroughCommitSequence := 0 }
      visibilitySnapshot :=
        { readerTransaction := reader.localId
          visibleThroughLocalTransactionId := target.localId
          visibleThroughLocalTransactionIdIsBoundary := true
          allowReaderOwnUncommitted := false
          recoveryContext := false }
      diagnostic :=
        makeHistoricalAuditSnapshotDiagnostic .info
          "SB-MGA-HISTORICAL-SNAPSHOT-OK" "transaction.historical_snapshot.ok"
          (historicalAuditLocationClassName locationClass) }

def locationClassOf (request : HistoricalAuditSnapshotRequest)
    (target : TransactionInventoryEntry) : HistoricalAuditLocationClass :=
  if request.requestedLocationClass = .unknown then
    inferredLocationClass target.state
  else request.requestedLocationClass

/-- The checks on the target, given the reader. -/
def locate (request : HistoricalAuditSnapshotRequest)
    (reader target : TransactionInventoryEntry) : HistoricalAuditSnapshotResult :=
  if request.locationClassOf target = .localArchive ∧
      ¬request.evidence.archiveManifestAuthoritative then
    { refuse (request.locationClassOf target) "SB-MGA-HISTORICAL-SNAPSHOT-ARCHIVE-EVIDENCE-REQUIRED"
        "transaction.historical_snapshot.archive_evidence_required" with
      targetLocalTransactionId := target.localId
      targetTransactionState := transactionStateName target.state }
  else if !hasCommittedInventoryOutcome target then
    { refuse (request.locationClassOf target) "SB-MGA-HISTORICAL-SNAPSHOT-TARGET-NOT-QUERYABLE"
        "transaction.historical_snapshot.target_not_queryable"
        (transactionStateName target.state) with
      targetLocalTransactionId := target.localId
      targetTransactionState := transactionStateName target.state }
  else request.located reader target (request.locationClassOf target)

end HistoricalAuditSnapshotRequest

open HistoricalAuditSnapshotRequest in
def createHistoricalAuditSnapshot (request : HistoricalAuditSnapshotRequest) :
    HistoricalAuditSnapshotResult :=
  match request.refusedAtOnce with
  | some refused => refused
  | none =>
  match HistoricalAuditSnapshotRequest.findEntry request.inventory
      request.auditReaderTransaction with
  | none =>
    refuse .unknown "SB-MGA-HISTORICAL-SNAPSHOT-READER-NOT-FOUND"
      "transaction.historical_snapshot.reader_not_found"
  | some reader =>
  if reader.state ≠ .readOnlyActive then
    refuse .unknown "SB-MGA-HISTORICAL-SNAPSHOT-READER-NOT-READ-ONLY"
      "transaction.historical_snapshot.reader_not_read_only" (transactionStateName reader.state)
  else
  match HistoricalAuditSnapshotRequest.findEntry request.inventory
      request.targetLocalTransactionId with
  | none =>
    refuse .unknown "SB-MGA-HISTORICAL-SNAPSHOT-TARGET-UNKNOWN"
      "transaction.historical_snapshot.target_unknown"
  | some target => request.locate reader target

end ScratchBird.Mga
