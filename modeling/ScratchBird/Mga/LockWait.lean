import ScratchBird.Lib.Acyclic
import ScratchBird.Lib.Map
import ScratchBird.Platform

/-!
# The lock wait lifecycle

`lock_wait_lifecycle.cpp`. Grants and queued waits are kept in two maps, the
waits also in one list in the order in which they were queued. A request that
conflicts with no grant of another owner is granted at once, whoever is queued
for the resource; any other waits, or is refused. When a grant goes away the
queue is drained: the first wait of each resource is granted if nothing blocks
it any more, again and again until nothing moves.

A queued wait remembers the grants that blocked it. The list is written when the
wait is queued, and by a drain that meets the wait at the head of its queue. The
deadlock search reads its edges from these lists.

The source numbers grants and waits with `u64` counters, which are natural
numbers here: it would take 2^64 grants or waits to wrap one. Map iteration in
the order of the keys shows in the order of the search and of the reported
timeouts, and there the keys are sorted. Metrics and the deadlock history, which
nothing reads back, are left out, and so are the fields of a request that only
its creator reads.
-/

namespace ScratchBird.Mga

open Lib

inductive MGAWaitResourceKind where
  | logicalLock | physicalLatch | unknown
  deriving DecidableEq

inductive MGALockOwnerKind where
  | transaction | statement | cursor | operation | recovery | cleanup | archive
  | backupRestore | clusterParticipant | engineCoordinator | unknown
  deriving DecidableEq

inductive MGALockScopeKind where
  | database | filespace | page | relation | recordLineage | recordVersion
  | index | indexKey | indexKeyRange | predicateGuard | catalogObjectUuid
  | metadataNameBinding | domainObject | udrPackage | securityPolicyGeneration
  | archiveDescriptor | backupBoundary | clusterTransactionIdentifier
  | clusterMemberEpoch | clusterRoutingOrPlacementUnit | unknown
  deriving DecidableEq

inductive MGALockMode where
  | intentShared | intentExclusive | sharedRead | sharedStability | updateIntent
  | exclusiveWrite | schemaStability | schemaModify | rangeShared | rangeUpdate
  | rangeInsertGuard | rangeExclusive | maintenanceShared | maintenanceExclusive
  | recoveryExclusive | archiveShared | archiveExclusive | clusterPrepare
  | clusterDecision | unknown
  deriving DecidableEq

inductive MGAWaitPolicy where
  | noWait | waitForever | waitTimeout | waitUntilStatementEnd
  | waitUntilTransactionEnd | waitWithDeadlockDetection | waitWithPriority
  | referenceCompatibleWait | maintenanceWindowWait | unknown
  deriving DecidableEq

inductive MGAPriorityClass where
  | normal | foreground | maintenance | recovery | emergency | clusterDecision
  | unknown
  deriving DecidableEq

inductive MGALockReleaseCondition where
  | statementEnd | transactionEnd | operationPhaseEnd | operationEnd
  | recoveryEnd | explicitRelease | unknown
  deriving DecidableEq

inductive MGADurableRecoverySource where
  | transactionInventory | operationEnvelope | clusterDecision | none | unknown
  deriving DecidableEq

inductive MGALockLifecycleDecision where
  | granted | alreadyOwned | waitQueued | lockRefused | waitTimeout
  | waitCancelled | ownerDisconnected | deadlockDetected | deadlockVictim
  | released | shutdownCleanup | admissionRejected | clusterAbsent
  | clusterDecisionRequired | invalidRequest
  deriving DecidableEq

structure MGALockRequest where
  requestId : String := ""
  ownerKind : MGALockOwnerKind := .unknown
  ownerUuid : String := ""
  transactionUuid : String := "none"
  resourceKind : MGAWaitResourceKind := .logicalLock
  scopeKind : MGALockScopeKind := .unknown
  scopeUuid : String := "none"
  recordUuid : String := "none"
  tableUuid : String := "none"
  databaseUuid : String := ""
  clusterUuid : String := "none"
  routeGeneration : Nat := 0
  routeGenerationPresent : Bool := false
  mode : MGALockMode := .unknown
  waitPolicy : MGAWaitPolicy := .waitTimeout
  timeoutMillis : Nat := 0
  priorityClass : MGAPriorityClass := .normal
  requestedAtMillis : Nat := 0
  clusterExists : Bool := false
  distributedWait : Bool := false
  recoveryCritical : Bool := false
  durableWorkCompleted : Nat := 0
  transactionAgeMillis : Nat := 0
  locksHeldHint : Nat := 0
  retryCost : Nat := 0
  releaseCondition : MGALockReleaseCondition := .transactionEnd
  durableRecoverySource : MGADurableRecoverySource := .none
  deriving DecidableEq

structure MGALockGrant where
  grantId : String := ""
  requestId : String := ""
  ownerUuid : String := ""
  ownerKind : MGALockOwnerKind := .unknown
  resourceKind : MGAWaitResourceKind := .logicalLock
  scopeKind : MGALockScopeKind := .unknown
  scopeUuid : String := "none"
  databaseUuid : String := ""
  grantedMode : MGALockMode := .unknown
  grantedAtMillis : Nat := 0
  grantGeneration : Nat := 0
  releaseCondition : MGALockReleaseCondition := .unknown
  durableRecoverySource : MGADurableRecoverySource := .unknown
  deriving DecidableEq

structure MGALockWait where
  waitId : String := ""
  requestId : String := ""
  ownerUuid : String := ""
  resourceKind : MGAWaitResourceKind := .logicalLock
  scopeKind : MGALockScopeKind := .unknown
  scopeUuid : String := "none"
  databaseUuid : String := ""
  mode : MGALockMode := .unknown
  blockedByGrantIds : List String := []
  waitStartedAtMillis : Nat := 0
  deadlineMillis : Nat := 0
  waitPolicy : MGAWaitPolicy := .unknown
  deadlockDetectionRequired : Bool := false
  distributedWait : Bool := false
  publicSummary : String := ""
  protectedSummary : String := ""
  deriving DecidableEq

structure MGALockDiagnostic where
  record : DiagnosticRecord
  arguments : List (String × String)
  deriving DecidableEq

structure MGALockLifecycleResult where
  decision : MGALockLifecycleDecision := .invalidRequest
  grant : MGALockGrant := {}
  wait : MGALockWait := {}
  victimOwnerUuid : String := ""
  victimWaitId : String := ""
  cleanupCount : Nat := 0
  diagnostic : Option MGALockDiagnostic := none
  deriving DecidableEq

structure GrantRecord where
  grant : MGALockGrant
  request : MGALockRequest
  resourceKey : String

structure WaitRecord where
  wait : MGALockWait
  request : MGALockRequest
  resourceKey : String
  queueSequence : Nat := 0
  deriving DecidableEq

structure MGALockWaitLifecycle where
  grants : Map String GrantRecord := ∅
  waits : Map String WaitRecord := ∅
  waitOrder : List String := []
  generation : Nat := 0
  waitSequence : Nat := 0
  acceptingNewRequests : Bool := true

/-! ## Names -/

def mgaWaitResourceKindName : MGAWaitResourceKind → String
  | .logicalLock => "logical_lock"
  | .physicalLatch => "physical_latch"
  | .unknown => "unknown"

def mgaLockScopeKindName : MGALockScopeKind → String
  | .database => "database"
  | .filespace => "filespace"
  | .page => "page"
  | .relation => "relation"
  | .recordLineage => "record_lineage"
  | .recordVersion => "record_version"
  | .index => "index"
  | .indexKey => "index_key"
  | .indexKeyRange => "index_key_range"
  | .predicateGuard => "predicate_guard"
  | .catalogObjectUuid => "catalog_object_uuid"
  | .metadataNameBinding => "metadata_name_binding"
  | .domainObject => "domain_object"
  | .udrPackage => "udr_package"
  | .securityPolicyGeneration => "security_policy_generation"
  | .archiveDescriptor => "archive_descriptor"
  | .backupBoundary => "backup_boundary"
  | .clusterTransactionIdentifier => "cluster_transaction_identifier"
  | .clusterMemberEpoch => "cluster_member_epoch"
  | .clusterRoutingOrPlacementUnit => "cluster_routing_or_placement_unit"
  | .unknown => "unknown"

def mgaLockModeName : MGALockMode → String
  | .intentShared => "intent_shared"
  | .intentExclusive => "intent_exclusive"
  | .sharedRead => "shared_read"
  | .sharedStability => "shared_stability"
  | .updateIntent => "update_intent"
  | .exclusiveWrite => "exclusive_write"
  | .schemaStability => "schema_stability"
  | .schemaModify => "schema_modify"
  | .rangeShared => "range_shared"
  | .rangeUpdate => "range_update"
  | .rangeInsertGuard => "range_insert_guard"
  | .rangeExclusive => "range_exclusive"
  | .maintenanceShared => "maintenance_shared"
  | .maintenanceExclusive => "maintenance_exclusive"
  | .recoveryExclusive => "recovery_exclusive"
  | .archiveShared => "archive_shared"
  | .archiveExclusive => "archive_exclusive"
  | .clusterPrepare => "cluster_prepare"
  | .clusterDecision => "cluster_decision"
  | .unknown => "unknown"

/-! ## Requests -/

def isNone (value : String) : Bool := value.isEmpty || value == "none"

def isHexDigit (ch : Char) : Bool :=
  (decide ('0' ≤ ch) && decide (ch ≤ '9')) || (decide ('a' ≤ ch) && decide (ch ≤ 'f')) ||
    (decide ('A' ≤ ch) && decide (ch ≤ 'F'))

def looksLikeUuidText (value : String) : Bool :=
  value.length == 36 && value.toList.zipIdx.all fun (ch, index) =>
    if index = 8 ∨ index = 13 ∨ index = 18 ∨ index = 23 then ch == '-'
    else isHexDigit ch

def looksLikeUuidV7Text (value : String) : Bool :=
  looksLikeUuidText value && value.toList[14]? == some '7'

def isClusterScope (scopeKind : MGALockScopeKind) : Bool :=
  scopeKind == .clusterTransactionIdentifier || scopeKind == .clusterMemberEpoch ||
    scopeKind == .clusterRoutingOrPlacementUnit

def isClusterMode (mode : MGALockMode) : Bool := mode == .clusterPrepare || mode == .clusterDecision

namespace MGALockRequest

def isTransactionScopedWrite (request : MGALockRequest) : Bool :=
  request.ownerKind == .transaction &&
    (request.mode == .exclusiveWrite || request.mode == .updateIntent ||
      request.mode == .rangeUpdate || request.mode == .rangeExclusive ||
      request.mode == .schemaModify)

def resourceKey (request : MGALockRequest) : String :=
  mgaWaitResourceKindName request.resourceKind ++ "|" ++ request.databaseUuid ++
    "|" ++ mgaLockScopeKindName request.scopeKind ++ "|" ++
    (if !isNone request.recordUuid then "record:" ++ request.recordUuid
     else if !isNone request.scopeUuid then "scope:" ++ request.scopeUuid
     else if !isNone request.tableUuid then "table:" ++ request.tableUuid
     else "database")

def sameOwner (request : MGALockRequest) (grant : MGALockGrant) : Bool :=
  request.ownerUuid == grant.ownerUuid && request.ownerKind == grant.ownerKind

def deadlineExpired (request : MGALockRequest) (nowMillis : Nat) : Bool :=
  if request.waitPolicy = .noWait then true
  else if request.waitPolicy ≠ .waitTimeout ∧ request.waitPolicy ≠ .referenceCompatibleWait ∧
      request.waitPolicy ≠ .maintenanceWindowWait then false
  else if request.timeoutMillis = 0 then true
  else nowMillis ≥ request.requestedAtMillis ∧
    nowMillis - request.requestedAtMillis ≥ request.timeoutMillis

def deadlineMillis (request : MGALockRequest) : Nat :=
  if request.timeoutMillis = 0 then 0
  else (request.requestedAtMillis + request.timeoutMillis) % 2 ^ 64

def requiresDeadlockDetection (request : MGALockRequest) : Bool :=
  request.waitPolicy == .waitWithDeadlockDetection ||
    request.waitPolicy == .waitWithPriority || request.distributedWait

/-- The field that is out of shape, if one is. -/
def validateRequestShape (request : MGALockRequest) : Option String :=
  if !looksLikeUuidV7Text request.requestId then some "request_id"
  else if request.ownerKind == .unknown || !looksLikeUuidText request.ownerUuid then
    some "owner_uuid"
  else if request.resourceKind = .unknown then some "resource_kind"
  else if !looksLikeUuidText request.databaseUuid then some "database_uuid"
  else if request.scopeKind = .unknown then some "scope_kind"
  else if request.mode = .unknown then some "mode"
  else if request.waitPolicy = .unknown then some "wait_policy"
  else if request.priorityClass = .unknown then some "priority_class"
  else if request.isTransactionScopedWrite && (isNone request.transactionUuid ||
        !looksLikeUuidText request.transactionUuid) then
    some "transaction_uuid"
  else if request.scopeKind == .recordLineage &&
      (isNone request.recordUuid || !looksLikeUuidText request.recordUuid) then
    some "record_uuid"
  else if (request.scopeKind == .recordLineage || request.scopeKind == .index ||
        request.scopeKind == .indexKey || request.scopeKind == .indexKeyRange) &&
      (isNone request.tableUuid || !looksLikeUuidText request.tableUuid) then
    some "table_uuid"
  else none

end MGALockRequest

/-! ## Modes -/

def MGALockMode.index : MGALockMode → Nat
  | .intentShared => 0
  | .intentExclusive => 1
  | .sharedRead => 2
  | .sharedStability => 3
  | .updateIntent => 4
  | .exclusiveWrite => 5
  | .schemaStability => 6
  | .schemaModify => 7
  | .rangeShared => 8
  | .rangeUpdate => 9
  | .rangeInsertGuard => 10
  | .rangeExclusive => 11
  | .maintenanceShared => 12
  | .maintenanceExclusive => 13
  | .recoveryExclusive => 14
  | .archiveShared => 15
  | .archiveExclusive => 16
  | .clusterPrepare => 17
  | .clusterDecision => 18
  | .unknown => 19

/-- Row by row, the columns in which the source's matrix holds `true`. -/
def kMatrix : List (List Nat) :=
  [[0, 1, 2, 3, 4, 6, 8, 9, 10, 12, 15, 17], [0, 1, 3, 4, 6, 9, 10, 12, 15, 17],
   [0, 2, 3, 6, 8, 10, 12, 15], [0, 1, 2, 3, 4, 6, 8, 9, 10, 12, 15, 17],
   [0, 1, 3, 6, 10, 12, 15, 17], [], [0, 1, 2, 3, 4, 6, 8, 9, 10, 12, 15, 17], [],
   [0, 2, 3, 6, 8, 10, 12, 15], [0, 1, 3, 6, 10, 12, 15, 17],
   [0, 1, 2, 3, 4, 6, 8, 9, 10, 12, 15, 17], [], [0, 1, 2, 3, 4, 6, 8, 9, 10, 12, 15, 17], [], [],
   [0, 1, 2, 3, 4, 6, 8, 9, 10, 12, 15, 17], [], [0, 1, 3, 4, 6, 9, 10, 12, 15, 17], []]

def mgaLockModesCompatible (requested existing : MGALockMode) : Bool :=
  if requested = .unknown ∨ existing = .unknown then false
  else (kMatrix.getD requested.index []).contains existing.index

/-! ## Diagnostics -/

def makeMGALockLifecycleDiagnostic (severity : Severity) (code key : String)
    (request : Option MGALockRequest) (wait : Option MGALockWait)
    (requiredAction : String) (protectedDetail : Bool := true) : MGALockDiagnostic where
  record :=
    { diagnosticCode := code
      messageKey := key
      sourceComponent := "transaction.mga.lock_wait_lifecycle"
      severity }
  arguments :=
    let ofRequest (text : MGALockRequest → String) : String := (request.map text).getD "none"
    [("diag_code", code), ("severity", severityName severity),
     ("request_id", ofRequest (·.requestId)), ("owner_uuid", ofRequest (·.ownerUuid)),
     ("resource_kind", ofRequest fun r => mgaWaitResourceKindName r.resourceKind),
     ("scope_kind", ofRequest fun r => mgaLockScopeKindName r.scopeKind),
     ("scope_uuid", ofRequest (·.scopeUuid)), ("mode", ofRequest fun r => mgaLockModeName r.mode),
     ("wait_id", (wait.map (·.waitId)).getD "none"), ("cluster_epoch", "none"),
     ("route_generation", ofRequest fun r =>
       if r.routeGenerationPresent then toString r.routeGeneration else "none"),
     ("required_action",
       if requiredAction.isEmpty then "operator_review" else requiredAction),
     ("protected", if protectedDetail then "true" else "false")]

def errorResult (decision : MGALockLifecycleDecision) (code key : String)
    (request : Option MGALockRequest) (wait : Option MGALockWait)
    (requiredAction : String) (severity : Severity := .error) :
    MGALockLifecycleResult :=
  { decision
    diagnostic := some (makeMGALockLifecycleDiagnostic severity code key request
      wait requiredAction) }

/-! ## Grants and waits -/

def makeGrantId (requestId : String) (generation : Nat) : String :=
  "grant:" ++ requestId ++ ":" ++ toString generation

def makeWaitId (requestId : String) (sequence : Nat) : String :=
  "wait:" ++ requestId ++ ":" ++ toString sequence

def makeGrant (request : MGALockRequest) (nowMillis generation : Nat) : MGALockGrant where
  grantId := makeGrantId request.requestId generation
  requestId := request.requestId
  ownerUuid := request.ownerUuid
  ownerKind := request.ownerKind
  resourceKind := request.resourceKind
  scopeKind := request.scopeKind
  scopeUuid := request.scopeUuid
  databaseUuid := request.databaseUuid
  grantedMode := request.mode
  grantedAtMillis := nowMillis
  grantGeneration := generation
  releaseCondition := request.releaseCondition
  durableRecoverySource := request.durableRecoverySource

def makeWait (request : MGALockRequest) (blockers : List String)
    (nowMillis sequence : Nat) : MGALockWait :=
  let summary := mgaWaitResourceKindName request.resourceKind ++ ":" ++
    mgaLockScopeKindName request.scopeKind ++ ":" ++ mgaLockModeName request.mode
  { waitId := makeWaitId request.requestId sequence
    requestId := request.requestId
    ownerUuid := request.ownerUuid
    resourceKind := request.resourceKind
    scopeKind := request.scopeKind
    scopeUuid := request.scopeUuid
    databaseUuid := request.databaseUuid
    mode := request.mode
    blockedByGrantIds := blockers
    waitStartedAtMillis := nowMillis
    deadlineMillis := request.deadlineMillis
    waitPolicy := request.waitPolicy
    deadlockDetectionRequired := request.requiresDeadlockDetection
    distributedWait := request.distributedWait
    publicSummary := summary
    protectedSummary := request.ownerUuid ++ " waits on " ++ summary }

/-- A grant on the resource that keeps the request out. -/
def blocksRequest (request : MGALockRequest) (resourceKey : String) (record : GrantRecord) : Bool :=
  record.resourceKey == resourceKey && !request.sameOwner record.grant &&
    !mgaLockModesCompatible request.mode record.grant.grantedMode

def blockingGrants (grants : Map String GrantRecord) (request : MGALockRequest)
    (resourceKey : String) : List String :=
  (((Map.values grants).filter (blocksRequest request resourceKey)).map
    (·.grant.grantId)).insertionSort (· ≤ ·)

def ownerHasGrantOnResource (grants : Map String GrantRecord)
    (request : MGALockRequest) (resourceKey : String) : Bool :=
  (Map.values grants).any fun record =>
    record.resourceKey == resourceKey && request.sameOwner record.grant

def heldLocksForOwner (grants : Map String GrantRecord) (ownerUuid : String) :
    Nat :=
  (Map.values grants).countP fun record => record.grant.ownerUuid == ownerUuid

def hasEarlierWaitForResource (waitOrder : List String)
    (waits : Map String WaitRecord) (candidate : WaitRecord) : Bool :=
  match waitOrder with
  | [] => false
  | waitId :: rest =>
    if waitId = candidate.wait.waitId then false
    else match waits.lookup waitId with
    | none => hasEarlierWaitForResource rest waits candidate
    | some found =>
      if found.resourceKey = candidate.resourceKey then true
      else hasEarlierWaitForResource rest waits candidate

/-- The source inserts a grant with `emplace`, which keeps an entry that is
already there. -/
def emplaceGrant (grants : Map String GrantRecord) (record : GrantRecord) :
    Map String GrantRecord :=
  match grants.lookup record.grant.grantId with
  | some _ => grants
  | none => grants.insert record.grant.grantId record

/-! ## The deadlock search -/

/-- The owners that the waits of one owner were blocked by. -/
def waitForEdges (grants : Map String GrantRecord) (waits : Map String WaitRecord)
    (ownerUuid : String) : List String :=
  let blockers := ((Map.values waits).filter
    (·.wait.ownerUuid == ownerUuid)).flatMap (·.wait.blockedByGrantIds)
  let owners := blockers.filterMap fun grantId => (grants.lookup grantId).map (·.grant.ownerUuid)
  (owners.filter (· != ownerUuid)).dedup.insertionSort (· ≤ ·)

/-- A map from owners to sets of owners, in the order of its keys. -/
def buildWaitForGraph (grants : Map String GrantRecord)
    (waits : Map String WaitRecord) : List (String × List String) :=
  let owners := ((Map.values waits).map (·.wait.ownerUuid)).dedup.insertionSort (· ≤ ·)
  owners.map fun ownerUuid => (ownerUuid, waitForEdges grants waits ownerUuid)

def graphEdges (graph : List (String × List String)) (node : String) :
    List String := ((graph.find? fun entry => entry.1 == node).map (·.2)).getD []

/-- The nodes of the first cycle found, sorted. The fuel of the search is enough
for a path through all nodes with edges. -/
def findFirstCycle (graph : List (String × List String)) : List String :=
  match graph.findSome? fun entry =>
      (searchCycle (graphEdges graph) (graph.length + 1) entry.1 [] []).1 with
  | some cycle => cycle.insertionSort (· ≤ ·)
  | none => []

/-- The wait of an owner that was queued first. -/
def waitForOwner (waits : Map String WaitRecord) (ownerUuid : String) : Option WaitRecord :=
  (Map.values waits).foldl (fun best record =>
      if record.wait.ownerUuid ≠ ownerUuid then best
      else match best with
      | none => some record
      | some first =>
        if record.queueSequence < first.queueSequence then some record
        else best)
    none

def MGAPriorityClass.index : MGAPriorityClass → Nat
  | .normal => 0
  | .foreground => 1
  | .maintenance => 2
  | .recovery => 3
  | .emergency => 4
  | .clusterDecision => 5
  | .unknown => 6

def victimLess (grants : Map String GrantRecord) (waits : Map String WaitRecord)
    (left right : String) : Bool :=
  let leftRequest : MGALockRequest := ((waitForOwner waits left).map (·.request)).getD {}
  let rightRequest : MGALockRequest := ((waitForOwner waits right).map (·.request)).getD {}
  if leftRequest.recoveryCritical ≠ rightRequest.recoveryCritical then
    !leftRequest.recoveryCritical
  else if leftRequest.priorityClass ≠ rightRequest.priorityClass then
    leftRequest.priorityClass.index < rightRequest.priorityClass.index
  else if leftRequest.durableWorkCompleted ≠ rightRequest.durableWorkCompleted then
    leftRequest.durableWorkCompleted < rightRequest.durableWorkCompleted
  else if leftRequest.transactionAgeMillis ≠ rightRequest.transactionAgeMillis then
    leftRequest.transactionAgeMillis < rightRequest.transactionAgeMillis
  else
    let leftLocks :=
      if leftRequest.locksHeldHint = 0 then heldLocksForOwner grants left
      else leftRequest.locksHeldHint
    let rightLocks :=
      if rightRequest.locksHeldHint = 0 then heldLocksForOwner grants right
      else rightRequest.locksHeldHint
    if leftLocks ≠ rightLocks then leftLocks < rightLocks
    else if leftRequest.retryCost ≠ rightRequest.retryCost then
      leftRequest.retryCost < rightRequest.retryCost
    else left < right

def selectVictim (grants : Map String GrantRecord) (waits : Map String WaitRecord)
    (cycle : List String) : String :=
  cycle.foldl (fun victim owner => if victimLess grants waits owner victim then owner else victim)
    (cycle.headD "")

def cycleContainsDistributedWait (waits : Map String WaitRecord) (cycle : List String) : Bool :=
  cycle.any fun owner => ((waitForOwner waits owner).map (·.wait.distributedWait)).getD false

/-! ## The lifecycle -/

namespace MGALockWaitLifecycle

def removeWait (s : MGALockWaitLifecycle) (waitId : String) :
    MGALockWaitLifecycle :=
  { s with waits := s.waits.erase waitId, waitOrder := s.waitOrder.filter (· != waitId) }

def addGrant (s : MGALockWaitLifecycle) (request : MGALockRequest)
    (resourceKey : String) (nowMillis : Nat) : MGALockWaitLifecycle :=
  { s with
    grants := emplaceGrant s.grants
      { grant := makeGrant request nowMillis (s.generation + 1), request, resourceKey }
    generation := s.generation + 1 }

def enqueue (s : MGALockWaitLifecycle) (request : MGALockRequest)
    (resourceKey : String) (blockers : List String) (nowMillis : Nat) :
    MGALockWaitLifecycle :=
  let sequence := s.waitSequence + 1
  let wait := makeWait request blockers nowMillis sequence
  { s with
    waits := s.waits.insert wait.waitId { wait, request, resourceKey, queueSequence := sequence }
    waitOrder := s.waitOrder ++ [wait.waitId]
    waitSequence := sequence }

/-- One pass over the queue, up to the first wait it can grant. -/
def drainScan (nowMillis : Nat) : List String → MGALockWaitLifecycle → MGALockWaitLifecycle × Bool
  | [], s => (s, false)
  | waitId :: rest, s =>
    match s.waits.lookup waitId with
    | none => drainScan nowMillis rest s
    | some record =>
      if hasEarlierWaitForResource s.waitOrder s.waits record then
        drainScan nowMillis rest s
      else
        let blockers := blockingGrants s.grants record.request record.resourceKey
        if blockers.isEmpty then
          ((s.addGrant record.request record.resourceKey nowMillis).removeWait waitId, true)
        else
          let refreshed := { record with
            wait := { record.wait with blockedByGrantIds := blockers } }
          drainScan nowMillis rest { s with waits := s.waits.insert waitId refreshed }

def drainLoop (nowMillis : Nat) : Nat → MGALockWaitLifecycle → MGALockWaitLifecycle
  | 0, s => s
  | fuel + 1, s =>
    match drainScan nowMillis s.waitOrder s with
    | (s, true) => drainLoop nowMillis fuel s
    | (s, false) => s

/-- Every pass that grants takes a wait off the map, which bounds the passes. -/
def drainGrantableWaits (s : MGALockWaitLifecycle) (nowMillis : Nat) :
    MGALockWaitLifecycle :=
  drainLoop nowMillis (Map.size s.waits + 1) s

def detectAndResolveDeadlock (s : MGALockWaitLifecycle) :
    MGALockLifecycleResult × MGALockWaitLifecycle :=
  match findFirstCycle (buildWaitForGraph s.grants s.waits) with
  | [] => ({ decision := .deadlockDetected }, s)
  | first :: others =>
    let cycle := first :: others
    if cycleContainsDistributedWait s.waits cycle then
      let record := waitForOwner s.waits first
      (errorResult .clusterDecisionRequired "diag.mga.lock.cluster_decision_required"
        "mga.lock.cluster_decision_required" (record.map (·.request))
        (record.map (·.wait)) "request_cluster_distributed_deadlock_victim" .fatal, s)
    else
      let victim := selectVictim s.grants s.waits cycle
      match waitForOwner s.waits victim with
      | none =>
        (errorResult .deadlockDetected "diag.mga.lock.deadlock_detected"
          "mga.lock.deadlock_detected" none none
          "operator_review_deadlock_without_wait_record" .fatal, s)
      | some record =>
        ({ errorResult .deadlockVictim "diag.mga.lock.deadlock_victim"
             "mga.lock.deadlock_victim" (some record.request) (some record.wait)
             "return_deadlock_victim_transaction_state_unchanged" with
           wait := record.wait
           victimOwnerUuid := victim
           victimWaitId := record.wait.waitId },
          s.removeWait record.wait.waitId)

/-- A request that has to wait. The source reads the record back from the map
after the search, which has not taken it away unless this owner is the victim. -/
def queueRequest (s : MGALockWaitLifecycle) (request : MGALockRequest)
    (resourceKey : String) (blockers : List String) (nowMillis : Nat) :
    MGALockLifecycleResult × MGALockWaitLifecycle :=
  let queued := s.enqueue request resourceKey blockers nowMillis
  let waitId := makeWaitId request.requestId queued.waitSequence
  let queuedResult (s : MGALockWaitLifecycle) : MGALockLifecycleResult :=
    let wait := ((s.waits.lookup waitId).map (·.wait)).getD {}
    { errorResult .waitQueued "diag.mga.lock.write_intent_conflict"
        "mga.lock.wait_queued" (some request) (some wait) "wait_for_incompatible_owner_release" with
      wait }
  if request.requiresDeadlockDetection then
    match queued.detectAndResolveDeadlock with
    | (deadlock, s) =>
      if deadlock.decision = .deadlockVictim ∧
          deadlock.victimOwnerUuid = request.ownerUuid then (deadlock, s)
      else if deadlock.decision = .clusterDecisionRequired then (deadlock, s)
      else (queuedResult s, s)
  else (queuedResult queued, queued)

def acquire (s : MGALockWaitLifecycle) (request : MGALockRequest)
    (nowMillis : Nat) : MGALockLifecycleResult × MGALockWaitLifecycle :=
  match request.validateRequestShape with
  | some reason =>
    (errorResult .invalidRequest "diag.mga.lock.invalid_request"
      "mga.lock.invalid_request" (some { request with scopeUuid := reason })
      none "reject_request_shape" .fatal, s)
  | none =>
  if (isClusterScope request.scopeKind || isClusterMode request.mode) &&
      (!request.clusterExists || isNone request.clusterUuid) then
    (errorResult .clusterAbsent "diag.mga.lock.cluster_absent"
      "mga.lock.cluster_absent" (some request) none "reject_without_cluster_state" .fatal, s)
  else if !s.acceptingNewRequests then
    (errorResult .admissionRejected "diag.mga.lock.admission_rejected_policy"
      "mga.lock.admission_rejected_policy" (some request) none "retry_after_shutdown_or_reopen", s)
  else
    let resourceKey := request.resourceKey
    if ownerHasGrantOnResource s.grants request resourceKey then
      ({ decision := .alreadyOwned }, s)
    else
      let blockers := blockingGrants s.grants request resourceKey
      if blockers.isEmpty then
        ({ decision := .granted, grant := makeGrant request nowMillis (s.generation + 1) },
          s.addGrant request resourceKey nowMillis)
      else if request.waitPolicy = .noWait then
        (errorResult .lockRefused "diag.mga.lock.write_intent_conflict"
          "mga.lock.write_intent_conflict" (some request) none
          "return_lock_refusal_without_wait", s)
      else if request.deadlineExpired nowMillis then
        (errorResult .waitTimeout "diag.mga.lock.wait_timeout"
          "mga.lock.wait_timeout" (some request) none
          "return_timeout_transaction_state_unchanged", s)
      else s.queueRequest request resourceKey blockers nowMillis

def releaseGrant (s : MGALockWaitLifecycle) (grantId : String) (nowMillis : Nat) :
    MGALockLifecycleResult × MGALockWaitLifecycle :=
  match s.grants.lookup grantId with
  | none =>
    (errorResult .invalidRequest "diag.mga.lock.invalid_request"
      "mga.lock.invalid_release" (some { requestId := "none" }) none "reject_unknown_grant", s)
  | some _ =>
    ({ decision := .released, cleanupCount := 1 },
      { s with grants := s.grants.erase grantId }.drainGrantableWaits nowMillis)

/-- Without the waits that pass the test, in the map and in the queue. -/
def dropWaits (s : MGALockWaitLifecycle) (drop : WaitRecord → Bool) :
    MGALockWaitLifecycle :=
  { s with
    waits := Map.filter (fun record => !drop record) s.waits
    waitOrder := s.waitOrder.filter fun waitId => !((s.waits.lookup waitId).map drop).getD false }

def releaseOwner (s : MGALockWaitLifecycle) (ownerUuid : String)
    (nowMillis : Nat) : MGALockLifecycleResult × MGALockWaitLifecycle :=
  let ownsGrant (record : GrantRecord) : Bool := record.grant.ownerUuid == ownerUuid
  let ownsWait (record : WaitRecord) : Bool := record.wait.ownerUuid == ownerUuid
  ({ decision := .released
     cleanupCount := (Map.values s.grants).countP ownsGrant +
       (Map.values s.waits).countP ownsWait },
    ({ s with grants := Map.filter (fun record => !ownsGrant record) s.grants
      }.dropWaits ownsWait).drainGrantableWaits nowMillis)

def cancelWait (s : MGALockWaitLifecycle) (waitId : String) :
    MGALockLifecycleResult × MGALockWaitLifecycle :=
  match s.waits.lookup waitId with
  | none =>
    (errorResult .invalidRequest "diag.mga.lock.invalid_request"
      "mga.lock.invalid_cancel" (some { requestId := "none" }) none "reject_unknown_wait", s)
  | some record =>
    ({ errorResult .waitCancelled "diag.mga.lock.admission_rejected_policy"
         "mga.lock.wait_cancelled" (some record.request) (some record.wait)
         "return_cancelled_transaction_state_unchanged" with
       wait := record.wait },
      s.removeWait waitId)

def disconnectOwner (s : MGALockWaitLifecycle) (ownerUuid : String)
    (nowMillis : Nat) : MGALockLifecycleResult × MGALockWaitLifecycle :=
  match s.releaseOwner ownerUuid nowMillis with
  | (result, s) => ({ result with decision := .ownerDisconnected }, s)

def waitDeadlineExpired (nowMillis : Nat) (record : WaitRecord) : Bool :=
  record.wait.deadlineMillis != 0 && decide (nowMillis ≥ record.wait.deadlineMillis)

def timeoutResult (record : WaitRecord) : MGALockLifecycleResult :=
  { errorResult .waitTimeout "diag.mga.lock.wait_timeout" "mga.lock.wait_timeout"
      (some record.request) (some record.wait) "return_timeout_transaction_state_unchanged" with
    wait := record.wait }

def processTimeouts (s : MGALockWaitLifecycle) (nowMillis : Nat) :
    List MGALockLifecycleResult × MGALockWaitLifecycle :=
  let waits := (s.waits.keys.insertionSort (· ≤ ·)).filterMap (s.waits.lookup ·)
  ((waits.filter (waitDeadlineExpired nowMillis)).map timeoutResult,
    (s.dropWaits (waitDeadlineExpired nowMillis)).drainGrantableWaits nowMillis)

def shutdown (s : MGALockWaitLifecycle) : MGALockLifecycleResult × MGALockWaitLifecycle :=
  ({ decision := .shutdownCleanup, cleanupCount := Map.size s.grants + Map.size s.waits },
    { s with grants := ∅, waits := ∅, waitOrder := [], acceptingNewRequests := false })

end MGALockWaitLifecycle

/-! ## Runs -/

inductive LockWaitOperation where
  | acquire (request : MGALockRequest) (nowMillis : Nat)
  | releaseGrant (grantId : String) (nowMillis : Nat)
  | releaseOwner (ownerUuid : String) (nowMillis : Nat)
  | cancelWait (waitId : String)
  | disconnectOwner (ownerUuid : String) (nowMillis : Nat)
  | processTimeouts (nowMillis : Nat)
  | detectAndResolveDeadlock
  | shutdown

namespace MGALockWaitLifecycle

def apply (s : MGALockWaitLifecycle) : LockWaitOperation → MGALockWaitLifecycle
  | .acquire request nowMillis => (s.acquire request nowMillis).2
  | .releaseGrant grantId nowMillis => (s.releaseGrant grantId nowMillis).2
  | .releaseOwner ownerUuid nowMillis => (s.releaseOwner ownerUuid nowMillis).2
  | .cancelWait waitId => (s.cancelWait waitId).2
  | .disconnectOwner ownerUuid nowMillis => (s.disconnectOwner ownerUuid nowMillis).2
  | .processTimeouts nowMillis => (s.processTimeouts nowMillis).2
  | .detectAndResolveDeadlock => s.detectAndResolveDeadlock.2
  | .shutdown => s.shutdown.2

def run (operations : List LockWaitOperation) : MGALockWaitLifecycle := operations.foldl apply {}

end MGALockWaitLifecycle

end ScratchBird.Mga
