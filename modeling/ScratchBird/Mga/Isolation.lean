import ScratchBird.Mga.Snapshot

/-!
# Serializable accesses

`isolation.cpp`: the policy a level has for a snapshot, and the serializable part. A
tracker keeps the accesses it has admitted, and a write is checked against those of
other transactions: where the key ranges overlap it is refused. A read is recorded
without such a check.

Bounds are byte strings in the order of their bytes. The status of a result is
the good one exactly when the access is admitted, so `ok` reads the flag alone.
-/

namespace ScratchBird.Mga

inductive IsolationLevel where
  | readCommitted | repeatableRead | serializable | referenceCompatibility | unknown
  deriving DecidableEq

def snapshotPolicyForIsolation (level : IsolationLevel)
    (snapshot : LocalTransactionSnapshot) : VisibilitySnapshot where
  readerTransaction := snapshot.readerTransaction
  visibleThroughLocalTransactionId :=
    if level = .readCommitted then snapshot.visibleThroughLocalTransaction
    else snapshot.transactionStartVisibleThroughLocalTransaction
  visibleThroughLocalTransactionIdIsBoundary := true
  allowReaderOwnUncommitted := true
  recoveryContext := false
  activeExcludedLocalTransactionIds := []
  inDoubtExcludedLocalTransactionIds := []
  visibleThroughCommitSequence :=
    if level = .readCommitted then snapshot.visibleThroughCommitSequence
    else snapshot.transactionStartVisibleThroughCommitSequence
  visibleThroughCommitSequenceIsBoundary := true

inductive SerializableAccessKind where
  | pointRead | rangeRead | predicateRead | insert | update | deleteRow | unknown
  deriving DecidableEq

inductive SerializableConflictKind where
  | none | phantomInsert | readWrite | writeWrite | externalAuthorityRefused
  | inventoryAuthorityRequired | invalidRequest | unknown
  deriving DecidableEq

inductive SerializableRetryClass where
  | none | serializationRetry | waitForTransaction | recoveryRequired
  | invalidRequest
  deriving DecidableEq

structure SerializableKeyRange where
  relationUuid : TypedUuid := {}
  lowerBound : List UInt8 := []
  upperBound : List UInt8 := []
  lowerUnbounded : Bool := false
  upperUnbounded : Bool := false
  lowerInclusive : Bool := true
  upperInclusive : Bool := true
  fullRelation : Bool := false
  predicateDigest : String := ""
  deriving DecidableEq

structure SerializableAccessRecord where
  localId : Nat := kInvalidLocalTransactionId
  transactionState : TransactionState := .none
  kind : SerializableAccessKind := .unknown
  range : SerializableKeyRange := {}
  sequence : Nat := 0
  durableInventoryAuthoritative : Bool := false
  parserOrReferenceAuthority : Bool := false
  deriving DecidableEq

structure SerializableConflictResult where
  conflict : SerializableConflictKind := .unknown
  retryClass : SerializableRetryClass := .invalidRequest
  admitted : Bool := false
  diagnostic : Option DiagnosticRecord := none
  evidence : List String := []

def SerializableConflictResult.ok (result : SerializableConflictResult) : Bool := result.admitted

def SerializableAccessKind.name : SerializableAccessKind → String
  | .pointRead => "point_read"
  | .rangeRead => "range_read"
  | .predicateRead => "predicate_read"
  | .insert => "insert"
  | .update => "update"
  | .deleteRow => "delete_row"
  | .unknown => "unknown"

def SerializableConflictKind.name : SerializableConflictKind → String
  | .none => "none"
  | .phantomInsert => "phantom_insert"
  | .readWrite => "read_write"
  | .writeWrite => "write_write"
  | .externalAuthorityRefused => "external_authority_refused"
  | .inventoryAuthorityRequired => "inventory_authority_required"
  | .invalidRequest => "invalid_request"
  | .unknown => "unknown"

def SerializableRetryClass.name : SerializableRetryClass → String
  | .none => "none"
  | .serializationRetry => "serialization_retry"
  | .waitForTransaction => "wait_for_transaction"
  | .recoveryRequired => "recovery_required"
  | .invalidRequest => "invalid_request"

/-! ## Ranges -/

def sameRelation (left right : SerializableKeyRange) : Bool :=
  left.relationUuid.kind == right.relationUuid.kind &&
    left.relationUuid.value == right.relationUuid.value

/-- The left range ends before the right one starts. -/
def rangeBefore (left right : SerializableKeyRange) : Bool :=
  !left.upperUnbounded && !right.lowerUnbounded && (decide (left.upperBound < right.lowerBound) ||
      (left.upperBound == right.lowerBound && (!left.upperInclusive || !right.lowerInclusive)))

def boundsOverlap (left right : SerializableKeyRange) : Bool :=
  if !sameRelation left right then false
  else if left.fullRelation || right.fullRelation then true
  else if !left.predicateDigest.isEmpty || !right.predicateDigest.isEmpty then
    left.predicateDigest.isEmpty || right.predicateDigest.isEmpty ||
      left.predicateDigest == right.predicateDigest
  else !rangeBefore left right && !rangeBefore right left

def makeSerializablePointRange (relationUuid : TypedUuid) (key : List UInt8) :
    SerializableKeyRange :=
  { relationUuid := relationUuid, lowerBound := key, upperBound := key }

def makeSerializableBoundedRange (relationUuid : TypedUuid)
    (lowerBound upperBound : List UInt8) : SerializableKeyRange :=
  { relationUuid, lowerBound, upperBound }

def makeSerializablePredicateRange (relationUuid : TypedUuid)
    (predicateDigest : String) : SerializableKeyRange :=
  { relationUuid
    lowerUnbounded := true
    upperUnbounded := true
    fullRelation := true
    predicateDigest }

/-! ## Accesses -/

def isWriteKind (kind : SerializableAccessKind) : Bool :=
  kind == .insert || kind == .update || kind == .deleteRow

def isReadKind (kind : SerializableAccessKind) : Bool :=
  kind == .pointRead || kind == .rangeRead || kind == .predicateRead

def isPendingFinality (state : TransactionState) : Bool :=
  state == .active || state == .preparing || state == .prepared || state == .committing

def isRecoveryState (state : TransactionState) : Bool := state == .limbo || state == .recovering

def isValidRelationUuid (relationUuid : TypedUuid) : Bool :=
  relationUuid.kind == .object && relationUuid.valid && isEngineIdentityUuid relationUuid.value

def serializableAdmitted (evidence : String) : SerializableConflictResult :=
  { conflict := .none
    retryClass := .none
    admitted := true
    evidence :=
      [evidence, "serializable.inventory_authority=durable_transaction_inventory",
       "serializable.parser_or_reference_authority=false"] }

def serializableRefused (conflict : SerializableConflictKind)
    (retryClass : SerializableRetryClass) (diagnosticCode messageKey : String)
    (detail : String := "") : SerializableConflictResult :=
  { conflict, retryClass
    admitted := false
    diagnostic := some (makeTransactionSnapshotDiagnostic diagnosticCode messageKey detail)
    evidence :=
      ["serializable.conflict=" ++ conflict.name, "serializable.retry_class=" ++ retryClass.name,
       "serializable.inventory_authority=durable_transaction_inventory"] }

def validateSerializableAccess (access : SerializableAccessRecord) :
    SerializableConflictResult :=
  if access.parserOrReferenceAuthority then
    serializableRefused .externalAuthorityRefused .invalidRequest
      "SB-SNTXN-SERIALIZABLE-EXTERNAL-AUTHORITY-REFUSED"
      "transaction.serializable.external_authority_refused"
  else if !access.durableInventoryAuthoritative then
    serializableRefused .inventoryAuthorityRequired .invalidRequest
      "SB-SNTXN-SERIALIZABLE-INVENTORY-AUTHORITY-REQUIRED"
      "transaction.serializable.inventory_authority_required"
  else if !localIdValid access.localId || access.sequence == 0 || access.kind == .unknown ||
      (!isReadKind access.kind && !isWriteKind access.kind) ||
      !isValidRelationUuid access.range.relationUuid then
    serializableRefused .invalidRequest .invalidRequest "SB-SNTXN-SERIALIZABLE-INVALID-ACCESS"
      "transaction.serializable.invalid_access"
  else if !access.range.fullRelation && access.range.predicateDigest.isEmpty &&
      (access.range.lowerBound.isEmpty || access.range.upperBound.isEmpty) &&
      (!access.range.lowerUnbounded || !access.range.upperUnbounded) then
    serializableRefused .invalidRequest .invalidRequest "SB-SNTXN-SERIALIZABLE-RANGE-INVALID"
      "transaction.serializable.range_invalid"
  else serializableAdmitted "serializable.access_valid=true"

/-- The loop over the recorded accesses: the first that stands against the write
ends it. -/
def conflictWith (write : SerializableAccessRecord) :
    List SerializableAccessRecord → Option SerializableConflictResult
  | [] => none
  | existing :: rest =>
    if existing.localId = write.localId then conflictWith write rest
    else if !(validateSerializableAccess existing).ok then
      some (validateSerializableAccess existing)
    else if !boundsOverlap existing.range write.range then conflictWith write rest
    else if isRecoveryState existing.transactionState || isRecoveryState write.transactionState then
      some (serializableRefused .readWrite .recoveryRequired
        "SB-SNTXN-SERIALIZABLE-RECOVERY-REQUIRED" "transaction.serializable.recovery_required")
    else if isWriteKind existing.kind then
      some (serializableRefused .writeWrite
        (if isPendingFinality existing.transactionState then .waitForTransaction
          else .serializationRetry)
        "SB-SNTXN-SERIALIZABLE-WRITE-WRITE-CONFLICT"
        "transaction.serializable.write_write_conflict" existing.kind.name)
    else if existing.kind == .predicateRead || existing.kind == .rangeRead then
      if write.kind == .insert then
        some (serializableRefused .phantomInsert .serializationRetry
          "SB-SNTXN-SERIALIZABLE-PHANTOM-REFUSED"
          "transaction.serializable.phantom_refused" write.kind.name)
      else
        some (serializableRefused .readWrite .serializationRetry
          "SB-SNTXN-SERIALIZABLE-READ-WRITE-CONFLICT"
          "transaction.serializable.read_write_conflict" write.kind.name)
    else if existing.kind == .pointRead then
      some (serializableRefused .readWrite .serializationRetry
        "SB-SNTXN-SERIALIZABLE-READ-WRITE-CONFLICT"
        "transaction.serializable.read_write_conflict" write.kind.name)
    else conflictWith write rest

def evaluateSerializableWriteConflict (existingAccesses : List SerializableAccessRecord)
    (write : SerializableAccessRecord) : SerializableConflictResult :=
  if !(validateSerializableAccess write).ok then validateSerializableAccess write
  else if !isWriteKind write.kind then
    serializableRefused .invalidRequest .invalidRequest "SB-SNTXN-SERIALIZABLE-WRITE-REQUIRED"
      "transaction.serializable.write_required" write.kind.name
  else
    (conflictWith write existingAccesses).getD
      (serializableAdmitted "serializable.write_admitted=true")

/-! ## The tracker -/

structure SerializableConflictTracker where
  accesses : List SerializableAccessRecord := []

namespace SerializableConflictTracker

def addEvidence (result : SerializableConflictResult) (values : List String) :
    SerializableConflictResult :=
  { result with evidence := result.evidence ++ values }

def checkWrite (tracker : SerializableConflictTracker)
    (write : SerializableAccessRecord) : SerializableConflictResult :=
  evaluateSerializableWriteConflict tracker.accesses write

def recordWrite (tracker : SerializableConflictTracker) (write : SerializableAccessRecord) :
    SerializableConflictResult × SerializableConflictTracker :=
  let result := tracker.checkWrite write
  if !result.ok then (result, tracker)
  else
    (addEvidence result ["serializable.access_kind=" ++ write.kind.name,
       "serializable.write_recorded=true"], { accesses := tracker.accesses ++ [write] })

def recordAccess (tracker : SerializableConflictTracker) (access : SerializableAccessRecord) :
    SerializableConflictResult × SerializableConflictTracker :=
  if !(validateSerializableAccess access).ok then
    (validateSerializableAccess access, tracker)
  else if isWriteKind access.kind then tracker.recordWrite access
  else
    (addEvidence (serializableAdmitted "serializable.read_recorded=true")
      ["serializable.access_kind=" ++ access.kind.name],
      { accesses := tracker.accesses ++ [access] })

def accessCount (tracker : SerializableConflictTracker) : Nat := tracker.accesses.length

/-- The tracker after a sequence of calls. -/
def run (calls : List SerializableAccessRecord) : SerializableConflictTracker :=
  calls.foldl (fun tracker access => (tracker.recordAccess access).2) {}

end SerializableConflictTracker

end ScratchBird.Mga
