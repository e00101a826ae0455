import ScratchBird.Lib.Extremum
import ScratchBird.Mga.Operations
import ScratchBird.Mga.RowVersion

/-!
# Horizons, snapshots and published snapshot vectors

`transaction_horizon_projection.hpp`, `transaction_horizon.cpp` and
`transaction_snapshot.cpp`. A horizon is a transaction number below which
nothing of interest remains. A snapshot is built from an inventory for one
reader: a commit boundary, the number of the youngest transaction that boundary
admits, and the two lists of transactions it excludes. A published snapshot
vector is such a snapshot frozen at one inventory and kept in a registry until
it is revoked or released; the registry outlives the inventory it was taken
from, which is why a descriptor carries its own retention horizon.

Exclusion lists are sorted as the source sorts them. The published identity is
drawn from the platform's generator; `generate` stands for it, one answer per
attempt.
-/

namespace ScratchBird.Mga

open Lib

/-! ## Horizons -/

structure LocalTransactionHorizons where
  oldestInterestingTransaction : Nat
  oldestActiveTransaction : Nat
  oldestSnapshotTransaction : Nat
  nextTransactionId : Nat

def makeTransactionHorizonDiagnostic (code key : String)
    (detail : String := "") : DiagnosticRecord :=
  { diagnosticCode := code
    messageKey := key
    detail
    sourceComponent := "transaction.mga.horizon" }

def isInteresting (s : TransactionState) : Bool :=
  s == .created || s == .active || s == .readOnlyActive || s == .preparing ||
    s == .prepared || s == .committing || s == .rollingBack || s == .limbo ||
    s == .recovering || s == .failedTerminal

def isActiveForOat (s : TransactionState) : Bool := s == .active || s == .readOnlyActive

def oldestInteresting (inventory : LocalTransactionInventory) : Nat :=
  leastOf inventory.nextLocalTransactionId
    (fun e => isInteresting (inventoryVisibilityState e)) (·.localId) inventory.entries

def oldestActive (inventory : LocalTransactionInventory) : Nat :=
  leastOf inventory.nextLocalTransactionId (fun e => isActiveForOat e.state)
    (·.localId) inventory.entries

/-- The loop over the retained snapshots: the first bad horizon ends it. -/
def lowerBySnapshotHorizons (nextId : Nat) : Nat → List Nat → Except String Nat
  | ost, [] => .ok ost
  | ost, horizon :: rest =>
    if !localIdValid horizon then
      .error "transaction.horizon.invalid_snapshot_horizon"
    else if horizon > nextId then
      .error "transaction.horizon.future_snapshot_horizon"
    else lowerBySnapshotHorizons nextId (min ost horizon) rest

def stableCommitBoundary (inventory : LocalTransactionInventory) : Nat :=
  leastOf inventory.nextCommitSequence (fun e => e.stableSnapshot && isActiveForOat e.state)
    (·.beginVisibleThroughCommitSequence) inventory.entries

/-- Stable readers retain versions hidden by commits after their begin,
including writers with lower local numbers. -/
def lowerByStableReaders (inventory : LocalTransactionInventory) (ost : Nat) :
    Nat :=
  if stableCommitBoundary inventory ≠ inventory.nextCommitSequence then
    leastOf (min ost (oldestInteresting inventory)) (fun e => hasCommittedInventoryOutcome e &&
        decide (e.commitSequence > stableCommitBoundary inventory))
      (·.localId) inventory.entries
  else ost

def projectValidatedLocalHorizons (inventory : LocalTransactionInventory)
    (snapshotHorizons : List Nat) : Except String LocalTransactionHorizons := do
  let ost ← lowerBySnapshotHorizons inventory.nextLocalTransactionId
    (if snapshotHorizons.isEmpty then oldestActive inventory
      else inventory.nextLocalTransactionId) snapshotHorizons
  return {
    oldestInterestingTransaction := oldestInteresting inventory
    oldestActiveTransaction := oldestActive inventory
    oldestSnapshotTransaction := lowerByStableReaders inventory ost
    nextTransactionId := inventory.nextLocalTransactionId }

/-- `ComputeLocalTransactionHorizons`; without snapshot horizons the list is
empty. -/
def computeLocalTransactionHorizons (inventory : LocalTransactionInventory)
    (snapshotHorizons : List Nat) : Except DiagnosticRecord LocalTransactionHorizons :=
  match validateLocalTransactionInventoryStructure inventory with
  | some reason =>
    .error (makeTransactionHorizonDiagnostic "SB-TXN-HORIZON-INVALID"
      "transaction.horizon.inventory_invalid" reason)
  | none =>
    match projectValidatedLocalHorizons inventory snapshotHorizons with
    | .error key => .error (makeTransactionHorizonDiagnostic "SB-TXN-HORIZON-INVALID" key)
    | .ok horizons => .ok horizons

/-! ## Snapshots of one reader -/

structure LocalTransactionSnapshot where
  readerTransaction : Nat
  visibleThroughLocalTransaction : Nat
  transactionStartVisibleThroughLocalTransaction : Nat
  oldestActiveTransaction : Nat
  oldestSnapshotTransaction : Nat
  allowReaderOwnUncommitted : Bool := true
  visibleThroughCommitSequence : Nat
  transactionStartVisibleThroughCommitSequence : Nat

structure TransactionSnapshotResult where
  snapshot : LocalTransactionSnapshot
  visibilitySnapshot : VisibilitySnapshot

def makeTransactionSnapshotDiagnostic (code key : String)
    (detail : String := "") : DiagnosticRecord :=
  { diagnosticCode := code
    messageKey := key
    detail
    sourceComponent := "transaction.mga.snapshot" }

def snapshotVectorError {α : Type} (code key : String) (detail : String := "") :
    Except DiagnosticRecord α := .error (makeTransactionSnapshotDiagnostic code key detail)

def isSnapshotOwnerEligible (s : TransactionState) : Bool := s == .active || s == .readOnlyActive

def isActiveSnapshotExclusion (s : TransactionState) : Bool := s == .active || s == .readOnlyActive

def isInDoubtSnapshotExclusion (s : TransactionState) : Bool :=
  s == .created || s == .preparing || s == .prepared || s == .committing ||
    s == .rollingBack || s == .limbo || s == .recovering

def snapshotSupportsState (s : TransactionState) : Bool :=
  s == .active || s == .readOnlyActive || s == .preparing || s == .prepared

def commitBoundaryFor (inventory : LocalTransactionInventory)
    (reader : TransactionInventoryEntry) : Nat :=
  if reader.stableSnapshot then reader.beginVisibleThroughCommitSequence
  else inventory.nextCommitSequence - 1

def visibleHighWatermark (inventory : LocalTransactionInventory) (commitBoundary : Nat) : Nat :=
  greatestOf kInvalidLocalTransactionId (fun e => hasCommittedInventoryOutcome e &&
      decide (e.commitSequence ≤ commitBoundary)) (·.localId) inventory.entries

def excludedAsActive (commitBoundary : Nat) (e : TransactionInventoryEntry) :
    Bool :=
  isActiveSnapshotExclusion e.state ||
    (hasCommittedInventoryOutcome e && decide (e.commitSequence > commitBoundary))

def activeExclusions (inventory : LocalTransactionInventory) (commitBoundary : Nat) : List Nat :=
  ((inventory.entries.filter (excludedAsActive commitBoundary)).map
    (·.localId)).insertionSort (· ≤ ·)

def inDoubtExclusions (inventory : LocalTransactionInventory) (commitBoundary : Nat) : List Nat :=
  ((inventory.entries.filter fun e => !excludedAsActive commitBoundary e &&
    isInDoubtSnapshotExclusion e.state).map (·.localId)).insertionSort (· ≤ ·)

def visibilitySnapshotFor (inventory : LocalTransactionInventory)
    (reader : TransactionInventoryEntry) (readerTransaction : Nat) :
    VisibilitySnapshot :=
  let commitBoundary := commitBoundaryFor inventory reader
  { readerTransaction
    visibleThroughLocalTransactionId := visibleHighWatermark inventory commitBoundary
    visibleThroughLocalTransactionIdIsBoundary := true
    allowReaderOwnUncommitted := true
    recoveryContext := false
    activeExcludedLocalTransactionIds := activeExclusions inventory commitBoundary
    inDoubtExcludedLocalTransactionIds := inDoubtExclusions inventory commitBoundary
    visibleThroughCommitSequence := commitBoundary
    visibleThroughCommitSequenceIsBoundary := true }

def createLocalTransactionSnapshot (inventory : LocalTransactionInventory)
    (readerTransaction : Nat) : Except DiagnosticRecord TransactionSnapshotResult :=
  match validateLocalTransactionInventoryStructure inventory with
  | some reason =>
    snapshotVectorError "SB-MGA-SNAPSHOT-VECTOR-INVENTORY-INVALID"
      "transaction.snapshot_vector.inventory_invalid" reason
  | none =>
  match lookupLocalTransaction inventory readerTransaction with
  | .error diagnostic => .error diagnostic
  | .ok reader =>
  if !snapshotSupportsState reader.state then
    snapshotVectorError "SB-TXN-SNAPSHOT-UNSUPPORTED-STATE" "transaction.snapshot.unsupported_state"
      (transactionStateName reader.state)
  else match computeLocalTransactionHorizons inventory [] with
  | .error diagnostic => .error diagnostic
  | .ok horizons =>
    .ok {
      snapshot :=
        { readerTransaction
          visibleThroughLocalTransaction :=
            visibleHighWatermark inventory (commitBoundaryFor inventory reader)
          transactionStartVisibleThroughLocalTransaction :=
            reader.beginVisibleThroughLocalTransactionId
          oldestActiveTransaction := horizons.oldestActiveTransaction
          oldestSnapshotTransaction := horizons.oldestSnapshotTransaction
          visibleThroughCommitSequence := commitBoundaryFor inventory reader
          transactionStartVisibleThroughCommitSequence := reader.beginVisibleThroughCommitSequence }
      visibilitySnapshot := visibilitySnapshotFor inventory reader readerTransaction }

/-! ## Published snapshot vectors -/

inductive SnapshotVectorKind where
  | unknown | statementStable
  deriving DecidableEq

structure SnapshotVectorDescriptor where
  snapshotUuid : TypedUuid := {}
  owningTransactionUuid : TypedUuid := {}
  owningTransaction : Nat := kInvalidLocalTransactionId
  visibleCommittedHighWatermark : Nat := kInvalidLocalTransactionId
  oldestActiveTransaction : Nat := kInvalidLocalTransactionId
  oldestInterestingTransaction : Nat := kInvalidLocalTransactionId
  oldestSnapshotTransaction : Nat := kInvalidLocalTransactionId
  retentionHorizonTransaction : Nat := kInvalidLocalTransactionId
  activeExcludedLocalTransactionIds : List Nat := []
  inDoubtExcludedLocalTransactionIds : List Nat := []
  snapshotKind : SnapshotVectorKind := .unknown
  publicationInventoryNextLocalTransactionId : Nat := 0
  inventoryAuthoritative : Bool := false
  complete : Bool := false
  deriving DecidableEq

structure PublishedSnapshotVector where
  descriptor : SnapshotVectorDescriptor
  revoked : Bool := false
  publicationReleased : Bool := false
  pins : Nat := 0
  deriving DecidableEq

/-- The registry, in the order of the snapshot UUIDs it is keyed by. -/
abbrev SnapshotRegistry := List PublishedSnapshotVector

def PublishedSnapshotVector.key (p : PublishedSnapshotVector) : Uuid :=
  p.descriptor.snapshotUuid.value

def snapshotRetentionBoundary (d : SnapshotVectorDescriptor) : Nat :=
  d.inDoubtExcludedLocalTransactionIds.foldl min (d.activeExcludedLocalTransactionIds.foldl min
      (min d.oldestInterestingTransaction d.owningTransaction))

def isCanonicalExclusionVector (values : List Nat) (publicationCeiling : Nat) :
    Bool :=
  decide (values.Pairwise (· ≤ ·)) && decide (values.IsChain (· ≠ ·)) && values.all fun value =>
      value != kInvalidLocalTransactionId && decide (value ≤ publicationCeiling)

def snapshotVectorStructurallyComplete (d : SnapshotVectorDescriptor) : Bool :=
  let next := d.publicationInventoryNextLocalTransactionId
  d.snapshotUuid.valid && d.snapshotUuid.kind == .object && uuidVersion d.snapshotUuid.value == 7 &&
    d.owningTransactionUuid.valid && d.owningTransactionUuid.kind == .transaction &&
    uuidVersion d.owningTransactionUuid.value == 7 && localIdValid d.owningTransaction &&
    d.snapshotKind == .statementStable && next != 0 &&
    decide (d.visibleCommittedHighWatermark < next) &&
    decide (d.owningTransaction < next) &&
    localIdValid d.oldestActiveTransaction &&
    localIdValid d.oldestInterestingTransaction &&
    localIdValid d.oldestSnapshotTransaction &&
    localIdValid d.retentionHorizonTransaction &&
    d.inventoryAuthoritative && d.complete &&
    decide (d.oldestActiveTransaction < next) &&
    decide (d.oldestInterestingTransaction < next) &&
    decide (d.oldestSnapshotTransaction < next) &&
    decide (d.retentionHorizonTransaction < next) &&
    d.oldestSnapshotTransaction == d.retentionHorizonTransaction &&
    d.oldestSnapshotTransaction == snapshotRetentionBoundary d &&
    isCanonicalExclusionVector d.activeExcludedLocalTransactionIds (next - 1) &&
    isCanonicalExclusionVector d.inDoubtExcludedLocalTransactionIds (next - 1) &&
    d.activeExcludedLocalTransactionIds.contains d.owningTransaction &&
    d.activeExcludedLocalTransactionIds.all fun id =>
      !d.inDoubtExcludedLocalTransactionIds.contains id

/-- The attempts to find an unused identity, and the registration of the first
one found. -/
def publishWithGeneratedIdentity (generate : Nat → Except DiagnosticRecord TypedUuid)
    (registry : SnapshotRegistry) (descriptor : SnapshotVectorDescriptor) :
    (remaining attempt : Nat) →
      Except DiagnosticRecord (SnapshotVectorDescriptor × SnapshotRegistry)
  | 0, _ =>
    snapshotVectorError "SB-MGA-SNAPSHOT-VECTOR-UUID-COLLISION"
      "transaction.snapshot_vector.uuid_collision"
  | remaining + 1, attempt =>
    match generate attempt with
    | .error diagnostic => .error diagnostic
    | .ok uuid =>
      if (lookup PublishedSnapshotVector.key uuid.value registry).isSome then
        publishWithGeneratedIdentity generate registry descriptor remaining (attempt + 1)
      else
        let descriptor :=
          { descriptor with snapshotUuid := uuid, inventoryAuthoritative := true, complete := true }
        if !snapshotVectorStructurallyComplete descriptor then
          snapshotVectorError "SB-MGA-SNAPSHOT-VECTOR-INCOMPLETE"
            "transaction.snapshot_vector.incomplete"
        else
          .ok (descriptor, registry.orderedInsert (fun a b => a.key.bytes ≤ b.key.bytes)
            { descriptor := descriptor })

def snapshotGenerationAttempts : Nat := 32

/-- The descriptor before it has an identity. -/
def statementStableDescriptor (inventory : LocalTransactionInventory)
    (owner : TransactionInventoryEntry) (owningTransaction : Nat)
    (established : TransactionSnapshotResult)
    (horizons : LocalTransactionHorizons) : SnapshotVectorDescriptor :=
  let captured : SnapshotVectorDescriptor :=
    { owningTransactionUuid := owner.identity.transactionUuid, owningTransaction
      visibleCommittedHighWatermark := established.snapshot.visibleThroughLocalTransaction
      oldestActiveTransaction := established.snapshot.oldestActiveTransaction
      oldestInterestingTransaction := horizons.oldestInterestingTransaction
      snapshotKind := .statementStable
      publicationInventoryNextLocalTransactionId := inventory.nextLocalTransactionId
      activeExcludedLocalTransactionIds :=
        established.visibilitySnapshot.activeExcludedLocalTransactionIds
      inDoubtExcludedLocalTransactionIds :=
        established.visibilitySnapshot.inDoubtExcludedLocalTransactionIds }
  { captured with
    oldestSnapshotTransaction := snapshotRetentionBoundary captured
    retentionHorizonTransaction := snapshotRetentionBoundary captured }

def publishStatementStableSnapshotVector (generate : Nat → Except DiagnosticRecord TypedUuid)
    (registry : SnapshotRegistry) (inventory : LocalTransactionInventory)
    (owningTransaction publicationUnixEpochMillis : Nat) :
    Except DiagnosticRecord (SnapshotVectorDescriptor × SnapshotRegistry) :=
  match validateLocalTransactionInventoryStructure inventory with
  | some reason =>
    snapshotVectorError "SB-MGA-SNAPSHOT-VECTOR-INVENTORY-INVALID"
      "transaction.snapshot_vector.inventory_invalid" reason
  | none =>
  if publicationUnixEpochMillis = 0 ∨ inventory.nextLocalTransactionId = 0 then
    snapshotVectorError "SB-MGA-SNAPSHOT-VECTOR-INVENTORY-INVALID"
      "transaction.snapshot_vector.inventory_invalid"
  else match lookupLocalTransaction inventory owningTransaction with
  | .error _ =>
    snapshotVectorError "SB-MGA-SNAPSHOT-VECTOR-OWNER-INELIGIBLE"
      "transaction.snapshot_vector.owner_ineligible" (toString owningTransaction)
  | .ok owner =>
  if !isSnapshotOwnerEligible owner.state then
    snapshotVectorError "SB-MGA-SNAPSHOT-VECTOR-OWNER-INELIGIBLE"
      "transaction.snapshot_vector.owner_ineligible" (transactionStateName owner.state)
  else if owner.identity.transactionUuid.kind ≠ .transaction ∨
      ¬owner.identity.transactionUuid.valid ∨ uuidVersion owner.uuid ≠ 7 ∨
      inventory.nextLocalTransactionId ≤ owningTransaction then
    snapshotVectorError "SB-MGA-SNAPSHOT-VECTOR-OWNER-MISMATCH"
      "transaction.snapshot_vector.owner_mismatch"
  else do
    let established ← createLocalTransactionSnapshot inventory owningTransaction
    let horizons ← computeLocalTransactionHorizons inventory []
    publishWithGeneratedIdentity generate registry
      (statementStableDescriptor inventory owner owningTransaction established
        horizons) snapshotGenerationAttempts 0

/-! ## The registry over time -/

def retainPublishedSnapshotVector (registry : SnapshotRegistry)
    (snapshotUuid : TypedUuid) : SnapshotRegistry :=
  if !snapshotUuid.valid || snapshotUuid.kind != .object then registry
  else
    modify PublishedSnapshotVector.key snapshotUuid.value (fun p =>
        if p.revoked || p.publicationReleased || p.pins == u64Max ||
            !snapshotVectorStructurallyComplete p.descriptor then p
        else { p with pins := p.pins + 1 }) registry

/-- The destructor of a pin's lease. -/
def releaseSnapshotPin (registry : SnapshotRegistry) (snapshotUuid : Uuid) :
    SnapshotRegistry :=
  (modify PublishedSnapshotVector.key snapshotUuid
    (fun p => { p with pins := p.pins - 1 }) registry).filter fun p =>
      !(p.key == snapshotUuid && p.publicationReleased && p.pins == 0)

def releasePublishedSnapshotVector (registry : SnapshotRegistry)
    (snapshotUuid : TypedUuid) : SnapshotRegistry :=
  if !snapshotUuid.valid || snapshotUuid.kind != .object then registry
  else
    (modify PublishedSnapshotVector.key snapshotUuid.value
      (fun p => { p with publicationReleased := true }) registry).filter fun p =>
        !(p.key == snapshotUuid.value && p.pins == 0)

def revokePublishedSnapshotVectorsForTransaction (registry : SnapshotRegistry)
    (owningTransactionUuid : TypedUuid) (owningTransaction : Nat) :
    SnapshotRegistry :=
  if !owningTransactionUuid.valid || owningTransactionUuid.kind != .transaction ||
      !localIdValid owningTransaction then registry
  else
    registry.map fun p =>
      if p.descriptor.owningTransaction = owningTransaction ∧
          p.descriptor.owningTransactionUuid.value = owningTransactionUuid.value
      then { p with revoked := true }
      else p

def revokePublishedSnapshotVector (registry : SnapshotRegistry)
    (snapshotUuid : TypedUuid) : SnapshotRegistry :=
  if !snapshotUuid.valid || snapshotUuid.kind != .object then registry
  else
    modify PublishedSnapshotVector.key snapshotUuid.value
      (fun p => { p with revoked := true }) registry

/-- Whether an inventory holds the transaction a descriptor belongs to. Local
numbers repeat across nodes, so the UUID has to match too. -/
def ownedBy (inventory : LocalTransactionInventory) (d : SnapshotVectorDescriptor) : Bool :=
  inventory.entries.any fun e =>
    e.localId == d.owningTransaction && e.identity.transactionUuid.kind == .transaction &&
      e.uuid == d.owningTransactionUuid.value

/-- The loop over the registry: the horizons of the live descriptors of this
inventory, unless one of them is younger than the inventory. -/
def collectRetentionHorizons (inventory : LocalTransactionInventory) :
    SnapshotRegistry → Except DiagnosticRecord (List Nat)
  | [] => .ok []
  | p :: rest =>
    if p.revoked || !ownedBy inventory p.descriptor then
      collectRetentionHorizons inventory rest
    else if inventory.nextLocalTransactionId <
        p.descriptor.publicationInventoryNextLocalTransactionId then
      snapshotVectorError "SB-MGA-SNAPSHOT-VECTOR-STALE"
        "transaction.snapshot_vector.stale_inventory_generation"
    else do
      let horizons ← collectRetentionHorizons inventory rest
      return p.descriptor.retentionHorizonTransaction :: horizons

def publishedSnapshotRetentionHorizons (registry : SnapshotRegistry)
    (inventory : LocalTransactionInventory) : Except DiagnosticRecord (List Nat) :=
  match validateLocalTransactionInventoryStructure inventory with
  | some reason =>
    snapshotVectorError "SB-MGA-SNAPSHOT-VECTOR-INVENTORY-INVALID"
      "transaction.snapshot_vector.inventory_invalid" reason
  | none => collectRetentionHorizons inventory registry

end ScratchBird.Mga
