import ScratchBird.Mga.Inventory

/-!
# Operations on the inventory

`transaction_inventory.cpp` and `transaction_prepare.cpp`: each operation takes
an inventory by value and returns the changed one together with the entry it
touched, or refuses with a diagnostic. An operation on an existing transaction
finds the first entry with the requested number, walks that entry along the
transition table, and writes it back in place; `putEntry` is that write. The
walk is `transitionOrFail`, one edge at a time, so committing an active
transaction really passes through `preparing`, `prepared` and `committing` and
fails at the first edge the table lacks.
-/

namespace ScratchBird.Mga

open Lib

structure TransactionInventoryResult where
  inventory : LocalTransactionInventory
  entry : TransactionInventoryEntry

def makeTransactionInventoryDiagnostic (code key : String)
    (detail : String := "") : DiagnosticRecord :=
  { diagnosticCode := code
    messageKey := key
    detail
    sourceComponent := "transaction.mga.inventory" }

def inventoryError {α : Type} (code key : String) (detail : String := "") :
    Except DiagnosticRecord α := .error (makeTransactionInventoryDiagnostic code key detail)

def findEntry (inventory : LocalTransactionInventory) (localId : Nat) :
    Option TransactionInventoryEntry :=
  lookup TransactionInventoryEntry.localId localId inventory.entries

def putEntry (inventory : LocalTransactionInventory)
    (e : TransactionInventoryEntry) : LocalTransactionInventory :=
  { inventory with
    entries :=
      modify TransactionInventoryEntry.localId e.localId (fun _ => e) inventory.entries }

def containsTransactionUuid (inventory : LocalTransactionInventory) (uuid : TypedUuid) : Bool :=
  inventory.entries.any fun e => e.uuid == uuid.value

def transitionOrFail (e : TransactionInventoryEntry) (next : TransactionState) :
    Except DiagnosticRecord TransactionInventoryEntry :=
  match checkTransactionStateTransition e.state next false with
  | .error diagnostic => .error diagnostic
  | .ok _ => .ok { e with state := next }

def makeEmptyLocalTransactionInventory : LocalTransactionInventory :=
  { nextLocalTransactionId := 1 }

def beginLocalTransactionWithState (inventory : LocalTransactionInventory)
    (transactionUuid : TypedUuid) (beginUnixEpochMillis : Nat) (activeState : TransactionState) :
    Except DiagnosticRecord TransactionInventoryResult :=
  if inventory.nextLocalTransactionId = kInvalidLocalTransactionId then
    inventoryError "SB-TXN-INVENTORY-NEXT-ID-INVALID" "transaction.inventory.next_id_invalid"
  else match validateLocalTransactionInventoryStructure inventory with
  | some reason =>
    inventoryError "CATALOG.INVALID_INPUT" "transaction.inventory.structure_invalid" reason
  | none =>
  if inventory.nextLocalTransactionId = u64Max then
    inventoryError "CATALOG.INVALID_INPUT" "transaction.inventory.number_exhausted"
  else if containsTransactionUuid inventory transactionUuid then
    inventoryError "SB-TXN-DUPLICATE-TRANSACTION-UUID"
      "transaction.inventory.duplicate_transaction_uuid"
  else do
    let localId := inventory.nextLocalTransactionId
    let identity ← makeTransactionIdentity localId transactionUuid .localNode
    let entry : TransactionInventoryEntry :=
      { identity
        state := .none
        beginUnixEpochMillis
        beginVisibleThroughLocalTransactionId := localId - 1
        beginVisibleThroughCommitSequence := inventory.nextCommitSequence - 1 }
    let entry ← transitionOrFail entry .created
    let entry ← transitionOrFail entry activeState
    return {
      inventory :=
        { inventory with
          nextLocalTransactionId := inventory.nextLocalTransactionId + 1
          entries := inventory.entries ++ [entry] }
      entry }

def beginLocalTransaction (inventory : LocalTransactionInventory)
    (transactionUuid : TypedUuid) (beginUnixEpochMillis : Nat) :
    Except DiagnosticRecord TransactionInventoryResult :=
  beginLocalTransactionWithState inventory transactionUuid beginUnixEpochMillis .active

def beginLocalReadOnlyTransaction (inventory : LocalTransactionInventory)
    (transactionUuid : TypedUuid) (beginUnixEpochMillis : Nat) :
    Except DiagnosticRecord TransactionInventoryResult :=
  beginLocalTransactionWithState inventory transactionUuid beginUnixEpochMillis .readOnlyActive

def prepareLocalTransaction (inventory : LocalTransactionInventory)
    (localId : Nat) : Except DiagnosticRecord TransactionInventoryResult :=
  if !localIdValid localId then
    inventoryError "SB-TXN-LOCAL-ID-NOT-FOUND" "transaction.inventory.prepare_id_invalid"
  else match findEntry inventory localId with
  | none =>
    inventoryError "SB-TXN-LOCAL-ID-NOT-FOUND"
      "transaction.inventory.prepare_id_not_found" (toString localId)
  | some entry =>
  if entry.identity.scope ≠ .localNode then
    inventoryError "CATALOG.INVALID_INPUT" "transaction.inventory.local_scope_required"
  else do
    let entry ← transitionOrFail entry .preparing
    let entry ← transitionOrFail entry .prepared
    return { inventory := putEntry inventory entry, entry := entry }

/-- The first leg of a commit, which only an active transaction takes. -/
def prepareActiveEntry (entry : TransactionInventoryEntry) :
    Except DiagnosticRecord TransactionInventoryEntry :=
  if entry.state = .active then do
    let entry ← transitionOrFail entry .preparing
    transitionOrFail entry .prepared
  else .ok entry

def commitLocalTransaction (inventory : LocalTransactionInventory)
    (localId finalUnixEpochMillis : Nat) : Except DiagnosticRecord TransactionInventoryResult :=
  match validateLocalTransactionInventoryStructure inventory with
  | some reason =>
    inventoryError "CATALOG.INVALID_INPUT" "transaction.inventory.structure_invalid" reason
  | none =>
  if inventory.nextCommitSequence = u64Max then
    inventoryError "CATALOG.INVALID_INPUT" "transaction.inventory.commit_sequence_exhausted"
  else if !localIdValid localId then
    inventoryError "SB-TXN-LOCAL-ID-NOT-FOUND" "transaction.inventory.commit_id_invalid"
  else match findEntry inventory localId with
  | none =>
    inventoryError "SB-TXN-LOCAL-ID-NOT-FOUND"
      "transaction.inventory.commit_id_not_found" (toString localId)
  | some entry =>
  if entry.identity.scope ≠ .localNode then
    inventoryError "CATALOG.INVALID_INPUT" "transaction.inventory.local_scope_required"
  else if entry.rollbackOnly then
    inventoryError "SB-MGA-ROLLBACK-ONLY-COMMIT-REFUSED"
      "transaction.inventory.rollback_only_commit_refused" (toString localId)
  else do
    let entry ← prepareActiveEntry entry
    let entry ← transitionOrFail entry .committing
    let entry ← transitionOrFail entry .committed
    let entry :=
      { entry with
        finalUnixEpochMillis
        commitSequence := inventory.nextCommitSequence
        evidenceRecordWritten := true }
    return {
      inventory :=
        { putEntry inventory entry with
          nextCommitSequence := inventory.nextCommitSequence + 1 }
      entry }

def archiveLocalTransaction (inventory : LocalTransactionInventory)
    (localId : Nat) : Except DiagnosticRecord TransactionInventoryResult :=
  match validateLocalTransactionInventoryStructure inventory with
  | some reason =>
    inventoryError "CATALOG.INVALID_INPUT" "transaction.inventory.structure_invalid" reason
  | none =>
  if !localIdValid localId then
    inventoryError "SB-TXN-LOCAL-ID-NOT-FOUND" "transaction.inventory.archive_id_invalid"
  else match findEntry inventory localId with
  | none =>
    inventoryError "SB-TXN-LOCAL-ID-NOT-FOUND"
      "transaction.inventory.archive_id_not_found" (toString localId)
  | some entry =>
  if !entry.evidenceRecordWritten then
    inventoryError "SB-MGA-ARCHIVE-FINALITY-EVIDENCE-REQUIRED"
      "transaction.inventory.archive_finality_evidence_required" (toString localId)
  else do
    let origin := entry.state
    let entry ← transitionOrFail entry .archived
    let entry := { entry with archivedFromState := origin }
    return { inventory := putEntry inventory entry, entry := entry }

def rollbackLocalTransaction (inventory : LocalTransactionInventory)
    (localId finalUnixEpochMillis : Nat) : Except DiagnosticRecord TransactionInventoryResult :=
  if !localIdValid localId then
    inventoryError "SB-TXN-LOCAL-ID-NOT-FOUND" "transaction.inventory.rollback_id_invalid"
  else match findEntry inventory localId with
  | none =>
    inventoryError "SB-TXN-LOCAL-ID-NOT-FOUND"
      "transaction.inventory.rollback_id_not_found" (toString localId)
  | some entry =>
  if entry.identity.scope ≠ .localNode then
    inventoryError "CATALOG.INVALID_INPUT" "transaction.inventory.local_scope_required"
  else do
    let entry ← transitionOrFail entry .rollingBack
    let entry ← transitionOrFail entry .rolledBack
    let entry := { entry with finalUnixEpochMillis, evidenceRecordWritten := true }
    return { inventory := putEntry inventory entry, entry := entry }

def markLocalTransactionRollbackOnly (inventory : LocalTransactionInventory)
    (localId : Nat) : Except DiagnosticRecord TransactionInventoryResult :=
  if !localIdValid localId then
    inventoryError "SB-TXN-LOCAL-ID-NOT-FOUND" "transaction.inventory.rollback_only_id_invalid"
  else match findEntry inventory localId with
  | none =>
    inventoryError "SB-TXN-LOCAL-ID-NOT-FOUND"
      "transaction.inventory.rollback_only_id_not_found" (toString localId)
  | some entry =>
  if entry.state = .committed ∨ entry.state = .archived then
    inventoryError "SB-MGA-ROLLBACK-ONLY-MARK-REFUSED"
      "transaction.inventory.rollback_only_mark_refused" (toString localId)
  else
    let entry := { entry with rollbackOnly := true }
    .ok { inventory := putEntry inventory entry, entry := entry }

def lookupLocalTransaction (inventory : LocalTransactionInventory)
    (localId : Nat) : Except DiagnosticRecord TransactionInventoryEntry :=
  if !localIdValid localId then
    inventoryError "SB-TXN-LOCAL-ID-NOT-FOUND" "transaction.inventory.lookup_id_invalid"
  else match findEntry inventory localId with
  | some entry => .ok entry
  | none =>
    inventoryError "SB-TXN-LOCAL-ID-NOT-FOUND"
      "transaction.inventory.lookup_id_not_found" (toString localId)

/-! ## Compaction and prepare -/

structure TransactionInventoryCompactionRequest where
  inventory : LocalTransactionInventory
  inventoryAuthoritative : Bool := false
  oldestRequiredLocalTransactionId : Nat := kInvalidLocalTransactionId
  dropArchivedEntries : Bool := true

structure TransactionInventoryCompactionResult where
  inventory : LocalTransactionInventory
  compactedEntryCount : Nat

def compactionCanDrop (request : TransactionInventoryCompactionRequest)
    (e : TransactionInventoryEntry) : Bool :=
  request.dropArchivedEntries && e.state == .archived &&
    e.archivedFromState != .failedTerminal && localIdValid e.localId &&
    decide (e.localId < request.oldestRequiredLocalTransactionId)

def compactLocalTransactionInventory (request : TransactionInventoryCompactionRequest) :
    Except DiagnosticRecord TransactionInventoryCompactionResult :=
  if !request.inventoryAuthoritative then
    inventoryError "SB-TXN-INVENTORY-COMPACTION-NOT-AUTHORITATIVE"
      "transaction.inventory.compaction_not_authoritative"
  else if !localIdValid request.oldestRequiredLocalTransactionId then
    inventoryError "SB-TXN-INVENTORY-COMPACTION-HORIZON-INVALID"
      "transaction.inventory.compaction_horizon_invalid"
  else match validateLocalTransactionInventoryStructure request.inventory with
  | some reason =>
    inventoryError "CATALOG.INVALID_INPUT" "transaction.inventory.structure_invalid" reason
  | none =>
    .ok {
      inventory :=
        { request.inventory with
          entries := request.inventory.entries.filter fun e => !compactionCanDrop request e }
      compactedEntryCount := request.inventory.entries.countP (compactionCanDrop request) }

structure LocalPreparePolicy where
  localPrepareEnabled : Bool := true
  requireEvidenceBeforePreparedSuccess : Bool := true

def prepareLocalTransactionDurable (inventory : LocalTransactionInventory)
    (localId : Nat) (policy : LocalPreparePolicy) :
    Except DiagnosticRecord TransactionInventoryResult :=
  if !policy.localPrepareEnabled then
    rollbackLocalTransaction inventory localId 0
  else do
    let prepared ← prepareLocalTransaction inventory localId
    if policy.requireEvidenceBeforePreparedSuccess then
      match findEntry prepared.inventory localId with
      | some entry =>
        let entry := { entry with evidenceRecordRequired := true, evidenceRecordWritten := true }
        return {
          inventory := putEntry prepared.inventory entry, entry := entry }
      | none => return prepared
    else return prepared

end ScratchBird.Mga
