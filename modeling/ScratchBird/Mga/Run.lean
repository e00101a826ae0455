import ScratchBird.Mga.Recovery
import ScratchBird.Mga.Snapshot

/-!
# Runs of inventory operations

One type for the operations, so that a run is a list of them. Beside the
operations of `transaction_inventory.cpp`, `transaction_prepare.cpp` and
`transaction_recovery.cpp` there is the begin the engine interface performs:
`transaction_api.cpp` begins the transaction and, in the same publication, marks
the new entry as a stable-snapshot reader when the admitted isolation level asks
for it. The mark is never set at any other time.
-/

namespace ScratchBird.Mga

open Lib

/-- The begin of the engine interface. `stable` is whether the isolation level
is `snapshot`, `repeatable_read` or `serializable`. -/
def beginWithIsolation (inventory : LocalTransactionInventory)
    (readOnly stable : Bool) (transactionUuid : TypedUuid) (beginUnixEpochMillis : Nat) :
    Except DiagnosticRecord TransactionInventoryResult :=
  let begun :=
    if readOnly then
      beginLocalReadOnlyTransaction inventory transactionUuid beginUnixEpochMillis
    else beginLocalTransaction inventory transactionUuid beginUnixEpochMillis
  match begun with
  | .error diagnostic => .error diagnostic
  | .ok begun =>
    .ok {
      inventory :=
        { begun.inventory with
          entries := begun.inventory.entries.map fun e =>
            if e.localId = begun.entry.localId then
              { e with stableSnapshot := stable }
            else e }
      entry := { begun.entry with stableSnapshot := stable } }

inductive InventoryOperation where
  | begin (transactionUuid : TypedUuid) (beginUnixEpochMillis : Nat)
  | beginReadOnly (transactionUuid : TypedUuid) (beginUnixEpochMillis : Nat)
  | beginWithIsolation (readOnly stable : Bool) (transactionUuid : TypedUuid)
      (beginUnixEpochMillis : Nat)
  | prepare (localId : Nat) (policy : LocalPreparePolicy)
  | commit (localId finalUnixEpochMillis : Nat)
  | rollback (localId finalUnixEpochMillis : Nat)
  | markRollbackOnly (localId : Nat)
  | archive (localId : Nat)
  | compact (inventoryAuthoritative : Bool)
      (oldestRequiredLocalTransactionId : Nat) (dropArchivedEntries : Bool)
  | recover (recoveryUnixEpochMillis : Nat)
  | resolveLimbo (localId : Nat) (decision : LimboOperatorDecision)
      (finalUnixEpochMillis : Nat) (policy : LimboOperatorResolutionPolicy)

namespace InventoryOperation

def apply (op : InventoryOperation) (inventory : LocalTransactionInventory) :
    Except DiagnosticRecord LocalTransactionInventory :=
  match op with
  | .begin uuid millis => (·.inventory) <$> beginLocalTransaction inventory uuid millis
  | .beginReadOnly uuid millis =>
    (·.inventory) <$> beginLocalReadOnlyTransaction inventory uuid millis
  | .beginWithIsolation readOnly stable uuid millis =>
    (·.inventory) <$> Mga.beginWithIsolation inventory readOnly stable uuid millis
  | .prepare localId policy =>
    (·.inventory) <$> prepareLocalTransactionDurable inventory localId policy
  | .commit localId millis => (·.inventory) <$> commitLocalTransaction inventory localId millis
  | .rollback localId millis => (·.inventory) <$> rollbackLocalTransaction inventory localId millis
  | .markRollbackOnly localId =>
    (·.inventory) <$> markLocalTransactionRollbackOnly inventory localId
  | .archive localId => (·.inventory) <$> archiveLocalTransaction inventory localId
  | .compact authoritative oldestRequired dropArchived =>
    (·.inventory) <$> compactLocalTransactionInventory
        { inventory
          inventoryAuthoritative := authoritative
          oldestRequiredLocalTransactionId := oldestRequired
          dropArchivedEntries := dropArchived }
  | .recover millis =>
    let result := applyLocalTransactionInventoryRecovery inventory millis
    match result.diagnostic with
    | some diagnostic => .error diagnostic
    | none => .ok result.recoveredInventory
  | .resolveLimbo localId decision millis policy =>
    (·.inventory) <$> resolveLimboLocalTransactionWithOperatorDecision inventory localId
        decision millis policy

end InventoryOperation

/-- A run: the operations in order, stopping at the first refusal. -/
def runOperations (inventory : LocalTransactionInventory) :
    List InventoryOperation → Except DiagnosticRecord LocalTransactionInventory
  | [] => .ok inventory
  | op :: ops => do runOperations (← op.apply inventory) ops

/-- Inventories some run produces from the empty one. -/
def Reachable (inventory : LocalTransactionInventory) : Prop :=
  ∃ ops, runOperations makeEmptyLocalTransactionInventory ops = .ok inventory

/-!
## Runs with published snapshots

The inventory and the process-wide registry move independently: publication
reads the inventory as it is at that moment and adds a descriptor, and the
inventory goes on without it. A step here is an inventory operation or one of
the registry calls.
-/

structure MgaState where
  inventory : LocalTransactionInventory := makeEmptyLocalTransactionInventory
  registry : SnapshotRegistry := []
  deriving DecidableEq

inductive MgaStep where
  | inventory (op : InventoryOperation)
  | publish (generate : Nat → Except DiagnosticRecord TypedUuid)
      (owningTransaction publicationUnixEpochMillis : Nat)
  | retain (snapshotUuid : TypedUuid)
  | releasePin (snapshotUuid : Uuid)
  | release (snapshotUuid : TypedUuid)
  | revoke (snapshotUuid : TypedUuid)
  | revokeForTransaction (owningTransactionUuid : TypedUuid) (owningTransaction : Nat)

namespace MgaStep

def apply (step : MgaStep) (state : MgaState) : Except DiagnosticRecord MgaState :=
  match step with
  | .inventory op =>
    (fun inventory => { state with inventory := inventory }) <$> op.apply state.inventory
  | .publish generate owner millis =>
    (fun published => { state with registry := published.2 }) <$>
      publishStatementStableSnapshotVector generate state.registry state.inventory owner millis
  | .retain uuid =>
    .ok { state with
      registry := retainPublishedSnapshotVector state.registry uuid }
  | .releasePin uuid => .ok { state with registry := releaseSnapshotPin state.registry uuid }
  | .release uuid =>
    .ok { state with
      registry := releasePublishedSnapshotVector state.registry uuid }
  | .revoke uuid =>
    .ok { state with
      registry := revokePublishedSnapshotVector state.registry uuid }
  | .revokeForTransaction uuid owner =>
    .ok { state with
      registry := revokePublishedSnapshotVectorsForTransaction state.registry uuid owner }

end MgaStep

def runSteps (state : MgaState) : List MgaStep → Except DiagnosticRecord MgaState
  | [] => .ok state
  | step :: steps => do runSteps (← step.apply state) steps

end ScratchBird.Mga
