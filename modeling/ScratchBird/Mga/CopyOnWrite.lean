import ScratchBird.Mga.Inventory
import ScratchBird.Mga.RowVersion

/-!
# Planning a copy-on-write mutation

`copy_on_write.cpp`: whether a transaction may write at all, and the mutation
record a write starts from. The phases after `planned` belong to the store that
carries the mutation out.
-/

namespace ScratchBird.Mga

inductive CopyOnWriteMutationKind where
  | insert | update | deleteRow | systemCatalogUpdate | unknown
  deriving DecidableEq

inductive CopyOnWriteMutationPhase where
  | planned | baseVersionLocked | newVersionAllocated
  | payloadWrittenUnpublished | publishPendingTransaction | published
  | rollbackPending | rollbackComplete | recoveryRequired | unknown
  deriving DecidableEq

structure CopyOnWriteMutationIntent where
  kind : CopyOnWriteMutationKind := .unknown
  transaction : TransactionIdentity := {}
  rowUuid : TypedUuid := {}
  baseVersionSequence : Nat := kInvalidRowVersionSequence
  newVersionSequence : Nat := kInvalidRowVersionSequence
  hasBaseVersion : Bool := false
  payloadRequired : Bool := true
  systemCatalogMutation : Bool := false

structure CopyOnWriteMutationState where
  intent : CopyOnWriteMutationIntent := {}
  phase : CopyOnWriteMutationPhase := .unknown
  resultingRowState : RowVersionState := .unknown
  evidenceRecordRequired : Bool := true
  evidenceRecordWritten : Bool := false

/-- The rows of `kCowDiagnostics` by the last part of code and key. -/
def cowDiagnostic (code key : String) (detail : String := "") :
    DiagnosticRecord :=
  { diagnosticCode := "MGA.COW." ++ code
    messageKey := "copy_on_write." ++ key
    detail
    sourceComponent := "transaction.mga.copy_on_write" }

def copyOnWriteMutationKindName : CopyOnWriteMutationKind → String
  | .insert => "insert"
  | .update => "update"
  | .deleteRow => "delete_row"
  | .systemCatalogUpdate => "system_catalog_update"
  | .unknown => "unknown"

def resultingStateForMutation : CopyOnWriteMutationKind → RowVersionState
  | .insert | .update | .systemCatalogUpdate => .uncommitted
  | .deleteRow => .deleteMarker
  | .unknown => .unknown

def validateCopyOnWriteTransactionState (entry : TransactionInventoryEntry) :
    Option DiagnosticRecord :=
  if entry.state = .readOnlyActive then
    some (cowDiagnostic "READ_ONLY_TRANSACTION" "read_only_transaction")
  else if entry.state ≠ .active ∨ entry.rollbackOnly then
    some (cowDiagnostic "TRANSACTION_NOT_WRITABLE" "transaction_not_writable"
      (transactionStateName entry.state))
  else none

def validateCopyOnWriteMutationState (mutation : CopyOnWriteMutationState) :
    Except DiagnosticRecord CopyOnWriteMutationState :=
  let intent := mutation.intent
  if intent.kind = .unknown then
    .error (cowDiagnostic "INVALID_KIND" "invalid_kind")
  else if (observeTransactionIdentity intent.transaction).isSome ∨
      (intent.transaction.scope ≠ .localNode ∧ intent.transaction.scope ≠ .clusterGlobal) then
    .error (cowDiagnostic "INVALID_TRANSACTION_IDENTITY" "invalid_transaction_identity")
  else if (observeRowIdentity intent.rowUuid).isSome then
    .error (cowDiagnostic "INVALID_ROW_IDENTITY" "invalid_row_identity")
  else if intent.kind = .insert ∧ intent.hasBaseVersion then
    .error (cowDiagnostic "INSERT_HAS_BASE" "insert_has_base")
  else if intent.kind ≠ .insert ∧ ¬intent.hasBaseVersion then
    .error (cowDiagnostic "BASE_REQUIRED" "base_required" (copyOnWriteMutationKindName intent.kind))
  else if intent.hasBaseVersion ∧ intent.baseVersionSequence = kInvalidRowVersionSequence then
    .error (cowDiagnostic "INVALID_BASE_SEQUENCE" "invalid_base_sequence")
  else if intent.newVersionSequence = kInvalidRowVersionSequence then
    .error (cowDiagnostic "INVALID_NEW_SEQUENCE" "invalid_new_sequence")
  else if intent.hasBaseVersion ∧ intent.newVersionSequence ≤ intent.baseVersionSequence then
    .error (cowDiagnostic "NONINCREASING_SEQUENCE" "nonincreasing_sequence")
  else if mutation.phase = .unknown then
    .error (cowDiagnostic "INVALID_PHASE" "invalid_phase")
  else if mutation.resultingRowState = .unknown then
    .error (cowDiagnostic "INVALID_ROW_STATE" "invalid_row_state")
  else if mutation.evidenceRecordRequired ∧ mutation.phase = .published ∧
      ¬mutation.evidenceRecordWritten then
    .error (cowDiagnostic "EVIDENCE_REQUIRED" "evidence_required")
  else .ok mutation

def planCopyOnWriteMutation (intent : CopyOnWriteMutationIntent) :
    Except DiagnosticRecord CopyOnWriteMutationState :=
  validateCopyOnWriteMutationState
    { intent
      phase := .planned
      resultingRowState := resultingStateForMutation intent.kind
      evidenceRecordRequired := true
      evidenceRecordWritten := false }

def planLocalCopyOnWriteMutationForTransaction
    (entry : TransactionInventoryEntry) (rowUuid : TypedUuid) (kind : CopyOnWriteMutationKind)
    (baseVersionSequence newVersionSequence : Nat) :
    Except DiagnosticRecord CopyOnWriteMutationState :=
  match validateCopyOnWriteTransactionState entry with
  | some diagnostic => .error diagnostic
  | none =>
    planCopyOnWriteMutation
      { kind
        transaction := entry.identity
        rowUuid
        baseVersionSequence
        newVersionSequence
        hasBaseVersion := kind != .insert
        payloadRequired := kind != .deleteRow
        systemCatalogMutation := kind == .systemCatalogUpdate }

end ScratchBird.Mga
