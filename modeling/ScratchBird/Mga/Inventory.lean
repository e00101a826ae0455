import ScratchBird.Mga.State
import ScratchBird.Lib.Table

/-!
# The transaction inventory and its two validators

`transaction_inventory.hpp` and `transaction_inventory_validation.hpp`. The
inventory is the list of known transactions with two counters. An archived
entry keeps the terminal state it was archived from, so what a transaction came
to is not its state but `inventoryVisibilityState`, and almost every later
definition asks for that and not for the raw state.

The structural validator walks the entries once with three sets of values seen
so far. The evolution validator compares two inventories: it walks the later
one, looks each entry up in the earlier, and removes what it found, so that
whatever is left over was dropped. Both return the reason for the first refusal;
`none` is the empty reason, which the source reads as acceptance.
-/

namespace ScratchBird.Mga

open Lib

structure TransactionInventoryEntry where
  identity : TransactionIdentity := {}
  state : TransactionState := .none
  archivedFromState : TransactionState := .none
  beginUnixEpochMillis : Nat := 0
  finalUnixEpochMillis : Nat := 0
  beginVisibleThroughLocalTransactionId : Nat := kInvalidLocalTransactionId
  beginVisibleThroughCommitSequence : Nat := 0
  commitSequence : Nat := 0
  evidenceRecordRequired : Bool := true
  evidenceRecordWritten : Bool := false
  rollbackOnly : Bool := false
  stableSnapshot : Bool := false
  deriving DecidableEq

namespace TransactionInventoryEntry

def localId (e : TransactionInventoryEntry) : Nat := e.identity.localId

def uuid (e : TransactionInventoryEntry) : Uuid := e.identity.transactionUuid.value

end TransactionInventoryEntry

structure LocalTransactionInventory where
  nextLocalTransactionId : Nat := 1
  nextCommitSequence : Nat := 1
  entries : List TransactionInventoryEntry := []
  deriving DecidableEq

def inventoryVisibilityState (e : TransactionInventoryEntry) :
    TransactionState :=
  if e.state ≠ .archived then
    if e.archivedFromState = .none then e.state else .none
  else
    match e.archivedFromState with
    | .committed => .committed
    | .rolledBack => .rolledBack
    | .failedTerminal => .failedTerminal
    | _ => .none

def hasCommittedInventoryOutcome (e : TransactionInventoryEntry) : Bool :=
  inventoryVisibilityState e == .committed

/-! ## Structure -/

/-- The three sets the structural walk inserts into. -/
structure SeenValues where
  commits : List Nat := []
  locals : List Nat := []
  identities : List Uuid := []

def SeenValues.add (seen : SeenValues) (e : TransactionInventoryEntry) : SeenValues where
  commits :=
    if hasCommittedInventoryOutcome e then e.commitSequence :: seen.commits
    else seen.commits
  locals := e.localId :: seen.locals
  identities := e.uuid :: seen.identities

def validateEntryStructure (nextId nextCommit : Nat) (seen : SeenValues)
    (e : TransactionInventoryEntry) : Option String :=
  if e.beginVisibleThroughCommitSequence ≥ nextCommit then
    some "begin_commit_sequence_invalid"
  else if e.state = .archived ∧ e.archivedFromState ≠ .committed ∧
      e.archivedFromState ≠ .rolledBack ∧ e.archivedFromState ≠ .failedTerminal then
    some "archive_origin_invalid"
  else if e.state ≠ .archived ∧ e.archivedFromState ≠ .none then
    some "nonarchived_origin"
  else if hasCommittedInventoryOutcome e ∧ (e.commitSequence = 0 ∨ e.commitSequence ≥ nextCommit ∨
        e.commitSequence ≤ e.beginVisibleThroughCommitSequence) then
    some "commit_sequence_invalid"
  else if hasCommittedInventoryOutcome e ∧ e.commitSequence ∈ seen.commits then
    some "duplicate_commit_sequence"
  else if ¬hasCommittedInventoryOutcome e ∧ e.commitSequence ≠ 0 then
    some "noncommitted_commit_sequence"
  else if ¬e.identity.valid ∨ ¬isEngineIdentityUuid e.uuid then
    some "invalid_transaction_identity"
  else if e.identity.scope = .unknown then
    some "invalid_transaction_scope"
  else if e.localId ≥ nextId then
    some "future_transaction_in_inventory"
  else if e.localId ∈ seen.locals then
    some "duplicate_local_transaction_id"
  else if e.uuid ∈ seen.identities then
    some "duplicate_transaction_uuid"
  else if e.state = .none then
    some "invalid_transaction_state"
  else none

def validateEntriesStructure (nextId nextCommit : Nat) :
    SeenValues → List TransactionInventoryEntry → Option String
  | _, [] => none
  | seen, e :: rest =>
    match validateEntryStructure nextId nextCommit seen e with
    | some reason => some reason
    | none => validateEntriesStructure nextId nextCommit (seen.add e) rest

def validateLocalTransactionInventoryStructure
    (inventory : LocalTransactionInventory) : Option String :=
  if inventory.nextLocalTransactionId = kInvalidLocalTransactionId then
    some "next_transaction_invalid"
  else if inventory.nextCommitSequence = 0 then
    some "next_commit_sequence_invalid"
  else
    validateEntriesStructure inventory.nextLocalTransactionId
      inventory.nextCommitSequence {} inventory.entries

/-! ## Evolution -/

def validateEntryEvolution (before : LocalTransactionInventory)
    (old entry : TransactionInventoryEntry) : Option String :=
  if old.uuid ≠ entry.uuid ∨ old.identity.scope ≠ entry.identity.scope then
    some "transaction_identity_changed"
  else if old.beginUnixEpochMillis ≠ entry.beginUnixEpochMillis ∨
      old.beginVisibleThroughLocalTransactionId ≠ entry.beginVisibleThroughLocalTransactionId ∨
      old.beginVisibleThroughCommitSequence ≠ entry.beginVisibleThroughCommitSequence ∨
      old.stableSnapshot ≠ entry.stableSnapshot then
    some "transaction_begin_changed"
  else if (old.evidenceRecordRequired ∧ ¬entry.evidenceRecordRequired) ∨
      (old.evidenceRecordWritten ∧ ¬entry.evidenceRecordWritten) then
    some "transaction_evidence_regressed"
  else if isTerminalTransactionState (inventoryVisibilityState old) ∧
      (inventoryVisibilityState old ≠ inventoryVisibilityState entry ∨
        old.finalUnixEpochMillis ≠ entry.finalUnixEpochMillis ∨
        old.commitSequence ≠ entry.commitSequence) then
    some "transaction_finality_changed"
  else if ¬stateReachable old.state entry.state ∨ (entry.state = .archived ∧ old.state ≠ .archived ∧
        ¬stateReachable old.state (inventoryVisibilityState entry)) then
    some "transaction_state_regressed"
  else if ¬hasCommittedInventoryOutcome old ∧ hasCommittedInventoryOutcome entry ∧
      entry.commitSequence < before.nextCommitSequence then
    some "commit_sequence_reused"
  else none

def validateNewEntry (before : LocalTransactionInventory)
    (entry : TransactionInventoryEntry) : Option String :=
  if entry.localId < before.nextLocalTransactionId then
    some "local_number_reused"
  else if entry.uuid ∈ before.entries.map (·.uuid) then
    some "transaction_uuid_reused"
  else if hasCommittedInventoryOutcome entry ∧ entry.commitSequence < before.nextCommitSequence then
    some "commit_sequence_reused"
  else none

/-- `remaining` is the map of earlier entries that no later entry has claimed
yet: a match is erased from it, and what is left at the end was dropped. -/
def validateInventoryEvolutionValues (before : LocalTransactionInventory) :
    List TransactionInventoryEntry → List TransactionInventoryEntry → Option String
  | remaining, [] =>
    if remaining.any (fun e => inventoryVisibilityState e != .committed &&
        inventoryVisibilityState e != .rolledBack) then
      some "unresolved_transaction_removed"
    else none
  | remaining, entry :: rest =>
    match lookup TransactionInventoryEntry.localId entry.localId remaining with
    | none =>
      match validateNewEntry before entry with
      | some reason => some reason
      | none => validateInventoryEvolutionValues before remaining rest
    | some old =>
      match validateEntryEvolution before old entry with
      | some reason => some reason
      | none =>
        validateInventoryEvolutionValues before
          (remaining.filter fun e => e.localId ≠ old.localId) rest

def validateLocalTransactionInventoryEvolution
    (before after : LocalTransactionInventory) : Option String :=
  match validateLocalTransactionInventoryStructure before with
  | some reason => some reason
  | none =>
    match validateLocalTransactionInventoryStructure after with
    | some reason => some reason
    | none =>
      if after.nextLocalTransactionId < before.nextLocalTransactionId ∨
          after.nextCommitSequence < before.nextCommitSequence then
        some "counter_regression"
      else
        validateInventoryEvolutionValues before before.entries after.entries

end ScratchBird.Mga
