import ScratchBird.Mga.Operations

/-!
# Recovery

`transaction_recovery.cpp`. After a crash every entry is classified and the
ones whose outcome is determined are driven to it; the rest stay as they are
and keep write admission fenced. A recovered commit takes the next commit
sequence at the moment its entry is visited, so the pass over the entries
carries the counter along. Limbo is left to an operator, whose decision is a
separate call.

A failed recovery still hands back the entries changed before the failure, and
the result type keeps them: `diagnostic` says whether the call succeeded.
-/

namespace ScratchBird.Mga

open Lib

inductive TransactionRecoveryAction where
  | noAction | completeCommit | completeRollback
  | preparedWaitingLocalDecision | limboRequiresOperator | failClosedAmbiguous
  | unknown | clusterProviderRequired
  deriving DecidableEq

inductive LimboOperatorDecision where
  | commit | rollback | failTerminal | unknown
  deriving DecidableEq

def limboOperatorDecisionName : LimboOperatorDecision → String
  | .commit => "commit"
  | .rollback => "rollback"
  | .failTerminal => "fail_terminal"
  | .unknown => "unknown"

structure LimboOperatorResolutionPolicy where
  operatorDecisionAuthoritative : Bool := false
  operatorEvidenceReference : String := ""

structure TransactionRecoveryClassification where
  localId : Nat
  observedState : TransactionState
  action : TransactionRecoveryAction
  failClosed : Bool
  stableReason : String

structure TransactionRecoveryResult where
  diagnostic : Option DiagnosticRecord
  classifications : List TransactionRecoveryClassification
  recoveredInventory : LocalTransactionInventory
  inventoryChanged : Bool := false
  writeAdmissionMustRemainFenced : Bool := false

def makeTransactionRecoveryDiagnostic (code key : String)
    (detail : String := "") : DiagnosticRecord :=
  { diagnosticCode := code
    messageKey := key
    detail
    sourceComponent := "transaction.mga.recovery" }

def transitionForRecovery (e : TransactionInventoryEntry)
    (next : TransactionState) (recoveryUnixEpochMillis : Nat) :
    Except DiagnosticRecord TransactionInventoryEntry :=
  match checkTransactionStateTransition e.state next true with
  | .error diagnostic => .error diagnostic
  | .ok _ =>
    if next = .committed ∨ next = .rolledBack ∨ next = .failedTerminal then
      .ok { e with
        state := next
        finalUnixEpochMillis := recoveryUnixEpochMillis
        evidenceRecordWritten := true }
    else .ok { e with state := next }

def enterRollingBack (e : TransactionInventoryEntry) (recoveryUnixEpochMillis : Nat) :
    Except DiagnosticRecord TransactionInventoryEntry :=
  if e.state = .rollingBack then .ok e
  else transitionForRecovery e .rollingBack recoveryUnixEpochMillis

/-- The entry as the action leaves it, and the diagnostic if a transition was
refused. A refused second transition leaves the first one in place. -/
def applyRecoveryAction (e : TransactionInventoryEntry)
    (action : TransactionRecoveryAction) (recoveryUnixEpochMillis : Nat) :
    TransactionInventoryEntry × Option DiagnosticRecord :=
  match action with
  | .completeCommit =>
    match transitionForRecovery e .committed recoveryUnixEpochMillis with
    | .ok e => (e, none)
    | .error diagnostic => (e, some diagnostic)
  | .completeRollback =>
    match enterRollingBack e recoveryUnixEpochMillis with
    | .error diagnostic => (e, some diagnostic)
    | .ok e =>
      match transitionForRecovery e .rolledBack recoveryUnixEpochMillis with
      | .ok e => (e, none)
      | .error diagnostic => (e, some diagnostic)
  | _ => (e, none)

/-- What the classification decides, apart from the identity and the state it
copies from the entry: the action, whether it fails closed, and the reason. -/
def classifyRecoveryAction (e : TransactionInventoryEntry) :
    TransactionRecoveryAction × Bool × String :=
  if e.identity.scope ≠ .localNode ∧ e.identity.scope ≠ .clusterGlobal then
    (.failClosedAmbiguous, true, "invalid_transaction_scope")
  else if (e.state = .archived ∧ inventoryVisibilityState e = .none) ∨
      (e.state ≠ .archived ∧ e.archivedFromState ≠ .none) then
    (.failClosedAmbiguous, true, "invalid_archived_transaction_origin")
  else if inventoryVisibilityState e = .failedTerminal then
    (.failClosedAmbiguous, true, "failed_terminal_requires_review")
  else if e.identity.scope = .clusterGlobal ∧
      e.state ∈ [.created, .active, .readOnlyActive, .preparing, .prepared,
        .committing, .rollingBack, .limbo, .recovering] then
    (.clusterProviderRequired, true, "cluster_recovery_requires_provider_decision")
  else if e.rollbackOnly ∧ e.state ≠ .committed ∧ e.state ≠ .committing ∧
      e.state ≠ .rolledBack ∧ e.state ≠ .archived then
    (.completeRollback, false, "rollback_only_local_state")
  else
    match e.state with
    | .none => (.failClosedAmbiguous, true, "missing_transaction_state")
    | .created | .active | .readOnlyActive | .preparing =>
      (.completeRollback, false, "uncommitted_local_state")
    | .prepared => (.preparedWaitingLocalDecision, true, "prepared_requires_local_decision")
    | .committing =>
      if e.evidenceRecordRequired && !e.evidenceRecordWritten then
        (.failClosedAmbiguous, true, "committing_without_durable_evidence")
      else (.completeCommit, false, "commit_publication_incomplete")
    | .rollingBack => (.completeRollback, false, "rollback_publication_incomplete")
    | .committed | .rolledBack | .archived => (.noAction, false, "terminal_or_archived")
    | .limbo | .recovering =>
      (.limboRequiresOperator, true, "limbo_or_recovering_without_cluster_authority")
    | .failedTerminal => (.failClosedAmbiguous, true, "failed_terminal_requires_review")

def classifyLocalTransactionForRecovery (e : TransactionInventoryEntry) :
    TransactionRecoveryClassification :=
  match classifyRecoveryAction e with
  | (action, failClosed, stableReason) =>
    { localId := e.localId, observedState := e.state, action, failClosed, stableReason }

/-- The classification walk; the inner identity check repeats part of the
structural one and ends the walk with what was classified so far. -/
def classifyEntriesForRecovery (inventory : LocalTransactionInventory) :
    List TransactionInventoryEntry → List TransactionRecoveryClassification →
      Bool → TransactionRecoveryResult
  | [], done, fenced =>
    { diagnostic := none
      classifications := done
      recoveredInventory := inventory
      writeAdmissionMustRemainFenced := fenced }
  | e :: rest, done, fenced =>
    if !e.identity.valid then
      { diagnostic := some (makeTransactionRecoveryDiagnostic "SB-SNTXN-RECOVERY-STATE-AMBIGUOUS"
          "transaction.recovery.invalid_identity")
        classifications := done
        recoveredInventory := inventory
        writeAdmissionMustRemainFenced := fenced }
    else
      let classification := classifyLocalTransactionForRecovery e
      classifyEntriesForRecovery inventory rest (done ++ [classification])
        (fenced || classification.failClosed)

def classifyLocalTransactionInventoryForRecovery
    (inventory : LocalTransactionInventory) : TransactionRecoveryResult :=
  match validateLocalTransactionInventoryStructure inventory with
  | some reason =>
    { diagnostic := some (makeTransactionRecoveryDiagnostic "SB-SNTXN-RECOVERY-STATE-AMBIGUOUS"
        "transaction.recovery.inventory_invalid" reason)
      classifications := []
      recoveredInventory := {}
      writeAdmissionMustRemainFenced := true }
  | none => classifyEntriesForRecovery inventory inventory.entries [] false

/-! ## Applying recovery -/

/-- The state the recovery loop carries past an entry. -/
structure RecoveryLoop where
  done : List TransactionInventoryEntry := []
  nextCommitSequence : Nat
  changed : Bool := false
  fenced : Bool := false

/-- One round of the loop, on an entry that classifies without failing closed
and whose action went through. -/
def RecoveryLoop.accept (loop : RecoveryLoop)
    (old new : TransactionInventoryEntry) : RecoveryLoop :=
  if new.state ≠ old.state then
    if new.state = .committed then
      { loop with
        done := loop.done ++ [{ new with commitSequence := loop.nextCommitSequence }]
        nextCommitSequence := loop.nextCommitSequence + 1
        changed := true }
    else { loop with done := loop.done ++ [new], changed := true }
  else { loop with done := loop.done ++ [new] }

/-- The loop itself: the entries it leaves, the loop state it ended in, and the
diagnostic of the action that stopped it early. -/
def recoverEntries (recoveryUnixEpochMillis : Nat) :
    RecoveryLoop → List TransactionInventoryEntry → RecoveryLoop × Option DiagnosticRecord
  | loop, [] => (loop, none)
  | loop, e :: rest =>
    let classification := classifyLocalTransactionForRecovery e
    if classification.failClosed then
      recoverEntries recoveryUnixEpochMillis
        { loop with done := loop.done ++ [e], fenced := true } rest
    else
      match applyRecoveryAction e classification.action recoveryUnixEpochMillis with
      | (e', some diagnostic) =>
        ({ loop with done := loop.done ++ e' :: rest, fenced := true }, some diagnostic)
      | (e', none) => recoverEntries recoveryUnixEpochMillis (loop.accept e e') rest

def recoveryCommitCount (classifications : List TransactionRecoveryClassification) : Nat :=
  classifications.countP fun c => !c.failClosed && c.action == .completeCommit

def applyLocalTransactionInventoryRecovery
    (inventory : LocalTransactionInventory) (recoveryUnixEpochMillis : Nat) :
    TransactionRecoveryResult :=
  let result := classifyLocalTransactionInventoryForRecovery inventory
  if result.diagnostic.isSome then result
  else if recoveryCommitCount result.classifications > u64Max - inventory.nextCommitSequence then
    { result with
      diagnostic := some (makeTransactionRecoveryDiagnostic
        "CATALOG.INVALID_INPUT" "transaction.recovery.commit_sequence_exhausted")
      writeAdmissionMustRemainFenced := true }
  else
    match recoverEntries recoveryUnixEpochMillis
        { nextCommitSequence := inventory.nextCommitSequence
          fenced := result.writeAdmissionMustRemainFenced }
        inventory.entries with
    | (loop, diagnostic) =>
      { result with
        diagnostic
        recoveredInventory :=
          { inventory with
            nextCommitSequence := loop.nextCommitSequence
            entries := loop.done }
        inventoryChanged := loop.changed
        writeAdmissionMustRemainFenced := loop.fenced }

/-! ## Operator resolution of limbo -/

def recoveryInventoryError {α : Type} (code key : String)
    (detail : String := "") : Except DiagnosticRecord α :=
  .error (makeTransactionRecoveryDiagnostic code key detail)

def terminalStateForLimboDecision : LimboOperatorDecision → TransactionState
  | .commit => .committed
  | .rollback => .rolledBack
  | .failTerminal => .failedTerminal
  | .unknown => .none

def resolveLimboLocalTransactionWithOperatorDecision
    (inventory : LocalTransactionInventory) (localId : Nat)
    (decision : LimboOperatorDecision) (finalUnixEpochMillis : Nat)
    (policy : LimboOperatorResolutionPolicy) : Except DiagnosticRecord TransactionInventoryResult :=
  match validateLocalTransactionInventoryStructure inventory with
  | some reason =>
    recoveryInventoryError "CATALOG.INVALID_INPUT" "transaction.recovery.inventory_invalid" reason
  | none =>
  if decision = .commit ∧ inventory.nextCommitSequence = u64Max then
    recoveryInventoryError "CATALOG.INVALID_INPUT" "transaction.recovery.commit_sequence_exhausted"
  else if !localIdValid localId then
    recoveryInventoryError "SB-SNTXN-LIMBO-LOCAL-ID-INVALID"
      "transaction.recovery.limbo_local_id_invalid"
  else if decision = .unknown ∨ terminalStateForLimboDecision decision = .none then
    recoveryInventoryError "SB-SNTXN-LIMBO-OPERATOR-DECISION-INVALID"
      "transaction.recovery.limbo_operator_decision_invalid" (limboOperatorDecisionName decision)
  else if !policy.operatorDecisionAuthoritative || policy.operatorEvidenceReference.isEmpty then
    recoveryInventoryError "SB-SNTXN-LIMBO-OPERATOR-AUTHORITY-REQUIRED"
      "transaction.recovery.limbo_operator_authority_required"
      "authoritative operator evidence is required"
  else match findEntry inventory localId with
  | none =>
    recoveryInventoryError "SB-SNTXN-LIMBO-LOCAL-ID-NOT-FOUND"
      "transaction.recovery.limbo_local_id_not_found" (toString localId)
  | some entry =>
  if entry.state ≠ .limbo then
    recoveryInventoryError "SB-SNTXN-LIMBO-STATE-REQUIRED"
      "transaction.recovery.limbo_state_required" (transactionStateName entry.state)
  else if entry.identity.scope = .clusterGlobal then
    recoveryInventoryError "SB-SNTXN-LIMBO-EXTERNAL-PROVIDER-REQUIRED"
      "transaction.recovery.limbo_external_provider_required"
      "cluster-scope limbo resolution requires external cluster provider authority"
  else do
    let entry ← transitionForRecovery entry .recovering finalUnixEpochMillis
    let entry := { entry with evidenceRecordRequired := true }
    let entry ← transitionForRecovery entry
      (terminalStateForLimboDecision decision) finalUnixEpochMillis
    if entry.state = .committed then
      let entry := { entry with commitSequence := inventory.nextCommitSequence }
      return {
        inventory :=
          { putEntry inventory entry with
            nextCommitSequence := inventory.nextCommitSequence + 1 }
        entry }
    else
      return { inventory := putEntry inventory entry, entry := entry }

end ScratchBird.Mga
