import ScratchBird.Mga.State

/-!
# Row versions and their visibility

`row_version.hpp` and `row_version_observation.hpp`. A version's metadata names
its row, its creator, its place in the chain and the state the creator's outcome
gives it. `evaluate` answers whether a snapshot sees the version. It is asked in
two ways: as it stands, where a delete marker is never visible, and for its
effect, where a delete marker is judged like any other version of its creator
and a visible one means the row is gone.

A validation that fails, or a version whose creator is still undecided, is
reported as a diagnostic beside the decision; `none` is the source's ok status.
-/

namespace ScratchBird.Mga

def kInvalidRowVersionSequence : Nat := 0

inductive RowVersionState where
  | unknown | uncommitted | prepared | committed | rolledBack | deleteMarker
  | limbo | recoveryRequired
  deriving DecidableEq

inductive VisibilityDecision where
  | visible | invisible | waitForTransaction | requiresRecovery | unknown
  deriving DecidableEq

structure RowVersionChainLinks where
  previousVersionUuid : TypedUuid := {}
  nextVersionUuid : TypedUuid := {}
  previousVersionSequence : Nat := kInvalidRowVersionSequence
  nextVersionSequence : Nat := kInvalidRowVersionSequence
  deriving DecidableEq

def RowVersionChainLinks.hasPrevious (c : RowVersionChainLinks) : Bool :=
  c.previousVersionSequence != kInvalidRowVersionSequence

def RowVersionChainLinks.hasNext (c : RowVersionChainLinks) : Bool :=
  c.nextVersionSequence != kInvalidRowVersionSequence

structure RowVersionIdentity where
  rowUuid : TypedUuid := {}
  creatorTransaction : TransactionIdentity := {}
  versionSequence : Nat := kInvalidRowVersionSequence
  versionUuid : Uuid := Uuid.nil
  deriving DecidableEq

structure RowVersionMetadata where
  identity : RowVersionIdentity := {}
  chain : RowVersionChainLinks := {}
  successorTransactionLocalId : Nat := kInvalidLocalTransactionId
  state : RowVersionState := .unknown
  creatorTransactionState : TransactionState := .none
  payloadPresent : Bool := false
  creatorCommitSequence : Nat := 0
  deriving DecidableEq

structure VisibilitySnapshot where
  readerTransaction : Nat := kInvalidLocalTransactionId
  visibleThroughLocalTransactionId : Nat := kInvalidLocalTransactionId
  visibleThroughLocalTransactionIdIsBoundary : Bool := false
  allowReaderOwnUncommitted : Bool := true
  recoveryContext : Bool := false
  activeExcludedLocalTransactionIds : List Nat := []
  inDoubtExcludedLocalTransactionIds : List Nat := []
  visibleThroughCommitSequence : Nat := 0
  visibleThroughCommitSequenceIsBoundary : Bool := false
  deriving DecidableEq

def rowVersionStateName : RowVersionState → String
  | .unknown => "unknown"
  | .uncommitted => "uncommitted"
  | .prepared => "prepared"
  | .committed => "committed"
  | .rolledBack => "rolled_back"
  | .deleteMarker => "delete_marker"
  | .limbo => "limbo"
  | .recoveryRequired => "recovery_required"

def rowObservationError (code key : String) (detail : String := "") :
    DiagnosticRecord :=
  { diagnosticCode := code
    messageKey := key
    detail
    sourceComponent := "transaction.mga.row_version" }

def rowObservationWarning (code key detail : String) : DiagnosticRecord :=
  { rowObservationError code key detail with severity := .warning }

/-! ## Validation -/

def observeRowIdentity (rowUuid : TypedUuid) : Option DiagnosticRecord :=
  if rowUuid.kind ≠ .row ∨ ¬rowUuid.valid then
    some (rowObservationError "SB-ROW-INVALID-ROW-UUID-KIND" "row_version.invalid_row_uuid_kind")
  else if ¬isEngineIdentityUuid rowUuid.value then
    some (rowObservationError "SB-ROW-ROW-UUID-MUST-BE-V7" "row_version.row_uuid_must_be_v7")
  else none

def observeTransactionIdentity (i : TransactionIdentity) : Option DiagnosticRecord :=
  match validateTransactionIdentity i with
  | .error diagnostic => some diagnostic
  | .ok _ => none

def observeRowVersionIdentity (i : RowVersionIdentity) : Option DiagnosticRecord :=
  if ¬isEngineIdentityUuid i.versionUuid ∨ i.versionUuid = i.rowUuid.value then
    some (rowObservationError "CATALOG.INVALID_INPUT" "row_version.invalid_version_uuid")
  else match observeRowIdentity i.rowUuid with
  | some diagnostic => some diagnostic
  | none =>
  match observeTransactionIdentity i.creatorTransaction with
  | some diagnostic => some diagnostic
  | none =>
  if i.versionSequence = kInvalidRowVersionSequence then
    some (rowObservationError "SB-ROW-INVALID-VERSION-SEQUENCE"
      "row_version.invalid_version_sequence")
  else none

def observeRowVersionMetadata (m : RowVersionMetadata) : Option DiagnosticRecord :=
  match observeRowVersionIdentity m.identity with
  | some diagnostic => some diagnostic
  | none =>
  if m.state = .unknown then
    some (rowObservationError "SB-ROW-UNKNOWN-VERSION-STATE" "row_version.unknown_version_state")
  else if m.creatorTransactionState = .none ∨ m.creatorTransactionState = .archived then
    some (rowObservationError "SB-ROW-UNKNOWN-CREATOR-TRANSACTION-STATE"
      "row_version.unknown_creator_transaction_state")
  else if ¬m.payloadPresent ∧ m.state ≠ .deleteMarker ∧ m.state ≠ .rolledBack then
    some (rowObservationError "SB-ROW-MISSING-VERSION-PAYLOAD"
      "row_version.missing_version_payload" (rowVersionStateName m.state))
  else if m.chain.hasPrevious ∧ m.chain.previousVersionSequence ≥ m.identity.versionSequence then
    some (rowObservationError "SB-ROW-INVALID-PREVIOUS-VERSION-LINK"
      "row_version.invalid_previous_version_link")
  else if m.chain.hasNext ∧ m.chain.nextVersionSequence ≤ m.identity.versionSequence then
    some (rowObservationError "SB-ROW-INVALID-NEXT-VERSION-LINK"
      "row_version.invalid_next_version_link")
  else none

/-- The state a stored row gets from its creator's visibility state
(`RowStateForEntry` of the row store). -/
def rowStateForEntry (deleted : Bool) (creatorState : TransactionState) :
    RowVersionState :=
  if deleted then .deleteMarker
  else
    match creatorState with
    | .committed => .committed
    | .rolledBack | .failedTerminal => .rolledBack
    | .prepared => .prepared
    | .limbo => .limbo
    | .recovering => .recoveryRequired
    | .active | .preparing | .committing | .created | .rollingBack
    | .readOnlyActive | .none => .uncommitted
    | .archived => .unknown

/-! ## Visibility -/

structure VisibilityObservation where
  outcome : Option DiagnosticRecord := none
  decision : VisibilityDecision := .unknown

/-- The state the version is judged by: for its effect, a delete marker takes
the state its creator's outcome would give an ordinary version. `none` is the
creator state no version may have. -/
def effectState (m : RowVersionMetadata) (deleteEffect : Bool) : Option RowVersionState :=
  if deleteEffect ∧ m.state = .deleteMarker then
    match m.creatorTransactionState with
    | .committed => some .committed
    | .rolledBack | .failedTerminal => some .rolledBack
    | .prepared => some .prepared
    | .limbo => some .limbo
    | .recovering => some .recoveryRequired
    | .created | .active | .preparing | .committing | .rollingBack
    | .readOnlyActive => some .uncommitted
    | .none | .archived => none
  else some m.state

/-- What a snapshot makes of a version its creator committed. -/
def evaluateCommitted (m : RowVersionMetadata) (s : VisibilitySnapshot) :
    VisibilityObservation :=
  let creator := m.identity.creatorTransaction.localId
  if (s.visibleThroughLocalTransactionIdIsBoundary ∨
      s.visibleThroughLocalTransactionId ≠ kInvalidLocalTransactionId) ∧
      creator > s.visibleThroughLocalTransactionId then
    { decision := .invisible }
  else if s.visibleThroughCommitSequenceIsBoundary ∧ m.creatorCommitSequence = 0 then
    { outcome := some (rowObservationError "CATALOG.INVALID_INPUT"
        "row_version.creator_commit_sequence_missing")
      decision := .unknown }
  else if s.visibleThroughCommitSequenceIsBoundary ∧
      m.creatorCommitSequence > s.visibleThroughCommitSequence then
    { decision := .invisible }
  else if creator ∈ s.activeExcludedLocalTransactionIds ∨
      creator ∈ s.inDoubtExcludedLocalTransactionIds then
    { decision := .invisible }
  else { decision := .visible }

def evaluate (m : RowVersionMetadata) (s : VisibilitySnapshot)
    (deleteEffect : Bool) : VisibilityObservation :=
  match observeRowVersionMetadata m with
  | some diagnostic => { outcome := some diagnostic, decision := .unknown }
  | none =>
  match effectState m deleteEffect with
  | none =>
    { outcome := some (rowObservationError "SB-ROW-UNKNOWN-CREATOR-TRANSACTION-STATE"
        "row_version.unknown_creator_transaction_state")
      decision := .unknown }
  | some state =>
  if state = .recoveryRequired ∨ state = .limbo then
    { outcome := some (rowObservationWarning "SB-ROW-VISIBILITY-REQUIRES-RECOVERY"
        "row_version.visibility_requires_recovery" (rowVersionStateName m.state))
      decision := .requiresRecovery }
  else if state = .prepared ∨ state = .uncommitted then
    if s.allowReaderOwnUncommitted ∧ localIdValid s.readerTransaction ∧
        m.identity.creatorTransaction.localId = s.readerTransaction then
      { decision := .visible }
    else
      { outcome := some (rowObservationWarning "SB-ROW-VISIBILITY-WAITS-FOR-TRANSACTION"
          "row_version.visibility_waits_for_transaction" (rowVersionStateName m.state))
        decision := .waitForTransaction }
  else if state = .rolledBack ∨ state = .deleteMarker then
    { decision := .invisible }
  else if ¬(state = .committed ∧ m.creatorTransactionState = .committed) then
    { outcome := some (rowObservationWarning "SB-ROW-CREATOR-NOT-COMMITTED"
        "row_version.creator_not_committed" (transactionStateName m.creatorTransactionState))
      decision := .waitForTransaction }
  else evaluateCommitted m s

def observeVisibility (m : RowVersionMetadata) (s : VisibilitySnapshot) :
    VisibilityObservation :=
  evaluate m s false

def observeVersionEffectVisibility (m : RowVersionMetadata)
    (s : VisibilitySnapshot) : VisibilityObservation := evaluate m s true

end ScratchBird.Mga
