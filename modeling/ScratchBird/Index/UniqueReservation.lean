import ScratchBird.Mga.State

/-!
# The unique index reservation ledger

`unique_index_reservation_ledger.cpp`. A unique key is claimed in three phases. A
transaction reserves the key for a row, has all its reservations validated before
it commits, and marks them as published once the commit is durable. What is known
about other transactions comes with each request, as proofs of their state.

A reservation that meets another one for the same key goes on only when the two
are of one transaction or when the request proves that it updates the same row.
Everything else is a conflict, and the kind of the conflict is decided by the
state of the other reservation and by the proof for its transaction. Two rows of
one transaction may therefore hold the same key until validation.

The types stand in a namespace of the name they share in the source. The ledger
pointer is never null here, and the evidence, which no call reads, and the
authority flags, which are constantly false, are left out.
-/

namespace ScratchBird.UniqueIndexReservation

open Mga

inductive NullPolicy where
  | nullsDistinct | nullsNotDistinct
  deriving DecidableEq

inductive ActiveConflictPolicy where
  | waitForMga | refuseCandidate
  deriving DecidableEq

inductive ConflictState where
  | none | waitForMga | refuseCandidate | committedRefused | validatedRefused
  | sameRowProofRequired | unsafeRefused | duplicateInTransactionRefused
  deriving DecidableEq

inductive RecordState where
  | reserved | commitValidated | committedPublished
  deriving DecidableEq

inductive Decision where
  | reserved | bypassedPartialPredicate | bypassedNullsDistinct | waitForMga
  | refused | rollbackCleaned | commitValidated | commitPublished
  deriving DecidableEq

structure TransactionProof where
  transactionUuid : TypedUuid := {}
  localTransactionId : Nat := 0
  state : TransactionState := .none
  engineMgaAuthority : Bool := false
  durableTransactionInventoryAuthoritative : Bool := false
  durableCommitEvidence : Bool := false
  durableRollbackEvidence : Bool := false
  evidenceToken : String := ""
  archivedFromState : TransactionState := .none

/-- The fields that a record takes over from its request. -/
structure Claim where
  indexUuid : TypedUuid := {}
  tableUuid : TypedUuid := {}
  constraintUuid : TypedUuid := {}
  rowUuid : TypedUuid := {}
  versionUuid : TypedUuid := {}
  transactionUuid : TypedUuid := {}
  localTransactionId : Nat := 0
  encodedKey : List UInt8 := []
  nullPolicy : NullPolicy := .nullsDistinct
  incomingKeyHasNull : Bool := false
  partialPredicateParticipates : Bool := true
  sameRowUpdateProven : Bool := false
  sameRowProofUuid : TypedUuid := {}
  deriving DecidableEq

structure Request extends Claim where
  nullPolicyProven : Bool := false
  partialPredicateProven : Bool := false
  activeConflictPolicy : ActiveConflictPolicy := .waitForMga
  transactionStateProofs : List TransactionProof := []

structure Record extends Claim where
  reservationSequence : Nat := 0
  state : RecordState := .reserved
  reservationEvidenceToken : String := ""
  commitValidationEvidenceToken : String := ""
  commitPublicationEvidenceToken : String := ""
  deriving DecidableEq

structure Conflict where
  record : Record
  observedTransactionState : TransactionState
  conflictState : ConflictState
  sameRow : Bool
  mgaStateProofPresent : Bool

structure Ledger where
  reservations : List Record := []
  nextReservationSequence : Nat := 1

structure Result where
  diagnostic : DiagnosticRecord
  decision : Decision := .refused
  conflictState : ConflictState := .none
  reservationSequence : Nat := 0
  sameRowUpdateAllowed : Bool := false
  reservationsRemoved : Nat := 0
  conflicts : List Conflict := []

structure CommitValidationRequest where
  transactionUuid : TypedUuid := {}
  localTransactionId : Nat := 0
  transactionStateProofs : List TransactionProof := []
  validationEvidenceToken : String := ""

structure CommitPublicationRequest where
  transactionUuid : TypedUuid := {}
  localTransactionId : Nat := 0
  durableCommitProof : TransactionProof := {}

structure RollbackCleanupRequest where
  transactionUuid : TypedUuid := {}
  localTransactionId : Nat := 0
  rollbackProof : TransactionProof := {}

/-! ## Comparing identities -/

def sameUuid (left right : TypedUuid) : Bool :=
  left.kind == right.kind && left.valid && right.valid && left.value == right.value

def validUuidKind (uuid : TypedUuid) (kind : UuidKind) : Bool := uuid.kind == kind && uuid.valid

def sameTransaction (leftUuid : TypedUuid) (leftLocalId : Nat)
    (rightUuid : TypedUuid) (rightLocalId : Nat) : Bool :=
  leftLocalId != 0 && rightLocalId != 0 && leftLocalId == rightLocalId &&
    sameUuid leftUuid rightUuid

namespace Claim

def ofTransaction (claim : Claim) (transactionUuid : TypedUuid) (localTransactionId : Nat) : Bool :=
  sameTransaction claim.transactionUuid claim.localTransactionId transactionUuid localTransactionId

def sameReservationScope (left right : Claim) : Bool :=
  sameUuid left.indexUuid right.indexUuid && sameUuid left.tableUuid right.tableUuid &&
    sameUuid left.constraintUuid right.constraintUuid

def sameKey (left right : Claim) : Bool :=
  left.sameReservationScope right && left.encodedKey == right.encodedKey

/-- The claim proves that it updates the row it names. -/
def provesSameRow (claim : Claim) : Bool :=
  claim.sameRowUpdateProven && sameUuid claim.sameRowProofUuid claim.rowUuid

end Claim

def sameRowProofValid (request : Request) (existing : Record) : Bool :=
  request.provesSameRow && sameUuid existing.rowUuid request.rowUuid

def recordPairHasSameRowProof (left right : Record) : Bool :=
  if !sameUuid left.rowUuid right.rowUuid then false
  else left.provesSameRow || right.provesSameRow

/-! ## Proofs of transaction state -/

def isActiveOrUnresolved (state : TransactionState) : Bool :=
  state == .created || state == .active || state == .readOnlyActive ||
    state == .preparing || state == .prepared || state == .committing ||
    state == .rollingBack || state == .limbo || state == .recovering

namespace TransactionProof

def provenOutcome (proof : TransactionProof) : TransactionState :=
  if proof.state ≠ .archived then
    if proof.archivedFromState = .none then proof.state else .none
  else match proof.archivedFromState with
  | .committed => .committed
  | .rolledBack => .rolledBack
  | .failedTerminal => .failedTerminal
  | _ => .none

def isCommittedState (proof : TransactionProof) : Bool := proof.provenOutcome == .committed

def hasMgaAuthority (proof : TransactionProof) : Bool :=
  proof.engineMgaAuthority && proof.provenOutcome != .none &&
    proof.durableTransactionInventoryAuthoritative && !proof.evidenceToken.isEmpty

def matchesRequest (proof : TransactionProof) (transactionUuid : TypedUuid)
    (localTransactionId : Nat) : Bool :=
  sameTransaction proof.transactionUuid proof.localTransactionId transactionUuid localTransactionId

def activeValidForCommitValidation (proof : TransactionProof) : Bool :=
  proof.hasMgaAuthority && isActiveOrUnresolved proof.state

def durableCommitValid (proof : TransactionProof) : Bool :=
  proof.hasMgaAuthority && proof.isCommittedState && proof.durableCommitEvidence

def durableRollbackValid (proof : TransactionProof) : Bool :=
  proof.hasMgaAuthority && proof.provenOutcome == .rolledBack && proof.durableRollbackEvidence

end TransactionProof

def findProof (proofs : List TransactionProof) (transactionUuid : TypedUuid)
    (localTransactionId : Nat) : Option TransactionProof :=
  proofs.find? (·.matchesRequest transactionUuid localTransactionId)

/-! ## Results -/

/-- The message key of every diagnostic is its code in lower case. -/
def makeDiagnostic (severity : Severity) (name detail : String) : DiagnosticRecord :=
  { diagnosticCode := "INDEX.UNIQUE_RESERVATION." ++ name.toUpper
    messageKey := "core.index.unique_reservation." ++ name
    detail
    sourceComponent := "core.index.unique_index_reservation_ledger"
    severity }

def accept (decision : Decision) (name detail : String) : Result :=
  { diagnostic := makeDiagnostic .info name detail, decision := decision }

def refuse (name detail : String) (conflictState : ConflictState := .unsafeRefused) :
    Result :=
  { diagnostic := makeDiagnostic .error name detail, conflictState := conflictState }

/-- The result with one conflict of its own conflict state. -/
def Result.addConflict (result : Result) (record : Record)
    (observed : TransactionState) (proofPresent sameRow : Bool) : Result :=
  { result with conflicts := result.conflicts ++
      [⟨record, observed, result.conflictState, sameRow, proofPresent⟩] }

/-! ## Reserving a key -/

/-- The detail of the first check that fails. -/
def validateCommonReservationRequest (request : Request) : Option String :=
  if !validUuidKind request.indexUuid .object || !validUuidKind request.tableUuid .object ||
      !validUuidKind request.constraintUuid .object || !validUuidKind request.rowUuid .row ||
      !validUuidKind request.versionUuid .row ||
      !validUuidKind request.transactionUuid .transaction || request.localTransactionId == 0 then
    some "index table constraint row version and transaction identities are required"
  else if !request.partialPredicateProven then
    some "partial predicate participation must be explicitly proven"
  else if !request.nullPolicyProven then
    some "unique null policy must be explicitly proven"
  else if request.partialPredicateParticipates && request.encodedKey.isEmpty then
    some "participating unique reservation requires an encoded key"
  else none

def sameRowProofRequired (existing : Record) : Result :=
  (refuse "same_row_proof_required" "same-row unique update requires an explicit same-row proof"
    .sameRowProofRequired).addConflict existing .active false true

/-- The result for a request that meets an active transaction. -/
def activeConflict (request : Request) : Result :=
  let detail := "active conflicting transaction owns the same unique key"
  match request.activeConflictPolicy with
  | .waitForMga =>
    { accept .waitForMga "active_conflict_wait" detail with
      conflictState := .waitForMga }
  | .refuseCandidate => refuse "active_conflict_refused" detail .refuseCandidate

/-- How a reservation of another transaction for another row ends the request.
No state of that transaction lets the request go on. -/
def otherRowConflict (request : Request) (existing : Record) : Result :=
  match existing.state with
  | .commitValidated =>
    (refuse "validated_conflict_refused"
      "validated unique reservation from a different row already owns this key"
      .validatedRefused).addConflict existing .committing true false
  | .committedPublished =>
    (refuse "committed_conflict_refused"
      "committed unique reservation from a different row already owns this key"
      .committedRefused).addConflict existing .committed true false
  | .reserved =>
    let unproven := refuse "unsafe_conflict_state"
      "conflicting reservation requires explicit engine MGA transaction state proof"
    match findProof request.transactionStateProofs existing.transactionUuid
        existing.localTransactionId with
    | none => unproven.addConflict existing .none false false
    | some proof =>
      let result :=
        if !proof.hasMgaAuthority then unproven
        else if isActiveOrUnresolved proof.state then activeConflict request
        else if proof.isCommittedState then
          refuse "committed_conflict_refused"
            "committed transaction owns the same unique key" .committedRefused
        else refuse "unsafe_conflict_state"
          "conflicting reservation requires rollback cleanup before reuse"
      result.addConflict existing proof.state true false

/-- One turn of the loop over the reservations: the result that ends the call, or
whether the request goes on as an update of the same row. -/
def weighExisting (request : Request) (existing : Record) : Except Result Bool :=
  if !existing.sameKey request.toClaim then .ok false
  else if sameUuid existing.rowUuid request.rowUuid then
    if !sameRowProofValid request existing then
      .error (sameRowProofRequired existing)
    else .ok true
  else if existing.ofTransaction request.transactionUuid request.localTransactionId then .ok false
  else .error (otherRowConflict request existing)

def weighReservations (request : Request) (sameRowAllowed : Bool) : List Record → Except Result Bool
  | [] => .ok sameRowAllowed
  | existing :: rest => do
      let sameRow ← weighExisting request existing
      weighReservations request (sameRowAllowed || sameRow) rest

def Request.toRecord (request : Request) (sequence : Nat) : Record :=
  { request.toClaim with
    partialPredicateParticipates := true
    reservationSequence := sequence
    reservationEvidenceToken := "unique_reservation:" ++ toString sequence }

def reserveUniqueIndexKey (ledger : Ledger) (request : Request) : Result × Ledger :=
  match validateCommonReservationRequest request with
  | some detail => (refuse "invalid_request" detail, ledger)
  | none =>
    if !request.partialPredicateParticipates then
      (accept .bypassedPartialPredicate "partial_bypass"
        "partial predicate does not participate", ledger)
    else if request.incomingKeyHasNull && request.nullPolicy == .nullsDistinct then
      (accept .bypassedNullsDistinct "nulls_distinct_bypass"
        "nulls-distinct unique key does not reserve a duplicate slot", ledger)
    else match weighReservations request false ledger.reservations with
    | .error result => (result, ledger)
    | .ok sameRowAllowed =>
      let sequence := ledger.nextReservationSequence
      ({ accept .reserved "reserved" "unique key reservation recorded" with
         reservationSequence := sequence
         sameRowUpdateAllowed := sameRowAllowed },
        { reservations := ledger.reservations ++ [request.toRecord sequence]
          nextReservationSequence := sequence + 1 })

/-! ## Validating before the commit -/

/-- The two loops over the reservations of one transaction: the first pair, in
their order, that shares a key without a proof that it is one row. -/
def firstUnprovenPair : List Record → Option (Record × Record)
  | [] => none
  | left :: rest =>
    match rest.find? fun right =>
        left.sameKey right.toClaim && !recordPairHasSameRowProof left right with
    | some right => some (left, right)
    | none => firstUnprovenPair rest

def duplicateInTransaction (left right : Record) (observed : TransactionState) :
    Result :=
  (refuse "commit_duplicate_refused"
    "commit validation found duplicate same-key reservations inside one transaction"
    .duplicateInTransactionRefused).addConflict left observed true
      (sameUuid left.rowUuid right.rowUuid)

/-- How a reservation of another transaction for the same key refuses the commit. -/
def commitConflict (request : CommitValidationRequest) (own other : Record) : Result :=
  let sameRow := sameUuid own.rowUuid other.rowUuid
  match other.state with
  | .commitValidated =>
    (refuse "commit_validated_conflict_refused"
      "commit validation found another validated unique reservation"
      .validatedRefused).addConflict other .committing true sameRow
  | .committedPublished =>
    (refuse "commit_committed_conflict_refused"
      "commit validation found another committed unique reservation"
      .committedRefused).addConflict other .committed true sameRow
  | .reserved =>
    let unproven := refuse "commit_unsafe_conflict_refused"
      "commit validation requires explicit MGA state for every conflicting reservation"
    match findProof request.transactionStateProofs other.transactionUuid
        other.localTransactionId with
    | none => unproven.addConflict other .none false sameRow
    | some proof =>
      let result :=
        if !proof.hasMgaAuthority then unproven
        else if isActiveOrUnresolved proof.state then
          refuse "commit_active_conflict_refused"
            "commit validation found another active same-key transaction" .refuseCandidate
        else if proof.isCommittedState then
          refuse "commit_committed_conflict_refused"
            "commit validation found committed same-key transaction" .committedRefused
        else refuse "commit_unsafe_conflict_refused"
          "conflicting rolled-back reservation must be cleaned before commit validation"
      result.addConflict other proof.state true sameRow

/-- One turn of the inner loop over all reservations. -/
def weighOther (request : CommitValidationRequest) (own other : Record) : Option Result :=
  if other.ofTransaction request.transactionUuid request.localTransactionId ||
      !own.sameKey other.toClaim then none
  else if sameUuid own.rowUuid other.rowUuid && own.provesSameRow then none
  else some (commitConflict request own other)

def firstCommitConflict (request : CommitValidationRequest)
    (reservations own : List Record) : Option Result :=
  own.findSome? fun record => reservations.findSome? (weighOther request record)

/-- A rewriting of the reservations of one transaction. -/
def Ledger.mark (ledger : Ledger) (transactionUuid : TypedUuid)
    (localTransactionId : Nat) (change : Record → Record) : Ledger :=
  { ledger with reservations := ledger.reservations.map fun record =>
      if record.ofTransaction transactionUuid localTransactionId then change record
      else record }

def Ledger.ownReservations (ledger : Ledger) (transactionUuid : TypedUuid)
    (localTransactionId : Nat) : List Record :=
  ledger.reservations.filter (·.ofTransaction transactionUuid localTransactionId)

def validateUniqueIndexCommitBatch (ledger : Ledger)
    (request : CommitValidationRequest) : Result × Ledger :=
  if !validUuidKind request.transactionUuid .transaction || request.localTransactionId == 0 then
    (refuse "invalid_commit_validation" "commit validation requires transaction identity", ledger)
  else match (findProof request.transactionStateProofs request.transactionUuid
      request.localTransactionId).filter (·.activeValidForCommitValidation) with
  | none =>
    (refuse "commit_validation_mga_proof_required"
      "commit validation requires explicit active engine MGA transaction proof", ledger)
  | some ownProof =>
    let own := ledger.ownReservations request.transactionUuid request.localTransactionId
    match firstUnprovenPair own with
    | some (left, right) => (duplicateInTransaction left right ownProof.state, ledger)
    | none =>
      match firstCommitConflict request ledger.reservations own with
      | some result => (result, ledger)
      | none =>
        let token := if request.validationEvidenceToken.isEmpty
          then ownProof.evidenceToken else request.validationEvidenceToken
        (accept .commitValidated "commit_validated" "commit-time unique validation succeeded",
          ledger.mark request.transactionUuid request.localTransactionId fun record => { record with
              state := .commitValidated
              commitValidationEvidenceToken := token })

/-! ## After the commit, or the rollback -/

def publishUniqueIndexCommit (ledger : Ledger) (request : CommitPublicationRequest) :
    Result × Ledger :=
  if !validUuidKind request.transactionUuid .transaction || request.localTransactionId == 0 ||
      !request.durableCommitProof.matchesRequest request.transactionUuid
        request.localTransactionId || !request.durableCommitProof.durableCommitValid then
    (refuse "commit_publication_proof_required"
      "commit publication requires explicit durable MGA commit proof", ledger)
  else if (ledger.ownReservations request.transactionUuid
      request.localTransactionId).any (·.state != .commitValidated) then
    (refuse "commit_publication_validation_required"
      "commit publication requires prior unique commit validation", ledger)
  else
    (accept .commitPublished "commit_published"
      "unique reservation commit publication marked from MGA proof",
      ledger.mark request.transactionUuid request.localTransactionId fun record => { record with
          state := .committedPublished
          commitPublicationEvidenceToken := request.durableCommitProof.evidenceToken })

def cleanupUniqueIndexReservationsForRollback (ledger : Ledger)
    (request : RollbackCleanupRequest) : Result × Ledger :=
  if !validUuidKind request.transactionUuid .transaction || request.localTransactionId == 0 ||
      !request.rollbackProof.matchesRequest request.transactionUuid request.localTransactionId ||
      !request.rollbackProof.durableRollbackValid then
    (refuse "rollback_proof_required"
      "rollback cleanup requires explicit durable MGA rollback proof", ledger)
  else
    let kept := ledger.reservations.filter fun record =>
      !(record.ofTransaction request.transactionUuid request.localTransactionId &&
        record.state != .committedPublished)
    ({ accept .rollbackCleaned "rollback_cleaned"
         "rolled-back transaction reservations removed" with
       reservationsRemoved := ledger.reservations.length - kept.length },
      { ledger with reservations := kept })

/-! ## Sequences of calls -/

inductive Call where
  | reserve (request : Request)
  | validate (request : CommitValidationRequest)
  | publish (request : CommitPublicationRequest)
  | cleanup (request : RollbackCleanupRequest)

def Call.perform (ledger : Ledger) : Call → Result × Ledger
  | .reserve request => reserveUniqueIndexKey ledger request
  | .validate request => validateUniqueIndexCommitBatch ledger request
  | .publish request => publishUniqueIndexCommit ledger request
  | .cleanup request => cleanupUniqueIndexReservationsForRollback ledger request

/-- The ledger after the calls, starting from an empty one. -/
def ledgerAfter (calls : List Call) : Ledger :=
  calls.foldl (fun ledger call => (call.perform ledger).2) {}

end ScratchBird.UniqueIndexReservation
