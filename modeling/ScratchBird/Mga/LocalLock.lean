import ScratchBird.Lib.Map
import ScratchBird.Mga.State

/-!
# The local lock table

`transaction_lock.cpp`. A resource is held by one transaction exclusively or by
several in shared mode, and a transaction that has to wait is queued under its
own number, so it waits for one resource at a time. A waiter is not woken: it
retries, and a retry keeps the place in the queue that the first attempt got.

A request that meets an earlier waiter on its resource queues behind it. Only a
request that meets no waiter looks for a deadlock first, and it looks from one of
the owners.

The search is bounded by the number of held locks in the source, and the bound is
its fuel here. The waits are numbered with a `u64` counter, which is a natural number
here: it would take 2^64 waits to wrap it. Metrics are left out.
-/

namespace ScratchBird.Mga

open Lib

inductive TransactionLockMode where
  | shared | exclusive | unknown
  deriving DecidableEq

inductive TransactionLockDecision where
  | granted | alreadyOwned | waitRequired | timeout | deadlockDetected
  | admissionRefused | invalidRequest
  deriving DecidableEq

structure TransactionWaitPolicy where
  timeoutMillis : Nat := 0
  noWait : Bool := true
  waitStartUnixEpochMillis : Nat := 0
  nowUnixEpochMillis : Nat := 0
  deriving DecidableEq

structure TransactionLockRequest where
  requester : Nat := kInvalidLocalTransactionId
  resourceKey : String := ""
  mode : TransactionLockMode := .exclusive
  waitPolicy : TransactionWaitPolicy := {}
  transactionActive : Bool := true
  deriving DecidableEq

structure TransactionLockResult where
  decision : TransactionLockDecision := .invalidRequest
  blockingTransaction : Nat := kInvalidLocalTransactionId
  retryAfterMillis : Nat := 0
  waitElapsedMillis : Nat := 0
  diagnostic : Option DiagnosticRecord := none
  deriving DecidableEq

structure LockRecord where
  owners : List Nat := []
  mode : TransactionLockMode := .unknown

structure AdmissionPolicy where
  acceptingNewWaits : Bool := true
  maxHeldLocks : Nat := 0
  maxWaiters : Nat := 0

structure WaitingRecord where
  request : TransactionLockRequest
  blockingTransaction : Nat := kInvalidLocalTransactionId
  waitSequence : Nat := 0
  retryCount : Nat := 0
  deriving DecidableEq

structure LocalTransactionLockTable where
  locks : Map String LockRecord := ∅
  waiting : Map Nat WaitingRecord := ∅
  admissionPolicy : AdmissionPolicy := {}
  nextWaitSequence : Nat := 1

def makeTransactionLockDiagnostic (code key : String) (detail : String := "") :
    DiagnosticRecord :=
  { diagnosticCode := code, messageKey := key, detail, sourceComponent := "transaction.mga.lock" }

def lockError (decision : TransactionLockDecision) (code key : String)
    (detail : String := "") : TransactionLockResult :=
  { decision, diagnostic := some (makeTransactionLockDiagnostic code key detail) }

/-! ## Records -/

namespace LockRecord

def owns (record : LockRecord) (owner : Nat) : Bool := record.owners.any (· == owner)

def addOwner (record : LockRecord) (owner : Nat) : LockRecord :=
  if record.owns owner then record
  else { record with owners := record.owners ++ [owner] }

def removeOwner (record : LockRecord) (owner : Nat) : LockRecord :=
  { record with owners := record.owners.filter (· != owner) }

/-- The record after a request in this mode has been admitted. -/
def raise (record : LockRecord) (mode : TransactionLockMode) : LockRecord :=
  if mode = .exclusive then { record with mode := .exclusive } else record

def compatibleWithExisting (record : LockRecord) (requester : Nat)
    (requestedMode : TransactionLockMode) : Bool :=
  if record.owners.isEmpty then true
  else if record.mode = .shared ∧ requestedMode = .shared then true
  else record.owners == [requester]

def firstBlockingOwner (record : LockRecord) (requester : Nat) : Nat :=
  match record.owners.find? (· != requester) with
  | some owner => owner
  | none => record.owners.headD kInvalidLocalTransactionId

end LockRecord

/-! ## Waits -/

def hasDeadlockPath (locks : Map String LockRecord)
    (waiting : Map Nat WaitingRecord) (target : Nat) : Nat → Nat → Bool
  | 0, _ => false
  | fuel + 1, source =>
    if !localIdValid source || !localIdValid target then false
    else if source = target then true
    else match waiting.lookup source with
    | none => false
    | some wait =>
      match locks.lookup wait.request.resourceKey with
      | none => false
      | some record => record.owners.any (hasDeadlockPath locks waiting target fuel)

/-- One step of the scan for the earliest waiter. -/
def earlierWaiter (resourceKey : String) (requester requesterWaitSequence : Nat)
    (earliest : Option WaitingRecord) (wait : WaitingRecord) : Option WaitingRecord :=
  if wait.request.resourceKey ≠ resourceKey ∨ wait.request.requester = requester then earliest
  else if requesterWaitSequence ≠ 0 ∧ wait.waitSequence ≥ requesterWaitSequence then earliest
  else match earliest with
  | none => some wait
  | some best => if wait.waitSequence < best.waitSequence then some wait else earliest

def earliestPriorWaiterForResource (waiting : Map Nat WaitingRecord)
    (resourceKey : String) (requester requesterWaitSequence : Nat) : Option WaitingRecord :=
  (Map.values waiting).foldl (earlierWaiter resourceKey requester requesterWaitSequence) none

namespace TransactionWaitPolicy

def deadlineExpired (policy : TransactionWaitPolicy) : Bool :=
  if policy.noWait || policy.timeoutMillis == 0 then true
  else if policy.waitStartUnixEpochMillis == 0 || policy.nowUnixEpochMillis == 0 then false
  else if policy.nowUnixEpochMillis ≤ policy.waitStartUnixEpochMillis then false
  else policy.nowUnixEpochMillis - policy.waitStartUnixEpochMillis ≥ policy.timeoutMillis

def waitElapsedMillis (policy : TransactionWaitPolicy) : Nat :=
  if policy.waitStartUnixEpochMillis = 0 ∨ policy.nowUnixEpochMillis = 0 ∨
      policy.nowUnixEpochMillis ≤ policy.waitStartUnixEpochMillis then 0
  else policy.nowUnixEpochMillis - policy.waitStartUnixEpochMillis

def retryAfterMillis (policy : TransactionWaitPolicy) : Nat :=
  if policy.timeoutMillis = 0 then 0
  else if policy.waitElapsedMillis ≥ policy.timeoutMillis then 0
  else policy.timeoutMillis - policy.waitElapsedMillis

end TransactionWaitPolicy

/-! ## The table -/

namespace LocalTransactionLockTable

def setAdmissionPolicy (table : LocalTransactionLockTable)
    (policy : AdmissionPolicy) : LocalTransactionLockTable :=
  { table with admissionPolicy := policy }

/-- The requester is among the owners of the record, and waits no more. -/
def grant (table : LocalTransactionLockTable) (request : TransactionLockRequest)
    (record : LockRecord) : LocalTransactionLockTable :=
  { table with
    locks := table.locks.insert request.resourceKey record
    waiting := table.waiting.erase request.requester }

def refusesWaits (table : LocalTransactionLockTable) : Bool :=
  !table.admissionPolicy.acceptingNewWaits || (table.admissionPolicy.maxWaiters != 0 &&
      decide (Map.size table.waiting ≥ table.admissionPolicy.maxWaiters))

/-- A first attempt takes the next number, a retry keeps the one it has. -/
def queue (table : LocalTransactionLockTable) (request : TransactionLockRequest)
    (blocker preservedWaitSequence retryCount : Nat) :
    LocalTransactionLockTable :=
  { table with
    waiting := table.waiting.insert request.requester
      { request
        blockingTransaction := blocker
        waitSequence :=
          if preservedWaitSequence = 0 then table.nextWaitSequence
          else preservedWaitSequence
        retryCount }
    nextWaitSequence :=
      if preservedWaitSequence = 0 then table.nextWaitSequence + 1
      else table.nextWaitSequence }

def waitResult (request : TransactionLockRequest) (blocker : Nat)
    (code key : String) : TransactionLockResult :=
  { lockError .waitRequired code key request.resourceKey with
    blockingTransaction := blocker
    retryAfterMillis := request.waitPolicy.retryAfterMillis
    waitElapsedMillis := request.waitPolicy.waitElapsedMillis }

/-- Behind an earlier waiter. -/
def waitFairly (table : LocalTransactionLockTable)
    (request : TransactionLockRequest) (preservedWaitSequence : Nat) (prior : WaitingRecord) :
    TransactionLockResult × LocalTransactionLockTable :=
  let blocker := prior.request.requester
  if request.waitPolicy.deadlineExpired then
    let timeout :=
      if request.waitPolicy.noWait then
        lockError .timeout "SB-SNTXN-LOCK-TIMEOUT" "transaction.lock.timeout" request.resourceKey
      else
        lockError .timeout "SB-SNTXN-LOCK-FAIRNESS-TIMEOUT"
          "transaction.lock.fairness_timeout" request.resourceKey
    ({ timeout with
       blockingTransaction := blocker
       waitElapsedMillis := request.waitPolicy.waitElapsedMillis }, table)
  else if table.refusesWaits then
    ({ lockError .admissionRefused "SB-SNTXN-LOCK-ADMISSION-REFUSED"
         "transaction.lock.admission_refused" "fairness_wait_admission" with
       blockingTransaction := blocker }, table)
  else
    (waitResult request blocker "SB-SNTXN-LOCK-FAIRNESS-WAIT" "transaction.lock.fairness_wait",
      table.queue request blocker preservedWaitSequence
        (if preservedWaitSequence = 0 then 0 else prior.retryCount + 1))

/-- For an owner, with no waiter to queue behind. -/
def waitForOwner (table : LocalTransactionLockTable)
    (request : TransactionLockRequest) (preservedWaitSequence : Nat)
    (record : LockRecord) : TransactionLockResult × LocalTransactionLockTable :=
  let blocker := record.firstBlockingOwner request.requester
  if hasDeadlockPath table.locks table.waiting request.requester
      (Map.size table.locks + 2) blocker then
    ({ lockError .deadlockDetected "SB-SNTXN-DEADLOCK-DETECTED"
         "transaction.lock.deadlock_detected" request.resourceKey with
       blockingTransaction := blocker }, table)
  else if request.waitPolicy.deadlineExpired then
    ({ lockError .timeout "SB-SNTXN-LOCK-TIMEOUT" "transaction.lock.timeout"
         request.resourceKey with
       blockingTransaction := blocker
       waitElapsedMillis := request.waitPolicy.waitElapsedMillis }, table)
  else if table.refusesWaits then
    ({ lockError .admissionRefused "SB-SNTXN-LOCK-ADMISSION-REFUSED"
         "transaction.lock.admission_refused" "wait_admission" with
       blockingTransaction := blocker }, table)
  else
    (waitResult request blocker "SB-SNTXN-LOCK-WAIT-REQUIRED" "transaction.lock.wait_required",
      table.queue request blocker preservedWaitSequence
        (if preservedWaitSequence = 0 then 0 else 1))

/-- The waiter a request has to queue behind. An owner queues behind nobody. -/
def priorWaiter (table : LocalTransactionLockTable) (record : LockRecord)
    (request : TransactionLockRequest) (preservedWaitSequence : Nat) : Option WaitingRecord :=
  if record.owns request.requester then none
  else earliestPriorWaiterForResource table.waiting request.resourceKey
    request.requester preservedWaitSequence

def acquireInternal (table : LocalTransactionLockTable)
    (request : TransactionLockRequest) (preservedWaitSequence : Nat) :
    TransactionLockResult × LocalTransactionLockTable :=
  if !localIdValid request.requester || request.resourceKey.isEmpty ||
      request.mode == .unknown || !request.transactionActive then
    (lockError .invalidRequest "SB-SNTXN-LOCK-INVALID-REQUEST"
      "transaction.lock.invalid_request", table)
  else if table.admissionPolicy.maxHeldLocks ≠ 0 ∧
      Map.size table.locks ≥ table.admissionPolicy.maxHeldLocks ∧
      table.locks.lookup request.resourceKey = none then
    (lockError .admissionRefused "SB-SNTXN-LOCK-ADMISSION-REFUSED"
      "transaction.lock.admission_refused" "max_held_locks", table)
  else match table.locks.lookup request.resourceKey with
  | none =>
    ({ decision := .granted },
      table.grant request { owners := [request.requester], mode := request.mode })
  | some record =>
  if record.owns request.requester && (record.mode == .exclusive || record.mode == request.mode ||
        record.compatibleWithExisting request.requester request.mode) then
    ({ decision := .alreadyOwned }, table.grant request (record.raise request.mode))
  else match table.priorWaiter record request preservedWaitSequence with
  | some prior => table.waitFairly request preservedWaitSequence prior
  | none =>
  if record.compatibleWithExisting request.requester request.mode then
    ({ decision := .granted }, table.grant request
        ((record.raise request.mode).addOwner request.requester))
  else table.waitForOwner request preservedWaitSequence record

def acquire (table : LocalTransactionLockTable) (request : TransactionLockRequest) :
    TransactionLockResult × LocalTransactionLockTable := table.acquireInternal request 0

def retry (table : LocalTransactionLockTable) (requester : Nat) :
    TransactionLockResult × LocalTransactionLockTable :=
  match table.waiting.lookup requester with
  | none =>
    (lockError .invalidRequest "SB-SNTXN-LOCK-INVALID-RETRY"
      "transaction.lock.invalid_retry", table)
  | some wait =>
    { table with waiting := table.waiting.erase requester }.acquireInternal
      wait.request wait.waitSequence

/-- Takes an owner off one resource, and the resource off the table with its last
owner. -/
def dropOwner (owner : Nat) (locks : Map String LockRecord)
    (resourceKey : String) : Map String LockRecord :=
  match locks.lookup resourceKey with
  | none => locks
  | some record =>
    if (record.removeOwner owner).owners.isEmpty then locks.erase resourceKey
    else locks.insert resourceKey (record.removeOwner owner)

def release (table : LocalTransactionLockTable) (owner : Nat)
    (resourceKey : String) : TransactionLockResult × LocalTransactionLockTable :=
  match table.locks.lookup resourceKey with
  | none =>
    (lockError .invalidRequest "SB-SNTXN-LOCK-INVALID-RELEASE"
      "transaction.lock.invalid_release" resourceKey, table)
  | some record =>
    if !record.owns owner then
      (lockError .invalidRequest "SB-SNTXN-LOCK-INVALID-RELEASE"
        "transaction.lock.invalid_release" resourceKey, table)
    else
      ({ decision := .granted },
        { table with
          locks := dropOwner owner table.locks resourceKey
          waiting := table.waiting.erase owner })

/-- The number of locks released, and the table without them. -/
def releaseAll (table : LocalTransactionLockTable) (owner : Nat) :
    Nat × LocalTransactionLockTable :=
  ((Map.values table.locks).countP (·.owns owner),
    { table with
      locks := table.locks.keys.foldl (dropOwner owner) table.locks
      waiting := table.waiting.erase owner })

end LocalTransactionLockTable

/-! ## Runs -/

inductive LockOperation where
  | setAdmissionPolicy (policy : AdmissionPolicy)
  | acquire (request : TransactionLockRequest)
  | retry (requester : Nat)
  | release (owner : Nat) (resourceKey : String)
  | releaseAll (owner : Nat)

namespace LocalTransactionLockTable

/-- What a call returns if it is one that decides a request, and the table after
it. -/
def apply (table : LocalTransactionLockTable) :
    LockOperation → Option TransactionLockResult × LocalTransactionLockTable
  | .setAdmissionPolicy policy => (none, table.setAdmissionPolicy policy)
  | .acquire request => (table.acquire request).map some id
  | .retry requester => (table.retry requester).map some id
  | .release owner resourceKey => (none, (table.release owner resourceKey).2)
  | .releaseAll owner => (none, (table.releaseAll owner).2)

def run (operations : List LockOperation) : LocalTransactionLockTable :=
  operations.foldl (fun table operation => (table.apply operation).2) {}

end LocalTransactionLockTable

end ScratchBird.Mga
