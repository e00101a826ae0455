import ScratchBird.Platform
import ScratchBird.Lib.Closure

/-!
# Transaction states and their transitions

The lifecycle of a transaction: the states, the table of permitted edges, and
the identity a transaction carries. The table is the source's own, edge by edge
and in its order, because two readers consult it. `checkTransactionStateTransition`
asks whether one step is allowed, and `stateReachable` asks whether some sequence
of steps could have led from one state to another, recovery edges included. The
second is how a validator that sees only two inventories decides whether the
later one can have come from the earlier.
-/

namespace ScratchBird.Mga

open Lib

variable {source target : TransactionState}

def kInvalidLocalTransactionId : Nat := 0

inductive TransactionScope where
  | localNode | clusterGlobal | unknown
  deriving DecidableEq

inductive TransactionState where
  | none | created | active | preparing | prepared | committing | committed
  | rollingBack | rolledBack | limbo | recovering | failedTerminal | archived
  | readOnlyActive
  deriving DecidableEq

inductive TransactionTransitionClass where
  | user | coordinator | recovery | cleanup | invalid
  deriving DecidableEq

structure TransactionIdentity where
  localId : Nat := kInvalidLocalTransactionId
  transactionUuid : TypedUuid := {}
  scope : TransactionScope := .unknown
  deriving DecidableEq

def localIdValid (id : Nat) : Bool := id != kInvalidLocalTransactionId

def TransactionIdentity.valid (i : TransactionIdentity) : Bool :=
  localIdValid i.localId && i.transactionUuid.kind == .transaction &&
    i.transactionUuid.valid && i.scope != .unknown

structure TransactionStateTransition where
  source : TransactionState
  target : TransactionState
  transitionClass : TransactionTransitionClass
  recoveryOnly : Bool
  stableName : String

def transactionStateName : TransactionState → String
  | .none => "none"
  | .created => "created"
  | .active => "active"
  | .preparing => "preparing"
  | .prepared => "prepared"
  | .committing => "committing"
  | .committed => "committed"
  | .rollingBack => "rolling_back"
  | .rolledBack => "rolled_back"
  | .limbo => "limbo"
  | .recovering => "recovering"
  | .failedTerminal => "failed_terminal"
  | .archived => "archived"
  | .readOnlyActive => "read_only_active"

def isTerminalTransactionState (s : TransactionState) : Bool :=
  s == .committed || s == .rolledBack || s == .failedTerminal || s == .archived

def builtinTransactionStateTransitions : List TransactionStateTransition :=
  [⟨.none, .created, .coordinator, false, "allocate_transaction"⟩,
   ⟨.created, .active, .user, false, "begin_transaction"⟩,
   ⟨.created, .readOnlyActive, .user, false, "begin_read_only_transaction"⟩,
   ⟨.created, .rollingBack, .user, false, "abort_created_transaction"⟩,
   ⟨.readOnlyActive, .committing, .coordinator, false, "commit_read_only_transaction"⟩,
   ⟨.readOnlyActive, .rollingBack, .user, false, "rollback_read_only_transaction"⟩,
   ⟨.active, .preparing, .coordinator, false, "enter_prepare"⟩,
   ⟨.preparing, .prepared, .coordinator, false, "finish_prepare"⟩,
   ⟨.prepared, .committing, .coordinator, false, "commit_decision_known"⟩,
   ⟨.committing, .committed, .coordinator, false, "publish_commit"⟩,
   ⟨.active, .rollingBack, .user, false, "rollback_active"⟩,
   ⟨.preparing, .rollingBack, .coordinator, false, "rollback_preparing"⟩,
   ⟨.prepared, .rollingBack, .coordinator, false, "rollback_prepared"⟩,
   ⟨.rollingBack, .rolledBack, .coordinator, false, "publish_rollback"⟩,
   ⟨.prepared, .limbo, .recovery, false, "prepared_enter_limbo"⟩,
   ⟨.committing, .limbo, .recovery, false, "committing_enter_limbo"⟩,
   ⟨.limbo, .recovering, .recovery, true, "recover_limbo"⟩,
   ⟨.recovering, .committed, .recovery, true, "recovered_commit"⟩,
   ⟨.recovering, .rolledBack, .recovery, true, "recovered_rollback"⟩,
   ⟨.recovering, .failedTerminal, .recovery, true, "recovery_failed_terminal"⟩,
   ⟨.committed, .archived, .cleanup, false, "archive_committed_transaction"⟩,
   ⟨.rolledBack, .archived, .cleanup, false, "archive_rolled_back_transaction"⟩,
   ⟨.failedTerminal, .archived, .cleanup, false, "archive_failed_terminal_transaction"⟩]

def makeTransactionDiagnostic (code key : String) (detail : String := "") :
    DiagnosticRecord :=
  { diagnosticCode := code, messageKey := key, detail, sourceComponent := "transaction.mga.state" }

def validateTransactionIdentity (i : TransactionIdentity) :
    Except DiagnosticRecord TransactionIdentity :=
  if !localIdValid i.localId then
    .error (makeTransactionDiagnostic "SB-TXN-INVALID-LOCAL-TRANSACTION-ID"
      "transaction.invalid_local_transaction_id")
  else if i.transactionUuid.kind != .transaction || !i.transactionUuid.valid then
    .error (makeTransactionDiagnostic "SB-TXN-INVALID-TRANSACTION-UUID-KIND"
      "transaction.invalid_transaction_uuid_kind")
  else if !isEngineIdentityUuid i.transactionUuid.value then
    .error (makeTransactionDiagnostic "SB-TXN-UUID-MUST-BE-V7"
      "transaction.transaction_uuid_must_be_v7")
  else if i.scope == .unknown then
    .error (makeTransactionDiagnostic "SB-TXN-UNKNOWN-TRANSACTION-SCOPE"
      "transaction.unknown_transaction_scope")
  else .ok i

def makeTransactionIdentity (localId : Nat) (uuid : TypedUuid)
    (scope : TransactionScope) : Except DiagnosticRecord TransactionIdentity :=
  validateTransactionIdentity ⟨localId, uuid, scope⟩

def checkTransactionStateTransition (source target : TransactionState)
    (recoveryContext : Bool) : Except DiagnosticRecord TransactionStateTransition :=
  match builtinTransactionStateTransitions.find?
      (fun t => t.source == source && t.target == target) with
  | some t =>
    if t.recoveryOnly && !recoveryContext then
      .error (makeTransactionDiagnostic "SB-TXN-TRANSITION-REQUIRES-RECOVERY-CONTEXT"
        "transaction.transition_requires_recovery_context" t.stableName)
    else .ok t
  | none =>
    .error (makeTransactionDiagnostic "SB-TXN-STATE-INVALID-TRANSITION"
      "transaction.illegal_state_transition"
      (transactionStateName source ++ "->" ++ transactionStateName target))

def transactionStates : List TransactionState :=
  [.none, .created, .active, .preparing, .prepared, .committing, .committed,
   .rollingBack, .rolledBack, .limbo, .recovering, .failedTerminal, .archived, .readOnlyActive]

def hasTransition (source target : TransactionState) : Bool :=
  builtinTransactionStateTransitions.any (fun t => t.source == source && t.target == target)

/-- The `reachable` table of the evolution validator: every state reaches
itself, every edge is a path, and the paths are closed pivot by pivot. -/
def reachablePaths : List (List Bool) :=
  warshall transactionStates (tabulate transactionStates fun i j => i == j || hasTransition i j)

def stateReachable (source target : TransactionState) : Bool :=
  cellAt transactionStates reachablePaths source target

/-! ## What the table says -/

def Edge (source target : TransactionState) : Prop := hasTransition source target = true

theorem mem_transactionStates (s : TransactionState) : s ∈ transactionStates := by
  cases s <;> decide

theorem stateReachable_iff :
    stateReachable source target = true ↔ Relation.ReflTransGen Edge source target := by
  unfold stateReachable reachablePaths
  rw [cellAt_warshall_iff mem_transactionStates (by simp)]
  constructor
  · intro h
    apply h.lift' id
    intro a b hab
    rcases Bool.or_eq_true_iff.mp hab with heq | hedge
    · obtain rfl : a = b := by simpa using heq
      exact Relation.ReflTransGen.refl
    · exact Relation.ReflTransGen.single hedge
  · intro h
    refine h.lift id ?_
    intro a b hab
    exact Bool.or_eq_true_iff.mpr (.inr hab)

theorem edge_of_check {ctx : Bool} {t : TransactionStateTransition}
    (h : checkTransactionStateTransition source target ctx = .ok t) : Edge source target := by
  unfold checkTransactionStateTransition at h
  split at h
  · next t' hfind =>
    exact List.any_eq_true.mpr
      ⟨t', List.mem_of_find?_eq_some hfind, by simpa using List.find?_some hfind⟩
  · cases h

theorem not_terminal_of_edge (h : Edge source target) (hne : target ≠ .archived) :
    isTerminalTransactionState source = false := by
  unfold Edge at h
  revert h hne
  cases source <;> cases target <;> decide

theorem origin_of_edge_archived (h : Edge source .archived) :
    source = .committed ∨ source = .rolledBack ∨ source = .failedTerminal := by
  unfold Edge at h
  revert h
  cases source <;> decide

theorem stateReachable_refl (s : TransactionState) :
    stateReachable s s = true := stateReachable_iff.mpr Relation.ReflTransGen.refl

theorem stateReachable_of_edge (h : Edge source target) : stateReachable source target = true :=
  stateReachable_iff.mpr (Relation.ReflTransGen.single h)

theorem stateReachable_trans {a b c : TransactionState}
    (hab : stateReachable a b = true) (hbc : stateReachable b c = true) :
    stateReachable a c = true :=
  stateReachable_iff.mpr ((stateReachable_iff.mp hab).trans (stateReachable_iff.mp hbc))

theorem validateTransactionIdentity_ok {i j : TransactionIdentity}
    (h : validateTransactionIdentity i = .ok j) :
    j = i ∧ i.valid = true ∧ isEngineIdentityUuid i.transactionUuid.value = true := by
  unfold validateTransactionIdentity at h
  split at h
  · cases h
  split at h
  · cases h
  split at h
  · cases h
  split at h
  · cases h
  next hid hkind huuid hscope =>
  simp only [TransactionIdentity.valid]
  simp_all

end ScratchBird.Mga
