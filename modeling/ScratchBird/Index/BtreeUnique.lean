import ScratchBird.Index.BtreeRun

/-!
# Inserting into a unique index

`InsertUniqueIndexBtreeCell`: the live cells with the incoming key are looked for
below the root, and the cell is inserted only when there are none, or when all
belong to the row that a proof names and none is the incoming version itself. A
conflict is an answer, not a refusal. The flags of a candidate that the source
sets to constants, and the evidence strings, are left out; a policy outside its
enumeration has no value here.

A run of such calls and deletions goes on after a refusal, with whatever tree the
refused call left behind.
-/

namespace ScratchBird.Btree

open Lib
open Index (Bytes)

inductive IndexBtreePhysicalUniqueNullPolicy where
  | nullsDistinct | nullsNotDistinct
  deriving DecidableEq

inductive IndexBtreePhysicalUniqueActiveDuplicatePolicy where
  | waitForMga | refuseCandidate
  deriving DecidableEq

inductive IndexBtreePhysicalUniqueConflictState where
  | none | waitForMga | refuseCandidate
  deriving DecidableEq

structure IndexBtreePhysicalUniqueInsertRequest where
  cell : IndexBtreeCell
  nullPolicy : IndexBtreePhysicalUniqueNullPolicy := .nullsDistinct
  activeDuplicatePolicy : IndexBtreePhysicalUniqueActiveDuplicatePolicy := .waitForMga
  incomingKeyHasNull : Bool := false
  partialPredicateParticipates : Bool := true
  allowSameRowUpdate : Bool := false
  sameRowProofUuid : TypedUuid := {}

structure IndexBtreePhysicalUniqueConflictCandidate where
  encodedKey : Bytes
  rowUuid : TypedUuid
  versionUuid : TypedUuid
  leafPageNumber : UInt64
  cellOrdinal : Nat
  sameRow : Bool
  exactLiveEntry : Bool

structure IndexBtreePhysicalUniqueInsertResult where
  inserted : Bool := false
  bypassedPartialPredicate : Bool := false
  nullExemptFromConflict : Bool := false
  conflict : Bool := false
  sameRowUpdateAllowed : Bool := false
  conflictState : IndexBtreePhysicalUniqueConflictState := .none
  insertResult : Option IndexBtreePhysicalInsertResult := Option.none
  conflictCandidates : List IndexBtreePhysicalUniqueConflictCandidate := []

/-- Also `SameVersionUuid`. -/
def sameRowUuid (left right : TypedUuid) : Bool :=
  left.valid && right.valid && compareUuid128 left.value right.value == .eq

def uniqueSameRowProofValid (request : IndexBtreePhysicalUniqueInsertRequest) :
    Bool :=
  request.allowSameRowUpdate && request.sameRowProofUuid.valid &&
    sameRowUuid request.sameRowProofUuid request.cell.rowUuid

def uniqueCandidateFromCell (existing incoming : IndexBtreeCell)
    (leafPageNumber : UInt64) (cellOrdinal : Nat) :
    IndexBtreePhysicalUniqueConflictCandidate :=
  { encodedKey := existing.encodedKey
    rowUuid := existing.rowUuid
    versionUuid := existing.versionUuid
    leafPageNumber
    cellOrdinal
    sameRow := sameRowUuid existing.rowUuid incoming.rowUuid
    exactLiveEntry := sameRowUuid existing.rowUuid incoming.rowUuid &&
      sameRowUuid existing.versionUuid incoming.versionUuid }

def leafCandidates (incoming : IndexBtreeCell) (leaf : IndexBtreePageBody) :
    List IndexBtreePhysicalUniqueConflictCandidate :=
  (leaf.cells.zipIdx.filter fun (cell, _) =>
    !(cell.deleted || cell.highKey) &&
      compareEncodedKeysOnly cell.encodedKey incoming.encodedKey == .eq).map
        fun (cell, i) => uniqueCandidateFromCell cell incoming leaf.pageNumber i

/-- The scan for the live cells with the incoming key. -/
def uniqueProbe (cell : IndexBtreeCell) : IndexBtreePhysicalScanRequest :=
  { mode := .point, pointKey := cell.encodedKey }

def collectUniqueConflictCandidates (tree : IndexBtreePhysicalTree)
    (incoming : IndexBtreeCell) : Except DiagnosticRecord
      (List IndexBtreePhysicalUniqueConflictCandidate) := do
  let state ← atStage "unique_probe_collect_failed"
    (collectPrunedScanLeaves tree (uniqueProbe incoming)
      (tree.pages.length + 1) 0 tree.rootPageNumber {})
  .ok (state.leaves.flatMap (leafCandidates incoming))

def nullExempt (request : IndexBtreePhysicalUniqueInsertRequest) : Bool :=
  request.incomingKeyHasNull && request.nullPolicy == .nullsDistinct

/-- Whether the candidates are versions of the row that the request may update,
without the incoming version among them. -/
def sameRowUpdate (request : IndexBtreePhysicalUniqueInsertRequest)
    (candidates : List IndexBtreePhysicalUniqueConflictCandidate) : Bool :=
  uniqueSameRowProofValid request && candidates.all (·.sameRow) &&
    !candidates.any (·.exactLiveEntry)

/-- The cell that is inserted: a live cell of a leaf. -/
def validationCell (cell : IndexBtreeCell) : IndexBtreeCell :=
  { cell with highKey := false, deleted := false, childPageNumber := 0 }

def insertUniqueIndexBtreeCell (request : IndexBtreePhysicalUniqueInsertRequest) :
    TreeM IndexBtreePhysicalUniqueInsertResult := do
  let tree ← get
  if tree.rootPageNumber = 0 then
    treeError "SB-INDEX-BTREE-PHYSICAL-TREE-INVALID" "storage.index_btree_physical.tree_invalid"
  else if !request.partialPredicateParticipates then
    pure { bypassedPartialPredicate := true }
  else do
    ofOutcome (validatePhysicalPageBody (requestProbe tree (validationCell request.cell)))
    let candidates ← ofOutcome (if nullExempt request then .ok [] else
      collectUniqueConflictCandidates tree request.cell)
    if candidates ≠ [] ∧ !sameRowUpdate request candidates then
      pure
        { conflict := true
          conflictState := match request.activeDuplicatePolicy with
            | .refuseCandidate => .refuseCandidate
            | .waitForMga => .waitForMga
          conflictCandidates := candidates }
    else do
      let inserted ← insertIndexBtreeCell (validationCell request.cell)
      pure
        { inserted := inserted.inserted
          nullExemptFromConflict := nullExempt request
          sameRowUpdateAllowed := candidates ≠ []
          insertResult := some inserted
          conflictCandidates := candidates }

/-! ## Runs -/

inductive UniqueCall where
  | insertUnique (request : IndexBtreePhysicalUniqueInsertRequest)
  | delete (cell : IndexBtreeCell)

def UniqueCall.perform (call : UniqueCall) : TreeM Unit :=
  match call with
  | .insertUnique request => do
      let _ ← insertUniqueIndexBtreeCell request
      pure ()
  | .delete cell => do
      let _ ← deleteIndexBtreeCell cell
      pure ()

/-- An insertion that claims neither a null exemption nor a proof that it updates
its own row. -/
def UniqueCall.claimsNothing (call : UniqueCall) : Prop :=
  match call with
  | .insertUnique request => nullExempt request = false ∧ uniqueSameRowProofValid request = false
  | .delete _ => True

/-- The tree a call leaves behind, whether it succeeds or is refused. -/
def UniqueCall.after (call : UniqueCall) (tree : IndexBtreePhysicalTree) :
    IndexBtreePhysicalTree :=
  (call.perform.run.run tree).2

/-- Trees reached by calls that `admits` lets happen, refused ones among them. -/
inductive ReachedByCalls (admits : IndexBtreePhysicalTree → UniqueCall → Prop) :
    IndexBtreePhysicalTree → Prop where
  | initialized {index : TypedUuid} {pageSize : UInt32} {tree : IndexBtreePhysicalTree}
      (h : initializeIndexBtreePhysicalTree index pageSize = .ok tree) : ReachedByCalls admits tree
  | called {tree : IndexBtreePhysicalTree} {call : UniqueCall}
      (before : ReachedByCalls admits tree) (admitted : admits tree call) :
      ReachedByCalls admits (call.after tree)

def anyUniqueCall (_ : IndexBtreePhysicalTree) (call : UniqueCall) : Prop := call.claimsNothing

/-- The keys of all live cells below the root, in order. -/
def liveKeys (tree : IndexBtreePhysicalTree) : Except DiagnosticRecord (List Bytes) :=
  (fun result => result.locators.map (·.encodedKey)) <$> scanIndexBtreePhysicalTree tree {}

end ScratchBird.Btree
