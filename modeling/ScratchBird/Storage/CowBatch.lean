import ScratchBird.Storage.CowStore

/-!
# Batches of mutations

`WritePhysicalMgaCowUnpublishedMutationBatchToOpenDevice`. All mutations of a
batch belong to one open transaction. They are staged on copies of the pages they
touch, one after the other, and only when every page could be built does the
batch write anything: it marks its transaction rollback-only in the inventory,
writes the pages, and takes the mark off again.

A mutation is staged as a single mutation is performed, with one exception: an
insert with a slot of its own, on a page that had no rows when the batch loaded
it, does not look for a base. Its row gets the version 1.

As in the single calls I/O succeeds here; `InventoryPublication` has the same
batch write by write. Evidence strings, page and file identities, I/O counters,
native catalog names and receiving schemas are left out.
-/

namespace ScratchBird.Storage

open Lib Mga

/-- Version identities issued in advance. `authentic` says that the batch was
sealed for this database and that its digest matches. -/
structure PhysicalMgaCowVersionBatch where
  relation : Uuid
  transaction : Uuid
  localId : Nat
  rows : List Uuid
  versions : List Uuid
  authentic : Bool
  claimed : Bool

structure PhysicalMgaCowMutationBatch (κ : Type) where
  mutations : List (PhysicalMgaCowMutation κ)
  syncAfterBatch : Bool := true
  engineGeneratedUniqueInsertRows : Bool := false
  versionIdentityBatch : Option PhysicalMgaCowVersionBatch := none

structure PhysicalMgaCowRowReceipt where
  relationUuid : TypedUuid
  rowUuid : TypedUuid
  creator : TransactionIdentity
  versionUuid : Uuid
  previousVersionUuid : Uuid
  pageNumber : Nat
  rowVersion : Nat
  storageGeneration : Nat
  stableSlotId : Nat
  deleted : Bool
  pageGeneration : Nat := 0

structure PhysicalMgaCowMutationBatchResult where
  writtenRows : Nat
  pagesWritten : Nat
  rowReceipts : List PhysicalMgaCowRowReceipt

/-- `unresolvedMutationTransaction` names the transaction a failed batch may have
left marked. -/
structure PhysicalMgaCowMutationBatchFailure where
  diagnostic : DiagnosticRecord
  unresolvedMutationTransaction : TransactionIdentity := {}

variable {κ : Type}

/-! ## Issued identities -/

def claimsMutation (source : PhysicalMgaCowVersionBatch) (row version : Uuid)
    (mutation : PhysicalMgaCowMutation κ) : Bool :=
  mutation.kind == .insert && decide (mutation.relationUuid.value = source.relation) &&
    decide (mutation.rowUuid.value = row) &&
    decide (mutation.transactionUuid.value = source.transaction) &&
    mutation.useExistingTransaction &&
    mutation.existingLocalTransactionId == source.localId &&
    isEngineIdentityUuid row && isEngineIdentityUuid version

def claimVersionBatch (source : PhysicalMgaCowVersionBatch)
    (mutations : List (PhysicalMgaCowMutation κ)) : Bool :=
  source.rows.length == mutations.length && source.versions.length == source.rows.length &&
    ((source.rows.zip source.versions).zip mutations).all
      (fun c => claimsMutation source c.1.1 c.1.2 c.2) && source.authentic && !source.claimed

/-- The version identity of the mutation at `ordinal`. -/
def versionFor (request : PhysicalMgaCowMutationBatch κ)
    (issued : Nat → Except DiagnosticRecord TypedUuid) (ordinal : Nat) :
    Except DiagnosticRecord Uuid :=
  match request.versionIdentityBatch with
  | some source => .ok ((source.versions[ordinal]?).getD Uuid.nil)
  | none => (·.value) <$> issued ordinal

/-! ## Staging -/

/-- A page of the batch: the rows staged so far, whether it was empty when
loaded, and the rows inserted without looking for a base. -/
structure StagedPage (κ : Type) where
  body : RowDataPageBody κ
  startedEmpty : Bool
  insertedRows : List Uuid := []

def StagedPage.pageNumber (page : StagedPage κ) : Nat := page.body.pageNumber

structure BatchStage (κ : Type) where
  pages : List (StagedPage κ) := []
  receipts : List PhysicalMgaCowRowReceipt := []

def rowReceipt (entry : TransactionInventoryEntry)
    (request : PhysicalMgaCowMutation κ) (row : RowDataRecord κ) :
    PhysicalMgaCowRowReceipt :=
  { relationUuid := request.relationUuid
    rowUuid := row.rowUuid
    creator := entry.identity
    versionUuid := row.versionUuid
    previousVersionUuid := row.previousVersionUuid
    pageNumber := request.pageNumber
    rowVersion := row.rowVersion
    storageGeneration := row.storageGeneration
    stableSlotId := row.stableSlotId
    deleted := row.deleted }

def loadStagedPage (device : CowDevice κ) (inventory : LocalTransactionInventory)
    (request : PhysicalMgaCowMutation κ) : Except DiagnosticRecord (StagedPage κ) := do
  let loaded ← readRowDataPage device request.relationUuid request.pageNumber
    request.predecessorPageNumber
  if ¬loaded.rows.isEmpty ∧ loaded.pageGeneration = u64Max then
    cowError "CATALOG.INVALID_INPUT" "storage.physical_mga_cow.page_generation_exhausted"
  else do
    validateRowCreators inventory loaded.rows
    return {
      body := advancePageGeneration loaded
      startedEmpty := loaded.rows.isEmpty }

def findStagedPage (device : CowDevice κ) (inventory : LocalTransactionInventory)
    (pages : List (StagedPage κ)) (request : PhysicalMgaCowMutation κ) :
    Except DiagnosticRecord (StagedPage κ) :=
  match lookup StagedPage.pageNumber request.pageNumber pages with
  | none => loadStagedPage device inventory request
  | some page =>
    if page.body.relationUuid ≠ request.relationUuid then
      cowError "SB-PHYSICAL-MGA-COW-RELATION-MISMATCH" "storage.physical_mga_cow.relation_mismatch"
        (toString request.pageNumber)
    else .ok page

def BatchStage.putPage (stage : BatchStage κ) (page : StagedPage κ) : List (StagedPage κ) :=
  match lookup StagedPage.pageNumber page.pageNumber stage.pages with
  | none => stage.pages ++ [page]
  | some _ => modify StagedPage.pageNumber page.pageNumber (fun _ => page) stage.pages

def insertedVersion (page : RowDataPageBody κ)
    (entry : TransactionInventoryEntry) (request : PhysicalMgaCowMutation κ)
    (versionUuid : Uuid) : RowDataRecord κ :=
  { storageGeneration := page.pageGeneration, versionUuid
    rowUuid := request.rowUuid
    transactionUuid := request.transactionUuid
    localTransactionId := entry.localId
    stableSlotId := request.stableSlotId
    rowVersion := 1
    cells := request.cells }

/-- An insert on a page that started empty. -/
def stageInsert (unique : Bool) (entry : TransactionInventoryEntry)
    (page : StagedPage κ) (request : PhysicalMgaCowMutation κ)
    (issued : Except DiagnosticRecord Uuid) :
    Except DiagnosticRecord (StagedPage κ × RowDataRecord κ) :=
  if ¬unique ∧ request.rowUuid.value ∈ page.insertedRows then
    cowError "SB-PHYSICAL-MGA-COW-DUPLICATE-VISIBLE-ROW"
      "storage.physical_mga_cow.duplicate_visible_row"
  else do
    let versionUuid ← issued
    let newRow := insertedVersion page.body entry request versionUuid
    return ({ page with
      body := { page.body with rows := page.body.rows ++ [newRow] }
      insertedRows :=
        if unique then page.insertedRows
        else page.insertedRows ++ [request.rowUuid.value] }, newRow)

/-- Any other mutation: as a single one, up to the page that is written. -/
def stageVersion (inventory : LocalTransactionInventory)
    (entry : TransactionInventoryEntry) (page : StagedPage κ) (request : PhysicalMgaCowMutation κ)
    (issued : Except DiagnosticRecord Uuid) :
    Except DiagnosticRecord (StagedPage κ × RowDataRecord κ) := do
  let base ← selectBaseRow page.body.rows inventory entry request.rowUuid
  match checkBaseFor request.kind base.found with
  | some diagnostic => .error diagnostic
  | none =>
  let sequence := (base.maxRowVersion + 1) % (u64Max + 1)
  if sequence = 0 then
    cowError "SB-PHYSICAL-MGA-COW-VERSION-SEQUENCE-INVALID"
      "storage.physical_mga_cow.version_sequence_invalid"
  else do
    let _ ← planLocalCopyOnWriteMutationForTransaction entry request.rowUuid
      (toTransactionCowKind request.kind)
      (match base.base with | some (row, _) => row.rowVersion | none => 0) sequence
    let versionUuid ← issued
    let newRow := newRowVersion page.body base request entry.localId versionUuid sequence
    if newRow.stableSlotId = 0 then
      cowError "CATALOG.INVALID_INPUT" "storage.physical_mga_cow.slot_identity_exhausted"
    else
      return ({ page with
        body := { page.body with
          rows := relinkRows page.body.rows base request.rowUuid versionUuid
            sequence ++ [newRow] } }, newRow)

def insertsWithoutBase (page : StagedPage κ) (request : PhysicalMgaCowMutation κ) : Bool :=
  page.startedEmpty && request.kind == .insert && request.stableSlotId != 0

def sameBatchScope (first request : PhysicalMgaCowMutation κ) : Bool :=
  decide (request.transactionUuid.value = first.transactionUuid.value) &&
    request.useExistingTransaction &&
    request.existingLocalTransactionId == first.existingLocalTransactionId

def stageMutation (device : CowDevice κ) (inventory : LocalTransactionInventory)
    (entry : TransactionInventoryEntry) (unique : Bool) (first request : PhysicalMgaCowMutation κ)
    (issued : Except DiagnosticRecord Uuid) (stage : BatchStage κ) :
    Except DiagnosticRecord (BatchStage κ) :=
  match validateMutationRequest request device.path with
  | some diagnostic => .error diagnostic
  | none =>
  if ¬sameBatchScope first request then
    cowError "SB-PHYSICAL-MGA-COW-BATCH-SCOPE-MISMATCH"
      "storage.physical_mga_cow.batch_scope_mismatch"
  else do
    let page ← findStagedPage device inventory stage.pages request
    let (page, newRow) ←
      if insertsWithoutBase page request then
        stageInsert unique entry page request issued
      else stageVersion inventory entry page request issued
    return {
      pages := stage.putPage page
      receipts := stage.receipts ++ [rowReceipt entry request newRow] }

def stageMutations (device : CowDevice κ) (inventory : LocalTransactionInventory)
    (entry : TransactionInventoryEntry) (unique : Bool) (first : PhysicalMgaCowMutation κ)
    (issued : Nat → Except DiagnosticRecord Uuid) :
    Nat → List (PhysicalMgaCowMutation κ) → BatchStage κ → Except DiagnosticRecord (BatchStage κ)
  | _, [], stage => .ok stage
  | ordinal, request :: rest, stage => do
      let stage ← stageMutation device inventory entry unique first request (issued ordinal) stage
      stageMutations device inventory entry unique first issued (ordinal + 1) rest stage

def preparePages (cellBytes : κ → Except DiagnosticRecord Nat) (pageSize : Nat) :
    List (StagedPage κ) → Except DiagnosticRecord (List (RowDataPageBody κ))
  | [] => .ok []
  | page :: pages => do
      let written ← prepareRowDataPage cellBytes pageSize page.body
      return written :: (← preparePages cellBytes pageSize pages)

def locateReceipt (pages : List (RowDataPageBody κ))
    (receipt : PhysicalMgaCowRowReceipt) : PhysicalMgaCowRowReceipt :=
  match lookup RowDataPageBody.pageNumber receipt.pageNumber pages with
  | some body => { receipt with pageGeneration := body.pageGeneration }
  | none => receipt

/-- What a batch is about to write, in the order of the page numbers. -/
structure PreparedBatch (κ : Type) where
  inventory : LocalTransactionInventory
  entry : TransactionInventoryEntry
  pages : List (RowDataPageBody κ)
  receipts : List PhysicalMgaCowRowReceipt

def admitBatchTransaction (inventory : LocalTransactionInventory)
    (first : PhysicalMgaCowMutation κ) : Except DiagnosticRecord TransactionInventoryEntry := do
  let existing ← lookupLocalTransaction inventory first.existingLocalTransactionId
  if existing.uuid ≠ first.transactionUuid.value then
    cowError "SB-PHYSICAL-MGA-COW-TRANSACTION-UUID-MISMATCH"
      "storage.physical_mga_cow.transaction_uuid_mismatch"
  else
    match validateCopyOnWriteTransactionState existing with
    | some diagnostic => .error diagnostic
    | none => .ok existing

/-- Everything before the first write. `loaded` is what loading the inventory
gives. -/
def prepareBatch (cellBytes : κ → Except DiagnosticRecord Nat) (device : CowDevice κ)
    (loaded : Except DiagnosticRecord LocalTransactionInventory)
    (request : PhysicalMgaCowMutationBatch κ) (issued : Nat → Except DiagnosticRecord TypedUuid) :
    Except DiagnosticRecord (PreparedBatch κ) :=
  match request.mutations with
  | [] => cowError "SB-PHYSICAL-MGA-COW-BATCH-EMPTY" "storage.physical_mga_cow.batch_empty"
  | first :: _ =>
  match validateMutationRequest first device.path with
  | some diagnostic => .error diagnostic
  | none =>
  if ¬first.useExistingTransaction ∨ ¬localIdValid first.existingLocalTransactionId then
    cowError "SB-PHYSICAL-MGA-COW-BATCH-EXISTING-TRANSACTION-REQUIRED"
      "storage.physical_mga_cow.batch_existing_transaction_required"
  else do
    let inventory ← loaded
    let entry ← admitBatchTransaction inventory first
    if request.versionIdentityBatch.any
        (fun source => !claimVersionBatch source request.mutations) then
      cowError "SB-PHYSICAL-MGA-COW-BATCH-SCOPE-MISMATCH"
        "storage.physical_mga_cow.issued_version_batch_invalid_or_consumed"
    else do
      let stage ← stageMutations device inventory entry
        request.engineGeneratedUniqueInsertRows first (versionFor request issued)
        0 request.mutations {}
      let pages ← preparePages cellBytes device.pageSize
        (stage.pages.insertionSort fun a b => a.pageNumber ≤ b.pageNumber)
      if pages.length > u64Max / device.pageSize then
        cowError "CATALOG.INVALID_INPUT" "storage.physical_mga_cow.batch_observed_extent_overflow"
      else
        return {
          inventory
          entry
          pages
          receipts := stage.receipts.map (locateReceipt pages) }

def PreparedBatch.result (prepared : PreparedBatch κ) (request : PhysicalMgaCowMutationBatch κ) :
    PhysicalMgaCowMutationBatchResult :=
  { writtenRows := request.mutations.length
    pagesWritten := prepared.pages.length
    rowReceipts := prepared.receipts }

/-! ## Writing -/

/-- The inventory without the mark, if it is still the batch's own. -/
def releaseGuard (inventory : LocalTransactionInventory) (entry : TransactionInventoryEntry) :
    Except DiagnosticRecord LocalTransactionInventory :=
  match findEntry inventory entry.localId with
  | none =>
    cowError "CATALOG.INVALID_INPUT" "storage.physical_mga_cow.batch_guard_identity_mismatch"
  | some completed =>
    if completed.identity.transactionUuid ≠ entry.identity.transactionUuid ∨
        completed.state ≠ .active ∨ ¬completed.rollbackOnly then
      cowError "CATALOG.INVALID_INPUT" "storage.physical_mga_cow.batch_guard_identity_mismatch"
    else .ok (putEntry inventory { completed with rollbackOnly := false })

def writePhysicalMgaCowUnpublishedMutationBatchToOpenDevice
    (cellBytes : κ → Except DiagnosticRecord Nat) (device : CowDevice κ)
    (request : PhysicalMgaCowMutationBatch κ) (issued : Nat → Except DiagnosticRecord TypedUuid) :
    CowDevice κ × Except PhysicalMgaCowMutationBatchFailure
      PhysicalMgaCowMutationBatchResult :=
  match prepareBatch cellBytes device
      (loadLocalTransactionInventoryFromOpenDevice device) request issued with
  | .error diagnostic => (device, .error { diagnostic := diagnostic })
  | .ok prepared =>
  match markLocalTransactionRollbackOnly prepared.inventory prepared.entry.localId with
  | .error diagnostic => (device, .error { diagnostic := diagnostic })
  | .ok marked =>
    let unresolved (device : CowDevice κ) (diagnostic : DiagnosticRecord) :
        CowDevice κ × Except PhysicalMgaCowMutationBatchFailure
          PhysicalMgaCowMutationBatchResult :=
      (device, .error { diagnostic, unresolvedMutationTransaction := prepared.entry.identity })
    match persistLocalTransactionInventoryToOpenDevice device marked.inventory with
    | .error diagnostic => unresolved device diagnostic
    | .ok guarded =>
      let written := prepared.pages.foldl CowDevice.putPage guarded
      match releaseGuard guarded.inventory prepared.entry with
      | .error diagnostic => unresolved written diagnostic
      | .ok completed =>
        match persistLocalTransactionInventoryToOpenDevice written completed with
        | .error diagnostic => unresolved written diagnostic
        | .ok released => (released, .ok (prepared.result request))

/-! ## Runs with batches -/

/-- The calls of a run: single mutations, begins and finalizations, batches, and
the archiving of a finished transaction. -/
inductive CowCall (κ : Type) where
  | single (step : CowStep κ)
  | batch (request : PhysicalMgaCowMutationBatch κ)
      (issued : Nat → Except DiagnosticRecord TypedUuid)
  | archive (localId : Nat)

def CowCall.apply (cellBytes : κ → Except DiagnosticRecord Nat)
    (call : CowCall κ) (device : CowDevice κ) : Except DiagnosticRecord (CowDevice κ) :=
  match call with
  | .single step => step.apply cellBytes device
  | .batch request issued =>
    match writePhysicalMgaCowUnpublishedMutationBatchToOpenDevice cellBytes
        device request issued with
    | (device, .ok _) => .ok device
    | (_, .error failure) => .error failure.diagnostic
  | .archive localId => do
      let inventory ← loadLocalTransactionInventoryFromOpenDevice device
      let archived ← archiveLocalTransaction inventory localId
      persistLocalTransactionInventoryToOpenDevice device archived.inventory

/-- A run of calls that all succeed. -/
def runCowCalls (cellBytes : κ → Except DiagnosticRecord Nat)
    (device : CowDevice κ) : List (CowCall κ) → Except DiagnosticRecord (CowDevice κ)
  | [] => .ok device
  | call :: calls => do
      runCowCalls cellBytes (← call.apply cellBytes device) calls

end ScratchBird.Storage
