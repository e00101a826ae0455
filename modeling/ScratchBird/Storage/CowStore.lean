import ScratchBird.Mga.CopyOnWrite
import ScratchBird.Mga.Run
import ScratchBird.Storage.RowDataPage

/-!
# The copy-on-write row store

`physical_mga_cow_store.cpp`, as far as single mutations, finalization and reads
go, and the publication of an inventory in `local_transaction_store.cpp`. A
device holds the published inventory and the row pages; I/O succeeds, and a page
no call has written lies past the end of the device. Every call loads what it
needs and publishes what it changes, so the device is the whole state.

A row page only grows: a mutation copies the page, appends the new version and
relinks the version it replaces. Whether a version counts is never written to the
page. It is read off the creator's inventory entry each time, and a writer uses
the same reading to find the version it replaces, or the transaction it would
have to wait for.

Evidence strings, page identities and native catalog names are left out.
-/

namespace ScratchBird.Storage

open Lib Mga

def kCatalogOverflowFirstPageNumber : Nat := 6

inductive PhysicalMgaCowMutationKind where
  | insert | update | deleteRow
  deriving DecidableEq

inductive PhysicalMgaCowFinalizeDecision where
  | invalid | commit | rollback
  deriving DecidableEq

/-- `identityPublicationFenceAllows` is the answer of the identity publication
fence, `false` without one. -/
structure PhysicalMgaCowMutation (κ : Type) where
  relationUuid : TypedUuid := {}
  rowUuid : TypedUuid := {}
  transactionUuid : TypedUuid := {}
  existingLocalTransactionId : Nat := kInvalidLocalTransactionId
  useExistingTransaction : Bool := false
  kind : PhysicalMgaCowMutationKind := .insert
  pageNumber : Nat := 0
  beginUnixEpochMillis : Nat := 0
  stableSlotId : Nat := 0
  cells : List κ := []
  predecessorPageNumber : Nat := 0
  identityPublicationFenceAllows : Bool := false

structure PhysicalMgaCowFinalization where
  transaction : TransactionIdentity := {}
  decision : PhysicalMgaCowFinalizeDecision := .invalid
  finalUnixEpochMillis : Nat := 0

structure CowDevice (κ : Type) where
  path : String := ""
  pageSize : Nat := 0
  inventory : LocalTransactionInventory := {}
  rowPages : List (RowDataPageBody κ) := []
  deriving DecidableEq

variable {κ : Type}

def makePhysicalMgaCowDiagnostic (code key : String) (detail : String := "") :
    DiagnosticRecord :=
  { diagnosticCode := code
    messageKey := key
    detail
    sourceComponent := "storage.database.physical_mga_cow" }

def cowError {α : Type} (code key : String) (detail : String := "") :
    Except DiagnosticRecord α := .error (makePhysicalMgaCowDiagnostic code key detail)

def physicalMgaCowMutationKindName : PhysicalMgaCowMutationKind → String
  | .insert => "insert"
  | .update => "update"
  | .deleteRow => "delete_row"

def toTransactionCowKind : PhysicalMgaCowMutationKind → CopyOnWriteMutationKind
  | .insert => .insert
  | .update => .update
  | .deleteRow => .deleteRow

/-! ## Requests -/

def validateCommonRequest (path : String) (relationUuid : TypedUuid)
    (pageNumber : Nat) : Option DiagnosticRecord :=
  if path = "" then
    some (makePhysicalMgaCowDiagnostic "SB-PHYSICAL-MGA-COW-PATH-REQUIRED"
      "storage.physical_mga_cow.path_required")
  else if ¬isTypedEngineIdentity relationUuid .object then
    some (makePhysicalMgaCowDiagnostic "SB-PHYSICAL-MGA-COW-RELATION-UUID-INVALID"
      "storage.physical_mga_cow.relation_uuid_invalid")
  else if pageNumber < kCatalogOverflowFirstPageNumber then
    some (makePhysicalMgaCowDiagnostic "SB-PHYSICAL-MGA-COW-PAGE-NUMBER-RESERVED"
      "storage.physical_mga_cow.page_number_reserved" (toString pageNumber))
  else none

def validateMutationRequest (request : PhysicalMgaCowMutation κ)
    (path : String) : Option DiagnosticRecord :=
  match validateCommonRequest path request.relationUuid request.pageNumber with
  | some diagnostic => some diagnostic
  | none =>
  if ¬isTypedEngineIdentity request.rowUuid .row then
    some (makePhysicalMgaCowDiagnostic "SB-PHYSICAL-MGA-COW-ROW-UUID-INVALID"
      "storage.physical_mga_cow.row_uuid_invalid")
  else if ¬isTypedEngineIdentity request.transactionUuid .transaction then
    some (makePhysicalMgaCowDiagnostic "SB-PHYSICAL-MGA-COW-TRANSACTION-UUID-INVALID"
      "storage.physical_mga_cow.transaction_uuid_invalid")
  else if request.useExistingTransaction ∧ ¬localIdValid request.existingLocalTransactionId then
    some (makePhysicalMgaCowDiagnostic "SB-PHYSICAL-MGA-COW-LOCAL-ID-INVALID"
      "storage.physical_mga_cow.local_id_invalid")
  else if request.predecessorPageNumber ≠ 0 ∧
      request.predecessorPageNumber ≥ request.pageNumber then
    some (makePhysicalMgaCowDiagnostic "SB-PHYSICAL-MGA-COW-PREDECESSOR-PAGE-INVALID"
      "storage.physical_mga_cow.predecessor_page_invalid"
      ("predecessor=" ++ toString request.predecessorPageNumber ++ " page=" ++
        toString request.pageNumber))
  else if (request.kind = .insert ∨ request.kind = .update) ∧ request.cells.isEmpty then
    some (makePhysicalMgaCowDiagnostic "SB-PHYSICAL-MGA-COW-PAYLOAD-REQUIRED"
      "storage.physical_mga_cow.payload_required")
  else none

def validateFinalization (request : PhysicalMgaCowFinalization) : Option DiagnosticRecord :=
  if ¬localIdValid request.transaction.localId ∨
      ¬isTypedEngineIdentity request.transaction.transactionUuid .transaction ∨
      request.transaction.scope ≠ .localNode ∨
      (request.decision ≠ .commit ∧ request.decision ≠ .rollback) ∨
      request.finalUnixEpochMillis = 0 then
    some (makePhysicalMgaCowDiagnostic "CATALOG.INVALID_INPUT"
      "storage.physical_mga_cow.finalization_input_invalid")
  else none

/-! ## What a call loads and publishes -/

def storePageError {α : Type} (code key : String) (detail : String := "") :
    Except DiagnosticRecord α :=
  .error
    { diagnosticCode := code
      messageKey := key
      detail
      sourceComponent := "storage.page.transaction_inventory" }

def newlyActive (old : LocalTransactionInventory) (entry : TransactionInventoryEntry) : Bool :=
  decide (entry.localId ≥ old.nextLocalTransactionId) &&
    (entry.state == .active || entry.state == .readOnlyActive)

/-- The inventory whose new transactions are allocated and not yet active. -/
def startingInventory (old inventory : LocalTransactionInventory) :
    LocalTransactionInventory :=
  { inventory with
    entries := inventory.entries.map fun entry =>
      if newlyActive old entry then { entry with state := .created } else entry }

def checkStartingAllocation (old inventory : LocalTransactionInventory) :
    Except DiagnosticRecord Unit :=
  if inventory.entries.any (newlyActive old) then
    let starting := startingInventory old inventory
    match validateLocalTransactionInventoryEvolution old starting with
    | some reason =>
      storePageError "CATALOG.INVALID_INPUT"
        "transaction_inventory_snapshot.starting_invalid" reason
    | none =>
    match validateLocalTransactionInventoryEvolution starting inventory with
    | some reason =>
      storePageError "CATALOG.INVALID_INPUT"
        "transaction_inventory_snapshot.activation_invalid" reason
    | none => (fun _ => ()) <$> computeLocalTransactionHorizons starting []
  else .ok ()

def loadLocalTransactionInventoryFromOpenDevice (device : CowDevice κ) :
    Except DiagnosticRecord LocalTransactionInventory := do
  let _ ← computeLocalTransactionHorizons device.inventory []
  return device.inventory

def persistLocalTransactionInventoryToOpenDevice (device : CowDevice κ)
    (inventory : LocalTransactionInventory) : Except DiagnosticRecord (CowDevice κ) := do
  let _ ← computeLocalTransactionHorizons inventory []
  let old := device.inventory
  if inventory.nextLocalTransactionId < old.nextLocalTransactionId ∨
      inventory.nextCommitSequence < old.nextCommitSequence then
    storePageError "CATALOG.INVALID_INPUT" "transaction_inventory_snapshot.counter_regression"
  else match validateLocalTransactionInventoryEvolution old inventory with
  | some reason =>
    storePageError "CATALOG.INVALID_INPUT" "transaction_inventory_snapshot.evolution_invalid" reason
  | none => do
      checkStartingAllocation old inventory
      return { device with inventory := inventory }

def makeEmptyRowDataPageBody (relationUuid : TypedUuid)
    (pageNumber predecessorPageNumber : Nat) : RowDataPageBody κ :=
  { relationUuid
    segmentId := 1
    segmentGeneration := 1
    pageNumber
    pageGeneration := 1
    compactionGeneration := 1
    nextPageNumber := predecessorPageNumber }

def readRowDataPage (device : CowDevice κ) (relationUuid : TypedUuid)
    (pageNumber predecessorPageNumber : Nat) : Except DiagnosticRecord (RowDataPageBody κ) :=
  match lookup RowDataPageBody.pageNumber pageNumber device.rowPages with
  | none => .ok (makeEmptyRowDataPageBody relationUuid pageNumber predecessorPageNumber)
  | some body =>
    if body.relationUuid ≠ relationUuid then
      cowError "SB-PHYSICAL-MGA-COW-RELATION-MISMATCH"
        "storage.physical_mga_cow.relation_mismatch" (toString pageNumber)
    else .ok body

def CowDevice.putPage (device : CowDevice κ) (body : RowDataPageBody κ) : CowDevice κ :=
  { device with
    rowPages :=
      match lookup RowDataPageBody.pageNumber body.pageNumber device.rowPages with
      | none => device.rowPages ++ [body]
      | some _ =>
        modify RowDataPageBody.pageNumber body.pageNumber (fun _ => body) device.rowPages }

def prepareRowDataPage (cellBytes : κ → Except DiagnosticRecord Nat)
    (pageSize : Nat) (body : RowDataPageBody κ) : Except DiagnosticRecord (RowDataPageBody κ) :=
  let pageGeneration := max 1 body.pageGeneration
  buildRowDataPageBody cellBytes
    { body with
      pageGeneration
      compactionGeneration := max body.compactionGeneration pageGeneration }
    pageSize

/-! ## Versions and their creators -/

def latestCommittedLocalTransactionId (inventory : LocalTransactionInventory) :
    Nat :=
  greatestOf kInvalidLocalTransactionId
    (fun e => hasCommittedInventoryOutcome e && localIdValid e.localId)
    (·.localId) inventory.entries

def latestCommittedSnapshot (inventory : LocalTransactionInventory) :
    VisibilitySnapshot :=
  { visibleThroughLocalTransactionId :=
      latestCommittedLocalTransactionId inventory
    visibleThroughLocalTransactionIdIsBoundary := true
    allowReaderOwnUncommitted := false }

def metadataForRow (row : RowDataRecord κ) (entry : TransactionInventoryEntry) :
    RowVersionMetadata :=
  { identity :=
      { rowUuid := row.rowUuid
        creatorTransaction := entry.identity
        versionSequence := row.rowVersion
        versionUuid := row.versionUuid }
    chain :=
      { previousVersionUuid := ⟨.row, row.previousVersionUuid⟩
        nextVersionUuid := ⟨.row, row.nextVersionUuid⟩
        previousVersionSequence := row.previousRowVersion
        nextVersionSequence := row.nextRowVersion }
    state := rowStateForEntry row.deleted (inventoryVisibilityState entry)
    creatorTransactionState := inventoryVisibilityState entry
    creatorCommitSequence := entry.commitSequence
    payloadPresent := !row.cells.isEmpty }

/-- The creator's entry, which must carry the identity the row names. -/
def rowCreator (inventory : LocalTransactionInventory) (row : RowDataRecord κ) :
    Except DiagnosticRecord TransactionInventoryEntry := do
  let creator ← lookupLocalTransaction inventory row.localTransactionId
  if creator.identity.transactionUuid ≠ row.transactionUuid then
    cowError "CATALOG.INVALID_INPUT" "storage.physical_mga_cow.creator_identity_mismatch"
  else return creator

def validateRowCreators (inventory : LocalTransactionInventory) :
    List (RowDataRecord κ) → Except DiagnosticRecord Unit
  | [] => .ok ()
  | row :: rows => do
      let _ ← rowCreator inventory row
      validateRowCreators inventory rows

/-! ## The version a mutation replaces -/

structure BaseRowSelection (κ : Type) where
  base : Option (RowDataRecord κ × Nat) := none
  maxRowVersion : Nat := 0

def BaseRowSelection.found (selection : BaseRowSelection κ) : Bool := selection.base.isSome

def waitsForOther (writer entry : TransactionInventoryEntry) : Bool :=
  entry.localId != writer.localId && (entry.state == .active || entry.state == .preparing ||
      entry.state == .prepared || entry.state == .committing)

/-- The walk down the candidates. An error is the source's blocked selection. -/
def selectCandidate (inventory : LocalTransactionInventory)
    (writer : TransactionInventoryEntry) (snapshot : VisibilitySnapshot) :
    List (RowDataRecord κ × Nat) → Except DiagnosticRecord (Option (RowDataRecord κ × Nat))
  | [] => .ok none
  | candidate :: rest => do
      let entry ← rowCreator inventory candidate.1
      if waitsForOther writer entry then
        cowError "SB-PHYSICAL-MGA-COW-BASE-WAITS-FOR-TRANSACTION"
          "storage.physical_mga_cow.base_waits_for_transaction"
          (toString candidate.1.localTransactionId)
      else if entry.state = .rolledBack ∨ entry.state = .failedTerminal then
        selectCandidate inventory writer snapshot rest
      else
        let visible := observeVersionEffectVisibility (metadataForRow candidate.1 entry) snapshot
        if visible.decision = .visible then
          if candidate.1.deleted then .ok none else .ok (some candidate)
        else if visible.decision = .waitForTransaction ∨ visible.decision = .requiresRecovery then
          .error (visible.outcome.getD (makePhysicalMgaCowDiagnostic "" ""))
        else selectCandidate inventory writer snapshot rest

def candidatesFor (rows : List (RowDataRecord κ)) (rowUuid : TypedUuid) :
    List (RowDataRecord κ × Nat) :=
  (rows.zipIdx.filter fun c => decide (c.1.rowUuid = rowUuid)).insertionSort
    fun a b => a.1.rowVersion ≥ b.1.rowVersion

def maxRowVersion (rows : List (RowDataRecord κ)) (rowUuid : TypedUuid) : Nat :=
  greatestOf 0 (fun row => decide (row.rowUuid = rowUuid)) (·.rowVersion) rows

def selectBaseRow (rows : List (RowDataRecord κ))
    (inventory : LocalTransactionInventory) (writer : TransactionInventoryEntry)
    (rowUuid : TypedUuid) : Except DiagnosticRecord (BaseRowSelection κ) := do
  let snapshot :=
    { latestCommittedSnapshot inventory with
      readerTransaction := writer.localId
      allowReaderOwnUncommitted := true }
  let base ← selectCandidate inventory writer snapshot (candidatesFor rows rowUuid)
  return { base := base, maxRowVersion := maxRowVersion rows rowUuid }

def nextStableSlotId (rows : List (RowDataRecord κ)) : Nat :=
  let largest := greatestOf 0 (fun _ => true) (·.stableSlotId) rows
  if largest = u32Max then 0 else largest + 1

/-! ## A mutation -/

structure PhysicalMgaCowMutationResult (κ : Type) where
  inventory : LocalTransactionInventory
  transactionEntry : TransactionInventoryEntry
  mutation : CopyOnWriteMutationState
  rowPage : RowDataPageBody κ
  rowVersion : RowDataRecord κ
  pageGeneration : Nat

def linkNext (versionUuid : Uuid) (sequence : Nat) (row : RowDataRecord κ) :
    RowDataRecord κ := { row with nextVersionUuid := versionUuid, nextRowVersion := sequence }

def isNewestOf (rowUuid : TypedUuid) (sequence : Nat) (row : RowDataRecord κ) :
    Bool :=
  decide (row.rowUuid = rowUuid) && row.rowVersion == sequence

/-- The rows with the replaced version linked to the new one. Without a base the
newest version of the row takes the link, whatever became of it. -/
def relinkRows (rows : List (RowDataRecord κ)) (base : BaseRowSelection κ)
    (rowUuid : TypedUuid) (versionUuid : Uuid) (sequence : Nat) : List (RowDataRecord κ) :=
  match base.base with
  | some (_, index) => rows.modify index (linkNext versionUuid sequence)
  | none =>
    if base.maxRowVersion ≠ 0 then
      rows.map fun row =>
        if isNewestOf rowUuid base.maxRowVersion row then
          linkNext versionUuid sequence row
        else row
    else rows

def previousVersionUuidFor (rows : List (RowDataRecord κ))
    (base : BaseRowSelection κ) (rowUuid : TypedUuid) : Uuid :=
  match base.base with
  | some (row, _) => row.versionUuid
  | none =>
    if base.maxRowVersion ≠ 0 then
      match (rows.filter (isNewestOf rowUuid base.maxRowVersion)).getLast? with
      | some row => row.versionUuid
      | none => Uuid.nil
    else Uuid.nil

def newRowVersion (rowPage : RowDataPageBody κ) (base : BaseRowSelection κ)
    (request : PhysicalMgaCowMutation κ) (localTransactionId : Nat)
    (versionUuid : Uuid) (sequence : Nat) : RowDataRecord κ :=
  { storageGeneration := rowPage.pageGeneration, versionUuid
    previousVersionUuid := previousVersionUuidFor rowPage.rows base request.rowUuid
    rowUuid := request.rowUuid
    transactionUuid := request.transactionUuid
    localTransactionId
    stableSlotId :=
      match base.base with
      | some (row, _) => row.stableSlotId
      | none =>
        if request.stableSlotId = 0 then nextStableSlotId rowPage.rows
        else request.stableSlotId
    rowVersion := sequence
    previousRowVersion :=
      match base.base with
      | some (row, _) => row.rowVersion
      | none => base.maxRowVersion
    deleted := request.kind == .deleteRow
    cells := if request.kind = .deleteRow then [] else request.cells }

def advancePageGeneration (rowPage : RowDataPageBody κ) : RowDataPageBody κ :=
  { rowPage with
    pageGeneration := rowPage.pageGeneration +
      if rowPage.rows.isEmpty then 0 else 1 }

def checkBaseFor (kind : PhysicalMgaCowMutationKind) (found : Bool) : Option DiagnosticRecord :=
  if kind = .insert ∧ found then
    some (makePhysicalMgaCowDiagnostic "SB-PHYSICAL-MGA-COW-DUPLICATE-VISIBLE-ROW"
      "storage.physical_mga_cow.duplicate_visible_row")
  else if (kind = .update ∨ kind = .deleteRow) ∧ ¬found then
    some (makePhysicalMgaCowDiagnostic "SB-PHYSICAL-MGA-COW-BASE-ROW-REQUIRED"
      "storage.physical_mga_cow.base_row_required" (physicalMgaCowMutationKindName kind))
  else none

/-- From the selected base to the page with the new version. -/
def appendVersion (cellBytes : κ → Except DiagnosticRecord Nat) (pageSize : Nat)
    (activeEntry executionEntry : TransactionInventoryEntry)
    (rowPage : RowDataPageBody κ) (base : BaseRowSelection κ) (request : PhysicalMgaCowMutation κ)
    (issued : Except DiagnosticRecord TypedUuid) :
    Except DiagnosticRecord (CopyOnWriteMutationState × RowDataRecord κ × RowDataPageBody κ) :=
  match checkBaseFor request.kind base.found with
  | some diagnostic => .error diagnostic
  | none =>
  let sequence := (base.maxRowVersion + 1) % (u64Max + 1)
  if sequence = 0 then
    cowError "SB-PHYSICAL-MGA-COW-VERSION-SEQUENCE-INVALID"
      "storage.physical_mga_cow.version_sequence_invalid"
  else do
    let planned ← planLocalCopyOnWriteMutationForTransaction executionEntry
      request.rowUuid (toTransactionCowKind request.kind)
      (match base.base with | some (row, _) => row.rowVersion | none => 0) sequence
    let versionUuid ← issued
    let newRow := newRowVersion rowPage base request activeEntry.localId versionUuid.value sequence
    if newRow.stableSlotId = 0 then
      cowError "CATALOG.INVALID_INPUT" "storage.physical_mga_cow.slot_identity_exhausted"
    else do
      let written ← prepareRowDataPage cellBytes pageSize
        { rowPage with
          rows := relinkRows rowPage.rows base request.rowUuid
            versionUuid.value sequence ++ [newRow] }
      return (planned, newRow, written)

def performMutation (cellBytes : κ → Except DiagnosticRecord Nat)
    (device : CowDevice κ) (activeEntry executionEntry : TransactionInventoryEntry)
    (request : PhysicalMgaCowMutation κ) (issued : Except DiagnosticRecord TypedUuid) :
    Except DiagnosticRecord (CowDevice κ × PhysicalMgaCowMutationResult κ) := do
  let rowPage ← readRowDataPage device request.relationUuid request.pageNumber
    request.predecessorPageNumber
  if ¬rowPage.rows.isEmpty ∧ rowPage.pageGeneration = u64Max then
    cowError "CATALOG.INVALID_INPUT" "storage.physical_mga_cow.page_generation_exhausted"
  else do
    validateRowCreators device.inventory rowPage.rows
    let base ← selectBaseRow rowPage.rows device.inventory activeEntry request.rowUuid
    let (planned, newRow, written) ← appendVersion cellBytes device.pageSize
      activeEntry executionEntry (advancePageGeneration rowPage) base request issued
    return (device.putPage written,
      { inventory := device.inventory
        transactionEntry := activeEntry
        mutation :=
          { planned with phase := .payloadWrittenUnpublished, evidenceRecordWritten := true }
        rowPage := written
        rowVersion := newRow
        pageGeneration := written.pageGeneration })

/-- The entry of the transaction a request names, as found and as the write may
see it: the publication fence lifts the rollback-only mark for this write. -/
def admitExistingTransaction (inventory : LocalTransactionInventory)
    (request : PhysicalMgaCowMutation κ) :
    Except DiagnosticRecord (TransactionInventoryEntry × TransactionInventoryEntry) := do
  let existing ← lookupLocalTransaction inventory request.existingLocalTransactionId
  if existing.uuid ≠ request.transactionUuid.value then
    cowError "SB-PHYSICAL-MGA-COW-TRANSACTION-UUID-MISMATCH"
      "storage.physical_mga_cow.transaction_uuid_mismatch"
  else
    let execution :=
      if existing.rollbackOnly ∧ request.identityPublicationFenceAllows then
        { existing with rollbackOnly := false }
      else existing
    match validateCopyOnWriteTransactionState execution with
    | some diagnostic => .error diagnostic
    | none => .ok (existing, execution)

/-- Undo a begin the failed call had published itself. -/
def compensate (device : CowDevice κ) (request : PhysicalMgaCowMutation κ)
    (owned millis : Nat) : Except DiagnosticRecord (CowDevice κ) := do
  let current ← loadLocalTransactionInventoryFromOpenDevice device
  match findEntry current owned with
  | none => .ok device
  | some found =>
    if found.identity.transactionUuid ≠ request.transactionUuid then
      cowError "CATALOG.INVALID_INPUT"
        "storage.physical_mga_cow.failed_transaction_identity_mismatch"
    else do
      let rolled ← rollbackLocalTransaction current owned millis
      persistLocalTransactionInventoryToOpenDevice device rolled.inventory

/-- A call that begins its own transaction. A failure after the begin was
published is answered with a rollback; the failure stays the answer unless the
rollback itself fails. -/
def writeOwned (cellBytes : κ → Except DiagnosticRecord Nat)
    (device : CowDevice κ) (inventory : LocalTransactionInventory)
    (request : PhysicalMgaCowMutation κ)
    (issued : Except DiagnosticRecord TypedUuid) (millis : Nat) :
    CowDevice κ × Except DiagnosticRecord (PhysicalMgaCowMutationResult κ) :=
  match beginLocalTransaction inventory request.transactionUuid request.beginUnixEpochMillis with
  | .error diagnostic => (device, .error diagnostic)
  | .ok begun =>
    let failed (device : CowDevice κ) (diagnostic : DiagnosticRecord) :
        CowDevice κ × Except DiagnosticRecord (PhysicalMgaCowMutationResult κ) :=
      match compensate device request begun.entry.localId millis with
      | .error unresolved => (device, .error unresolved)
      | .ok device => (device, .error diagnostic)
    match persistLocalTransactionInventoryToOpenDevice device begun.inventory with
    | .error diagnostic => failed device diagnostic
    | .ok device =>
      match performMutation cellBytes device begun.entry begun.entry request issued with
      | .error diagnostic => failed device diagnostic
      | .ok (device, result) => (device, .ok result)

/-- `issued` is the version identity the platform hands out, and `millis` its
clock. -/
def writePhysicalMgaCowUnpublishedMutationToOpenDevice
    (cellBytes : κ → Except DiagnosticRecord Nat) (device : CowDevice κ)
    (request : PhysicalMgaCowMutation κ)
    (issued : Except DiagnosticRecord TypedUuid) (millis : Nat) :
    CowDevice κ × Except DiagnosticRecord (PhysicalMgaCowMutationResult κ) :=
  match validateMutationRequest request device.path with
  | some diagnostic => (device, .error diagnostic)
  | none =>
  match loadLocalTransactionInventoryFromOpenDevice device with
  | .error diagnostic => (device, .error diagnostic)
  | .ok inventory =>
  if request.useExistingTransaction then
    match admitExistingTransaction inventory request with
    | .error diagnostic => (device, .error diagnostic)
    | .ok (active, execution) =>
      match performMutation cellBytes device active execution request issued with
      | .error diagnostic => (device, .error diagnostic)
      | .ok (device, result) => (device, .ok result)
  else writeOwned cellBytes device inventory request issued millis

/-! ## Finalization -/

def finalizeEntry (inventory : LocalTransactionInventory) (request : PhysicalMgaCowFinalization) :
    Except DiagnosticRecord TransactionInventoryResult :=
  if request.decision = .commit then
    commitLocalTransaction inventory request.transaction.localId request.finalUnixEpochMillis
  else
    rollbackLocalTransaction inventory request.transaction.localId request.finalUnixEpochMillis

def finalizePhysicalMgaCowTransactionToOpenDevice (device : CowDevice κ)
    (request : PhysicalMgaCowFinalization) :
    Except DiagnosticRecord (CowDevice κ × TransactionInventoryEntry) :=
  match validateFinalization request with
  | some diagnostic => .error diagnostic
  | none => do
    let inventory ← loadLocalTransactionInventoryFromOpenDevice device
    match lookupLocalTransaction inventory request.transaction.localId with
    | .error _ =>
      cowError "CATALOG.INVALID_INPUT" "storage.physical_mga_cow.finalization_identity_mismatch"
    | .ok current =>
      if current.identity.transactionUuid ≠ request.transaction.transactionUuid ∨
          current.identity.scope ≠ request.transaction.scope then
        cowError "CATALOG.INVALID_INPUT" "storage.physical_mga_cow.finalization_identity_mismatch"
      else do
        let finalized ← finalizeEntry inventory request
        let persisted ← persistLocalTransactionInventoryToOpenDevice device finalized.inventory
        return (persisted, finalized.entry)

/-! ## Reads -/

structure PhysicalMgaCowReadRow (κ : Type) where
  row : RowDataRecord κ
  metadata : RowVersionMetadata
  decision : VisibilityDecision := .unknown
  visible : Bool := false
  visibleDeleteMarker : Bool := false

structure PhysicalMgaCowReadResult (κ : Type) where
  inventory : LocalTransactionInventory
  rowPage : RowDataPageBody κ
  rows : List (PhysicalMgaCowReadRow κ) := []
  visibleRows : List (RowDataRecord κ) := []
  visibleDeleteMarkerCount : Nat := 0
  waitForTransactionCount : Nat := 0
  rolledBackVersionCount : Nat := 0
  recoveryRequiredCount : Nat := 0
  versionMetadata : List RowVersionMetadata := []

/-- `snapshotPin` is what the pin resolves to, when the caller holds one. -/
structure PhysicalMgaCowReadRequest where
  relationUuid : TypedUuid := {}
  pageNumber : Nat := 0
  visibilitySnapshot : VisibilitySnapshot := {}
  useLatestCommittedSnapshot : Bool := false
  readerIdentity : TransactionIdentity := {}
  snapshotPin : Option (Except DiagnosticRecord SnapshotVectorDescriptor) := none

def PhysicalMgaCowReadRequest.readerSupplied (request : PhysicalMgaCowReadRequest) : Bool :=
  request.readerIdentity.localId != 0 || request.readerIdentity.transactionUuid.kind != .unknown ||
    !request.readerIdentity.transactionUuid.value.isNil || request.readerIdentity.scope != .unknown

def validateReader (request : PhysicalMgaCowReadRequest) : Option DiagnosticRecord :=
  let reader := request.readerIdentity
  if (request.readerSupplied ∧ (¬localIdValid reader.localId ∨ (request.snapshotPin.isNone ∧
            reader.localId ≠ request.visibilitySnapshot.readerTransaction) ∨
          ¬isTypedEngineIdentity reader.transactionUuid .transaction ∨ reader.scope ≠ .localNode)) ∨
      (¬request.readerSupplied ∧ request.visibilitySnapshot.readerTransaction ≠ 0) then
    some (makePhysicalMgaCowDiagnostic "CATALOG.INVALID_INPUT"
      "storage.physical_mga_cow.reader_identity_invalid")
  else if request.snapshotPin.isSome ∧
      (¬request.readerSupplied ∨ request.useLatestCommittedSnapshot ∨
        request.visibilitySnapshot ≠ {}) then
    some (makePhysicalMgaCowDiagnostic "CATALOG.INVALID_INPUT"
      "storage.physical_mga_cow.snapshot_pin_request_invalid")
  else none

def matchesReader (inventory : LocalTransactionInventory) (reader : TransactionIdentity) : Bool :=
  match lookupLocalTransaction inventory reader.localId with
  | .error _ => false
  | .ok entry =>
    decide (entry.identity.transactionUuid = reader.transactionUuid) &&
      decide (entry.identity.scope = reader.scope)

def readerOpen (inventory : LocalTransactionInventory) (localId : Nat) : Bool :=
  match lookupLocalTransaction inventory localId with
  | .error _ => false
  | .ok entry => entry.state == .active || entry.state == .readOnlyActive

/-- The snapshot a pinned descriptor stands for, if its owner is the reader and
still open. -/
def pinnedSnapshot (inventory : LocalTransactionInventory) (request : PhysicalMgaCowReadRequest)
    (resolved : Except DiagnosticRecord SnapshotVectorDescriptor) :
    Except DiagnosticRecord VisibilitySnapshot := do
  let descriptor ← resolved
  let reader := request.readerIdentity
  if descriptor.owningTransactionUuid ≠ reader.transactionUuid ∨
      descriptor.owningTransaction ≠ reader.localId ∨ inventory.nextLocalTransactionId <
        descriptor.publicationInventoryNextLocalTransactionId ∨
      ¬readerOpen inventory reader.localId then
    cowError "CATALOG.INVALID_INPUT" "storage.physical_mga_cow.snapshot_pin_owner_mismatch"
  else
    return { request.visibilitySnapshot with
      readerTransaction := descriptor.owningTransaction
      visibleThroughLocalTransactionId := descriptor.visibleCommittedHighWatermark
      visibleThroughLocalTransactionIdIsBoundary := true
      activeExcludedLocalTransactionIds := descriptor.activeExcludedLocalTransactionIds
      inDoubtExcludedLocalTransactionIds := descriptor.inDoubtExcludedLocalTransactionIds }

def readSnapshot (inventory : LocalTransactionInventory) (request : PhysicalMgaCowReadRequest) :
    Except DiagnosticRecord VisibilitySnapshot :=
  match request.snapshotPin with
  | some resolved => pinnedSnapshot inventory request resolved
  | none =>
    if request.useLatestCommittedSnapshot then
      .ok (latestCommittedSnapshot inventory)
    else .ok request.visibilitySnapshot

def versionMetadata (inventory : LocalTransactionInventory) :
    List (RowDataRecord κ) → Except DiagnosticRecord (List RowVersionMetadata)
  | [] => .ok []
  | row :: rows => do
      let creator ← rowCreator inventory row
      match observeRowVersionMetadata (metadataForRow row creator) with
      | some diagnostic => .error diagnostic
      | none => return metadataForRow row creator :: (← versionMetadata inventory rows)

def uuidBytesLe (a b : Uuid) : Prop := (compare a.bytes b.bytes).isLE = true

instance : DecidableRel uuidBytesLe := fun a b =>
  inferInstanceAs (Decidable ((compare a.bytes b.bytes).isLE = true))

/-- The map `by_row`: one group per row, in the order of the identities' bytes,
each with the versions of the row from the newest to the oldest. -/
def byRow (rows : List (RowDataRecord κ)) : List (List (RowDataRecord κ)) :=
  ((rows.map (·.rowUuid.value)).dedup.insertionSort uuidBytesLe).map fun rowUuid =>
    (rows.filter fun row => decide (row.rowUuid.value = rowUuid)).insertionSort
      fun a b => a.rowVersion ≥ b.rowVersion

/-- What one observed version adds to the result. -/
def PhysicalMgaCowReadResult.record (result : PhysicalMgaCowReadResult κ)
    (observed : PhysicalMgaCowReadRow κ) : PhysicalMgaCowReadResult κ :=
  { result with rows := result.rows ++ [observed] }

def PhysicalMgaCowReadResult.skip (result : PhysicalMgaCowReadResult κ)
    (observed : PhysicalMgaCowReadRow κ) : PhysicalMgaCowReadResult κ :=
  if observed.decision = .waitForTransaction then
    { result.record observed with
      waitForTransactionCount := result.waitForTransactionCount + 1 }
  else if observed.decision = .requiresRecovery then
    { result.record observed with
      recoveryRequiredCount := result.recoveryRequiredCount + 1 }
  else result.record observed

/-- The walk over the versions of one row, newest first; the first visible
version ends it. -/
def readVersions (inventory : LocalTransactionInventory) (snapshot : VisibilitySnapshot) :
    PhysicalMgaCowReadResult κ → List (RowDataRecord κ) →
      Except DiagnosticRecord (PhysicalMgaCowReadResult κ)
  | result, [] => .ok result
  | result, row :: rows =>
    match lookupLocalTransaction inventory row.localTransactionId with
    | .error _ =>
      readVersions inventory snapshot
        { result with
          recoveryRequiredCount := result.recoveryRequiredCount + 1 } rows
    | .ok creator =>
      let metadata := metadataForRow row creator
      let visibility := observeVersionEffectVisibility metadata snapshot
      let observed : PhysicalMgaCowReadRow κ :=
        { row := row, metadata := metadata, decision := visibility.decision }
      match visibility.outcome.filter fun _ =>
          visibility.decision != .waitForTransaction &&
            visibility.decision != .requiresRecovery with
      | some diagnostic => .error diagnostic
      | none =>
      if metadata.creatorTransactionState = .rolledBack ∨
          metadata.creatorTransactionState = .failedTerminal then
        readVersions inventory snapshot
          { result.record observed with
            rolledBackVersionCount := result.rolledBackVersionCount + 1 }
          rows
      else if row.deleted ∧ visibility.decision = .visible then
        .ok { result.record { observed with visibleDeleteMarker := true } with
          visibleDeleteMarkerCount := result.visibleDeleteMarkerCount + 1 }
      else if visibility.decision = .visible then
        .ok { result.record { observed with visible := true } with
          visibleRows := result.visibleRows ++ [row] }
      else readVersions inventory snapshot (result.skip observed) rows

def readRows (inventory : LocalTransactionInventory) (snapshot : VisibilitySnapshot) :
    PhysicalMgaCowReadResult κ → List (List (RowDataRecord κ)) →
      Except DiagnosticRecord (PhysicalMgaCowReadResult κ)
  | result, [] => .ok result
  | result, versions :: groups => do
      let result ← readVersions inventory snapshot result versions
      readRows inventory snapshot result groups

def readPhysicalMgaCowRowsFromOpenDevice (device : CowDevice κ)
    (request : PhysicalMgaCowReadRequest) : Except DiagnosticRecord (PhysicalMgaCowReadResult κ) :=
  match validateCommonRequest device.path request.relationUuid request.pageNumber with
  | some diagnostic => .error diagnostic
  | none =>
  match validateReader request with
  | some diagnostic => .error diagnostic
  | none => do
    let inventory ← loadLocalTransactionInventoryFromOpenDevice device
    if request.readerSupplied ∧ ¬matchesReader inventory request.readerIdentity then
      cowError "CATALOG.INVALID_INPUT" "storage.physical_mga_cow.reader_identity_mismatch"
    else do
      let snapshot ← readSnapshot inventory request
      let rowPage ← readRowDataPage device request.relationUuid request.pageNumber 0
      let metadata ← versionMetadata inventory rowPage.rows
      readRows inventory snapshot
        { inventory, rowPage, versionMetadata := metadata } (byRow rowPage.rows)

/-! ## Runs -/

inductive CowStep (κ : Type) where
  | begin (readOnly stable : Bool) (transactionUuid : TypedUuid) (beginUnixEpochMillis : Nat)
  | write (request : PhysicalMgaCowMutation κ)
      (issued : Except DiagnosticRecord TypedUuid) (millis : Nat)
  | finalize (request : PhysicalMgaCowFinalization)

def CowStep.apply (cellBytes : κ → Except DiagnosticRecord Nat)
    (step : CowStep κ) (device : CowDevice κ) : Except DiagnosticRecord (CowDevice κ) :=
  match step with
  | .begin readOnly stable uuid millis => do
      let inventory ← loadLocalTransactionInventoryFromOpenDevice device
      let begun ← beginWithIsolation inventory readOnly stable uuid millis
      persistLocalTransactionInventoryToOpenDevice device begun.inventory
  | .write request issued millis =>
    match writePhysicalMgaCowUnpublishedMutationToOpenDevice cellBytes device
        request issued millis with
    | (device, .ok _) => .ok device
    | (_, .error diagnostic) => .error diagnostic
  | .finalize request => (·.1) <$> finalizePhysicalMgaCowTransactionToOpenDevice device request

/-- A run of calls that all succeed. -/
def runCowSteps (cellBytes : κ → Except DiagnosticRecord Nat)
    (device : CowDevice κ) : List (CowStep κ) → Except DiagnosticRecord (CowDevice κ)
  | [] => .ok device
  | step :: steps => do
      runCowSteps cellBytes (← step.apply cellBytes device) steps

end ScratchBird.Storage
