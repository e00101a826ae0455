import ScratchBird.Lib.Stateful
import ScratchBird.Storage.CowBatch

/-!
# How an inventory becomes durable

`local_transaction_store.cpp`, write by write. The inventory is spread over a
chain of pages that is rewritten in place, so a crash may leave the chain torn or
ahead of what was decided. What counts is the publication carrier, a file beside
the device that holds the old and the new inventory and a phase: it is replaced
as a whole before the first page of the chain is touched, saying `publishing`,
and again after the last one is synced, saying `committed`. A load takes the
carrier's word whenever there is one, and the chain's only when there is none.

`Session` is one call on the device: the disk, the writes performed so far in
order, and a count of operations. Each operation may fail; `faults` says which.
A write that fails has done nothing. The batch of mutations is given here once
more on top of that, with the same preparation as in `CowBatch`.

The encodings of the carrier and of the pages, their digests, the identities
they are bound to and the publication base a caller has to present are left out,
and so is the temporary file behind the replacement of the carrier.
-/

namespace ScratchBird.Storage.Device

open Lib Mga Storage

def kTransactionInventoryPageNumber : Nat := 4
def kTransactionInventoryPageBodyHeaderBytes : Nat := 152
def kEntryBytes : Nat := 72
def kPublishHeaderBytes : Nat := 112
def kPublishEntryBytes : Nat := 72
def kPublishDigestBytes : Nat := 32
def kPublishMaxBytes : Nat := 64 * 1024 * 1024

inductive PublishPhase where
  | publishing | committed
  deriving DecidableEq

structure PublishJournal where
  phase : PublishPhase
  generation : Nat
  oldGeneration : Nat
  oldInventory : LocalTransactionInventory
  newInventory : LocalTransactionInventory

structure TransactionInventoryPageBody where
  pageNumber : Nat
  previousPageNumber : Nat
  nextPageNumber : Nat
  inventoryGeneration : Nat
  inventory : LocalTransactionInventory

structure CowDisk (κ : Type) where
  path : String := ""
  pageSize : Nat := 0
  journal : Option PublishJournal := none
  inventoryPages : List TransactionInventoryPageBody := []
  rowPages : List (RowDataPageBody κ) := []

variable {κ : Type}

/-- The device of the single calls, once the inventory is known. -/
def CowDisk.view (disk : CowDisk κ) (inventory : LocalTransactionInventory) : CowDevice κ :=
  { path := disk.path, pageSize := disk.pageSize, inventory, rowPages := disk.rowPages }

/-! ## Loading -/

def PublishJournal.selected (journal : PublishJournal) :
    LocalTransactionInventory :=
  match journal.phase with
  | .committed => journal.newInventory
  | .publishing => journal.oldInventory

def PublishJournal.selectedGeneration (journal : PublishJournal) : Nat :=
  match journal.phase with
  | .committed => journal.generation
  | .publishing => journal.oldGeneration

def validPublicationInventory (inventory : LocalTransactionInventory) : Bool :=
  (validateLocalTransactionInventoryStructure inventory).isNone &&
    inventory.nextLocalTransactionId != 0 && inventory.entries.all (fun e => e.identity.valid &&
      isEngineIdentityUuid e.uuid &&
      decide (e.localId < inventory.nextLocalTransactionId) &&
      e.identity.scope != .unknown && e.state != .none) &&
    decide (inventory.entries.map (·.localId)).Nodup &&
    decide (inventory.entries.map (·.uuid)).Nodup

def publishJournalInvalid (detail : String) : DiagnosticRecord :=
  { diagnosticCode := "SB-TXN-INVENTORY-PUBLISH-JOURNAL-INVALID"
    messageKey := "transaction_inventory_publish_journal.invalid_header"
    detail
    sourceComponent := "storage.page.transaction_inventory" }

def parsePublishJournal (journal : PublishJournal) : Except DiagnosticRecord PublishJournal :=
  if journal.oldGeneration = 0 ∨ journal.generation ≤ journal.oldGeneration then
    .error (publishJournalInvalid "generation_invalid")
  else if ¬validPublicationInventory journal.oldInventory ∨
      ¬validPublicationInventory journal.newInventory then
    .error (publishJournalInvalid "snapshot_invalid")
  else if (validateLocalTransactionInventoryEvolution journal.oldInventory
      journal.newInventory).isSome then
    .error (publishJournalInvalid "snapshot_evolution_invalid")
  else .ok journal

/-- A chain of pages as it was read. -/
structure InventoryChain where
  inventory : LocalTransactionInventory := {}
  pageNumbers : List Nat := []
  generation : Nat := 0

def InventoryChain.push (chain : InventoryChain)
    (page : TransactionInventoryPageBody) : InventoryChain where
  inventory :=
    { nextLocalTransactionId := page.inventory.nextLocalTransactionId
      nextCommitSequence := page.inventory.nextCommitSequence
      entries := chain.inventory.entries ++ page.inventory.entries }
  pageNumbers := chain.pageNumbers ++ [page.pageNumber]
  generation := page.inventoryGeneration

/-- The walk along the chain. No page is visited twice, so as many rounds as
there are pages, and one to see the end, are enough. -/
def walkInventoryChain (pages : List TransactionInventoryPageBody) :
    (rounds pageNumber previousPageNumber : Nat) → InventoryChain →
      Except DiagnosticRecord InventoryChain
  | 0, pageNumber, _, _ =>
    storePageError "SB-TXN-INVENTORY-PAGE-CHAIN-INVALID"
      "transaction_inventory_page.chain_cycle_or_invalid_extent" (toString pageNumber)
  | rounds + 1, pageNumber, previousPageNumber, chain =>
    if pageNumber = 0 then .ok chain
    else if pageNumber ∈ chain.pageNumbers then
      storePageError "SB-TXN-INVENTORY-PAGE-CHAIN-INVALID"
        "transaction_inventory_page.chain_cycle_or_invalid_extent" (toString pageNumber)
    else match lookup TransactionInventoryPageBody.pageNumber pageNumber pages with
    | none =>
      storePageError "SB-TXN-INVENTORY-PAGE-CHAIN-INVALID"
        "transaction_inventory_page.chain_cycle_or_invalid_extent" (toString pageNumber)
    | some page =>
      if page.previousPageNumber ≠ previousPageNumber then
        storePageError "SB-TXN-INVENTORY-PAGE-CHAIN-INVALID"
          "transaction_inventory_page.previous_link_mismatch" (toString pageNumber)
      else if chain.generation ≠ 0 ∧ page.inventoryGeneration ≠ chain.generation then
        storePageError "SB-TXN-INVENTORY-PAGE-GENERATION-INVALID"
          "transaction_inventory_page.chain_generation_mismatch" (toString pageNumber)
      else if pageNumber ≠ kTransactionInventoryPageNumber ∧
          (page.inventory.nextLocalTransactionId ≠ chain.inventory.nextLocalTransactionId ∨
            page.inventory.nextCommitSequence ≠ chain.inventory.nextCommitSequence) then
        storePageError "CATALOG.INVALID_INPUT" "transaction_inventory_page.chain_counter_mismatch"
      else
        walkInventoryChain pages rounds page.nextPageNumber pageNumber (chain.push page)

def loadInventoryChain (disk : CowDisk κ) : Except DiagnosticRecord InventoryChain := do
  let chain ← walkInventoryChain disk.inventoryPages
    (disk.inventoryPages.length + 1) kTransactionInventoryPageNumber 0 {}
  match validateLocalTransactionInventoryStructure chain.inventory with
  | some reason =>
    storePageError "CATALOG.INVALID_INPUT" "transaction_inventory_page.inventory_invalid" reason
  | none => return chain

/-- The carrier's word, if there is a carrier. -/
def recoverInventoryFromPublishJournal (disk : CowDisk κ)
    (primary : Except DiagnosticRecord LocalTransactionInventory) :
    Except DiagnosticRecord LocalTransactionInventory :=
  match disk.journal with
  | none => primary
  | some stored => do
      let journal ← parsePublishJournal stored
      let _ ← computeLocalTransactionHorizons journal.selected []
      return journal.selected

def loadLocalTransactionInventoryFromOpenDevice (disk : CowDisk κ) :
    Except DiagnosticRecord LocalTransactionInventory :=
  match loadInventoryChain disk with
  | .error diagnostic => recoverInventoryFromPublishJournal disk (.error diagnostic)
  | .ok chain => do
      let _ ← computeLocalTransactionHorizons chain.inventory []
      recoverInventoryFromPublishJournal disk (.ok chain.inventory)

/-! ## Writes -/

inductive DeviceWrite (κ : Type) where
  | publication (journal : PublishJournal)
  | inventoryPageHeader (pageNumber : Nat)
  | inventoryPage (page : TransactionInventoryPageBody)
  | rowPage (body : RowDataPageBody κ)

def putPage {α : Type} (number : α → Nat) (page : α) (pages : List α) : List α :=
  match lookup number (number page) pages with
  | none => pages ++ [page]
  | some _ => modify number (number page) (fun _ => page) pages

/-- Page identities are left out, so a page header alone changes nothing. -/
def CowDisk.write (disk : CowDisk κ) : DeviceWrite κ → CowDisk κ
  | .publication journal => { disk with journal := some journal }
  | .inventoryPageHeader _ => disk
  | .inventoryPage page =>
    { disk with
      inventoryPages := putPage TransactionInventoryPageBody.pageNumber page disk.inventoryPages }
  | .rowPage body =>
    { disk with
      rowPages := putPage RowDataPageBody.pageNumber body disk.rowPages }

/-- The disk after some writes, in order. -/
def CowDisk.after (disk : CowDisk κ) (writes : List (DeviceWrite κ)) : CowDisk κ :=
  writes.foldl CowDisk.write disk

structure Session (κ : Type) where
  disk : CowDisk κ
  writes : List (DeviceWrite κ) := []
  operations : Nat := 0

abbrev DeviceM (κ : Type) := ExceptT DiagnosticRecord (StateM (Session κ))

def Session.perform (session : Session κ) (write : Option (DeviceWrite κ)) : Session κ where
  disk := session.disk.after write.toList
  writes := session.writes ++ write.toList
  operations := session.operations + 1

/-- One operation on the device: a write, or a sync if there is nothing to
write. -/
def Session.operate (session : Session κ)
    (faults : Nat → Option DiagnosticRecord) (write : Option (DeviceWrite κ)) :
    Except DiagnosticRecord Unit × Session κ :=
  match faults session.operations with
  | some diagnostic => (.error diagnostic, { session with operations := session.operations + 1 })
  | none => (.ok (), session.perform write)

def operate (faults : Nat → Option DiagnosticRecord)
    (write : Option (DeviceWrite κ)) : DeviceM κ Unit := do
  let session ← get
  set (session.operate faults write).2
  ofOutcome (session.operate faults write).1

def writeAt (faults : Nat → Option DiagnosticRecord) (write : DeviceWrite κ) :
    DeviceM κ Unit := operate faults (some write)

def sync (faults : Nat → Option DiagnosticRecord) : DeviceM κ Unit := operate faults none

def syncWhen (faults : Nat → Option DiagnosticRecord) (wanted : Bool) : DeviceM κ Unit :=
  if wanted then sync faults else pure ()

/-! ## Publishing -/

inductive InventoryPageSyncPolicy where
  | batched | perPage
  deriving DecidableEq

def maxTransactionInventoryEntriesPerPage (pageSize : Nat) : Nat :=
  if pageSize ≤ kPageHeaderSerializedBytes + kTransactionInventoryPageBodyHeaderBytes then 0
  else
    (pageSize - kPageHeaderSerializedBytes - kTransactionInventoryPageBodyHeaderBytes) / kEntryBytes

/-- What a publication starts from: the inventory it replaces, the generations
already used, and the pages of the chain. -/
structure PublicationStart where
  old : LocalTransactionInventory
  oldGeneration : Nat
  watermark : Nat
  pageNumbers : List Nat

def publicationStart (disk : CowDisk κ) : Except DiagnosticRecord PublicationStart :=
  match disk.journal with
  | some stored => do
      let journal ← parsePublishJournal stored
      return {
        old := journal.selected
        oldGeneration := journal.selectedGeneration
        watermark := journal.generation
        pageNumbers :=
          match loadInventoryChain disk with
          | .error _ => [kTransactionInventoryPageNumber]
          | .ok chain => chain.pageNumbers }
  | none => do
      let chain ← loadInventoryChain disk
      return {
        old := chain.inventory
        oldGeneration := chain.generation
        watermark := chain.generation
        pageNumbers := chain.pageNumbers }

def checkPublication (disk : CowDisk κ) (inventory : LocalTransactionInventory) :
    Except DiagnosticRecord PublicationStart := do
  let _ ← computeLocalTransactionHorizons inventory []
  if maxTransactionInventoryEntriesPerPage disk.pageSize = 0 then
    storePageError "SB-TXN-INVENTORY-PAGE-CAPACITY-INVALID"
      "transaction_inventory_page.zero_entry_capacity" (toString disk.pageSize)
  else do
    let start ← publicationStart disk
    if start.watermark = u64Max then
      storePageError "SB-TXN-INVENTORY-PAGE-GENERATION-INVALID"
        "transaction_inventory_snapshot.generation_exhausted"
    else if inventory.nextLocalTransactionId < start.old.nextLocalTransactionId ∨
        inventory.nextCommitSequence < start.old.nextCommitSequence then
      storePageError "CATALOG.INVALID_INPUT" "transaction_inventory_snapshot.counter_regression"
    else match validateLocalTransactionInventoryEvolution start.old inventory with
    | some reason =>
      storePageError "CATALOG.INVALID_INPUT"
        "transaction_inventory_snapshot.evolution_invalid" reason
    | none => return start

def nextAppendPageNumber (disk : CowDisk κ) : Nat :=
  max kCatalogOverflowFirstPageNumber ((disk.inventoryPages.map (·.pageNumber) ++
      disk.rowPages.map (·.pageNumber)).foldl max 0 + 1)

/-- The chain of the new inventory: the pages there are, then new ones at the
end of the device. -/
def planPageNumbers (pageNumbers : List Nat) (required append : Nat) : List Nat :=
  (pageNumbers ++ ((List.range (required + pageNumbers.length)).map
    (append + ·)).filter (· ∉ pageNumbers)).take required

def planInventoryPages (capacity generation : Nat)
    (inventory : LocalTransactionInventory) (pageNumbers : List Nat) :
    List TransactionInventoryPageBody :=
  pageNumbers.zipIdx.map fun c =>
    { pageNumber := c.1
      previousPageNumber := if c.2 = 0 then 0 else (pageNumbers[c.2 - 1]?).getD 0
      nextPageNumber := (pageNumbers[c.2 + 1]?).getD 0
      inventoryGeneration := generation
      inventory :=
        { nextLocalTransactionId := inventory.nextLocalTransactionId
          nextCommitSequence := inventory.nextCommitSequence
          entries := (inventory.entries.drop (c.2 * capacity)).take capacity } }

def buildTransactionInventoryPageBody (page : TransactionInventoryPageBody)
    (pageSize : Nat) : Except DiagnosticRecord TransactionInventoryPageBody :=
  match validateLocalTransactionInventoryStructure page.inventory with
  | some reason =>
    storePageError "CATALOG.INVALID_INPUT" "transaction_inventory_page.inventory_invalid" reason
  | none =>
  if page.inventory.entries.length > maxTransactionInventoryEntriesPerPage pageSize then
    storePageError "SB-TXN-INVENTORY-PAGE-CAPACITY-INVALID"
      "transaction_inventory_page.entry_count_exceeds_page_capacity"
      (toString page.inventory.entries.length)
  else if page.inventoryGeneration = 0 then
    storePageError "SB-TXN-INVENTORY-PAGE-GENERATION-INVALID"
      "transaction_inventory_page.generation_invalid"
  else .ok page

def buildPublishJournal (phase : PublishPhase) (generation : Nat)
    (start : PublicationStart) (inventory : LocalTransactionInventory) :
    Except DiagnosticRecord PublishJournal :=
  let capacity :=
    (kPublishMaxBytes - kPublishHeaderBytes - kPublishDigestBytes) / kPublishEntryBytes
  if start.old.entries.length > capacity ∨
      inventory.entries.length > capacity - start.old.entries.length ∨
      ¬validPublicationInventory start.old ∨
      ¬validPublicationInventory inventory ∨ start.oldGeneration = 0 ∨
      generation ≤ start.oldGeneration then
    storePageError "SB-TXN-INVENTORY-PUBLISH-JOURNAL-CHECKSUM-FAILED"
      "transaction_inventory_publish_journal.checksum_failed"
  else
    .ok
      { phase, generation
        oldGeneration := start.oldGeneration
        oldInventory := start.old
        newInventory := inventory }

/-- The replacement of the carrier, and the sync of its directory. -/
def persistPublishJournal (faults : Nat → Option DiagnosticRecord)
    (phase : PublishPhase) (generation : Nat) (start : PublicationStart)
    (inventory : LocalTransactionInventory) : DeviceM κ Unit := do
  let journal ← ofOutcome (buildPublishJournal phase generation start inventory)
  writeAt faults (.publication journal)
  sync faults

/-- The root page has its header from the start. -/
def writeInventoryPageHeader (faults : Nat → Option DiagnosticRecord)
    (root : Bool) (pageNumber : Nat) : DeviceM κ Unit :=
  if root then pure () else writeAt faults (.inventoryPageHeader pageNumber)

def writeInventoryPages (faults : Nat → Option DiagnosticRecord)
    (policy : InventoryPageSyncPolicy) (pageSize : Nat) :
    (root : Bool) → List TransactionInventoryPageBody → DeviceM κ Unit
  | _, [] => pure ()
  | root, page :: pages => do
      writeInventoryPageHeader faults root page.pageNumber
      let built ← ofOutcome (buildTransactionInventoryPageBody page pageSize)
      writeAt faults (.inventoryPage built)
      syncWhen faults (policy == .perPage)
      writeInventoryPages faults policy pageSize false pages

def publishInventory (faults : Nat → Option DiagnosticRecord)
    (policy : InventoryPageSyncPolicy) (start : PublicationStart)
    (inventory : LocalTransactionInventory) : DeviceM κ LocalTransactionInventory := do
  let session ← get
  let capacity := maxTransactionInventoryEntriesPerPage session.disk.pageSize
  let required := max 1 ((inventory.entries.length + capacity - 1) / capacity)
  let pageNumbers := planPageNumbers start.pageNumbers required (nextAppendPageNumber session.disk)
  let generation := start.watermark + 1
  persistPublishJournal faults .publishing generation start inventory
  writeInventoryPages faults policy session.disk.pageSize true
    (planInventoryPages capacity generation inventory pageNumbers)
  syncWhen faults (policy == .batched)
  persistPublishJournal faults .committed generation start inventory
  return inventory

/-- A publication with no transaction to allocate first. -/
def persistOnce (faults : Nat → Option DiagnosticRecord)
    (policy : InventoryPageSyncPolicy) (inventory : LocalTransactionInventory) :
    DeviceM κ LocalTransactionInventory := do
  let session ← get
  let start ← ofOutcome (checkPublication session.disk inventory)
  publishInventory faults policy start inventory

/-- New transactions are allocated in a publication of their own, which leaves
none to allocate for the second. -/
def persistLocalTransactionInventoryToOpenDevice
    (faults : Nat → Option DiagnosticRecord) (policy : InventoryPageSyncPolicy)
    (inventory : LocalTransactionInventory) : DeviceM κ LocalTransactionInventory := do
  let session ← get
  let start ← ofOutcome (checkPublication session.disk inventory)
  if inventory.entries.any (newlyActive start.old) then
    if start.watermark > u64Max - 2 then
      throw
        { diagnosticCode := "SB-TXN-INVENTORY-PAGE-GENERATION-INVALID"
          messageKey := "transaction_inventory_snapshot.activation_generation_exhausted"
          sourceComponent := "storage.page.transaction_inventory" }
    else do
      ofOutcome (checkStartingAllocation start.old inventory)
      let _ ← persistOnce faults policy (startingInventory start.old inventory)
      persistOnce faults policy inventory
  else publishInventory faults policy start inventory

/-! ## The batch -/

def writeRowPages (faults : Nat → Option DiagnosticRecord) :
    List (RowDataPageBody κ) → DeviceM κ Unit
  | [] => pure ()
  | body :: pages => do
      writeAt faults (.rowPage body)
      writeRowPages faults pages

/-- The batch after its preparation. -/
def writePreparedBatch (faults : Nat → Option DiagnosticRecord)
    (request : PhysicalMgaCowMutationBatch κ) (prepared : PreparedBatch κ) :
    DeviceM κ PhysicalMgaCowMutationBatchResult := do
  let marked ← ofOutcome (markLocalTransactionRollbackOnly prepared.inventory
    prepared.entry.localId)
  let guarded ← persistLocalTransactionInventoryToOpenDevice faults .batched marked.inventory
  writeRowPages faults prepared.pages
  syncWhen faults request.syncAfterBatch
  let completed ← ofOutcome (releaseGuard guarded prepared.entry)
  let _ ← persistLocalTransactionInventoryToOpenDevice faults .batched completed
  return prepared.result request

def prepareBatchOn (cellBytes : κ → Except DiagnosticRecord Nat)
    (disk : CowDisk κ) (request : PhysicalMgaCowMutationBatch κ)
    (issued : Nat → Except DiagnosticRecord TypedUuid) :
    Except DiagnosticRecord (PreparedBatch κ) :=
  prepareBatch cellBytes (disk.view {})
    (loadLocalTransactionInventoryFromOpenDevice disk) request issued

def writePhysicalMgaCowUnpublishedMutationBatchToOpenDevice (faults : Nat → Option DiagnosticRecord)
    (cellBytes : κ → Except DiagnosticRecord Nat) (request : PhysicalMgaCowMutationBatch κ)
    (issued : Nat → Except DiagnosticRecord TypedUuid) :
    DeviceM κ PhysicalMgaCowMutationBatchResult := do
  let session ← get
  let prepared ← ofOutcome (prepareBatchOn cellBytes session.disk request issued)
  writePreparedBatch faults request prepared

end ScratchBird.Storage.Device
