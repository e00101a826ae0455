import ScratchBird.Lib.Extents
import ScratchBird.Storage.FilespaceClass
import ScratchBird.Storage.PageRegistry

/-!
# The page allocation ledger

`page_allocation_lifecycle.cpp`. A ledger has a list of free extents and a list of
allocations. An allocation takes its pages from the front of the first extent that
is large enough, or from a preallocated pool of the same family, which is an
allocation itself. Released pages wait for the cleanup horizon before they go back
to the free extents, which are then sorted and neighbours put together. The entry
of a reclaimed allocation stays in the list as history.

Page numbers and counts are `UInt64` and add as the source's do. A new identity
comes from the identity generator, which is not modelled: a call is given the
answer of the generator, `none` when it fails. `std::sort` is a stable insertion
sort here; extents with equal starts may come in another order in the source, which
matters to nothing below because at most one of them has pages.

Recovery rebuilds the free extents from the entries. It releases those of history
unless a page of theirs has an owner again, which it looks up among the ranges of
the owners, sorted by their starts, each with the largest end up to it.

Metrics and the evidence, which no call reads, are left out.
-/

namespace ScratchBird.PageAllocation

open Lib Storage

inductive PageAllocationLifecycleState where
  | free | reserved | allocated | reusablePendingMga | reusableFree | compacting
  | quarantined | preallocated
  deriving DecidableEq

def pageAllocationLifecycleStateName : PageAllocationLifecycleState → String
  | .free => "free"
  | .reserved => "reserved"
  | .preallocated => "preallocated"
  | .allocated => "allocated"
  | .reusablePendingMga => "reusable_pending_mga"
  | .reusableFree => "reusable_free"
  | .compacting => "compacting"
  | .quarantined => "quarantined"

structure PageFreeExtent where
  startPage : UInt64 := 0
  pageCount : UInt64 := 0
  deriving DecidableEq

def PageFreeExtent.pages (extent : PageFreeExtent) : Extent :=
  ⟨extent.startPage.toNat, extent.pageCount.toNat⟩

structure PageAllocationEntry extends PageFreeExtent where
  allocationUuid : TypedUuid := {}
  databaseUuid : TypedUuid := {}
  filespaceUuid : TypedUuid := {}
  ownerObjectUuid : TypedUuid := {}
  policyUuid : TypedUuid := {}
  capacityEvidenceUuid : TypedUuid := {}
  creatorTransactionUuid : TypedUuid := {}
  creatorLocalTransactionId : Nat := 0
  durablePageGeneration : Nat := 0
  publishedPageGeneration : Nat := 0
  pageFamily : String := ""
  filespaceClass : String := ""
  filespaceClassReason : String := ""
  state : PageAllocationLifecycleState := .free
  reusableAfterLocalTransactionId : Nat := 0
  durabilityFenceSatisfied : Bool := false
  deriving DecidableEq

structure PageAllocationLedger where
  databaseUuid : TypedUuid := {}
  filespaceUuid : TypedUuid := {}
  freeExtents : List PageFreeExtent := []
  allocations : List PageAllocationEntry := []
  nextAllocationSeed : Nat := 1

/-- The fields that both kinds of request have. -/
structure PageRequest where
  databaseUuid : TypedUuid := {}
  filespaceUuid : TypedUuid := {}
  creatorTransactionUuid : TypedUuid := {}
  creatorLocalTransactionId : Nat := 0
  pageFamily : String := ""
  objectClass : FilespaceObjectClass := .unspecified
  pageCount : UInt64 := 0
  pageGeneration : Nat := 1
  engineAuthoritative : Bool := false
  durabilityFenceSatisfied : Bool
  clusterRouteRequested : Bool := false
  explicitFilespaceClass : Bool := false

structure PageAllocationRequest extends PageRequest where
  ownerObjectUuid : TypedUuid := {}
  durabilityFenceSatisfied := true

structure PagePreallocationRequest extends PageRequest where
  policyUuid : TypedUuid := {}
  capacityEvidenceUuid : TypedUuid := {}
  durabilityFenceSatisfied := false

structure PageReleaseRequest where
  allocationUuid : TypedUuid := {}
  cleanupHorizonLocalTransactionId : Nat := 0
  engineMgaAuthoritative : Bool := false

structure PageCompactionRequest where
  engineAuthoritative : Bool := false
  shutdownOrMaintenanceFenced : Bool := false

/-! ## Identities and diagnostics -/

def isOptionalObjectIdentity (uuid : TypedUuid) : Bool :=
  if uuid.value.isNil then uuid.kind == .unknown || uuid.kind == .object
  else isTypedEngineIdentity uuid .object

def sameTypedUuid (left right : TypedUuid) : Bool :=
  left.kind == right.kind && left.value == right.value

def isKnownPageFamilyForAllocation (family : String) : Bool :=
  isKnownPageFamilyName family || family == "overflow" || family == "toast"

def makePageAllocationLifecycleDiagnostic (severity : Severity) (code key : String)
    (detail : String := "") : DiagnosticRecord :=
  { diagnosticCode := code
    messageKey := key
    detail
    sourceComponent := "storage.page_allocation_lifecycle"
    severity }

/-- The words of a message key, as a diagnostic code has them. -/
def codeWords (name : String) : String := name.toUpper.map fun c => if c = '_' then '-' else c

/-- `AllocationError` and `MutationError`; they differ in what they count. -/
def allocationError (name : String) (detail : String := "") : DiagnosticRecord :=
  makePageAllocationLifecycleDiagnostic .error ("SB-STORAGE-PAGE-ALLOCATION-" ++ codeWords name)
    ("storage.page_allocation." ++ name) detail

def preallocationError (name : String) : DiagnosticRecord :=
  makePageAllocationLifecycleDiagnostic .error ("SB-STORAGE-PAGE-PREALLOCATION-" ++ codeWords name)
    ("storage.page_allocation.preallocation_" ++ name)

/-! ## Taking pages and giving them back -/

/-- The extent without its first pages; nothing when none are left. -/
def PageFreeExtent.withoutFront (extent : PageFreeExtent) (pageCount : UInt64) :
    List PageFreeExtent :=
  if extent.pageCount - pageCount = 0 then []
  else [⟨extent.startPage + pageCount, extent.pageCount - pageCount⟩]

def takeFreeExtentFrom (pageCount : UInt64) :
    List PageFreeExtent → Option (UInt64 × List PageFreeExtent)
  | [] => none
  | extent :: rest =>
    if extent.pageCount < pageCount then
      (takeFreeExtentFrom pageCount rest).map fun taken => (taken.1, extent :: taken.2)
    else some (extent.startPage, extent.withoutFront pageCount ++ rest)

def takeFreeExtent (freeExtents : List PageFreeExtent) (pageCount : UInt64) :
    Option (UInt64 × List PageFreeExtent) :=
  if pageCount = 0 then none else takeFreeExtentFrom pageCount freeExtents

def findSufficientFreeExtentIndex (freeExtents : List PageFreeExtent)
    (pageCount : UInt64) : Option Nat :=
  freeExtents.findIdx? fun extent => decide (pageCount ≤ extent.pageCount)

def takeFreeExtentAtIndex (freeExtents : List PageFreeExtent) (extentIndex : Nat)
    (pageCount : UInt64) : Option (UInt64 × List PageFreeExtent) :=
  match freeExtents[extentIndex]? with
  | none => none
  | some extent =>
    if pageCount = 0 ∨ extent.pageCount < pageCount then none
    else some (extent.startPage, freeExtents.take extentIndex ++
      (extent.withoutFront pageCount ++ freeExtents.drop (extentIndex + 1)))

/-- The loop that puts neighbours together; `last` is the back of the result. -/
def mergeAfter (last : PageFreeExtent) : List PageFreeExtent → List PageFreeExtent
  | [] => [last]
  | extent :: rest =>
    if last.startPage + last.pageCount = extent.startPage then
      mergeAfter { last with pageCount := last.pageCount + extent.pageCount } rest
    else last :: mergeAfter extent rest

def mergeNeighbours : List PageFreeExtent → List PageFreeExtent
  | [] => []
  | extent :: rest => mergeAfter extent rest

def addFreeExtent (freeExtents : List PageFreeExtent) (startPage pageCount : UInt64) :
    List PageFreeExtent :=
  if startPage = 0 ∨ pageCount = 0 then freeExtents
  else mergeNeighbours <| List.insertionSort
    (fun left right : PageFreeExtent => left.startPage ≤ right.startPage)
    (freeExtents ++ [⟨startPage, pageCount⟩])

/-! ## Preallocated pools -/

def preallocatedPoolScopeMatches (allocation : PageAllocationEntry)
    (request : PageAllocationRequest) (requestedFilespaceClass : String) : Bool :=
  allocation.state == .preallocated && sameTypedUuid allocation.databaseUuid request.databaseUuid &&
    sameTypedUuid allocation.filespaceUuid request.filespaceUuid &&
    allocation.pageFamily == request.pageFamily &&
    allocation.filespaceClass == requestedFilespaceClass

def preallocatedPoolDurable (allocation : PageAllocationEntry) : Bool :=
  allocation.durabilityFenceSatisfied && allocation.publishedPageGeneration != 0 &&
    decide (allocation.publishedPageGeneration ≤ allocation.durablePageGeneration)

def findSufficientPreallocatedPoolIndex (ledger : PageAllocationLedger)
    (request : PageAllocationRequest) (requestedFilespaceClass : String) : Option Nat :=
  ledger.allocations.findIdx? fun allocation =>
    preallocatedPoolScopeMatches allocation request requestedFilespaceClass &&
      preallocatedPoolDurable allocation &&
      decide (request.pageCount ≤ allocation.pageCount)

def hasUnsafeSufficientPreallocatedPool (ledger : PageAllocationLedger)
    (request : PageAllocationRequest) (requestedFilespaceClass : String) : Bool :=
  ledger.allocations.any fun allocation =>
    preallocatedPoolScopeMatches allocation request requestedFilespaceClass &&
      !preallocatedPoolDurable allocation &&
      decide (request.pageCount ≤ allocation.pageCount)

/-- The pool as it was, and the allocations without its first pages. -/
def consumePreallocatedPoolAtIndex (allocations : List PageAllocationEntry)
    (allocationIndex : Nat) (pageCount : UInt64) :
    Option (PageAllocationEntry × List PageAllocationEntry) :=
  match allocations[allocationIndex]? with
  | none => none
  | some pool =>
    if pageCount = 0 ∨ pool.pageCount < pageCount then none
    else some (pool, allocations.take allocationIndex ++
      ((pool.withoutFront pageCount).map ({ pool with toPageFreeExtent := · }) ++
        allocations.drop (allocationIndex + 1)))

/-! ## Allocating -/

/-- The checks that both kinds of request go through. `identities` are the identity
checks of the kind, and `extra` is a refusal of its own after them. -/
def checkPageRequest (report : String → DiagnosticRecord)
    (ledger : PageAllocationLedger) (request : PageRequest) (identities : Bool)
    (extra : Option DiagnosticRecord) : Option DiagnosticRecord :=
  if !request.engineAuthoritative then some (report "not_engine_authoritative")
  else if request.clusterRouteRequested then some (report "cluster_route_unavailable")
  else if !isTypedEngineIdentity request.databaseUuid .database ||
      !isTypedEngineIdentity request.filespaceUuid .filespace ||
      !isTypedEngineIdentity request.creatorTransactionUuid .transaction ||
      !identities then some (report "uuid_invalid")
  else if extra.isSome then extra
  else if ledger.databaseUuid.valid && ledger.databaseUuid.value != request.databaseUuid.value then
    some (report "database_mismatch")
  else if ledger.filespaceUuid.valid &&
      ledger.filespaceUuid.value != request.filespaceUuid.value then
    some (report "filespace_mismatch")
  else if request.creatorLocalTransactionId == 0 || request.pageCount == 0 ||
      !isKnownPageFamilyForAllocation request.pageFamily then
    some (report "request_invalid")
  else if request.pageGeneration == 0 || !request.durabilityFenceSatisfied then
    some (report "durability_fence_required")
  else none

def resolvePageFilespaceClass (request : PageRequest) (ownerObjectUuid : TypedUuid) :
    Except DiagnosticRecord FilespaceClassDecision :=
  match resolveFilespaceClass
    { databaseUuid := request.databaseUuid
      filespaceUuid := request.filespaceUuid
      ownerObjectUuid
      objectClass := request.objectClass
      pageFamily := request.pageFamily
      explicitObjectClass :=
        request.explicitFilespaceClass || request.objectClass != .unspecified } with
  | .ok decision => .ok decision
  | .error diagnostic =>
    .error (makePageAllocationLifecycleDiagnostic .error diagnostic.diagnosticCode
      diagnostic.messageKey)

def PageRequest.toEntry (request : PageRequest) (allocationUuid : TypedUuid)
    (decision : FilespaceClassDecision) (startPage : UInt64)
    (state : PageAllocationLifecycleState) : PageAllocationEntry :=
  { allocationUuid
    databaseUuid := request.databaseUuid
    filespaceUuid := request.filespaceUuid
    creatorTransactionUuid := request.creatorTransactionUuid
    creatorLocalTransactionId := request.creatorLocalTransactionId
    startPage
    pageCount := request.pageCount
    durablePageGeneration := request.pageGeneration
    publishedPageGeneration := request.pageGeneration
    durabilityFenceSatisfied := true
    pageFamily := request.pageFamily
    filespaceClass := filespaceClassName decision.filespaceClass
    filespaceClassReason := decision.diagnostic.diagnosticCode
    state }

/-- The entry joins a ledger that its pages have been taken from. -/
def PageAllocationLedger.record (ledger : PageAllocationLedger)
    (entry : PageAllocationEntry) : PageAllocationLedger :=
  { ledger with
    databaseUuid := entry.databaseUuid
    filespaceUuid := entry.filespaceUuid
    allocations := ledger.allocations ++ [entry]
    nextAllocationSeed := ledger.nextAllocationSeed + 1 }

inductive AllocationSource where
  | preallocatedPool (index : Nat)
  | freeExtent (index : Nat)

def selectAllocationSource (ledger : PageAllocationLedger)
    (request : PageAllocationRequest) (requestedFilespaceClass : String) :
    Except DiagnosticRecord AllocationSource :=
  match findSufficientPreallocatedPoolIndex ledger request requestedFilespaceClass with
  | some index => .ok (.preallocatedPool index)
  | none =>
    if hasUnsafeSufficientPreallocatedPool ledger request requestedFilespaceClass then
      .error (allocationError "preallocated_pool_not_durable")
    else match findSufficientFreeExtentIndex ledger.freeExtents request.pageCount with
    | some index => .ok (.freeExtent index)
    | none => .error (allocationError "insufficient_free_space")

/-- The first page, the pool the pages come from (an empty entry when they come
from a free extent), and the ledger without the pages. -/
def consumeAllocationSource (ledger : PageAllocationLedger) (pageCount : UInt64) :
    AllocationSource → Option (UInt64 × PageAllocationEntry × PageAllocationLedger)
  | .preallocatedPool index =>
    (consumePreallocatedPoolAtIndex ledger.allocations index pageCount).map fun consumed =>
        (consumed.1.startPage, consumed.1, { ledger with allocations := consumed.2 })
  | .freeExtent index =>
    (takeFreeExtentAtIndex ledger.freeExtents index pageCount).map fun taken =>
      (taken.1, {}, { ledger with freeExtents := taken.2 })

/-- The new entry is the last one of the ledger. -/
def reservePageAllocation (ledger : PageAllocationLedger)
    (request : PageAllocationRequest) (issued : Option TypedUuid) :
    Except DiagnosticRecord PageAllocationLedger :=
  match checkPageRequest allocationError ledger request.toPageRequest
      (isOptionalObjectIdentity request.ownerObjectUuid) none with
  | some diagnostic => .error diagnostic
  | none => do
      let decision ← resolvePageFilespaceClass request.toPageRequest request.ownerObjectUuid
      let source ← selectAllocationSource ledger request
        (filespaceClassName decision.filespaceClass)
      let allocationUuid := issued.getD {}
      if !allocationUuid.valid then .error (allocationError "identity_invalid")
      else match consumeAllocationSource ledger request.pageCount source with
      | none => .error (allocationError "source_stale")
      | some (startPage, consumedPool, remaining) =>
        .ok (remaining.record
          { request.toEntry allocationUuid decision startPage .allocated with
            ownerObjectUuid := request.ownerObjectUuid
            policyUuid := consumedPool.policyUuid
            capacityEvidenceUuid := consumedPool.capacityEvidenceUuid })

def preallocatePageFamilyPool (ledger : PageAllocationLedger)
    (request : PagePreallocationRequest) (issued : Option TypedUuid) :
    Except DiagnosticRecord PageAllocationLedger :=
  match checkPageRequest preallocationError ledger request.toPageRequest
      (isTypedEngineIdentity request.policyUuid .object) (if request.capacityEvidenceUuid.valid &&
          !isTypedEngineIdentity request.capacityEvidenceUuid .object then
        some (preallocationError "capacity_evidence_invalid") else none) with
  | some diagnostic => .error diagnostic
  | none => do
      let decision ← resolvePageFilespaceClass request.toPageRequest request.policyUuid
      match issued with
      | none => .error (preallocationError "identity_invalid")
      | some allocationUuid =>
        match takeFreeExtent ledger.freeExtents request.pageCount with
        | none => .error (preallocationError "insufficient_free_space")
        | some (startPage, freeExtents) =>
          .ok ({ ledger with freeExtents := freeExtents }.record
            { request.toEntry allocationUuid decision startPage .preallocated with
              policyUuid := request.policyUuid
              capacityEvidenceUuid := request.capacityEvidenceUuid })

/-! ## Releasing and reclaiming -/

/-- Where the first entry with the identity is, and the entry. -/
def findMutable (ledger : PageAllocationLedger) (allocationUuid : TypedUuid) :
    Option (Nat × PageAllocationEntry) :=
  if !isTypedEngineIdentity allocationUuid .object then none
  else (ledger.allocations.findIdx? fun allocation =>
      sameTypedUuid allocation.allocationUuid allocationUuid).bind fun index =>
    ledger.allocations[index]?.map (index, ·)

/-- The checks before an entry changes state: it is in the state the change starts
from. -/
def findInState (ledger : PageAllocationLedger) (request : PageReleaseRequest)
    (state : PageAllocationLifecycleState) : Except DiagnosticRecord (Nat × PageAllocationEntry) :=
  if !request.engineMgaAuthoritative then
    .error (allocationError "mga_authority_required")
  else match findMutable ledger request.allocationUuid with
  | none => .error (allocationError "not_found")
  | some (index, before) =>
    if before.state ≠ state then
      .error (allocationError "state_invalid" (pageAllocationLifecycleStateName before.state))
    else .ok (index, before)

def PageAllocationLedger.setAllocation (ledger : PageAllocationLedger) (index : Nat)
    (entry : PageAllocationEntry) : PageAllocationLedger :=
  { ledger with allocations := ledger.allocations.set index entry }

def markPageAllocationReusable (ledger : PageAllocationLedger)
    (request : PageReleaseRequest) : Except DiagnosticRecord PageAllocationLedger := do
  let (index, before) ← findInState ledger request .allocated
  if request.cleanupHorizonLocalTransactionId = 0 then
    .error (allocationError "cleanup_horizon_required")
  else .ok (ledger.setAllocation index
    { before with
      state := .reusablePendingMga
      reusableAfterLocalTransactionId := before.creatorLocalTransactionId })

def reclaimReusablePageAllocation (ledger : PageAllocationLedger)
    (request : PageReleaseRequest) : Except DiagnosticRecord PageAllocationLedger := do
  let (index, before) ← findInState ledger request .reusablePendingMga
  if request.cleanupHorizonLocalTransactionId ≤ before.creatorLocalTransactionId then
    .error (allocationError "blocked_by_mga_horizon" (toString before.creatorLocalTransactionId))
  else .ok { ledger.setAllocation index { before with state := .reusableFree } with
    freeExtents := addFreeExtent ledger.freeExtents before.startPage before.pageCount }

def hasPendingMgaReusablePages (ledger : PageAllocationLedger) : Bool :=
  ledger.allocations.any (·.state == .reusablePendingMga)

/-- The extent that is added to set the coalescing off is refused for its page
number, so nothing is put together. -/
def compactPageFreeSpace (ledger : PageAllocationLedger) (request : PageCompactionRequest) :
    Except DiagnosticRecord PageAllocationLedger :=
  if !request.engineAuthoritative || !request.shutdownOrMaintenanceFenced then
    .error (allocationError "compaction_fence_required")
  else if hasPendingMgaReusablePages ledger then
    .error (allocationError "compaction_blocked_by_mga")
  else .ok { ledger with freeExtents := addFreeExtent ledger.freeExtents 0 0 }

/-! ## Recovery -/

inductive PageAllocationRecoveryAction where
  | noAction | retain | releaseToFreeMap | quarantine | failClosed
  deriving DecidableEq

structure PageAllocationRecoveryClassification where
  allocationUuid : TypedUuid
  observedState : PageAllocationLifecycleState
  action : PageAllocationRecoveryAction := .failClosed
  failClosed : Bool := true
  stableReason : String := ""

def validAllocationRecoveryRange (entry : PageAllocationEntry) : Bool :=
  entry.startPage != 0 && entry.pageCount != 0 &&
    decide (entry.pageCount.toNat ≤ u64Max - entry.startPage.toNat)

def PageAllocationEntry.isHistory (entry : PageAllocationEntry) : Bool :=
  entry.state == .free || entry.state == .reusableFree

def classifyPageAllocationForRecovery (allocation : PageAllocationEntry) :
    PageAllocationRecoveryClassification :=
  let classify (action : PageAllocationRecoveryAction) failClosed stableReason :=
    ⟨allocation.allocationUuid, allocation.state, action, failClosed, stableReason⟩
  if !isTypedEngineIdentity allocation.allocationUuid .object ||
      !isTypedEngineIdentity allocation.databaseUuid .database ||
      !isTypedEngineIdentity allocation.filespaceUuid .filespace ||
      !isTypedEngineIdentity allocation.creatorTransactionUuid .transaction ||
      !isOptionalObjectIdentity allocation.ownerObjectUuid ||
      !isOptionalObjectIdentity allocation.policyUuid ||
      !isOptionalObjectIdentity allocation.capacityEvidenceUuid then
    classify .failClosed true "allocation recovery identity is invalid"
  else if !validAllocationRecoveryRange allocation || allocation.creatorLocalTransactionId == 0 ||
      !isKnownPageFamilyForAllocation allocation.pageFamily ||
      (allocation.state == .preallocated &&
        !isTypedEngineIdentity allocation.policyUuid .object) ||
      ((allocation.state == .reusablePendingMga || allocation.state == .reusableFree) &&
        allocation.reusableAfterLocalTransactionId == 0) then
    classify .failClosed true "allocation recovery extent or metadata is invalid"
  else if !preallocatedPoolDurable allocation then
    classify .failClosed true "allocation references non-durable page generation"
  else match allocation.state with
  | .free | .reusableFree =>
    classify .releaseToFreeMap false "free allocation can rebuild free-space map"
  | .allocated => classify .retain false "allocated page ownership must be retained"
  | .preallocated =>
    classify .retain false "preallocated page-family pool must not become unsafe reuse"
  | .reusablePendingMga => classify .retain false "MGA cleanup horizon has not authorized reuse"
  | .reserved | .compacting =>
    classify .failClosed true "incomplete allocation transition requires recovery fence"
  | .quarantined => classify .quarantine true "quarantined page ownership cannot be reused"

/-- The range of the pages; it is only taken of valid ranges, whose end is a `u64`. -/
def PageFreeExtent.range (extent : PageFreeExtent) : Nat × Nat :=
  (extent.startPage.toNat, extent.startPage.toNat + extent.pageCount.toNat)

/-- Each end raised to the largest before it, of which `largest` is the first. -/
def prefixMaximumEnds (largest : Nat) : List (Nat × Nat) → List (Nat × Nat)
  | [] => []
  | range :: rest =>
    (range.1, max range.2 largest) :: prefixMaximumEnds (max range.2 largest) rest

def retainedRanges (allocations : List PageAllocationEntry) : List (Nat × Nat) :=
  (allocations.filter fun entry =>
    !entry.isHistory && validAllocationRecoveryRange entry).map (·.range)

/-- Whether the last of the ranges that start below the end reaches past the start. -/
def overlapsRetained (ranges : List (Nat × Nat)) (range : Nat × Nat) : Bool :=
  (ranges.takeWhile fun retained => retained.1 < range.2).getLast?.any
    fun retained => range.1 < retained.2

def PageAllocationRecoveryClassification.refuse (reason : String)
    (classification : PageAllocationRecoveryClassification) :
    PageAllocationRecoveryClassification :=
  { classification with action := .failClosed, failClosed := true, stableReason := reason }

/-- The classification of an entry in its ledger. An identity that occurs twice is
refused wherever it occurs, at its first place when the second is met. -/
def classifyInLedger (ledger : PageAllocationLedger) (allocation : PageAllocationEntry) :
    PageAllocationRecoveryClassification :=
  let classification := classifyPageAllocationForRecovery allocation
  if 1 < ledger.allocations.countP (·.allocationUuid.value == allocation.allocationUuid.value) then
    classification.refuse "duplicate allocation recovery identity"
  else if !sameTypedUuid allocation.databaseUuid ledger.databaseUuid ||
      !sameTypedUuid allocation.filespaceUuid ledger.filespaceUuid then
    classification.refuse "allocation does not belong to recovery ledger"
  else if classification.action ≠ .releaseToFreeMap then classification
  else if ledger.allocations.any fun retained =>
      !retained.isHistory && !validAllocationRecoveryRange retained then
    classification.refuse "malformed retained extent prevents free-map reconstruction"
  else if overlapsRetained (prefixMaximumEnds 0 ((retainedRanges ledger.allocations).insertionSort
      (toLex · ≤ toLex ·))) allocation.range then
    { classification with
      action := .retain
      stableReason := "released history overlaps retained allocation ownership" }
  else classification

def classifyPageAllocationLedgerForRecovery (ledger : PageAllocationLedger) :
    Except DiagnosticRecord (List PageAllocationRecoveryClassification) :=
  if !isTypedEngineIdentity ledger.databaseUuid .database ||
      !isTypedEngineIdentity ledger.filespaceUuid .filespace then
    .error (makePageAllocationLifecycleDiagnostic .error "CATALOG.INVALID_INPUT"
      "storage.page_allocation.recovery_ledger_identity_invalid")
  else .ok (ledger.allocations.map (classifyInLedger ledger))

/-! ## Sequences of calls -/

/-- A call, with the identity the generator issues to it where it asks for one. -/
inductive PageAllocationCall where
  | reserve (request : PageAllocationRequest) (issued : Option TypedUuid)
  | preallocate (request : PagePreallocationRequest) (issued : Option TypedUuid)
  | markReusable (request : PageReleaseRequest)
  | reclaim (request : PageReleaseRequest)
  | compact (request : PageCompactionRequest)

def PageAllocationCall.perform (ledger : PageAllocationLedger) :
    PageAllocationCall → Except DiagnosticRecord PageAllocationLedger
  | .reserve request issued => reservePageAllocation ledger request issued
  | .preallocate request issued => preallocatePageFamilyPool ledger request issued
  | .markReusable request => markPageAllocationReusable ledger request
  | .reclaim request => reclaimReusablePageAllocation ledger request
  | .compact request => compactPageFreeSpace ledger request

/-- The ledger after a call; a refused call leaves it as it was. -/
def PageAllocationLedger.step (ledger : PageAllocationLedger)
    (call : PageAllocationCall) : PageAllocationLedger :=
  match call.perform ledger with
  | .ok after => after
  | .error _ => ledger

def PageAllocationLedger.run (ledger : PageAllocationLedger)
    (calls : List PageAllocationCall) : PageAllocationLedger :=
  calls.foldl PageAllocationLedger.step ledger

end ScratchBird.PageAllocation
