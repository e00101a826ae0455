import ScratchBird.Index.BtreeDelete

/-!
# Building an ordered index from sorted cells

`BuildIndexBtreePhysicalBulkLoadedTree`: leaves are filled one after the other,
then the fences of a level are packed into the pages of the level above until a
level has one page. The loop over the levels has no bound of its own. Here it
runs for a number of rounds, and `none` says that it has not ended by then.

Evidence strings, the result flags that are constant on success and the rows of
the report are left out; the report's verdict is kept.
-/

namespace ScratchBird.Btree

open Lib
open Storage (isTypedEngineIdentity kPageHeaderSerializedBytes)

structure IndexBtreePhysicalBulkBuildRequest where
  indexUuid : TypedUuid := {}
  pageSize : UInt32 := 0
  leafEntryCapacity : UInt32 := 0
  internalEntryCapacity : UInt32 := 0
  sortedCells : List IndexBtreeCell := []
  sortedOrderProofValid : Bool := false

structure IndexBtreePhysicalBulkBuildResult where
  tree : IndexBtreePhysicalTree
  branchLevelsBuilt : Bool
  fenceKeysStored : Bool
  leafPageCount : Nat
  branchLevelCount : Nat

namespace IndexBtreePhysicalBulkBuildRequest

def leafCapacity (request : IndexBtreePhysicalBulkBuildRequest) : UInt32 :=
  if request.leafEntryCapacity = 0 then 128 else request.leafEntryCapacity

def internalCapacity (request : IndexBtreePhysicalBulkBuildRequest) : UInt32 :=
  if request.internalEntryCapacity = 0 then request.leafCapacity
  else request.internalEntryCapacity

end IndexBtreePhysicalBulkBuildRequest

/-! ## Filling pages -/

def bulkPageAcceptsCell (body : IndexBtreePageBody) (cell : IndexBtreeCell)
    (pageSize capacity : UInt32) : Bool :=
  if capacity ≠ 0 ∧ capacity.toNat ≤ body.cells.length then false
  else
    (buildIndexBtreePageBody { body with cells := body.cells ++ [cell] } pageSize).isOk

def IndexBtreePageBody.withCell (page : IndexBtreePageBody)
    (cell : IndexBtreeCell) : IndexBtreePageBody := { page with cells := page.cells ++ [cell] }

/-- What a packing loop needs to know. -/
structure BulkPacking where
  pageSize : UInt32
  capacity : UInt32
  /-- The empty page of a number. -/
  blank : UInt64 → IndexBtreePageBody
  /-- The check made on each cell before it is packed. -/
  check : IndexBtreeCell → Except DiagnosticRecord Unit
  overflowCode : String
  overflowKey : String

/-- The pages in order, and for each cell the number of the page that took it. -/
structure BulkPacked where
  pages : List IndexBtreePageBody
  holders : List UInt64
  next : UInt64

/-- The packing loop: cells go to the page at hand until it does not accept one,
which then has to fit a new page. -/
def packCells (packing : BulkPacking) :
    List IndexBtreeCell → IndexBtreePageBody → UInt64 → Except DiagnosticRecord BulkPacked
  | [], page, next => .ok { pages := [page], holders := [], next := next }
  | cell :: rest, page, next => do
      packing.check cell
      if bulkPageAcceptsCell page cell packing.pageSize packing.capacity then do
        let packed ← packCells packing rest (page.withCell cell) next
        .ok { packed with holders := page.pageNumber :: packed.holders }
      else if page.cells = [] then
        indexPageError packing.overflowCode packing.overflowKey
      else if bulkPageAcceptsCell (packing.blank next) cell packing.pageSize
          packing.capacity then do
        let packed ← packCells packing rest ((packing.blank next).withCell cell) (next + 1)
        .ok { packed with pages := page :: packed.pages, holders := next :: packed.holders }
      else indexPageError packing.overflowCode packing.overflowKey

/-- Each page of a level names its neighbours. -/
def linkSiblings : UInt64 → List IndexBtreePageBody → List IndexBtreePageBody
  | _, [] => []
  | left, page :: rest =>
    { page with
      leftSiblingPageNumber := left
      rightSiblingPageNumber := (rest.head?.map (·.pageNumber)).getD 0 } ::
        linkSiblings page.pageNumber rest

/-! ## Levels -/

structure BulkState where
  /-- The finished levels, lowest first. -/
  below : List IndexBtreePageBody := []
  current : List IndexBtreePageBody
  next : UInt64
  branchLevelCount : Nat := 0

def leafPacking (request : IndexBtreePhysicalBulkBuildRequest) : BulkPacking where
  pageSize := request.pageSize
  capacity := request.leafCapacity
  blank n := { indexUuid := request.indexUuid, pageNumber := n, pageKind := .leaf, treeLevel := 0 }
  check _ := .ok ()
  overflowCode := "SB-INDEX-BTREE-BULK-BUILD-LEAF-CELL-OVERFLOW"
  overflowKey := "storage.index_btree_bulk_build.leaf_cell_overflow"

def packLeaves (request : IndexBtreePhysicalBulkBuildRequest) :
    Except DiagnosticRecord BulkState := do
  let packed ← packCells (leafPacking request) request.sortedCells ((leafPacking request).blank 1) 2
  .ok { current := linkSiblings 0 packed.pages, next := packed.next }

/-- The fence of a child has a key and a number. -/
def checkBulkFence (fence : IndexBtreeCell) : Except DiagnosticRecord Unit :=
  if fence.encodedKey = [] ∨ fence.childPageNumber = 0 then
    indexPageError "SB-INDEX-BTREE-BULK-BUILD-FENCE-CELL-INVALID"
      "storage.index_btree_bulk_build.fence_cell_invalid" (toString fence.childPageNumber.toNat)
  else .ok ()

def branchPacking (request : IndexBtreePhysicalBulkBuildRequest)
    (level : UInt16) : BulkPacking where
  pageSize := request.pageSize
  capacity := request.internalCapacity
  blank n :=
    { indexUuid := request.indexUuid, pageNumber := n, pageKind := .internal, treeLevel := level }
  check := checkBulkFence
  overflowCode := "SB-INDEX-BTREE-BULK-BUILD-INTERNAL-CELL-OVERFLOW"
  overflowKey := "storage.index_btree_bulk_build.internal_cell_overflow"

def IndexBtreePageBody.adoptedBy (page : IndexBtreePageBody) (parent : UInt64) :
    IndexBtreePageBody :=
  { page with parentPageNumber := parent }

/-- One round: the parents of the current level become the current level. -/
def buildBranchLevel (request : IndexBtreePhysicalBulkBuildRequest)
    (state : BulkState) : Except DiagnosticRecord BulkState := do
  let level := (state.current.head?.map (·.treeLevel)).getD 0 + 1
  let packing := branchPacking request level
  let packed ← packCells packing (state.current.map fenceCellForPage)
    (packing.blank state.next) (state.next + 1)
  .ok
    { below := state.below ++ List.zipWith (·.adoptedBy ·) state.current packed.holders
      current := linkSiblings 0 packed.pages
      next := packed.next
      branchLevelCount := state.branchLevelCount + 1 }

/-- Rounds while a level has more than one page. -/
def buildBranchLevels (request : IndexBtreePhysicalBulkBuildRequest) :
    Nat → BulkState → Option (Except DiagnosticRecord BulkState)
  | rounds, state =>
    if state.current.length ≤ 1 then some (.ok state)
    else
      match rounds with
      | 0 => none
      | rounds + 1 =>
        match buildBranchLevel request state with
        | .error d => some (.error d)
        | .ok state => buildBranchLevels request rounds state

/-! ## The tree -/

def pageNotAfter (a b : IndexBtreePageBody) : Prop := ¬b.pageNumber < a.pageNumber

instance (a b : IndexBtreePageBody) : Decidable (pageNotAfter a b) :=
  inferInstanceAs (Decidable (¬_))

def serializePage (pageSize : UInt32) (page : IndexBtreePageBody) :
    Except DiagnosticRecord IndexBtreePhysicalPageImage := do
  let built ← atStage (toString page.pageNumber.toNat) (buildIndexBtreePageBody page pageSize)
  let _ ← atStage (toString page.pageNumber.toNat)
    (parseIndexBtreePageBody built.serialized page.pageNumber)
  .ok ⟨page.pageNumber, built.serialized⟩

/-- The pages that cannot be reached can still be parsed. -/
def checkOrphans (reachable : List UInt64) :
    List IndexBtreePhysicalPageImage → Except DiagnosticRecord Unit
  | [] => .ok ()
  | image :: rest =>
    if reachable.contains image.pageNumber then checkOrphans reachable rest
    else
      match parseIndexBtreePageBody image.serialized image.pageNumber with
      | .ok _ => checkOrphans reachable rest
      | .error d =>
        indexPageError "SB-INDEX-BTREE-PHYSICAL-REPORT-ORPHAN-STALE-PAGE-IMAGE"
          "storage.index_btree_physical.report_orphan_stale_page_image" d.diagnosticCode

/-- The verdict of `BuildIndexBtreePhysicalTreeReport`. -/
def reportIndexBtreePhysicalTree (tree : IndexBtreePhysicalTree) : Except DiagnosticRecord Unit :=
  if tree.rootPageNumber = 0 ∨ tree.pageSize = 0 then
    indexPageError "SB-INDEX-BTREE-PHYSICAL-REPORT-TREE-INVALID"
      "storage.index_btree_physical.report_tree_invalid"
  else do
    let content ← collectFromRoot tree
    checkOrphans content.reachablePages tree.pages
    let _ ← validateIndexBtreePhysicalTree tree
    .ok ()

def serializeBulkBuiltPages (pages : List IndexBtreePageBody)
    (rootPageNumber nextPageNumber : UInt64) (pageSize : UInt32)
    (indexUuid : TypedUuid) (leafPageCount branchLevelCount : Nat) :
    Except DiagnosticRecord IndexBtreePhysicalBulkBuildResult := do
  let images ← (pages.insertionSort pageNotAfter).mapM (serializePage pageSize)
  let tree : IndexBtreePhysicalTree :=
    { pageSize, indexUuid, rootPageNumber, nextPageNumber, pages := images }
  let _ ← atStage "bulk_build_validation_failed" (validateIndexBtreePhysicalTree tree)
  atStage "bulk_build_report_invalid" (reportIndexBtreePhysicalTree tree)
  .ok
    { tree
      branchLevelsBuilt := branchLevelCount > 0
      fenceKeysStored := branchLevelCount > 0
      leafPageCount
      branchLevelCount }

/-- The root, once it is the only page of its level. -/
def IndexBtreePageBody.asBulkRoot (page : IndexBtreePageBody) :
    IndexBtreePageBody :=
  { page with
    pageKind := .root
    parentPageNumber := 0
    leftSiblingPageNumber := 0
    rightSiblingPageNumber := 0 }

def finishBulkBuild (request : IndexBtreePhysicalBulkBuildRequest)
    (leafPageCount : Nat) (state : BulkState) :
    Except DiagnosticRecord IndexBtreePhysicalBulkBuildResult :=
  serializeBulkBuiltPages (state.below ++ state.current.map (·.asBulkRoot))
    ((state.current.head?.map (·.pageNumber)).getD 0) state.next
    request.pageSize request.indexUuid leafPageCount state.branchLevelCount

/-- The cells are live cells of leaves in order. -/
def checkSortedCells : Nat → Option IndexBtreeCell → List IndexBtreeCell →
    Except DiagnosticRecord Unit
  | _, _, [] => .ok ()
  | i, previous, cell :: rest =>
    if cell.highKey || cell.deleted || cell.childPageNumber != 0 then
      indexPageError "SB-INDEX-BTREE-BULK-BUILD-LEAF-CELL-INVALID"
        "storage.index_btree_bulk_build.leaf_cell_invalid" (toString i)
    else if misplaced previous (some cell) then
      indexPageError "SB-INDEX-BTREE-BULK-BUILD-CELLS-UNSORTED"
        "storage.index_btree_bulk_build.cells_unsorted" (toString i)
    else checkSortedCells (i + 1) (some cell) rest

def checkBulkRequest (request : IndexBtreePhysicalBulkBuildRequest) :
    Except DiagnosticRecord Unit :=
  if !isTypedEngineIdentity request.indexUuid .object then
    indexPageError "SB-INDEX-BTREE-BULK-BUILD-INDEX-UUID-MUST-BE-V7"
      "storage.index_btree_bulk_build.index_uuid_must_be_v7"
  else if !request.sortedOrderProofValid then
    indexPageError "SB-INDEX-BTREE-BULK-BUILD-ORDER-PROOF-INVALID"
      "storage.index_btree_bulk_build.order_proof_invalid"
  else if request.pageSize.toNat ≤ kPageHeaderSerializedBytes + kIndexBtreePageBodyHeaderBytes then
    indexPageError "SB-INDEX-BTREE-BULK-BUILD-PAGE-SIZE-TOO-SMALL"
      "storage.index_btree_bulk_build.page_size_too_small" (toString request.pageSize.toNat)
  else if request.leafCapacity = 0 ∨ request.internalCapacity = 0 then
    indexPageError "SB-INDEX-BTREE-BULK-BUILD-CAPACITY-INVALID"
      "storage.index_btree_bulk_build.capacity_invalid"
  else checkSortedCells 0 none request.sortedCells

def buildIndexBtreePhysicalBulkLoadedTree (rounds : Nat)
    (request : IndexBtreePhysicalBulkBuildRequest) :
    Option (Except DiagnosticRecord IndexBtreePhysicalBulkBuildResult) :=
  match checkBulkRequest request with
  | .error d => some (.error d)
  | .ok () =>
    if request.sortedCells = [] then
      some (serializeBulkBuiltPages
        [{ indexUuid := request.indexUuid
           pageNumber := 1
           pageKind := .root
           treeLevel := 0 }] 1 2 request.pageSize request.indexUuid 1 0)
    else
      match packLeaves request with
      | .error d => some (.error d)
      | .ok leaves =>
        match buildBranchLevels request rounds leaves with
        | none => none
        | some (.error d) => some (.error d)
        | some (.ok state) => some (finishBulkBuild request leaves.current.length state)

end ScratchBird.Btree
