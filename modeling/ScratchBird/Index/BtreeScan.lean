import ScratchBird.Index.BtreeTree

/-!
# Scanning the ordered index

`ScanIndexBtreePhysicalTree`: the request is checked, the leaves it can concern
are collected with subtrees pruned by their fences, and the live cells of those
leaves that satisfy the request are sorted, turned around and cut to the limit.
The checks for a mode or an ordering outside their enumerations have no value to
refuse here. The flags of a locator that the source sets to constants, and the
evidence strings, are left out.
-/

namespace ScratchBird.Btree

open Lib
open Index (Bytes)

inductive IndexBtreePhysicalScanMode where
  | point | range | prefixed | ordered
  deriving DecidableEq

inductive IndexBtreePhysicalScanOrdering where
  | forward | reverse
  deriving DecidableEq

structure IndexBtreePhysicalScanBound where
  encodedKey : Bytes := []
  inclusive : Bool := true
  unbounded : Bool := true

structure IndexBtreePhysicalScanRequest where
  mode : IndexBtreePhysicalScanMode := .ordered
  ordering : IndexBtreePhysicalScanOrdering := .forward
  pointKey : Bytes := []
  lowerBound : IndexBtreePhysicalScanBound := {}
  upperBound : IndexBtreePhysicalScanBound := {}
  scanPrefix : Bytes := []
  limit : Nat := 0

structure IndexBtreePhysicalRowLocator where
  encodedKey : Bytes
  rowUuid : TypedUuid
  versionUuid : TypedUuid
  leafPageNumber : UInt64
  cellOrdinal : Nat

structure ScanTraversalAccounting where
  reachableLeafPages : Nat := 0
  visitedLeafPages : Nat := 0
  prunedLeafPages : Nat := 0
  prunedSubtrees : Nat := 0

structure IndexBtreePhysicalScanResult where
  locators : List IndexBtreePhysicalRowLocator
  accounting : ScanTraversalAccounting

/-! ## Checking a request -/

def validateScanKeyBytes (encodedKey : Bytes) (detail : String) : Except DiagnosticRecord Unit :=
  match validateEncodedKey { encodedKey := encodedKey } 0 with
  | .ok () => .ok ()
  | .error d => indexPageError d.diagnosticCode d.messageKey detail

def validateScanPrefixBytes (encodedPrefix : Bytes) (detail : String) :
    Except DiagnosticRecord Unit :=
  if encodedPrefix = [] then
    indexPageError "SB-INDEX-BTREE-PHYSICAL-SCAN-PREFIX-MISSING"
      "storage.index_btree_physical.scan_prefix_missing" detail
  else if isUnsafeLegacyEncodedKey encodedPrefix then
    indexPageError "SB-INDEX-BTREE-PHYSICAL-SCAN-UNSAFE-LEGACY-PREFIX"
      "storage.index_btree_physical.scan_unsafe_legacy_prefix" detail
  else if !isOrderPreservingEncodedKey encodedPrefix then
    indexPageError "SB-INDEX-BTREE-PHYSICAL-SCAN-PREFIX-ENVELOPE-INVALID"
      "storage.index_btree_physical.scan_prefix_envelope_invalid" detail
  else if encodedPrefix.length ≤ kOrderPreservingKeyMagic.length then
    indexPageError "SB-INDEX-BTREE-PHYSICAL-SCAN-PREFIX-EMPTY"
      "storage.index_btree_physical.scan_prefix_empty" detail
  else if [0, 0].isSuffixOf encodedPrefix then
    indexPageError "SB-INDEX-BTREE-PHYSICAL-SCAN-PREFIX-TERMINATED"
      "storage.index_btree_physical.scan_prefix_terminated"
      "prefix scans require generated matcher bytes, not a full encoded key"
  else .ok ()

def validateScanBound (bound : IndexBtreePhysicalScanBound)
    (detail : String) : Except DiagnosticRecord Unit :=
  if bound.unbounded then .ok ()
  else validateScanKeyBytes bound.encodedKey detail

def validateScanBounds (lower upper : IndexBtreePhysicalScanBound) :
    Except DiagnosticRecord Unit := do
  validateScanBound lower "lower_bound"
  validateScanBound upper "upper_bound"
  if !lower.unbounded && !upper.unbounded &&
      compareEncodedKeysOnly lower.encodedKey upper.encodedKey == .gt then
    indexPageError "SB-INDEX-BTREE-PHYSICAL-SCAN-BOUNDS-INVALID"
      "storage.index_btree_physical.scan_bounds_invalid"
  else .ok ()

def validateScanRequest (request : IndexBtreePhysicalScanRequest) : Except DiagnosticRecord Unit :=
  match request.mode with
  | .point => validateScanKeyBytes request.pointKey "point"
  | .range => validateScanBounds request.lowerBound request.upperBound
  | .ordered => validateScanBounds request.lowerBound request.upperBound
  | .prefixed => validateScanPrefixBytes request.scanPrefix "prefix"

/-! ## Pruning by fences -/

def encodedKeyStartsWith (key start : Bytes) : Bool := start.isPrefixOf key

def fenceHighKeyBelowLowerBound (lower : IndexBtreePhysicalScanBound)
    (fence : IndexBtreeCell) : Bool :=
  !lower.unbounded && (compareEncodedKeysOnly fence.encodedKey lower.encodedKey == .lt ||
      (compareEncodedKeysOnly fence.encodedKey lower.encodedKey == .eq && !lower.inclusive))

def fenceHighKeyEndsAfterUpperBound (upper : IndexBtreePhysicalScanBound)
    (fence : IndexBtreeCell) : Bool :=
  !upper.unbounded && (compareEncodedKeysOnly fence.encodedKey upper.encodedKey == .gt ||
      (compareEncodedKeysOnly fence.encodedKey upper.encodedKey == .eq && !upper.inclusive))

def compareFenceKeyToPrefix (fence : IndexBtreeCell) (start : Bytes) :
    Ordering :=
  if encodedKeyStartsWith fence.encodedKey start then .eq
  else compareEncodedKeysOnly fence.encodedKey start

def fenceHighKeyBelowScanRequest (request : IndexBtreePhysicalScanRequest)
    (fence : IndexBtreeCell) : Bool :=
  match request.mode with
  | .point => compareEncodedKeysOnly fence.encodedKey request.pointKey == .lt
  | .range => fenceHighKeyBelowLowerBound request.lowerBound fence
  | .prefixed => compareFenceKeyToPrefix fence request.scanPrefix == .lt
  | .ordered => false

def fenceHighKeyEndsScanRequest (request : IndexBtreePhysicalScanRequest)
    (fence : IndexBtreeCell) : Bool :=
  match request.mode with
  | .point => compareEncodedKeysOnly fence.encodedKey request.pointKey == .gt
  | .range => fenceHighKeyEndsAfterUpperBound request.upperBound fence
  | .prefixed => compareFenceKeyToPrefix fence request.scanPrefix == .gt
  | .ordered => false

/-! ## Collecting leaves -/

/-- The checks a traversal makes on each page it comes to. -/
def scanPage (tree : IndexBtreePhysicalTree) (seen : List UInt64)
    (expectedParent pageNumber : UInt64) : Except DiagnosticRecord IndexBtreePageBody :=
  if seen.contains pageNumber then
    indexPageError "SB-INDEX-BTREE-PHYSICAL-SCAN-CYCLE"
      "storage.index_btree_physical.scan_cycle" (toString pageNumber.toNat)
  else do
    let page ← fetchIndexBtreePhysicalPage tree pageNumber
    if page.indexUuid.value ≠ tree.indexUuid.value then
      indexPageError "SB-INDEX-BTREE-PHYSICAL-SCAN-INDEX-MISMATCH"
        "storage.index_btree_physical.scan_index_mismatch" (toString pageNumber.toNat)
    else if page.parentPageNumber ≠ expectedParent then
      indexPageError "SB-INDEX-BTREE-PHYSICAL-SCAN-PARENT-MISMATCH"
        "storage.index_btree_physical.scan_parent_mismatch" (toString pageNumber.toNat)
    else if !isLeafLike page && !isInternalLike page then
      indexPageError "SB-INDEX-BTREE-PHYSICAL-SCAN-PAGE-KIND-INVALID"
        "storage.index_btree_physical.scan_page_kind_invalid" (toString pageNumber.toNat)
    else .ok page

def checkScanFence (page : IndexBtreePageBody) (fence : IndexBtreeCell) :
    Except DiagnosticRecord Unit :=
  if !fence.highKey || fence.childPageNumber == 0 then
    indexPageError "SB-INDEX-BTREE-PHYSICAL-SCAN-FENCE-INVALID"
      "storage.index_btree_physical.scan_fence_invalid" (toString page.pageNumber.toNat)
  else .ok ()

/-- The leaves below the fences of a page: at the lowest level one a fence,
above it those `count` finds below the child. -/
def countFences (page : IndexBtreePageBody) (count : UInt64 → List UInt64 →
      Except DiagnosticRecord (Nat × List UInt64)) :
    List IndexBtreeCell → Nat → List UInt64 → Except DiagnosticRecord (Nat × List UInt64)
  | [], leafPages, counted => .ok (leafPages, counted)
  | fence :: rest, leafPages, counted => do
      checkScanFence page fence
      if page.treeLevel = 1 then
        countFences page count rest (leafPages + 1) counted
      else do
        let (below, counted) ← count fence.childPageNumber counted
        countFences page count rest (leafPages + below) counted

def countPrunedLeafPages (tree : IndexBtreePhysicalTree) :
    Nat → UInt64 → UInt64 → List UInt64 → Except DiagnosticRecord (Nat × List UInt64)
  | 0, _, _, _ => indexPageError "" "storage.index_btree_physical.traversal_does_not_end"
  | fuel + 1, expectedParent, pageNumber, counted => do
      let page ← scanPage tree counted expectedParent pageNumber
      if isLeafLike page then .ok (1, pageNumber :: counted)
      else
        countFences page (countPrunedLeafPages tree fuel page.pageNumber)
          page.cells 0 (pageNumber :: counted)

/-- The number of leaf pages below a fence that is passed over. -/
def prunedLeafPagesBelow (tree : IndexBtreePhysicalTree)
    (parent : IndexBtreePageBody) (fence : IndexBtreeCell) : Except DiagnosticRecord Nat :=
  if parent.treeLevel ≤ 1 then .ok 1
  else
    (·.1) <$> countPrunedLeafPages tree (tree.pages.length + 1)
      parent.pageNumber fence.childPageNumber []

structure ScanState where
  visitedPages : List UInt64 := []
  leaves : List IndexBtreePageBody := []
  accounting : ScanTraversalAccounting := {}

def accountPrunedSubtree (tree : IndexBtreePhysicalTree)
    (parent : IndexBtreePageBody) (fence : IndexBtreeCell)
    (state : ScanState) : Except DiagnosticRecord ScanState := do
  let leafPages ← prunedLeafPagesBelow tree parent fence
  .ok
    { state with
      accounting :=
        { state.accounting with
          reachableLeafPages := state.accounting.reachableLeafPages + leafPages
          prunedLeafPages := state.accounting.prunedLeafPages + leafPages
          prunedSubtrees := state.accounting.prunedSubtrees + 1 } }

def accountPrunedSubtrees (tree : IndexBtreePhysicalTree) (parent : IndexBtreePageBody) :
    List IndexBtreeCell → ScanState → Except DiagnosticRecord ScanState
  | [], state => .ok state
  | fence :: rest, state => do
      let state ← accountPrunedSubtree tree parent fence state
      accountPrunedSubtrees tree parent rest state

def ScanState.withLeaf (state : ScanState) (page : IndexBtreePageBody) :
    ScanState :=
  { state with
    leaves := state.leaves ++ [page]
    accounting :=
      { state.accounting with
        reachableLeafPages := state.accounting.reachableLeafPages + 1
        visitedLeafPages := state.accounting.visitedLeafPages + 1 } }

def scanFences (tree : IndexBtreePhysicalTree)
    (request : IndexBtreePhysicalScanRequest) (page : IndexBtreePageBody)
    (visit : UInt64 → ScanState → Except DiagnosticRecord ScanState) :
    List IndexBtreeCell → ScanState → Except DiagnosticRecord ScanState
  | [], state => .ok state
  | fence :: rest, state => do
      checkScanFence page fence
      if fenceHighKeyBelowScanRequest request fence then do
        let state ← accountPrunedSubtree tree page fence state
        scanFences tree request page visit rest state
      else do
        let state ← visit fence.childPageNumber state
        if fenceHighKeyEndsScanRequest request fence then
          accountPrunedSubtrees tree page rest state
        else scanFences tree request page visit rest state

def collectPrunedScanLeaves (tree : IndexBtreePhysicalTree)
    (request : IndexBtreePhysicalScanRequest) :
    Nat → UInt64 → UInt64 → ScanState → Except DiagnosticRecord ScanState
  | 0, _, _, _ => indexPageError "" "storage.index_btree_physical.traversal_does_not_end"
  | fuel + 1, expectedParent, pageNumber, state => do
      let page ← scanPage tree state.visitedPages expectedParent pageNumber
      let state := { state with visitedPages := pageNumber :: state.visitedPages }
      if isLeafLike page then .ok (state.withLeaf page)
      else
        scanFences tree request page (collectPrunedScanLeaves tree request fuel page.pageNumber)
          page.cells state

/-! ## The locators of a scan -/

def scanBoundAllowsLower (bound : IndexBtreePhysicalScanBound) (cell : IndexBtreeCell) : Bool :=
  bound.unbounded || (compareEncodedKeysOnly cell.encodedKey bound.encodedKey == .gt ||
      (compareEncodedKeysOnly cell.encodedKey bound.encodedKey == .eq && bound.inclusive))

def scanBoundAllowsUpper (bound : IndexBtreePhysicalScanBound) (cell : IndexBtreeCell) : Bool :=
  bound.unbounded || (compareEncodedKeysOnly cell.encodedKey bound.encodedKey == .lt ||
      (compareEncodedKeysOnly cell.encodedKey bound.encodedKey == .eq && bound.inclusive))

def scanRequestIncludesCell (request : IndexBtreePhysicalScanRequest)
    (cell : IndexBtreeCell) : Bool :=
  match request.mode with
  | .point => compareEncodedKeysOnly cell.encodedKey request.pointKey == .eq
  | .range => scanBoundAllowsLower request.lowerBound cell &&
      scanBoundAllowsUpper request.upperBound cell
  | .ordered => scanBoundAllowsLower request.lowerBound cell &&
      scanBoundAllowsUpper request.upperBound cell
  | .prefixed => encodedKeyStartsWith cell.encodedKey request.scanPrefix

def locatorOf (leaf : IndexBtreePageBody) (cell : IndexBtreeCell) (i : Nat) :
    IndexBtreePhysicalRowLocator :=
  { encodedKey := cell.encodedKey
    rowUuid := cell.rowUuid
    versionUuid := cell.versionUuid
    leafPageNumber := leaf.pageNumber
    cellOrdinal := i }

def leafLocators (request : IndexBtreePhysicalScanRequest)
    (leaf : IndexBtreePageBody) : List IndexBtreePhysicalRowLocator :=
  (leaf.cells.zipIdx.filter fun (cell, _) =>
    !(cell.deleted || cell.highKey || !scanRequestIncludesCell request cell)).map
      fun (cell, i) => locatorOf leaf cell i

def compareLocators (left right : IndexBtreePhysicalRowLocator) : Ordering :=
  (compareEncodedKeysOnly left.encodedKey right.encodedKey).then
    ((compareUuid128 left.rowUuid.value right.rowUuid.value).then
      (compareUuid128 left.versionUuid.value right.versionUuid.value))

/-- The negation of `LocatorLess`, with the arguments turned around. -/
def locatorNotBefore (a b : IndexBtreePhysicalRowLocator) : Prop := compareLocators b a ≠ .lt

instance (a b : IndexBtreePhysicalRowLocator) :
    Decidable (locatorNotBefore a b) := inferInstanceAs (Decidable (_ ≠ _))

def orderLocators (ordering : IndexBtreePhysicalScanOrdering)
    (locators : List IndexBtreePhysicalRowLocator) : List IndexBtreePhysicalRowLocator :=
  match ordering with
  | .forward => locators.insertionSort locatorNotBefore
  | .reverse => (locators.insertionSort locatorNotBefore).reverse

def limitLocators (limit : Nat) (locators : List IndexBtreePhysicalRowLocator) :
    List IndexBtreePhysicalRowLocator :=
  if 0 < limit ∧ limit < locators.length then locators.take limit else locators

def scanIndexBtreePhysicalTree (tree : IndexBtreePhysicalTree)
    (request : IndexBtreePhysicalScanRequest) :
    Except DiagnosticRecord IndexBtreePhysicalScanResult :=
  if tree.rootPageNumber = 0 then
    indexPageError "SB-INDEX-BTREE-PHYSICAL-TREE-INVALID"
      "storage.index_btree_physical.tree_invalid"
  else do
    validateScanRequest request
    let state ← collectPrunedScanLeaves tree request (tree.pages.length + 1) 0
      tree.rootPageNumber {}
    .ok
      { locators := limitLocators request.limit (orderLocators request.ordering
            (state.leaves.flatMap (leafLocators request)))
        accounting := state.accounting }

def prefixScanIndexBtreePhysicalTree (tree : IndexBtreePhysicalTree) (encodedPrefix : Bytes)
    (ordering : IndexBtreePhysicalScanOrdering) (limit : Nat) :
    Except DiagnosticRecord IndexBtreePhysicalScanResult :=
  scanIndexBtreePhysicalTree tree
    { mode := .prefixed, ordering, scanPrefix := encodedPrefix, limit }

end ScratchBird.Btree
