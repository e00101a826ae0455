import ScratchBird.Index.BtreeTree

/-!
# Structural validation of the ordered index

`ValidateIndexBtreePhysicalTree` and the traversal of the pages reachable from
the root. The traversal of the source refuses a page it has already seen, so it
ends; the fuel here is one more than the number of images, which no path through
distinct stored pages exceeds.
-/

namespace ScratchBird.Btree

open Lib

/-- What the traversal gathers: pages seen, newest first, the leaves from left
to right with their live entries, and the number of deleted cells passed. -/
structure ReachableContent where
  reachablePages : List UInt64 := []
  leaves : List IndexBtreePageBody := []
  liveEntries : List IndexBtreeCell := []
  tombstoneCount : Nat := 0

def liveCells (page : IndexBtreePageBody) : List IndexBtreeCell := page.cells.filter (!·.deleted)

def sameFenceCell (observed expected : IndexBtreeCell) : Bool :=
  observed.highKey && !observed.deleted && observed.childPageNumber == expected.childPageNumber &&
    compareIndexBtreeCellsUnchecked observed expected != .lt

def sameLiveEntry (left right : IndexBtreeCell) : Bool :=
  left.encodedKey == right.encodedKey &&
    left.rowUuid.value == right.rowUuid.value &&
    left.versionUuid.value == right.versionUuid.value

/-- A fetch whose refusal names the page in place of the fetch's own detail. -/
def validationFetch (tree : IndexBtreePhysicalTree) (pageNumber : UInt64) :
    Except DiagnosticRecord IndexBtreePageBody :=
  match fetchIndexBtreePhysicalPage tree pageNumber with
  | .ok page => .ok page
  | .error d => indexPageError d.diagnosticCode d.messageKey (toString pageNumber.toNat)

def ReachableContent.withLeaf (content : ReachableContent)
    (page : IndexBtreePageBody) : ReachableContent :=
  { content with
    leaves := content.leaves ++ [page]
    liveEntries := content.liveEntries ++ liveCells page
    tombstoneCount := content.tombstoneCount + page.cells.countP (·.deleted) }

/-- The checks on one fence before its child is visited. -/
def checkFence (tree : IndexBtreePhysicalTree) (page : IndexBtreePageBody)
    (fence : IndexBtreeCell) : Except DiagnosticRecord Unit :=
  if !fence.highKey || fence.childPageNumber == 0 then
    indexPageError "SB-INDEX-BTREE-PHYSICAL-VALIDATE-FENCE-INVALID"
      "storage.index_btree_physical.validate_fence_invalid" (toString page.pageNumber.toNat)
  else do
    let child ← validationFetch tree fence.childPageNumber
    if child.treeLevel.toNat + 1 ≠ page.treeLevel.toNat then
      indexPageError "SB-INDEX-BTREE-PHYSICAL-VALIDATE-LEVEL-MISMATCH"
        "storage.index_btree_physical.validate_level_mismatch"
        (toString fence.childPageNumber.toNat)
    else if !sameFenceCell fence (fenceCellForPage child) then
      indexPageError "SB-INDEX-BTREE-PHYSICAL-VALIDATE-FENCE-MISMATCH"
        "storage.index_btree_physical.validate_fence_mismatch"
        (toString fence.childPageNumber.toNat)
    else .ok ()

def visitFences (tree : IndexBtreePhysicalTree) (page : IndexBtreePageBody)
    (visit : UInt64 → ReachableContent → Except DiagnosticRecord ReachableContent) :
    List IndexBtreeCell → ReachableContent → Except DiagnosticRecord ReachableContent
  | [], content => .ok content
  | fence :: rest, content => do
      checkFence tree page fence
      let content ← visit fence.childPageNumber content
      visitFences tree page visit rest content

def collectReachableContent (tree : IndexBtreePhysicalTree) :
    Nat → UInt64 → UInt64 → ReachableContent → Except DiagnosticRecord ReachableContent
  | 0, _, _, _ => indexPageError "" "storage.index_btree_physical.traversal_does_not_end"
  | fuel + 1, expectedParent, pageNumber, content =>
    if content.reachablePages.contains pageNumber then
      indexPageError "SB-INDEX-BTREE-PHYSICAL-VALIDATE-CYCLE"
        "storage.index_btree_physical.validate_cycle" (toString pageNumber.toNat)
    else do
      let content :=
        { content with
          reachablePages := pageNumber :: content.reachablePages }
      let page ← validationFetch tree pageNumber
      if page.indexUuid.value ≠ tree.indexUuid.value then
        indexPageError "SB-INDEX-BTREE-PHYSICAL-VALIDATE-INDEX-MISMATCH"
          "storage.index_btree_physical.validate_index_mismatch" (toString pageNumber.toNat)
      else if page.parentPageNumber ≠ expectedParent then
        indexPageError "SB-INDEX-BTREE-PHYSICAL-VALIDATE-PARENT-MISMATCH"
          "storage.index_btree_physical.validate_parent_mismatch" (toString pageNumber.toNat)
      else if isLeafLike page then .ok (content.withLeaf page)
      else if !isInternalLike page then
        indexPageError "SB-INDEX-BTREE-PHYSICAL-VALIDATE-PAGE-KIND-INVALID"
          "storage.index_btree_physical.validate_page_kind_invalid" (toString pageNumber.toNat)
      else
        visitFences tree page (collectReachableContent tree fuel page.pageNumber) page.cells content

/-- Also `ValidateReachablePageUnlocked`, which does not count deleted cells. -/
def collectFromRoot (tree : IndexBtreePhysicalTree) :
    Except DiagnosticRecord ReachableContent :=
  collectReachableContent tree (tree.pages.length + 1) 0 tree.rootPageNumber {}

/-- `CollectRepairLiveEntriesUnlocked`: the live entries of the leaves that can
be reached. -/
def collectRepairLiveEntries (tree : IndexBtreePhysicalTree) :
    Except DiagnosticRecord (List IndexBtreeCell) := (·.liveEntries) <$> collectFromRoot tree

def checkImages (tree : IndexBtreePhysicalTree) :
    List UInt64 → List IndexBtreePhysicalPageImage → Except DiagnosticRecord Unit
  | _, [] => .ok ()
  | seen, image :: rest =>
    if seen.contains image.pageNumber then
      indexPageError "SB-INDEX-BTREE-PHYSICAL-VALIDATE-DUPLICATE-PAGE"
        "storage.index_btree_physical.validate_duplicate_page" (toString image.pageNumber.toNat)
    else
      match parseIndexBtreePageBody image.serialized image.pageNumber with
      | .error d => indexPageError d.diagnosticCode d.messageKey (toString image.pageNumber.toNat)
      | .ok parsed =>
        if parsed.body.indexUuid.value ≠ tree.indexUuid.value then
          indexPageError "SB-INDEX-BTREE-PHYSICAL-VALIDATE-INDEX-MISMATCH"
            "storage.index_btree_physical.validate_index_mismatch" (toString image.pageNumber.toNat)
        else checkImages tree (image.pageNumber :: seen) rest

/-- Every leaf names the leaf before it and the leaf behind it. -/
def checkSiblings : UInt64 → List IndexBtreePageBody → Except DiagnosticRecord Unit
  | _, [] => .ok ()
  | expectedLeft, leaf :: rest =>
    let expectedRight := (rest.head?.map (·.pageNumber)).getD 0
    if leaf.leftSiblingPageNumber ≠ expectedLeft ∨ leaf.rightSiblingPageNumber ≠ expectedRight then
      indexPageError "SB-INDEX-BTREE-PHYSICAL-VALIDATE-SIBLING-MISMATCH"
        "storage.index_btree_physical.validate_sibling_mismatch" (toString leaf.pageNumber.toNat)
    else checkSiblings leaf.pageNumber rest

/-- Whether two cells, when both exist, stand in the wrong order. -/
def misplaced (previous current : Option IndexBtreeCell) : Bool :=
  match previous, current with
  | some p, some c => compareIndexBtreeCellsUnchecked p c == .gt
  | _, _ => false

def checkLeafRanges : List IndexBtreePageBody → Except DiagnosticRecord Unit
  | previous :: leaf :: rest =>
    if misplaced (lastLiveCell previous) (firstLiveCell leaf) then
      indexPageError "SB-INDEX-BTREE-PHYSICAL-VALIDATE-LEAF-RANGE-PARTITION"
        "storage.index_btree_physical.validate_leaf_range_partition"
        (toString leaf.pageNumber.toNat)
    else checkLeafRanges (leaf :: rest)
  | _ => .ok ()

/-- A refusal at the first neighbours, counted from `i`, that `bad` names. -/
def checkNeighbours (bad : IndexBtreeCell → IndexBtreeCell → Bool)
    (code key : String) : Nat → List IndexBtreeCell → Except DiagnosticRecord Unit
  | i, previous :: cell :: rest =>
    if bad previous cell then indexPageError code key (toString i)
    else checkNeighbours bad code key (i + 1) (cell :: rest)
  | _, _ => .ok ()

def checkGlobalOrder (entries : List IndexBtreeCell) : Except DiagnosticRecord Unit :=
  checkNeighbours (fun p c => compareIndexBtreeCellsUnchecked p c == .gt)
    "SB-INDEX-BTREE-PHYSICAL-VALIDATE-GLOBAL-LEAF-ORDER"
    "storage.index_btree_physical.validate_global_leaf_order" 1 entries

def checkDuplicates (entries : List IndexBtreeCell) : Except DiagnosticRecord Unit :=
  checkNeighbours sameLiveEntry "SB-INDEX-BTREE-PHYSICAL-VALIDATE-DUPLICATE-LIVE-ENTRY"
    "storage.index_btree_physical.validate_duplicate_live_entry" 1 (sortCells entries)

structure IndexBtreePhysicalTreeValidationResult where
  reachablePageCount : Nat
  reachableLeafPageCount : Nat
  liveEntryCount : Nat

def validateIndexBtreePhysicalTree (tree : IndexBtreePhysicalTree) :
    Except DiagnosticRecord IndexBtreePhysicalTreeValidationResult :=
  if tree.rootPageNumber = 0 ∨ tree.pageSize = 0 then
    indexPageError "SB-INDEX-BTREE-PHYSICAL-VALIDATE-TREE-INVALID"
      "storage.index_btree_physical.validate_tree_invalid"
  else if !Storage.isTypedEngineIdentity tree.indexUuid .object then
    indexPageError "SB-INDEX-BTREE-PHYSICAL-VALIDATE-INDEX-UUID-INVALID"
      "storage.index_btree_physical.validate_index_uuid_invalid"
  else do
    checkImages tree [] tree.pages
    let content ← collectFromRoot tree
    checkSiblings 0 content.leaves
    checkLeafRanges content.leaves
    checkGlobalOrder content.liveEntries
    checkDuplicates content.liveEntries
    .ok
      { reachablePageCount := content.reachablePages.length
        reachableLeafPageCount := content.leaves.length
        liveEntryCount := content.liveEntries.length }

end ScratchBird.Btree
